/-!
This module contains JSON values as far as a text spells them: a text that breaks off or goes wrong
gives the values up to that place, so that a reader meets the fault where the text has it.
-/

namespace ResponseCache

/-- A number by the way it is spelled. -/
inductive Json.Number where
  /-- A natural number that fits 64 bits. -/
  | natural (n : Nat)
  /-- The negative of a number that is not zero and fits 63 bits, or is the first not to fit. -/
  | negative (n : Nat)
  /-- Any other number. -/
  | float (f : Float)
  deriving Repr

/-- A JSON value, or what a text has in the place of one. -/
inductive Json where
  | null
  | bool (b : Bool)
  | number (n : Json.Number)
  | string (s : String)
  /-- The items, and whether the text goes on to the closing bracket. -/
  | array (items : List Json) (closed : Bool)
  /-- The fields in order, and whether the text goes on to the closing brace. -/
  | object (fields : List (Option String × Json)) (closed : Bool)
  /--
  A value that can be skipped but not read: a string with half a surrogate pair, or a number out of
  range. A name without text stands for such a string too.
  -/
  | unreadable
  /-- No value. -/
  | broken
  deriving Repr

namespace Json

def nat (n : Nat) : Json :=
  .number (.natural n)

def list (items : List Json) : Json :=
  .array items true

def record (fields : List (String × Json)) : Json :=
  .object (fields.map fun (name, value) => (some name, value)) true

def optional (f : α → Json) : Option α → Json
  | some a => f a
  | none => .null

def field? (name : String) : Json → Option Json
  | .object fields _ => fields.lookup (some name)
  | _ => none

end Json

end ResponseCache
