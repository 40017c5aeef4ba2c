import ResponseCache.Json.Number

/-!
This module contains the reading of JSON text. It is read as a stream: what precedes the first fault
is there to be used, and what follows it is not looked at.
-/

namespace ResponseCache.Json

def isSpace (c : Char) : Bool :=
  c = ' ' || c = '\n' || c = '\t' || c = '\r'

def skipSpace (cs : List Char) : List Char :=
  cs.dropWhile isSpace

/-- What a string is spelled with: characters, and 16-bit units given by their number. -/
inductive Unit16 where
  | char (c : Char)
  | escaped (n : Nat)
  deriving DecidableEq, Repr

def hex4? : List Char → Option (Nat × List Char)
  | a :: b :: c :: d :: rest => do
    let n ← [a, b, c, d].foldlM (fun n digit => (Text.hexValue? digit).map (16 * n + ·)) 0
    return (n, rest)
  | _ => none

/-- The character that a letter stands for after a backslash. -/
def simpleEscape? : Char → Option Char
  | '"' => some '"'
  | '\\' => some '\\'
  | '/' => some '/'
  | 'b' => some '\x08'
  | 'f' => some '\x0c'
  | 'n' => some '\n'
  | 'r' => some '\r'
  | 't' => some '\t'
  | _ => none

/--
Reads the rest of a string after its opening quote, up to the closing one. Control characters have
to be escaped. The first argument bounds the number of characters.
-/
def stringUnits? : Nat → List Char → Option (List Unit16 × List Char)
  | 0, _ => none
  | _, [] => none
  | n + 1, c :: cs =>
    if c = '"' then
      some ([], cs)
    else if c = '\\' then
      match cs with
      | 'u' :: cs => do
        let (unit, cs) ← hex4? cs
        let (units, cs) ← stringUnits? n cs
        return (.escaped unit :: units, cs)
      | e :: cs => do
        let char ← simpleEscape? e
        let (units, cs) ← stringUnits? n cs
        return (.char char :: units, cs)
      | [] => none
    else if c.toNat < 0x20 then
      none
    else do
      let (units, cs) ← stringUnits? n cs
      return (.char c :: units, cs)

def isHighSurrogate (n : Nat) : Bool :=
  0xd800 ≤ n && n ≤ 0xdbff

def isLowSurrogate (n : Nat) : Bool :=
  0xdc00 ≤ n && n ≤ 0xdfff

/-- The text that units spell, unless one of them is half of a pair. -/
def joinUnits? : List Unit16 → Option (List Char)
  | [] => some []
  | .char c :: rest => (joinUnits? rest).map (c :: ·)
  | .escaped high :: rest =>
    if isHighSurrogate high then
      match rest with
      | .escaped low :: rest =>
        if isLowSurrogate low then
          let c := Char.ofNat (0x10000 + (high - 0xd800) * 0x400 + (low - 0xdc00))
          (joinUnits? rest).map (c :: ·)
        else
          none
      | _ => none
    else if isLowSurrogate high then
      none
    else
      (joinUnits? rest).map (Char.ofNat high :: ·)

/--
Reads a string after its opening quote: the rest of the text if it comes to its closing quote, with
the string if that can be read.
-/
def string? (cs : List Char) : Option (Option String × List Char) :=
  (stringUnits? cs.length cs).map fun (units, rest) =>
    ((joinUnits? units).map String.ofList, rest)

def word? (word : List Char) (value : Json) (cs : List Char) : Json × Option (List Char) :=
  if word.isPrefixOf cs then (value, some (cs.drop word.length)) else (.broken, none)

mutual

/--
Reads the value at the head of a text. The rest of the text is given unless the text goes wrong
within the value. The first argument bounds the depth and the number of items together.
-/
def readValue : Nat → List Char → Json × Option (List Char)
  | 0, _ => (.broken, none)
  | n + 1, cs =>
    match skipSpace cs with
    | [] => (.broken, none)
    | '"' :: rest =>
      match string? rest with
      | some (some s, rest) => (.string s, some rest)
      | some (none, rest) => (.unreadable, some rest)
      | none => (.broken, none)
    | '[' :: rest =>
      match skipSpace rest with
      | ']' :: rest => (.array [] true, some rest)
      | rest =>
        let (items, rest) := readItems n rest
        (.array items rest.isSome, rest)
    | '\x7b' :: rest =>
      match skipSpace rest with
      | '\x7d' :: rest => (.object [] true, some rest)
      | rest =>
        let (fields, rest) := readFields n rest
        (.object fields rest.isSome, rest)
    | 'n' :: rest => word? ['n', 'u', 'l', 'l'] .null ('n' :: rest)
    | 't' :: rest => word? ['t', 'r', 'u', 'e'] (.bool true) ('t' :: rest)
    | 'f' :: rest => word? ['f', 'a', 'l', 's', 'e'] (.bool false) ('f' :: rest)
    | cs =>
      match numeral? cs with
      | none => (.broken, none)
      | some (numeral, rest) =>
        match numeral.value? with
        | some value => (.number value, some rest)
        | none => (.unreadable, some rest)

def readItems : Nat → List Char → List Json × Option (List Char)
  | 0, _ => ([], none)
  | n + 1, cs =>
    match readValue n cs with
    | (value, none) => ([value], none)
    | (value, some rest) =>
      match skipSpace rest with
      | ']' :: rest => ([value], some rest)
      | ',' :: rest =>
        let (items, rest) := readItems n rest
        (value :: items, rest)
      | _ => ([value], none)

def readFields : Nat → List Char → List (Option String × Json) × Option (List Char)
  | 0, _ => ([], none)
  | n + 1, cs =>
    match skipSpace cs with
    | '"' :: rest =>
      match string? rest with
      | none => ([], none)
      | some (name, rest) =>
        match skipSpace rest with
        | ':' :: rest =>
          match readValue n rest with
          | (value, none) => ([(name, value)], none)
          | (value, some rest) =>
            match skipSpace rest with
            | '\x7d' :: rest => ([(name, value)], some rest)
            | ',' :: rest =>
              let (fields, rest) := readFields n rest
              ((name, value) :: fields, rest)
            | _ => ([(name, value)], none)
        | _ => ([(name, .broken)], none)
    | _ => ([], none)

end

inductive Origin where
  /-- A text that is read while it is decoded. -/
  | text
  /-- A value in memory, which is complete. -/
  | memory
  deriving DecidableEq, Repr

structure Document where
  root : Json
  origin : Origin
  /-- Whether nothing but space follows the value. -/
  complete : Bool
  deriving Repr

def Document.ofText (text : String) : Document :=
  let cs := text.toList
  let (root, rest) := readValue (2 * cs.length + 2) cs
  ⟨root, .text, rest.any fun rest => (skipSpace rest).isEmpty⟩

/-- Puts a field into fields sorted by name, in the place of one with the same name. -/
def insertField (field : Option String × Json) :
    List (Option String × Json) → List (Option String × Json)
  | [] => [field]
  | head :: fields =>
    let name := field.1.getD ""
    let headName := head.1.getD ""
    if name < headName then field :: head :: fields
    else if name = headName then field :: fields
    else head :: insertField field fields

/-- The value with the fields of an object sorted by name, of equal names the last. -/
def sortFields : Json → Json
  | .object fields closed => .object (fields.foldl (fun sorted f => insertField f sorted) []) closed
  | value => value

/-- The document of a value in memory, which holds the fields of an object sorted by name. -/
def Document.ofValue (value : Json) : Document :=
  ⟨value.sortFields, .memory, true⟩

end ResponseCache.Json
