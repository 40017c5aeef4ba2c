import ResponseCache.Abort
import ResponseCache.Decimal.Layout
import ResponseCache.Json.Document
import ResponseCache.StatusSet
import ResponseCache.Text.Quoted

/-!
This module contains the decoding of JSON values into the types of the domain, and the errors it may
end with. The first error in the order of the document is the one that is reported.
-/

namespace ResponseCache.Json

/-- A value of the wrong kind, as an error shows it. -/
inductive Found where
  | null
  | bool (b : Bool)
  | number (n : Number)
  | string (s : String)
  | array
  | object
  deriving Repr

def Number.text : Number → String
  | .natural n => toString n
  | .negative n => "-" ++ toString n
  | .float f => Decimal.floatText f

def Found.text : Found → String
  | .null => "null"
  | .bool b => "boolean `" ++ (if b then "true" else "false") ++ "`"
  | .number (.float f) => "floating point `" ++ Decimal.floatText f ++ "`"
  | .number n => "integer `" ++ n.text ++ "`"
  | .string s => "string " ++ Text.quoted s
  | .array => "sequence"
  | .object => "map"

inductive DecodeError where
  | malformed
  | invalidType (found : Found) (expected : String)
  | invalidValue (found : Found) (expected : String)
  | invalidLength (length : Nat) (expected : String)
  | duplicateField (name : String)
  | unknownVariant (name : String) (known : List String)
  | aborted (abort : Abort)
  deriving Repr

def ticked (name : String) : String :=
  "`" ++ name ++ "`"

def DecodeError.message : DecodeError → String
  | .malformed => "malformed text"
  | .invalidType found expected => "invalid type: " ++ found.text ++ ", expected " ++ expected
  | .invalidValue found expected => "invalid value: " ++ found.text ++ ", expected " ++ expected
  | .invalidLength length expected =>
    "invalid length " ++ toString length ++ ", expected " ++ expected
  | .duplicateField name => "duplicate field " ++ ticked name
  | .unknownVariant name known =>
    "unknown variant " ++ ticked name ++ ", expected one of "
      ++ ", ".intercalate (known.map ticked)
  | .aborted abort => abort.message

def mismatch (expected : String) : Json → DecodeError
  | .null => .invalidType .null expected
  | .bool b => .invalidType (.bool b) expected
  | .number n => .invalidType (.number n) expected
  | .string s => .invalidType (.string s) expected
  | .array .. => .invalidType .array expected
  | .object .. => .invalidType .object expected
  | .unreadable => .malformed
  | .broken => .malformed

def decodeString : Json → Except DecodeError String
  | .string s => .ok s
  | value => .error (value.mismatch "a string")

def decodeBool : Json → Except DecodeError Bool
  | .bool b => .ok b
  | value => .error (value.mismatch "a boolean")

def decodeWord16 : Json → Except DecodeError Word16
  | .number (.natural n) =>
    if h : n < UInt16.size then .ok ⟨n, h⟩ else .error (.invalidValue (.number (.natural n)) "u16")
  | .number (.negative n) => .error (.invalidValue (.number (.negative n)) "u16")
  | value => .error (value.mismatch "u16")

def decodeList (item : Json → Except DecodeError α) : Json → Except DecodeError (List α)
  | .array items closed => do
    let decoded ← items.mapM item
    if closed then return decoded else throw .malformed
  | value => .error (value.mismatch "a sequence")

def decodeOptional (value : Json → Except DecodeError α) : Json → Except DecodeError (Option α)
  | .null => .ok none
  | v => (value v).map some

/-- The name of a field that is not to be repeated. -/
def once (name : String) (present : Option α) : Except DecodeError Unit :=
  if present.isSome then .error (.duplicateField name) else .ok ()

/--
How a record is decoded: from an object, field by field in the order of the document, or from an
array that gives the fields in the order of their declaration. Absent fields are left to defaults.
-/
structure RecordDecoder (α : Type) where
  /-- The name of the record in errors. -/
  expected : String
  /-- The names of the fields in the order of their declaration. -/
  names : List String
  /-- Takes up the value of a field. The name may be unknown or repeated. -/
  field : (name : String) → (value : Json) → α → Except DecodeError α

def RecordDecoder.fields (r : RecordDecoder α) (acc : α) :
    List (Option String × Json) → Except DecodeError α
  | [] => .ok acc
  | (none, _) :: _ => .error .malformed
  | (some name, value) :: rest => do r.fields (← r.field name value acc) rest

/-- Takes up the items of an array as fields in the order of declaration. -/
def RecordDecoder.items (r : RecordDecoder α) (acc : α) :
    List String → List Json → Except DecodeError (α × List Json)
  | name :: names, value :: values => do r.items (← r.field name value acc) names values
  | _, values => .ok (acc, values)

def RecordDecoder.decode (r : RecordDecoder α) (empty : α) (doc : Document) :
    Except DecodeError α := do
  let decoded ←
    match doc.root with
    | .object fields closed => do
      let decoded ← r.fields empty fields
      if closed then pure decoded else throw .malformed
    | .array values closed => do
      let (decoded, left) ← r.items empty r.names values
      if !left.isEmpty && doc.origin = .memory then
        throw (.invalidLength values.length "fewer elements in array")
      if closed && left.isEmpty then pure decoded else throw .malformed
    | value => throw (value.mismatch r.expected)
  if doc.complete then return decoded else throw .malformed

end ResponseCache.Json
