import ResponseCache.Bytes.Utf8
import ResponseCache.Text.Number

/-!
This module contains header fields: their names, which are kept in lower case since case does not
distinguish them, their values, and the ordered collections of fields that messages carry.
-/

namespace ResponseCache

/-- The characters of a name other than letters and digits. -/
def HeaderName.marks : List Char :=
  ['!', '#', '$', '%', '&', '\x27', '*', '+', '-', '.', '^', '_', '\x60', '|', '~']

def HeaderName.isNameChar (c : Char) : Bool :=
  ('a' ≤ c && c ≤ 'z') || Text.isDigit c || HeaderName.marks.contains c

def HeaderName.isName (cs : List Char) : Bool :=
  !cs.isEmpty && cs.all HeaderName.isNameChar

structure HeaderName where
  text : String
  valid : HeaderName.isName text.toList = true
  deriving DecidableEq, Repr

/-- A text with the letters of ASCII in lower case. -/
def lowerCase (s : String) : String :=
  String.ofList (s.toList.map Char.toLower)

namespace HeaderName

def ofString? (s : String) : Option HeaderName :=
  if h : isName (lowerCase s).toList = true then some ⟨lowerCase s, h⟩ else none

def cacheControl : HeaderName :=
  ⟨"cache-control", by decide⟩

def etag : HeaderName :=
  ⟨"etag", by decide⟩

end HeaderName

def HeaderValue.isValueByte (b : UInt8) : Bool :=
  (0x20 ≤ b && b ≠ 0x7f) || b = 0x09

structure HeaderValue where
  bytes : Bytes
  valid : bytes.all HeaderValue.isValueByte = true
  deriving DecidableEq, Repr

namespace HeaderValue

def ofBytes? (bytes : Bytes) : Option HeaderValue :=
  if h : bytes.all isValueByte = true then some ⟨bytes, h⟩ else none

def ofString? (s : String) : Option HeaderValue :=
  ofBytes? (Bytes.Utf8.encode s.toList)

def isTextByte (b : UInt8) : Bool :=
  (0x20 ≤ b && b ≤ 0x7e) || b = 0x09

/-- The text of a value all of whose bytes are visible characters, blanks or tabs. -/
def text? (v : HeaderValue) : Option (List Char) :=
  if v.bytes.all isTextByte then
    some (v.bytes.map fun b => Char.ofNat b.toNat)
  else
    none

end HeaderValue

/-- The header fields of a message in the order in which they were added. -/
abbrev Headers := List (HeaderName × HeaderValue)

namespace Headers

/-- The values of a name, given in lower case, in order. -/
def getAll (h : Headers) (name : String) : List HeaderValue :=
  (h.filter fun (n, _) => n.text = name).map (·.2)

def get? (h : Headers) (name : String) : Option HeaderValue :=
  (h.getAll name).head?

def contains (h : Headers) (name : String) : Bool :=
  !(h.getAll name).isEmpty

/-- The number of bytes that the fields take, with one more for each of them. -/
def bytes : Headers → Nat
  | [] => 0
  | (name, value) :: rest => name.text.length + value.bytes.length + 1 + bytes rest

def add (h : Headers) (name : HeaderName) (value : HeaderValue) : Headers :=
  h ++ [(name, value)]

/-- The fields with one value for a name, in the place of all that it had. -/
def set (h : Headers) (name : HeaderName) (value : HeaderValue) : Headers :=
  add (h.filter fun (n, _) => n ≠ name) name value

def texts (h : Headers) (name : String) : List (List Char) :=
  (h.getAll name).filterMap HeaderValue.text?

@[simp]
theorem getAll_nil (name : String) : getAll [] name = [] := rfl

theorem getAll_append (g h : Headers) (name : String) :
    getAll (g ++ h) name = getAll g name ++ getAll h name := by
  simp [getAll]

theorem getAll_add_self (h : Headers) (name : HeaderName) (value : HeaderValue) :
    (h.add name value).getAll name.text = h.getAll name.text ++ [value] := by
  simp [add, getAll]

theorem getAll_add_of_ne (h : Headers) {name : HeaderName} {other : String}
    (value : HeaderValue) (hne : name.text ≠ other) :
    (h.add name value).getAll other = h.getAll other := by
  simp [add, getAll, hne]

/-- A value that was set is the only one of its name. -/
theorem getAll_set_self (h : Headers) (name : HeaderName) (value : HeaderValue) :
    (h.set name value).getAll name.text = [value] := by
  have hnil : getAll (h.filter fun (n, _) => n ≠ name) name.text = [] := by
    simp only [getAll, List.filter_filter, List.map_eq_nil_iff, List.filter_eq_nil_iff]
    rintro ⟨n, v⟩ -
    simp only [Bool.and_eq_true, decide_eq_true_eq, not_and, ne_eq, Decidable.not_not]
    intro htext
    cases n
    cases name
    simpa using htext
  rw [set, getAll_add_self, hnil, List.nil_append]

/-- Setting the value of a name leaves those of the others. -/
theorem getAll_set_of_ne (h : Headers) {name : HeaderName} {other : String} (value : HeaderValue)
    (hne : name.text ≠ other) : (h.set name value).getAll other = h.getAll other := by
  rw [set, getAll_add_of_ne _ _ hne]
  simp only [getAll, List.filter_filter]
  congr 1
  apply List.filter_congr
  rintro ⟨n, v⟩ -
  by_cases hn : n.text = other
  . have hname : n ≠ name := fun heq => hne (heq ▸ hn)
    simp [hn, hname]
  . simp [hn]

end Headers

end ResponseCache
