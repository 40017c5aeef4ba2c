import ResponseCache.Bytes.Basic
import ResponseCache.Text.Number

/-!
This module contains the UTF-8 encoding of text, and the reading of byte strings that may break its
rules: as segments, each a character or a sequence of bytes that begins no character. Strict
decoding and decoding with replacement are two views of these segments.
-/

namespace ResponseCache.Bytes.Utf8

def encodeChar (c : Char) : Bytes :=
  let n := c.toNat
  let continuation (n : Nat) : UInt8 := UInt8.ofNat (0x80 + n % 64)
  if n < 0x80 then
    [UInt8.ofNat n]
  else if n < 0x800 then
    [UInt8.ofNat (0xc0 + n / 64), continuation n]
  else if n < 0x10000 then
    [UInt8.ofNat (0xe0 + n / 4096), continuation (n / 64), continuation n]
  else
    [UInt8.ofNat (0xf0 + n / 262144), continuation (n / 4096), continuation (n / 64), continuation n]

def encode (cs : List Char) : Bytes :=
  cs.flatMap encodeChar

def length (cs : List Char) : Nat :=
  (encode cs).length

/-- What one step of reading finds at the head of a byte string. -/
inductive Segment where
  /-- A character that is encoded as the rules ask. -/
  | char (c : Char)
  /-- As many bytes as could have begun a character before the next one forbade it, at least one. -/
  | invalid (size : Nat)
  /-- As many bytes as could begin a character, but the text ends before it does. -/
  | incomplete (size : Nat)
  deriving DecidableEq, Repr

def between (first last b : UInt8) : Bool :=
  first ≤ b && b ≤ last

def isContinuation (b : UInt8) : Bool :=
  between 0x80 0xbf b

def payload (b : UInt8) : Nat :=
  b.toNat % 64

/--
The bytes that may come second in a character of three bytes. The bounds are closer than those of a
continuation after the lead bytes that would allow a shorter encoding or a surrogate.
-/
def second3 (lead : UInt8) : UInt8 → Bool :=
  if lead = 0xe0 then between 0xa0 0xbf
  else if lead = 0xed then between 0x80 0x9f
  else isContinuation

/--
The bytes that may come second in a character of four bytes. The bounds are closer after the lead
bytes that would allow a shorter encoding or a number beyond the last code point.
-/
def second4 (lead : UInt8) : UInt8 → Bool :=
  if lead = 0xf0 then between 0x90 0xbf
  else if lead = 0xf4 then between 0x80 0x8f
  else isContinuation

def segments : Bytes → List Segment
  | [] => []
  | b0 :: r0 =>
    if b0 < 0x80 then
      .char (Char.ofNat b0.toNat) :: segments r0
    else if between 0xc2 0xdf b0 then
      match r0 with
      | [] => [.incomplete 1]
      | b1 :: r1 =>
        if isContinuation b1 then
          .char (Char.ofNat (b0.toNat % 32 * 64 + payload b1)) :: segments r1
        else
          .invalid 1 :: segments (b1 :: r1)
    else if between 0xe0 0xef b0 then
      match r0 with
      | [] => [.incomplete 1]
      | b1 :: r1 =>
        if second3 b0 b1 then
          match r1 with
          | [] => [.incomplete 2]
          | b2 :: r2 =>
            if isContinuation b2 then
              .char (Char.ofNat (b0.toNat % 16 * 4096 + payload b1 * 64 + payload b2))
                :: segments r2
            else
              .invalid 2 :: segments (b2 :: r2)
        else
          .invalid 1 :: segments (b1 :: r1)
    else if between 0xf0 0xf4 b0 then
      match r0 with
      | [] => [.incomplete 1]
      | b1 :: r1 =>
        if second4 b0 b1 then
          match r1 with
          | [] => [.incomplete 2]
          | b2 :: r2 =>
            if isContinuation b2 then
              match r2 with
              | [] => [.incomplete 3]
              | b3 :: r3 =>
                if isContinuation b3 then
                  .char (Char.ofNat (b0.toNat % 8 * 262144 + payload b1 * 4096
                    + payload b2 * 64 + payload b3)) :: segments r3
                else
                  .invalid 3 :: segments (b3 :: r3)
            else
              .invalid 2 :: segments (b2 :: r2)
        else
          .invalid 1 :: segments (b1 :: r1)
    else
      .invalid 1 :: segments r0

/-- Why a byte string is not UTF-8: the place of the first fault and the bytes it spoils. -/
inductive Error where
  /-- The bytes from an index on begin no character. -/
  | invalid (size index : Nat)
  /-- The bytes from an index on begin a character that they do not end. -/
  | incomplete (index : Nat)
  deriving DecidableEq, Repr

def Error.message : Error → String
  | .invalid size index =>
    "invalid utf-8 sequence of " ++ String.ofList (Text.decimal size) ++ " bytes from index "
      ++ String.ofList (Text.decimal index)
  | .incomplete index =>
    "incomplete utf-8 byte sequence from index " ++ String.ofList (Text.decimal index)

/-- Decodes a byte string that keeps the rules, or tells where it first breaks them. -/
def decode (bs : Bytes) : Except Error (List Char) :=
  go 0 (segments bs)
where
  go (index : Nat) : List Segment → Except Error (List Char)
    | [] => .ok []
    | .char c :: rest => (go (index + (encodeChar c).length) rest).map (c :: ·)
    | .invalid size :: _ => .error (.invalid size index)
    | .incomplete _ :: _ => .error (.incomplete index)

/-- Decodes a byte string, with the replacement character for each segment that is no character. -/
def decodeLossy (bs : Bytes) : List Char :=
  (segments bs).map fun
    | .char c => c
    | .invalid _ => '\ufffd'
    | .incomplete _ => '\ufffd'

def decode? (bs : Bytes) : Option (List Char) :=
  (decode bs).toOption

@[simp]
theorem encode_nil : encode [] = [] := rfl

@[simp]
theorem encode_cons (c : Char) (cs : List Char) : encode (c :: cs) = encodeChar c ++ encode cs := rfl

@[simp]
theorem encode_append (as bs : List Char) : encode (as ++ bs) = encode as ++ encode bs := by
  simp [encode]

@[simp]
theorem length_nil : length [] = 0 := rfl

@[simp]
theorem length_cons (c : Char) (cs : List Char) :
    length (c :: cs) = (encodeChar c).length + length cs := by
  simp [length]

theorem length_encodeChar_pos (c : Char) : 0 < (encodeChar c).length := by
  unfold encodeChar
  dsimp only
  split
  . simp
  . split
    . simp
    . split <;> simp

/-- Of two texts with the same beginning, the one that takes as many bytes is the same. -/
theorem append_inj_of_length_eq {as bs xs ys : List Char} (h : as ++ xs = bs ++ ys)
    (hlen : length as = length bs) : as = bs ∧ xs = ys := by
  induction as generalizing bs with
  | nil =>
    cases bs with
    | nil => exact ⟨rfl, h⟩
    | cons b bs =>
      have hpos := length_encodeChar_pos b
      simp only [length_nil, length_cons] at hlen
      omega
  | cons a as ih =>
    cases bs with
    | nil =>
      have hpos := length_encodeChar_pos a
      simp only [length_nil, length_cons] at hlen
      omega
    | cons b bs =>
      simp only [List.cons_append, List.cons.injEq] at h
      obtain ⟨rfl, h⟩ := h
      simp only [length_cons] at hlen
      obtain ⟨rfl, rfl⟩ := ih h (by omega)
      exact ⟨rfl, rfl⟩

end ResponseCache.Bytes.Utf8
