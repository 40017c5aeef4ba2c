import ResponseCache.Entry

/-!
This module contains the binary format of stored responses. Numbers are laid out with the least
significant byte first; texts, byte strings and lists follow their length in eight bytes. Readers take
what they need from the front of a byte string and leave the rest.
-/

namespace ResponseCache

open Bytes (littleEndian ofLittleEndian)

inductive CodecError where
  /-- A number, a byte of a byte string or an item of a list is missing. -/
  | unexpectedEnd
  | textTooLong
  | invalidText (fault : Bytes.Utf8.Error)
  | invalidStatus
  | beforeEpoch
  deriving DecidableEq, Repr

def CodecError.message : CodecError → String
  | .unexpectedEnd => "io error: unexpected end of file"
  | .textTooLong => "io error: "
  | .invalidText fault => "string is not valid utf8: " ++ fault.message
  | .invalidStatus => "invalid status code"
  | .beforeEpoch => "second time provided was later than self"

namespace Codec

/-- A reader takes a value from the front of a byte string and leaves the rest. -/
abbrev Reader (α : Type) := Bytes → Except CodecError (α × Bytes)

def putLength (n : Nat) : Bytes :=
  littleEndian 8 n

def putBytes (bs : Bytes) : Bytes :=
  putLength bs.length ++ bs

def putText (s : String) : Bytes :=
  putBytes (Bytes.Utf8.encode s.toList)

def putField (field : String × Bytes) : Bytes :=
  putText field.1 ++ putBytes field.2

def getNumber (width : Nat) : Reader Nat := fun bs =>
  if width ≤ bs.length then
    .ok (ofLittleEndian (bs.take width), bs.drop width)
  else
    .error .unexpectedEnd

def getLength : Reader Nat :=
  getNumber 8

def getBytes : Reader Bytes := fun bs => do
  let (n, bs) ← getLength bs
  if n ≤ bs.length then return (bs.take n, bs.drop n) else throw .unexpectedEnd

def getText : Reader String := fun bs => do
  let (n, bs) ← getLength bs
  if n ≤ bs.length then
    match Bytes.Utf8.decode (bs.take n) with
    | .ok cs => return (String.ofList cs, bs.drop n)
    | .error fault => throw (.invalidText fault)
  else
    throw .textTooLong

def getField : Reader (String × Bytes) := fun bs => do
  let (name, bs) ← getText bs
  let (value, bs) ← getBytes bs
  return ((name, value), bs)

def getFields : Nat → Reader (List (String × Bytes))
  | 0, bs => .ok ([], bs)
  | n + 1, bs => do
    let (field, bs) ← getField bs
    let (fields, bs) ← getFields n bs
    return (field :: fields, bs)

/-- The last point in time that the format can hold, in nanoseconds since the epoch. -/
def maxNanos : Nat :=
  UInt64.size - 1

/-- Writes an entry. A time that is too late for the format is replaced by the last one it holds. -/
def encode (e : Entry) : Except CodecError Bytes :=
  if e.lastValid.nanos < 0 then
    .error .beforeEpoch
  else
    .ok <|
      littleEndian 2 e.status.code
        ++ (putLength e.headers.length ++ e.headers.flatMap putField)
        ++ putBytes e.body
        ++ littleEndian 8 (min e.lastValid.unixNanos maxNanos)
        ++ putText e.etag

/-- Reads an entry and leaves the bytes after it. The status is checked when all is read. -/
def getEntry : Reader Entry := fun bs => do
  let (code, bs) ← getNumber 2 bs
  let (count, bs) ← getLength bs
  let (headers, bs) ← getFields count bs
  let (body, bs) ← getBytes bs
  let (nanos, bs) ← getNumber 8 bs
  let (etag, bs) ← getText bs
  match Status.ofNat? code, Time.ofNanos? nanos with
  | some status, some lastValid => return (⟨status, headers, body, lastValid, etag⟩, bs)
  | _, _ => throw .invalidStatus

def decode (bs : Bytes) : Except CodecError Entry :=
  (getEntry bs).map (·.1)

end Codec

end ResponseCache
