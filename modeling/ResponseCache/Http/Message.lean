import ResponseCache.Http.Header
import ResponseCache.Http.Target

/-!
This module contains requests and responses. The body of a response is either a stream of frames, as
a handler produces it, or a byte string that is there as a whole.
-/

namespace ResponseCache

structure Status where
  code : Nat
  le_code : 100 ≤ code
  code_lt : code < 1000
  deriving DecidableEq, Repr

namespace Status

def ofNat? (code : Nat) : Option Status :=
  if h : 100 ≤ code ∧ code < 1000 then some ⟨code, h.1, h.2⟩ else none

def ok : Status :=
  ⟨200, by decide, by decide⟩

def notModified : Status :=
  ⟨304, by decide, by decide⟩

def isSuccess (s : Status) : Bool :=
  200 ≤ s.code && s.code < 300

end Status

/-- A request, as far as its body does not matter. -/
structure Request where
  method : String
  target : Target
  headers : Headers
  deriving DecidableEq, Repr

/-- A piece of a body that is produced bit by bit. -/
inductive Frame where
  | data (bytes : Bytes)
  | trailers (headers : Headers)
  | error (message : String)
  deriving DecidableEq, Repr

def Frame.size : Frame → Nat
  | .data bytes => bytes.length
  | _ => 0

def Frame.total : List Frame → Nat
  | [] => 0
  | frame :: rest => frame.size + total rest

/-- The number of bytes that a response takes, with one more for each header field. -/
def Reply.bytes (headers : Headers) (frames : List Frame) : Nat :=
  headers.bytes + Frame.total frames

/-- A response whose body is still to come. Its bytes can be counted in 64 bits. -/
structure Reply where
  status : Status
  headers : Headers
  frames : List Frame
  bytes_lt : Reply.bytes headers frames < UInt64.size
  deriving DecidableEq, Repr

structure Response where
  status : Status
  headers : Headers
  body : Bytes
  deriving DecidableEq, Repr

end ResponseCache
