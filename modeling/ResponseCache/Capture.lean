import ResponseCache.Entry

/-!
This module contains the capture of a handler's response before it is served and stored: the first
value of every header field, and the whole body.
-/

namespace ResponseCache

structure Capture where
  status : Option Status
  headers : List (String × Bytes)
  body : Bytes
  deriving DecidableEq, Repr

structure Snapshot where
  status : Status
  headers : List (String × Bytes)
  body : Bytes
  deriving DecidableEq, Repr

def Snapshot.toEntry (s : Snapshot) (etag : String) (lastValid : Time) : Entry :=
  ⟨s.status, s.headers, s.body, lastValid, etag⟩

namespace Capture

def empty : Capture :=
  ⟨none, [], []⟩

def setStatus (c : Capture) (status : Status) : Capture :=
  { c with status := some status }

/-- Takes a header field, unless there is one of the same name in any case. -/
def setHeader (c : Capture) (name : String) (value : Bytes) : Capture :=
  let name := lowerCase name
  if c.headers.any (·.1 = name) then c else { c with headers := c.headers ++ [(name, value)] }

def write (c : Capture) (bytes : Bytes) : Capture :=
  { c with body := c.body ++ bytes }

/-- What was captured. Without a status, the request succeeded. -/
def snapshot (c : Capture) : Snapshot :=
  ⟨c.status.getD .ok, c.headers, c.body⟩

/-- Takes the frames of a body one after the other up to the first error. -/
def frames (c : Capture) : List Frame → Except String Snapshot
  | [] => .ok c.snapshot
  | .data bytes :: rest => (c.write bytes).frames rest
  | .trailers _ :: rest => c.frames rest
  | .error message :: _ => .error message

def setHeaders (c : Capture) (headers : Headers) : Capture :=
  headers.foldl (fun c (name, value) => c.setHeader name.text value.bytes) c

end Capture

def Reply.capture (r : Reply) : Except String Snapshot :=
  ((Capture.empty.setStatus r.status).setHeaders r.headers).frames r.frames

end ResponseCache
