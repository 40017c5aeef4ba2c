import ResponseCache.Http.Message
import ResponseCache.Time.Basic

/-!
This module contains stored responses and their way back into responses that can be served.
-/

namespace ResponseCache

/-- A response as it is stored. The header fields are kept as they were captured. -/
structure Entry where
  status : Status
  headers : List (String × Bytes)
  body : Bytes
  /-- When the response was generated. -/
  lastValid : Time
  etag : String
  deriving DecidableEq, Repr

namespace Entry

/-- The first value of a name of any case. -/
def header? (e : Entry) (name : String) : Option Bytes :=
  (e.headers.find? fun (n, _) => lowerCase n = lowerCase name).map (·.2)

/-- A stored field as one that a message may carry, if it may. -/
def validField? : String × Bytes → Option (HeaderName × HeaderValue)
  | (name, value) => do
    let name ← HeaderName.ofString? name
    let value ← HeaderValue.ofBytes? value
    return (name, value)

def setTag (headers : Headers) (etag : String) : Headers :=
  match HeaderValue.ofString? etag with
  | some value => headers.set .etag value
  | none => headers

/-- The response that replays an entry, with the entry's own tag in the place of any other. -/
def toResponse (e : Entry) : Response where
  status := e.status
  headers := setTag (e.headers.filterMap validField?) e.etag
  body := e.body

end Entry

end ResponseCache
