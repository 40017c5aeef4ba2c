import ResponseCache.Http.Header
import ResponseCache.Json.Decode
import ResponseCache.Text.Blank

/-!
This module contains the identifiers that tie the events of one request together.
-/

namespace ResponseCache

structure RequestId where
  text : String
  deriving DecidableEq, Repr

namespace RequestId

/-- The header fields that may hold an identifier, the first one preferred. -/
def headerNames : List String :=
  ["x-request-id", "x-correlation-id"]

/--
The identifier that came with a request: the first value of a known header field that is text and,
without the blanks around it, not empty.
-/
def ofHeaders? (headers : Headers) : Option RequestId :=
  headerNames.findSome? fun name => do
    let value ← headers.get? name
    let text := Text.trim (← value.text?)
    if text.isEmpty then none else some ⟨String.ofList text⟩

def decode (value : Json) : Except Json.DecodeError RequestId :=
  (Json.decodeString value).map RequestId.mk

def toJson (id : RequestId) : Json :=
  .string id.text

end RequestId

end ResponseCache
