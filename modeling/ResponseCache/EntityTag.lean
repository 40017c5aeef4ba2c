import ResponseCache.Bytes.Hex
import ResponseCache.Bytes.Sha256
import ResponseCache.Bytes.Utf8
import ResponseCache.Http.Header
import ResponseCache.Text.Blank
import ResponseCache.Text.Split
import ResponseCache.Time.Basic

/-!
This module contains entity tags: how the tag of a generation of a response is made, and when a
client names it.
-/

namespace ResponseCache.EntityTag

open Bytes (Utf8.encode bigEndian sha256 toHex)

/--
The bytes from which a tag is made: the key and a zero byte, the nanoseconds since the epoch in
sixteen bytes, and the body. A response that is generated again gets another tag.
-/
def material (key : String) (body : Bytes) (generated : Time) : Bytes :=
  Utf8.encode key.toList ++ [0] ++ bigEndian 16 generated.unixNanos ++ body

/-- The tag of a response: half a hash of its material, in quotes. -/
def generate (key : String) (body : Bytes) (generated : Time) : String :=
  String.ofList ('"' :: toHex ((sha256 (material key body generated)).take 16) ++ ['"'])

def stripWeak : List Char → List Char
  | 'W' :: '/' :: rest => stripWeak rest
  | cs => cs

/-- Whether an element of `If-None-Match` names a tag. Weak and strong tags are not told apart. -/
def names (element tag : List Char) : Bool :=
  let element := Text.trim element
  element = ['*'] || stripWeak element = stripWeak tag

/-- Whether a client has the representation with a tag already, by its `If-None-Match` values. -/
def isNamed (values : List HeaderValue) (tag : String) : Bool :=
  (values.filterMap HeaderValue.text?).any fun text =>
    (Text.splitOn ',' text).any fun element => names element tag.toList

end ResponseCache.EntityTag
