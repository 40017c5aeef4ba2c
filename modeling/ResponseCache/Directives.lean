import ResponseCache.Http.Header
import ResponseCache.Text.Split
import ResponseCache.Text.Blank

/-!
This module contains the caching directives of requests. Each element of a `Cache-Control` value is
read on its own, and the readings are merged into the strictest one.
-/

namespace ResponseCache

open Text (splitOn splitOnce trim strip word?)

/-- What a client asks of the responses that it is served. -/
structure Directives where
  /-- The greatest age in seconds. -/
  maxAge : Option Nat
  /-- The least remaining freshness in seconds. -/
  minFresh : Option Nat
  /-- Whether the response to this request must not be stored. -/
  noStore : Bool
  deriving DecidableEq, Repr

namespace Directives

def none : Directives :=
  ⟨.none, .none, false⟩

def isNone (d : Directives) : Bool :=
  d = none

/-- The stricter of two optional demands, by an operation that chooses between them. -/
def strictest (choose : Nat → Nat → Nat) : Option Nat → Option Nat → Option Nat
  | some a, some b => some (choose a b)
  | some a, .none => some a
  | .none, b => b

def merge (a b : Directives) : Directives where
  maxAge := strictest Nat.min a.maxAge b.maxAge
  minFresh := strictest Nat.max a.minFresh b.minFresh
  noStore := a.noStore || b.noStore

/-- The name of an element, and what follows the equals sign without the quotes around it. -/
def nameAndArgument (element : List Char) : List Char × Option (List Char) :=
  match splitOnce '=' element with
  | some (name, argument) => (trim name, some (strip (· = '"') (trim argument)))
  | .none => (element, .none)

/--
The demand of one element. Names of any case are known; a number that is malformed or does not fit
64 bits demands nothing, and neither does an unknown name. A client that wants no stored response at
all demands one of age zero.
-/
def ofElement (element : List Char) : Directives :=
  let (name, argument) := nameAndArgument ((trim element).map Char.toLower)
  if name = "max-age".toList then
    { none with maxAge := argument.bind word? }
  else if name = "min-fresh".toList then
    { none with minFresh := argument.bind word? }
  else if name = "no-cache".toList then
    { none with maxAge := some 0 }
  else if name = "no-store".toList then
    { none with noStore := true }
  else
    none

def ofElements (elements : List (List Char)) : Directives :=
  (elements.map ofElement).foldl merge none

/-- The demands of the values of `Cache-Control`, of which those that are not text are skipped. -/
def ofValues (values : List HeaderValue) : Directives :=
  ofElements ((values.filterMap HeaderValue.text?).flatMap (splitOn ','))

def ofHeaders (headers : Headers) : Directives :=
  ofValues (headers.getAll "cache-control")

end Directives

end ResponseCache
