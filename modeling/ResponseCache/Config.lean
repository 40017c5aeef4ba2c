import ResponseCache.Age
import ResponseCache.Duration.HumanText
import ResponseCache.Json.Decode

/-!
This module contains the configuration of a route as a document, and the ages alone as one. Both are
records whose fields may be absent.
-/

namespace ResponseCache

open Json (DecodeError)

def Duration.decode : Json → Except DecodeError Duration
  | .string s =>
    match Duration.ofHumanText s.toList with
    | .ok d => .ok d
    | .error .malformed => .error (.invalidValue (.string s) "a duration")
    | .error .overflow => .error (.aborted .duration)
  | value => .error (value.mismatch "a duration")

def Duration.toJson (d : Duration) : Json :=
  .string (String.ofList d.humanText)

/-- The fields of an age as far as they were read. -/
structure AgeFields where
  min : Option Duration
  max : Option Duration
  deriving Repr

namespace AgeFields

def empty : AgeFields :=
  ⟨none, none⟩

/-- Takes up a field. One that is not known is skipped. -/
def field (name : String) (value : Json) (a : AgeFields) : Except DecodeError AgeFields :=
  if name = "min" then do
    Json.once name a.min
    return { a with min := ← Duration.decode value }
  else if name = "max" then do
    Json.once name a.max
    return { a with max := ← Duration.decode value }
  else
    return a

/-- The age, in which a bound that is absent is zero. -/
def toAge (a : AgeFields) : Age :=
  ⟨a.min.getD .zero, a.max.getD .zero⟩

end AgeFields

namespace Age

def decoder : Json.RecordDecoder AgeFields where
  expected := "struct Age"
  names := ["min", "max"]
  field := AgeFields.field

def decode (doc : Json.Document) : Except DecodeError Age :=
  (decoder.decode .empty doc).map AgeFields.toAge

def toJson (a : Age) : Json :=
  .record [("min", a.min.toJson), ("max", a.max.toJson)]

end Age

structure RouteConfig where
  minAge : Duration
  maxAge : Duration
  /-- The status codes whose responses are stored; absent for the usual ones. -/
  statuses : Option StatusSet
  /-- The names of the header fields on which responses depend. -/
  varyHeaders : List String
  /-- Whether requests wait for the response to an equal one. -/
  singleFlight : Bool
  deriving DecidableEq, Repr

/-- The fields of a configuration as far as they were read. -/
structure RouteConfigFields where
  minAge : Option Duration
  maxAge : Option Duration
  statuses : Option (Option StatusSet)
  varyHeaders : Option (List String)
  singleFlight : Option Bool
  deriving Repr

namespace RouteConfig

/-- The configuration of a route that says nothing: nothing is cached. -/
def standard : RouteConfig :=
  ⟨.zero, .zero, none, [], false⟩

def age (c : RouteConfig) : Age :=
  ⟨c.minAge, c.maxAge⟩

end RouteConfig

namespace RouteConfigFields

def empty : RouteConfigFields :=
  ⟨none, none, none, none, none⟩

def field (name : String) (value : Json) (c : RouteConfigFields) :
    Except DecodeError RouteConfigFields :=
  if name = "min_age" then do
    Json.once name c.minAge
    return { c with minAge := ← Duration.decode value }
  else if name = "max_age" then do
    Json.once name c.maxAge
    return { c with maxAge := ← Duration.decode value }
  else if name = "statuses" then do
    Json.once name c.statuses
    let codes ← Json.decodeOptional (Json.decodeList Json.decodeWord16) value
    return { c with statuses := some (codes.map StatusSet.ofList) }
  else if name = "vary_headers" then do
    Json.once name c.varyHeaders
    return { c with varyHeaders := ← Json.decodeList Json.decodeString value }
  else if name = "single_flight" then do
    Json.once name c.singleFlight
    return { c with singleFlight := ← Json.decodeBool value }
  else
    return c

/-- The configuration, in which fields that are absent are as usual. -/
def toConfig (c : RouteConfigFields) : RouteConfig where
  minAge := c.minAge.getD .zero
  maxAge := c.maxAge.getD .zero
  statuses := c.statuses.getD none
  varyHeaders := c.varyHeaders.getD []
  singleFlight := c.singleFlight.getD false

end RouteConfigFields

namespace RouteConfig

def decoder : Json.RecordDecoder RouteConfigFields where
  expected := "struct RouteCacheConfig"
  names := ["min_age", "max_age", "statuses", "vary_headers", "single_flight"]
  field := RouteConfigFields.field

def decode (doc : Json.Document) : Except DecodeError RouteConfig :=
  (decoder.decode .empty doc).map RouteConfigFields.toConfig

def toJson (c : RouteConfig) : Json :=
  .record
    [("min_age", c.minAge.toJson),
     ("max_age", c.maxAge.toJson),
     ("statuses", .optional (fun s => .list (s.toList.map .nat)) c.statuses),
     ("vary_headers", .list (c.varyHeaders.map .string)),
     ("single_flight", .bool c.singleFlight)]

end RouteConfig

end ResponseCache
