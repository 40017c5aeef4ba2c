import ResponseCache.Bytes.Hex
import ResponseCache.Bytes.Sha256
import ResponseCache.Freshness
import ResponseCache.RequestId
import ResponseCache.Time.Timestamp

/-!
This module contains the structured events that report what was done with requests, and the settings
that say which of them are logged and what they reveal.
-/

namespace ResponseCache

inductive EventType where
  | hit
  /-- A hit that was answered without the body. -/
  | notModified
  | miss
  | bypass
  | error
  /-- A response was written to the store. -/
  | store
  | storeFailed
  | lookupFailed
  deriving DecidableEq, Repr

namespace EventType

def all : List EventType :=
  [.hit, .notModified, .miss, .bypass, .error, .store, .storeFailed, .lookupFailed]

def name : EventType → String
  | .hit => "hit"
  | .notModified => "not_modified"
  | .miss => "miss"
  | .bypass => "bypass"
  | .error => "error"
  | .store => "store"
  | .storeFailed => "store_failed"
  | .lookupFailed => "lookup_failed"

def ofOutcome : Outcome → EventType
  | .hit => .hit
  | .miss => .miss
  | .bypass => .bypass
  | .error => .error

def ofName (name : String) : Except Json.DecodeError EventType :=
  match all.find? fun kind => kind.name = name with
  | some kind => .ok kind
  | none => .error (.unknownVariant name (all.map EventType.name))

/-- Decodes a kind from its name, or from an object whose only field has that name and is null. -/
def decode : Json → Except Json.DecodeError EventType
  | .string s => ofName s
  | .object [(some name, value)] _ => do
    let kind ← ofName name
    match value with
    | .null => return kind
    | value => throw (value.mismatch "unit")
  | .object _ _ => .error (.invalidValue .object "map with a single key")
  | value => .error (value.mismatch "string or map")

/-- Every name is read as the kind that has it. -/
theorem ofName_name (kind : EventType) : ofName kind.name = .ok kind := by
  cases kind <;> rfl

end EventType

/-- Which events are logged, and whether they reveal keys. -/
structure EventSettings where
  enabled : Bool
  /-- The share of the events that is logged. -/
  sampleRate : Float
  /-- Whether keys are replaced by their hashes. -/
  hashKeys : Bool
  deriving Repr

namespace EventSettings

/-- No events; if they are enabled, all of them with hashed keys. -/
def standard : EventSettings :=
  ⟨false, 1, true⟩

/-- A rate brought into the range from zero to one. -/
def clampRate (rate : Float) : Float :=
  if rate < 0 then 0 else if 1 < rate then 1 else rate

def withSampleRate (s : EventSettings) (rate : Float) : EventSettings :=
  { s with sampleRate := clampRate rate }

/-- Whether an event is logged, given a number drawn at random between zero and one. -/
def shouldSample (s : EventSettings) (draw : Float) : Bool :=
  s.enabled && !(s.sampleRate ≤ 0) && (1 ≤ s.sampleRate || draw < s.sampleRate)

end EventSettings

structure Event where
  timestamp : Time
  kind : EventType
  requestId : RequestId
  key : Option String := none
  method : Option String := none
  target : Option Target := none
  status : Option Status := none
  etag : Option String := none
  age : Option Nat := none
  /-- The microseconds since the request came in. -/
  latency : Option Nat := none
  size : Option Nat := none
  /-- The seconds for which a response is stored. -/
  ttl : Option Nat := none
  deriving DecidableEq, Repr

def hashKey (key : String) : String :=
  String.ofList (Bytes.toHex (Bytes.sha256 (Bytes.Utf8.encode key.toList)))

namespace Event

def shownKey (e : Event) (settings : EventSettings) : Option String :=
  e.key.map fun key => if settings.hashKeys then hashKey key else key

/--
The document of an event. Latencies are cut down to 64 bits. There is no document of an event outside
the calendar.
-/
def toJson? (e : Event) (settings : EventSettings) : Option Json :=
  e.timestamp.timestamp?.map fun timestamp =>
    .record
      [("timestamp", .string timestamp),
       ("event", .string e.kind.name),
       ("request_id", e.requestId.toJson),
       ("key", .optional .string (e.shownKey settings)),
       ("method", .optional .string e.method),
       ("uri", .optional (fun t => .string (String.ofList t.text)) e.target),
       ("status", .optional (fun s => .nat s.code) e.status),
       ("etag", .optional .string e.etag),
       ("age_seconds", .optional .nat e.age),
       ("latency_us", .optional (fun n => .nat (n % UInt64.size)) e.latency),
       ("size_bytes", .optional .nat e.size),
       ("ttl_seconds", .optional .nat e.ttl)]

end Event

end ResponseCache
