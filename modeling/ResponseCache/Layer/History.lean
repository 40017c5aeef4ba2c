import ResponseCache.Event
import ResponseCache.Layer.Settings
import ResponseCache.Store.Basic
import ResponseCache.Text.Quoted

/-!
This module contains what a running cache leaves behind: the accesses to its store, the calls of the
handlers, and what it reports in counters, events and logs.
-/

namespace ResponseCache

inductive Counter where
  | hit
  | miss
  | bypass
  | error
  | store
  | storeError
  | lookupError
  deriving DecidableEq, Repr

def Counter.name : Counter → String
  | .hit => "tower_route_cache.hit"
  | .miss => "tower_route_cache.miss"
  | .bypass => "tower_route_cache.bypass"
  | .error => "tower_route_cache.error"
  | .store => "tower_route_cache.store"
  | .storeError => "tower_route_cache.store_error"
  | .lookupError => "tower_route_cache.lookup_error"

inductive LogLine where
  /-- A cache was built whose ages are both under one second. -/
  | disabled (min max : Duration)
  /-- A request was decided on for the first time. -/
  | decided (key : String) (decision : Decision) (method : String) (target : Target)
  | lookupFailed (key : String) (error : StoreError)
  | storeFailed (key : String) (error : StoreError)
  | handlerFailed (key : Option String) (error : String)
  deriving DecidableEq, Repr

namespace LogLine

def level : LogLine → String
  | disabled .. => "WARN"
  | decided .. => "DEBUG"
  | lookupFailed .. => "WARN"
  | storeFailed .. => "WARN"
  | handlerFailed .. => "DEBUG"

def message : LogLine → String
  | disabled .. => "route cache disabled because both age bounds are under one second"
  | decided .. => "route_cache_decision"
  | lookupFailed .. => "route cache lookup failed, treating as miss"
  | storeFailed .. => "route cache store failed, serving uncached response"
  | handlerFailed .. => "route cache handler failed"

def fields : LogLine → List (String × String)
  | disabled min max => [("min", min.unitText), ("max", max.unitText)]
  | decided key decision method target =>
    [("key", key), ("decision", decision.name), ("method", method),
     ("uri", String.ofList target.text)]
  | lookupFailed key error => [("key", key), ("error", error.message)]
  | storeFailed key error => [("key", key), ("error", error.message)]
  | handlerFailed key error => [("key", Text.quotedOption key), ("error", error)]

end LogLine

def Plan.log (p : Plan σ) : List LogLine :=
  if p.age.policy.isDisabled then [.disabled p.age.min p.age.max] else []

/-- Something that happened in a running cache. -/
inductive Record where
  /-- The store was read. -/
  | read (key : String) (result : Except StoreError (Option Entry))
  /-- The store was written, with success or not. A write that aborts is not recorded. -/
  | wrote (key : String) (entry : Entry) (ttl : Duration) (success : Bool)
  /-- A command was sent to a server. -/
  | sent (command : ServerCommand)
  /-- The handler of the request was called. -/
  | called
  | counted (counter : Counter)
  | reported (event : Event)
  | logged (line : LogLine)

structure Note where
  task : Nat
  record : Record

/-- The records of an access to a store, of which the first says how it went. -/
def Access.records (access : Access σ α) (first : List Record) : List Record :=
  first ++ access.commands.map .sent

/-- What is recorded of a write, unless it aborts. -/
def writeRecord (key : String) (entry : Entry) (ttl : Duration) :
    Except WriteFault Unit → List Record
  | .ok () => [.wrote key entry ttl true]
  | .error (.error _) => [.wrote key entry ttl false]
  | .error .overflow => []

end ResponseCache
