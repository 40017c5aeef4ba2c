import ResponseCache.Config
import ResponseCache.Event
import ResponseCache.Key

/-!
This module contains what a cache is built from: the settings of its layer, and the plan from which
they are taken once it is free of errors.
-/

namespace ResponseCache

structure Entropy where
  /-- The identifier of a request that came without one, by the number of the request. -/
  requestId : Nat → String
  /-- The number between zero and one that is drawn for an event, by the length of the history. -/
  draw : Nat → Float

inductive ClockKind where
  /-- The clock of the cache, which moves only when it is told to. -/
  | manual
  /-- The time of the system. -/
  | system
  deriving DecidableEq, Repr

structure Layer where
  policy : AgePolicy
  /-- The codes of the statuses with which responses are stored. -/
  statuses : List Nat
  extractor : KeyExtractor
  /-- Whether requests that miss wait for the response to an earlier one with the same key. -/
  singleFlight : Bool
  events : EventSettings
  clock : ClockKind
  entropy : Entropy

namespace Layer

/-- The codes of the statuses with which responses are stored unless a route says otherwise. -/
def standardStatuses : List Nat :=
  [200, 203, 204, 300, 301, 404, 410]

def stores (l : Layer) (status : Status) : Bool :=
  l.statuses.contains status.code

/-- The identifier of a request, by its number if it came without one. -/
def requestId (l : Layer) (number : Nat) (request : Request) : RequestId :=
  (RequestId.ofHeaders? request.headers).getD ⟨l.entropy.requestId number⟩

end Layer

structure Plan (σ : Type) where
  store : Option σ
  age : Age
  statuses : List Nat
  extractor : KeyExtractor
  singleFlight : Bool
  events : EventSettings
  clock : ClockKind

structure Built (σ : Type) where
  layer : Layer
  store : σ
  warnings : List ConfigWarning

namespace Plan

def empty : Plan σ where
  store := none
  age := .zero
  statuses := Layer.standardStatuses
  extractor := .standard
  singleFlight := false
  events := .standard
  clock := .system

def ofAge (store : σ) (age : Age) : Plan σ :=
  { (empty : Plan σ) with store := some store, age := age }

def ofConfig (store : σ) (config : RouteConfig) : Plan σ :=
  { ofAge store config.age with
    statuses := (config.statuses.map StatusSet.toList).getD Layer.standardStatuses
    extractor := KeyExtractor.standard.withHeaders config.varyHeaders
    singleFlight := config.singleFlight }

def errors (p : Plan σ) : List ConfigError :=
  (if p.store.isNone then [.missingStore] else []) ++ p.age.errors

/-- The cache of a plan without errors, or all errors of the plan. -/
def build (p : Plan σ) (entropy : Entropy) : Except (List ConfigError) (Built σ) :=
  match p.store, p.errors with
  | some store, [] =>
    .ok {
      layer := {
        policy := p.age.policy
        statuses := p.statuses
        extractor := p.extractor
        singleFlight := p.singleFlight
        events := p.events
        clock := p.clock
        entropy := entropy
      }
      store := store
      warnings := p.age.warnings
    }
  | _, errors => .error errors

end Plan

end ResponseCache
