import ResponseCache.Duration.UnitText

/-!
This module contains the age bounds of a route: how they are configured, what is wrong with them, and
the policy in whole seconds that is made of them.
-/

namespace ResponseCache

/--
The bounds that a route sets on the age of its stored responses. Clients can ask for responses as
young as the minimum, and nothing older than the maximum is ever served.
-/
structure Age where
  min : Duration
  max : Duration
  deriving DecidableEq, Repr

inductive ConfigError where
  | missingStore
  | minExceedsMax (min max : Duration)
  deriving DecidableEq, Repr

def ConfigError.message : ConfigError → String
  | .missingStore => "route cache has no backend configured"
  | .minExceedsMax min max =>
    "max age (" ++ max.unitText ++ ") must be greater than or equal to min age ("
      ++ min.unitText ++ ")"

def ConfigError.joined (errors : List ConfigError) : String :=
  "invalid route cache configuration: " ++ "; ".intercalate (errors.map message)

inductive ConfigWarning where
  | cachingDisabled
  deriving DecidableEq, Repr

def ConfigWarning.message : ConfigWarning → String
  | .cachingDisabled => "route cache disabled because both min and max age are zero"

/-- Age bounds in whole seconds. -/
structure AgePolicy where
  minSecs : Nat
  maxSecs : Nat
  minSecs_lt : minSecs < UInt64.size
  maxSecs_lt : maxSecs < UInt64.size
  deriving DecidableEq, Repr

namespace AgePolicy

/-- A policy whose bounds are both zero: nothing is stored or served. -/
def isDisabled (p : AgePolicy) : Bool :=
  p.minSecs = 0 && p.maxSecs = 0

/-- The largest remaining freshness that a client may demand. -/
def windowSecs (p : AgePolicy) : Nat :=
  p.maxSecs - p.minSecs

def maxTtl (p : AgePolicy) : Duration :=
  .ofSecs p.maxSecs p.maxSecs_lt

end AgePolicy

namespace Age

def zero : Age :=
  ⟨.zero, .zero⟩

/-- The bounds cut down to whole seconds. -/
def policy (a : Age) : AgePolicy :=
  ⟨a.min.secs, a.max.secs, a.min.secs_lt, a.max.secs_lt⟩

/-- What is wrong with the bounds. They are compared before they are cut down. -/
def errors (a : Age) : List ConfigError :=
  if a.max < a.min then [.minExceedsMax a.min a.max] else []

def warnings (a : Age) : List ConfigWarning :=
  if a.policy.isDisabled then [.cachingDisabled] else []

theorem errors_eq_nil_iff {a : Age} : a.errors = [] ↔ a.min ≤ a.max := by
  unfold errors
  split
  . rename_i h
    simp only [reduceCtorEq, false_iff]
    exact Nat.not_le_of_lt h
  . rename_i h
    simp only [true_iff]
    exact Nat.le_of_not_lt h

/-- Bounds without errors give a policy whose bounds are in order. -/
theorem minSecs_le_maxSecs {a : Age} (h : a.errors = []) : a.policy.minSecs ≤ a.policy.maxSecs :=
  Duration.secs_le_secs (errors_eq_nil_iff.1 h)

end Age

end ResponseCache
