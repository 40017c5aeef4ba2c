import ResponseCache.Age
import ResponseCache.Directives
import ResponseCache.Entry

/-!
This module contains the choice between a stored response and the handler. The bounds of the route
limit what a client may ask for: its `max-age` counts only above the minimum and below the maximum,
and its `min-fresh` only up to the width between them.
-/

namespace ResponseCache

inductive Decision where
  | hit
  /-- The handler is run and its response stored. -/
  | miss
  /-- The handler is run and nothing is stored. -/
  | bypass
  deriving DecidableEq, Repr

inductive Outcome where
  | hit
  | miss
  | bypass
  | error
  deriving DecidableEq, Repr

def Outcome.name : Outcome → String
  | .hit => "hit"
  | .miss => "miss"
  | .bypass => "bypass"
  | .error => "error"

def Decision.name : Decision → String
  | .hit => "Hit"
  | .miss => "Miss"
  | .bypass => "Bypass"

def Decision.outcome : Decision → Outcome
  | .hit => .hit
  | .miss => .miss
  | .bypass => .bypass

/-- The freshness of a stored response for one request, in seconds. -/
structure Freshness where
  age : Nat
  maxAge : Nat
  minFresh : Nat
  deriving DecidableEq, Repr

namespace Freshness

/-- The freshness at a point in time. A response from the future has age zero. -/
def evaluate (lastValid : Time) (policy : AgePolicy) (directives : Directives) (now : Time) :
    Freshness where
  age := now.secsSince lastValid
  maxAge := max (min (directives.maxAge.getD policy.maxSecs) policy.maxSecs) policy.minSecs
  minFresh := min (directives.minFresh.getD 0) policy.windowSecs

/-- The seconds until the response is too old. -/
def remaining (f : Freshness) : Nat :=
  f.maxAge - f.age

/-- Whether the response is young enough and stays so for long enough. -/
def isFresh (f : Freshness) : Bool :=
  f.age ≤ f.maxAge && f.minFresh ≤ f.remaining

end Freshness

/-- Decides on a request by the stored response that there is, if any. -/
def decideRequest (existing : Option Entry) (policy : AgePolicy) (directives : Directives)
    (now : Time) : Decision :=
  if policy.isDisabled then
    .bypass
  else if existing.any fun e => (Freshness.evaluate e.lastValid policy directives now).isFresh then
    .hit
  else if directives.noStore then
    .bypass
  else
    .miss

end ResponseCache
