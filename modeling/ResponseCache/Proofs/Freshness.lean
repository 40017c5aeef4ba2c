import ResponseCache.Freshness

/-!
This module contains the conditions under which a stored response is served, and what they say about
responses that are not older than the minimum of the route: no single directive of a client can have
them refreshed, but a `max-age` together with a `min-fresh` can.
-/

namespace ResponseCache

namespace Freshness

theorem isFresh_iff {f : Freshness} :
    f.isFresh = true ↔ f.age ≤ f.maxAge ∧ f.age + f.minFresh ≤ f.maxAge := by
  unfold isFresh remaining
  simp only [Bool.and_eq_true, decide_eq_true_eq]
  omega

theorem evaluate_of_maxAge_none {policy : AgePolicy} {d : Directives}
    (hle : policy.minSecs ≤ policy.maxSecs) (hnone : d.maxAge = none) (lastValid now : Time) :
    (evaluate lastValid policy d now).maxAge = policy.maxSecs := by
  unfold evaluate
  rw [hnone]
  simp only [Option.getD_none]
  omega

theorem evaluate_of_minFresh_none {policy : AgePolicy} {d : Directives}
    (hnone : d.minFresh = none) (lastValid now : Time) :
    (evaluate lastValid policy d now).minFresh = 0 := by
  unfold evaluate
  rw [hnone]
  simp

theorem evaluate_of_maxAge_some {policy : AgePolicy} {d : Directives} {c : Nat}
    (hsome : d.maxAge = some c) (lastValid now : Time) :
    (evaluate lastValid policy d now).maxAge = max (min c policy.maxSecs) policy.minSecs := by
  unfold evaluate
  rw [hsome]
  simp

theorem evaluate_of_minFresh_some {policy : AgePolicy} {d : Directives} {f : Nat}
    (hsome : d.minFresh = some f) (lastValid now : Time) :
    (evaluate lastValid policy d now).minFresh = min f policy.windowSecs := by
  unfold evaluate
  rw [hsome]
  simp

@[simp]
theorem evaluate_age (lastValid : Time) (policy : AgePolicy) (d : Directives) (now : Time) :
    (evaluate lastValid policy d now).age = now.secsSince lastValid := rfl

theorem evaluate_maxAge_le {policy : AgePolicy} (hle : policy.minSecs ≤ policy.maxSecs)
    (lastValid : Time) (d : Directives) (now : Time) :
    (evaluate lastValid policy d now).maxAge ≤ policy.maxSecs := by
  unfold evaluate
  simp only
  omega

theorem remaining_evaluate_none {policy : AgePolicy} (hle : policy.minSecs ≤ policy.maxSecs)
    (lastValid now : Time) :
    (evaluate lastValid policy .none now).remaining = policy.maxSecs - now.secsSince lastValid := by
  unfold remaining
  rw [evaluate_of_maxAge_none hle rfl, evaluate_age]

theorem minSecs_le_maxAge (lastValid : Time) (policy : AgePolicy) (d : Directives) (now : Time) :
    policy.minSecs ≤ (evaluate lastValid policy d now).maxAge := by
  unfold evaluate
  apply Nat.le_max_right

theorem minFresh_le_windowSecs (lastValid : Time) (policy : AgePolicy) (d : Directives)
    (now : Time) : (evaluate lastValid policy d now).minFresh ≤ policy.windowSecs := by
  unfold evaluate
  apply Nat.min_le_right

end Freshness

open Freshness

theorem decideRequest_none_ne_hit (policy : AgePolicy) (d : Directives) (now : Time) :
    decideRequest none policy d now ≠ .hit := by
  unfold decideRequest
  simp only [Option.any_none, Bool.false_eq_true, ↓reduceIte]
  split
  . simp
  . split <;> simp

theorem enabled_of_decideRequest_eq_miss {existing : Option Entry} {policy : AgePolicy}
    {d : Directives} {now : Time} (h : decideRequest existing policy d now = .miss) :
    policy.isDisabled = false ∧ d.noStore = false := by
  unfold decideRequest at h
  split at h
  . nomatch h
  . next hen =>
    split at h
    . nomatch h
    . split at h
      . nomatch h
      . next hstore => exact ⟨Bool.eq_false_iff.2 hen, Bool.eq_false_iff.2 hstore⟩

theorem isFresh_of_decideRequest_eq_hit {e : Entry} {policy : AgePolicy} {d : Directives} {now : Time}
    (h : decideRequest (some e) policy d now = .hit) :
    (evaluate e.lastValid policy d now).isFresh = true := by
  unfold decideRequest at h
  split at h
  . nomatch h
  . split at h
    . next hfresh => simpa using hfresh
    . split at h <;> nomatch h

theorem decideRequest_some_eq_hit_iff {e : Entry} {policy : AgePolicy} {d : Directives}
    {now : Time} (hen : policy.isDisabled = false) :
    decideRequest (some e) policy d now = .hit
      ↔ (evaluate e.lastValid policy d now).isFresh = true := by
  unfold decideRequest
  rw [hen]
  simp only [Option.any_some, Bool.false_eq_true, ↓reduceIte]
  split
  . next hfresh => simp [hfresh]
  . next hfresh =>
    rw [iff_false_right hfresh]
    split <;> simp

/-- A response that is served is young enough for its route and for the client. -/
theorem secsSince_le_of_decideRequest_eq_hit {e : Entry} {policy : AgePolicy} {d : Directives}
    {now : Time} (hle : policy.minSecs ≤ policy.maxSecs)
    (h : decideRequest (some e) policy d now = .hit) :
    now.secsSince e.lastValid ≤ policy.maxSecs
      ∧ ∀ limit ∈ d.maxAge,
        now.secsSince e.lastValid ≤ max (min limit policy.maxSecs) policy.minSecs := by
  have hage := (isFresh_iff.1 (isFresh_of_decideRequest_eq_hit h)).1
  rw [evaluate_age] at hage
  constructor
  . exact Nat.le_trans hage (evaluate_maxAge_le hle _ _ _)
  . intro limit hlimit
    rw [evaluate_of_maxAge_some hlimit] at hage
    exact hage

/--
When a response within the route's minimum is served: always, except to a client that sends both a
`max-age` and a `min-fresh`. The lifetime is then cut down by the first, but the second is capped by
the width of the route's window, which may leave it more than is left of the lifetime.
-/
theorem decideRequest_eq_hit_iff_of_age_le_minSecs {e : Entry} {policy : AgePolicy}
    {d : Directives} {now : Time} (hle : policy.minSecs ≤ policy.maxSecs)
    (hen : policy.isDisabled = false) (hage : now.secsSince e.lastValid ≤ policy.minSecs) :
    decideRequest (some e) policy d now = .hit
      ↔ ∀ c ∈ d.maxAge, ∀ f ∈ d.minFresh,
          now.secsSince e.lastValid + min f policy.windowSecs ≤ max c policy.minSecs := by
  rw [decideRequest_some_eq_hit_iff hen, isFresh_iff, evaluate_age]
  have hmin := minSecs_le_maxAge e.lastValid policy d now
  have hwindow := minFresh_le_windowSecs e.lastValid policy d now
  have hwidth : policy.minSecs + policy.windowSecs = policy.maxSecs := by
    unfold AgePolicy.windowSecs
    omega
  -- Unless both are there, the lifetime is long enough for what may be demanded of it.
  cases hc : d.maxAge with
  | none =>
    rw [evaluate_of_maxAge_none hle hc]
    simp only [Option.mem_def, reduceCtorEq, false_implies, implies_true, iff_true]
    omega
  | some c =>
    cases hf : d.minFresh with
    | none =>
      rw [evaluate_of_minFresh_none hf]
      simp only [Option.mem_def, reduceCtorEq, false_implies, implies_true, iff_true]
      omega
    | some f =>
      rw [evaluate_of_maxAge_some hc, evaluate_of_minFresh_some hf]
      simp only [Option.mem_def, Option.some.injEq, forall_eq']
      omega

/-- A client of a route from 20 to 60 seconds asks for no more than the minimum leaves. -/
theorem decideRequest_eq_hit_of_low_demand :
    (20 : Nat) ≤ 60 ∧
      AgePolicy.isDisabled ⟨20, 60, by decide, by decide⟩ = false ∧
      Time.secsSince ⟨15 * nanosPerSec, by decide, by decide⟩ .epoch ≤ 20 ∧
      decideRequest (some ⟨.ok, [], [], .epoch, "\"a\""⟩) ⟨20, 60, by decide, by decide⟩
        ⟨some 0, some 5, true⟩ ⟨15 * nanosPerSec, by decide, by decide⟩ = .hit := by
  refine ⟨by decide, by decide, by decide, ?_⟩
  rw [decideRequest_eq_hit_iff_of_age_le_minSecs (by decide) (by decide) (by decide)]
  decide

/--
A client of the same route asks for a fresh response within the minimum and gets it: of the 20 seconds
of the minimum 5 are left, but 10 are demanded.
-/
theorem decideRequest_eq_miss_of_high_demand :
    (20 : Nat) ≤ 60 ∧
      AgePolicy.isDisabled ⟨20, 60, by decide, by decide⟩ = false ∧
      Time.secsSince ⟨15 * nanosPerSec, by decide, by decide⟩ .epoch ≤ 20 ∧
      decideRequest (some ⟨.ok, [], [], .epoch, "\"a\""⟩) ⟨20, 60, by decide, by decide⟩
        ⟨some 0, some 10, false⟩ ⟨15 * nanosPerSec, by decide, by decide⟩ = .miss := by
  decide

end ResponseCache
