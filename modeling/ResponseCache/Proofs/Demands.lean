import ResponseCache.Proofs.Directives
import ResponseCache.Proofs.Freshness

/-!
This module contains what stricter demands and passing time do to a decision: they can take a stored
response away from a client, but never give it one, and never have a response stored that a client
forbade to store.
-/

namespace ResponseCache

namespace Freshness

variable {policy : AgePolicy} {d other : Directives} {lastValid now later : Time}

theorem maxAge_evaluate_le (hcovered : d.CoveredBy other) :
    (evaluate lastValid policy other later).maxAge ≤ (evaluate lastValid policy d now).maxAge := by
  unfold evaluate
  simp only
  cases hmax : d.maxAge with
  | none =>
    rw [Option.getD_none]
    omega
  | some a =>
    obtain ⟨b, hb, hle⟩ := hcovered.maxAge a hmax
    rw [hb, Option.getD_some, Option.getD_some]
    omega

theorem minFresh_evaluate_le (hcovered : d.CoveredBy other) :
    (evaluate lastValid policy d now).minFresh
      ≤ (evaluate lastValid policy other later).minFresh := by
  unfold evaluate
  simp only
  cases hmin : d.minFresh with
  | none =>
    rw [Option.getD_none]
    omega
  | some a =>
    obtain ⟨b, hb, hle⟩ := hcovered.minFresh a hmin
    rw [hb, Option.getD_some, Option.getD_some]
    omega

/-- What is fresh for a stricter client at a later time is fresh for this client now. -/
theorem isFresh_evaluate_of_later (hcovered : d.CoveredBy other) (hnow : now ≤ later)
    (h : (evaluate lastValid policy other later).isFresh = true) :
    (evaluate lastValid policy d now).isFresh = true := by
  rw [isFresh_iff] at h ⊢
  have hmax : (evaluate lastValid policy other later).maxAge
      ≤ (evaluate lastValid policy d now).maxAge := maxAge_evaluate_le hcovered
  have hmin : (evaluate lastValid policy d now).minFresh
      ≤ (evaluate lastValid policy other later).minFresh := minFresh_evaluate_le hcovered
  have hage := Time.secsSince_mono hnow lastValid
  rw [evaluate_age] at h ⊢
  omega

end Freshness

open Freshness

variable {existing : Option Entry} {policy : AgePolicy} {d other : Directives} {now later : Time}

theorem decideRequest_eq_hit_iff :
    decideRequest existing policy d now = .hit
      ↔ policy.isDisabled = false
        ∧ ∃ e ∈ existing, (evaluate e.lastValid policy d now).isFresh = true := by
  cases hdis : policy.isDisabled with
  | true => simp [decideRequest, hdis]
  | false =>
    cases existing with
    | none => simp [decideRequest_none_ne_hit]
    | some e => simp [decideRequest_some_eq_hit_iff hdis]

theorem decideRequest_of_ne_hit (h : decideRequest existing policy d now ≠ .hit) :
    decideRequest existing policy d now
      = if policy.isDisabled || d.noStore then .bypass else .miss := by
  rw [ne_eq, decideRequest_eq_hit_iff] at h
  unfold decideRequest
  cases hdis : policy.isDisabled with
  | true => rfl
  | false =>
    have hstale : ¬(existing.any fun e => (evaluate e.lastValid policy d now).isFresh) = true := by
      rw [Option.any_eq_true]
      rintro ⟨e, he, hfresh⟩
      exact h ⟨hdis, e, he, hfresh⟩
    simp [hstale]

theorem decideRequest_eq_hit_of_later (hcovered : d.CoveredBy other) (hnow : now ≤ later)
    (h : decideRequest existing policy other later = .hit) :
    decideRequest existing policy d now = .hit := by
  rw [decideRequest_eq_hit_iff] at h ⊢
  obtain ⟨hen, e, he, hfresh⟩ := h
  exact ⟨hen, e, he, isFresh_evaluate_of_later hcovered hnow hfresh⟩

theorem decideRequest_eq_bypass_of_later (hcovered : d.CoveredBy other) (hnow : now ≤ later)
    (h : decideRequest existing policy d now = .bypass) :
    decideRequest existing policy other later = .bypass := by
  have hne : decideRequest existing policy d now ≠ .hit := by
    rw [h]
    simp
  have hne' : decideRequest existing policy other later ≠ .hit := fun hhit =>
    hne (decideRequest_eq_hit_of_later hcovered hnow hhit)
  rw [decideRequest_of_ne_hit hne] at h
  rw [decideRequest_of_ne_hit hne']
  cases hdis : policy.isDisabled with
  | true => rfl
  | false =>
    have hstore : d.noStore = true := by simpa [hdis] using h
    simp [hcovered.noStore hstore]

theorem decideRequest_ne_miss_of_noStore (h : d.noStore = true) :
    decideRequest existing policy d now ≠ .miss := by
  intro hmiss
  rw [(enabled_of_decideRequest_eq_miss hmiss).2] at h
  nomatch h

/-- Whether a response may be stored says nothing about which are served. -/
theorem decideRequest_eq_hit_iff_of_noStore (noStore : Bool) :
    decideRequest existing policy { d with noStore := noStore } now = .hit
      ↔ decideRequest existing policy d now = .hit := by
  rw [decideRequest_eq_hit_iff, decideRequest_eq_hit_iff]
  rfl

/--
What a client cannot get by more `Cache-Control` values or by waiting: a stored response that it does
not get without them, nor, once storing is out of the question, that the response is stored. A value
that does nothing but forbid to store changes nothing about which responses are served.
-/
theorem decideRequest_antitone {h : Headers} {extra : List HeaderValue} (hnow : now ≤ later) :
    (decideRequest existing policy (.ofHeaders h) now ≠ .hit →
        decideRequest existing policy (.ofHeaders (h.addAll .cacheControl extra)) later ≠ .hit)
      ∧ (decideRequest existing policy (.ofHeaders h) now = .bypass →
        decideRequest existing policy (.ofHeaders (h.addAll .cacheControl extra)) later = .bypass)
      ∧ ((Directives.ofHeaders h).noStore = true →
        decideRequest existing policy (.ofHeaders (h.addAll .cacheControl extra)) later ≠ .miss)
      ∧ (∀ noStore, decideRequest existing policy { Directives.ofHeaders h with noStore } now = .hit
        ↔ decideRequest existing policy (.ofHeaders h) now = .hit)
      ∧ ∀ value, Directives.ofValues [value] = { Directives.none with noStore := true } →
        (decideRequest existing policy (.ofHeaders (h.addAll .cacheControl [value])) now = .hit
          ↔ decideRequest existing policy (.ofHeaders h) now = .hit) := by
  have hcovered : (Directives.ofHeaders h).CoveredBy (.ofHeaders (h.addAll .cacheControl extra)) := by
    rw [Directives.ofHeaders_addAll]
    apply Directives.coveredBy_merge_left
  refine ⟨?_, ?_, ?_, ?_, ?_⟩
  . intro hne hhit
    exact hne (decideRequest_eq_hit_of_later hcovered hnow hhit)
  . exact decideRequest_eq_bypass_of_later hcovered hnow
  . intro hstore
    exact decideRequest_ne_miss_of_noStore (hcovered.noStore hstore)
  . exact decideRequest_eq_hit_iff_of_noStore
  . intro value hvalue
    rw [Directives.ofHeaders_addAll, hvalue, Directives.merge_noStore]
    exact decideRequest_eq_hit_iff_of_noStore true

def guardedHeaders : Headers :=
  [(.cacheControl, ⟨Bytes.Utf8.encode "max-age=25, no-store".toList, by decide⟩)]

def looserValues : List HeaderValue :=
  [⟨[0xff], by decide⟩, ⟨Bytes.Utf8.encode "max-age=60,min-fresh=0".toList, by decide⟩]

def noStoreValue : HeaderValue :=
  ⟨Bytes.Utf8.encode " No-Store,x=1".toList, by decide⟩

def halfMinute : Time :=
  ⟨30 * nanosPerSec, by decide, by decide⟩

def fortySeconds : Time :=
  ⟨40 * nanosPerSec, by decide, by decide⟩

/-- What the client of a route from 20 to 50 seconds is told about a response from the epoch. -/
def decideGuarded (h : Headers) (now : Time) : Decision :=
  decideRequest (some ⟨.ok, [], [], .epoch, "\"a\""⟩) ⟨20, 50, by decide, by decide⟩ (.ofHeaders h) now

/-- A response of half a minute is too old for the client, and looser values do not help it. -/
theorem decideGuarded_looserValues :
    halfMinute ≤ fortySeconds
      ∧ decideGuarded guardedHeaders halfMinute = .bypass
      ∧ (Directives.ofHeaders guardedHeaders).noStore = true
      ∧ Directives.ofValues [noStoreValue] = { Directives.none with noStore := true }
      ∧ decideGuarded (guardedHeaders.addAll .cacheControl looserValues) fortySeconds = .bypass
      ∧ decideGuarded (guardedHeaders.addAll .cacheControl looserValues) fortySeconds ≠ .hit
      ∧ decideGuarded (guardedHeaders.addAll .cacheControl looserValues) fortySeconds ≠ .miss
      ∧ decideGuarded (guardedHeaders.addAll .cacheControl [noStoreValue]) halfMinute ≠ .hit := by
  have hbypass : decideGuarded guardedHeaders halfMinute = .bypass := by decide +kernel
  have hne : decideGuarded guardedHeaders halfMinute ≠ .hit := by simp [hbypass]
  have hstore : (Directives.ofHeaders guardedHeaders).noStore = true := by decide +kernel
  have hvalue : Directives.ofValues [noStoreValue] = { Directives.none with noStore := true } := by
    decide +kernel
  have hnow : halfMinute ≤ fortySeconds := by decide
  obtain ⟨hnotHit, hstays, hnotMiss, -, hsame⟩ := decideRequest_antitone hnow
  exact ⟨hnow, hbypass, hstore, hvalue, hstays hbypass, hnotHit hne, hnotMiss hstore,
    fun h => hne ((hsame noStoreValue hvalue).1 h)⟩

end ResponseCache
