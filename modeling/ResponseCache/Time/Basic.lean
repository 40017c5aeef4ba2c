import ResponseCache.Duration.Basic

/-!
This module contains points in time: nanoseconds since the Unix epoch, negative before it, whose
whole seconds fit a signed number of 64 bits.
-/

namespace ResponseCache

/-- The bound of all points in time, in nanoseconds away from the epoch. -/
def timeBound : Int :=
  9223372036854775808 * nanosPerSec

structure Time where
  nanos : Int
  le_nanos : -timeBound ≤ nanos
  nanos_lt : nanos < timeBound
  deriving DecidableEq, Repr

namespace Time

@[ext]
theorem ext {a b : Time} (h : a.nanos = b.nanos) : a = b := by
  cases a
  cases b
  simpa using h

def epoch : Time :=
  ⟨0, by decide, by decide⟩

def ofNanos? (nanos : Int) : Option Time :=
  if h : -timeBound ≤ nanos ∧ nanos < timeBound then some ⟨nanos, h.1, h.2⟩ else none

/-- The point at whole seconds, possibly negative, and nanoseconds after them. -/
def ofParts? (secs : Int) (nanos : Nat) : Option Time :=
  ofNanos? (secs * nanosPerSec + nanos)

/-- The whole seconds since the epoch, rounded towards the past. -/
def secs (t : Time) : Int :=
  t.nanos / nanosPerSec

def subsecNanos (t : Time) : Nat :=
  (t.nanos % nanosPerSec).toNat

def add? (t : Time) (d : Duration) : Option Time :=
  ofNanos? (t.nanos + d.nanos)

/-- The nanoseconds from an earlier point to this one, or zero if it is not earlier. -/
def nanosSince (t earlier : Time) : Nat :=
  (t.nanos - earlier.nanos).toNat

/-- The whole seconds from an earlier point to this one, or zero if it is not earlier. -/
def secsSince (t earlier : Time) : Nat :=
  t.nanosSince earlier / nanosPerSec

/-- The nanoseconds since the epoch, or zero before it. -/
def unixNanos (t : Time) : Nat :=
  t.nanos.toNat

instance : LE Time where
  le a b := a.nanos ≤ b.nanos

instance (a b : Time) : Decidable (a ≤ b) :=
  inferInstanceAs (Decidable (a.nanos ≤ b.nanos))

protected theorem le_refl (t : Time) : t ≤ t :=
  Int.le_refl t.nanos

protected theorem le_trans {t u v : Time} (h : t ≤ u) (h' : u ≤ v) : t ≤ v :=
  Int.le_trans (b := u.nanos) h h'

theorem add?_eq_some_iff {t u : Time} {d : Duration} :
    t.add? d = some u ↔ u.nanos = t.nanos + d.nanos := by
  unfold add? ofNanos?
  constructor
  . intro h
    split at h
    . simp only [Option.some.injEq] at h
      rw [← h]
    . exact absurd h (by simp)
  . intro h
    have h1 := u.le_nanos
    have h2 := u.nanos_lt
    rw [dif_pos (by omega)]
    simp [Time.ext_iff, h]

theorem eq_of_unixNanos_eq {t t' : Time} (h : epoch ≤ t) (h' : epoch ≤ t')
    (heq : t.unixNanos = t'.unixNanos) : t = t' := by
  have hnanos : 0 ≤ t.nanos := h
  have hnanos' : 0 ≤ t'.nanos := h'
  unfold unixNanos at heq
  apply ext
  omega

/-- A later clock reading never makes anything younger. -/
theorem secsSince_mono {a b : Time} (h : a ≤ b) (t : Time) : a.secsSince t ≤ b.secsSince t := by
  have h' : a.nanos ≤ b.nanos := h
  apply Nat.div_le_div_right
  unfold nanosSince
  omega

end Time

end ResponseCache
