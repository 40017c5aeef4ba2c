/-!
This module contains spans of time: a whole number of nanoseconds whose whole seconds fit 64 bits.
-/

namespace ResponseCache

def nanosPerSec : Nat :=
  1000000000

/-- The bound of all durations, in nanoseconds: their whole seconds fit 64 bits. -/
def durationBound : Nat :=
  UInt64.size * nanosPerSec

structure Duration where
  nanos : Nat
  nanos_lt : nanos < durationBound
  deriving DecidableEq, Repr

namespace Duration

@[ext]
theorem ext {a b : Duration} (h : a.nanos = b.nanos) : a = b := by
  cases a
  cases b
  simpa using h

def zero : Duration :=
  ⟨0, by decide⟩

def ofNanos? (nanos : Nat) : Option Duration :=
  if h : nanos < durationBound then some ⟨nanos, h⟩ else none

def ofParts? (secs nanos : Nat) : Option Duration :=
  ofNanos? (secs * nanosPerSec + nanos)

def ofSecs (secs : Nat) (h : secs < UInt64.size) : Duration :=
  ⟨secs * nanosPerSec, by simp only [durationBound, nanosPerSec]; omega⟩

def secs (d : Duration) : Nat :=
  d.nanos / nanosPerSec

/-- The nanoseconds beyond the whole seconds. -/
def subsecNanos (d : Duration) : Nat :=
  d.nanos % nanosPerSec

def micros (d : Duration) : Nat :=
  d.nanos / 1000

def isZero (d : Duration) : Bool :=
  d.nanos = 0

instance : LE Duration where
  le a b := a.nanos ≤ b.nanos

instance : LT Duration where
  lt a b := a.nanos < b.nanos

instance (a b : Duration) : Decidable (a ≤ b) :=
  inferInstanceAs (Decidable (a.nanos ≤ b.nanos))

instance (a b : Duration) : Decidable (a < b) :=
  inferInstanceAs (Decidable (a.nanos < b.nanos))

theorem secs_lt (d : Duration) : d.secs < UInt64.size := by
  have h := d.nanos_lt
  simp only [durationBound, nanosPerSec, secs] at h ⊢
  omega

@[simp]
theorem secs_ofSecs (n : Nat) (h : n < UInt64.size) : (ofSecs n h).secs = n := by
  simp only [secs, ofSecs, nanosPerSec]
  omega

/-- A longer duration has no fewer whole seconds. -/
theorem secs_le_secs {a b : Duration} (h : a ≤ b) : a.secs ≤ b.secs :=
  Nat.div_le_div_right h

end Duration

end ResponseCache
