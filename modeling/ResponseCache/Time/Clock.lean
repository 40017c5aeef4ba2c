import ResponseCache.Time.Basic

/-!
This module contains clocks that move only when they are told to. A clock can be held under several
handles, which all show the same time.
-/

namespace ResponseCache

/-- Clocks and the handles under which they are held. -/
structure Clocks where
  /-- The times of the clocks, which are numbered in order. -/
  times : List Time
  /-- For each handle the number of its clock. -/
  handles : List Nat
  deriving DecidableEq, Repr

namespace Clocks

def single (start : Time) : Clocks :=
  ⟨[start], [0]⟩

def clockOf (c : Clocks) (handle : Nat) : Nat :=
  c.handles.getD handle 0

def now (c : Clocks) (handle : Nat) : Time :=
  c.times.getD (c.clockOf handle) .epoch

def set (c : Clocks) (handle : Nat) (time : Time) : Clocks :=
  { c with times := c.times.set (c.clockOf handle) time }

/-- Moves the clock of a handle on, unless it would leave the range of times. -/
def advance? (c : Clocks) (handle : Nat) (d : Duration) : Option Clocks :=
  ((c.now handle).add? d).map (c.set handle)

def clone (c : Clocks) (handle : Nat) : Clocks :=
  { c with handles := c.handles ++ [c.clockOf handle] }

/-- Another clock under a handle of its own. -/
def new (c : Clocks) (start : Time) : Clocks :=
  ⟨c.times ++ [start], c.handles ++ [c.times.length]⟩

def readings (c : Clocks) : List Time :=
  (List.range c.handles.length).map c.now

end Clocks

end ResponseCache
