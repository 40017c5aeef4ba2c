/-!
This module contains what requests for one key wait for: locks that are granted in the order of
arrival, and the table of the flights, which names the lock of the request that leads for a key.
-/

namespace ResponseCache

/-- A lock. Requests are given by their numbers. -/
structure Lock where
  holder : Option Nat
  /-- Those who wait, the longest waiting first. They wait only while there is a holder. -/
  waiters : List Nat
  deriving DecidableEq, Repr

namespace Lock

def free : Lock :=
  ⟨none, []⟩

/-- Gives the lock up, which grants it to the longest waiting request. -/
def release (l : Lock) : Lock :=
  ⟨l.waiters.head?, l.waiters.tail⟩

/-- The lock after a request no longer waits for it or holds it. -/
def forget (task : Nat) (l : Lock) : Lock :=
  if l.holder = some task then l.release else { l with waiters := l.waiters.erase task }

end Lock

/-- The locks that were made so far, and the keys for which a flight is under way. -/
structure Flights where
  /-- The locks in the order in which they were made, by which they are numbered. -/
  locks : List Lock
  /-- The keys of the flights with the numbers of their locks. -/
  leads : List (String × Nat)
  deriving DecidableEq, Repr

namespace Flights

def empty : Flights :=
  ⟨[], []⟩

/-- The number of the lock of the flight for a key, if one is under way. -/
def lead? (f : Flights) (key : String) : Option Nat :=
  f.leads.lookup key

def lock (f : Flights) (id : Nat) : Lock :=
  f.locks.getD id .free

def modify (f : Flights) (id : Nat) (change : Lock → Lock) : Flights :=
  { f with locks := f.locks.modify id change }

/-- Begins a flight for a key with a new lock, whose number is that of the locks before it. -/
def start (f : Flights) (key : String) : Flights :=
  ⟨f.locks ++ [.free], (key, f.locks.length) :: f.leads⟩

/-- Ends the flight for a key if it has the given lock. -/
def remove (f : Flights) (key : String) (id : Nat) : Flights :=
  { f with leads := f.leads.filter fun lead => lead ≠ (key, id) }

/-- Ends the flight for a key if it has the given lock, and gives the lock up. -/
def finish (f : Flights) (key : String) (id : Nat) : Flights :=
  (f.remove key id).modify id Lock.release

end Flights

end ResponseCache
