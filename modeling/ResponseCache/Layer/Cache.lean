import ResponseCache.Capture
import ResponseCache.Layer.Flight
import ResponseCache.Layer.History
import ResponseCache.Layer.Settings

/-!
This module contains the state of a running cache: its store, the clocks, the flights, and the
requests with the point that each has come to.
-/

namespace ResponseCache

/-- The handler behind the cache, as it will behave for one request. -/
structure Handler where
  /-- Why it is not ready before the request comes in. -/
  unready : Option String
  /-- Why it is not ready when it is to be called. -/
  refusal : Option String
  /-- How often it lets others go on after it was called. -/
  pauses : Nat
  /-- What it answers, by the number of the call. -/
  answer : Nat → Except String Reply

/-- A request with the handler that would answer it. -/
structure Job where
  request : Request
  handler : Handler

inductive Answer where
  | response (outcome : Outcome) (response : Response)
  | failed (message : String)
  /-- The handler was not ready for a request. -/
  | unready (message : String)
  | aborted
  deriving DecidableEq, Repr

/-- The lock that the leader of a flight holds, with the key of the flight. -/
structure Guard where
  key : String
  lock : Nat
  deriving DecidableEq, Repr

inductive Role where
  /-- It began the flight and calls the handler while it holds the lock. -/
  | leader
  /-- It waits for the leader and gives the lock up at once. -/
  | follower
  deriving DecidableEq, Repr

/-- The point that a request has come to, named for what it does next. -/
inductive Phase where
  /-- It comes in. -/
  | arriving
  /-- It reads the store, for the second time after it waited for a leader. -/
  | reading (key : String) (again : Bool)
  /-- It discards the expired entry that it found. -/
  | discarding (key : String) (again : Bool)
  /-- It is decided on by what the store held. -/
  | deciding (key : String) (found : Option Entry) (again : Bool)
  /-- It is answered from an entry. -/
  | serving (entry : Entry)
  /-- It looks for a flight, or begins one. -/
  | joining (key : String) (again : Bool)
  /-- It asks for a lock. -/
  | locking (guard : Guard) (role : Role)
  /-- It waits for a lock. -/
  | queued (guard : Guard) (role : Role)
  /-- It calls the handler. -/
  | calling (decision : Decision) (guard : Option Guard)
  /-- The handler is at work, and will let others go on so many times. -/
  | running (decision : Decision) (guard : Option Guard) (pauses : Nat) (call : Nat)
  /-- What the handler answered is made an entry. -/
  | stamping (decision : Decision) (guard : Option Guard) (snapshot : Snapshot)
  /-- It writes the store. -/
  | writing (key : String) (guard : Option Guard) (entry : Entry)
  /-- It ends its flight. -/
  | landing (guard : Guard) (answer : Answer)
  /-- It is answered. -/
  | done (answer : Answer)
  /-- The client went away before the answer. -/
  | cancelled
  deriving DecidableEq, Repr

namespace Phase

/-- What a request does next that has its answer: it ends its flight first, if it leads one. -/
def finish (guard : Option Guard) (answer : Answer) : Phase :=
  match guard with
  | some guard => landing guard answer
  | none => done answer

def isFinished : Phase → Bool
  | done _ => true
  | cancelled => true
  | _ => false

/-- Whether the handler lets others go on before it is at work again. -/
def isPaused : Phase → Bool
  | running _ _ (_ + 1) _ => true
  | _ => false

/--
A bound of the steps that are left, given how often the handler pauses. Every step lowers it.
-/
def rank (pauses : Nat) : Phase → Nat
  | arriving => 19 + pauses
  | reading _ false => 18 + pauses
  | discarding _ false => 17 + pauses
  | deciding _ _ false => 16 + pauses
  | joining _ false => 15 + pauses
  | locking _ .follower => 14 + pauses
  | queued _ .follower => 13 + pauses
  | reading _ true => 12 + pauses
  | discarding _ true => 11 + pauses
  | deciding _ _ true => 10 + pauses
  | joining _ true => 9 + pauses
  | locking _ .leader => 8 + pauses
  | queued _ .leader => 7 + pauses
  | calling .. => 6 + pauses
  | running _ _ left _ => 5 + left
  | stamping .. => 4
  | writing .. => 3
  | serving _ => 2
  | landing .. => 1
  | done _ => 0
  | cancelled => 0

end Phase

structure Task where
  job : Job
  /-- When it came in, by the time of the system. -/
  started : Time
  phase : Phase

def Task.rank (t : Task) : Nat :=
  t.phase.rank t.job.handler.pauses

structure Cache (σ : Type) where
  store : σ
  /-- The clock that moves only when it is told to. -/
  clock : Time
  /-- The time of the system, which the store and the reports observe. -/
  systemTime : Time
  flights : Flights
  /-- The requests in the order in which they came, by which they are numbered. -/
  tasks : List Task
  /-- The number of calls of the handler. -/
  calls : Nat
  /-- All that happened, the first first. -/
  history : List Note

namespace Cache

variable {σ : Type}

def start (store : σ) (clock systemTime : Time) : Cache σ :=
  ⟨store, clock, systemTime, .empty, [], 0, []⟩

def now (c : Cache σ) (layer : Layer) : Time :=
  match layer.clock with
  | .manual => c.clock
  | .system => c.systemTime

def note (c : Cache σ) (task : Nat) (records : List Record) : Cache σ :=
  { c with history := c.history ++ records.map (Note.mk task) }

def goto (c : Cache σ) (task : Nat) (phase : Phase) : Cache σ :=
  { c with tasks := c.tasks.modify task fun t => { t with phase := phase } }

/-- The cache with another request that is about to come in, whose number is given. -/
def enlist (c : Cache σ) (job : Job) : Cache σ × Nat :=
  ({ c with tasks := c.tasks ++ [⟨job, c.systemTime, .arriving⟩] }, c.tasks.length)

def phase? (c : Cache σ) (task : Nat) : Option Phase :=
  (c.tasks[task]?).map Task.phase

/-- Moves the clock on, unless it would leave the range of times. -/
def advance? (c : Cache σ) (d : Duration) : Option (Cache σ) :=
  (c.clock.add? d).map fun clock => { c with clock := clock }

def setClock (c : Cache σ) (clock : Time) : Cache σ :=
  { c with clock := clock }

/-- Moves the time of the system on, as far as it goes. -/
def elapse (c : Cache σ) (d : Duration) : Cache σ :=
  { c with systemTime := (c.systemTime.add? d).getD c.systemTime }

end Cache

end ResponseCache
