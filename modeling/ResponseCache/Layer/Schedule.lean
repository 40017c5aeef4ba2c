import ResponseCache.Layer.Step

/-!
This module contains two ways to let requests take their steps: one after the other, or together in
rounds, in each of which every request goes as far as it can without waiting.
-/

namespace ResponseCache

namespace Cache

variable {σ : Type} [Backend σ]

def rank (c : Cache σ) (i : Nat) : Nat :=
  ((c.tasks[i]?).map Task.rank).getD 0

/-- The time of the system that every step takes. -/
def pace : Duration :=
  ⟨1, by decide⟩

/-- Takes steps of a request until it is finished, or waits for a lock. -/
def run (c : Cache σ) (layer : Layer) (i : Nat) : Cache σ :=
  go (c.rank i) c
where
  go : Nat → Cache σ → Cache σ
    | 0, c => c
    | n + 1, c =>
      match (c.elapse pace).step layer i with
      | some c => go n c
      | none => c

/-- Takes steps of a request until it is finished, waits for a lock, or its handler pauses. -/
def turn (c : Cache σ) (layer : Layer) (i : Nat) : Cache σ :=
  go (c.rank i) c
where
  go : Nat → Cache σ → Cache σ
    | 0, c => c
    | n + 1, c =>
      match (c.elapse pace).step layer i with
      | some c => if (c.phase? i).any Phase.isPaused then c else go n c
      | none => c

def request (c : Cache σ) (layer : Layer) (job : Job) : Cache σ × Option Phase :=
  let (c, i) := c.enlist job
  let c := c.run layer i
  (c, c.phase? i)

end Cache

structure Entrant where
  job : Job
  start : Nat
  /-- The round in which its client goes away, if it is not answered before. -/
  cancel : Option Nat

structure Finish where
  phase : Phase
  round : Nat

namespace Cache

variable {σ : Type} [Backend σ]

def roundTurn (c : Cache σ) (layer : Layer) (round : Nat) (e : Entrant) (i : Nat) : Cache σ :=
  if (c.phase? i).any Phase.isFinished ∨ round < e.start then c
  else if e.cancel = some round then c.cancel i
  else c.turn layer i

/-- The requests in a round, by their number, with the round in which each was finished. -/
abbrev Entrants := List (Entrant × Nat × Option Nat)

/-- One round: the requests take their turns in order. If one is aborted, the round ends at once. -/
def playRound (c : Cache σ) (layer : Layer) (round : Nat) : Entrants → Cache σ × Option Entrants
  | [] => (c, some [])
  | (e, i, finished) :: rest =>
    let c := c.roundTurn layer round e i
    match c.phase? i with
    | some (.done .aborted) => (c, none)
    | phase =>
      let finished := finished <|> if phase.any Phase.isFinished then some round else none
      let (c, rest) := c.playRound layer round rest
      (c, rest.map fun rest => (e, i, finished) :: rest)

def finishes (c : Cache σ) (entrants : Entrants) : List Finish :=
  entrants.filterMap fun (_, i, finished) => do
    return ⟨← c.phase? i, ← finished⟩

def cancelAll (c : Cache σ) (entrants : Entrants) : Cache σ :=
  entrants.foldl (fun c (_, i, _) => c.cancel i) c

/--
Plays rounds until all requests are finished. After each round but the last, the clock moves on. If it
cannot, or if a request is aborted, all is called off. The first argument bounds the number of rounds.
-/
def playRounds (layer : Layer) (tick : Duration) :
    Nat → Nat → Cache σ → Entrants → Cache σ × Option Entrants
  | 0, _, c, entrants => (c, some entrants)
  | n + 1, round, c, entrants =>
    match c.playRound layer round entrants with
    | (c, none) => (c.cancelAll entrants, none)
    | (c, some entrants) =>
      if entrants.all fun (_, _, finished) => finished.isSome then
        (c, some entrants)
      else
        match c.advance? tick with
        | some c => playRounds layer tick n (round + 1) c entrants
        | none => (c.cancelAll entrants, none)

def enlistAll (c : Cache σ) : List Entrant → Cache σ × Entrants
  | [] => (c, [])
  | e :: rest =>
    let (c, i) := c.enlist e.job
    let (c, rest) := c.enlistAll rest
    (c, (e, i, none) :: rest)

/--
A bound of the number of rounds: once all requests have come in, each round takes a step of at least
one that is not finished.
-/
def roundBound (c : Cache σ) (entrants : Entrants) : Nat :=
  entrants.foldl (fun n (e, i, _) => n + e.start + c.rank i) 1

/--
Lets requests come in and run together, with the time that passes between two rounds. There are no
results if all is called off.
-/
def concurrent (c : Cache σ) (layer : Layer) (tick : Duration) (entrants : List Entrant) :
    Cache σ × Option (List Finish) :=
  let (c, entrants) := c.enlistAll entrants
  let (c, played) := playRounds layer tick (c.roundBound entrants) 0 c entrants
  (c, played.map c.finishes)

def readStore (c : Cache σ) (key : String) :
    Cache σ × List Record × Except StoreError (Option Entry) :=
  let access := Backend.get c.store c.systemTime key
  ({ c with store := access.store }, access.records [.read key access.result], access.result)

def writeStore (c : Cache σ) (key : String) (entry : Entry) (ttl : Duration) :
    Cache σ × List Record × Except WriteFault Unit :=
  let access := Backend.set c.store c.systemTime key entry ttl
  ({ c with store := access.store },
   access.records (writeRecord key entry ttl access.result), access.result)

end Cache

end ResponseCache
