import ResponseCache.Layer.Schedule
import ResponseCache.Proofs.Layer.Transition

/-!
This module contains the runs of a cache: requests come in, take their steps in any order and go away,
clocks are set to any time, and the store changes by itself as far as it is allowed to. Every state
that the schedules bring about is one of a run.
-/

namespace ResponseCache

open Cache

section

variable {σ : Type} [Backend σ]

/-- Whatever can happen next to a cache, whose store may drift in some ways. -/
inductive Move (layer : Layer) (drift : σ → σ → Prop) (c : Cache σ) : Cache σ → Prop where
  | enlist (job : Job) : Move layer drift c (c.enlist job).1
  | step {i : Nat} {c' : Cache σ} (hstep : c.step layer i = some c') : Move layer drift c c'
  | cancel (i : Nat) : Move layer drift c (c.cancel i)
  | clock (clock : Time) : Move layer drift c (c.setClock clock)
  | systemTime (systemTime : Time) : Move layer drift c { c with systemTime := systemTime }
  | drift {store : σ} (hdrift : drift c.store store) : Move layer drift c { c with store := store }

/-- Something that can happen to a cache, so that it can be written down. -/
inductive Action (σ : Type) where
  | enlist (job : Job)
  | step (i : Nat)
  | cancel (i : Nat)
  | clock (clock : Time)
  | systemTime (systemTime : Time)
  | change (f : σ → σ)

namespace Cache

/-- The cache after an action. A step that a request cannot take changes nothing. -/
def act (c : Cache σ) (layer : Layer) : Action σ → Cache σ
  | .enlist job => (c.enlist job).1
  | .step i => (c.step layer i).getD c
  | .cancel i => c.cancel i
  | .clock clock => c.setClock clock
  | .systemTime systemTime => { c with systemTime := systemTime }
  | .change f => { c with store := f c.store }

variable {layer : Layer} {c c' : Cache σ} {i : Nat}

theorem act_step_of_eq_some (hstep : c.step layer i = some c') : c.act layer (.step i) = c' := by
  simp only [act, hstep, Option.getD_some]

theorem act_step_of_eq_none (hstep : c.step layer i = none) : c.act layer (.step i) = c := by
  simp only [act, hstep, Option.getD_none]

end Cache

theorem Move.exists_act {layer : Layer} {drift : σ → σ → Prop} {c c' : Cache σ}
    (h : Move layer drift c c') : ∃ action, c' = c.act layer action := by
  cases h with
  | enlist job => exact ⟨.enlist job, rfl⟩
  | @step i c' hstep => exact ⟨.step i, (act_step_of_eq_some hstep).symm⟩
  | cancel i => exact ⟨.cancel i, rfl⟩
  | clock clock => exact ⟨.clock clock, rfl⟩
  | systemTime systemTime => exact ⟨.systemTime systemTime, rfl⟩
  | @drift store hdrift => exact ⟨.change fun _ => store, rfl⟩

inductive Reachable (layer : Layer) (drift : σ → σ → Prop) (start : Cache σ) : Cache σ → Prop where
  | start : Reachable layer drift start start
  | move {c c' : Cache σ} (hreach : Reachable layer drift start c)
      (hmove : Move layer drift c c') : Reachable layer drift start c'

namespace Reachable

variable {layer : Layer} {drift : σ → σ → Prop} {start c : Cache σ}

theorem invariant {P : Cache σ → Prop} (hstart : P start)
    (hmove : ∀ {c c' : Cache σ}, P c → Move layer drift c c' → P c')
    (hreach : Reachable layer drift start c) : P c := by
  induction hreach with
  | start => exact hstart
  | move _ hmove' ih => exact hmove ih hmove'

theorem trans {c' : Cache σ} (hreach : Reachable layer drift start c)
    (hon : Reachable layer drift c c') : Reachable layer drift start c' := by
  induction hon with
  | start => exact hreach
  | move _ hmove ih => exact .move ih hmove

theorem enlist (hreach : Reachable layer drift start c) (job : Job) :
    Reachable layer drift start (c.enlist job).1 :=
  .move hreach (.enlist job)

theorem elapse (hreach : Reachable layer drift start c) (d : Duration) :
    Reachable layer drift start (c.elapse d) :=
  .move hreach (.systemTime _)

theorem run_go (hreach : Reachable layer drift start c) (i n : Nat) :
    Reachable layer drift start (Cache.run.go layer i n c) := by
  induction n generalizing c with
  | zero => exact hreach
  | succ n ih =>
    unfold Cache.run.go
    split
    next c' hstep =>
      apply ih
      exact .move (hreach.elapse pace) (.step hstep)
    next => exact hreach

theorem run (hreach : Reachable layer drift start c) (i : Nat) :
    Reachable layer drift start (c.run layer i) :=
  hreach.run_go i (c.rank i)

theorem turn_go (hreach : Reachable layer drift start c) (i n : Nat) :
    Reachable layer drift start (Cache.turn.go layer i n c) := by
  induction n generalizing c with
  | zero => exact hreach
  | succ n ih =>
    unfold Cache.turn.go
    split
    next c' hstep =>
      have hstepped : Reachable layer drift start c' :=
        .move (hreach.elapse pace) (.step hstep)
      split
      next => exact hstepped
      next => exact ih hstepped
    next => exact hreach

theorem turn (hreach : Reachable layer drift start c) (i : Nat) :
    Reachable layer drift start (c.turn layer i) :=
  hreach.turn_go i (c.rank i)

theorem turns (hreach : Reachable layer drift start c) (order : List Nat) :
    Reachable layer drift start (order.foldl (fun c i => c.turn layer i) c) := by
  induction order generalizing c with
  | nil => exact hreach
  | cons i order ih => exact ih (hreach.turn i)

theorem request (hreach : Reachable layer drift start c) (job : Job) :
    Reachable layer drift start (c.request layer job).1 :=
  (hreach.enlist job).run _

theorem roundTurn (hreach : Reachable layer drift start c) (round : Nat) (e : Entrant) (i : Nat) :
    Reachable layer drift start (c.roundTurn layer round e i) := by
  unfold Cache.roundTurn
  split
  next => exact hreach
  next =>
    split
    next => exact .move hreach (.cancel i)
    next => exact hreach.turn i

theorem playRound (hreach : Reachable layer drift start c) (round : Nat) (entrants : Entrants) :
    Reachable layer drift start (c.playRound layer round entrants).1 := by
  induction entrants generalizing c with
  | nil => exact hreach
  | cons entrant entrants ih =>
    obtain ⟨e, i, finished⟩ := entrant
    have hturn := hreach.roundTurn round e i
    unfold Cache.playRound
    simp only
    split
    next => exact hturn
    next => exact ih hturn

theorem cancelAll (hreach : Reachable layer drift start c) (entrants : Entrants) :
    Reachable layer drift start (c.cancelAll entrants) := by
  unfold Cache.cancelAll
  induction entrants generalizing c with
  | nil => exact hreach
  | cons entrant entrants ih => exact ih (.move hreach (.cancel entrant.2.1))

theorem playRounds (hreach : Reachable layer drift start c) (tick : Duration) (n round : Nat)
    (entrants : Entrants) :
    Reachable layer drift start (Cache.playRounds layer tick n round c entrants).1 := by
  induction n generalizing round c entrants with
  | zero => exact hreach
  | succ n ih =>
    have hround := hreach.playRound round entrants
    unfold Cache.playRounds
    split
    next c' heq =>
      rw [heq] at hround
      exact hround.cancelAll entrants
    next c' entrants' heq =>
      rw [heq] at hround
      split
      next => exact hround
      next =>
        split
        next c'' hadvance =>
          unfold advance? at hadvance
          rw [Option.map_eq_some_iff] at hadvance
          obtain ⟨clock, -, rfl⟩ := hadvance
          exact ih (.move hround (.clock clock)) _ _
        next => exact hround.cancelAll entrants'

theorem enlistAll (hreach : Reachable layer drift start c) (entrants : List Entrant) :
    Reachable layer drift start (c.enlistAll entrants).1 := by
  induction entrants generalizing c with
  | nil => exact hreach
  | cons e entrants ih => exact ih (hreach.enlist e.job)

/-- Whatever a schedule brings about is a state of a run. -/
theorem concurrent (hreach : Reachable layer drift start c) (tick : Duration)
    (entrants : List Entrant) :
    Reachable layer drift start (c.concurrent layer tick entrants).1 :=
  (hreach.enlistAll entrants).playRounds tick _ 0 _

end Reachable

end

def Layer.sample (singleFlight : Bool) : Layer where
  policy := ⟨0, 60, by decide, by decide⟩
  statuses := standardStatuses
  extractor := .standard
  singleFlight := singleFlight
  events := .standard
  clock := .manual
  entropy := ⟨fun _ => "", fun _ => 0⟩

def Job.sample (pauses : Nat) (answer : Except String Reply) : Job :=
  ⟨⟨"GET", .ofPath ['/'], []⟩, ⟨none, none, pauses, fun _ => answer⟩⟩

def Reply.empty : Reply :=
  ⟨.ok, [], [], by decide⟩

end ResponseCache
