import Mathlib.Algebra.Order.BigOperators.Group.List
import Mathlib.Algebra.Order.Ring.Nat
import ResponseCache.Proofs.Layer.Locks
import ResponseCache.Proofs.Layer.Play

/-!
This module contains that requests come to their end. Every step lowers the bound of the steps that are
left to its request, and as long as a request is not finished there is one that can take its next step.
-/

namespace ResponseCache

open Cache

namespace Phase

theorem rank_finish_lt {phase : Phase} (hanswer : phase.answer? = none) (hne : phase ≠ .cancelled)
    (pauses : Nat) (guard : Option Guard) (answer : Answer) :
    (finish guard answer).rank pauses < phase.rank pauses := by
  have hfinish : (finish guard answer).rank pauses ≤ 1 := by
    cases guard with
    | none => exact Nat.zero_le _
    | some guard => exact Nat.le_refl _
  apply Nat.lt_of_le_of_lt hfinish
  cases phase with
  | landing => nomatch hanswer
  | done => nomatch hanswer
  | cancelled => exact absurd rfl hne
  | reading key again => cases again <;> simp only [rank] <;> omega
  | discarding key again => cases again <;> simp only [rank] <;> omega
  | deciding key found again => cases again <;> simp only [rank] <;> omega
  | joining key again => cases again <;> simp only [rank] <;> omega
  | locking guard role => cases role <;> simp only [rank] <;> omega
  | queued guard role => cases role <;> simp only [rank] <;> omega
  | _ =>
    simp only [rank]
    omega

theorem cases_of_not_isReady {phase : Phase} (h : ¬phase.isReady = true) :
    (∃ guard role, phase = .queued guard role) ∨ (∃ answer, phase = .done answer)
      ∨ phase = .cancelled := by
  cases phase with
  | queued guard role => exact .inl ⟨guard, role, rfl⟩
  | done answer => exact .inr (.inl ⟨answer, rfl⟩)
  | cancelled => exact .inr (.inr rfl)
  | _ => exact absurd rfl h

end Phase

section

variable {σ : Type} [Backend σ] {layer : Layer} {c c' : Cache σ} {i : Nat} {task : Task} {e : Effect σ}

theorem Transition.rank_lt (h : Transition layer c i task e) :
    e.phase.rank task.job.handler.pauses < task.phase.rank task.job.handler.pauses := by
  have hne := h.phase_ne_cancelled
  cases h with
  | refused hphase => exact Phase.rank_finish_lt (hphase ▸ rfl) hne _ _ _
  | failed hphase => exact Phase.rank_finish_lt (hphase ▸ rfl) hne _ _ _
  | unstorable hphase => exact Phase.rank_finish_lt (hphase ▸ rfl) hne _ _ _
  | wrote hphase => exact Phase.rank_finish_lt (hphase ▸ rfl) hne _ _ _
  | writeFailed hphase => exact Phase.rank_finish_lt (hphase ▸ rfl) hne _ _ _
  | writeAborted hphase => exact Phase.rank_finish_lt (hphase ▸ rfl) hne _ _ _
  | @foundExpired key again hphase =>
    rw [hphase]
    cases again <;> simp only [stay, Phase.rank] <;> omega
  | @looked key again found hphase =>
    rw [hphase]
    cases again <;> simp only [stay, Phase.rank] <;> omega
  | @lookFailed key again error hphase =>
    rw [hphase]
    cases again <;> simp only [stay, Phase.rank] <;> omega
  | @discarded key again hphase =>
    rw [hphase]
    cases again <;> simp only [stay, Phase.rank] <;> omega
  | @hit key again entry hphase =>
    rw [hphase]
    cases again <;> simp only [stay, Phase.rank] <;> omega
  | @began key again hphase =>
    rw [hphase]
    cases again <;> simp only [stay, Phase.rank] <;> omega
  | @queued guard role _ hphase =>
    rw [hphase]
    cases role <;> simp only [stay, Phase.rank] <;> omega
  | _ =>
    rw [‹task.phase = _›]
    simp only [stay, Phase.rank]
    omega

/-- A step lowers the bound of the steps that are left to its request, and leaves that of any other. -/
theorem rank_of_step (hstep : c.step layer i = some c') :
    c'.rank i < c.rank i ∧ ∀ k, k ≠ i → c'.rank k = c.rank k := by
  obtain ⟨task, e, hget, h, rfl⟩ := Transition.of_step hstep
  unfold rank
  constructor
  . rw [hget, getElem?_after_self hget e]
    exact h.rank_lt
  . intro k hne
    unfold after
    simp only [List.getElem?_set_ne hne.symm]

theorem exists_step_of_holder (layer : Layer) (hget : c.tasks[i]? = some task) {guard : Guard} {role : Role}
    (hphase : task.phase = .queued guard role) (hholder : (c.flights.lock guard.lock).holder = some i) :
    ∃ c', c.step layer i = some c' := by
  unfold step
  simp only [hget, hphase, Option.bind_eq_bind, Option.bind_some]
  exact ⟨_, if_pos hholder⟩

/-- Whoever waits for a lock waits for a request that can take its next step. -/
theorem Governed.exists_step (hc : Governed c) (layer : Layer) (hget : c.tasks[i]? = some task)
    {guard : Guard} {role : Role} (hphase : task.phase = .queued guard role) :
    ∃ k c', c.step layer k = some c' := by
  obtain ⟨k, hholder, other, hother, hlock⟩ := hc.exists_holder hget hphase
  by_cases hready : other.phase.isReady = true
  . obtain ⟨e, -, hstep⟩ := exists_transition_of_isReady layer hother hready
    exact ⟨k, _, hstep⟩
  . obtain ⟨queue, role, hqueued⟩ | ⟨answer, hdone⟩ | hcancelled := Phase.cases_of_not_isReady hready
    . rw [hqueued] at hlock
      rw [← Option.some.inj hlock] at hholder
      obtain ⟨c', hstep⟩ := exists_step_of_holder layer hother hqueued hholder
      exact ⟨k, c', hstep⟩
    . rw [hdone] at hlock
      nomatch hlock
    . rw [hcancelled] at hlock
      nomatch hlock

/-- When no request can take a step any more, all of them are finished. -/
theorem Governed.isFinished_of_stuck (hc : Governed c) (hstuck : ∀ i, c.step layer i = none)
    (hget : c.tasks[i]? = some task) : task.phase.isFinished = true := by
  have hready : ¬task.phase.isReady = true := by
    intro hready
    obtain ⟨e, -, hstep⟩ := exists_transition_of_isReady layer hget hready
    nomatch (hstuck i).symm.trans hstep
  obtain ⟨guard, role, hqueued⟩ | ⟨answer, hdone⟩ | hcancelled := Phase.cases_of_not_isReady hready
  . obtain ⟨k, c', hstep⟩ := hc.exists_step layer hget hqueued
    nomatch (hstuck k).symm.trans hstep
  . rw [hdone]
    rfl
  . rw [hcancelled]
    rfl

def Cache.stepsLeft (c : Cache σ) : Nat :=
  ((List.range c.tasks.length).map c.rank).sum

theorem stepsLeft_lt_of_step (hstep : c.step layer i = some c') : c'.stepsLeft < c.stepsLeft := by
  obtain ⟨hlt, hothers⟩ := rank_of_step hstep
  obtain ⟨task, e, hget, -, rfl⟩ := Transition.of_step hstep
  obtain ⟨hmem, -⟩ := List.getElem?_eq_some_iff.1 hget
  have hlength : (c.after i task e).tasks.length = c.tasks.length := List.length_set
  unfold stepsLeft
  rw [hlength]
  apply List.sum_lt_sum
  . intro k _
    by_cases heq : k = i
    . rw [heq]
      exact Nat.le_of_lt hlt
    . exact Nat.le_of_eq (hothers k heq)
  . exact ⟨i, List.mem_range.2 hmem, hlt⟩

/-- All requests are finished after some more steps, with nothing else in between. -/
theorem Governed.exists_finished (hc : Governed c) (layer : Layer) :
    ∃ steps : List Nat, ∀ task ∈ (c.play layer (steps.map .step)).tasks, task.phase.isFinished = true := by
  induction hleft : c.stepsLeft using Nat.strong_induction_on generalizing c with
  | _ n ih =>
    by_cases hstuck : ∀ i, c.step layer i = none
    . refine ⟨[], ?_⟩
      intro task hmem
      obtain ⟨i, hget⟩ := List.getElem?_of_mem hmem
      exact hc.isFinished_of_stuck hstuck hget
    . obtain ⟨i, hsome⟩ := not_forall.1 hstuck
      obtain ⟨c', hstep⟩ := Option.ne_none_iff_exists'.1 hsome
      have hmove : Move layer (fun _ _ => False) c c' := .step hstep
      obtain ⟨steps, hfinished⟩ := ih _ (hleft ▸ stepsLeft_lt_of_step hstep) (hc.move hmove) rfl
      refine ⟨i :: steps, ?_⟩
      rw [List.map_cons, play_cons, act_step_of_eq_some hstep]
      exact hfinished

theorem isFinished_of_transition (h : Transition layer c i task e) : task.phase.isFinished = false := by
  cases h with
  | _ =>
    rw [‹task.phase = _›]
    rfl

theorem Transition.phase_ne_done (h : Transition layer c i task e) (answer : Answer) :
    task.phase ≠ .done answer := by
  intro hdone
  have hunfinished := isFinished_of_transition h
  rw [hdone] at hunfinished
  nomatch hunfinished

theorem getElem?_act_of_isFinished (layer : Layer) (hget : c.tasks[i]? = some task)
    (hfinished : task.phase.isFinished = true) (action : Action σ) :
    (c.act layer action).tasks[i]? = some task := by
  by_cases hstep : action = .step i
  . subst hstep
    cases hsome : c.step layer i with
    | none =>
      rw [act_step_of_eq_none hsome]
      exact hget
    | some c' =>
      obtain ⟨e, h, -⟩ := exists_transition_of_step hget hsome
      nomatch hfinished.symm.trans (isFinished_of_transition h)
  . by_cases hcancel : action = .cancel i
    . subst hcancel
      simp only [act, cancel_eq_of_getElem? hget, hfinished, if_true]
      exact hget
    . exact getElem?_act_of_ne layer hget hstep hcancel

/-- Nothing happens any more to a request that is finished. -/
theorem getElem?_play_of_isFinished (layer : Layer) (hget : c.tasks[i]? = some task)
    (hfinished : task.phase.isFinished = true) (actions : List (Action σ)) :
    (c.play layer actions).tasks[i]? = some task := by
  induction actions generalizing c with
  | nil => exact hget
  | cons action actions ih => exact ih (getElem?_act_of_isFinished layer hget hfinished action)

theorem stuck_of_isFinished (hfinished : ∀ task ∈ c.tasks, task.phase.isFinished = true) (layer : Layer)
    (i : Nat) : c.step layer i = none := by
  rw [Option.eq_none_iff_forall_ne_some]
  intro c' hstep
  obtain ⟨task, e, hget, h, -⟩ := Transition.of_step hstep
  have hphase := hfinished task (List.mem_of_getElem? hget)
  rw [isFinished_of_transition h] at hphase
  nomatch hphase

end

end ResponseCache
