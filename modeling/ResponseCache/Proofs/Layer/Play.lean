import Mathlib.Data.List.Induction
import ResponseCache.Proofs.Layer.Growth

/-!
This module contains runs that are written down as the actions of which they consist. A request that has
come to a point of some kind did so by a last step, since when it has been at such points.
-/

namespace ResponseCache

open Cache

section

variable {σ : Type} [Backend σ] {layer : Layer} {c first : Cache σ} {i : Nat} {task : Task}

namespace Cache

def play (c : Cache σ) (layer : Layer) (actions : List (Action σ)) : Cache σ :=
  actions.foldl (fun c action => c.act layer action) c

@[simp]
theorem play_nil (c : Cache σ) (layer : Layer) : c.play layer [] = c := rfl

@[simp]
theorem play_cons (c : Cache σ) (layer : Layer) (action : Action σ) (actions : List (Action σ)) :
    c.play layer (action :: actions) = (c.act layer action).play layer actions := rfl

@[simp]
theorem play_append (c : Cache σ) (layer : Layer) (actions others : List (Action σ)) :
    c.play layer (actions ++ others) = (c.play layer actions).play layer others :=
  List.foldl_append

theorem reachable_act (c : Cache σ) (layer : Layer) {drift : σ → σ → Prop} {action : Action σ}
    (hdrift : ∀ f, action = .change f → drift c.store (f c.store)) :
    Reachable layer drift c (c.act layer action) := by
  cases action with
  | enlist job => exact .move .start (.enlist job)
  | step i =>
    cases hstep : c.step layer i with
    | none =>
      rw [act_step_of_eq_none hstep]
      exact .start
    | some c' =>
      rw [act_step_of_eq_some hstep]
      exact .move .start (.step hstep)
  | cancel i => exact .move .start (.cancel i)
  | clock clock => exact .move .start (.clock clock)
  | systemTime systemTime => exact .move .start (.systemTime systemTime)
  | change f => exact .move .start (.drift (hdrift f rfl))

theorem reachable_play (c : Cache σ) (layer : Layer) (actions : List (Action σ)) :
    Reachable layer (fun _ _ => True) c (c.play layer actions) := by
  induction actions generalizing c with
  | nil => exact .start
  | cons action actions ih => exact (c.reachable_act layer fun _ _ => trivial).trans (ih _)

end Cache

theorem getElem?_act_of_ne (layer : Layer) (hget : c.tasks[i]? = some task) {action : Action σ}
    (hstep : action ≠ .step i) (hcancel : action ≠ .cancel i) :
    (c.act layer action).tasks[i]? = some task := by
  cases action with
  | enlist job => exact getElem?_of_isPrefix (List.prefix_append _ _) hget
  | step k =>
    have hne : k ≠ i := fun heq => hstep (congrArg Action.step heq)
    cases hstep' : c.step layer k with
    | none =>
      rw [act_step_of_eq_none hstep']
      exact hget
    | some c' =>
      obtain ⟨other, e, -, -, rfl⟩ := Transition.of_step hstep'
      rw [act_step_of_eq_some hstep']
      exact getElem?_after_of_ne hne e hget
  | cancel k =>
    have hne : k ≠ i := fun heq => hcancel (congrArg Action.cancel heq)
    simp only [act]
    cases cancel_eq c k with
    | inl heq =>
      rw [heq]
      exact hget
    | inr hcancelled =>
      obtain ⟨other, -, -, heq⟩ := hcancelled
      rw [heq]
      exact getElem?_after_of_ne hne _ hget
  | _ => exact hget

/-- Others leave a request as it is. -/
theorem getElem?_play_of_not_mem (layer : Layer) (hget : c.tasks[i]? = some task) {actions : List (Action σ)}
    (hstep : .step i ∉ actions) (hcancel : .cancel i ∉ actions) :
    (c.play layer actions).tasks[i]? = some task := by
  induction actions generalizing c with
  | nil => exact hget
  | cons action actions ih =>
    rw [List.mem_cons, not_or] at hstep hcancel
    exact ih (getElem?_act_of_ne layer hget (Ne.symm hstep.1) (Ne.symm hcancel.1)) hstep.2 hcancel.2

/-- What becomes of a request by an action, whose step it may be. -/
theorem exists_getElem?_act (layer : Layer) (hget : c.tasks[i]? = some task) (action : Action σ) :
    ∃ task', (c.act layer action).tasks[i]? = some task' ∧ task'.job = task.job
      ∧ (task'.phase = task.phase ∨ task'.phase = .cancelled
        ∨ ∃ e, action = .step i ∧ Transition layer c i task e ∧ c.act layer action = c.after i task e
          ∧ task'.phase = e.phase) := by
  have hreach : Reachable layer (fun _ _ => True) c (c.act layer action) :=
    c.reachable_act layer fun _ _ => trivial
  obtain ⟨task', hget', hjob, -⟩ := hreach.keeps (P := fun _ => True) trivial (fun _ _ _ => trivial) hget rfl
    trivial
  obtain ⟨hnone, -⟩ | ⟨old, hold, -, hphase⟩ := act_cases hget'
  . nomatch hget.symm.trans hnone
  . obtain rfl := Option.some.inj (hget.symm.trans hold)
    exact ⟨task', hget', hjob, hphase⟩

/-- What no step of a request takes back, nor its departure, holds of it after any actions. -/
theorem exists_getElem?_play (layer : Layer) {P : Phase → Prop} (hcancelled : P .cancelled)
    (hstep : ∀ {c : Cache σ} {t e}, t.job = task.job → Transition layer c i t e → P t.phase → P e.phase)
    (hget : c.tasks[i]? = some task) (hP : P task.phase) (actions : List (Action σ)) :
    ∃ task', (c.play layer actions).tasks[i]? = some task' ∧ task'.job = task.job ∧ P task'.phase :=
  (c.reachable_play layer actions).keeps hcancelled hstep hget rfl hP

theorem job_eq_of_play {task' : Task} {actions : List (Action σ)} (hget : c.tasks[i]? = some task)
    (hget' : (c.play layer actions).tasks[i]? = some task') : task'.job = task.job := by
  obtain ⟨task'', hget'', hjob, -⟩ := exists_getElem?_play layer (P := fun _ => True) trivial
    (fun _ _ _ => trivial) hget trivial actions
  obtain rfl := Option.some.inj (hget''.symm.trans hget')
  exact hjob

/-- Every state of a run is one that actions lead to. -/
theorem Reachable.exists_play {drift : σ → σ → Prop} (hreach : Reachable layer drift first c) :
    ∃ actions, c = first.play layer actions := by
  induction hreach with
  | start => exact ⟨[], rfl⟩
  | move hreach hmove ih =>
    obtain ⟨actions, rfl⟩ := ih
    obtain ⟨action, rfl⟩ := hmove.exists_act
    refine ⟨actions ++ [action], ?_⟩
    rw [play_append]
    rfl

/--
The step by which a request came to points of some kind, where it was not before, and has been ever since.
-/
structure Crossing (layer : Layer) (first : Cache σ) (actions : List (Action σ)) (i : Nat) (job : Job)
    (Q : Phase → Prop) (before after : List (Action σ)) (task : Task) (e : Effect σ) : Prop where
  actions_eq : actions = before ++ .step i :: after
  getElem?_eq : (first.play layer before).tasks[i]? = some task
  job_eq : task.job = job
  transition : Transition layer (first.play layer before) i task e
  play_eq : first.play layer (before ++ [.step i]) = (first.play layer before).after i task e
  outside : ¬Q task.phase
  inside : Q e.phase
  stays : ∀ {between rest}, after = between ++ rest →
    ∃ task, (first.play layer (before ++ .step i :: between)).tasks[i]? = some task ∧ task.job = job
      ∧ Q task.phase

omit [Backend σ] in
theorem arriving_of_eq_nil (hfirst : first.tasks = []) (i : Nat) (task : Task)
    (hget : first.tasks[i]? = some task) : task.phase = .arriving := by
  rw [hfirst, List.getElem?_nil] at hget
  nomatch hget

theorem Crossing.isPrefix {actions before after : List (Action σ)} {job : Job} {Q : Phase → Prop}
    {e : Effect σ} (h : Crossing layer first actions i job Q before after task e) :
    before ++ [.step i] <+: actions := by
  refine ⟨after, ?_⟩
  rw [h.actions_eq, List.append_assoc]
  rfl

theorem exists_crossing {Q : Phase → Prop} (harriving : ¬Q .arriving) (hcancelled : ¬Q .cancelled)
    (hfirst : ∀ task, first.tasks[i]? = some task → task.phase = .arriving) {actions : List (Action σ)}
    (hget : (first.play layer actions).tasks[i]? = some task) (hQ : Q task.phase) :
    ∃ before after task' e, Crossing layer first actions i task.job Q before after task' e := by
  induction actions using List.reverseRecOn generalizing task with
  | nil =>
    rw [hfirst task hget] at hQ
    exact absurd hQ harriving
  | append_singleton actions action ih =>
    have hnow := hget
    rw [play_append] at hget
    obtain ⟨old, hold, hjob, hentered⟩ := act_entered harriving hcancelled hget hQ
    by_cases hQold : Q old.phase
    . obtain ⟨before, after, task', e, h⟩ := ih hold hQold
      refine ⟨before, after ++ [action], task', e, ?_⟩
      refine { h with actions_eq := ?_, job_eq := h.job_eq.trans hjob, stays := ?_ }
      . rw [h.actions_eq, List.append_assoc, List.cons_append]
      . intro between rest hafter
        cases rest using List.reverseRecOn with
        | nil =>
          rw [List.append_nil] at hafter
          refine ⟨task, ?_, rfl, hQ⟩
          rw [← hafter, ← List.cons_append, ← List.append_assoc, ← h.actions_eq]
          exact hnow
        | append_singleton rest last =>
          rw [← List.append_assoc] at hafter
          obtain ⟨task'', hget'', hjob'', hQ''⟩ := h.stays (List.append_inj' hafter rfl).1
          exact ⟨task'', hget'', hjob''.trans hjob, hQ''⟩
    . -- This is the last step that led to such a point.
      obtain ⟨e, rfl, h, heq, hQe⟩ := hentered.resolve_left hQold
      refine ⟨actions, [], old, e, rfl, hold, hjob, h, ?_, hQold, hQe, ?_⟩
      . rw [play_append]
        exact heq
      . intro between rest hafter
        obtain ⟨rfl, -⟩ := List.append_eq_nil_iff.1 hafter.symm
        exact ⟨task, hnow, rfl, hQ⟩

theorem mem_history_act {note : Note} {action : Action σ} (hmem : note ∈ (c.act layer action).history) :
    note ∈ c.history ∨ ∃ task e, action = .step note.task ∧ c.tasks[note.task]? = some task
      ∧ Transition layer c note.task task e ∧ c.act layer action = c.after note.task task e
      ∧ note.record ∈ e.records := by
  cases action with
  | step k =>
    cases hstep : c.step layer k with
    | none =>
      rw [act_step_of_eq_none hstep] at hmem
      exact .inl hmem
    | some c' =>
      obtain ⟨task, e, hget, h, rfl⟩ := Transition.of_step hstep
      rw [act_step_of_eq_some hstep] at hmem ⊢
      cases List.mem_append.1 hmem with
      | inl hold => exact .inl hold
      | inr hnew =>
        obtain ⟨record, hrecord, rfl⟩ := List.mem_map.1 hnew
        exact .inr ⟨task, e, rfl, hget, h, rfl, hrecord⟩
  | cancel k =>
    cases cancel_eq c k with
    | inl heq =>
      simp only [act, heq] at hmem
      exact .inl hmem
    | inr hcancel =>
      obtain ⟨task, -, -, heq⟩ := hcancel
      simp only [act, heq] at hmem
      exact .inl (List.append_nil c.history ▸ hmem)
  | _ => exact .inl hmem

/-- The step of which a note is left. -/
theorem exists_transition_of_mem_history {note : Note} {actions : List (Action σ)}
    (hmem : note ∈ (first.play layer actions).history) (hnot : note ∉ first.history) :
    ∃ before after task e, actions = before ++ .step note.task :: after
      ∧ (first.play layer before).tasks[note.task]? = some task
      ∧ Transition layer (first.play layer before) note.task task e
      ∧ first.play layer (before ++ [.step note.task]) = (first.play layer before).after note.task task e
      ∧ note.record ∈ e.records := by
  induction actions generalizing first with
  | nil => exact absurd hmem hnot
  | cons action actions ih =>
    by_cases hnow : note ∈ (first.act layer action).history
    . obtain hold | ⟨task, e, rfl, hget, h, heq, hrecord⟩ := mem_history_act hnow
      . exact absurd hold hnot
      . exact ⟨[], actions, task, e, rfl, hget, h, heq, hrecord⟩
    . obtain ⟨before, after, task, e, rfl, h⟩ := ih hmem hnow
      exact ⟨action :: before, after, task, e, rfl, h⟩

end

def Phase.isWriting : Phase → Bool
  | .writing .. => true
  | _ => false

theorem exists_of_isWriting {σ : Type} {c : Cache σ} {i : Nat}
    (h : (c.phase? i).any Phase.isWriting = true) :
    ∃ key guard entry, c.phase? i = some (.writing key guard entry) := by
  obtain ⟨phase, hphase, hwriting⟩ := (Option.any_eq_true _ _).1 h
  unfold Phase.isWriting at hwriting
  split at hwriting
  next key guard entry => exact ⟨key, guard, entry, hphase⟩
  next => nomatch hwriting

end ResponseCache
