import Mathlib.Data.List.Perm.Subperm
import ResponseCache.Proofs.Layer.Calls
import ResponseCache.Proofs.Layer.Progress

/-!
This module contains the path of a request: the points from which it takes its steps in a run. Every step
lowers the rank, so that a path comes through few points of a kind. From that, what is done on behalf of one
request is bounded, whatever the others do; and as long as a request is not finished, one of them can go on.
-/

namespace ResponseCache

open Cache

namespace StoreCall

def isLook : StoreCall → Bool
  | look .. => true
  | _ => false

end StoreCall

open StoreCall

namespace Phase

def isReading : Phase → Bool
  | reading .. => true
  | _ => false

def isCalling : Phase → Bool
  | calling .. => true
  | _ => false

def asked? : Phase → Option Nat
  | locking guard _ => some guard.lock
  | _ => none

def isFollowed : Phase → Bool
  | locking _ .follower => true
  | _ => false

theorem rank_of_isReading {phase : Phase} (h : phase.isReading = true) (pauses : Nat) :
    phase.rank pauses ∈ [18 + pauses, 12 + pauses] := by
  unfold isReading at h
  split at h
  next key again => cases again <;> simp [rank]
  next => exact absurd h Bool.false_ne_true

theorem rank_of_isCalling {phase : Phase} (h : phase.isCalling = true) (pauses : Nat) :
    phase.rank pauses ∈ [6 + pauses] := by
  unfold isCalling at h
  split at h
  next => exact List.mem_singleton_self _
  next => exact absurd h Bool.false_ne_true

theorem isReady_of_isCalling {phase : Phase} (h : phase.isCalling = true) : phase.isReady = true := by
  unfold isCalling at h
  split at h
  next => rfl
  next => exact absurd h Bool.false_ne_true

theorem rank_of_isWriting {phase : Phase} (h : phase.isWriting = true) (pauses : Nat) :
    phase.rank pauses ∈ [3] := by
  unfold isWriting at h
  split at h
  next => exact List.mem_singleton_self _
  next => exact absurd h Bool.false_ne_true

theorem rank_of_isFollowed {phase : Phase} (h : phase.isFollowed = true) (pauses : Nat) :
    phase.rank pauses ∈ [14 + pauses] := by
  unfold isFollowed at h
  split at h
  next => exact List.mem_singleton_self _
  next => exact absurd h Bool.false_ne_true

theorem rank_le_of_answer? {phase : Phase} {answer : Answer} (h : phase.answer? = some answer) (pauses : Nat) :
    phase.rank pauses ≤ 1 := by
  unfold answer? at h
  split at h
  next => exact Nat.le_refl 1
  next => exact Nat.zero_le 1
  next => nomatch h

theorem exists_guard_of_asked? {phase : Phase} {id : Nat} (h : phase.asked? = some id)
    (hnot : ¬phase.isFollowed = true) : ∃ guard, phase = .locking guard .leader ∧ guard.lock = id := by
  unfold asked? at h
  split at h
  next guard role =>
    cases role with
    | leader => exact ⟨guard, rfl, Option.some.inj h⟩
    | follower => exact absurd rfl hnot
  next => exact absurd h.symm (Option.some_ne_none id)

/-- Reads begin and writes happen at points of their own kinds. -/
theorem kind_of_storeCall? {phase : Phase} {layer : Layer} {now : Time} {call : StoreCall}
    (hcall : phase.storeCall? layer now = some call) :
    call.isLook = phase.isReading ∧ call.isSet = phase.isWriting := by
  unfold storeCall? at hcall
  split at hcall
  next =>
    obtain rfl := Option.some.inj hcall
    exact ⟨rfl, rfl⟩
  next =>
    obtain rfl := Option.some.inj hcall
    exact ⟨rfl, rfl⟩
  next =>
    obtain rfl := Option.some.inj hcall
    exact ⟨rfl, rfl⟩
  next => exact absurd hcall.symm (Option.some_ne_none call)

end Phase

section

variable {σ : Type} [Backend σ] {layer : Layer} {c first : Cache σ} {i : Nat} {task : Task} {e : Effect σ}
  {action : Action σ} {actions : List (Action σ)}

namespace Cache

def left? (c : Cache σ) (layer : Layer) (i : Nat) : Action σ → Option Phase
  | .step j => if j = i ∧ (c.step layer i).isSome then c.phase? i else none
  | _ => none

/-- The points from which a request takes its steps in a run, the first first. -/
def path (c : Cache σ) (layer : Layer) (i : Nat) : List (Action σ) → List Phase
  | [] => []
  | action :: actions => (c.left? layer i action).toList ++ (c.act layer action).path layer i actions

/-- The lock that a request makes by an action, for a flight of its own. -/
def made? (c : Cache σ) (i : Nat) : Action σ → Option Nat
  | .step j =>
    match c.phase? j with
    | some (.joining key _) =>
      if j = i ∧ c.flights.lead? key = none then some c.flights.locks.length else none
    | _ => none
  | _ => none

def made (c : Cache σ) (layer : Layer) (i : Nat) : List (Action σ) → List Nat
  | [] => []
  | action :: actions => (c.made? i action).toList ++ (c.act layer action).made layer i actions

end Cache

theorem path_cons (c : Cache σ) (layer : Layer) (i : Nat) (action : Action σ) (actions : List (Action σ)) :
    c.path layer i (action :: actions)
      = (c.left? layer i action).toList ++ (c.act layer action).path layer i actions := rfl

theorem left?_of_ne (hne : action ≠ .step i) : c.left? layer i action = none := by
  unfold left?
  split
  next j => exact if_neg fun h => hne (congrArg Action.step h.1)
  next => rfl

theorem left?_of_getElem?_eq_none (hget : c.tasks[i]? = none) (layer : Layer) (action : Action σ) :
    c.left? layer i action = none := by
  by_cases heq : action = .step i
  . subst heq
    simp only [left?, phase?, hget, Option.map_none, ite_self]
  . exact left?_of_ne heq

theorem left?_of_transition (hget : c.tasks[i]? = some task) (h : Transition layer c i task e) :
    c.left? layer i (.step i) = some task.phase := by
  simp only [left?, h.step_eq hget, Option.isSome_some, and_self, if_true]
  exact phase?_eq_some hget rfl

theorem left?_of_step_eq_none (hstep : c.step layer i = none) (action : Action σ) :
    c.left? layer i action = none := by
  by_cases heq : action = .step i
  . subst heq
    simp only [left?, hstep, Option.isSome_none, Bool.false_eq_true, and_false, if_false]
  . exact left?_of_ne heq

/-- An action is a step of a request or leaves it where it is, unless it takes it away. -/
theorem left?_cases (layer : Layer) (hget : c.tasks[i]? = some task) (action : Action σ) :
    ∃ task', (c.act layer action).tasks[i]? = some task' ∧ task'.job = task.job
      ∧ ((c.left? layer i action = some task.phase ∧ ∃ e, Transition layer c i task e ∧ task'.phase = e.phase)
        ∨ (c.left? layer i action = none ∧ (task'.phase = task.phase ∨ task'.phase = .cancelled))) := by
  obtain ⟨task', hget', hjob, hphase⟩ := exists_getElem?_act layer hget action
  refine ⟨task', hget', hjob, ?_⟩
  cases hstep : c.step layer i with
  | none =>
    refine .inr ⟨left?_of_step_eq_none hstep action, ?_⟩
    obtain hsame | hcancelled | ⟨e, -, h, -⟩ := hphase
    . exact .inl hsame
    . exact .inr hcancelled
    . nomatch hstep.symm.trans (h.step_eq hget)
  | some c' =>
    obtain ⟨e, h, rfl⟩ := exists_transition_of_step hget hstep
    by_cases heq : action = .step i
    . subst heq
      rw [act_step_of_eq_some hstep, getElem?_after_self hget e] at hget'
      obtain rfl := Option.some.inj hget'
      exact .inl ⟨left?_of_transition hget h, e, h, rfl⟩
    . refine .inr ⟨left?_of_ne heq, ?_⟩
      obtain hsame | hcancelled | ⟨-, haction, -⟩ := hphase
      . exact .inl hsame
      . exact .inr hcancelled
      . exact absurd haction heq

/-- Along the path of a request the rank drops from point to point, beginning with where the request is. -/
theorem pairwise_path (layer : Layer) (hget : c.tasks[i]? = some task) (actions : List (Action σ)) :
    (c.path layer i actions).Pairwise
        (fun p q => q.rank task.job.handler.pauses < p.rank task.job.handler.pauses)
      ∧ ∀ p ∈ c.path layer i actions,
        p.rank task.job.handler.pauses ≤ task.phase.rank task.job.handler.pauses := by
  induction actions generalizing c task with
  | nil => exact ⟨.nil, List.forall_mem_nil _⟩
  | cons action actions ih =>
    obtain ⟨task', hget', hjob, ⟨hleft, e, h, hphase⟩ | ⟨hleft, hphase⟩⟩ := left?_cases layer hget action
    . obtain ⟨hpairwise, hle⟩ := ih hget'
      rw [hjob, hphase] at hle
      rw [hjob] at hpairwise
      have hlt (p : Phase) (hp : p ∈ (c.act layer action).path layer i actions) :
          p.rank task.job.handler.pauses < task.phase.rank task.job.handler.pauses :=
        Nat.lt_of_le_of_lt (hle p hp) h.rank_lt
      rw [path_cons, hleft, Option.toList_some, List.singleton_append]
      refine ⟨List.pairwise_cons.2 ⟨hlt, hpairwise⟩, ?_⟩
      rw [List.forall_mem_cons]
      exact ⟨Nat.le_refl _, fun p hp => Nat.le_of_lt (hlt p hp)⟩
    . obtain ⟨hpairwise, hle⟩ := ih hget'
      rw [hjob] at hle hpairwise
      rw [path_cons, hleft, Option.toList_none, List.nil_append]
      refine ⟨hpairwise, fun p hp => Nat.le_trans (hle p hp) ?_⟩
      cases hphase with
      | inl hsame => rw [hsame]
      | inr hcancelled =>
        rw [hcancelled]
        exact Nat.zero_le _

/-- A path comes through no more points of a kind than there are ranks of this kind. -/
theorem countP_path_le {P : Phase → Bool} {ranks : Nat → List Nat} {n : Nat}
    (hranks : ∀ {phase}, P phase = true → ∀ pauses, phase.rank pauses ∈ ranks pauses)
    (hlength : ∀ pauses, (ranks pauses).length = n) (c : Cache σ) (layer : Layer) (i : Nat)
    (actions : List (Action σ)) : (c.path layer i actions).countP P ≤ n := by
  induction actions generalizing c with
  | nil => exact Nat.zero_le _
  | cons action actions ih =>
    cases hget : c.tasks[i]? with
    | none =>
      -- Before it comes in, a request takes no step.
      rw [path_cons, left?_of_getElem?_eq_none hget]
      exact ih _
    | some task =>
      obtain ⟨hpairwise, -⟩ := pairwise_path layer hget (action :: actions)
      have hnodup : (((c.path layer i (action :: actions)).filter P).map
          (Phase.rank task.job.handler.pauses)).Nodup := by
        rw [List.nodup_iff_pairwise_ne, List.pairwise_map]
        exact (hpairwise.filter P).imp fun hlt => Nat.ne_of_gt hlt
      have hsubset : ((c.path layer i (action :: actions)).filter P).map
          (Phase.rank task.job.handler.pauses) ⊆ ranks task.job.handler.pauses := by
        intro rank hmem
        obtain ⟨phase, hphase, rfl⟩ := List.mem_map.1 hmem
        exact hranks (List.mem_filter.1 hphase).2 _
      have hle := (List.subperm_of_subset hnodup hsubset).length_le
      rw [List.length_map, hlength] at hle
      rw [List.countP_eq_length_filter]
      exact hle

theorem storeCall?_eq (c : Cache σ) (layer : Layer) (i : Nat) (action : Action σ) :
    c.storeCall? layer i action = (c.left? layer i action).bind (Phase.storeCall? layer c.systemTime) := by
  cases hget : c.tasks[i]? with
  | none =>
    rw [left?_of_getElem?_eq_none hget, Option.bind_none]
    unfold storeCall? phase?
    split
    next => rw [hget, Option.map_none, Option.bind_none, ite_self]
    next => rfl
  | some task =>
    cases hcall : c.storeCall? layer i action with
    | some call =>
      obtain ⟨rfl, hphase, e, h, -⟩ := exists_transition_of_storeCall? layer hget hcall
      rw [left?_of_transition hget h, Option.bind_some, hphase]
    | none =>
      by_cases heq : action = .step i
      . subst heq
        rw [storeCall?_step hget] at hcall
        obtain ⟨-, -, -, ⟨hleft, -⟩ | ⟨hleft, -⟩⟩ := left?_cases layer hget (.step i)
        . rw [hleft, Option.bind_some, hcall]
        . rw [hleft, Option.bind_none]
      . rw [left?_of_ne heq, Option.bind_none]

/-- The store is called from points of the path alone. -/
theorem countP_storeCalls_le_path {P : StoreCall → Bool} {Q : Phase → Bool}
    (hkind : ∀ {phase now call}, phase.storeCall? layer now = some call → P call = Q phase)
    (c : Cache σ) (i : Nat) (actions : List (Action σ)) :
    (c.storeCalls layer i actions).countP P ≤ (c.path layer i actions).countP Q := by
  induction actions generalizing c with
  | nil => exact Nat.le_refl _
  | cons action actions ih =>
    rw [storeCalls_cons, path_cons, List.countP_append, List.countP_append, storeCall?_eq]
    apply Nat.add_le_add _ (ih _)
    cases hleft : c.left? layer i action with
    | none => exact Nat.le_refl _
    | some phase =>
      cases hcall : phase.storeCall? layer c.systemTime with
      | none => simp [hcall]
      | some call =>
        simp only [Option.bind_some, hcall, Option.toList_some, List.countP_singleton, hkind hcall]
        exact Nat.le_refl _

theorem Transition.countP_isCall_le (h : Transition layer c i task e) :
    e.records.countP Record.isCall ≤ [task.phase].countP Phase.isCalling := by
  have hcalls := h.calls_eq
  cases h with
  | called hphase =>
    rw [hphase]
    exact Nat.le_refl 1
  | _ =>
    -- No other step calls, so that nothing is added to the calls.
    refine Nat.le_trans (Nat.le_of_eq ?_) (Nat.zero_le _)
    exact (Nat.left_eq_add.1 hcalls)

theorem count_callers_act_le (c : Cache σ) (layer : Layer) (i : Nat) (action : Action σ) :
    (c.act layer action).callers.count i
      ≤ c.callers.count i + (c.left? layer i action).toList.countP Phase.isCalling := by
  cases action with
  | step k =>
    cases hstep : c.step layer k with
    | none =>
      rw [act_step_of_eq_none hstep]
      exact Nat.le_add_right _ _
    | some c' =>
      obtain ⟨task, e, hget, h, rfl⟩ := Transition.of_step hstep
      rw [act_step_of_eq_some hstep, callers_after, List.count_append, List.count_replicate]
      apply Nat.add_le_add_left
      split
      next heq =>
        obtain rfl : k = i := by simpa using heq
        rw [left?_of_transition hget h]
        exact h.countP_isCall_le
      next => exact Nat.zero_le _
  | cancel k =>
    refine Nat.le_trans (Nat.le_of_eq ?_) (Nat.le_add_right _ _)
    simp only [act]
    cases cancel_eq c k with
    | inl heq => rw [heq]
    | inr hcancel =>
      obtain ⟨task, -, -, heq⟩ := hcancel
      rw [heq, callers_after]
      simp [leave, stay]
  | _ => exact Nat.le_add_right _ _

/-- The handler of a request is called from points of its path alone. -/
theorem count_callers_play_le (c : Cache σ) (layer : Layer) (i : Nat) (actions : List (Action σ)) :
    (c.play layer actions).callers.count i
      ≤ c.callers.count i + (c.path layer i actions).countP Phase.isCalling := by
  induction actions generalizing c with
  | nil => exact Nat.le_add_right _ _
  | cons action actions ih =>
    rw [play_cons, path_cons, List.countP_append, ← Nat.add_assoc]
    exact Nat.le_trans (ih _) (Nat.add_le_add_right (count_callers_act_le c layer i action) _)

theorem exists_of_mem_path {phase : Phase} (hmem : phase ∈ c.path layer i actions) :
    ∃ before after task, actions = before ++ .step i :: after
      ∧ (c.play layer before).tasks[i]? = some task ∧ task.phase = phase := by
  induction actions generalizing c with
  | nil => nomatch hmem
  | cons action actions ih =>
    rw [path_cons, List.mem_append] at hmem
    cases hmem with
    | inl hnow =>
      have hleft := Option.mem_toList.1 hnow
      have haction : action = .step i := by
        by_contra hne
        nomatch (left?_of_ne hne).symm.trans hleft
      subst haction
      cases hget : c.tasks[i]? with
      | none => nomatch (left?_of_getElem?_eq_none hget layer _).symm.trans hleft
      | some task =>
        obtain ⟨-, -, -, ⟨hphase, -⟩ | ⟨hnone, -⟩⟩ := left?_cases layer hget (.step i)
        . exact ⟨[], actions, task, rfl, hget, Option.some.inj (hphase.symm.trans hleft)⟩
        . nomatch hnone.symm.trans hleft
    | inr hlater =>
      obtain ⟨before, after, task, rfl, h⟩ := ih hlater
      exact ⟨action :: before, after, task, rfl, h⟩

theorem not_mem_callers_play (hnot : i ∉ c.callers)
    (hpath : ∀ phase ∈ c.path layer i actions, ¬phase.isCalling = true) :
    i ∉ (c.play layer actions).callers := by
  have hcount := count_callers_play_le c layer i actions
  rw [List.count_eq_zero.2 hnot, List.countP_eq_zero.2 hpath] at hcount
  exact List.count_eq_zero.1 (Nat.le_zero.1 hcount)

/-- The handler of a request was not called unless the request has come past the call. -/
theorem not_mem_callers_of_le_rank (hnot : i ∉ first.callers)
    (hget : (first.play layer actions).tasks[i]? = some task)
    (hrank : 6 + task.job.handler.pauses ≤ task.rank) : i ∉ (first.play layer actions).callers := by
  apply not_mem_callers_play hnot
  intro phase hmem hcalling
  obtain ⟨before, after, old, rfl, hold, rfl⟩ := exists_of_mem_path hmem
  obtain ⟨e, h, hstep⟩ := exists_transition_of_isReady layer hold (Phase.isReady_of_isCalling hcalling)
  have hlt : e.phase.rank old.job.handler.pauses < 6 + old.job.handler.pauses := by
    rw [← List.mem_singleton.1 (Phase.rank_of_isCalling hcalling old.job.handler.pauses)]
    exact h.rank_lt
  -- From there on, the rank does not rise.
  obtain ⟨task', hget', hjob, hlt'⟩ := exists_getElem?_play layer
    (P := fun phase => phase.rank old.job.handler.pauses < 6 + old.job.handler.pauses)
    (Nat.add_pos_left (Nat.succ_pos 5) _) (fun hjob h hlt => Nat.lt_trans (hjob ▸ h.rank_lt) hlt)
    (getElem?_after_self hold e) hlt after
  rw [play_append, play_cons, act_step_of_eq_some hstep] at hget
  obtain rfl := Option.some.inj (hget'.symm.trans hget)
  rw [← hjob] at hlt'
  exact Nat.not_lt.2 hrank hlt'

theorem not_mem_callers_play_of_rank_lt (hnot : i ∉ c.callers) (hget : c.tasks[i]? = some task)
    (hrank : task.rank < 6) (actions : List (Action σ)) : i ∉ (c.play layer actions).callers := by
  apply not_mem_callers_play hnot
  intro phase hmem hcalling
  have hle := (pairwise_path layer hget actions).2 phase hmem
  have heq := List.mem_singleton.1 (Phase.rank_of_isCalling hcalling task.job.handler.pauses)
  unfold Task.rank at hrank
  omega

theorem made_append (c : Cache σ) (layer : Layer) (i : Nat) (actions others : List (Action σ)) :
    c.made layer i (actions ++ others)
      = c.made layer i actions ++ (c.play layer actions).made layer i others := by
  induction actions generalizing c with
  | nil => rfl
  | cons action actions ih =>
    rw [List.cons_append, made, made, ih, List.append_assoc]
    rfl

theorem Transition.joining_of_locking (h : Transition layer c i task e) {guard : Guard}
    (hold : task.phase ≠ .locking guard .leader) (hphase : e.phase = .locking guard .leader) :
    ∃ again, task.phase = .joining guard.key again ∧ c.flights.lead? guard.key = none
      ∧ guard.lock = c.flights.locks.length := by
  cases h with
  | began hjoining hlead =>
    obtain rfl : _ = guard := (Phase.locking.inj hphase).1
    exact ⟨_, hjoining, hlead, rfl⟩
  | refused | failed | unstorable | wrote | writeFailed | writeAborted =>
    exact absurd hphase (Phase.finish_ne rfl _ _)
  | _ => nomatch hphase

/-- A request that asks for the lock of a flight that it leads has made it. -/
theorem mem_made_of_mem_path (hfirst : first.tasks = []) {guard : Guard}
    (hmem : .locking guard .leader ∈ first.path layer i actions) :
    guard.lock ∈ first.made layer i actions := by
  obtain ⟨before, after, task, rfl, hget, hphase⟩ := exists_of_mem_path hmem
  obtain ⟨earlier, later, old, e, h⟩ :=
    exists_crossing (Q := fun phase => phase = .locking guard .leader) nofun nofun
      (arriving_of_eq_nil hfirst i) hget hphase
  obtain ⟨again, hjoining, hlead, hlock⟩ := h.transition.joining_of_locking h.outside h.inside
  have hmade : (first.play layer earlier).made? i (.step i) = some guard.lock := by
    unfold made?
    simp only [phase?_eq_some h.getElem?_eq hjoining, hlead, and_self, if_true, hlock]
  rw [h.actions_eq, List.append_assoc, made_append]
  apply List.mem_append_right
  apply List.mem_append_left
  rw [hmade]
  exact List.mem_singleton_self _

/-- A request asks for at most one lock that it has not made. -/
theorem length_asked_le (hfirst : first.tasks = []) (layer : Layer) (i : Nat) (actions : List (Action σ)) :
    (((first.path layer i actions).filterMap Phase.asked?).filter
      (· ∉ first.made layer i actions)).length ≤ 1 := by
  rw [List.filter_filterMap, List.length_filterMap_eq_countP]
  apply Nat.le_trans (List.countP_mono_left ?_)
  . exact countP_path_le Phase.rank_of_isFollowed (fun _ => rfl) first layer i actions
  . intro phase hmem hasked
    obtain ⟨id, hid⟩ := Option.isSome_iff_exists.1 hasked
    obtain ⟨hid, hnot⟩ := Option.filter_eq_some_iff.1 hid
    by_contra hfollowed
    obtain ⟨guard, rfl, rfl⟩ := Phase.exists_guard_of_asked? hid hfollowed
    exact of_decide_eq_true hnot (mem_made_of_mem_path hfirst hmem)

theorem Governed.exists_unfinished_step (hc : Governed c) (layer : Layer)
    (hunfinished : ∃ task ∈ c.tasks, task.phase.isFinished = false) :
    ∃ k task c', c.tasks[k]? = some task ∧ task.phase.isFinished = false
      ∧ c.step layer k = some c' := by
  obtain ⟨task, hmem, hnot⟩ := hunfinished
  obtain ⟨i, hget⟩ := List.getElem?_of_mem hmem
  have hsome : ¬∀ k, c.step layer k = none := by
    intro hstuck
    nomatch hnot.symm.trans (hc.isFinished_of_stuck hstuck hget)
  obtain ⟨k, hsome⟩ := not_forall.1 hsome
  obtain ⟨c', hstep⟩ := Option.ne_none_iff_exists'.1 hsome
  obtain ⟨other, e, hother, h, -⟩ := Transition.of_step hstep
  exact ⟨k, other, c', hother, isFinished_of_transition h, hstep⟩

/--
However requests interleave, as long as one is not finished there is one that is not and can take its next
step. In the whole run, a request asks for the lock of at most one flight that it has not begun itself, and
on its behalf the store is read at most twice, its handler called at most once and the store written at most
once.
-/
theorem unblocked_of_play (layer : Layer) (store : σ) (clock systemTime : Time)
    (actions : List (Action σ)) :
    let first := Cache.start store clock systemTime
    let c := first.play layer actions
    ((∃ task ∈ c.tasks, task.phase.isFinished = false) →
      ∃ k task c', c.tasks[k]? = some task ∧ task.phase.isFinished = false ∧ c.step layer k = some c')
      ∧ ∀ i,
        (((first.path layer i actions).filterMap Phase.asked?).filter
            (· ∉ first.made layer i actions)).length ≤ 1
        ∧ (first.storeCalls layer i actions).countP isLook ≤ 2
        ∧ c.callers.count i ≤ 1
        ∧ (first.storeCalls layer i actions).countP isSet ≤ 1 := by
  intro first c
  have hgoverned : Governed c := governed_of_reachable (first.reachable_play layer actions)
  refine ⟨hgoverned.exists_unfinished_step layer, fun i => ⟨?_, ?_, ?_, ?_⟩⟩
  . exact length_asked_le rfl layer i actions
  . apply Nat.le_trans (countP_storeCalls_le_path (fun hcall => (Phase.kind_of_storeCall? hcall).1) first i actions)
    exact countP_path_le Phase.rank_of_isReading (fun _ => rfl) first layer i actions
  . have hcallers := count_callers_play_le first layer i actions
    have hnobody : first.callers.count i = 0 := rfl
    rw [hnobody, Nat.zero_add] at hcallers
    apply Nat.le_trans hcallers
    exact countP_path_le Phase.rank_of_isCalling (fun _ => rfl) first layer i actions
  . apply Nat.le_trans (countP_storeCalls_le_path (fun hcall => (Phase.kind_of_storeCall? hcall).2) first i actions)
    exact countP_path_le Phase.rank_of_isWriting (fun _ => rfl) first layer i actions

end

end ResponseCache
