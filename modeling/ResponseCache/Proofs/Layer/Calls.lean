import ResponseCache.Proofs.Layer.Play
import ResponseCache.Proofs.Store.Replies

/-!
This module contains the calls of the store that are made on behalf of one request. There is one write
among them at most. As long as only one request goes on, they are all that happens to the store; and
unless one of them writes it, the store does not let on that they were made.
-/

namespace ResponseCache

open Cache

inductive StoreCall where
  | look (now : Time) (key : String)
  | discard (key : String)
  | set (now : Time) (key : String) (entry : Entry) (ttl : Duration)

namespace StoreCall

def isSet : StoreCall → Bool
  | set .. => true
  | _ => false

variable {σ : Type} [Backend σ]

def perform (s : σ) : StoreCall → σ
  | look now key => (Backend.look s now key).store
  | discard key => Backend.discard s key
  | set now key entry ttl => (Backend.set s now key entry ttl).store

def Writes (s : σ) : StoreCall → Prop
  | set now key entry ttl => (Backend.set s now key entry ttl).result = .ok ()
  | _ => False

/-- Whether one of the calls writes the store, made one after the other. -/
def SomeWrites (s : σ) : List StoreCall → Prop
  | [] => False
  | call :: calls => call.Writes s ∨ SomeWrites (call.perform s) calls

theorem someWrites_cons {s : σ} {call : StoreCall} {calls : List StoreCall} :
    SomeWrites s (call :: calls) ↔ call.Writes s ∨ SomeWrites (call.perform s) calls :=
  Iff.rfl

theorem someWrites_append (s : σ) (calls others : List StoreCall) :
    SomeWrites s (calls ++ others)
      ↔ SomeWrites s calls ∨ SomeWrites (calls.foldl perform s) others := by
  induction calls generalizing s with
  | nil => exact (false_or _).symm.to_iff
  | cons call calls ih =>
    rw [List.cons_append, List.foldl_cons, someWrites_cons, someWrites_cons, ih, or_assoc]

theorem not_someWrites_of_countP {calls : List StoreCall} (hcount : calls.countP isSet = 0) (s : σ) :
    ¬SomeWrites s calls := by
  induction calls generalizing s with
  | nil => exact not_false
  | cons call calls ih =>
    rw [List.countP_cons, Nat.add_eq_zero_iff] at hcount
    rw [someWrites_cons, not_or]
    refine ⟨?_, ih hcount.1 _⟩
    cases call with
    | set => nomatch hcount.2
    | look => exact not_false
    | discard => exact not_false

end StoreCall

open StoreCall

/-- The call of the store that a request makes at a time from the point that it has come to. -/
def Phase.storeCall? (layer : Layer) (now : Time) : Phase → Option StoreCall
  | .reading key _ => some (.look now key)
  | .discarding key _ => some (.discard key)
  | .writing key _ entry => some (.set now key entry layer.policy.maxTtl)
  | _ => none

def Phase.writesLeft : Phase → Nat
  | .landing .. => 0
  | .done _ => 0
  | .cancelled => 0
  | _ => 1

section

variable {σ : Type} [Backend σ] {layer : Layer} {c : Cache σ} {i : Nat} {task : Task} {e : Effect σ}
  {action : Action σ} {actions : List (Action σ)} {call : StoreCall}

theorem Phase.writing_of_storeCall? {phase : Phase} {now time : Time} {key : String} {entry : Entry}
    {ttl : Duration} (hcall : phase.storeCall? layer now = some (.set time key entry ttl)) :
    ∃ guard, phase = .writing key guard entry ∧ ttl = layer.policy.maxTtl := by
  unfold Phase.storeCall? at hcall
  split at hcall
  next => nomatch hcall
  next => nomatch hcall
  next key guard entry =>
    obtain ⟨-, rfl, rfl, rfl⟩ := StoreCall.set.inj (Option.some.inj hcall)
    exact ⟨guard, rfl, rfl⟩
  next => nomatch hcall

theorem writesLeft_finish (guard : Option Guard) (answer : Answer) :
    (Phase.finish guard answer).writesLeft = 0 := by
  cases guard <;> rfl

theorem Phase.writesLeft_le (phase : Phase) : phase.writesLeft ≤ 1 := by
  unfold Phase.writesLeft
  split <;> decide

theorem Transition.store_eq (h : Transition layer c i task e) :
    e.store = (task.phase.storeCall? layer c.systemTime).elim c.store (perform c.store) := by
  cases h with
  | _ =>
    rw [‹task.phase = _›]
    rfl

theorem Transition.writesLeft_le (h : Transition layer c i task e) :
    (task.phase.storeCall? layer c.systemTime).toList.countP isSet + e.phase.writesLeft
      ≤ task.phase.writesLeft := by
  cases h with
  | wrote hphase =>
    rw [hphase]
    exact Nat.le_of_eq (congrArg (1 + ·) (writesLeft_finish _ _))
  | writeFailed hphase =>
    rw [hphase]
    exact Nat.le_of_eq (congrArg (1 + ·) (writesLeft_finish _ _))
  | writeAborted hphase =>
    rw [hphase]
    exact Nat.le_of_eq (congrArg (1 + ·) (writesLeft_finish _ _))
  | landed hphase =>
    rw [hphase]
    exact Nat.le_refl 0
  | _ =>
    rw [‹task.phase = _›]
    simp only [Phase.storeCall?, Option.toList_some, Option.toList_none, List.countP_nil,
      List.countP_singleton, isSet, Bool.false_eq_true, if_false, Nat.zero_add]
    exact Phase.writesLeft_le _

namespace Cache

/-- The call of the store that is made on behalf of a request by an action. -/
def storeCall? (c : Cache σ) (layer : Layer) (i : Nat) : Action σ → Option StoreCall
  | .step j => if j = i then (c.phase? i).bind (Phase.storeCall? layer c.systemTime) else none
  | _ => none

def storeCalls (c : Cache σ) (layer : Layer) (i : Nat) : List (Action σ) → List StoreCall
  | [] => []
  | action :: actions =>
    (c.storeCall? layer i action).toList ++ (c.act layer action).storeCalls layer i actions

theorem storeCalls_cons (c : Cache σ) (layer : Layer) (i : Nat) (action : Action σ)
    (actions : List (Action σ)) :
    c.storeCalls layer i (action :: actions)
      = (c.storeCall? layer i action).toList ++ (c.act layer action).storeCalls layer i actions := rfl

omit [Backend σ] in
theorem storeCall?_step (hget : c.tasks[i]? = some task) :
    c.storeCall? layer i (.step i) = task.phase.storeCall? layer c.systemTime := by
  unfold storeCall? phase?
  simp only [if_true, hget, Option.map_some, Option.bind_some]

omit [Backend σ] in
theorem storeCall?_of_writing {key : String} {guard : Option Guard} {entry : Entry}
    (hget : c.tasks[i]? = some task) (hwriting : task.phase = .writing key guard entry) :
    c.storeCall? layer i (.step i) = some (.set c.systemTime key entry layer.policy.maxTtl) := by
  rw [storeCall?_step hget, hwriting]
  rfl

omit [Backend σ] in
theorem storeCall?_of_ne (hne : action ≠ .step i) : c.storeCall? layer i action = none := by
  unfold storeCall?
  split
  next j => exact if_neg fun heq => hne (congrArg Action.step heq)
  next => rfl

theorem storeCalls_append (c : Cache σ) (layer : Layer) (i : Nat) (actions others : List (Action σ)) :
    c.storeCalls layer i (actions ++ others)
      = c.storeCalls layer i actions ++ (c.play layer actions).storeCalls layer i others := by
  induction actions generalizing c with
  | nil => rfl
  | cons action actions ih =>
    rw [List.cons_append, play_cons, storeCalls_cons, storeCalls_cons, ih, List.append_assoc]

theorem mem_storeCalls {before after : List (Action σ)} (hactions : actions = before ++ .step i :: after)
    (hcall : (c.play layer before).storeCall? layer i (.step i) = some call) :
    call ∈ c.storeCalls layer i actions := by
  rw [hactions, storeCalls_append, storeCalls_cons]
  apply List.mem_append_right
  apply List.mem_append_left
  exact Option.mem_toList.2 hcall

theorem exists_of_mem_storeCalls (hmem : call ∈ c.storeCalls layer i actions) :
    ∃ before after, actions = before ++ .step i :: after
      ∧ (c.play layer before).storeCall? layer i (.step i) = some call := by
  induction actions generalizing c with
  | nil => nomatch hmem
  | cons action actions ih =>
    rw [storeCalls_cons, List.mem_append] at hmem
    cases hmem with
    | inl hnow =>
      have hcall := Option.mem_toList.1 hnow
      by_cases heq : action = .step i
      . subst heq
        exact ⟨[], actions, rfl, hcall⟩
      . rw [storeCall?_of_ne heq] at hcall
        nomatch hcall
    | inr hlater =>
      obtain ⟨before, after, rfl, hcall⟩ := ih hlater
      exact ⟨action :: before, after, rfl, hcall⟩

theorem Phase.isReady_of_storeCall? {phase : Phase} {now : Time}
    (hcall : phase.storeCall? layer now = some call) : phase.isReady = true := by
  unfold Phase.storeCall? at hcall
  split at hcall
  next => rfl
  next => rfl
  next => rfl
  next => nomatch hcall

/-- A request takes its step if it is to call the store. -/
theorem exists_transition_of_storeCall? (layer : Layer) (hget : c.tasks[i]? = some task)
    (hcall : c.storeCall? layer i action = some call) :
    action = .step i ∧ task.phase.storeCall? layer c.systemTime = some call
      ∧ ∃ e, Transition layer c i task e ∧ c.step layer i = some (c.after i task e) := by
  by_cases heq : action = .step i
  . subst heq
    rw [storeCall?_step hget] at hcall
    exact ⟨rfl, hcall, exists_transition_of_isReady layer hget (Phase.isReady_of_storeCall? hcall)⟩
  . rw [storeCall?_of_ne heq] at hcall
    nomatch hcall

theorem storeCall?_of_step_eq_none (hstep : c.step layer i = none) :
    c.storeCall? layer i (.step i) = none := by
  cases hget : c.tasks[i]? with
  | none => simp [storeCall?, phase?, hget]
  | some task =>
    rw [Option.eq_none_iff_forall_ne_some]
    intro call hcall
    obtain ⟨-, -, e, -, hstep'⟩ := exists_transition_of_storeCall? layer hget hcall
    nomatch hstep.symm.trans hstep'

theorem writesLeft_act (layer : Layer) (hget : c.tasks[i]? = some task) (action : Action σ) :
    ∃ task', (c.act layer action).tasks[i]? = some task'
      ∧ (c.storeCall? layer i action).toList.countP isSet + task'.phase.writesLeft
        ≤ task.phase.writesLeft := by
  cases hcall : c.storeCall? layer i action with
  | some call =>
    obtain ⟨rfl, hphase, e, h, hstep⟩ := exists_transition_of_storeCall? layer hget hcall
    have hle := h.writesLeft_le
    rw [hphase] at hle
    rw [act_step_of_eq_some hstep]
    exact ⟨_, getElem?_after_self hget e, hle⟩
  | none =>
    obtain ⟨task', hget', -, hphase | hphase | ⟨e, -, h, -, hphase⟩⟩ :=
      exists_getElem?_act layer hget action
    . refine ⟨task', hget', ?_⟩
      rw [hphase]
      exact Nat.le_of_eq (Nat.zero_add _)
    . refine ⟨task', hget', ?_⟩
      rw [hphase]
      exact Nat.zero_le _
    . refine ⟨task', hget', ?_⟩
      have hle := h.writesLeft_le
      rw [hphase]
      simp only [Option.toList_none, List.countP_nil]
      omega

/-- The store is asked for one write at most on behalf of a request. -/
theorem countP_storeCalls_le (hget : c.tasks[i]? = some task) (actions : List (Action σ)) :
    (c.storeCalls layer i actions).countP isSet ≤ task.phase.writesLeft := by
  induction actions generalizing c task with
  | nil => exact Nat.zero_le _
  | cons action actions ih =>
    obtain ⟨task', hget', hle⟩ := writesLeft_act layer hget action
    rw [storeCalls_cons, List.countP_append]
    exact Nat.le_trans (Nat.add_le_add_left (ih hget') _) hle

/-- Whether an action is one of a request or of the clocks, and the time of the system does not go back. -/
def IsAlone (c : Cache σ) (i : Nat) : Action σ → Prop
  | .enlist _ => False
  | .step j => j = i
  | .cancel j => j = i
  | .clock _ => True
  | .systemTime systemTime => c.systemTime ≤ systemTime
  | .change _ => False

def Alone (c : Cache σ) (layer : Layer) (i : Nat) : List (Action σ) → Prop
  | [] => True
  | action :: actions => c.IsAlone i action ∧ (c.act layer action).Alone layer i actions

theorem alone_replicate (c : Cache σ) (layer : Layer) (i n : Nat) :
    c.Alone layer i (List.replicate n (.step i)) := by
  induction n generalizing c with
  | zero => trivial
  | succ n ih => exact ⟨rfl, ih _⟩

/-- What happens while nothing but one request goes on: its steps, and what leaves the store as it is. -/
theorem act_cases_of_isAlone (layer : Layer) (hget : c.tasks[i]? = some task) (halone : c.IsAlone i action) :
    (∃ e, action = .step i ∧ Transition layer c i task e ∧ c.act layer action = c.after i task e)
      ∨ (c.storeCall? layer i action = none ∧ (c.act layer action).store = c.store
        ∧ c.systemTime ≤ (c.act layer action).systemTime
        ∧ ∃ task', (c.act layer action).tasks[i]? = some task'
          ∧ (task'.phase = task.phase ∨ task'.phase = .cancelled)) := by
  cases action with
  | enlist job => exact halone.elim
  | step j =>
    obtain rfl : j = i := halone
    cases hstep : c.step layer j with
    | some c' =>
      obtain ⟨e, h, rfl⟩ := exists_transition_of_step hget hstep
      exact .inl ⟨e, rfl, h, act_step_of_eq_some hstep⟩
    | none =>
      rw [act_step_of_eq_none hstep]
      exact .inr ⟨storeCall?_of_step_eq_none hstep, rfl, Time.le_refl _, task, hget, .inl rfl⟩
  | cancel j =>
    obtain rfl : j = i := halone
    cases cancel_eq c j with
    | inl heq =>
      simp only [act, heq]
      exact .inr ⟨rfl, trivial, Time.le_refl _, task, hget, .inl rfl⟩
    | inr hcancel =>
      obtain ⟨other, hother, -, heq⟩ := hcancel
      simp only [act, heq]
      exact .inr ⟨rfl, rfl, Time.le_refl _, _, getElem?_after_self hother _, .inr rfl⟩
  | clock clock => exact .inr ⟨rfl, rfl, Time.le_refl _, task, hget, .inl rfl⟩
  | systemTime systemTime => exact .inr ⟨rfl, rfl, halone, task, hget, .inl rfl⟩
  | change f => exact halone.elim

theorem store_act_of_isAlone (hget : c.tasks[i]? = some task) (halone : c.IsAlone i action) :
    (c.act layer action).store = (c.storeCall? layer i action).toList.foldl perform c.store := by
  obtain ⟨e, rfl, h, heq⟩ | ⟨hcall, hstore, -⟩ := act_cases_of_isAlone layer hget halone
  . rw [heq, storeCall?_step hget]
    have hstore : (c.after i task e).store = e.store := rfl
    rw [hstore, h.store_eq]
    cases task.phase.storeCall? layer c.systemTime <;> rfl
  . rw [hcall, hstore]
    rfl

/-- While nothing but one request goes on, its calls are all that happens to the store. -/
theorem store_play_of_alone (hget : c.tasks[i]? = some task) (halone : c.Alone layer i actions) :
    (c.play layer actions).store = (c.storeCalls layer i actions).foldl perform c.store := by
  induction actions generalizing c task with
  | nil => rfl
  | cons action actions ih =>
    obtain ⟨hnow, hlater⟩ := halone
    obtain ⟨task', hget', -⟩ := exists_getElem?_act layer hget action
    rw [storeCalls_cons, play_cons, ih hget' hlater, store_act_of_isAlone hget hnow, List.foldl_append]

end Cache

/-- That a store does not let on that it was called, even if the request discards what it has found. -/
structure Unnoticed (before : σ) (now : Time) (s : σ) (phase : Phase) : Prop where
  same : SameReplies now s before
  discarding : ∀ {key again}, phase = .discarding key again →
    SameReplies now (Backend.discard s key) before

theorem Unnoticed.of_ne {before s : σ} {now : Time} {phase : Phase} (h : SameReplies now s before)
    (hne : ∀ key again, phase ≠ .discarding key again) : Unnoticed before now s phase :=
  ⟨h, fun heq => absurd heq (hne _ _)⟩

variable [Backend.Discreet σ] {before : σ}

theorem Unnoticed.of_transition (h : Transition layer c i task e)
    (hold : Unnoticed before c.systemTime c.store task.phase)
    (hwrites : ∀ call, task.phase.storeCall? layer c.systemTime = some call → ¬call.Writes c.store) :
    Unnoticed before c.systemTime e.store e.phase := by
  cases h with
  | foundExpired hphase hresult =>
    refine ⟨(Backend.Discreet.look _ _ _).trans hold.same, ?_⟩
    intro key again heq
    obtain ⟨rfl, -⟩ := Phase.discarding.inj heq
    exact (Backend.Discreet.discard hresult).trans hold.same
  | looked => exact .of_ne ((Backend.Discreet.look _ _ _).trans hold.same) nofun
  | lookFailed => exact .of_ne ((Backend.Discreet.look _ _ _).trans hold.same) nofun
  | discarded hphase => exact .of_ne (hold.discarding hphase) nofun
  | wrote hphase hresult =>
    rw [hphase] at hwrites
    exact absurd hresult (hwrites _ rfl)
  | writeFailed hphase hresult =>
    exact .of_ne ((Backend.Discreet.set hresult).trans hold.same) fun _ _ => Phase.finish_ne rfl _ _
  | writeAborted hphase hresult =>
    exact .of_ne ((Backend.Discreet.set hresult).trans hold.same) fun _ _ => Phase.finish_ne rfl _ _
  | refused => exact .of_ne hold.same fun _ _ => Phase.finish_ne rfl _ _
  | failed => exact .of_ne hold.same fun _ _ => Phase.finish_ne rfl _ _
  | unstorable => exact .of_ne hold.same fun _ _ => Phase.finish_ne rfl _ _
  | _ => exact .of_ne hold.same nofun

theorem Unnoticed.act (hget : c.tasks[i]? = some task) (halone : c.IsAlone i action)
    (hold : Unnoticed before c.systemTime c.store task.phase)
    (hwrites : ¬SomeWrites c.store (c.storeCall? layer i action).toList) :
    ∃ task', (c.act layer action).tasks[i]? = some task'
      ∧ Unnoticed before (c.act layer action).systemTime (c.act layer action).store task'.phase := by
  obtain ⟨e, rfl, h, heq⟩ | ⟨-, hstore, htime, task', hget', hphase⟩ :=
    act_cases_of_isAlone layer hget halone
  . rw [storeCall?_step hget] at hwrites
    have hnext : Unnoticed before c.systemTime e.store e.phase := by
      apply Unnoticed.of_transition h hold
      intro call hcall hsuccess
      rw [hcall] at hwrites
      exact hwrites (.inl hsuccess)
    rw [heq]
    exact ⟨_, getElem?_after_self hget e, hnext⟩
  . refine ⟨task', hget', ?_⟩
    rw [hstore]
    cases hphase with
    | inl hsame =>
      rw [hsame]
      exact ⟨hold.same.mono htime, fun heq => (hold.discarding heq).mono htime⟩
    | inr hcancelled =>
      rw [hcancelled]
      exact .of_ne (hold.same.mono htime) nofun

/-- While nothing but one request goes on that does not write the store, the store does not let on. -/
theorem sameReplies_of_alone (hget : c.tasks[i]? = some task) (halone : c.Alone layer i actions)
    (hold : Unnoticed before c.systemTime c.store task.phase)
    (hwrites : ¬SomeWrites c.store (c.storeCalls layer i actions)) :
    SameReplies (c.play layer actions).systemTime (c.play layer actions).store before := by
  induction actions generalizing c task with
  | nil => exact hold.same
  | cons action actions ih =>
    obtain ⟨hnow, hlater⟩ := halone
    rw [storeCalls_cons, someWrites_append, not_or, ← store_act_of_isAlone hget hnow] at hwrites
    obtain ⟨task', hget', hnext⟩ := hold.act hget hnow hwrites.1
    exact ih hget' hlater hnext hwrites.2

end

end ResponseCache
