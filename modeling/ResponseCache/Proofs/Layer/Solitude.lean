import ResponseCache.Proofs.Layer.Abandoned
import ResponseCache.Proofs.Layer.Progress

/-!
This module contains that single flights make no difference to requests that come one after the other. Such a
run is the same with and without them, but for the steps by which a request begins its flight and ends it.
-/

namespace ResponseCache

open Cache

def Layer.withSingleFlight (layer : Layer) (singleFlight : Bool) : Layer :=
  { layer with singleFlight := singleFlight }

namespace Phase

/-- Whether the next step of a request is about a flight and nothing else. -/
def isOfFlight : Phase → Bool
  | joining _ _ => true
  | locking _ _ => true
  | queued _ _ => true
  | landing _ _ => true
  | _ => false

def grounded : Phase → Phase
  | joining _ _ => calling .miss none
  | locking _ _ => calling .miss none
  | queued _ _ => calling .miss none
  | calling decision _ => calling decision none
  | running decision _ pauses call => running decision none pauses call
  | stamping decision _ snapshot => stamping decision none snapshot
  | writing key _ entry => writing key none entry
  | landing _ answer => done answer
  | phase => phase

/-- Whether a request has not met with the flight of another one. -/
def isUndisturbed : Phase → Bool
  | reading _ again => !again
  | discarding _ again => !again
  | deciding _ _ again => !again
  | joining _ again => !again
  | locking _ .follower => false
  | queued _ _ => false
  | _ => true

@[simp]
theorem isUndisturbed_finish (guard : Option Guard) (answer : Answer) :
    (finish guard answer).isUndisturbed = true := by
  cases guard <;> rfl

theorem grounded_of_isFinished {phase : Phase} (h : phase.isFinished = true) : phase.grounded = phase := by
  cases phase with
  | done answer => rfl
  | cancelled => rfl
  | _ => nomatch h

theorem isFinished_grounded {phase : Phase} (hnot : phase.isOfFlight = false) :
    phase.grounded.isFinished = phase.isFinished := by
  cases phase with
  | joining key again => nomatch hnot
  | locking guard role => nomatch hnot
  | queued guard role => nomatch hnot
  | landing guard answer => nomatch hnot
  | _ => rfl

theorem isReady_of_isOfFlight {phase : Phase} (hflight : phase.isOfFlight = true)
    (hundisturbed : phase.isUndisturbed = true) : phase.isReady = true := by
  cases phase with
  | queued guard role => nomatch hundisturbed
  | done answer => nomatch hflight
  | cancelled => nomatch hflight
  | _ => rfl

theorem lock?_of_isFinished {phase : Phase} (h : phase.isFinished = true) : phase.lock? = none := by
  cases phase with
  | done answer => rfl
  | cancelled => rfl
  | _ => nomatch h

end Phase

def Task.grounded (task : Task) : Task :=
  { task with phase := task.phase.grounded }

section

variable {σ : Type} {layer : Layer} {c : Cache σ} {i : Nat} {task : Task} {e : Effect σ}

def Cache.grounded (c : Cache σ) : Cache σ :=
  { c with flights := .empty, tasks := c.tasks.map Task.grounded }

def Effect.grounded (e : Effect σ) : Effect σ :=
  { e with phase := e.phase.grounded, flights := .empty }

namespace Cache

/-- Whether an action leaves every request to itself: none comes in before the others are finished. -/
def inTurn (c : Cache σ) : Action σ → Bool
  | .enlist _ => c.tasks.all fun task => task.phase.isFinished
  | .cancel _ => false
  | _ => true

/-- Whether an action is about a flight and nothing else. -/
def isOfFlight (c : Cache σ) : Action σ → Bool
  | .step i => (c.phase? i).any Phase.isOfFlight
  | _ => false

theorem grounded_after (c : Cache σ) (i : Nat) (task : Task) (e : Effect σ) :
    (c.after i task e).grounded = c.grounded.after i task.grounded e.grounded := by
  unfold grounded after
  rw [List.map_set]
  rfl

theorem grounded_enlist (c : Cache σ) (job : Job) : (c.enlist job).1.grounded = (c.grounded.enlist job).1 := by
  unfold grounded enlist
  rw [List.map_append]
  rfl

theorem after_stay_self (hget : c.tasks[i]? = some task) : c.after i task (c.stay task task.phase []) = c := by
  obtain ⟨hlt, hself⟩ := List.getElem?_eq_some_iff.1 hget
  have hset : c.tasks.set i task = c.tasks := by
    rw [← hself]
    exact List.set_getElem_self hlt
  unfold after stay
  rw [List.map_nil, List.append_nil]
  exact congrArg (fun tasks => { c with tasks := tasks }) hset

theorem getElem?_grounded (hget : c.tasks[i]? = some task) : c.grounded.tasks[i]? = some task.grounded := by
  unfold grounded
  rw [List.getElem?_map, hget]
  rfl

end Cache

/-- That requests come one after the other, and none of them has met with the flight of another one. -/
structure Solitary (c : Cache σ) : Prop where
  governed : Governed c
  orderly : Orderly c
  tracked : Tracked [] c
  undisturbed : ∀ {i : Nat} {task : Task}, c.tasks[i]? = some task → task.phase.isUndisturbed = true
  eq_of_unfinished : ∀ {i j : Nat} {task other : Task}, c.tasks[i]? = some task → c.tasks[j]? = some other →
    task.phase.isFinished = false → other.phase.isFinished = false → i = j

namespace Solitary

theorem start (store : σ) (clock systemTime : Time) : Solitary (Cache.start store clock systemTime) where
  governed := .start store clock systemTime
  orderly := .start store clock systemTime
  tracked := .start store clock systemTime
  undisturbed hget := nomatch hget
  eq_of_unfinished hget := nomatch hget

theorem lead?_eq_none (hc : Solitary c) (hget : c.tasks[i]? = some task) (hnot : task.phase.isFinished = false)
    (hlead : task.phase.lead? = none) (key : String) : c.flights.lead? key = none := by
  rw [Option.eq_none_iff_forall_ne_some]
  intro id hid
  have hmem := (hc.tracked.lead?_eq_some_iff key id).1 hid
  obtain ⟨j, other, hother, hleads⟩ | hleft := (hc.tracked.mem_leads_iff ⟨key, id⟩).1 hmem
  . have hunfinished : other.phase.isFinished = false := by
      rw [Bool.eq_false_iff]
      intro hfinished
      rw [lead?_of_isFinished hfinished] at hleads
      nomatch hleads
    obtain rfl := hc.eq_of_unfinished hget hother hnot hunfinished
    obtain rfl := Option.some.inj (hget.symm.trans hother)
    rw [hlead] at hleads
    nomatch hleads
  . nomatch hleft

theorem holder_eq_none (hc : Solitary c) (hget : c.tasks[i]? = some task) (hnot : task.phase.isFinished = false)
    (hlock : task.phase.lock? = none) (id : Nat) : (c.flights.lock id).holder = none := by
  rw [Option.eq_none_iff_forall_ne_some]
  intro k hholder
  obtain ⟨other, hother, hline⟩ := hc.governed.lined.mem_line_iff.1 (Lock.mem_line_of_holder hholder)
  have hunfinished : other.phase.isFinished = false := by
    rw [Bool.eq_false_iff]
    intro hfinished
    rw [Phase.lock?_of_isFinished hfinished] at hline
    nomatch hline
  obtain rfl := hc.eq_of_unfinished hget hother hnot hunfinished
  obtain rfl := Option.some.inj (hget.symm.trans hother)
  rw [hlock] at hline
  nomatch hline

end Solitary

structure Unhindered (c : Cache σ) (task : Task) : Prop where
  undisturbed : task.phase.isUndisturbed = true
  lead?_eq_none : ∀ {key : String} {again : Bool}, task.phase = .joining key again → c.flights.lead? key = none
  holder_eq_none : ∀ {guard : Guard} {role : Role}, task.phase = .locking guard role →
    (c.flights.lock guard.lock).holder = none

theorem Solitary.unhindered (hc : Solitary c) (hget : c.tasks[i]? = some task) : Unhindered c task where
  undisturbed := hc.undisturbed hget
  lead?_eq_none hphase := by
    apply hc.lead?_eq_none hget
    . rw [hphase]
      rfl
    . rw [hphase]
      rfl
  holder_eq_none hphase := by
    apply hc.holder_eq_none hget
    . rw [hphase]
      rfl
    . rw [hphase]
      rfl

variable [Backend σ]

/-- No step makes a request meet with the flight of another one. -/
theorem Transition.isUndisturbed (h : Transition layer c i task e) (hfree : Unhindered c task) :
    e.phase.isUndisturbed = true := by
  have hold := hfree.undisturbed
  cases h with
  | foundExpired hphase | looked hphase | lookFailed hphase | discarded hphase =>
    rw [hphase] at hold
    exact hold
  | missedAgain hphase | followedAtOnce hphase | waited hphase =>
    rw [hphase] at hold
    nomatch hold
  | followed hphase hlead => nomatch (hfree.lead?_eq_none hphase).symm.trans hlead
  | queued hphase hholder => nomatch (hfree.holder_eq_none hphase).symm.trans hholder
  | refused | failed | unstorable | wrote | writeFailed | writeAborted => exact Phase.isUndisturbed_finish _ _
  | _ => rfl

/-- A step is one that can be taken without flights as well, or makes no difference there. -/
theorem Transition.grounded (h : Transition (layer.withSingleFlight true) c i task e)
    (hfree : Unhindered c task) :
    (task.phase.isOfFlight = true ∧ e.grounded = c.grounded.stay task.grounded task.grounded.phase [])
      ∨ (task.phase.isOfFlight = false
        ∧ Transition (layer.withSingleFlight false) c.grounded i task.grounded e.grounded) := by
  have hold := hfree.undisturbed
  cases h with
  | unready hphase hready =>
    exact .inr ⟨congrArg Phase.isOfFlight hphase, .unready (congrArg Phase.grounded hphase) hready⟩
  | keyed hphase hready hkey =>
    exact .inr ⟨congrArg Phase.isOfFlight hphase, .keyed (congrArg Phase.grounded hphase) hready hkey⟩
  | keyless hphase hready hkey =>
    exact .inr ⟨congrArg Phase.isOfFlight hphase, .keyless (congrArg Phase.grounded hphase) hready hkey⟩
  | foundExpired hphase hresult =>
    exact .inr ⟨congrArg Phase.isOfFlight hphase, .foundExpired (congrArg Phase.grounded hphase) hresult⟩
  | looked hphase hresult hfound =>
    exact .inr ⟨congrArg Phase.isOfFlight hphase, .looked (congrArg Phase.grounded hphase) hresult hfound⟩
  | lookFailed hphase hresult =>
    exact .inr ⟨congrArg Phase.isOfFlight hphase, .lookFailed (congrArg Phase.grounded hphase) hresult⟩
  | discarded hphase =>
    exact .inr ⟨congrArg Phase.isOfFlight hphase, .discarded (congrArg Phase.grounded hphase)⟩
  | hit hphase hdecision =>
    exact .inr ⟨congrArg Phase.isOfFlight hphase, .hit (congrArg Phase.grounded hphase) hdecision⟩
  | missedAgain hphase | followedAtOnce hphase | led hphase | waited hphase =>
    rw [hphase] at hold
    nomatch hold
  | missed hphase hdecision =>
    -- Where a flight is about to begin, the same miss goes on to the handler without one.
    exact .inr ⟨congrArg Phase.isOfFlight hphase,
      .unguarded (congrArg Phase.grounded hphase) hdecision nofun fun h => Bool.false_ne_true h.1⟩
  | unguarded hphase hdecision hne =>
    exact .inr ⟨congrArg Phase.isOfFlight hphase,
      .unguarded (congrArg Phase.grounded hphase) hdecision hne fun h => Bool.false_ne_true h.1⟩
  | served hphase =>
    exact .inr ⟨congrArg Phase.isOfFlight hphase, .served (congrArg Phase.grounded hphase)⟩
  | began hphase | ledAtOnce hphase | landed hphase =>
    refine .inl ⟨congrArg Phase.isOfFlight hphase, ?_⟩
    unfold Task.grounded
    rw [hphase]
    rfl
  | followed hphase hlead => nomatch (hfree.lead?_eq_none hphase).symm.trans hlead
  | passedBy hphase hlead => nomatch (hfree.lead?_eq_none hphase).symm.trans hlead
  | queued hphase hholder => nomatch (hfree.holder_eq_none hphase).symm.trans hholder
  | @refused decision guard _ hphase hready =>
    have hgrounded : task.grounded.phase = .calling decision none := congrArg Phase.grounded hphase
    refine .inr ⟨congrArg Phase.isOfFlight hphase, ?_⟩
    cases guard <;> exact .refused hgrounded hready
  | called hphase hready =>
    exact .inr ⟨congrArg Phase.isOfFlight hphase, .called (congrArg Phase.grounded hphase) hready⟩
  | paused hphase =>
    exact .inr ⟨congrArg Phase.isOfFlight hphase, .paused (congrArg Phase.grounded hphase)⟩
  | @failed decision guard call _ hphase hanswer =>
    have hgrounded : task.grounded.phase = .running decision none 0 call := congrArg Phase.grounded hphase
    refine .inr ⟨congrArg Phase.isOfFlight hphase, ?_⟩
    cases guard <;> exact .failed hgrounded hanswer
  | answered hphase hanswer =>
    exact .inr ⟨congrArg Phase.isOfFlight hphase, .answered (congrArg Phase.grounded hphase) hanswer⟩
  | storable hphase hkey =>
    exact .inr ⟨congrArg Phase.isOfFlight hphase, .storable (congrArg Phase.grounded hphase) hkey⟩
  | @unstorable decision guard snapshot hphase hkey =>
    have hgrounded : task.grounded.phase = .stamping decision none snapshot := congrArg Phase.grounded hphase
    refine .inr ⟨congrArg Phase.isOfFlight hphase, ?_⟩
    cases guard <;> exact .unstorable hgrounded hkey
  | @wrote key guard entry hphase hresult =>
    have hgrounded : task.grounded.phase = .writing key none entry := congrArg Phase.grounded hphase
    refine .inr ⟨congrArg Phase.isOfFlight hphase, ?_⟩
    cases guard <;> exact .wrote hgrounded hresult
  | @writeFailed key guard entry _ hphase hresult =>
    have hgrounded : task.grounded.phase = .writing key none entry := congrArg Phase.grounded hphase
    refine .inr ⟨congrArg Phase.isOfFlight hphase, ?_⟩
    cases guard <;> exact .writeFailed hgrounded hresult
  | @writeAborted key guard entry hphase hresult =>
    have hgrounded : task.grounded.phase = .writing key none entry := congrArg Phase.grounded hphase
    refine .inr ⟨congrArg Phase.isOfFlight hphase, ?_⟩
    cases guard <;> exact .writeAborted hgrounded hresult

omit [Backend σ] in
theorem abandons_of_inTurn {action : Action σ} (hturn : c.inTurn action = true) : c.abandons action = none := by
  cases action with
  | cancel i => nomatch hturn
  | _ => rfl

theorem exists_unfinished_of_step {c' : Cache σ} {k : Nat} (hstep : c.step layer k = some c')
    (hget : c'.tasks[i]? = some task) (hnot : task.phase.isFinished = false) :
    ∃ old, c.tasks[i]? = some old ∧ old.phase.isFinished = false := by
  obtain ⟨other, e, hother, h, rfl⟩ := Transition.of_step hstep
  cases getElem?_after e hget with
  | inl hself =>
    obtain ⟨rfl, -⟩ := hself
    exact ⟨other, hother, isFinished_of_transition h⟩
  | inr hsame => exact ⟨task, hsame.2, hnot⟩

namespace Solitary

theorem undisturbed_act (hc : Solitary c) {action : Action σ}
    (hget : (c.act layer action).tasks[i]? = some task) : task.phase.isUndisturbed = true := by
  obtain ⟨-, hphase⟩ | ⟨old, hold, -, hphase | hphase | ⟨e, -, h, -, hphase⟩⟩ := act_cases hget
  . rw [hphase]
    rfl
  . rw [hphase]
    exact hc.undisturbed hold
  . rw [hphase]
    rfl
  . rw [hphase]
    exact h.isUndisturbed (hc.unhindered hold)

theorem eq_of_unfinished_act (hc : Solitary c) {action : Action σ} (hturn : c.inTurn action = true) {j : Nat}
    {other : Task} (hi : (c.act layer action).tasks[i]? = some task)
    (hj : (c.act layer action).tasks[j]? = some other) (hnot : task.phase.isFinished = false)
    (hnot' : other.phase.isFinished = false) : i = j := by
  cases action with
  | enlist job =>
    have hfinished {k : Nat} {old : Task} (hold : c.tasks[k]? = some old) : old.phase.isFinished = true :=
      List.all_eq_true.1 hturn old (List.mem_of_getElem? hold)
    cases getElem?_enlist hi with
    | inl hold => nomatch hnot.symm.trans (hfinished hold)
    | inr hnew =>
      cases getElem?_enlist hj with
      | inl hold => nomatch hnot'.symm.trans (hfinished hold)
      | inr hnew' => exact hnew.1.trans hnew'.1.symm
  | step k =>
    cases hstep : c.step layer k with
    | none =>
      rw [act_step_of_eq_none hstep] at hi hj
      exact hc.eq_of_unfinished hi hj hnot hnot'
    | some c' =>
      rw [act_step_of_eq_some hstep] at hi hj
      obtain ⟨old, hold, hunfinished⟩ := exists_unfinished_of_step hstep hi hnot
      obtain ⟨old', hold', hunfinished'⟩ := exists_unfinished_of_step hstep hj hnot'
      exact hc.eq_of_unfinished hold hold' hunfinished hunfinished'
  | cancel k => nomatch hturn
  | _ => exact hc.eq_of_unfinished hi hj hnot hnot'

theorem act (hc : Solitary c) (layer : Layer) {action : Action σ} (hturn : c.inTurn action = true) :
    Solitary (c.act layer action) := by
  have hreach : Reachable layer (fun _ _ => True) c (c.act layer action) :=
    c.reachable_act layer fun _ _ => trivial
  have hlead := LeadAct.of_act layer c action
  rw [abandons_of_inTurn hturn] at hlead
  exact ⟨hreach.invariant hc.governed Governed.move, hreach.invariant hc.orderly Orderly.move,
    hc.tracked.after hc.governed.numbered hc.orderly hlead, hc.undisturbed_act, hc.eq_of_unfinished_act hturn⟩

end Solitary

theorem step_grounded_eq_none (hstep : c.step (layer.withSingleFlight true) i = none)
    (hnot : c.isOfFlight (.step i) = false) : c.grounded.step (layer.withSingleFlight false) i = none := by
  rw [Option.eq_none_iff_forall_ne_some]
  intro c' hstep'
  obtain ⟨other, e, hother, h, -⟩ := Transition.of_step hstep'
  have hunfinished := isFinished_of_transition h
  unfold grounded at hother
  rw [List.getElem?_map, Option.map_eq_some_iff] at hother
  obtain ⟨task, hget, rfl⟩ := hother
  by_cases hready : task.phase.isReady = true
  . obtain ⟨e, -, hsome⟩ := exists_transition_of_isReady (layer.withSingleFlight true) hget hready
    nomatch hstep.symm.trans hsome
  . unfold Task.grounded at hunfinished
    obtain ⟨guard, role, hphase⟩ | ⟨answer, hphase⟩ | hphase := Phase.cases_of_not_isReady hready
    . unfold Cache.isOfFlight at hnot
      simp only [phase?_eq_some hget hphase] at hnot
      nomatch hnot
    . rw [hphase] at hunfinished
      nomatch hunfinished
    . rw [hphase] at hunfinished
      nomatch hunfinished

omit [Backend σ] in
theorem isOfFlight_step (hget : c.tasks[i]? = some task) : c.isOfFlight (.step i) = task.phase.isOfFlight := by
  simp only [Cache.isOfFlight, phase?_eq_some hget rfl, Option.any_some]

/-- What an action on a cache with single flights is without them. -/
theorem grounded_act (hc : Solitary c) {action : Action σ} (hturn : c.inTurn action = true) :
    (c.act (layer.withSingleFlight true) action).grounded
      = if c.isOfFlight action then c.grounded else c.grounded.act (layer.withSingleFlight false) action := by
  cases action with
  | enlist job => exact grounded_enlist c job
  | step i =>
    cases hstep : c.step (layer.withSingleFlight true) i with
    | none =>
      rw [act_step_of_eq_none hstep]
      split
      next => rfl
      next hnot => exact (act_step_of_eq_none (step_grounded_eq_none hstep (Bool.eq_false_iff.2 hnot))).symm
    | some c' =>
      obtain ⟨task, e, hget, h, rfl⟩ := Transition.of_step hstep
      rw [act_step_of_eq_some hstep, grounded_after, isOfFlight_step hget]
      obtain ⟨hphase, heffect⟩ | ⟨hphase, hgrounded⟩ := h.grounded (hc.unhindered hget)
      . rw [if_pos hphase, heffect]
        exact after_stay_self (getElem?_grounded hget)
      . rw [if_neg (Bool.eq_false_iff.1 hphase), act_step_of_eq_some]
        exact hgrounded.step_eq (getElem?_grounded hget)
  | cancel i => nomatch hturn
  | clock clock => rfl
  | systemTime systemTime => rfl
  | change f => rfl

namespace Cache

/-- Whether the requests of a run come one after the other, each when the ones before are finished. -/
def oneByOne (layer : Layer) : Cache σ → List (Action σ) → Bool
  | _, [] => true
  | c, action :: actions => c.inTurn action && oneByOne layer (c.act layer action) actions

def essential (layer : Layer) : Cache σ → List (Action σ) → List (Action σ)
  | _, [] => []
  | c, action :: actions =>
    if c.isOfFlight action then essential layer (c.act layer action) actions
    else action :: essential layer (c.act layer action) actions

end Cache

theorem Solitary.play (hc : Solitary c) (layer : Layer) {actions : List (Action σ)}
    (honeByOne : c.oneByOne layer actions = true) : Solitary (c.play layer actions) := by
  induction actions generalizing c with
  | nil => exact hc
  | cons action actions ih =>
    rw [oneByOne, Bool.and_eq_true] at honeByOne
    exact ih (hc.act layer honeByOne.1) honeByOne.2

theorem grounded_play (hc : Solitary c) {actions : List (Action σ)}
    (honeByOne : c.oneByOne (layer.withSingleFlight true) actions = true) :
    (c.play (layer.withSingleFlight true) actions).grounded
      = c.grounded.play (layer.withSingleFlight false) (c.essential (layer.withSingleFlight true) actions) := by
  induction actions generalizing c with
  | nil => rfl
  | cons action actions ih =>
    rw [oneByOne, Bool.and_eq_true] at honeByOne
    rw [play_cons, ih (hc.act _ honeByOne.1) honeByOne.2, grounded_act hc honeByOne.1, essential]
    split
    next => rfl
    next => rfl

omit [Backend σ] in
theorem inTurn_grounded {action : Action σ} (hturn : c.inTurn action = true) :
    c.grounded.inTurn action = true := by
  cases action with
  | enlist job =>
    refine List.all_eq_true.2 fun task hmem => ?_
    obtain ⟨old, hold, rfl⟩ := List.mem_map.1 hmem
    have hfinished := List.all_eq_true.1 hturn old hold
    unfold Task.grounded
    rw [Phase.grounded_of_isFinished hfinished]
    exact hfinished
  | cancel i => nomatch hturn
  | _ => rfl

theorem oneByOne_essential (hc : Solitary c) {actions : List (Action σ)}
    (honeByOne : c.oneByOne (layer.withSingleFlight true) actions = true) :
    c.grounded.oneByOne (layer.withSingleFlight false) (c.essential (layer.withSingleFlight true) actions)
      = true := by
  induction actions generalizing c with
  | nil => rfl
  | cons action actions ih =>
    rw [oneByOne, Bool.and_eq_true] at honeByOne
    have hrest := ih (hc.act _ honeByOne.1) honeByOne.2
    rw [grounded_act hc honeByOne.1] at hrest
    rw [essential]
    split
    next hflight =>
      rw [if_pos hflight] at hrest
      exact hrest
    next hflight =>
      rw [if_neg hflight] at hrest
      rw [oneByOne, inTurn_grounded honeByOne.1, hrest]
      rfl

/-- Whether no request is about to take a step of a flight. -/
def Settled (c : Cache σ) : Prop :=
  ∀ task ∈ c.tasks, task.phase.isOfFlight = false

/-- The steps of its flight that a request is about to take can be taken at once. -/
theorem Solitary.exists_settled (hc : Solitary c) (layer : Layer) :
    ∃ steps : List (Action σ), c.oneByOne layer steps = true ∧ c.essential layer steps = []
      ∧ Settled (c.play layer steps) := by
  -- Every such step lowers the number of the steps that are left to all requests.
  induction hleft : c.stepsLeft using Nat.strong_induction_on generalizing c with
  | _ n ih =>
    by_cases hsettled : Settled c
    . exact ⟨[], rfl, rfl, hsettled⟩
    . obtain ⟨task, hmem, hflight⟩ : ∃ task ∈ c.tasks, task.phase.isOfFlight = true := by
        simpa [Settled] using hsettled
      obtain ⟨i, hget⟩ := List.getElem?_of_mem hmem
      have hready := Phase.isReady_of_isOfFlight hflight (hc.undisturbed hget)
      obtain ⟨e, -, hstep⟩ := exists_transition_of_isReady layer hget hready
      have hact : Solitary (c.act layer (.step i)) := hc.act layer rfl
      rw [act_step_of_eq_some hstep] at hact
      obtain ⟨steps, honeByOne, hessential, hsettled⟩ := ih _ (hleft ▸ stepsLeft_lt_of_step hstep) hact rfl
      refine ⟨.step i :: steps, ?_, ?_, ?_⟩
      . rw [oneByOne, act_step_of_eq_some hstep, honeByOne]
        rfl
      . rw [essential, act_step_of_eq_some hstep, hessential, isOfFlight_step hget, if_pos hflight]
      . rw [play_cons, act_step_of_eq_some hstep]
        exact hsettled

omit [Backend σ] in
theorem Settled.isOfFlight_eq_false (hsettled : Settled c) (action : Action σ) :
    c.isOfFlight action = false := by
  cases action with
  | step i =>
    cases hget : c.tasks[i]? with
    | none => simp [Cache.isOfFlight, phase?, hget]
    | some task =>
      rw [isOfFlight_step hget]
      exact hsettled task (List.mem_of_getElem? hget)
  | _ => rfl

omit [Backend σ] in
theorem Settled.inTurn_of_grounded (hsettled : Settled c) {action : Action σ}
    (hturn : c.grounded.inTurn action = true) : c.inTurn action = true := by
  cases action with
  | enlist job =>
    refine List.all_eq_true.2 fun task hmem => ?_
    have hfinished := List.all_eq_true.1 hturn _ (List.mem_map_of_mem hmem)
    exact (Phase.isFinished_grounded (hsettled task hmem)).symm.trans hfinished
  | cancel i => nomatch hturn
  | _ => rfl

theorem essential_append (layer : Layer) (c : Cache σ) (actions others : List (Action σ)) :
    c.essential layer (actions ++ others)
      = c.essential layer actions ++ (c.play layer actions).essential layer others := by
  induction actions generalizing c with
  | nil => rfl
  | cons action actions ih =>
    rw [List.cons_append, essential, essential, play_cons, ih]
    split
    next => rfl
    next => rfl

theorem oneByOne_append (layer : Layer) (c : Cache σ) (actions others : List (Action σ)) :
    c.oneByOne layer (actions ++ others)
      = (c.oneByOne layer actions && (c.play layer actions).oneByOne layer others) := by
  induction actions generalizing c with
  | nil => rfl
  | cons action actions ih => rw [List.cons_append, oneByOne, oneByOne, play_cons, ih, Bool.and_assoc]

/-- Every run without flights is one with flights, but for the steps that are about them. -/
theorem Solitary.exists_essential_eq (hc : Solitary c) (hsettled : Settled c) {actions : List (Action σ)}
    (honeByOne : c.grounded.oneByOne (layer.withSingleFlight false) actions = true) :
    ∃ others, c.oneByOne (layer.withSingleFlight true) others = true
      ∧ c.essential (layer.withSingleFlight true) others = actions := by
  induction actions generalizing c with
  | nil => exact ⟨[], rfl, rfl⟩
  | cons action actions ih =>
    rw [oneByOne, Bool.and_eq_true] at honeByOne
    have hturn := hsettled.inTurn_of_grounded honeByOne.1
    have hflight := hsettled.isOfFlight_eq_false action
    have hact := hc.act (layer.withSingleFlight true) hturn
    obtain ⟨steps, hsteps, hessential, hafter⟩ := hact.exists_settled (layer.withSingleFlight true)
    have hgrounded := grounded_play hact hsteps
    rw [hessential, play_nil, grounded_act hc hturn, hflight, if_neg Bool.false_ne_true] at hgrounded
    obtain ⟨others, hothers, heq⟩ := ih (hact.play _ hsteps) hafter (hgrounded ▸ honeByOne.2)
    -- After each action the steps of the flight are put in that have become possible.
    refine ⟨action :: (steps ++ others), ?_, ?_⟩
    . rw [oneByOne, oneByOne_append, hturn, hsteps, hothers]
      rfl
    . rw [essential, essential_append, hessential, heq, hflight, if_neg Bool.false_ne_true]
      rfl

/--
As long as requests come one after the other, a cache with single flights is one without them: the requests, the
records, the calls and the store are the same, by the same actions but for the steps that are about flights,
and when all requests are finished, no flight is left. Every run without single flights is met so.
-/
theorem singleFlight_play (layer : Layer) (store : σ) (clock systemTime : Time) :
    let first := Cache.start store clock systemTime
    let on := layer.withSingleFlight true
    let off := layer.withSingleFlight false
    (∀ actions, first.oneByOne on actions = true →
        let c := first.play on actions
        let c' := first.play off (first.essential on actions)
        first.oneByOne off (first.essential on actions) = true
          ∧ c'.store = c.store ∧ c'.history = c.history ∧ c'.calls = c.calls
          ∧ c'.tasks = c.tasks.map Task.grounded
          ∧ ((∀ task ∈ c.tasks, task.phase.isFinished = true) → c'.tasks = c.tasks ∧ c.flights.leads = []))
      ∧ ∀ actions, first.oneByOne off actions = true →
        ∃ others, first.oneByOne on others = true ∧ first.essential on others = actions := by
  intro first on off
  have hstart : Solitary first := .start store clock systemTime
  refine ⟨?_, ?_⟩
  . intro actions honeByOne c c'
    have hc : c.grounded = c' := grounded_play hstart honeByOne
    rw [← hc]
    refine ⟨oneByOne_essential hstart honeByOne, rfl, rfl, rfl, rfl, ?_⟩
    intro hfinished
    refine ⟨?_, (hstart.play on honeByOne).tracked.leads_eq_nil hfinished⟩
    refine (List.map_congr_left fun task hmem => ?_).trans (List.map_id _)
    have hphase := Phase.grounded_of_isFinished (hfinished task hmem)
    exact congrArg (fun phase => { task with phase := phase }) hphase
  . intro actions honeByOne
    exact hstart.exists_essential_eq (fun task hmem => nomatch hmem) honeByOne

end

/-- Three requests one after the other: the handler of the first fails, the second is stored, the third hits. -/
def failedThenServed : List (Action MemoryStore) :=
  .enlist (.sample 0 (.error "")) :: List.replicate 8 (.step 0)
    ++ .enlist (.sample 0 (.ok .empty)) :: List.replicate 10 (.step 1)
    ++ .enlist (.sample 0 (.ok .empty)) :: List.replicate 4 (.step 2)

theorem singleFlight_play_failedThenServed :
    let first := Cache.start MemoryStore.empty .epoch .epoch
    let on := (Layer.sample false).withSingleFlight true
    let off := (Layer.sample false).withSingleFlight false
    let c := first.play on failedThenServed
    let c' := first.play off (first.essential on failedThenServed)
    first.oneByOne on failedThenServed = true ∧ (∀ task ∈ c.tasks, task.phase.isFinished = true)
      ∧ c.calls = 2 ∧ c'.calls = 2 ∧ c'.tasks = c.tasks ∧ c'.history = c.history ∧ c.flights.leads = [] := by
  intro first on off
  have honeByOne : first.oneByOne on failedThenServed = true := by decide +kernel
  have hfinished : ∀ task ∈ (first.play on failedThenServed).tasks, task.phase.isFinished = true := by
    decide +kernel
  have hcalls : (first.play on failedThenServed).calls = 2 := by decide +kernel
  -- The actions are forgotten here, so that nothing after this plays them.
  generalize failedThenServed = actions at honeByOne hfinished hcalls ⊢
  obtain ⟨-, -, hhistory, hcalls', -, hends⟩ :=
    (singleFlight_play (.sample false) MemoryStore.empty .epoch .epoch).1 actions honeByOne
  obtain ⟨htasks, hleads⟩ := hends hfinished
  exact ⟨honeByOne, hfinished, hcalls, hcalls'.trans hcalls, htasks, hhistory, hleads⟩

end ResponseCache
