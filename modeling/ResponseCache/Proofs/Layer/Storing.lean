import ResponseCache.Proofs.Layer.Fidelity
import ResponseCache.Proofs.Layer.Interchange
import ResponseCache.Proofs.Store.Legible

/-!
This module contains that a response of which it is told that it was stored has been stored. No write is
asked for that lasts no time, which a store would take for done without doing it.
-/

namespace ResponseCache

open Cache Backend.Legible

theorem AgePolicy.isZero_maxTtl {policy : AgePolicy} (henabled : policy.isDisabled = false)
    (hle : policy.minSecs ≤ policy.maxSecs) : policy.maxTtl.isZero = false := by
  have hnanos : policy.maxTtl.nanos = policy.maxSecs * 1000000000 := rfl
  unfold isDisabled at henabled
  rw [Bool.and_eq_false_iff, decide_eq_false_iff_not, decide_eq_false_iff_not] at henabled
  unfold Duration.isZero
  rw [hnanos, decide_eq_false_iff_not]
  omega

def Record.tellsOfStore : Record → Bool
  | .wrote _ _ _ success => success
  | .counted counter => counter = .store
  | .reported event => event.kind = .store
  | _ => false

/-- Whether an action is one of a request or of the clocks. -/
def Action.isOf {σ : Type} (i : Nat) : Action σ → Bool
  | step j => j = i
  | cancel j => j = i
  | clock _ => true
  | systemTime _ => true
  | _ => false

section

variable {σ : Type} {layer : Layer} {c first : Cache σ} {i : Nat} {task : Task} {e : Effect σ}
  {actions : List (Action σ)} {key : String} {entry : Entry}

theorem tellsOfStore_records {α : Type} (access : Access σ α) {records : List Record}
    (hquiet : ∀ record ∈ records, record.tellsOfStore = false) :
    ∀ record ∈ access.records records, record.tellsOfStore = false :=
  List.forall_mem_append.2 ⟨hquiet, List.forall_mem_map.2 fun _ _ => rfl⟩

theorem tellsOfStore_reporting {records : List Record} {event : Event}
    (hquiet : ∀ record ∈ records, record.tellsOfStore = false) (hkind : event.kind ≠ .store) :
    ∀ record ∈ c.reporting layer records event, record.tellsOfStore = false := by
  refine List.forall_mem_append.2 ⟨hquiet, ?_⟩
  unfold Layer.report
  split
  next => exact List.forall_mem_singleton.2 (decide_eq_false hkind)
  next => exact List.forall_mem_nil _

theorem tellsOfStore_deciding (decision : Decision) (again : Bool) :
    ∀ record ∈ deciding task key decision again, record.tellsOfStore = false := by
  unfold deciding
  split
  next => exact List.forall_mem_nil _
  next => exact List.forall_mem_singleton.2 rfl

theorem tellsOfStore_failing (message : String) :
    ∀ record ∈ c.failing layer i task message, record.tellsOfStore = false :=
  tellsOfStore_reporting (List.forall_mem_cons.2 ⟨rfl, List.forall_mem_singleton.2 rfl⟩) nofun

theorem tellsOfStore_stamping (decision : Decision) (entry : Entry) :
    ∀ record ∈ c.stamping layer i task decision entry, record.tellsOfStore = false := by
  apply tellsOfStore_reporting
  . rw [List.forall_mem_singleton]
    cases decision <;> rfl
  . cases decision <;> nofun

theorem tellsOfStore_hit (entry : Entry) :
    ∀ record ∈ c.reporting layer [.counted .hit] (c.hitEvent layer i task entry),
      record.tellsOfStore = false := by
  apply tellsOfStore_reporting (List.forall_mem_singleton.2 rfl)
  unfold hitEvent
  dsimp only
  split <;> nofun

variable [Backend σ]

/-- Nothing but a write with success tells of a response that it was stored. -/
theorem Transition.wrote_of_tellsOfStore (h : Transition layer c i task e) {record : Record}
    (hmem : record ∈ e.records) (htells : record.tellsOfStore = true) :
    ∃ key guard entry, task.phase = .writing key guard entry
      ∧ (Backend.set c.store c.systemTime key entry layer.policy.maxTtl).result = .ok ()
      ∧ e.phase = .finish guard (.response .miss (layer.replay entry true))
      ∧ e.store = (Backend.set c.store c.systemTime key entry layer.policy.maxTtl).store := by
  have hloud (hquiet : ∀ record ∈ e.records, record.tellsOfStore = false) : False := by
    nomatch (hquiet record hmem).symm.trans htells
  cases h with
  | wrote hphase hresult => exact ⟨_, _, _, hphase, hresult, rfl, rfl⟩
  | foundExpired => exact (hloud (tellsOfStore_records _ (List.forall_mem_nil _))).elim
  | looked => exact (hloud (tellsOfStore_records _ (List.forall_mem_singleton.2 rfl))).elim
  | lookFailed | writeFailed =>
    refine (hloud (tellsOfStore_reporting (List.forall_mem_append.2 ⟨?_, ?_⟩) nofun)).elim
    . exact tellsOfStore_records _ (List.forall_mem_singleton.2 rfl)
    . exact List.forall_mem_cons.2 ⟨rfl, List.forall_mem_singleton.2 rfl⟩
  | writeAborted => exact (hloud (tellsOfStore_records _ (List.forall_mem_nil _))).elim
  | hit | missed | unguarded =>
    refine (hloud ?_).elim
    simp only [stay]
    exact tellsOfStore_deciding _ _
  | served => exact (hloud (tellsOfStore_hit _)).elim
  | refused | failed => exact (hloud (tellsOfStore_failing _)).elim
  | storable | unstorable => exact (hloud (tellsOfStore_stamping _ _)).elim
  | discarded | called => exact (hloud (List.forall_mem_singleton.2 rfl)).elim
  | _ => exact (hloud (List.forall_mem_nil _)).elim

theorem isDisabled_of_writing (hfirst : ∀ task, first.tasks[i]? = some task → task.phase = .arriving)
    (hget : (first.play layer actions).tasks[i]? = some task) {guard : Option Guard}
    (hwriting : task.phase = .writing key guard entry) : layer.policy.isDisabled = false := by
  obtain ⟨before, after, old, e, h⟩ := exists_crossing (Q := fun phase => phase.hasMissed = true)
    nofun nofun hfirst hget (by rw [hwriting]; rfl)
  obtain ⟨other, found, -, hmiss⟩ :=
    h.transition.missed_of_hasMissed (Bool.eq_false_iff.2 h.outside) h.inside
  exact (enabled_of_decideRequest_eq_miss hmiss).1

/-- The store is never asked to keep an entry for no time at all. -/
theorem isZero_of_mem_storeCalls (hfirst : ∀ task, first.tasks[i]? = some task → task.phase = .arriving)
    (hle : layer.policy.minSecs ≤ layer.policy.maxSecs) {now : Time} {ttl : Duration}
    (hmem : .set now key entry ttl ∈ first.storeCalls layer i actions) : ttl.isZero = false := by
  obtain ⟨before, after, -, hcall⟩ := exists_of_mem_storeCalls hmem
  simp only [storeCall?, if_true] at hcall
  obtain ⟨phase, hphase, hcall⟩ := Option.bind_eq_some_iff.1 hcall
  obtain ⟨task, hget, rfl⟩ := Option.map_eq_some_iff.1 hphase
  obtain ⟨guard, hwriting, rfl⟩ := Phase.writing_of_storeCall? hcall
  exact AgePolicy.isZero_maxTtl (isDisabled_of_writing hfirst hget hwriting) hle

theorem Phase.storeCall?_of_writesLeft {phase : Phase} (hleft : phase.writesLeft = 0) (now : Time) :
    phase.storeCall? layer now = none := by
  cases phase with
  | landing | done | cancelled => rfl
  | _ => nomatch hleft

theorem store_play_of_writesLeft (hget : c.tasks[i]? = some task) (hleft : task.phase.writesLeft = 0)
    (hactions : ∀ action ∈ actions, action.isOf i = true) : (c.play layer actions).store = c.store := by
  induction actions generalizing c task with
  | nil => rfl
  | cons action actions ih =>
    obtain ⟨hnow, hlater⟩ := List.forall_mem_cons.1 hactions
    obtain ⟨task', hget', hle⟩ := writesLeft_act layer hget action
    rw [hleft, Nat.le_zero, Nat.add_eq_zero_iff] at hle
    rw [play_cons, ih hget' hle.2 hlater]
    cases action with
    | step k =>
      obtain rfl : k = i := of_decide_eq_true hnow
      cases hstep : c.step layer k with
      | none => rw [act_step_of_eq_none hstep]
      | some c' =>
        obtain ⟨e, h, rfl⟩ := exists_transition_of_step hget hstep
        have hstore : (c.after k task e).store = e.store := rfl
        rw [act_step_of_eq_some hstep, hstore, h.store_eq, Phase.storeCall?_of_writesLeft hleft]
        rfl
    | cancel k => exact store_cancel c k
    | clock | systemTime => rfl
    | enlist | change => nomatch hnow

variable [Backend.Legible σ]

omit [Backend.Legible σ] in
/-- What is written on behalf of a request is an entry of its own, as short as the format needs it. -/
theorem Warrant.fits {job : Job} (h : Warrant layer first actions i job key entry) :
    entry.Fits ∧ ∃ part, part <+: actions ∧ entry.lastValid = (first.play layer part).now layer := by
  obtain ⟨_, _, toEntry, _, _, _, reply, snapshot, _, -, -, hpart, -, -, -, -, hcapture, -, -, rfl, rfl⟩ :=
    h.course
  refine ⟨?_, toEntry, (List.prefix_append _ _).trans hpart, rfl⟩
  apply Reply.fits_of_capture hcapture
  rw [EntityTag.length_generate]
  decide

theorem under?_of_tellsOfStore {job : Job} {started : Time} {record : Record} {response : Response}
    (hfirst : first.tasks[i]? = some ⟨job, started, .arriving⟩) (hnew : ∀ note ∈ first.history, note.task ≠ i)
    (hle : layer.policy.minSecs ≤ layer.policy.maxSecs) (hactions : ∀ action ∈ actions, action.isOf i = true)
    (hkeeps : ∀ part, part <+: actions → Keeps σ ((first.play layer part).now layer))
    (hphase : (first.play layer actions).phase? i = some (.done (.response .miss response)))
    (hmem : ⟨i, record⟩ ∈ (first.play layer actions).history) (htells : record.tellsOfStore = true) :
    ∃ key entry expiry, layer.keyOf job = some key ∧ response = layer.replay entry true
      ∧ under? (first.play layer actions).store key = some (entry, expiry)
      ∧ ∀ time ∈ expiry, ∃ part, part <+: actions
        ∧ (first.play layer part).systemTime.add? layer.policy.maxTtl = some time := by
  obtain ⟨before, after, task, e, rfl, hget, h, heq, hrecord⟩ :=
    exists_transition_of_mem_history hmem fun hold => hnew _ hold rfl
  obtain ⟨key, guard, entry, hwriting, hresult, hfinish, hstore⟩ := h.wrote_of_tellsOfStore hrecord htells
  have hwarrant := warrant_of_writing hfirst hget hwriting
  have hlasts := AgePolicy.isZero_maxTtl hwarrant.isDisabled_eq hle
  obtain ⟨hfits, part, hpart, hvalid⟩ := hwarrant.fits
  have hkept : Keeps σ entry.lastValid := hvalid ▸ hkeeps part (hpart.trans (List.prefix_append _ _))
  obtain ⟨expiry, hunder, hexpiry⟩ := exists_under?_set hlasts hfits hkept hresult
  -- Since the write, the request has its answer and the store is left alone.
  have hplay : first.play layer (before ++ .step i :: after)
      = ((first.play layer before).after i task e).play layer after := by
    rw [← heq, ← play_append, List.append_assoc]
    rfl
  have hget' := getElem?_after_self hget e
  have hanswer : e.phase.answer? = some (.response .miss (layer.replay entry true)) := by
    rw [hfinish]
    exact Phase.answer?_finish _ _
  have hleft : e.phase.writesLeft = 0 := by
    rw [hfinish]
    exact writesLeft_finish _ _
  have hlater : ∀ action ∈ after, action.isOf i = true :=
    fun action hmem => hactions action (List.mem_append_right _ (List.mem_cons_of_mem _ hmem))
  have hlast : (first.play layer (before ++ .step i :: after)).store = e.store := by
    rw [hplay]
    exact store_play_of_writesLeft hget' hleft hlater
  refine ⟨key, entry, expiry, hwarrant.keyOf_eq, ?_, ?_, ?_⟩
  . obtain ⟨-, task', hget'', hended⟩ := notesOf_play_of_answered layer hget' hanswer after
    rw [hplay, phase?_eq_some hget'' rfl] at hphase
    rw [Option.some.inj hphase] at hended
    exact (Answer.response.inj (Option.some.inj (hended.resolve_left nofun))).2
  . rw [hlast, hstore]
    exact hunder
  . exact fun time htime => ⟨before, List.prefix_append _ _, hexpiry time htime⟩

end

end ResponseCache
