import ResponseCache.Proofs.Layer.Lenient
import ResponseCache.Proofs.Layer.Path
import ResponseCache.Store.Memory

/-!
This module contains what becomes of requests whose store fails. They end in an error only if their handler
fails or is not ready to be called, a look that fails is as good as one that finds nothing, and a write that
fails costs the response no more than its lifetime.
-/

namespace ResponseCache

open Cache

def Answer.isError : Answer → Bool
  | .failed _ => true
  | .unready _ => true
  | _ => false

/-- The error that a request is answered with by its next step because its handler was called and failed. -/
def Task.failure? (task : Task) : Option Answer :=
  match task.phase with
  | .running _ _ 0 call =>
    match task.job.handler.answer call >>= Reply.capture with
    | .error message => some (.failed message)
    | .ok _ => none
  | _ => none

/-- The error that a request is answered with by its next step because its handler is not ready. -/
def Task.unreadiness? (task : Task) : Option Answer :=
  match task.phase with
  | .arriving => task.job.handler.unready.map .unready
  | .calling _ _ => task.job.handler.refusal.map .failed
  | _ => none

/-- Whether a request is past the call of its handler, which has not answered yet. -/
def Phase.isRunning : Phase → Bool
  | .running .. => true
  | _ => false

def Layer.written (layer : Layer) (entry : Entry) : Except WriteFault Unit → Answer
  | .ok () => .response .miss (layer.replay entry true)
  | .error (.error _) => .response .miss (layer.replay entry false)
  | .error .overflow => .aborted

/-- Whether a record says nothing but that the store was written, and how that went. -/
def Record.isOfWrite : Record → Bool
  | .wrote .. => true
  | .sent _ => true
  | .counted .store => true
  | .counted .storeError => true
  | .logged (.storeFailed _ _) => true
  | .reported event => event.kind = .store ∨ event.kind = .storeFailed
  | _ => false

def Cache.notesOf {σ : Type} (c : Cache σ) (i : Nat) : List Note :=
  c.history.filter fun note => note.task = i

section

variable {σ : Type} {layer : Layer} {c c' first : Cache σ} {i : Nat} {task : Task} {e : Effect σ}
  {answer : Answer} {message key : String} {guard : Option Guard} {entry : Entry}

theorem isOfWrite_records {α : Type} (access : Access σ α) {first : List Record}
    (hfirst : ∀ record ∈ first, record.isOfWrite = true) :
    ∀ record ∈ access.records first, record.isOfWrite = true :=
  List.forall_mem_append.2 ⟨hfirst, List.forall_mem_map.2 fun _ _ => rfl⟩

theorem isOfWrite_reporting {records : List Record} {event : Event}
    (hrecords : ∀ record ∈ records, record.isOfWrite = true)
    (hkind : event.kind = .store ∨ event.kind = .storeFailed) :
    ∀ record ∈ c.reporting layer records event, record.isOfWrite = true := by
  refine List.forall_mem_append.2 ⟨hrecords, ?_⟩
  unfold Layer.report
  split
  next => exact List.forall_mem_singleton.2 (decide_eq_true hkind)
  next => exact List.forall_mem_nil _

variable [Backend σ]

/-- Whether a request took a step in a run that was to answer it with an error, for a reason of some kind. -/
def Faulted (fault? : Task → Option Answer) (layer : Layer) (first : Cache σ) (actions : List (Action σ))
    (i : Nat) (answer : Answer) : Prop :=
  ∃ before after task, actions = before ++ .step i :: after
    ∧ (first.play layer before).tasks[i]? = some task ∧ fault? task = some answer

/-- Whether the handler of a request, or its body, failed in a run, and with which error for an answer. -/
def HandlerFailed : Layer → Cache σ → List (Action σ) → Nat → Answer → Prop :=
  Faulted Task.failure?

/-- Whether the handler of a request was not ready in a run, and with which error for an answer. -/
def HandlerUnready : Layer → Cache σ → List (Action σ) → Nat → Answer → Prop :=
  Faulted Task.unreadiness?

/--
What is left of a cache by a write on behalf of a request that has its answer: the request will end with
the answer unless its client goes away, and nothing else has happened but the write.
-/
structure Tried (layer : Layer) (i : Nat) (guard : Option Guard) (answer : Answer) (c tried : Cache σ) :
    Prop where
  clock_eq : tried.clock = c.clock
  systemTime_eq : tried.systemTime = c.systemTime
  flights_eq : tried.flights = c.flights
  calls_eq : tried.calls = c.calls
  others_eq : ∀ {k : Nat}, k ≠ i → tried.tasks[k]? = c.tasks[k]?
  phase?_eq : tried.phase? i = some (.finish guard answer)
  history_eq : ∃ records : List Record, tried.history = c.history ++ records.map (Note.mk i)
    ∧ ∀ record ∈ records, record.isOfWrite = true
  ends : ∀ actions, (tried.play layer actions).notesOf i = tried.notesOf i
    ∧ ∃ task, (tried.play layer actions).tasks[i]? = some task
      ∧ (task.phase = .cancelled ∨ task.phase.answer? = some answer)

/-- Nothing but a handler makes an error the answer to a request. -/
theorem Transition.fault_of_isError (h : Transition layer c i task e) (herror : answer.isError = true)
    (hanswer : e.phase.answer? = some answer) (hnot : task.phase.answer? ≠ some answer) :
    task.failure? = some answer ∨ task.unreadiness? = some answer := by
  unfold Task.failure? Task.unreadiness?
  cases h with
  | unready hphase hready =>
    obtain rfl := Option.some.inj hanswer
    simp only [hphase, hready, Option.map_some, or_true]
  | refused hphase hready =>
    obtain rfl := Phase.eq_of_answer?_finish hanswer
    simp only [hphase, hready, Option.map_some, or_true]
  | failed hphase hreply =>
    obtain rfl := Phase.eq_of_answer?_finish hanswer
    simp only [hphase, hreply, true_or]
  | served =>
    obtain rfl := Option.some.inj hanswer
    nomatch herror
  | unstorable =>
    obtain rfl := Phase.eq_of_answer?_finish hanswer
    nomatch herror
  | wrote =>
    obtain rfl := Phase.eq_of_answer?_finish hanswer
    nomatch herror
  | writeFailed =>
    obtain rfl := Phase.eq_of_answer?_finish hanswer
    nomatch herror
  | writeAborted =>
    obtain rfl := Phase.eq_of_answer?_finish hanswer
    nomatch herror
  | landed hphase =>
    rw [hphase] at hnot
    exact absurd hanswer hnot
  | _ => nomatch hanswer

theorem Transition.answer?_of_failure? (h : Transition layer c i task e)
    (hfails : task.failure? = some answer) : e.phase.answer? = some answer := by
  unfold Task.failure? at hfails
  cases h with
  | failed hphase hreply =>
    simp only [hphase, hreply] at hfails
    exact (Phase.answer?_finish _ _).trans hfails
  | answered hphase hreply =>
    simp only [hphase, hreply] at hfails
    nomatch hfails
  | _ =>
    rw [‹task.phase = _›] at hfails
    nomatch hfails

theorem Transition.answer?_of_unreadiness? (h : Transition layer c i task e)
    (hfails : task.unreadiness? = some answer) : e.phase.answer? = some answer := by
  unfold Task.unreadiness? at hfails
  cases h with
  | unready hphase hready =>
    simp only [hphase, hready, Option.map_some] at hfails
    exact hfails
  | refused hphase hready =>
    simp only [hphase, hready, Option.map_some] at hfails
    exact (Phase.answer?_finish _ _).trans hfails
  | keyed hphase hready =>
    simp only [hphase, hready, Option.map_none] at hfails
    nomatch hfails
  | keyless hphase hready =>
    simp only [hphase, hready, Option.map_none] at hfails
    nomatch hfails
  | called hphase hready =>
    simp only [hphase, hready, Option.map_none] at hfails
    nomatch hfails
  | _ =>
    rw [‹task.phase = _›] at hfails
    nomatch hfails

theorem Task.isRunning_of_failure? (hfails : task.failure? = some answer) : task.phase.isRunning = true := by
  unfold failure? at hfails
  split at hfails
  next hphase =>
    rw [hphase]
    rfl
  next => nomatch hfails

theorem Phase.isReady_of_isRunning {phase : Phase} (hrunning : phase.isRunning = true) :
    phase.isReady = true := by
  unfold isRunning at hrunning
  split at hrunning
  next => rfl
  next => exact absurd hrunning Bool.false_ne_true

/-- It is before the call that a handler is not ready. -/
theorem Task.isReady_of_unreadiness? (hfails : task.unreadiness? = some answer) :
    task.phase.isReady = true ∧ 6 + task.job.handler.pauses ≤ task.rank := by
  unfold unreadiness? at hfails
  unfold rank
  split at hfails
  next hphase =>
    rw [hphase]
    exact ⟨rfl, Nat.add_le_add_right (by decide) _⟩
  next hphase =>
    rw [hphase]
    exact ⟨rfl, Nat.le_refl _⟩
  next => nomatch hfails

/-- It is by the call that a handler comes to run. -/
theorem Transition.called_mem_of_isRunning (h : Transition layer c i task e)
    (hold : ¬task.phase.isRunning = true) (hnew : e.phase.isRunning = true) : .called ∈ e.records := by
  have hfinish (guard : Option Guard) (answer : Answer) :
      (Phase.finish guard answer).isRunning = false := by
    cases guard <;> rfl
  cases h with
  | called => exact List.mem_singleton_self _
  | paused hphase =>
    rw [hphase] at hold
    exact absurd rfl hold
  | refused | failed | unstorable | wrote | writeFailed | writeAborted =>
    exact absurd ((hfinish _ _).symm.trans hnew) Bool.false_ne_true
  | _ => nomatch hnew

/-- Nothing is called by the step that answers a request. -/
theorem Transition.countP_isCall_of_answer? (h : Transition layer c i task e)
    (hanswer : e.phase.answer? = some answer) : e.records.countP Record.isCall = 0 := by
  have hcalls := h.calls_eq
  cases h with
  | called => nomatch hanswer
  | _ => exact Nat.left_eq_add.1 hcalls

theorem Transition.records_eq_nil (h : Transition layer c i task e)
    (hanswer : task.phase.answer? = some answer) : e.records = [] := by
  cases h with
  | landed => rfl
  | _ =>
    rw [‹task.phase = _›] at hanswer
    nomatch hanswer

omit [Backend σ] in
theorem notesOf_after (c : Cache σ) {k : Nat} (other : Task) (hrecords : k = i → e.records = []) :
    (c.after k other e).notesOf i = c.notesOf i := by
  unfold notesOf after
  rw [List.filter_append, List.append_right_eq_self, List.filter_eq_nil_iff]
  intro note hmem
  obtain ⟨record, hrecord, rfl⟩ := List.mem_map.1 hmem
  rw [decide_eq_true_eq]
  intro heq
  rw [hrecords heq] at hrecord
  nomatch hrecord

omit [Backend σ] in
theorem notesOf_after_self (c : Cache σ) (i : Nat) (task : Task) (e : Effect σ) :
    (c.after i task e).notesOf i = c.notesOf i ++ e.records.map (Note.mk i) := by
  have hself : (e.records.map (Note.mk i)).filter (fun note => note.task = i) = e.records.map (Note.mk i) := by
    rw [List.filter_eq_self, List.forall_mem_map]
    exact fun _ _ => decide_eq_true rfl
  unfold notesOf after
  rw [List.filter_append, hself]

/-- A request that has its answer ends with it unless its client goes away, and leaves no more notes. -/
theorem notesOf_play_of_answered (layer : Layer) (hget : c.tasks[i]? = some task)
    (hanswer : task.phase.answer? = some answer) (actions : List (Action σ)) :
    (c.play layer actions).notesOf i = c.notesOf i
      ∧ ∃ task, (c.play layer actions).tasks[i]? = some task
        ∧ (task.phase = .cancelled ∨ task.phase.answer? = some answer) := by
  apply (c.reachable_play layer actions).invariant
    (P := fun c' => c'.notesOf i = c.notesOf i ∧ ∃ task, c'.tasks[i]? = some task
      ∧ (task.phase = .cancelled ∨ task.phase.answer? = some answer))
    ⟨rfl, task, hget, .inr hanswer⟩
  intro c' c'' hold hmove
  obtain ⟨hnotes, task, hget, hended⟩ := hold
  apply hmove.rule ⟨hnotes, task, hget, hended⟩
  . exact fun job => ⟨hnotes, task, getElem?_of_isPrefix (List.prefix_append _ _) hget, hended⟩
  . intro k other e hother h
    by_cases heq : k = i
    . subst heq
      obtain rfl := Option.some.inj (hget.symm.trans hother)
      have hanswer := hended.resolve_left h.phase_ne_cancelled
      exact ⟨(notesOf_after c' task fun _ => h.records_eq_nil hanswer).trans hnotes, _,
        getElem?_after_self hget e, .inr (h.answer?_eq_some hanswer)⟩
    . exact ⟨(notesOf_after c' other fun hself => absurd hself heq).trans hnotes, task,
        getElem?_after_of_ne heq e hget, hended⟩
  . intro k other hother
    have hleft := (notesOf_after (i := i) (k := k) (e := c'.leave k other) c' other fun _ => rfl).trans hnotes
    by_cases heq : k = i
    . subst heq
      exact ⟨hleft, _, getElem?_after_self hother _, .inl rfl⟩
    . exact ⟨hleft, task, getElem?_after_of_ne heq _ hget, hended⟩
  . exact fun _ => ⟨hnotes, task, hget, hended⟩

theorem answer?_of_faulted {fault? : Task → Option Answer}
    (hready : ∀ {task}, fault? task = some answer → task.phase.isReady = true)
    (hanswers : ∀ {c : Cache σ} {task e}, Transition layer c i task e → fault? task = some answer →
      e.phase.answer? = some answer)
    {actions : List (Action σ)} (hget : (first.play layer actions).tasks[i]? = some task)
    (hphase : task.phase ≠ .cancelled) (hfaulted : Faulted fault? layer first actions i answer) :
    task.phase.answer? = some answer := by
  obtain ⟨before, after, old, rfl, hold, hfails⟩ := hfaulted
  obtain ⟨e, h, hstep⟩ := exists_transition_of_isReady layer hold (hready hfails)
  obtain ⟨-, task', hget', hended⟩ :=
    notesOf_play_of_answered layer (getElem?_after_self hold e) (hanswers h hfails) after
  rw [play_append, play_cons, act_step_of_eq_some hstep] at hget
  obtain rfl := Option.some.inj (hget'.symm.trans hget)
  exact hended.resolve_left hphase

/--
A request whose client stays is answered with an error exactly if its handler failed or was not ready, and with
that error.
-/
theorem answer?_eq_error_iff (hfirst : first.tasks = []) {actions : List (Action σ)}
    (hget : (first.play layer actions).tasks[i]? = some task) (hphase : task.phase ≠ .cancelled)
    (herror : answer.isError = true) :
    task.phase.answer? = some answer
      ↔ HandlerFailed layer first actions i answer ∨ HandlerUnready layer first actions i answer := by
  constructor
  . intro hanswer
    obtain ⟨before, after, old, e, h⟩ :=
      exists_crossing (Q := fun phase => phase.answer? = some answer) nofun nofun
        (arriving_of_eq_nil hfirst i) hget hanswer
    cases h.transition.fault_of_isError herror h.inside h.outside with
    | inl hfails => exact .inl ⟨before, after, old, h.actions_eq, h.getElem?_eq, hfails⟩
    | inr hunready => exact .inr ⟨before, after, old, h.actions_eq, h.getElem?_eq, hunready⟩
  . intro hfaulted
    cases hfaulted with
    | inl hfailed =>
      apply answer?_of_faulted _ _ hget hphase hfailed
      . exact fun hfails => Phase.isReady_of_isRunning (Task.isRunning_of_failure? hfails)
      . exact fun h hfails => h.answer?_of_failure? hfails
    | inr hunready =>
      apply answer?_of_faulted _ _ hget hphase hunready
      . exact fun hfails => (Task.isReady_of_unreadiness? hfails).1
      . exact fun h hfails => h.answer?_of_unreadiness? hfails

/-- A handler that failed was called. -/
theorem mem_callers_of_handlerFailed (hfirst : first.tasks = []) {actions : List (Action σ)}
    (hfailed : HandlerFailed layer first actions i answer) : i ∈ (first.play layer actions).callers := by
  obtain ⟨before, after, task, rfl, hget, hfails⟩ := hfailed
  obtain ⟨earlier, later, old, e, h⟩ :=
    exists_crossing (Q := fun phase => phase.isRunning = true) nofun nofun (arriving_of_eq_nil hfirst i) hget
      (Task.isRunning_of_failure? hfails)
  have hcalled : i ∈ (first.play layer (earlier ++ [.step i])).callers := by
    rw [h.play_eq, callers_after, List.mem_append, List.mem_replicate]
    refine .inr ⟨Nat.pos_iff_ne_zero.1 (List.countP_pos_iff.2 ?_), rfl⟩
    exact ⟨_, h.transition.called_mem_of_isRunning h.outside h.inside, rfl⟩
  obtain ⟨rest, hrest⟩ := h.isPrefix
  rw [← hrest, List.append_assoc, play_append]
  exact (callers_of_grows ((reachable_play _ layer _).grows)).subset hcalled

/-- A handler that was not ready was not called, then or later. -/
theorem not_mem_callers_of_handlerUnready (hnot : i ∉ first.callers) {actions : List (Action σ)}
    (hunready : HandlerUnready layer first actions i answer) : i ∉ (first.play layer actions).callers := by
  obtain ⟨before, after, task, rfl, hget, hfails⟩ := hunready
  obtain ⟨hready, hrank⟩ := Task.isReady_of_unreadiness? hfails
  obtain ⟨e, h, hstep⟩ := exists_transition_of_isReady layer hget hready
  have hanswer := h.answer?_of_unreadiness? hfails
  rw [play_append, play_cons, act_step_of_eq_some hstep]
  apply not_mem_callers_play_of_rank_lt _ (getElem?_after_self hget e)
  . unfold Task.rank
    exact Nat.lt_of_le_of_lt (Phase.rank_le_of_answer? hanswer _) (by decide)
  . rw [callers_after, h.countP_isCall_of_answer? hanswer, List.replicate_zero, List.append_nil]
    exact not_mem_callers_of_le_rank hnot hget hrank

theorem Transition.of_writing (h : Transition layer c i task e) :
    task.phase = .writing key guard entry →
      e.phase = .finish guard
          (layer.written entry (Backend.set c.store c.systemTime key entry layer.policy.maxTtl).result)
        ∧ e.flights = c.flights ∧ e.calls = c.calls ∧ ∀ record ∈ e.records, record.isOfWrite = true := by
  cases h with
  | wrote hphase hresult =>
    intro hwriting
    obtain ⟨rfl, rfl, rfl⟩ := Phase.writing.inj (hphase.symm.trans hwriting)
    rw [hresult]
    refine ⟨rfl, rfl, rfl, ?_⟩
    apply isOfWrite_reporting _ (.inl rfl)
    refine List.forall_mem_append.2 ⟨?_, ?_⟩
    . exact isOfWrite_records _ (List.forall_mem_singleton.2 rfl)
    . exact List.forall_mem_singleton.2 rfl
  | writeFailed hphase hresult =>
    intro hwriting
    obtain ⟨rfl, rfl, rfl⟩ := Phase.writing.inj (hphase.symm.trans hwriting)
    rw [hresult]
    refine ⟨rfl, rfl, rfl, ?_⟩
    apply isOfWrite_reporting _ (.inr rfl)
    refine List.forall_mem_append.2 ⟨?_, ?_⟩
    . exact isOfWrite_records _ (List.forall_mem_singleton.2 rfl)
    . exact List.forall_mem_cons.2 ⟨rfl, List.forall_mem_singleton.2 rfl⟩
  | writeAborted hphase hresult =>
    intro hwriting
    obtain ⟨rfl, rfl, rfl⟩ := Phase.writing.inj (hphase.symm.trans hwriting)
    rw [hresult]
    exact ⟨rfl, rfl, rfl, isOfWrite_records _ (List.forall_mem_nil _)⟩
  | _ =>
    rw [‹task.phase = _›]
    nofun

theorem tried_of_writing (layer : Layer) (hphase : c.phase? i = some (.writing key guard entry)) :
    Tried layer i guard
      (layer.written entry (Backend.set c.store c.systemTime key entry layer.policy.maxTtl).result) c
      (c.play layer [.step i]) := by
  obtain ⟨task, hget, hwriting⟩ := Option.map_eq_some_iff.1 hphase
  obtain ⟨e, h, hstep⟩ := exists_transition_of_isReady layer hget (by rw [hwriting]; rfl)
  obtain ⟨hfinish, hflights, hcalls, hrecords⟩ := h.of_writing hwriting
  have hget' := getElem?_after_self hget e
  rw [play_cons, act_step_of_eq_some hstep, play_nil]
  refine ⟨rfl, rfl, hflights, hcalls, ?_, ?_, ⟨e.records, rfl, hrecords⟩, ?_⟩
  . exact fun hne => List.getElem?_set_ne hne.symm
  . exact phase?_eq_some hget' hfinish
  . apply notesOf_play_of_answered layer hget'
    rw [hfinish]
    exact Phase.answer?_finish _ _

/--
What a run makes of a store that fails. A request whose client stays is answered with an error exactly if its
handler was called and failed, or was not ready and never called, and with that error. The same run with looks
that find nothing instead of failing goes the same way, whatever numbers are drawn; and no matter if a write
fails or not, nothing of the response but its lifetime depends on it.
-/
theorem tolerance_of_play (layer : Layer) (store : σ) (clock systemTime : Time) (actions : List (Action σ))
    {last : Cache σ} (hlast : (start store clock systemTime).play layer actions = last) :
    (∀ {i : Nat} {task : Task} {answer : Answer}, last.tasks[i]? = some task → task.phase ≠ .cancelled →
        answer.isError = true → (task.phase.answer? = some answer
          ↔ (i ∈ last.callers ∧ HandlerFailed layer (start store clock systemTime) actions i answer)
            ∨ (i ∉ last.callers ∧ HandlerUnready layer (start store clock systemTime) actions i answer)))
      ∧ (∃ draw, (¬layer.ReportsByChance → draw = layer.entropy.draw)
        ∧ Twins last
          ((start ⟨store⟩ clock systemTime).play (layer.withDraw draw) (actions.map Action.lenient)))
      ∧ ∀ {i : Nat} {key : String} {guard : Option Guard} {entry : Entry} {error : StoreError} {f : σ → σ},
        last.phase? i = some (.writing key guard entry) →
        (Backend.set last.store last.systemTime key entry layer.policy.maxTtl).result
          = .error (.error error) →
        (Backend.set (f last.store) last.systemTime key entry layer.policy.maxTtl).result = .ok () →
        ∃ response,
          Tried layer i guard (.response .miss response) last (last.play layer [.step i])
            ∧ Tried layer i guard
              (.response .miss
                { response with headers := setMaxAge response.headers layer.policy.maxSecs })
              last (last.play layer [.change f, .step i]) := by
  subst hlast
  refine ⟨?_, ?_, ?_⟩
  . intro i task answer hget hphase herror
    rw [answer?_eq_error_iff rfl hget hphase herror]
    apply or_congr
    . exact (and_iff_right_of_imp (mem_callers_of_handlerFailed rfl)).symm
    . exact (and_iff_right_of_imp (not_mem_callers_of_handlerUnready List.not_mem_nil)).symm
  . obtain ⟨draw, hdraw, hcoupled⟩ :=
      layer.exists_coupled ((start store clock systemTime).play layer actions).history
    exact ⟨draw, hdraw, (Twins.start store clock systemTime).play actions hcoupled⟩
  . intro i key guard entry error f hphase hfails hworks
    have hfailed := tried_of_writing layer hphase
    have hwrote := tried_of_writing layer
      (c := ((start store clock systemTime).play layer actions).act layer (.change f)) hphase
    rw [hfails] at hfailed
    simp only [act, hworks] at hwrote
    exact ⟨layer.replay entry false, hfailed, hwrote.clock_eq, hwrote.systemTime_eq, hwrote.flights_eq,
      hwrote.calls_eq, hwrote.others_eq, hwrote.phase?_eq, hwrote.history_eq, hwrote.ends⟩

end

def brokenStore : Interruptible MemoryStore :=
  ⟨MemoryStore.empty, ⟨some "", some ""⟩⟩

/-- A request of no particular kind, whose handler is not ready when it is to be called. -/
def Job.refused : Job :=
  ⟨⟨"GET", .ofPath ['/'], []⟩, ⟨none, some "", 0, fun _ => .ok .empty⟩⟩

def visit (job : Job) (steps : Nat) : List (Action (Interruptible MemoryStore)) :=
  .enlist job :: List.replicate steps (.step 0)

theorem not_reportsByChance_sample (singleFlight : Bool) : ¬(Layer.sample singleFlight).ReportsByChance := by
  rintro ⟨draw, draw', hne⟩
  exact hne rfl

theorem result_set_of_outage {σ : Type} [Backend σ] {s : Interruptible σ} {reason : String}
    (houtage : s.outage.set = some reason) (now : Time) (key : String) (entry : Entry) (ttl : Duration) :
    (Backend.set s now key entry ttl).result = .error (.error (.unavailable reason)) := by
  simp only [Backend.set, houtage]

theorem result_set_interrupt_none (s : Interruptible MemoryStore) {now : Time} {ttl : Duration}
    (hexpires : (now.add? ttl).isSome = true) (key : String) (entry : Entry) :
    (Backend.set (s.interrupt .none) now key entry ttl).result = .ok () := by
  obtain ⟨expiresAt, hsome⟩ := Option.isSome_iff_exists.1 hexpires
  simp only [Backend.set, Interruptible.interrupt, Outage.none, MemoryStore.write, hsome]
  cases ttl.isZero with
  | true => rfl
  | false => rfl

/--
Over a broken store a leader fails with its handler, or if that is not ready for the call, and otherwise goes
the way it would go if there was nothing in the store. It is answered if its handler answers, with a lifetime if
the store is repaired in time.
-/
theorem tolerance_of_brokenStore :
    HandlerFailed (.sample true) (start brokenStore .epoch .epoch) (visit (.sample 0 (.error "")) 8) 0
        (.failed "")
      ∧ HandlerUnready (.sample true) (start brokenStore .epoch .epoch) (visit .refused 8) 0 (.failed "")
      ∧ Twins ((start brokenStore .epoch .epoch).play (.sample true) (visit (.sample 0 (.ok .empty)) 8))
        ((start ⟨brokenStore⟩ .epoch .epoch).play (.sample true)
          ((visit (.sample 0 (.ok .empty)) 8).map Action.lenient))
      ∧ ∃ guard response last,
        last = (start brokenStore .epoch .epoch).play (.sample true) (visit (.sample 0 (.ok .empty)) 8)
          ∧ Tried (.sample true) 0 guard (.response .miss response) last (last.play (.sample true) [.step 0])
          ∧ Tried (.sample true) 0 guard
            (.response .miss { response with headers := setMaxAge response.headers 60 }) last
            (last.play (.sample true) [.change (Interruptible.interrupt .none), .step 0]) := by
  refine ⟨?_, ?_, ?_, ?_⟩
  . have hdone : ((start brokenStore .epoch .epoch).play (.sample true)
        (visit (.sample 0 (.error "")) 8)).phase? 0 = some (.done (.failed "")) := by
      decide +kernel
    have hcalled : 0 ∈ ((start brokenStore .epoch .epoch).play (.sample true)
        (visit (.sample 0 (.error "")) 8)).callers := by
      decide +kernel
    obtain ⟨task, hget, hphase⟩ := Option.map_eq_some_iff.1 hdone
    obtain ⟨herror, -, -⟩ := tolerance_of_play (.sample true) brokenStore .epoch .epoch
      (visit (.sample 0 (.error "")) 8) rfl
    have hreason := (herror hget (by rw [hphase]; nofun) rfl).1 (by rw [hphase]; rfl)
    exact (hreason.resolve_right fun hunready => hunready.1 hcalled).2
  . have hdone : ((start brokenStore .epoch .epoch).play (.sample true)
        (visit .refused 8)).phase? 0 = some (.done (.failed "")) := by
      decide +kernel
    have hcallers : 0 ∉ ((start brokenStore .epoch .epoch).play (.sample true)
        (visit .refused 8)).callers := by
      decide +kernel
    obtain ⟨task, hget, hphase⟩ := Option.map_eq_some_iff.1 hdone
    obtain ⟨herror, -, -⟩ := tolerance_of_play (.sample true) brokenStore .epoch .epoch
      (visit .refused 8) rfl
    have hreason := (herror hget (by rw [hphase]; nofun) rfl).1 (by rw [hphase]; rfl)
    exact (hreason.resolve_left fun hfailed => hcallers hfailed.1).2
  . obtain ⟨-, ⟨draw, hdraw, htwins⟩, -⟩ := tolerance_of_play (.sample true) brokenStore .epoch .epoch
      (visit (.sample 0 (.ok .empty)) 8) rfl
    rw [hdraw (not_reportsByChance_sample true)] at htwins
    exact htwins
  . have hwrites : (((start brokenStore .epoch .epoch).play (.sample true)
        (visit (.sample 0 (.ok .empty)) 8)).phase? 0).any Phase.isWriting = true := by
      decide +kernel
    have houtage : ((start brokenStore .epoch .epoch).play (.sample true)
        (visit (.sample 0 (.ok .empty)) 8)).store.outage.set = some "" := by
      decide +kernel
    have hexpires : (((start brokenStore .epoch .epoch).play (.sample true)
        (visit (.sample 0 (.ok .empty)) 8)).systemTime.add? (Layer.sample true).policy.maxTtl).isSome
          = true := by
      decide +kernel
    obtain ⟨key, guard, entry, hphase⟩ := exists_of_isWriting hwrites
    obtain ⟨-, -, hwrite⟩ := tolerance_of_play (.sample true) brokenStore .epoch .epoch
      (visit (.sample 0 (.ok .empty)) 8) rfl
    obtain ⟨response, hfailed, hwrote⟩ := hwrite hphase (result_set_of_outage houtage _ _ _ _)
      (result_set_interrupt_none _ hexpires _ _)
    exact ⟨guard, response, _, rfl, hfailed, hwrote⟩

/-- A request whose handler is not ready for the call ends in an error, and its handler never failed. -/
theorem failed_of_refused :
    let first := start MemoryStore.empty .epoch .epoch
    let actions := .enlist .refused :: List.replicate 4 (.step 0)
    (first.play (.sample false) actions).phase? 0 = some (.done (.failed ""))
      ∧ (first.play (.sample false) actions).callers = []
      ∧ ∀ answer, ¬HandlerFailed (.sample false) first actions 0 answer := by
  intro first actions
  have hcallers : (first.play (.sample false) actions).callers = [] := by decide +kernel
  refine ⟨by decide +kernel, hcallers, ?_⟩
  intro answer hfailed
  have hcalled := mem_callers_of_handlerFailed rfl hfailed
  rw [hcallers] at hcalled
  nomatch hcalled

end ResponseCache
