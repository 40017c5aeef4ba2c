import ResponseCache.Proofs.Layer.Calls
import ResponseCache.Proofs.Layer.Provenance
import ResponseCache.Proofs.Layer.Serving
import ResponseCache.Proofs.Layer.Tolerance
import ResponseCache.Proofs.Layer.Writes
import ResponseCache.Proofs.Replay

/-!
This module contains that a cache hands on what the handlers answer. The response to a request whose handler
was run replays what the handler answered, and so does every whole response that is made of an entry later
on, whichever store the entry has been in.
-/

namespace ResponseCache

open Cache Backend.Faithful

def Record.write? : Record → Option (Entry × Bool)
  | .wrote _ entry _ success => some (entry, success)
  | _ => none

section

variable {σ : Type} {layer : Layer} {c c' : Cache σ} {i j : Nat} {task : Task} {job : Job} {reply : Reply}
  {snapshot : Snapshot} {entry : Entry} {answer : Answer} {phase : Phase} {e : Effect σ}

namespace Cache

/-- The entries that were written on behalf of a request, and with what success. -/
def writesOf (c : Cache σ) (i : Nat) : List (Entry × Bool) :=
  (c.notesOf i).filterMap fun note => note.record.write?

def HasStored (c : Cache σ) (i : Nat) : Prop :=
  ∃ key entry ttl, ⟨i, .wrote key entry ttl true⟩ ∈ c.history

theorem writesOf_after_self (c : Cache σ) (i : Nat) (task : Task) (e : Effect σ) :
    (c.after i task e).writesOf i = c.writesOf i ++ e.records.filterMap Record.write? := by
  unfold writesOf
  rw [notesOf_after_self, List.filterMap_append, List.filterMap_map]
  rfl

theorem writesOf_after_of_ne (c : Cache σ) (hne : j ≠ i) (task : Task) (e : Effect σ) :
    (c.after j task e).writesOf i = c.writesOf i := by
  unfold writesOf
  rw [notesOf_after c task fun heq => absurd heq hne]

theorem mem_writesOf {success : Bool} :
    (entry, success) ∈ c.writesOf i ↔ ∃ key ttl, ⟨i, .wrote key entry ttl success⟩ ∈ c.history := by
  unfold writesOf notesOf
  rw [List.mem_filterMap]
  constructor
  . rintro ⟨⟨task, record⟩, hmem, hwrite⟩
    obtain ⟨hnote, htask⟩ := List.mem_filter.1 hmem
    obtain rfl : task = i := of_decide_eq_true htask
    cases record with
    | wrote key written ttl success =>
      obtain ⟨rfl, rfl⟩ := Prod.mk.inj (Option.some.inj hwrite)
      exact ⟨key, ttl, hnote⟩
    | _ => nomatch hwrite
  . rintro ⟨key, ttl, hmem⟩
    exact ⟨_, List.mem_filter.2 ⟨hmem, decide_eq_true rfl⟩, rfl⟩

theorem hasStored_iff : c.HasStored i ↔ ∃ entry, (entry, true) ∈ c.writesOf i := by
  simp only [mem_writesOf]
  constructor
  . rintro ⟨key, entry, ttl, hmem⟩
    exact ⟨entry, key, ttl, hmem⟩
  . rintro ⟨entry, key, ttl, hmem⟩
    exact ⟨key, entry, ttl, hmem⟩

theorem filterMap_write?_reporting (c : Cache σ) (layer : Layer) (records : List Record) (event : Event) :
    (c.reporting layer records event).filterMap Record.write? = records.filterMap Record.write? := by
  unfold reporting Layer.report
  rw [List.filterMap_append]
  split
  next => exact List.append_nil _
  next => exact List.append_nil _

theorem filterMap_write?_records {α : Type} (access : Access σ α) (first : List Record) :
    (access.records first).filterMap Record.write? = first.filterMap Record.write? := by
  unfold Access.records
  rw [List.filterMap_append, List.filterMap_map, List.append_right_eq_self, List.filterMap_eq_nil_iff]
  exact fun _ _ => rfl

theorem filterMap_write?_wrote {α : Type} (c : Cache σ) (layer : Layer) (access : Access σ α) (key : String)
    (entry : Entry) (ttl : Duration) (success : Bool) {rest : List Record}
    (hrest : rest.filterMap Record.write? = []) (event : Event) :
    (c.reporting layer (access.records [.wrote key entry ttl success] ++ rest) event).filterMap Record.write?
      = [(entry, success)] := by
  rw [filterMap_write?_reporting, List.filterMap_append, filterMap_write?_records, hrest]
  rfl

end Cache

/-- What the handler of a request answered, by the number of its call. -/
def Gave (c : Cache σ) (i : Nat) (job : Job) (reply : Reply) : Prop :=
  ∃ n, c.callers[n]? = some i ∧ job.handler.answer (n + 1) = .ok reply

/-- The entry that was made of what the handler of a request answered. -/
structure Made (layer : Layer) (c : Cache σ) (i : Nat) (job : Job) (reply : Reply) (entry : Entry) : Prop where
  gave : Gave c i job reply
  entry_eq : ∃ snapshot generated, reply.capture = .ok snapshot
    ∧ entry = snapshot.toEntry (EntityTag.generate (layer.tagKey job) snapshot.body generated) generated

/-- What is known of the answer to a request whose handler was run, and of its write. -/
def Told (layer : Layer) (c : Cache σ) (i : Nat) (job : Job) (answer : Answer) : Prop :=
  ∀ outcome response, answer = .response outcome response →
    (c.writesOf i = [] ∧ (outcome = .hit
        ∨ ∃ reply entry, Made layer c i job reply entry ∧ response = layer.replay entry false))
      ∨ (outcome = .miss ∧ ∃ reply entry stored, c.writesOf i = [(entry, stored)]
        ∧ Made layer c i job reply entry ∧ response = layer.replay entry stored)

/-- What is known of a request and its write by the point that it has come to. -/
def Documented (layer : Layer) (c : Cache σ) (i : Nat) (job : Job) : Phase → Prop
  | .running _ _ _ call => c.writesOf i = [] ∧ ∃ n, call = n + 1 ∧ c.callers[n]? = some i
  | .stamping _ _ snapshot =>
    c.writesOf i = [] ∧ ∃ reply, Gave c i job reply ∧ reply.capture = .ok snapshot
  | .writing _ _ entry => c.writesOf i = [] ∧ ∃ reply, Made layer c i job reply entry
  | .landing _ answer => Told layer c i job answer
  | .done answer => Told layer c i job answer
  | .cancelled => True
  | _ => c.writesOf i = []

/-- That the answers to all requests whose handlers were run are as the handlers gave them. -/
structure Chronicled (layer : Layer) (c : Cache σ) : Prop where
  calls_eq : c.calls = c.callers.length
  task_lt : ∀ {note}, note ∈ c.history → note.task < c.tasks.length
  documented : ∀ {i task}, c.tasks[i]? = some task → Documented layer c i task.job task.phase

theorem Gave.mono (h : Gave c i job reply) (hcallers : c.callers <+: c'.callers) : Gave c' i job reply := by
  obtain ⟨n, hcaller, hanswer⟩ := h
  exact ⟨n, getElem?_of_isPrefix hcallers hcaller, hanswer⟩

theorem Made.mono (h : Made layer c i job reply entry) (hcallers : c.callers <+: c'.callers) :
    Made layer c' i job reply entry :=
  ⟨h.gave.mono hcallers, h.entry_eq⟩

/-- An entry that goes back to a request was made of what the handler of the request answered. -/
theorem Origin.exists_made {key : String} {trail : List Note} (h : Origin layer c i job key entry trail) :
    ∃ reply, Made layer c i job reply entry := by
  obtain ⟨n, snapshot, generated, hcaller, hanswer, hentry⟩ := h.answered
  cases hreply : job.handler.answer (n + 1) with
  | error message =>
    rw [hreply] at hanswer
    nomatch hanswer
  | ok reply =>
    rw [hreply] at hanswer
    exact ⟨reply, ⟨n, hcaller, hreply⟩, snapshot, generated, hanswer, hentry⟩

theorem Made.ofString?_etag (h : Made layer c i job reply entry) :
    ∃ tag, HeaderValue.ofString? entry.etag = some tag := by
  obtain ⟨snapshot, generated, -, rfl⟩ := h.entry_eq
  obtain ⟨tag, htag, -⟩ := EntityTag.ofString?_generate (layer.tagKey job) snapshot.body generated
  exact ⟨tag, htag⟩

theorem Told.mono (h : Told layer c i job answer) (hcallers : c.callers <+: c'.callers)
    (hwrites : c'.writesOf i = c.writesOf i) : Told layer c' i job answer := by
  intro outcome response hanswer
  rw [hwrites]
  obtain ⟨hnil, hhit | ⟨reply, entry, hmade, hresponse⟩⟩ |
    ⟨hmiss, reply, entry, stored, hone, hmade, hresponse⟩ := h outcome response hanswer
  . exact .inl ⟨hnil, .inl hhit⟩
  . exact .inl ⟨hnil, .inr ⟨reply, entry, hmade.mono hcallers, hresponse⟩⟩
  . exact .inr ⟨hmiss, reply, entry, stored, hone, hmade.mono hcallers, hresponse⟩

theorem told_of_ne (answer : Answer) (hne : ∀ outcome response, answer ≠ .response outcome response) :
    Told layer c i job answer :=
  fun _ _ hanswer => absurd hanswer (hne _ _)

theorem documented_finish (h : Told layer c i job answer) (guard : Option Guard) :
    Documented layer c i job (.finish guard answer) := by
  cases guard with
  | none => exact h
  | some guard => exact h

namespace Documented

theorem mono (h : Documented layer c i job phase) (hcallers : c.callers <+: c'.callers)
    (hwrites : c'.writesOf i = c.writesOf i) : Documented layer c' i job phase := by
  cases phase with
  | running decision guard pauses call =>
    obtain ⟨hnil, n, hcall, hcaller⟩ := h
    exact ⟨hwrites.trans hnil, n, hcall, getElem?_of_isPrefix hcallers hcaller⟩
  | stamping decision guard snapshot =>
    obtain ⟨hnil, reply, hgave, hcapture⟩ := h
    exact ⟨hwrites.trans hnil, reply, hgave.mono hcallers, hcapture⟩
  | writing key guard entry =>
    obtain ⟨hnil, reply, hmade⟩ := h
    exact ⟨hwrites.trans hnil, reply, hmade.mono hcallers⟩
  | landing guard answer => exact Told.mono h hcallers hwrites
  | done answer => exact Told.mono h hcallers hwrites
  | cancelled => trivial
  | _ => exact hwrites.trans h

theorem writesOf_eq_nil (h : Documented layer c i job phase) (hleft : phase.writesLeft = 1) :
    c.writesOf i = [] := by
  cases phase with
  | running decision guard pauses call => exact h.1
  | stamping decision guard snapshot => exact h.1
  | writing key guard entry => exact h.1
  | landing guard answer => nomatch hleft
  | done answer => nomatch hleft
  | cancelled => nomatch hleft
  | _ => exact h

end Documented

end

section

variable {σ : Type} [Backend σ] {layer : Layer} {c c' : Cache σ} {i : Nat} {task : Task} {e : Effect σ}

theorem Transition.filterMap_write? (h : Transition layer c i task e) (hnot : task.phase.isWriting = false) :
    e.records.filterMap Record.write? = [] := by
  cases h with
  | wrote hphase =>
    rw [hphase] at hnot
    nomatch hnot
  | writeFailed hphase =>
    rw [hphase] at hnot
    nomatch hnot
  | writeAborted hphase =>
    rw [hphase] at hnot
    nomatch hnot
  | foundExpired => exact filterMap_write?_records _ _
  | looked => exact filterMap_write?_records _ _
  | lookFailed =>
    refine (filterMap_write?_reporting _ _ _ _).trans ?_
    rw [List.filterMap_append, filterMap_write?_records]
    rfl
  | hit =>
    unfold stay deciding
    dsimp only
    split <;> rfl
  | served => exact filterMap_write?_reporting _ _ _ _
  | refused => exact filterMap_write?_reporting _ _ _ _
  | failed => exact filterMap_write?_reporting _ _ _ _
  | storable => exact filterMap_write?_reporting _ _ _ _
  | unstorable => exact filterMap_write?_reporting _ _ _ _
  | _ => rfl

namespace Chronicled

theorem documented_of_transition (hc : Chronicled layer c) (hget : c.tasks[i]? = some task)
    (h : Transition layer c i task e) :
    Documented layer (c.after i task e) i task.job e.phase := by
  have hold := hc.documented hget
  have hcallers := callers_of_grows (grows_after hget e)
  have hafter := writesOf_after_self c i task e
  have hquiet (hleft : task.phase.writesLeft = 1) (hnot : task.phase.isWriting = false) :
      (c.after i task e).writesOf i = [] := by
    rw [hafter, hold.writesOf_eq_nil hleft, h.filterMap_write? hnot]
    rfl
  cases h with
  | unready => exact told_of_ne (.unready _) fun _ _ => nofun
  | served hphase =>
    rw [hphase] at hquiet
    exact fun _ _ hanswer => .inl ⟨hquiet rfl rfl, .inl (Answer.response.inj hanswer).1.symm⟩
  | refused => exact documented_finish (told_of_ne (.failed _) fun _ _ => nofun) _
  | failed => exact documented_finish (told_of_ne (.failed _) fun _ _ => nofun) _
  | writeAborted => exact documented_finish (told_of_ne .aborted fun _ _ => nofun) _
  | called hphase hready =>
    rw [hphase] at hquiet
    refine ⟨hquiet rfl rfl, c.calls, rfl, ?_⟩
    -- The number of a call counts the calls before it.
    rw [callers_after, hc.calls_eq]
    exact List.getElem?_concat_length
  | paused hphase =>
    rw [hphase] at hold hquiet
    obtain ⟨-, n, hcall, hcaller⟩ := hold
    exact ⟨hquiet rfl rfl, n, hcall, getElem?_of_isPrefix hcallers hcaller⟩
  | @answered _ _ call snapshot hphase hanswer =>
    rw [hphase] at hold hquiet
    obtain ⟨-, n, rfl, hcaller⟩ := hold
    cases hreply : task.job.handler.answer (n + 1) with
    | error message =>
      rw [hreply] at hanswer
      nomatch hanswer
    | ok reply =>
      rw [hreply] at hanswer
      exact ⟨hquiet rfl rfl, reply, ⟨n, getElem?_of_isPrefix hcallers hcaller, hreply⟩, hanswer⟩
  | storable hphase hkey =>
    rw [hphase] at hold hquiet
    obtain ⟨-, reply, hgave, hcapture⟩ := hold
    exact ⟨hquiet rfl rfl, reply, hgave.mono hcallers, _, c.now layer, hcapture, rfl⟩
  | unstorable hphase hkey =>
    rw [hphase] at hold hquiet
    obtain ⟨-, reply, hgave, hcapture⟩ := hold
    apply documented_finish
    intro outcome response hanswer
    exact .inl ⟨hquiet rfl rfl, .inr ⟨reply, _, ⟨hgave.mono hcallers, _, c.now layer, hcapture, rfl⟩,
      (Answer.response.inj hanswer).2.symm⟩⟩
  | wrote hphase hresult =>
    rw [hphase] at hold
    obtain ⟨hnil, reply, hmade⟩ := hold
    apply documented_finish
    intro outcome response hanswer
    obtain ⟨houtcome, hresponse⟩ := Answer.response.inj hanswer
    refine .inr ⟨houtcome.symm, reply, _, true, ?_, hmade.mono hcallers, hresponse.symm⟩
    rw [hafter, hnil, List.nil_append]
    simp only [stay]
    apply filterMap_write?_wrote
    rfl
  | writeFailed hphase hresult =>
    rw [hphase] at hold
    obtain ⟨hnil, reply, hmade⟩ := hold
    apply documented_finish
    intro outcome response hanswer
    obtain ⟨houtcome, hresponse⟩ := Answer.response.inj hanswer
    refine .inr ⟨houtcome.symm, reply, _, false, ?_, hmade.mono hcallers, hresponse.symm⟩
    rw [hafter, hnil, List.nil_append]
    simp only [stay]
    apply filterMap_write?_wrote
    rfl
  | landed hphase =>
    rw [hphase] at hold
    exact Told.mono hold hcallers (hafter.trans (List.append_nil _))
  | _ =>
    rw [‹task.phase = _›] at hquiet
    exact hquiet rfl rfl

omit [Backend σ] in
theorem task_lt_after (hc : Chronicled layer c) (hget : c.tasks[i]? = some task) (e : Effect σ) {note : Note}
    (hmem : note ∈ (c.after i task e).history) : note.task < (c.after i task e).tasks.length := by
  unfold after at hmem ⊢
  rw [List.length_set]
  cases List.mem_append.1 hmem with
  | inl hold => exact hc.task_lt hold
  | inr hnew =>
    obtain ⟨record, -, rfl⟩ := List.mem_map.1 hnew
    exact (List.getElem?_eq_some_iff.1 hget).1

theorem after_transition (hc : Chronicled layer c) (hget : c.tasks[i]? = some task)
    (h : Transition layer c i task e) : Chronicled layer (c.after i task e) where
  calls_eq := by
    have hcalls : (c.after i task e).calls = e.calls := rfl
    rw [hcalls, callers_after, List.length_append, List.length_replicate, h.calls_eq, hc.calls_eq]
  task_lt := hc.task_lt_after hget e
  documented := by
    intro k task' hget'
    cases getElem?_after e hget' with
    | inl hself =>
      obtain ⟨rfl, rfl⟩ := hself
      exact hc.documented_of_transition hget h
    | inr hother =>
      exact (hc.documented hother.2).mono (callers_of_grows (grows_after hget e))
        (writesOf_after_of_ne c (Ne.symm hother.1) task e)

omit [Backend σ] in
theorem after_leave (hc : Chronicled layer c) (hget : c.tasks[i]? = some task) :
    Chronicled layer (c.after i task (c.leave i task)) where
  calls_eq := by
    rw [callers_after]
    exact hc.calls_eq.trans (congrArg List.length (List.append_nil _).symm)
  task_lt := hc.task_lt_after hget _
  documented := by
    intro k task' hget'
    cases getElem?_after (c.leave i task) hget' with
    | inl hself =>
      obtain ⟨rfl, rfl⟩ := hself
      trivial
    | inr hother =>
      exact (hc.documented hother.2).mono (callers_of_grows (grows_after hget _))
        (writesOf_after_of_ne c (Ne.symm hother.1) task _)

omit [Backend σ] in
theorem enlist (hc : Chronicled layer c) (job : Job) : Chronicled layer (c.enlist job).1 where
  calls_eq := hc.calls_eq
  task_lt := by
    intro note hmem
    unfold Cache.enlist
    rw [List.length_append]
    exact Nat.lt_add_right _ (hc.task_lt hmem)
  documented := by
    intro k task' hget
    cases getElem?_enlist hget with
    | inl hold => exact (hc.documented hold).mono List.prefix_rfl rfl
    | inr hnew =>
      -- Nothing happened yet on behalf of a number that no request had.
      obtain ⟨rfl, rfl⟩ := hnew
      show (c.enlist job).1.writesOf c.tasks.length = []
      rw [List.eq_nil_iff_forall_not_mem]
      rintro ⟨entry, success⟩ hmem
      obtain ⟨key, ttl, hnote⟩ := mem_writesOf.1 hmem
      exact absurd (hc.task_lt hnote) (Nat.lt_irrefl _)

theorem move {drift : σ → σ → Prop} (hc : Chronicled layer c) (hmove : Move layer drift c c') :
    Chronicled layer c' := by
  apply hmove.rule hc hc.enlist
  . intro i task e hget h
    exact hc.after_transition hget h
  . intro i task hget
    exact hc.after_leave hget
  . intro store clock systemTime _
    exact ⟨hc.calls_eq, hc.task_lt, fun hget => (hc.documented hget).mono List.prefix_rfl rfl⟩

omit [Backend σ] in
theorem start (store : σ) (clock systemTime : Time) : Chronicled layer (Cache.start store clock systemTime) where
  calls_eq := rfl
  task_lt hmem := nomatch hmem
  documented hget := nomatch hget

end Chronicled

theorem not_isStray_of_reachable {drift : σ → σ → Prop} {first : Cache σ} (hfirst : first.tasks = [])
    (hreach : Reachable layer drift first c) (hget : c.tasks[i]? = some task) : task.phase.isStray = false := by
  obtain ⟨actions, rfl⟩ := hreach.exists_play
  exact not_isStray_of_play hfirst hget

theorem Transition.stamping_of_running (h : Transition layer c i task e) {decision : Decision}
    {guard : Option Guard} {call : Nat} {snapshot : Snapshot}
    (hanswer : (task.job.handler.answer call >>= Reply.capture) = .ok snapshot) :
    task.phase = .running decision guard 0 call → e.phase = .stamping decision guard snapshot := by
  cases h with
  | answered hphase hanswer' =>
    intro hrunning
    obtain ⟨rfl, rfl, -, rfl⟩ := Phase.running.inj (hphase.symm.trans hrunning)
    obtain rfl := Except.ok.inj (hanswer'.symm.trans hanswer)
    rfl
  | failed hphase hfails =>
    intro hrunning
    obtain ⟨rfl, rfl, -, rfl⟩ := Phase.running.inj (hphase.symm.trans hrunning)
    nomatch hfails.symm.trans hanswer
  | _ =>
    rw [‹task.phase = _›]
    nofun

theorem Transition.cases_of_stamping (h : Transition layer c i task e) {decision : Decision}
    {guard : Option Guard} {snapshot : Snapshot} :
    task.phase = .stamping decision guard snapshot →
      (∃ response, e.phase.answer? = some (.response decision.outcome response))
        ∨ decision = .miss ∧ ∃ key entry, e.phase = .writing key guard entry := by
  cases h with
  | storable hphase hkey =>
    intro hstamping
    obtain ⟨rfl, rfl, rfl⟩ := Phase.stamping.inj (hphase.symm.trans hstamping)
    exact .inr ⟨(Layer.storageKey?_eq_some.1 hkey).2.1, _, _, rfl⟩
  | unstorable hphase hkey =>
    intro hstamping
    obtain ⟨rfl, rfl, rfl⟩ := Phase.stamping.inj (hphase.symm.trans hstamping)
    exact .inl ⟨_, Phase.answer?_finish _ _⟩
  | _ =>
    rw [‹task.phase = _›]
    nofun

/-- The answer to a request after so many more steps, if it has one by then. -/
def Cache.answerIn? (c : Cache σ) (layer : Layer) (i steps : Nat) : Option Answer :=
  ((c.play layer (List.replicate steps (.step i))).phase? i).bind Phase.answer?

theorem answerIn?_succ {steps : Nat} (hstep : c.step layer i = some c') :
    c.answerIn? layer i (steps + 1) = c'.answerIn? layer i steps := by
  unfold answerIn?
  rw [List.replicate_succ, play_cons, act_step_of_eq_some hstep]

theorem answerIn?_zero (hget : c.tasks[i]? = some task) : c.answerIn? layer i 0 = task.phase.answer? := by
  unfold answerIn?
  rw [List.replicate_zero, play_nil, phase?_eq_some hget rfl, Option.bind_some]

theorem exists_answerIn?_of_writing (layer : Layer) (hget : c.tasks[i]? = some task) {key : String}
    {guard : Option Guard} {entry : Entry} (hwriting : task.phase = .writing key guard entry) :
    ∃ answer, c.answerIn? layer i 1 = some answer
      ∧ (answer = .aborted ∨ ∃ response, answer = .response .miss response) := by
  obtain ⟨e, h, hstep⟩ := exists_transition_of_isReady layer hget (by rw [hwriting]; rfl)
  refine ⟨layer.written entry (Backend.set c.store c.systemTime key entry layer.policy.maxTtl).result, ?_, ?_⟩
  . rw [answerIn?_succ hstep, answerIn?_zero (getElem?_after_self hget e), (h.of_writing hwriting).1]
    exact Phase.answer?_finish _ _
  . unfold Layer.written
    split
    next => exact .inr ⟨_, rfl⟩
    next => exact .inr ⟨_, rfl⟩
    next => exact .inl rfl

theorem exists_answerIn?_of_running (layer : Layer) (hget : c.tasks[i]? = some task) {decision : Decision}
    {guard : Option Guard} {call : Nat} {reply : Reply} (hrunning : task.phase = .running decision guard 0 call)
    (hanswer : task.job.handler.answer call = .ok reply)
    (hwhole : ∀ frame ∈ reply.frames, frame.isError = false) :
    ∃ steps answer, c.answerIn? layer i steps = some answer
      ∧ (answer = .aborted ∨ ∃ response, answer = .response decision.outcome response) := by
  obtain ⟨snapshot, hcapture⟩ :
      ∃ snapshot, (task.job.handler.answer call >>= Reply.capture) = .ok snapshot := by
    rw [hanswer]
    exact ⟨_, Reply.capture_eq_ok_iff.2 ⟨hwhole, rfl⟩⟩
  obtain ⟨e, h, hstep⟩ := exists_transition_of_isReady layer hget (by rw [hrunning]; rfl)
  have hget' := getElem?_after_self hget e
  have hstamping := h.stamping_of_running hcapture hrunning
  obtain ⟨e', h', hstep'⟩ := exists_transition_of_isReady layer hget' (by rw [hstamping]; rfl)
  obtain ⟨response, hresponse⟩ | ⟨rfl, key, entry, hwriting⟩ := h'.cases_of_stamping hstamping
  . refine ⟨2, _, ?_, .inr ⟨response, rfl⟩⟩
    rw [answerIn?_succ hstep, answerIn?_succ hstep', answerIn?_zero (getElem?_after_self hget' e')]
    exact hresponse
  . obtain ⟨answer, hin, hkind⟩ :=
      exists_answerIn?_of_writing layer (getElem?_after_self hget' e') hwriting
    refine ⟨3, answer, ?_, hkind⟩
    rw [answerIn?_succ hstep, answerIn?_succ hstep']
    exact hin

end

section

variable {σ : Type} {layer : Layer} {c : Cache σ} {i j : Nat} {task : Task} {job source : Job} {reply : Reply}
  {entry : Entry} {tag : HeaderValue} {response : Response}

/--
A response that replays what the handler of its request answered, with the tag that was made for it, and
with a lifetime exactly if it was stored.
-/
def HandedOn (layer : Layer) (c : Cache σ) (i : Nat) (job : Job) (response : Response) : Prop :=
  ∃ reply entry tag lifetime, Made layer c i job reply entry ∧ HeaderValue.ofString? entry.etag = some tag
    ∧ (c.HasStored i → lifetime = some layer.policy.maxSecs) ∧ (¬c.HasStored i → lifetime = none)
    ∧ Echoes reply tag lifetime response

/--
A response that is made of what is kept of an entry, which a request wrote. If it is whole it replays what
the handler of that request answered, just as the response to that request does.
-/
def HandedOut [Backend σ] [Backend.Faithful σ] (layer : Layer) (c : Cache σ) (i : Nat) (job : Job)
    (response : Response) : Prop :=
  ∃ key found j source reply entry tag success, layer.keyOf job = some key
    ∧ c.jobs[j]? = some source ∧ layer.keyOf source = some key
    ∧ Made layer c j source reply entry ∧ HeaderValue.ofString? entry.etag = some tag
    ∧ [⟨j, .wrote key entry layer.policy.maxTtl success⟩, ⟨i, .read key (.ok (some found))⟩].Sublist c.history
    ∧ found = kept σ entry
    ∧ (Layer.serve.isRevalidated job entry = false → (∃ secs, Echoes reply tag (some secs) response)
      ∧ ∀ {task outcome original}, c.tasks[j]? = some task → task.phase = .done (.response outcome original) →
        outcome = .miss ∧ SameButLifetime reply original response)

theorem Made.echoes_replay (h : Made layer c j job reply entry)
    (htag : HeaderValue.ofString? entry.etag = some tag) (stored : Bool) :
    Echoes reply tag (if stored then some layer.policy.maxSecs else none) (layer.replay entry stored) := by
  obtain ⟨snapshot, generated, hcapture, rfl⟩ := h.entry_eq
  exact .replay layer hcapture htag generated stored

theorem Chronicled.handedOn (hc : Chronicled layer c) (hget : c.tasks[i]? = some task) {outcome : Outcome}
    (hphase : task.phase = .done (.response outcome response)) (hne : outcome ≠ .hit) :
    HandedOn layer c i task.job response := by
  have hdocumented := hc.documented hget
  rw [hphase] at hdocumented
  obtain ⟨hnil, hhit | ⟨reply, entry, hmade, rfl⟩⟩ | ⟨-, reply, entry, stored, hone, hmade, rfl⟩ :=
    hdocumented outcome response rfl
  . exact absurd hhit hne
  . obtain ⟨tag, htag⟩ := hmade.ofString?_etag
    refine ⟨reply, entry, tag, none, hmade, htag, ?_, fun _ => rfl, hmade.echoes_replay htag false⟩
    rw [hasStored_iff, hnil]
    rintro ⟨written, hmem⟩
    nomatch hmem
  . obtain ⟨tag, htag⟩ := hmade.ofString?_etag
    refine ⟨reply, entry, tag, _, hmade, htag, ?_, ?_, hmade.echoes_replay htag stored⟩
    . rw [hasStored_iff, hone]
      rintro ⟨written, hmem⟩
      obtain ⟨-, rfl⟩ := Prod.mk.inj (List.mem_singleton.1 hmem)
      rfl
    . intro hnot
      cases stored with
      | false => rfl
      | true =>
        refine absurd (hasStored_iff.2 ⟨entry, ?_⟩) hnot
        rw [hone]
        exact List.mem_singleton_self _

variable [Backend σ] [Backend.Faithful σ]

theorem Made.echoes_serve (h : Made layer c j source reply entry)
    (htag : HeaderValue.ofString? entry.etag = some tag)
    (hfull : Layer.serve.isRevalidated job entry = false) (now : Time) :
    ∃ secs, Echoes reply tag (some secs) (layer.serve job (kept σ entry) now) := by
  obtain ⟨snapshot, generated, hcapture, rfl⟩ := h.entry_eq
  rw [kept_eq]
  exact ⟨_, .serve layer hcapture htag _ now hfull⟩

theorem handedOut_of_reachable {first : Cache σ} (hfirst : first.tasks = [])
    (htraceable : Traceable layer first) (hchronicled : Chronicled layer first)
    (hreach : Reachable layer Loses first c) (hget : c.tasks[i]? = some task)
    (hphase : task.phase = .done (.response .hit response)) : HandedOut layer c i task.job response := by
  -- Back to where the answer was made of an entry that was found.
  obtain ⟨before, old, e, hbefore, hon, hold, hjob, h, hnot, hdone⟩ :=
    hreach.entered (Q := fun phase => phase = .done (.response .hit response)) nofun nofun hfirst hget hphase
  obtain ⟨found, hserving, rfl⟩ := h.serving_of_hit (not_isStray_of_reachable hfirst hbefore hold) hdone
  have hjustified := (hbefore.invariant htraceable Traceable.move).justified hold
  rw [hserving] at hjustified
  obtain ⟨key, hkey, hwritten⟩ := hjustified
  obtain ⟨j, source, entry, success, horigin, rfl⟩ := hwritten.mono hon.grows
  rw [hjob] at hkey ⊢
  obtain ⟨reply, hmade⟩ := horigin.exists_made
  obtain ⟨tag, htag⟩ := hmade.ofString?_etag
  have hnotes := (List.sublist_cons_self _ _).trans ((List.sublist_cons_self _ _).trans horigin.trail_sublist)
  refine ⟨key, _, j, source, reply, entry, tag, success, hkey, horigin.job_eq, horigin.key_eq, hmade, htag,
    hnotes, rfl, ?_⟩
  intro hfull
  obtain ⟨secs, hecho⟩ := hmade.echoes_serve htag hfull (before.now layer)
  refine ⟨⟨secs, hecho⟩, ?_⟩
  intro task' outcome original hget' hanswered
  have hdocumented := (hreach.invariant hchronicled Chronicled.move).documented hget'
  rw [hanswered] at hdocumented
  have hmem : (entry, success) ∈ c.writesOf j := by
    rw [mem_writesOf]
    exact ⟨key, layer.policy.maxTtl, hnotes.subset List.mem_cons_self⟩
  obtain ⟨hnil, -⟩ | ⟨hmiss, -, other, stored, hone, -, rfl⟩ := hdocumented outcome original rfl
  . rw [hnil] at hmem
    nomatch hmem
  . rw [hone, List.mem_singleton] at hmem
    obtain ⟨rfl, rfl⟩ := Prod.mk.inj hmem
    exact ⟨hmiss, (hmade.echoes_replay htag success).sameButLifetime hecho⟩

end

/--
What becomes of what handlers answer. A response whose body came to its end is served, unless the store
aborts the request. The response to a request whose handler was run replays what the handler answered; and
so does every whole response made from a store in memory or on a server, just as the response to the
request that wrote the entry.
-/
theorem fidelity_of_reachable (layer : Layer) (clock systemTime : Time) :
    (∀ {σ : Type} [Backend σ] {c : Cache σ} {i : Nat} {task : Task} {decision : Decision}
        {guard : Option Guard} {call : Nat} {reply : Reply}, c.tasks[i]? = some task →
        task.phase = .running decision guard 0 call → task.job.handler.answer call = .ok reply →
        (∀ frame ∈ reply.frames, frame.isError = false) →
        ∃ steps answer, c.answerIn? layer i steps = some answer
          ∧ (answer = .aborted ∨ ∃ response, answer = .response decision.outcome response))
      ∧ (∀ {σ : Type} [Backend σ] {drift : σ → σ → Prop} {store : σ} {c : Cache σ} {i : Nat} {task : Task}
          {outcome : Outcome} {response : Response},
        Reachable layer drift (start store clock systemTime) c → c.tasks[i]? = some task →
        task.phase = .done (.response outcome response) → outcome ≠ .hit →
        HandedOn layer c i task.job response)
      ∧ (∀ {c : Cache (Unreliable MemoryStore)} {i : Nat} {task : Task} {response : Response},
        Reachable layer Loses (start (.working .empty) clock systemTime) c → c.tasks[i]? = some task →
        task.phase = .done (.response .hit response) → HandedOut layer c i task.job response)
      ∧ ∀ (keyspace : String) {c : Cache (Unreliable RedisStore)} {i : Nat} {task : Task}
          {response : Response},
        Reachable layer Loses (start (.working (.empty keyspace)) clock systemTime) c →
        c.tasks[i]? = some task → task.phase = .done (.response .hit response) →
        HandedOut layer c i task.job response := by
  refine ⟨?_, ?_, ?_, ?_⟩
  . intro σ _ c i task decision guard call reply hget hrunning hanswer hwhole
    exact exists_answerIn?_of_running layer hget hrunning hanswer hwhole
  . intro σ _ drift store c i task outcome response hreach hget hphase hne
    exact (hreach.invariant (.start store clock systemTime) Chronicled.move).handedOn hget hphase hne
  . intro c i task response hreach hget hphase
    exact handedOut_of_reachable rfl (.start MemoryStore.not_holds_empty clock systemTime)
      (.start _ clock systemTime) hreach hget hphase
  . intro keyspace c i task response hreach hget hphase
    exact handedOut_of_reachable rfl (.start (RedisStore.not_holds_empty keyspace) clock systemTime)
      (.start _ clock systemTime) hreach hget hphase

/-- A response with a field that is repeated, a tag of its own, and trailers between two pieces of its body. -/
def Reply.inPieces : Reply where
  status := .ok
  headers :=
    [(⟨"link", by decide⟩, ⟨[0x61], by decide⟩), (.etag, ⟨[0x62], by decide⟩),
      (⟨"link", by decide⟩, ⟨[0x63], by decide⟩)]
  frames := [.data [1, 2], .trailers [], .data [3]]
  bytes_lt := by decide

def twoRequestsInPieces {σ : Type} [Backend σ] (store : σ) : Cache σ :=
  let c := ((start store .epoch .epoch).request (.sample false) (.sample 0 (.ok .inPieces))).1
  (c.request (.sample false) (.sample 0 (.ok .empty))).1

theorem reachable_twoRequestsInPieces {σ : Type} [Backend σ] (drift : σ → σ → Prop) (store : σ) :
    Reachable (.sample false) drift (start store .epoch .epoch) (twoRequestsInPieces store) :=
  (Reachable.start.request _).request _

def Phase.isAnswering : Phase → Bool
  | .running _ _ 0 _ => true
  | _ => false

theorem exists_of_isAnswering {σ : Type} {c : Cache σ} {i : Nat}
    (h : (c.phase? i).any Phase.isAnswering = true) :
    ∃ task decision guard call, c.tasks[i]? = some task ∧ task.phase = .running decision guard 0 call := by
  obtain ⟨phase, hphase, hanswering⟩ := (Option.any_eq_true _ _).1 h
  obtain ⟨task, hget, rfl⟩ := Option.map_eq_some_iff.1 hphase
  unfold Phase.isAnswering at hanswering
  split at hanswering
  next decision guard call hrunning => exact ⟨task, decision, guard, call, hget, hrunning⟩
  next => nomatch hanswering

/-- What the first request was answered in pieces is served to it, and then to the second from each store. -/
theorem fidelity_of_twoRequestsInPieces :
    (∃ steps answer, ((oneRequest MemoryStore.empty (.ok .inPieces)).play (.sample false)
          (List.replicate 4 (.step 0))).answerIn? (.sample false) 0 steps = some answer)
      ∧ (∃ task response,
        (twoRequestsInPieces (Unreliable.working MemoryStore.empty)).tasks[0]? = some task
          ∧ task.phase = .done (.response .miss response)
          ∧ HandedOn (.sample false) (twoRequestsInPieces (Unreliable.working MemoryStore.empty)) 0 task.job
            response)
      ∧ (∃ task response,
        (twoRequestsInPieces (Unreliable.working MemoryStore.empty)).tasks[1]? = some task
          ∧ task.phase = .done (.response .hit response)
          ∧ HandedOut (.sample false) (twoRequestsInPieces (Unreliable.working MemoryStore.empty)) 1 task.job
            response)
      ∧ ∃ task response,
        (twoRequestsInPieces (Unreliable.working (RedisStore.empty "a"))).tasks[1]? = some task
          ∧ task.phase = .done (.response .hit response)
          ∧ HandedOut (.sample false) (twoRequestsInPieces (Unreliable.working (RedisStore.empty "a"))) 1
            task.job response := by
  obtain ⟨hanswered, hon, hmemory, hredis⟩ := fidelity_of_reachable (.sample false) .epoch .epoch
  refine ⟨?_, ?_, ?_, ?_⟩
  . have hanswering : (((oneRequest MemoryStore.empty (.ok .inPieces)).play (.sample false)
        (List.replicate 4 (.step 0))).phase? 0).any Phase.isAnswering = true := by
      decide +kernel
    obtain ⟨task, decision, guard, call, hget, hrunning⟩ := exists_of_isAnswering hanswering
    have hjob := job_eq_of_play (getElem?_oneRequest MemoryStore.empty (.ok .inPieces)) hget
    have hreply : task.job.handler.answer call = .ok .inPieces := by
      rw [hjob]
      rfl
    obtain ⟨steps, answer, hin, -⟩ := hanswered hget hrunning hreply (by decide)
    exact ⟨steps, answer, hin⟩
  . have hmiss : ((twoRequestsInPieces (Unreliable.working MemoryStore.empty)).phase? 0).any
        (Phase.isStorableMiss (.sample false)) = true := by
      decide +kernel
    obtain ⟨response, hphase, -⟩ := exists_of_isStorableMiss hmiss
    obtain ⟨task, hget, hdone⟩ := Option.map_eq_some_iff.1 hphase
    have hreach := reachable_twoRequestsInPieces Loses (Unreliable.working MemoryStore.empty)
    exact ⟨task, response, hget, hdone, hon hreach hget hdone nofun⟩
  . have hhit : ((twoRequestsInPieces (Unreliable.working MemoryStore.empty)).tasks[1]?.bind
        Task.hit?).isSome = true := by
      decide +kernel
    obtain ⟨task, response, hget, hphase⟩ := exists_of_isSome_hit? hhit
    have hreach := reachable_twoRequestsInPieces Loses (Unreliable.working MemoryStore.empty)
    exact ⟨task, response, hget, hphase, hmemory hreach hget hphase⟩
  . have hhit : ((twoRequestsInPieces (Unreliable.working (RedisStore.empty "a"))).tasks[1]?.bind
        Task.hit?).isSome = true := by
      decide +kernel
    obtain ⟨task, response, hget, hphase⟩ := exists_of_isSome_hit? hhit
    have hreach := reachable_twoRequestsInPieces Loses (Unreliable.working (RedisStore.empty "a"))
    exact ⟨task, response, hget, hphase, hredis "a" hreach hget hphase⟩

end ResponseCache
