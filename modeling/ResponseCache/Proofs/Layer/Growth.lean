import ResponseCache.Proofs.Layer.Run

/-!
This module contains what is never taken back in a run of a cache: the requests with their handlers,
and all that happened on their behalf. The calls of handlers are numbered as they happened.
-/

namespace ResponseCache

theorem isPrefix_of_eq {α : Type} {xs ys : List α} (h : xs = ys) : xs <+: ys := by
  subst h
  exact List.prefix_rfl

theorem getElem?_of_isPrefix {α : Type} {xs ys : List α} {x : α} {i : Nat} (hxs : xs <+: ys)
    (hget : xs[i]? = some x) : ys[i]? = some x := by
  obtain ⟨zs, rfl⟩ := hxs
  obtain ⟨hlt, -⟩ := List.getElem?_eq_some_iff.1 hget
  rw [List.getElem?_append_left hlt, hget]

def Record.isCall : Record → Bool
  | .called => true
  | _ => false

/-- The answer that a request has, even if it is still to end its flight. -/
def Phase.answer? : Phase → Option Answer
  | .landing _ answer => some answer
  | .done answer => some answer
  | _ => none

/-- Whether a request can take its next step whatever others have done. -/
def Phase.isReady : Phase → Bool
  | .queued _ _ => false
  | .done _ => false
  | .cancelled => false
  | _ => true

@[simp]
theorem Phase.answer?_finish (guard : Option Guard) (answer : Answer) :
    (finish guard answer).answer? = some answer := by
  cases guard <;> rfl

/-- A request that has its answer is at no point where it has none. -/
theorem Phase.finish_ne {phase : Phase} (hnone : phase.answer? = none) (guard : Option Guard)
    (answer : Answer) : finish guard answer ≠ phase := by
  rintro rfl
  nomatch (answer?_finish guard answer).symm.trans hnone

theorem Phase.eq_of_answer?_finish {guard : Option Guard} {answer other : Answer}
    (h : (finish guard answer).answer? = some other) : answer = other :=
  Option.some.inj ((answer?_finish guard answer).symm.trans h)

namespace Cache

variable {σ : Type}

/-- The requests that came in, without what they have come to. -/
def jobs (c : Cache σ) : List Job :=
  c.tasks.map Task.job

/-- The requests whose handlers were called, in the order of the calls. -/
def callers (c : Cache σ) : List Nat :=
  (c.history.filter fun note => note.record.isCall).map Note.task

/-- Whether another state has all that was so far, and maybe more. -/
def Grows (c c' : Cache σ) : Prop :=
  c.jobs <+: c'.jobs ∧ c.history <+: c'.history

theorem Grows.refl (c : Cache σ) : c.Grows c :=
  ⟨List.prefix_rfl, List.prefix_rfl⟩

theorem Grows.trans {c c' c'' : Cache σ} (h : c.Grows c') (h' : c'.Grows c'') : c.Grows c'' :=
  ⟨h.1.trans h'.1, h.2.trans h'.2⟩

/-- The client of a request goes away: the flight that it leads ends, and it waits no longer. -/
def leave (c : Cache σ) (i : Nat) (task : Task) : Effect σ :=
  { c.stay task .cancelled [] with
    flights :=
      match task.phase with
      | .queued guard _ => c.flights.modify guard.lock (Lock.forget i)
      | phase =>
        match guard? phase with
        | some guard => c.flights.finish guard.key guard.lock
        | none => c.flights }

variable {c c' : Cache σ} {i : Nat} {task : Task}

theorem phase?_eq_some {phase : Phase} (hget : c.tasks[i]? = some task) (hphase : task.phase = phase) :
    c.phase? i = some phase := by
  unfold phase?
  rw [hget, Option.map_some, hphase]

theorem getElem?_jobs (hget : c.tasks[i]? = some task) : c.jobs[i]? = some task.job := by
  unfold jobs
  rw [List.getElem?_map, hget]
  rfl

theorem jobs_after (hget : c.tasks[i]? = some task) (e : Effect σ) :
    (c.after i task e).jobs = c.jobs := by
  have hjob := getElem?_jobs hget
  unfold jobs at hjob ⊢
  unfold after
  simp only
  obtain ⟨hlt, hself⟩ := List.getElem?_eq_some_iff.1 hjob
  rw [List.map_set, ← hself]
  exact List.set_getElem_self hlt

theorem grows_after (hget : c.tasks[i]? = some task) (e : Effect σ) :
    c.Grows (c.after i task e) := by
  constructor
  . exact isPrefix_of_eq (jobs_after hget e).symm
  . exact List.prefix_append _ _

theorem getElem?_after {k : Nat} {task' : Task} (e : Effect σ)
    (hget : (c.after i task e).tasks[k]? = some task') :
    (k = i ∧ task' = ⟨task.job, e.started, e.phase⟩) ∨ (k ≠ i ∧ c.tasks[k]? = some task') := by
  unfold after at hget
  simp only [List.getElem?_set] at hget
  split at hget
  next heq =>
    split at hget
    next => exact .inl ⟨heq.symm, (Option.some.inj hget).symm⟩
    next => nomatch hget
  next hne => exact .inr ⟨fun heq => hne heq.symm, hget⟩

theorem getElem?_after_self (hget : c.tasks[i]? = some task) (e : Effect σ) :
    (c.after i task e).tasks[i]? = some ⟨task.job, e.started, e.phase⟩ := by
  obtain ⟨hlt, -⟩ := List.getElem?_eq_some_iff.1 hget
  unfold after
  simp only
  rw [List.getElem?_set_self hlt]

theorem getElem?_after_of_ne {k : Nat} {other : Task} (hne : i ≠ k) (e : Effect σ)
    (hget : c.tasks[k]? = some other) : (c.after i task e).tasks[k]? = some other := by
  unfold after
  simp only
  rw [List.getElem?_set_ne hne, hget]

theorem getElem?_enlist {k : Nat} {task' : Task} {job : Job}
    (hget : (c.enlist job).1.tasks[k]? = some task') :
    c.tasks[k]? = some task'
      ∨ (k = c.tasks.length ∧ task' = ⟨job, c.systemTime, .arriving⟩) := by
  unfold enlist at hget
  simp only [List.getElem?_append] at hget
  split at hget
  next => exact .inl hget
  next hle =>
    rw [List.getElem?_singleton] at hget
    split at hget
    next hzero => exact .inr ⟨by omega, (Option.some.inj hget).symm⟩
    next => nomatch hget

theorem callers_of_grows (hgrows : c.Grows c') : c.callers <+: c'.callers := by
  obtain ⟨-, notes, hnotes⟩ := hgrows
  unfold callers
  rw [← hnotes, List.filter_append, List.map_append]
  exact List.prefix_append _ _

theorem sublist_after {trail : List Note} {e : Effect σ} {record : Record}
    (h : trail.Sublist c.history) (hmem : record ∈ e.records) :
    (trail ++ [Note.mk i record]).Sublist (c.after i task e).history := by
  apply h.append
  rw [List.singleton_sublist]
  exact List.mem_map_of_mem hmem

theorem grows_enlist (c : Cache σ) (job : Job) : c.Grows (c.enlist job).1 := by
  constructor
  . unfold jobs enlist
    rw [List.map_append]
    exact List.prefix_append _ _
  . exact List.prefix_rfl

theorem cancel_eq_of_getElem? (hget : c.tasks[i]? = some task) :
    c.cancel i = if task.phase.isFinished then c else c.after i task (c.leave i task) := by
  unfold cancel phase?
  simp only [hget, Option.map_some]
  split
  next => rfl
  next =>
    have hhistory : c.history ++ (c.leave i task).records.map (Note.mk i) = c.history := List.append_nil _
    calc
      _ = { c with
            flights := (c.leave i task).flights
            tasks := c.tasks.set i ⟨task.job, task.started, .cancelled⟩ } :=
        congrArg (fun tasks => { c with flights := (c.leave i task).flights, tasks := tasks })
          (modify_phase hget .cancelled)
      _ = c.after i task (c.leave i task) := by
        unfold after
        rw [hhistory]
        rfl

theorem cancel_eq (c : Cache σ) (i : Nat) :
    c.cancel i = c ∨ ∃ task, c.tasks[i]? = some task ∧ task.phase.isFinished = false
      ∧ c.cancel i = c.after i task (c.leave i task) := by
  cases hget : c.tasks[i]? with
  | none =>
    unfold cancel phase?
    rw [hget]
    exact .inl rfl
  | some task =>
    rw [cancel_eq_of_getElem? hget]
    split
    next => exact .inl rfl
    next hfinished => exact .inr ⟨task, rfl, Bool.eq_false_iff.2 hfinished, rfl⟩

theorem callers_after (c : Cache σ) (i : Nat) (task : Task) (e : Effect σ) :
    (c.after i task e).callers
      = c.callers ++ List.replicate (e.records.countP Record.isCall) i := by
  unfold callers after
  rw [List.filter_append, List.map_append]
  congr 1
  induction e.records with
  | nil => rfl
  | cons record records ih =>
    rw [List.map_cons, List.filter_cons, List.countP_cons]
    split
    next hcall =>
      rw [List.map_cons, ih]
      rfl
    next hcall =>
      rw [ih]
      rfl

theorem countP_report (layer : Layer) (n : Nat) (event : Event) :
    (layer.report n event).countP Record.isCall = 0 := by
  unfold Layer.report
  split <;> rfl

theorem countP_reporting (c : Cache σ) (layer : Layer) (records : List Record) (event : Event) :
    (c.reporting layer records event).countP Record.isCall = records.countP Record.isCall := by
  unfold reporting
  rw [List.countP_append, countP_report, Nat.add_zero]

theorem countP_records {α : Type} (access : Access σ α) (first : List Record) :
    (access.records first).countP Record.isCall = first.countP Record.isCall := by
  unfold Access.records
  rw [List.countP_append, List.countP_map, Nat.add_eq_left, List.countP_eq_zero]
  intro command _
  exact Bool.false_ne_true

theorem countP_deciding (task : Task) (key : String) (decision : Decision) (again : Bool) :
    (deciding task key decision again).countP Record.isCall = 0 := by
  unfold deciding
  split <;> rfl

theorem countP_failing (c : Cache σ) (layer : Layer) (i : Nat) (task : Task) (message : String) :
    (c.failing layer i task message).countP Record.isCall = 0 := by
  unfold failing
  rw [countP_reporting]
  rfl

theorem countP_stamping (c : Cache σ) (layer : Layer) (i : Nat) (task : Task)
    (decision : Decision) (entry : Entry) :
    (c.stamping layer i task decision entry).countP Record.isCall = 0 := by
  unfold stamping
  rw [countP_reporting]
  rfl

end Cache

open Cache

section

variable {σ : Type} {layer : Layer} {c c' : Cache σ} {i : Nat} {task : Task} {e : Effect σ}

theorem calls_eq_of_countP (hcalls : e.calls = c.calls)
    (hcount : e.records.countP Record.isCall = 0) :
    e.calls = c.calls + e.records.countP Record.isCall := by
  rw [hcalls, hcount]
  rfl

variable [Backend σ]

theorem Transition.phase_ne_cancelled (h : Transition layer c i task e) : task.phase ≠ .cancelled := by
  cases h with
  | _ =>
    rw [‹task.phase = _›]
    nofun

theorem Transition.answer?_eq_some (h : Transition layer c i task e) {answer : Answer}
    (hanswer : task.phase.answer? = some answer) : e.phase.answer? = some answer := by
  cases h with
  | landed hphase =>
    rw [hphase] at hanswer
    exact hanswer
  | _ =>
    rw [‹task.phase = _›] at hanswer
    nomatch hanswer

theorem Transition.calls_eq (h : Transition layer c i task e) :
    e.calls = c.calls + e.records.countP Record.isCall := by
  -- What is read, written, logged, counted or reported is no call.
  cases h with
  | called => rfl
  | foundExpired => exact calls_eq_of_countP rfl (countP_records _ _)
  | looked => exact calls_eq_of_countP rfl (countP_records _ _)
  | lookFailed =>
    apply calls_eq_of_countP rfl
    simp only [stay]
    rw [countP_reporting, List.countP_append, countP_records]
    rfl
  | hit => exact calls_eq_of_countP rfl (countP_deciding _ _ _ _)
  | missed =>
    apply calls_eq_of_countP rfl
    simp only [stay]
    exact countP_deciding _ _ _ _
  | unguarded =>
    apply calls_eq_of_countP rfl
    simp only [stay]
    exact countP_deciding _ _ _ _
  | served => exact calls_eq_of_countP rfl (countP_reporting _ _ _ _)
  | refused => exact calls_eq_of_countP rfl (countP_failing _ _ _ _ _)
  | failed => exact calls_eq_of_countP rfl (countP_failing _ _ _ _ _)
  | storable => exact calls_eq_of_countP rfl (countP_stamping _ _ _ _ _ _)
  | unstorable => exact calls_eq_of_countP rfl (countP_stamping _ _ _ _ _ _)
  | wrote =>
    apply calls_eq_of_countP rfl
    simp only [stay]
    rw [countP_reporting, List.countP_append, countP_records]
    rfl
  | writeFailed =>
    apply calls_eq_of_countP rfl
    simp only [stay]
    rw [countP_reporting, List.countP_append, countP_records]
    rfl
  | writeAborted => exact calls_eq_of_countP rfl (countP_records _ _)
  | _ => rfl

/-- What holds after every step and departure, and whatever the clocks and the store do, holds on. -/
theorem Move.rule {drift : σ → σ → Prop} {P : Cache σ → Prop} (hmove : Move layer drift c c')
    (hsame : P c) (henlist : ∀ job, P (c.enlist job).1)
    (hstep : ∀ {i task e}, c.tasks[i]? = some task → Transition layer c i task e →
      P (c.after i task e))
    (hleave : ∀ {i task}, c.tasks[i]? = some task → P (c.after i task (c.leave i task)))
    (henvironment : ∀ {store clock systemTime}, store = c.store ∨ drift c.store store →
      P { c with store := store, clock := clock, systemTime := systemTime }) : P c' := by
  cases hmove with
  | enlist job => exact henlist job
  | step hstep' =>
    obtain ⟨task, e, hget, h, rfl⟩ := Transition.of_step hstep'
    exact hstep hget h
  | cancel i =>
    cases cancel_eq c i with
    | inl heq =>
      rw [heq]
      exact hsame
    | inr hcancel =>
      obtain ⟨task, hget, -, heq⟩ := hcancel
      rw [heq]
      exact hleave hget
  | clock clock => exact henvironment (.inl rfl)
  | systemTime systemTime => exact henvironment (.inl rfl)
  | drift hdrift => exact henvironment (.inr hdrift)

theorem exists_transition_of_step (hget : c.tasks[i]? = some task) (hstep : c.step layer i = some c') :
    ∃ e, Transition layer c i task e ∧ c' = c.after i task e := by
  obtain ⟨other, e, hother, h, rfl⟩ := Transition.of_step hstep
  obtain rfl := Option.some.inj (hget.symm.trans hother)
  exact ⟨e, h, rfl⟩

theorem exists_transition_of_isReady (layer : Layer) (hget : c.tasks[i]? = some task)
    (hready : task.phase.isReady = true) :
    ∃ e, Transition layer c i task e ∧ c.step layer i = some (c.after i task e) := by
  have hstep : ∃ c', c.step layer i = some c' := by
    unfold step
    simp only [hget, Option.bind_eq_bind, Option.bind_some]
    cases hphase : task.phase with
    | queued guard role =>
      rw [hphase] at hready
      nomatch hready
    | done answer =>
      rw [hphase] at hready
      nomatch hready
    | cancelled =>
      rw [hphase] at hready
      nomatch hready
    | running decision guard pauses call =>
      cases pauses with
      | zero => exact ⟨_, rfl⟩
      | succ pauses => exact ⟨_, rfl⟩
    | _ => exact ⟨_, rfl⟩
  obtain ⟨c', hstep⟩ := hstep
  obtain ⟨e, h, rfl⟩ := exists_transition_of_step hget hstep
  exact ⟨e, h, hstep⟩

/-- What an action can do to a request, whose step it may be. -/
theorem act_cases {action : Action σ} (hget : (c.act layer action).tasks[i]? = some task) :
    (c.tasks[i]? = none ∧ task.phase = .arriving)
      ∨ ∃ old, c.tasks[i]? = some old ∧ old.job = task.job ∧ (task.phase = old.phase
        ∨ task.phase = .cancelled
        ∨ ∃ e, action = .step i ∧ Transition layer c i old e ∧ c.act layer action = c.after i old e
          ∧ task.phase = e.phase) := by
  cases action with
  | enlist job =>
    cases getElem?_enlist hget with
    | inl hold => exact .inr ⟨task, hold, rfl, .inl rfl⟩
    | inr hnew =>
      obtain ⟨rfl, rfl⟩ := hnew
      exact .inl ⟨List.getElem?_eq_none (Nat.le_refl _), rfl⟩
  | step k =>
    cases hstep : c.step layer k with
    | none =>
      rw [act_step_of_eq_none hstep] at hget
      exact .inr ⟨task, hget, rfl, .inl rfl⟩
    | some c' =>
      obtain ⟨other, e, hother, h, rfl⟩ := Transition.of_step hstep
      rw [act_step_of_eq_some hstep] at hget ⊢
      cases getElem?_after e hget with
      | inl hself =>
        obtain ⟨rfl, rfl⟩ := hself
        exact .inr ⟨other, hother, rfl, .inr (.inr ⟨e, rfl, h, rfl, rfl⟩)⟩
      | inr hsame => exact .inr ⟨task, hsame.2, rfl, .inl rfl⟩
  | cancel k =>
    cases cancel_eq c k with
    | inl heq =>
      simp only [act, heq] at hget
      exact .inr ⟨task, hget, rfl, .inl rfl⟩
    | inr hcancel =>
      obtain ⟨other, hother, -, heq⟩ := hcancel
      simp only [act, heq] at hget
      cases getElem?_after _ hget with
      | inl hself =>
        obtain ⟨rfl, rfl⟩ := hself
        exact .inr ⟨other, hother, rfl, .inr (.inl rfl)⟩
      | inr hsame => exact .inr ⟨task, hsame.2, rfl, .inl rfl⟩
  | clock clock => exact .inr ⟨task, hget, rfl, .inl rfl⟩
  | systemTime systemTime => exact .inr ⟨task, hget, rfl, .inl rfl⟩
  | change f => exact .inr ⟨task, hget, rfl, .inl rfl⟩

theorem act_entered {Q : Phase → Prop} (harriving : ¬Q .arriving) (hcancelled : ¬Q .cancelled)
    {action : Action σ} (hget : (c.act layer action).tasks[i]? = some task) (hQ : Q task.phase) :
    ∃ old, c.tasks[i]? = some old ∧ old.job = task.job ∧ (Q old.phase
      ∨ ∃ e, action = .step i ∧ Transition layer c i old e ∧ c.act layer action = c.after i old e
        ∧ Q e.phase) := by
  obtain ⟨-, hphase⟩ | ⟨old, hold, hjob, hphase | hphase | ⟨e, haction, h, heq, hphase⟩⟩ := act_cases hget
  . exact absurd (hphase ▸ hQ) harriving
  . exact ⟨old, hold, hjob, .inl (hphase ▸ hQ)⟩
  . exact absurd (hphase ▸ hQ) hcancelled
  . exact ⟨old, hold, hjob, .inr ⟨e, haction, h, heq, hphase ▸ hQ⟩⟩

theorem Move.entered {drift : σ → σ → Prop} {Q : Phase → Prop} (harriving : ¬Q .arriving)
    (hcancelled : ¬Q .cancelled) (hmove : Move layer drift c c') (hget : c'.tasks[i]? = some task)
    (hQ : Q task.phase) :
    ∃ old, c.tasks[i]? = some old ∧ old.job = task.job
      ∧ (Q old.phase ∨ ∃ e, Transition layer c i old e ∧ Q e.phase) := by
  obtain ⟨action, rfl⟩ := hmove.exists_act
  obtain ⟨old, hold, hjob, hentered⟩ := act_entered harriving hcancelled hget hQ
  refine ⟨old, hold, hjob, ?_⟩
  cases hentered with
  | inl hQold => exact .inl hQold
  | inr hstep =>
    obtain ⟨e, -, h, -, hQe⟩ := hstep
    exact .inr ⟨e, h, hQe⟩

theorem Reachable.entered {drift : σ → σ → Prop} {Q : Phase → Prop} (harriving : ¬Q .arriving)
    (hcancelled : ¬Q .cancelled) {first : Cache σ} (hfirst : first.tasks = [])
    (hreach : Reachable layer drift first c) (hget : c.tasks[i]? = some task) (hQ : Q task.phase) :
    ∃ before task' e, Reachable layer drift first before ∧ Reachable layer drift before c
      ∧ before.tasks[i]? = some task' ∧ task'.job = task.job
      ∧ Transition layer before i task' e ∧ ¬Q task'.phase ∧ Q e.phase := by
  induction hreach generalizing task with
  | start =>
    rw [hfirst] at hget
    nomatch hget
  | @move c c' hreach hmove ih =>
    obtain ⟨old, hold, hjob, hentered⟩ := hmove.entered harriving hcancelled hget hQ
    by_cases hQold : Q old.phase
    . obtain ⟨before, task', e, hbefore, hon, hget', hjob', h⟩ := ih hold hQold
      exact ⟨before, task', e, hbefore, .move hon hmove, hget', hjob'.trans hjob, h⟩
    . -- This is the last step that led to such a point.
      obtain ⟨e, h, hQe⟩ := hentered.resolve_left hQold
      exact ⟨c, old, e, hreach, .move .start hmove, hold, hjob, h, hQold, hQe⟩

theorem Reachable.grows {drift : σ → σ → Prop} (hreach : Reachable layer drift c c') : c.Grows c' := by
  apply hreach.invariant (P := c.Grows) (.refl c)
  intro c' c'' hgrows hmove
  apply hmove.rule hgrows
  . exact fun job => hgrows.trans (grows_enlist c' job)
  . exact fun hget _ => hgrows.trans (grows_after hget _)
  . exact fun hget => hgrows.trans (grows_after hget _)
  . exact fun _ => hgrows

/-- What no step of a request takes back, nor its departure, holds of it for the rest of a run. -/
theorem Reachable.keeps {drift : σ → σ → Prop} {P : Phase → Prop} {job : Job} (hcancelled : P .cancelled)
    (hstep : ∀ {c : Cache σ} {task e}, task.job = job → Transition layer c i task e →
      P task.phase → P e.phase)
    (hreach : Reachable layer drift c c') (hget : c.tasks[i]? = some task) (hjob : task.job = job)
    (hP : P task.phase) : ∃ task', c'.tasks[i]? = some task' ∧ task'.job = job ∧ P task'.phase := by
  have hlater := hreach.invariant (P := fun c => ∃ task, c.tasks[i]? = some task ∧ task.job = job
    ∧ P task.phase) ⟨task, hget, hjob, hP⟩
  apply hlater
  intro c c' hc hmove
  apply hmove.rule hc
  . intro other
    obtain ⟨task, hget, hjob, hP⟩ := hc
    refine ⟨task, ?_, hjob, hP⟩
    exact getElem?_of_isPrefix (List.prefix_append _ _) hget
  . intro k other e hother h
    obtain ⟨task, hget, hjob, hP⟩ := hc
    by_cases heq : k = i
    . subst heq
      obtain rfl := Option.some.inj (hget.symm.trans hother)
      exact ⟨_, getElem?_after_self hget e, hjob, hstep hjob h hP⟩
    . exact ⟨task, getElem?_after_of_ne heq e hget, hjob, hP⟩
  . intro k other hother
    obtain ⟨task, hget, hjob, hP⟩ := hc
    by_cases heq : k = i
    . subst heq
      obtain rfl := Option.some.inj (hget.symm.trans hother)
      exact ⟨_, getElem?_after_self hget _, hjob, hcancelled⟩
    . exact ⟨task, getElem?_after_of_ne heq _ hget, hjob, hP⟩
  . intro store clock systemTime _
    exact hc

end

end ResponseCache
