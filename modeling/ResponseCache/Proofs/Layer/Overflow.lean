import ResponseCache.Proofs.Layer.Lifetime
import ResponseCache.Proofs.Layer.Progress
import ResponseCache.Proofs.Layer.Tolerance

/-!
This module contains which requests are aborted, and which are answered whatever happens. Plans are built for
any maximum of the age of responses. But a store in memory cannot tell when an entry expires once the maximum
reaches beyond the range of times, and then it aborts the request on whose behalf it is written.
-/

namespace ResponseCache

open Cache

/-- A handler that is always ready, and answers every call with a response whose body can be read. -/
structure Handler.Succeeds (handler : Handler) : Prop where
  unready_eq : handler.unready = none
  refusal_eq : handler.refusal = none
  answers : ∀ call, ∃ snapshot, (handler.answer call >>= Reply.capture) = .ok snapshot

theorem Task.failure?_eq_none {task : Task} (h : task.job.handler.Succeeds) : task.failure? = none := by
  unfold failure?
  split
  next decision guard call hphase =>
    obtain ⟨snapshot, hanswer⟩ := h.answers call
    rw [hanswer]
  next => rfl

theorem Task.unreadiness?_eq_none {task : Task} (h : task.job.handler.Succeeds) :
    task.unreadiness? = none := by
  unfold unreadiness?
  split
  next => rw [h.unready_eq, Option.map_none]
  next => rw [h.refusal_eq, Option.map_none]
  next => rfl

theorem Time.add?_ofSecs_eq_none_iff {now : Time} {secs : Nat} (hsecs : secs < UInt64.size) :
    now.add? (.ofSecs secs hsecs) = none ↔ 9223372036854775808 ≤ now.secs + secs := by
  have hle := now.le_nanos
  unfold add? ofNanos? Time.secs
  split
  next h =>
    refine iff_of_false (Option.some_ne_none _) ?_
    simp only [Duration.ofSecs, timeBound, nanosPerSec] at h ⊢
    omega
  next h =>
    refine iff_of_true rfl ?_
    simp only [Duration.ofSecs, timeBound, nanosPerSec] at hle h ⊢
    omega

theorem Plan.policy_eq_of_build {σ : Type} {plan : Plan σ} {entropy : Entropy} {built : Built σ}
    (hbuild : plan.build entropy = .ok built) : built.layer.policy = plan.age.policy := by
  unfold build at hbuild
  split at hbuild
  next =>
    obtain rfl := Except.ok.inj hbuild
    rfl
  next => nomatch hbuild

namespace MemoryStore

variable {s : MemoryStore} {now : Time} {key : String} {entry : Entry}

/-- A write aborts exactly if there is no time at which its entry would expire. -/
theorem result_set_eq_overflow_iff {ttl : Duration} :
    (Backend.set s now key entry ttl).result = .error .overflow ↔ now.add? ttl = none := by
  simp only [Backend.set, write]
  cases hzero : ttl.isZero with
  | true =>
    have hsome : now.add? ttl = some now := by
      rw [Time.add?_eq_some_iff, of_decide_eq_true hzero, Int.natCast_zero, Int.add_zero]
    simp [hsome]
  | false =>
    cases now.add? ttl with
    | none => simp
    | some expiresAt => simp

theorem result_set_maxTtl_eq_overflow_iff {policy : AgePolicy} :
    (Backend.set s now key entry policy.maxTtl).result = .error .overflow
      ↔ 9223372036854775808 ≤ now.secs + policy.maxSecs :=
  result_set_eq_overflow_iff.trans (Time.add?_ofSecs_eq_none_iff policy.maxSecs_lt)

end MemoryStore

section

variable {σ : Type}

def Action.systemTime? : Action σ → Option Time
  | .systemTime time => some time
  | _ => none

variable [Backend σ] {layer : Layer} {c first : Cache σ} {i : Nat} {task : Task} {e : Effect σ}

theorem systemTime_act (layer : Layer) (c : Cache σ) (action : Action σ) :
    (c.act layer action).systemTime = action.systemTime?.getD c.systemTime := by
  cases action with
  | step i =>
    cases hstep : c.step layer i with
    | none =>
      rw [act_step_of_eq_none hstep]
      rfl
    | some c' =>
      obtain ⟨task, e, -, -, rfl⟩ := Transition.of_step hstep
      rw [act_step_of_eq_some hstep]
      rfl
  | cancel i =>
    simp only [act, cancel, Action.systemTime?, Option.getD_none]
    split
    next => rfl
    next =>
      split
      next => rfl
      next => rfl
  | _ => rfl

/-- The time of the system is the first one or one that was set since. -/
theorem systemTime_play_mem (layer : Layer) (c : Cache σ) (actions : List (Action σ)) :
    (c.play layer actions).systemTime ∈ c.systemTime :: actions.filterMap Action.systemTime? := by
  induction actions generalizing c with
  | nil => exact List.mem_cons_self
  | cons action actions ih =>
    have hmem := ih (c.act layer action)
    rw [systemTime_act] at hmem
    rw [play_cons, List.filterMap_cons]
    cases hset : action.systemTime? with
    | none =>
      rw [hset, Option.getD_none] at hmem
      exact hmem
    | some time =>
      rw [hset, Option.getD_some] at hmem
      exact List.mem_cons_of_mem _ hmem

/-- Nothing but a write aborts a request. -/
theorem Transition.exists_writing_of_aborted (h : Transition layer c i task e)
    (hanswer : e.phase.answer? = some .aborted) (hnot : task.phase.answer? ≠ some .aborted) :
    ∃ key guard entry, task.phase = .writing key guard entry
      ∧ (Backend.set c.store c.systemTime key entry layer.policy.maxTtl).result = .error .overflow := by
  cases h with
  | writeAborted hphase hresult => exact ⟨_, _, _, hphase, hresult⟩
  | refused => nomatch Phase.eq_of_answer?_finish hanswer
  | failed => nomatch Phase.eq_of_answer?_finish hanswer
  | unstorable => nomatch Phase.eq_of_answer?_finish hanswer
  | wrote => nomatch Phase.eq_of_answer?_finish hanswer
  | writeFailed => nomatch Phase.eq_of_answer?_finish hanswer
  | landed hphase =>
    rw [hphase] at hnot
    exact absurd hanswer hnot
  | _ => nomatch hanswer

/-- Whether a request wrote the store in a run, and the write aborted. -/
def WriteAborted (layer : Layer) (first : Cache σ) (actions : List (Action σ)) (i : Nat) : Prop :=
  ∃ before after key guard entry, actions = before ++ .step i :: after
    ∧ (first.play layer before).phase? i = some (.writing key guard entry)
    ∧ (Backend.set (first.play layer before).store (first.play layer before).systemTime key entry
      layer.policy.maxTtl).result = .error .overflow

/-- A request whose client stays is aborted exactly if its write was. -/
theorem answer?_eq_aborted_iff (hfirst : first.tasks = []) {actions : List (Action σ)}
    (hget : (first.play layer actions).tasks[i]? = some task) (hphase : task.phase ≠ .cancelled) :
    task.phase.answer? = some .aborted ↔ WriteAborted layer first actions i := by
  constructor
  . intro hanswer
    obtain ⟨before, after, old, e, h⟩ :=
      exists_crossing (Q := fun phase => phase.answer? = some .aborted) nofun nofun
        (arriving_of_eq_nil hfirst i) hget hanswer
    obtain ⟨key, guard, entry, hwriting, hresult⟩ :=
      h.transition.exists_writing_of_aborted h.inside h.outside
    exact ⟨before, after, key, guard, entry, h.actions_eq, phase?_eq_some h.getElem?_eq hwriting, hresult⟩
  . rintro ⟨before, after, key, guard, entry, rfl, hwriting, hresult⟩
    have htried := tried_of_writing layer hwriting
    rw [hresult] at htried
    obtain ⟨-, task', hget', hended⟩ := htried.ends after
    rw [← play_append, ← play_append] at hget'
    obtain rfl := Option.some.inj (hget'.symm.trans hget)
    exact hended.resolve_left hphase

/-- A request that is answered without failure of its handler is aborted or gets a response. -/
theorem exists_response (hfirst : first.tasks = []) {actions : List (Action σ)}
    (hget : (first.play layer actions).tasks[i]? = some task) (hphase : task.phase ≠ .cancelled)
    (hfinished : task.phase.isFinished = true) (hsucceeds : task.job.handler.Succeeds) :
    task.phase = .done .aborted ∨ ∃ outcome response, task.phase = .done (.response outcome response) := by
  have hnot (answer : Answer) (herror : answer.isError = true) : task.phase.answer? ≠ some answer := by
    intro hanswer
    obtain ⟨before, after, old, rfl, hold, hfails⟩ | ⟨before, after, old, rfl, hold, hfails⟩ :=
      (answer?_eq_error_iff hfirst hget hphase herror).1 hanswer
    . rw [play_append] at hget
      rw [job_eq_of_play hold hget] at hsucceeds
      nomatch (Task.failure?_eq_none hsucceeds).symm.trans hfails
    . rw [play_append] at hget
      rw [job_eq_of_play hold hget] at hsucceeds
      nomatch (Task.unreadiness?_eq_none hsucceeds).symm.trans hfails
  unfold Phase.isFinished at hfinished
  split at hfinished
  next answer hdone =>
    rw [hdone] at hnot ⊢
    cases answer with
    | response outcome response => exact .inr ⟨outcome, response, rfl⟩
    | failed message => exact absurd rfl (hnot (.failed message) rfl)
    | unready message => exact absurd rfl (hnot (.unready message) rfl)
    | aborted => exact .inl rfl
  next hcancelled => exact absurd hcancelled hphase
  next => nomatch hfinished

end

section

variable {layer : Layer} {secs : Nat} {first : Cache MemoryStore} {actions : List (Action MemoryStore)} {i : Nat}

/--
Whether a request wrote a store in memory in a run so late that the time of the system, moved on by so many
seconds, is no longer in range.
-/
def WroteTooLate (layer : Layer) (secs : Nat) (first : Cache MemoryStore) (actions : List (Action MemoryStore))
    (i : Nat) : Prop :=
  ∃ before after key guard entry, actions = before ++ .step i :: after
    ∧ (first.play layer before).phase? i = some (.writing key guard entry)
    ∧ 9223372036854775808 ≤ (first.play layer before).systemTime.secs + secs

theorem writeAborted_iff_wroteTooLate :
    WriteAborted layer first actions i ↔ WroteTooLate layer layer.policy.maxSecs first actions i := by
  unfold WriteAborted WroteTooLate
  simp only [MemoryStore.result_set_maxTtl_eq_overflow_iff]

theorem not_wroteTooLate
    (hearly : ∀ time ∈ first.systemTime :: actions.filterMap Action.systemTime?,
      time.secs + secs < 9223372036854775808) :
    ¬WroteTooLate layer secs first actions i := by
  rintro ⟨before, after, key, guard, entry, rfl, -, hlate⟩
  have hmem := systemTime_play_mem layer first before
  refine absurd hlate (Int.not_le.2 (hearly _ ?_))
  rw [List.filterMap_append]
  exact List.cons_subset_cons _ (List.subset_append_left _ _) hmem

end

/--
What becomes of requests for whose handlers nothing fails, under any plan that is built for a store in memory.
Those that write it too late for its maximum are aborted, and all others get a response. None writes it too late
as long as the time of the system is further from the end of all times than that. And however far requests have
come, they only need to go on to be finished.
-/
theorem response_of_build {plan : Plan MemoryStore} {entropy : Entropy} {built : Built MemoryStore}
    (hbuild : plan.build entropy = .ok built) (clock systemTime : Time) (actions : List (Action MemoryStore))
    {last : Cache MemoryStore} (hlast : (start built.store clock systemTime).play built.layer actions = last) :
    (∀ {i : Nat} {task : Task}, last.tasks[i]? = some task → task.phase ≠ .cancelled →
        task.phase.isFinished = true → task.job.handler.Succeeds →
        (WroteTooLate built.layer plan.age.max.secs (start built.store clock systemTime) actions i →
          task.phase = .done .aborted)
        ∧ (¬WroteTooLate built.layer plan.age.max.secs (start built.store clock systemTime) actions i →
          ∃ outcome response, task.phase = .done (.response outcome response)))
      ∧ ((∀ time ∈ systemTime :: actions.filterMap Action.systemTime?,
          time.secs + plan.age.max.secs < 9223372036854775808) →
        ∀ i, ¬WroteTooLate built.layer plan.age.max.secs (start built.store clock systemTime) actions i)
      ∧ ∃ steps : List Nat,
        ∀ task ∈ (last.play built.layer (steps.map .step)).tasks, task.phase.isFinished = true := by
  subst hlast
  refine ⟨?_, ?_, ?_⟩
  . intro i task hget hphase hfinished hsucceeds
    have hiff := (answer?_eq_aborted_iff rfl hget hphase).trans writeAborted_iff_wroteTooLate
    rw [Plan.policy_eq_of_build hbuild] at hiff
    have hended := exists_response rfl hget hphase hfinished hsucceeds
    constructor
    . intro hlate
      have haborted := hiff.2 hlate
      obtain hdone | ⟨outcome, response, hdone⟩ := hended
      . exact hdone
      . rw [hdone] at haborted
        nomatch haborted
    . intro hearly
      refine hended.resolve_left ?_
      intro hdone
      exact hearly (hiff.1 (hdone ▸ rfl))
  . exact fun hearly _ => not_wroteTooLate hearly
  . have hreach := (start built.store clock systemTime).reachable_play built.layer actions
    exact (governed_of_reachable hreach).exists_finished built.layer

def Age.widest : Age :=
  ⟨.zero, ⟨durationBound - 1, by decide⟩⟩

/-- The settings of a cache on whose route responses stay fresh for longer than the range of times. -/
def Layer.sampleOfWidest : Layer :=
  { Layer.sample false with policy := Age.widest.policy }

def Plan.widest : Plan MemoryStore :=
  { Plan.ofAge .empty .widest with clock := .manual }

theorem Plan.build_widest :
    Plan.widest.build ⟨fun _ => "", fun _ => 0⟩ = .ok ⟨.sampleOfWidest, .empty, []⟩ :=
  build_ofAge MemoryStore.empty (by decide) (by decide) _

/-- A time in the year 2023. -/
def Time.sample : Time :=
  ⟨1700000000 * nanosPerSec, by decide, by decide⟩

theorem succeeds_sample (pauses : Nat) : (Job.sample pauses (.ok .empty)).handler.Succeeds :=
  ⟨rfl, rfl, fun _ => ⟨_, rfl⟩⟩

/-- A plan is built whose maximum is so large that a request is aborted after its handler has answered. -/
theorem aborted_of_widest :
    ∃ built, Plan.widest.build ⟨fun _ => "", fun _ => 0⟩ = .ok built
      ∧ (Job.sample 0 (.ok .empty)).handler.Succeeds
      ∧ ((start built.store .sample .sample).request built.layer (.sample 0 (.ok .empty))).1.calls = 1
      ∧ ((start built.store .sample .sample).request built.layer (.sample 0 (.ok .empty))).2
        = some (.done .aborted) := by
  refine ⟨_, Plan.build_widest, succeeds_sample 0, ?_, ?_⟩
  . decide +kernel
  . decide +kernel

def oneVisit (layer : Layer) (steps : Nat) : Cache MemoryStore :=
  (start .empty .sample .sample).play layer (.enlist (.sample 0 (.ok .empty)) :: List.replicate steps (.step 0))

theorem exists_task_oneVisit (layer : Layer) (steps : Nat)
    (hfinished : ((oneVisit layer steps).phase? 0).any Phase.isFinished = true)
    (hstays : (oneVisit layer steps).phase? 0 ≠ some .cancelled) :
    ∃ task, (oneVisit layer steps).tasks[0]? = some task ∧ task.phase ≠ .cancelled
      ∧ task.phase.isFinished = true ∧ task.job.handler.Succeeds := by
  obtain ⟨phase, hphase, hended⟩ := (Option.any_eq_true _ _).1 hfinished
  obtain ⟨task, hget, rfl⟩ := Option.map_eq_some_iff.1 hphase
  refine ⟨task, hget, ?_, hended, ?_⟩
  . intro hcancelled
    rw [hcancelled] at hphase
    exact hstays hphase
  . have hfirst : ((start MemoryStore.empty .sample .sample).act layer
        (.enlist (.sample 0 (.ok .empty)))).tasks[0]? = some ⟨.sample 0 (.ok .empty), .sample, .arriving⟩ :=
      rfl
    rw [job_eq_of_play hfirst hget]
    exact succeeds_sample 0

/--
A request is answered where responses stay fresh for a minute, and aborted where they stay fresh for longer than
the range of times, since there it writes the store too late whenever it comes.
-/
theorem response_of_oneVisit :
    (∃ task outcome response, (oneVisit (.sample false) 8).tasks[0]? = some task
        ∧ task.phase = .done (.response outcome response))
      ∧ (∃ task, (oneVisit .sampleOfWidest 8).tasks[0]? = some task ∧ task.phase = .done .aborted)
      ∧ ∃ steps : List Nat, ∀ task ∈ ((oneVisit (.sample false) 3).play (.sample false)
        (steps.map .step)).tasks, task.phase.isFinished = true := by
  refine ⟨?_, ?_, ?_⟩
  . obtain ⟨task, hget, hphase, hfinished, hsucceeds⟩ :=
      exists_task_oneVisit (.sample false) 8 (by decide +kernel) (by decide +kernel)
    obtain ⟨hended, hearly, -⟩ :=
      response_of_build (Plan.build_minute MemoryStore.empty) .sample .sample _ rfl
    have htime : ∀ time ∈ Time.sample :: (.enlist (.sample 0 (.ok .empty)) ::
        List.replicate 8 (.step 0) : List (Action MemoryStore)).filterMap Action.systemTime?,
        time.secs + (Plan.minute MemoryStore.empty).age.max.secs < 9223372036854775808 := by
      decide +kernel
    obtain ⟨outcome, response, hdone⟩ := (hended hget hphase hfinished hsucceeds).2 (hearly htime 0)
    exact ⟨task, outcome, response, hget, hdone⟩
  . obtain ⟨task, hget, hphase, hfinished, hsucceeds⟩ :=
      exists_task_oneVisit .sampleOfWidest 8 (by decide +kernel) (by decide +kernel)
    have hwrites : ((oneVisit .sampleOfWidest 6).phase? 0).any Phase.isWriting = true := by decide +kernel
    obtain ⟨key, guard, entry, hwriting⟩ := exists_of_isWriting hwrites
    obtain ⟨hended, -⟩ := response_of_build Plan.build_widest .sample .sample _ rfl
    refine ⟨task, hget, (hended hget hphase hfinished hsucceeds).1 ?_⟩
    exact ⟨_, [.step 0], key, guard, entry, rfl, hwriting, by decide +kernel⟩
  . obtain ⟨-, -, hends⟩ := response_of_build (Plan.build_minute MemoryStore.empty) .sample .sample _ rfl
    exact hends

end ResponseCache
