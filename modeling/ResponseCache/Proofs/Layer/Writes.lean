import ResponseCache.Proofs.Layer.Calls
import ResponseCache.Proofs.Layer.Exclusion
import ResponseCache.Proofs.Layer.Origin
import ResponseCache.Store.Redis

/-!
This module contains the conditions under which the store is written on behalf of a request: it missed, its
handler gave a whole response, and responses with its status are stored. Whatever else comes of a request,
the store replies as if there had been none.
-/

namespace ResponseCache

open Cache StoreCall

/-- Whether a request has missed and may still write what its handler answers. -/
def Phase.hasMissed : Phase → Bool
  | .reading _ again => again
  | .discarding _ again => again
  | .deciding _ _ again => again
  | .joining .. => true
  | .locking .. => true
  | .queued .. => true
  | .calling decision _ => decision = .miss
  | .running decision _ _ _ => decision = .miss
  | .stamping decision _ _ => decision = .miss
  | .writing .. => true
  | _ => false

def Phase.isKeyless : Phase → Bool
  | .arriving => true
  | .calling _ guard => guard.isNone
  | .running _ guard _ _ => guard.isNone
  | .stamping _ guard _ => guard.isNone
  | .done _ => true
  | .cancelled => true
  | _ => false

/-- Whether a request has tried to write the store, as far as its answer tells. -/
def Phase.hasWritten (phase : Phase) : Prop :=
  phase = .cancelled
    ∨ phase.answer? = some .aborted
    ∨ ∃ response, phase.answer? = some (.response .miss response)

section

variable {σ : Type} [Backend σ] {layer : Layer} {first c : Cache σ} {i : Nat} {task : Task} {job : Job}
  {started : Time} {e : Effect σ} {key : String} {entry : Entry} {guard : Option Guard} {actions : List (Action σ)}

theorem hasMissed_finish (guard : Option Guard) (answer : Answer) :
    (Phase.finish guard answer).hasMissed = false := by
  cases guard <;> rfl

theorem key?_finish (guard : Option Guard) (answer : Answer) : (Phase.finish guard answer).key? = none := by
  cases guard <;> rfl

theorem isKeyless_finish {guard : Option Guard} (hnone : guard.isNone = true) (answer : Answer) :
    (Phase.finish guard answer).isKeyless = true := by
  cases guard with
  | none => rfl
  | some guard => nomatch hnone

theorem Transition.missed_of_hasMissed (h : Transition layer c i task e)
    (hold : task.phase.hasMissed = false) (hnew : e.phase.hasMissed = true) :
    ∃ key found, task.phase = .deciding key found false
      ∧ decideRequest found layer.policy (Layer.directivesOf task.job) (c.now layer) = .miss := by
  cases h with
  | missed hphase hdecision => exact ⟨_, _, hphase, hdecision⟩
  | unguarded hphase hdecision => exact ⟨_, _, hphase, hdecision.trans (of_decide_eq_true hnew)⟩
  | storable hphase hkey =>
    rw [hphase] at hold
    exact absurd (Layer.storageKey?_eq_some.1 hkey).2.1 (of_decide_eq_false hold)
  | refused => exact absurd ((hasMissed_finish _ _).symm.trans hnew) Bool.false_ne_true
  | failed => exact absurd ((hasMissed_finish _ _).symm.trans hnew) Bool.false_ne_true
  | unstorable => exact absurd ((hasMissed_finish _ _).symm.trans hnew) Bool.false_ne_true
  | wrote => exact absurd ((hasMissed_finish _ _).symm.trans hnew) Bool.false_ne_true
  | writeFailed => exact absurd ((hasMissed_finish _ _).symm.trans hnew) Bool.false_ne_true
  | writeAborted => exact absurd ((hasMissed_finish _ _).symm.trans hnew) Bool.false_ne_true
  | unready => nomatch hnew
  | keyed => nomatch hnew
  | keyless => nomatch hnew
  | hit => nomatch hnew
  | served => nomatch hnew
  | landed => nomatch hnew
  | _ =>
    rw [‹task.phase = _›] at hold
    exact absurd (hold.symm.trans hnew) Bool.false_ne_true

theorem Transition.stamped_of_writing (h : Transition layer c i task e)
    (hwriting : e.phase = .writing key guard entry) :
    ∃ snapshot, task.phase = .stamping .miss guard snapshot ∧ layer.keyOf task.job = some key
      ∧ layer.stores snapshot.status = true ∧ entry = c.stamped layer task snapshot := by
  cases h with
  | storable hphase hkey =>
    obtain ⟨rfl, rfl, rfl⟩ := Phase.writing.inj hwriting
    obtain ⟨hkeyOf, rfl, hstores⟩ := Layer.storageKey?_eq_some.1 hkey
    exact ⟨_, hphase, hkeyOf, hstores, rfl⟩
  | refused => exact absurd hwriting (Phase.finish_ne rfl _ _)
  | failed => exact absurd hwriting (Phase.finish_ne rfl _ _)
  | unstorable => exact absurd hwriting (Phase.finish_ne rfl _ _)
  | wrote => exact absurd hwriting (Phase.finish_ne rfl _ _)
  | writeFailed => exact absurd hwriting (Phase.finish_ne rfl _ _)
  | writeAborted => exact absurd hwriting (Phase.finish_ne rfl _ _)
  | _ => nomatch hwriting

theorem Transition.answered_of_stamping (h : Transition layer c i task e) {decision : Decision}
    {snapshot : Snapshot} (hstamping : e.phase = .stamping decision guard snapshot) :
    ∃ call reply, task.phase = .running decision guard 0 call
      ∧ task.job.handler.answer call = .ok reply ∧ reply.capture = .ok snapshot := by
  cases h with
  | @answered _ _ call _ hphase hanswer =>
    obtain ⟨rfl, rfl, rfl⟩ := Phase.stamping.inj hstamping
    cases hreply : task.job.handler.answer call with
    | error message =>
      rw [hreply] at hanswer
      nomatch hanswer
    | ok reply =>
      rw [hreply] at hanswer
      exact ⟨call, reply, hphase, hreply, hanswer⟩
  | refused => exact absurd hstamping (Phase.finish_ne rfl _ _)
  | failed => exact absurd hstamping (Phase.finish_ne rfl _ _)
  | unstorable => exact absurd hstamping (Phase.finish_ne rfl _ _)
  | wrote => exact absurd hstamping (Phase.finish_ne rfl _ _)
  | writeFailed => exact absurd hstamping (Phase.finish_ne rfl _ _)
  | writeAborted => exact absurd hstamping (Phase.finish_ne rfl _ _)
  | _ => nomatch hstamping

theorem Transition.keyOf_eq (h : Transition layer c i task e)
    (hold : ∀ key, task.phase.key? = some key → layer.keyOf task.job = some key) (key : String)
    (hnew : e.phase.key? = some key) : layer.keyOf task.job = some key := by
  cases h with
  | keyed hphase hready hkey => exact hkey.trans hnew
  | refused => nomatch (key?_finish _ _).symm.trans hnew
  | failed => nomatch (key?_finish _ _).symm.trans hnew
  | unstorable => nomatch (key?_finish _ _).symm.trans hnew
  | wrote => nomatch (key?_finish _ _).symm.trans hnew
  | writeFailed => nomatch (key?_finish _ _).symm.trans hnew
  | writeAborted => nomatch (key?_finish _ _).symm.trans hnew
  | unready => nomatch hnew
  | keyless => nomatch hnew
  | hit => nomatch hnew
  | unguarded => nomatch hnew
  | served => nomatch hnew
  | passedBy => nomatch hnew
  | answered => nomatch hnew
  | storable => nomatch hnew
  | landed => nomatch hnew
  | _ =>
    rw [‹task.phase = _›] at hold
    exact hold key hnew

theorem Transition.isKeyless (h : Transition layer c i task e) (hkey : layer.keyOf task.job = none)
    (hold : task.phase.isKeyless = true) : e.phase.isKeyless = true := by
  cases h with
  | keyed hphase hready hsome => nomatch hkey.symm.trans hsome
  | keyless => rfl
  | unready => rfl
  | called hphase =>
    rw [hphase] at hold
    exact hold
  | paused hphase =>
    rw [hphase] at hold
    exact hold
  | answered hphase =>
    rw [hphase] at hold
    exact hold
  | refused hphase =>
    rw [hphase] at hold
    exact isKeyless_finish hold _
  | failed hphase =>
    rw [hphase] at hold
    exact isKeyless_finish hold _
  | storable hphase hsome => nomatch hkey.symm.trans (Layer.storageKey?_eq_some.1 hsome).1
  | unstorable hphase =>
    rw [hphase] at hold
    exact isKeyless_finish hold _
  | _ =>
    rw [‹task.phase = _›] at hold
    nomatch hold

theorem Phase.storeCall?_of_isKeyless {phase : Phase} (hkeyless : phase.isKeyless = true) (now : Time) :
    phase.storeCall? layer now = none := by
  unfold Phase.storeCall?
  split
  next => nomatch hkeyless
  next => nomatch hkeyless
  next => nomatch hkeyless
  next => rfl

theorem Transition.hasWritten (h : Transition layer c i task e) (hold : task.phase.hasWritten) :
    e.phase.hasWritten := by
  obtain hcancelled | haborted | ⟨response, hmiss⟩ := hold
  . exact absurd hcancelled h.phase_ne_cancelled
  . exact .inr (.inl (h.answer?_eq_some haborted))
  . exact .inr (.inr ⟨response, h.answer?_eq_some hmiss⟩)

theorem Transition.hasWritten_of_writing (h : Transition layer c i task e) :
    task.phase = .writing key guard entry → e.phase.hasWritten := by
  cases h with
  | wrote => exact fun _ => .inr (.inr ⟨_, Phase.answer?_finish _ _⟩)
  | writeFailed => exact fun _ => .inr (.inr ⟨_, Phase.answer?_finish _ _⟩)
  | writeAborted => exact fun _ => .inr (.inl (Phase.answer?_finish _ _))
  | _ =>
    rw [‹task.phase = _›]
    nofun

/-- How a request comes by the answer of a miss: its handler has answered, and that was written or not. -/
theorem Transition.cases_of_miss (h : Transition layer c i task e) {response : Response}
    (hold : task.phase.answer? ≠ some (.response .miss response))
    (hnew : e.phase.answer? = some (.response .miss response)) :
    (∃ key guard entry, task.phase = .writing key guard entry ∧ response.status = entry.status)
      ∨ ∃ snapshot, layer.storageKey? task.job .miss (c.stamped layer task snapshot) = none
        ∧ response.status = snapshot.status := by
  cases h with
  | wrote hphase =>
    obtain rfl := (Answer.response.inj (Phase.eq_of_answer?_finish hnew)).2
    exact .inl ⟨_, _, _, hphase, rfl⟩
  | writeFailed hphase =>
    obtain rfl := (Answer.response.inj (Phase.eq_of_answer?_finish hnew)).2
    exact .inl ⟨_, _, _, hphase, rfl⟩
  | @unstorable decision _ snapshot hphase hkey =>
    obtain ⟨houtcome, rfl⟩ := Answer.response.inj (Phase.eq_of_answer?_finish hnew)
    cases decision with
    | miss => exact .inr ⟨snapshot, hkey, rfl⟩
    | hit => nomatch houtcome
    | bypass => nomatch houtcome
  | writeAborted => nomatch Phase.eq_of_answer?_finish hnew
  | refused => nomatch Phase.eq_of_answer?_finish hnew
  | failed => nomatch Phase.eq_of_answer?_finish hnew
  | landed hphase =>
    rw [hphase] at hold
    exact absurd hnew hold
  | _ => nomatch hnew

/--
What a request went through in a run before it writes the store: it missed; later on its handler answered,
and the whole body was there; and of that an entry was made which is stored by its status.
-/
structure Warrant (layer : Layer) (first : Cache σ) (actions : List (Action σ)) (i : Nat) (job : Job)
    (key : String) (entry : Entry) : Prop where
  keyOf_eq : layer.keyOf job = some key
  isDisabled_eq : layer.policy.isDisabled = false
  noStore_eq : (Layer.directivesOf job).noStore = false
  course : ∃ toDecision toAnswer toEntry found guard call reply snapshot generated,
    toDecision ++ [.step i] <+: toAnswer ∧ toAnswer ++ [.step i] <+: toEntry
      ∧ toEntry ++ [.step i] <+: actions
      ∧ (first.play layer toDecision).phase? i = some (.deciding key found false)
      ∧ decideRequest found layer.policy (Layer.directivesOf job) ((first.play layer toDecision).now layer)
        = .miss
      ∧ (first.play layer toAnswer).phase? i = some (.running .miss guard 0 call)
      ∧ job.handler.answer call = .ok reply ∧ reply.capture = .ok snapshot
      ∧ (first.play layer toEntry).phase? i = some (.stamping .miss guard snapshot)
      ∧ layer.stores snapshot.status = true
      ∧ generated = (first.play layer toEntry).now layer
      ∧ entry = ⟨snapshot.status, snapshot.headers, snapshot.body, generated,
        EntityTag.generate key snapshot.body generated⟩

theorem keyOf_eq_of_play (hfirst : first.tasks[i]? = some ⟨job, started, .arriving⟩)
    (hget : (first.play layer actions).tasks[i]? = some task) (hkey : task.phase.key? = some key) :
    layer.keyOf job = some key := by
  obtain ⟨t, ht, -, hkeys⟩ := exists_getElem?_play layer
    (P := fun phase => ∀ key, phase.key? = some key → layer.keyOf job = some key) nofun
    (by
      intro c t e hjob h hold
      obtain rfl : t.job = job := hjob
      exact h.keyOf_eq hold)
    hfirst nofun actions
  obtain rfl := Option.some.inj (ht.symm.trans hget)
  exact hkeys key hkey

theorem warrant_of_writing (hfirst : first.tasks[i]? = some ⟨job, started, .arriving⟩)
    (hget : (first.play layer actions).tasks[i]? = some task)
    (hwriting : task.phase = .writing key guard entry) : Warrant layer first actions i job key entry := by
  have harriving (t : Task) (ht : first.tasks[i]? = some t) : t.phase = .arriving := by
    rw [← Option.some.inj (hfirst.symm.trans ht)]
  -- Backwards through the run: to where the entry was made, to the answer, and to the decision.
  obtain ⟨toEntry, _, atEntry, _, hentry⟩ :=
    exists_crossing (Q := fun phase => phase = .writing key guard entry) nofun nofun harriving hget hwriting
  obtain ⟨snapshot, hstamping, hkey, hstores, rfl⟩ := hentry.transition.stamped_of_writing hentry.inside
  obtain ⟨toAnswer, _, atAnswer, _, hanswer⟩ :=
    exists_crossing (Q := fun phase => phase = .stamping .miss guard snapshot) nofun nofun harriving
      hentry.getElem?_eq hstamping
  obtain ⟨call, reply, hrunning, hreply, hcapture⟩ :=
    hanswer.transition.answered_of_stamping hanswer.inside
  have hmissed : atAnswer.phase.hasMissed = true := by
    rw [hrunning]
    rfl
  obtain ⟨toDecision, _, atDecision, _, hdecision⟩ :=
    exists_crossing (Q := fun phase => phase.hasMissed = true) nofun nofun harriving hanswer.getElem?_eq
      hmissed
  obtain ⟨other, found, hdeciding, hmiss⟩ :=
    hdecision.transition.missed_of_hasMissed (Bool.eq_false_iff.2 hdecision.outside) hdecision.inside
  rw [job_eq_of_play hfirst hentry.getElem?_eq] at hkey
  rw [job_eq_of_play hfirst hanswer.getElem?_eq] at hreply
  rw [job_eq_of_play hfirst hdecision.getElem?_eq] at hmiss
  -- The decision is one under the key of the request, as it has no other.
  obtain rfl : other = key := by
    have hother : layer.keyOf job = some other :=
      keyOf_eq_of_play hfirst hdecision.getElem?_eq (by rw [hdeciding]; rfl)
    exact Option.some.inj (hother.symm.trans hkey)
  obtain ⟨henabled, hstoring⟩ := enabled_of_decideRequest_eq_miss hmiss
  refine ⟨hkey, henabled, hstoring, toDecision, toAnswer, toEntry, found, guard, call, reply, snapshot, _,
    hdecision.isPrefix, hanswer.isPrefix, hentry.isPrefix,
    phase?_eq_some hdecision.getElem?_eq hdeciding, hmiss,
    phase?_eq_some hanswer.getElem?_eq hrunning, hreply, hcapture,
    phase?_eq_some hentry.getElem?_eq hstamping, hstores, rfl, ?_⟩
  unfold stamped Layer.tagKey Snapshot.toEntry
  rw [job_eq_of_play hfirst hentry.getElem?_eq, hkey]
  rfl

theorem storeCalls_eq_nil (hfirst : first.tasks[i]? = some ⟨job, started, .arriving⟩)
    (hkey : layer.keyOf job = none) (actions : List (Action σ)) :
    first.storeCalls layer i actions = [] := by
  rw [List.eq_nil_iff_forall_not_mem]
  intro call hmem
  obtain ⟨before, after, -, hcall⟩ := exists_of_mem_storeCalls hmem
  obtain ⟨t, ht, -, hkeyless⟩ := exists_getElem?_play layer
    (P := fun phase => phase.isKeyless = true) rfl
    (by
      intro c t e hjob h hold
      obtain rfl : t.job = job := hjob
      exact h.isKeyless hkey hold)
    hfirst rfl before
  rw [storeCall?_step ht, Phase.storeCall?_of_isKeyless hkeyless] at hcall
  nomatch hcall

theorem exists_writing_of_mem_storeCalls (hfirst : first.tasks[i]? = some ⟨job, started, .arriving⟩)
    {now : Time} {ttl : Duration} (hmem : .set now key entry ttl ∈ first.storeCalls layer i actions) :
    ttl = layer.policy.maxTtl ∧ ∃ before after task guard, actions = before ++ .step i :: after
      ∧ (first.play layer before).tasks[i]? = some task ∧ task.phase = .writing key guard entry := by
  obtain ⟨before, after, hactions, hcall⟩ := exists_of_mem_storeCalls hmem
  obtain ⟨task, hget, -⟩ := exists_getElem?_play layer (P := fun _ => True) trivial
    (fun _ _ _ => trivial) hfirst trivial before
  rw [storeCall?_step hget] at hcall
  obtain ⟨guard, hwriting, httl⟩ := Phase.writing_of_storeCall? hcall
  exact ⟨httl, before, after, task, guard, hactions, hget, hwriting⟩

/-- A request that has tried to write the store is answered as one that missed, unless it is aborted. -/
theorem hasWritten_of_writing {before after : List (Action σ)} (hactions : actions = before ++ .step i :: after)
    (hget : (first.play layer before).tasks[i]? = some task) (hwriting : task.phase = .writing key guard entry) :
    ∃ task, (first.play layer actions).tasks[i]? = some task ∧ task.phase.hasWritten := by
  obtain ⟨-, -, e, h, hstep⟩ :=
    exists_transition_of_storeCall? layer hget (storeCall?_of_writing hget hwriting)
  obtain ⟨t, ht, -, hwritten⟩ := exists_getElem?_play layer (P := Phase.hasWritten) (.inl rfl)
    (fun _ h => h.hasWritten) (getElem?_after_self hget e) (h.hasWritten_of_writing hwriting) after
  refine ⟨t, ?_, hwritten⟩
  rw [hactions, play_append, play_cons, act_step_of_eq_some hstep]
  exact ht

theorem exists_set_of_miss (hfirst : first.tasks[i]? = some ⟨job, started, .arriving⟩) {response : Response}
    (hphase : (first.play layer actions).phase? i = some (.done (.response .miss response)))
    (hkey : layer.keyOf job = some key) (hstores : layer.stores response.status = true) :
    ∃ now entry ttl, .set now key entry ttl ∈ first.storeCalls layer i actions := by
  have harriving (t : Task) (ht : first.tasks[i]? = some t) : t.phase = .arriving := by
    rw [← Option.some.inj (hfirst.symm.trans ht)]
  obtain ⟨task, hget, hdone⟩ := Option.map_eq_some_iff.1 hphase
  obtain ⟨before, after, old, e, h⟩ :=
    exists_crossing (Q := fun phase => phase.answer? = some (.response .miss response)) nofun nofun
      harriving hget (by rw [hdone]; rfl)
  have hjob := job_eq_of_play hfirst h.getElem?_eq
  obtain ⟨other, guard, entry, hwriting, -⟩ | ⟨snapshot, hnone, hstatus⟩ :=
    h.transition.cases_of_miss h.outside h.inside
  . have hother := (warrant_of_writing hfirst h.getElem?_eq hwriting).keyOf_eq
    obtain rfl := Option.some.inj (hother.symm.trans hkey)
    exact ⟨_, entry, _, mem_storeCalls h.actions_eq (storeCall?_of_writing h.getElem?_eq hwriting)⟩
  . -- Nothing else keeps the response of a miss from being stored.
    rw [hstatus] at hstores
    have hsome : layer.storageKey? old.job .miss ((first.play layer before).stamped layer old snapshot)
        = some key :=
      Layer.storageKey?_eq_some.2 ⟨(congrArg layer.keyOf hjob).trans hkey, rfl, hstores⟩
    nomatch hnone.symm.trans hsome

/--
What is done to the store on behalf of one request. It is asked for one write at most, which has its
warrant, and for none if the request has no key or is answered by anything but a miss; a miss whose status
is stored is written. While nothing else goes on, this is all that happens to the store, and unless it is
written it replies from then on as if there had been no request.
-/
theorem store_discipline (hfirst : first.tasks[i]? = some ⟨job, started, .arriving⟩) (layer : Layer)
    (actions : List (Action σ)) :
    (first.storeCalls layer i actions).countP isSet ≤ 1
      ∧ (layer.keyOf job = none → first.storeCalls layer i actions = [])
      ∧ (∀ {now : Time} {key : String} {entry : Entry} {ttl : Duration},
        .set now key entry ttl ∈ first.storeCalls layer i actions →
        ttl = .ofSecs layer.policy.maxSecs layer.policy.maxSecs_lt
          ∧ (∃ before, before ++ [.step i] <+: actions ∧ Warrant layer first before i job key entry)
          ∧ ∀ answer, (first.play layer actions).phase? i = some (.done answer) →
            answer = .aborted ∨ ∃ response, answer = .response .miss response)
      ∧ (∀ {response : Response} {key : String},
        (first.play layer actions).phase? i = some (.done (.response .miss response)) →
        layer.keyOf job = some key → layer.stores response.status = true →
        ∃ now entry ttl, .set now key entry ttl ∈ first.storeCalls layer i actions)
      ∧ (first.Alone layer i actions →
        (first.play layer actions).store = (first.storeCalls layer i actions).foldl perform first.store
          ∧ ∀ [Backend.Discreet σ], ¬SomeWrites first.store (first.storeCalls layer i actions) →
            SameReplies (first.play layer actions).systemTime (first.play layer actions).store
              first.store) := by
  refine ⟨?_, ?_, ?_, ?_, ?_⟩
  . exact Nat.le_trans (countP_storeCalls_le hfirst actions) (Phase.writesLeft_le _)
  . exact fun hkey => storeCalls_eq_nil hfirst hkey actions
  . intro now key entry ttl hmem
    obtain ⟨httl, before, after, task, guard, hactions, hget, hwriting⟩ :=
      exists_writing_of_mem_storeCalls hfirst hmem
    refine ⟨httl, ⟨before, ⟨after, ?_⟩, warrant_of_writing hfirst hget hwriting⟩, ?_⟩
    . rw [hactions, List.append_assoc]
      rfl
    . intro answer hphase
      obtain ⟨t, ht, hwritten⟩ := hasWritten_of_writing hactions hget hwriting
      rw [Option.some.inj ((phase?_eq_some ht rfl).symm.trans hphase)] at hwritten
      obtain hcancelled | haborted | ⟨response, hmiss⟩ := hwritten
      . nomatch hcancelled
      . exact .inl (Option.some.inj haborted)
      . exact .inr ⟨response, Option.some.inj hmiss⟩
  . exact fun hphase hkey hstores => exists_set_of_miss hfirst hphase hkey hstores
  . intro halone
    refine ⟨store_play_of_alone hfirst halone, ?_⟩
    intro _ hwrites
    apply sameReplies_of_alone hfirst halone _ hwrites
    exact .of_ne (.refl _ _) nofun

end

def Phase.isStorableMiss (layer : Layer) : Phase → Bool
  | .done (.response .miss response) => layer.stores response.status
  | _ => false

theorem exists_of_isStorableMiss {σ : Type} {layer : Layer} {c : Cache σ} {i : Nat}
    (h : (c.phase? i).any (Phase.isStorableMiss layer) = true) :
    ∃ response, c.phase? i = some (.done (.response .miss response))
      ∧ layer.stores response.status = true := by
  obtain ⟨phase, hphase, hmiss⟩ := (Option.any_eq_true _ _).1 h
  unfold Phase.isStorableMiss at hmiss
  split at hmiss
  next response => exact ⟨response, hphase, hmiss⟩
  next => nomatch hmiss

def oneRequest {σ : Type} (store : σ) (answer : Except String Reply) : Cache σ :=
  ((start store .epoch .epoch).enlist (.sample 0 answer)).1

theorem getElem?_oneRequest {σ : Type} (store : σ) (answer : Except String Reply) :
    (oneRequest store answer).tasks[0]? = some ⟨.sample 0 answer, .epoch, .arriving⟩ := rfl

/-- A request whose client takes nothing that is stored, and whose handler fails. -/
def failingRefresh : Job :=
  { Job.sample 0 (.error "") with
    request := ⟨"GET", .ofPath ['/'],
      [(.cacheControl, ⟨Bytes.Utf8.encode "max-age=0,min-fresh=1".toList, by decide⟩)]⟩ }

/-- A cache that has written the response to its first request, and to which such a one comes in. -/
def beforeRefresh {σ : Type} [Backend σ] (store : σ) : Cache σ :=
  (((oneRequest store (.ok .empty)).play (.sample false) (List.replicate 7 (.step 0))).enlist failingRefresh).1

def afterRefresh {σ : Type} [Backend σ] (store : σ) : Cache σ :=
  (beforeRefresh store).play (.sample false) (List.replicate 7 (.step 1))

theorem getElem?_beforeRefresh {σ : Type} [Backend σ] {store : σ}
    (hone : ((oneRequest store (.ok .empty)).play (.sample false) (List.replicate 7 (.step 0))).tasks.length
      = 1) :
    ∃ started, (beforeRefresh store).tasks[1]? = some ⟨failingRefresh, started, .arriving⟩ := by
  unfold beforeRefresh enlist
  rw [← hone]
  exact ⟨_, List.getElem?_concat_length⟩

theorem exists_of_isSome_join {found : Except StoreError (Option Entry)}
    (hsome : found.toOption.join.isSome = true) : ∃ entry, found = .ok (some entry) := by
  cases found with
  | error error => nomatch hsome
  | ok found =>
    obtain ⟨entry, rfl⟩ := Option.isSome_iff_exists.1 hsome
    exact ⟨entry, rfl⟩

/--
A request whose handler answers is written. One whose handler fails leaves no mark on a store, which holds the
response to an earlier request for the same.
-/
theorem store_discipline_of_failingRefresh :
    (∃ now entry, .set now "GET /" entry (Duration.ofSecs 60 (by decide))
          ∈ (oneRequest MemoryStore.empty (.ok .empty)).storeCalls (.sample false) 0
            (List.replicate 7 (.step 0))
        ∧ ∃ before, Warrant (.sample false) (oneRequest MemoryStore.empty (.ok .empty)) before 0
          (.sample 0 (.ok .empty)) "GET /" entry)
      ∧ ((∃ entry, (Backend.get (beforeRefresh MemoryStore.empty).store .epoch "GET /").result
            = .ok (some entry))
        ∧ 1 ∈ (afterRefresh MemoryStore.empty).callers
        ∧ SameReplies .epoch (afterRefresh MemoryStore.empty).store (beforeRefresh MemoryStore.empty).store)
      ∧ ((∃ entry, (Backend.get (beforeRefresh (RedisStore.empty "a")).store .epoch "GET /").result
            = .ok (some entry))
        ∧ 1 ∈ (afterRefresh (RedisStore.empty "a")).callers
        ∧ SameReplies .epoch (afterRefresh (RedisStore.empty "a")).store
          (beforeRefresh (RedisStore.empty "a")).store) := by
  have hunnoticed {σ : Type} [Backend σ] [Backend.Discreet σ] {store : σ}
      (hone : ((oneRequest store (.ok .empty)).play (.sample false) (List.replicate 7 (.step 0))).tasks.length
        = 1)
      (hsets : ((beforeRefresh store).storeCalls (.sample false) 1 (List.replicate 7 (.step 1))).countP isSet
        = 0)
      (htime : (afterRefresh store).systemTime = .epoch) :
      SameReplies .epoch (afterRefresh store).store (beforeRefresh store).store := by
    obtain ⟨started, hget⟩ := getElem?_beforeRefresh hone
    obtain ⟨-, -, -, -, halone⟩ := store_discipline hget (.sample false) (List.replicate 7 (.step 1))
    rw [← htime]
    exact (halone (alone_replicate _ _ _ _)).2 (not_someWrites_of_countP hsets _)
  refine ⟨?_, ⟨exists_of_isSome_join (by decide +kernel), by decide +kernel, ?_⟩,
    exists_of_isSome_join (by decide +kernel), by decide +kernel, ?_⟩
  . obtain ⟨-, -, hset, hmiss, -⟩ := store_discipline
      (getElem?_oneRequest MemoryStore.empty (.ok .empty)) (.sample false) (List.replicate 7 (.step 0))
    have hstorable : (((oneRequest MemoryStore.empty (.ok .empty)).play (.sample false)
        (List.replicate 7 (.step 0))).phase? 0).any (Phase.isStorableMiss (.sample false)) = true := by
      decide +kernel
    obtain ⟨response, hphase, hstores⟩ := exists_of_isStorableMiss hstorable
    have hkey : (Layer.sample false).keyOf (.sample 0 (.ok .empty)) = some "GET /" := by
      decide +kernel
    obtain ⟨now, entry, ttl, hmem⟩ := hmiss hphase hkey hstores
    obtain ⟨rfl, ⟨before, -, hwarrant⟩, -⟩ := hset hmem
    exact ⟨now, entry, hmem, before, hwarrant⟩
  . exact hunnoticed (by decide +kernel) (by decide +kernel) (by decide +kernel)
  . exact hunnoticed (by decide +kernel) (by decide +kernel) (by decide +kernel)

end ResponseCache
