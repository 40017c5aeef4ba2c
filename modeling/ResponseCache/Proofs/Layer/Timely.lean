import ResponseCache.Proofs.Layer.Progress

/-!
This module contains runs of requests of one kind, which come in and take their steps in any order, but none
of them prematurely: no flight ends while a request that found nothing has yet to look for it, and no request
asks for the lock of a flight before the leader does.
-/

namespace ResponseCache

open Cache

/--
Whether a request goes under a key, demands nothing of what it is served, and has a handler that always
succeeds with a response that is stored.
-/
structure Job.Suits (layer : Layer) (key : String) (job : Job) : Prop where
  keyOf_eq : layer.keyOf job = some key
  getAll_eq : job.request.headers.getAll "cache-control" = []
  unready_eq : job.handler.unready = none
  refusal_eq : job.handler.refusal = none
  answers : ∀ call, ∃ snapshot, (job.handler.answer call >>= Reply.capture) = .ok snapshot
    ∧ layer.stores snapshot.status = true

/-- Whether a request found nothing in the store and has yet to look for a flight. -/
def Phase.isSeeking : Phase → Bool
  | .deciding _ none false => true
  | .joining _ false => true
  | _ => false

/--
Whether the next step of a request is premature: it ends a flight while there is a request that found
nothing in the store and has yet to look for a flight, or it asks for a lock that is there to be taken by
a leader who has not asked for it.
-/
def Cache.isPremature {σ : Type} (c : Cache σ) (i : Nat) : Bool :=
  match c.phase? i with
  | some (.landing _ _) => c.tasks.any fun task => task.phase.isSeeking
  | some (.locking guard .follower) => c.tasks.any fun task => task.phase = .locking guard .leader
  | _ => false

section

variable {σ : Type} [Backend σ]

/--
The states that a cache comes to while requests of one kind come in and take their steps in any order, of
which none is premature. The clock by which responses age stands still.
-/
inductive Timely (layer : Layer) (key : String) (during : Time → Prop) (first : Cache σ) :
    Cache σ → Prop where
  | start : Timely layer key during first first
  | enlist {c : Cache σ} {job : Job} (h : Timely layer key during first c) (hjob : job.Suits layer key) :
      Timely layer key during first (c.enlist job).1
  | step {c c' : Cache σ} {i : Nat} (h : Timely layer key during first c) (hearly : c.isPremature i = false)
      (hstep : c.step layer i = some c') : Timely layer key during first c'
  | systemTime {c : Cache σ} {systemTime : Time} (h : Timely layer key during first c)
      (hclock : layer.clock = .manual) (hduring : during systemTime) :
      Timely layer key during first { c with systemTime := systemTime }

end

theorem AgePolicy.isDisabled_of_maxSecs_pos {policy : AgePolicy} (hmax : 1 ≤ policy.maxSecs) :
    policy.isDisabled = false := by
  unfold isDisabled
  rw [Bool.and_eq_false_iff, decide_eq_false_iff_not, decide_eq_false_iff_not]
  omega

namespace Job.Suits

variable {layer : Layer} {key : String} {job : Job}

theorem directivesOf_eq (h : job.Suits layer key) : Layer.directivesOf job = .none := by
  unfold Layer.directivesOf Directives.ofHeaders
  rw [h.getAll_eq]
  rfl

theorem decideRequest_none (h : job.Suits layer key) (hmax : 1 ≤ layer.policy.maxSecs) (now : Time) :
    decideRequest none layer.policy (Layer.directivesOf job) now = .miss := by
  rw [h.directivesOf_eq]
  unfold decideRequest
  rw [AgePolicy.isDisabled_of_maxSecs_pos hmax]
  rfl

theorem decideRequest_some (h : job.Suits layer key) (hmax : 1 ≤ layer.policy.maxSecs) {entry : Entry}
    {now : Time} (hlast : entry.lastValid = now) :
    decideRequest (some entry) layer.policy (Layer.directivesOf job) now = .hit := by
  have hage : now.secsSince entry.lastValid = 0 := by
    unfold Time.secsSince Time.nanosSince
    rw [hlast, Int.sub_self]
    rfl
  rw [h.directivesOf_eq, decideRequest_some_eq_hit_iff (AgePolicy.isDisabled_of_maxSecs_pos hmax),
    Freshness.isFresh_iff, Freshness.evaluate_age, hage, Freshness.evaluate_of_minFresh_none rfl]
  exact ⟨Nat.zero_le _, Nat.zero_le _⟩

end Job.Suits

def Phase.mayBeEarly : Phase → Bool
  | .landing _ _ => true
  | .locking _ .follower => true
  | _ => false

theorem Phase.mayBeEarly_of_isSeeking {phase : Phase} (h : phase.isSeeking = true) :
    phase.isReady = true ∧ phase.mayBeEarly = false := by
  unfold isSeeking at h
  split at h
  next => exact ⟨rfl, rfl⟩
  next => exact ⟨rfl, rfl⟩
  next => nomatch h

section

variable {σ : Type} {layer : Layer} {key : String} {during : Time → Prop} {c c' : Cache σ} {i : Nat}
  {task : Task}

theorem isSeeking_of_landing (hearly : c.isPremature i = false) (hget : c.tasks[i]? = some task) {guard : Guard}
    {answer : Answer} (hphase : task.phase = .landing guard answer) {k : Nat} {other : Task}
    (hother : c.tasks[k]? = some other) : other.phase.isSeeking = false := by
  unfold isPremature at hearly
  rw [phase?_eq_some hget hphase] at hearly
  exact Bool.eq_false_iff.2 (List.any_eq_false.1 hearly other (List.mem_of_getElem? hother))

theorem ne_locking_of_locking (hearly : c.isPremature i = false) (hget : c.tasks[i]? = some task) {guard : Guard}
    (hphase : task.phase = .locking guard .follower) {k : Nat} {other : Task}
    (hother : c.tasks[k]? = some other) : other.phase ≠ .locking guard .leader := by
  unfold isPremature at hearly
  rw [phase?_eq_some hget hphase] at hearly
  have hne := List.any_eq_false.1 hearly other (List.mem_of_getElem? hother)
  rwa [decide_eq_true_eq] at hne

theorem isPremature_eq_false (hget : c.tasks[i]? = some task) (hphase : task.phase.mayBeEarly = false) :
    c.isPremature i = false := by
  unfold isPremature
  rw [phase?_eq_some hget rfl]
  split
  next heq =>
    rw [Option.some.inj heq] at hphase
    nomatch hphase
  next heq =>
    rw [Option.some.inj heq] at hphase
    nomatch hphase
  next => rfl

theorem isPremature_eq_false_of_all
    (hall : ∀ task ∈ c.tasks, task.phase.isReady = true → task.phase.mayBeEarly = true) (i : Nat) :
    c.isPremature i = false := by
  unfold isPremature
  split
  next =>
    rw [List.any_eq_false]
    intro task htask hseeking
    obtain ⟨hready, hnot⟩ := Phase.mayBeEarly_of_isSeeking hseeking
    nomatch hnot.symm.trans (hall task htask hready)
  next =>
    rw [List.any_eq_false]
    intro task htask hlocking
    have hphase := of_decide_eq_true hlocking
    nomatch hphase ▸ hall task htask (hphase ▸ rfl)
  next => rfl

variable [Backend σ]

theorem exists_timely_step (hstep : c.step layer i = some c') :
    ∃ k c'', c.isPremature k = false ∧ c.step layer k = some c'' := by
  by_cases hcalm : ∃ (k : Nat) (task : Task), c.tasks[k]? = some task ∧ task.phase.isReady = true
      ∧ task.phase.mayBeEarly = false
  . obtain ⟨k, task, hget, hready, hphase⟩ := hcalm
    obtain ⟨e, -, h⟩ := exists_transition_of_isReady layer hget hready
    exact ⟨k, _, isPremature_eq_false hget hphase, h⟩
  . -- Nobody is left on whose account a step could be premature.
    refine ⟨i, c', isPremature_eq_false_of_all ?_ i, hstep⟩
    intro task htask hready
    obtain ⟨k, hget⟩ := List.getElem?_of_mem htask
    rw [← Bool.not_eq_false]
    exact fun hphase => hcalm ⟨k, task, hget, hready, hphase⟩

structure Attended (layer : Layer) (key : String) (during : Time → Prop) (now : Time) (c : Cache σ) : Prop where
  now_eq : c.now layer = now
  during_systemTime : during c.systemTime
  suits : ∀ {i : Nat} {task : Task}, c.tasks[i]? = some task → task.job.Suits layer key

namespace Timely

variable {store : σ} {clock systemTime : Time} {first : Cache σ}

theorem reachable {drift : σ → σ → Prop} (h : Timely layer key during first c) :
    Reachable layer drift first c := by
  induction h with
  | start => exact .start
  | enlist _ _ ih => exact .move ih (.enlist _)
  | step _ _ hstep ih => exact .move ih (.step hstep)
  | systemTime _ _ _ ih => exact .move ih (.systemTime _)

theorem governed (h : Timely layer key during (Cache.start store clock systemTime) c) : Governed c := by
  have hreach : Reachable layer (fun _ _ => False) (Cache.start store clock systemTime) c := h.reachable
  exact governed_of_reachable hreach

theorem attended (hduring : during systemTime)
    (h : Timely layer key during (Cache.start store clock systemTime) c) :
    Attended layer key during ((Cache.start store clock systemTime).now layer) c := by
  induction h with
  | start => exact ⟨rfl, hduring, fun hget => nomatch hget⟩
  | enlist _ hjob ih =>
    refine ⟨ih.now_eq, ih.during_systemTime, ?_⟩
    intro k task hget
    cases getElem?_enlist hget with
    | inl hold => exact ih.suits hold
    | inr hnew =>
      obtain ⟨-, rfl⟩ := hnew
      exact hjob
  | step _ _ hstep ih =>
    obtain ⟨task, e, hget, h, rfl⟩ := Transition.of_step hstep
    refine ⟨ih.now_eq, ih.during_systemTime, ?_⟩
    intro k other hother
    cases getElem?_after e hother with
    | inl hself =>
      obtain ⟨rfl, rfl⟩ := hself
      have hsuits := ih.suits hget
      exact hsuits
    | inr hold => exact ih.suits hold.2
  | systemTime _ hclock hduring' ih =>
    refine ⟨?_, hduring', ih.suits⟩
    rw [← ih.now_eq]
    unfold Cache.now
    rw [hclock]

end Timely

/-- Takes steps of requests in order, unless one is premature or cannot be taken. -/
def Cache.stepsInTime (c : Cache σ) (layer : Layer) : List Nat → Option (Cache σ)
  | [] => some c
  | i :: order =>
    if c.isPremature i then none else (c.step layer i).bind fun c => c.stepsInTime layer order

theorem Timely.stepsInTime {first : Cache σ} (h : Timely layer key during first c) {order : List Nat}
    (hsteps : c.stepsInTime layer order = some c') : Timely layer key during first c' := by
  induction order generalizing c with
  | nil => exact Option.some.inj hsteps ▸ h
  | cons i order ih =>
    unfold Cache.stepsInTime at hsteps
    split at hsteps
    next => nomatch hsteps
    next hearly =>
      obtain ⟨c'', hstep, hrest⟩ := Option.bind_eq_some_iff.1 hsteps
      exact ih (h.step (Bool.eq_false_iff.2 hearly) hstep) hrest

end

end ResponseCache
