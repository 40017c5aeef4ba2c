import ResponseCache.Layer.Step
import ResponseCache.Proofs.Freshness

/-!
This module contains all that a step of a request can do, as one rule for each way that a step can go.
A rule says where the request was and what holds there, and the effect of the step: the point that
the request comes to, and the store, the flights, the number of calls and the records after it.
-/

namespace ResponseCache

structure Effect (σ : Type) where
  phase : Phase
  started : Time
  store : σ
  flights : Flights
  calls : Nat
  records : List Record

namespace Cache

variable {σ : Type}

/-- The effect of a step that changes nothing but the request itself. -/
def stay (c : Cache σ) (task : Task) (phase : Phase) (records : List Record) : Effect σ :=
  ⟨phase, task.started, c.store, c.flights, c.calls, records⟩

def after (c : Cache σ) (i : Nat) (task : Task) (e : Effect σ) : Cache σ :=
  { c with
    store := e.store
    flights := e.flights
    tasks := c.tasks.set i ⟨task.job, e.started, e.phase⟩
    calls := e.calls
    history := c.history ++ e.records.map (Note.mk i) }

def reporting (c : Cache σ) (layer : Layer) (records : List Record) (e : Event) : List Record :=
  records ++ layer.report (c.history.length + records.length) e

/-- The records of a request that is decided on, which only the first decision leaves. -/
def deciding (task : Task) (key : String) (decision : Decision) (again : Bool) : List Record :=
  if again then []
  else [.logged (.decided key decision task.job.request.method task.job.request.target)]

def failing (c : Cache σ) (layer : Layer) (i : Nat) (task : Task) (message : String) :
    List Record :=
  c.reporting layer [.logged (.handlerFailed (layer.keyOf task.job) message), .counted .error]
    (layer.event c.systemTime i task .error)

def hitEvent (c : Cache σ) (layer : Layer) (i : Nat) (task : Task) (entry : Entry) : Event :=
  let age := (Freshness.evaluate entry.lastValid layer.policy .none (c.now layer)).age
  let event := layer.event c.systemTime i task
  if Layer.serve.isRevalidated task.job entry then
    { event .notModified with
      status := some .notModified, etag := some entry.etag, age := some age }
  else
    { event .hit with
      status := some entry.status, etag := some entry.etag, age := some age
      size := some entry.body.length }

/-- The entry that is made of what the handler of a request answered. -/
def stamped (c : Cache σ) (layer : Layer) (task : Task) (snapshot : Snapshot) : Entry :=
  snapshot.toEntry (EntityTag.generate (layer.tagKey task.job) snapshot.body (c.now layer))
    (c.now layer)

def stamping (c : Cache σ) (layer : Layer) (i : Nat) (task : Task) (decision : Decision)
    (entry : Entry) : List Record :=
  c.reporting layer [.counted (if decision = .miss then .miss else .bypass)]
    { layer.event c.systemTime i task (.ofOutcome decision.outcome) with
      status := some entry.status, etag := some entry.etag, size := some entry.body.length }

end Cache

open Cache

section

variable {σ : Type} [Backend σ]

/-- The ways that a step of a request can go, with what each of them leaves behind. -/
inductive Transition (layer : Layer) (c : Cache σ) (i : Nat) (task : Task) : Effect σ → Prop where
  | unready {message : String} (hphase : task.phase = .arriving)
      (hready : task.job.handler.unready = some message) :
      Transition layer c i task
        { c.stay task (.done (.unready message)) [] with started := c.systemTime }
  | keyed {key : String} (hphase : task.phase = .arriving)
      (hready : task.job.handler.unready = none) (hkey : layer.keyOf task.job = some key) :
      Transition layer c i task
        { c.stay task (.reading key false) [] with started := c.systemTime }
  | keyless (hphase : task.phase = .arriving) (hready : task.job.handler.unready = none)
      (hkey : layer.keyOf task.job = none) :
      Transition layer c i task
        { c.stay task (.calling .bypass none) [] with started := c.systemTime }
  | foundExpired {key : String} {again : Bool} (hphase : task.phase = .reading key again)
      (hresult : (Backend.look c.store c.systemTime key).result = .ok .expired) :
      Transition layer c i task
        { c.stay task (.discarding key again)
            ((Backend.look c.store c.systemTime key).records []) with
          store := (Backend.look c.store c.systemTime key).store }
  | looked {key : String} {again : Bool} {found : Finding}
      (hphase : task.phase = .reading key again)
      (hresult : (Backend.look c.store c.systemTime key).result = .ok found)
      (hfound : found ≠ .expired) :
      Transition layer c i task
        { c.stay task (.deciding key found.entry? again)
            ((Backend.look c.store c.systemTime key).records [.read key (.ok found.entry?)]) with
          store := (Backend.look c.store c.systemTime key).store }
  | lookFailed {key : String} {again : Bool} {error : StoreError}
      (hphase : task.phase = .reading key again)
      (hresult : (Backend.look c.store c.systemTime key).result = .error error) :
      Transition layer c i task
        { c.stay task (.deciding key none again)
            (c.reporting layer
              ((Backend.look c.store c.systemTime key).records [.read key (.error error)]
                ++ [.logged (.lookupFailed key error), .counted .lookupError])
              (layer.event c.systemTime i task .lookupFailed)) with
          store := (Backend.look c.store c.systemTime key).store }
  | discarded {key : String} {again : Bool} (hphase : task.phase = .discarding key again) :
      Transition layer c i task
        { c.stay task (.deciding key none again) [.read key (.ok none)] with
          store := Backend.discard c.store key }
  | hit {key : String} {again : Bool} {entry : Entry}
      (hphase : task.phase = .deciding key (some entry) again)
      (hdecision : decideRequest (some entry) layer.policy (Layer.directivesOf task.job)
        (c.now layer) = .hit) :
      Transition layer c i task (c.stay task (.serving entry) (deciding task key .hit again))
  | missedAgain {key : String} {found : Option Entry}
      (hphase : task.phase = .deciding key found true)
      (hdecision : decideRequest found layer.policy (Layer.directivesOf task.job)
        (c.now layer) ≠ .hit) :
      Transition layer c i task (c.stay task (.joining key true) [])
  | missed {key : String} {found : Option Entry} (hphase : task.phase = .deciding key found false)
      (hdecision : decideRequest found layer.policy (Layer.directivesOf task.job)
        (c.now layer) = .miss)
      (hflight : layer.singleFlight = true) :
      Transition layer c i task
        (c.stay task (.joining key false) (deciding task key .miss false))
  | unguarded {key : String} {found : Option Entry} {decision : Decision}
      (hphase : task.phase = .deciding key found false)
      (hdecision : decideRequest found layer.policy (Layer.directivesOf task.job)
        (c.now layer) = decision)
      (hne : decision ≠ .hit) (hflight : ¬(layer.singleFlight = true ∧ decision = .miss)) :
      Transition layer c i task
        (c.stay task (.calling decision none) (deciding task key decision false))
  | served {entry : Entry} (hphase : task.phase = .serving entry) :
      Transition layer c i task
        (c.stay task (.done (.response .hit (layer.serve task.job entry (c.now layer))))
          (c.reporting layer [.counted .hit] (c.hitEvent layer i task entry)))
  | began {key : String} {again : Bool} (hphase : task.phase = .joining key again)
      (hlead : c.flights.lead? key = none) :
      Transition layer c i task
        { c.stay task (.locking ⟨key, c.flights.locks.length⟩ .leader) [] with
          flights := c.flights.start key }
  | followed {key : String} {id : Nat} (hphase : task.phase = .joining key false)
      (hlead : c.flights.lead? key = some id) :
      Transition layer c i task (c.stay task (.locking ⟨key, id⟩ .follower) [])
  | passedBy {key : String} {id : Nat} (hphase : task.phase = .joining key true)
      (hlead : c.flights.lead? key = some id) :
      Transition layer c i task (c.stay task (.calling .miss none) [])
  | queued {guard : Guard} {role : Role} {j : Nat} (hphase : task.phase = .locking guard role)
      (hholder : (c.flights.lock guard.lock).holder = some j) :
      Transition layer c i task
        { c.stay task (.queued guard role) [] with
          flights := c.flights.modify guard.lock fun l => { l with waiters := l.waiters ++ [i] } }
  | ledAtOnce {guard : Guard} (hphase : task.phase = .locking guard .leader)
      (hholder : (c.flights.lock guard.lock).holder = none) :
      Transition layer c i task
        { c.stay task (.calling .miss (some guard)) [] with
          flights := c.flights.modify guard.lock fun l => { l with holder := some i } }
  | followedAtOnce {guard : Guard} (hphase : task.phase = .locking guard .follower)
      (hholder : (c.flights.lock guard.lock).holder = none) :
      Transition layer c i task
        { c.stay task (.reading guard.key true) [] with
          flights := (c.flights.modify guard.lock fun l => { l with holder := some i }).modify
            guard.lock Lock.release }
  | led {guard : Guard} (hphase : task.phase = .queued guard .leader)
      (hholder : (c.flights.lock guard.lock).holder = some i) :
      Transition layer c i task (c.stay task (.calling .miss (some guard)) [])
  | waited {guard : Guard} (hphase : task.phase = .queued guard .follower)
      (hholder : (c.flights.lock guard.lock).holder = some i) :
      Transition layer c i task
        { c.stay task (.reading guard.key true) [] with
          flights := c.flights.modify guard.lock Lock.release }
  | refused {decision : Decision} {guard : Option Guard} {message : String}
      (hphase : task.phase = .calling decision guard)
      (hready : task.job.handler.refusal = some message) :
      Transition layer c i task
        (c.stay task (.finish guard (.failed message)) (c.failing layer i task message))
  | called {decision : Decision} {guard : Option Guard}
      (hphase : task.phase = .calling decision guard) (hready : task.job.handler.refusal = none) :
      Transition layer c i task
        { c.stay task (.running decision guard task.job.handler.pauses (c.calls + 1)) [.called] with
          calls := c.calls + 1 }
  | paused {decision : Decision} {guard : Option Guard} {pauses call : Nat}
      (hphase : task.phase = .running decision guard (pauses + 1) call) :
      Transition layer c i task (c.stay task (.running decision guard pauses call) [])
  | failed {decision : Decision} {guard : Option Guard} {call : Nat} {message : String}
      (hphase : task.phase = .running decision guard 0 call)
      (hanswer : (task.job.handler.answer call >>= Reply.capture) = .error message) :
      Transition layer c i task
        (c.stay task (.finish guard (.failed message)) (c.failing layer i task message))
  | answered {decision : Decision} {guard : Option Guard} {call : Nat} {snapshot : Snapshot}
      (hphase : task.phase = .running decision guard 0 call)
      (hanswer : (task.job.handler.answer call >>= Reply.capture) = .ok snapshot) :
      Transition layer c i task (c.stay task (.stamping decision guard snapshot) [])
  | storable {decision : Decision} {guard : Option Guard} {snapshot : Snapshot} {key : String}
      (hphase : task.phase = .stamping decision guard snapshot)
      (hkey : layer.storageKey? task.job decision (c.stamped layer task snapshot) = some key) :
      Transition layer c i task
        (c.stay task (.writing key guard (c.stamped layer task snapshot))
          (c.stamping layer i task decision (c.stamped layer task snapshot)))
  | unstorable {decision : Decision} {guard : Option Guard} {snapshot : Snapshot}
      (hphase : task.phase = .stamping decision guard snapshot)
      (hkey : layer.storageKey? task.job decision (c.stamped layer task snapshot) = none) :
      Transition layer c i task
        (c.stay task
          (.finish guard
            (.response decision.outcome (layer.replay (c.stamped layer task snapshot) false)))
          (c.stamping layer i task decision (c.stamped layer task snapshot)))
  | wrote {key : String} {guard : Option Guard} {entry : Entry}
      (hphase : task.phase = .writing key guard entry)
      (hresult : (Backend.set c.store c.systemTime key entry layer.policy.maxTtl).result = .ok ()) :
      Transition layer c i task
        { c.stay task (.finish guard (.response .miss (layer.replay entry true)))
            (c.reporting layer
              ((Backend.set c.store c.systemTime key entry layer.policy.maxTtl).records
                [.wrote key entry layer.policy.maxTtl true] ++ [.counted .store])
              { layer.event c.systemTime i task .store with
                etag := some entry.etag, size := some entry.body.length
                ttl := some layer.policy.maxTtl.secs }) with
          store := (Backend.set c.store c.systemTime key entry layer.policy.maxTtl).store }
  | writeFailed {key : String} {guard : Option Guard} {entry : Entry} {error : StoreError}
      (hphase : task.phase = .writing key guard entry)
      (hresult : (Backend.set c.store c.systemTime key entry layer.policy.maxTtl).result
        = .error (.error error)) :
      Transition layer c i task
        { c.stay task (.finish guard (.response .miss (layer.replay entry false)))
            (c.reporting layer
              ((Backend.set c.store c.systemTime key entry layer.policy.maxTtl).records
                [.wrote key entry layer.policy.maxTtl false]
                ++ [.logged (.storeFailed key error), .counted .storeError])
              (layer.event c.systemTime i task .storeFailed)) with
          store := (Backend.set c.store c.systemTime key entry layer.policy.maxTtl).store }
  | writeAborted {key : String} {guard : Option Guard} {entry : Entry}
      (hphase : task.phase = .writing key guard entry)
      (hresult : (Backend.set c.store c.systemTime key entry layer.policy.maxTtl).result
        = .error .overflow) :
      Transition layer c i task
        { c.stay task (.finish guard .aborted)
            ((Backend.set c.store c.systemTime key entry layer.policy.maxTtl).records []) with
          store := (Backend.set c.store c.systemTime key entry layer.policy.maxTtl).store }
  | landed {guard : Guard} {answer : Answer} (hphase : task.phase = .landing guard answer) :
      Transition layer c i task
        { c.stay task (.done answer) [] with
          flights := c.flights.finish guard.key guard.lock }

end

section

variable {σ : Type} {c : Cache σ} {layer : Layer} {i : Nat} {task : Task}

namespace Cache

theorem modify_phase (hget : c.tasks[i]? = some task) (phase : Phase) :
    (c.tasks.modify i fun t => { t with phase := phase })
      = c.tasks.set i ⟨task.job, task.started, phase⟩ := by
  have : Inhabited Task := ⟨task⟩
  rw [List.modify_eq_set, hget]
  rfl

theorem modify_started_phase (hget : c.tasks[i]? = some task) (started : Time) (phase : Phase) :
    ((c.tasks.modify i fun t => { t with started := started }).modify i fun t =>
        { t with phase := phase })
      = c.tasks.set i ⟨task.job, started, phase⟩ := by
  have : Inhabited Task := ⟨task⟩
  rw [List.modify_modify_eq, List.modify_eq_set, hget]
  rfl

theorem fail_eq_after (hget : c.tasks[i]? = some task) (guard : Option Guard) (message : String) :
    c.fail layer i task guard message
      = c.after i task
          (c.stay task (.finish guard (.failed message)) (c.failing layer i task message)) := by
  simp only [fail, failing, Cache.report, goto, note, reporting, after, stay, modify_phase hget,
    List.map_append, List.append_assoc, List.length_append, List.length_map]

end Cache

variable [Backend σ]

namespace Transition

theorem of_arrive (hget : c.tasks[i]? = some task) (hphase : task.phase = .arriving) :
    ∃ e, Transition layer c i task e ∧ c.arrive layer i task = c.after i task e := by
  unfold arrive
  simp only [goto, modify_started_phase hget]
  split
  next message hready =>
    refine ⟨_, .unready hphase hready, ?_⟩
    simp only [after, stay, List.map_nil, List.append_nil]
  next hready =>
    split
    next key hkey =>
      refine ⟨_, .keyed hphase hready hkey, ?_⟩
      simp only [after, stay, List.map_nil, List.append_nil]
    next hkey =>
      refine ⟨_, .keyless hphase hready hkey, ?_⟩
      simp only [after, stay, List.map_nil, List.append_nil]

theorem of_look (hget : c.tasks[i]? = some task) {key : String} {again : Bool}
    (hphase : task.phase = .reading key again) :
    ∃ e, Transition layer c i task e ∧ c.look layer i task key again = c.after i task e := by
  unfold look
  simp only [goto, note, modify_phase hget]
  split
  next hresult => exact ⟨_, .foundExpired hphase hresult, rfl⟩
  next found hresult hfound => exact ⟨_, .looked hphase hfound hresult, rfl⟩
  next error hresult =>
    refine ⟨_, .lookFailed hphase hresult, ?_⟩
    simp only [Cache.report, note, reporting, after, stay, modify_phase hget, List.map_append,
      List.append_assoc, List.length_append, List.length_map]

theorem of_discard (hget : c.tasks[i]? = some task) {key : String} {again : Bool}
    (hphase : task.phase = .discarding key again) :
    ∃ e, Transition layer c i task e ∧ c.discard i key again = c.after i task e := by
  refine ⟨_, .discarded hphase, ?_⟩
  simp only [Cache.discard, goto, note, after, stay, modify_phase hget]

theorem of_decide (hget : c.tasks[i]? = some task) {key : String} {found : Option Entry}
    {again : Bool} (hphase : task.phase = .deciding key found again) :
    ∃ e, Transition layer c i task e
      ∧ c.decide layer i task key found again = c.after i task e := by
  -- The records of the decision come first, whatever it is.
  have hdeciding (decision : Decision) :
      (if again then c
        else c.note i [.logged (.decided key decision task.job.request.method
          task.job.request.target)])
        = { c with history :=
              c.history ++ (deciding task key decision again).map (Note.mk i) } := by
    unfold deciding note
    split
    . simp only [List.map_nil, List.append_nil]
    . rfl
  have hmissed (hnot : ∀ entry, decideRequest found layer.policy (Layer.directivesOf task.job)
        (c.now layer) = .hit → found = some entry → False) :
      decideRequest found layer.policy (Layer.directivesOf task.job) (c.now layer) ≠ .hit := by
    intro hhit
    cases found with
    | none => exact decideRequest_none_ne_hit _ _ _ hhit
    | some entry => exact hnot entry hhit rfl
  unfold Cache.decide
  simp only [hdeciding, goto, modify_phase hget]
  split
  next entry hdecision =>
    rw [hdecision]
    exact ⟨_, .hit hphase hdecision, rfl⟩
  next hnot =>
    have hne := hmissed hnot
    split
    next hagain =>
      subst hagain
      exact ⟨_, .missedAgain hphase hne, rfl⟩
    next hagain =>
      obtain rfl : again = false := by simpa using hagain
      split
      next hflight =>
        rw [hflight.2]
        exact ⟨_, .missed hphase hflight.2 hflight.1, rfl⟩
      next hflight => exact ⟨_, .unguarded hphase rfl hne hflight, rfl⟩

theorem of_serve (hget : c.tasks[i]? = some task) {entry : Entry}
    (hphase : task.phase = .serving entry) :
    ∃ e, Transition layer c i task e ∧ c.serve layer i task entry = c.after i task e := by
  refine ⟨_, .served hphase, ?_⟩
  simp only [Cache.serve, Cache.report, goto, note, reporting, hitEvent, after, stay,
    modify_phase hget, List.map_append, List.append_assoc, List.length_append, List.length_map]

theorem of_join (hget : c.tasks[i]? = some task) {key : String} {again : Bool}
    (hphase : task.phase = .joining key again) :
    ∃ e, Transition layer c i task e ∧ c.join i key again = c.after i task e := by
  unfold join
  simp only [goto, modify_phase hget]
  split
  next hlead =>
    refine ⟨_, .began hphase hlead, ?_⟩
    simp only [after, stay, List.map_nil, List.append_nil]
  next id hlead =>
    cases again with
    | true =>
      refine ⟨_, .passedBy hphase hlead, ?_⟩
      simp only [after, stay, List.map_nil, List.append_nil, if_true]
    | false =>
      refine ⟨_, .followed hphase hlead, ?_⟩
      simp only [after, stay, List.map_nil, List.append_nil, Bool.false_eq_true, if_false]

theorem of_acquire (hget : c.tasks[i]? = some task) {guard : Guard} {role : Role}
    (hphase : task.phase = .locking guard role) :
    ∃ e, Transition layer c i task e ∧ c.acquire i guard role = c.after i task e := by
  unfold acquire
  split
  next hholder =>
    cases role with
    | leader =>
      refine ⟨_, .ledAtOnce hphase hholder, ?_⟩
      simp only [enter, goto, after, stay, modify_phase hget, List.map_nil, List.append_nil]
    | follower =>
      refine ⟨_, .followedAtOnce hphase hholder, ?_⟩
      simp only [enter, goto, after, stay, modify_phase hget, List.map_nil, List.append_nil]
  next j hholder =>
    refine ⟨_, .queued hphase hholder, ?_⟩
    simp only [goto, after, stay, modify_phase hget, List.map_nil, List.append_nil]

theorem of_enter (hget : c.tasks[i]? = some task) {guard : Guard} {role : Role}
    (hphase : task.phase = .queued guard role)
    (hholder : (c.flights.lock guard.lock).holder = some i) :
    ∃ e, Transition layer c i task e ∧ c.enter i guard role = c.after i task e := by
  cases role with
  | leader =>
    refine ⟨_, .led hphase hholder, ?_⟩
    simp only [enter, goto, after, stay, modify_phase hget, List.map_nil, List.append_nil]
  | follower =>
    refine ⟨_, .waited hphase hholder, ?_⟩
    simp only [enter, goto, after, stay, modify_phase hget, List.map_nil, List.append_nil]

theorem of_call (hget : c.tasks[i]? = some task) {decision : Decision} {guard : Option Guard}
    (hphase : task.phase = .calling decision guard) :
    ∃ e, Transition layer c i task e
      ∧ c.call layer i task decision guard = c.after i task e := by
  unfold call
  split
  next message hready => exact ⟨_, .refused hphase hready, fail_eq_after hget guard message⟩
  next hready =>
    refine ⟨_, .called hphase hready, ?_⟩
    simp only [goto, note, after, stay, modify_phase hget]

theorem of_respond (hget : c.tasks[i]? = some task) {decision : Decision} {guard : Option Guard}
    {call : Nat} (hphase : task.phase = .running decision guard 0 call) :
    ∃ e, Transition layer c i task e
      ∧ c.respond layer i task decision guard call = c.after i task e := by
  unfold respond
  split
  next message hanswer => exact ⟨_, .failed hphase hanswer, fail_eq_after hget guard message⟩
  next snapshot hanswer =>
    refine ⟨_, .answered hphase hanswer, ?_⟩
    simp only [goto, after, stay, modify_phase hget, List.map_nil, List.append_nil]

theorem of_stamp (hget : c.tasks[i]? = some task) {decision : Decision} {guard : Option Guard}
    {snapshot : Snapshot} (hphase : task.phase = .stamping decision guard snapshot) :
    ∃ e, Transition layer c i task e
      ∧ c.stamp layer i task decision guard snapshot = c.after i task e := by
  unfold stamp
  simp only [Cache.report, goto, note, modify_phase hget]
  split
  next key hkey =>
    refine ⟨_, .storable hphase hkey, ?_⟩
    simp only [stamping, stamped, reporting, after, stay, List.map_append, List.append_assoc,
      List.length_append, List.length_map]
  next hkey =>
    refine ⟨_, .unstorable hphase hkey, ?_⟩
    simp only [stamping, stamped, reporting, after, stay, List.map_append, List.append_assoc,
      List.length_append, List.length_map]

theorem of_write (hget : c.tasks[i]? = some task) {key : String} {guard : Option Guard}
    {entry : Entry} (hphase : task.phase = .writing key guard entry) :
    ∃ e, Transition layer c i task e
      ∧ c.write layer i task key guard entry = c.after i task e := by
  unfold write
  simp only [Cache.report, goto, note, modify_phase hget]
  split
  next hresult =>
    refine ⟨_, .wrote hphase hresult, ?_⟩
    simp only [hresult, writeRecord, reporting, after, stay, List.map_append, List.append_assoc,
      List.length_append, List.length_map]
  next error hresult =>
    refine ⟨_, .writeFailed hphase hresult, ?_⟩
    simp only [hresult, writeRecord, reporting, after, stay, List.map_append, List.append_assoc,
      List.length_append, List.length_map]
  next hresult =>
    refine ⟨_, .writeAborted hphase hresult, ?_⟩
    simp only [hresult, writeRecord, after, stay]

theorem of_land (hget : c.tasks[i]? = some task) {guard : Guard} {answer : Answer}
    (hphase : task.phase = .landing guard answer) :
    ∃ e, Transition layer c i task e ∧ c.land i guard answer = c.after i task e := by
  refine ⟨_, .landed hphase, ?_⟩
  simp only [land, goto, after, stay, modify_phase hget, List.map_nil, List.append_nil]

/-- A step is one of the ways that a step can go, which is all there is to know of it. -/
theorem of_step {c' : Cache σ} (hstep : c.step layer i = some c') :
    ∃ task e, c.tasks[i]? = some task ∧ Transition layer c i task e ∧ c' = c.after i task e := by
  unfold step at hstep
  cases hget : c.tasks[i]? with
  | none =>
    rw [hget] at hstep
    nomatch hstep
  | some task =>
    suffices h : ∃ e, Transition layer c i task e ∧ c' = c.after i task e by
      obtain ⟨e, he⟩ := h
      exact ⟨task, e, rfl, he⟩
    rw [hget] at hstep
    simp only [Option.bind_eq_bind, Option.bind_some, pure] at hstep
    cases hphase : task.phase with
    | arriving =>
      rw [hphase] at hstep
      exact Option.some.inj hstep ▸ of_arrive hget hphase
    | reading key again =>
      rw [hphase] at hstep
      exact Option.some.inj hstep ▸ of_look hget hphase
    | discarding key again =>
      rw [hphase] at hstep
      exact Option.some.inj hstep ▸ of_discard hget hphase
    | deciding key found again =>
      rw [hphase] at hstep
      exact Option.some.inj hstep ▸ of_decide hget hphase
    | serving entry =>
      rw [hphase] at hstep
      exact Option.some.inj hstep ▸ of_serve hget hphase
    | joining key again =>
      rw [hphase] at hstep
      exact Option.some.inj hstep ▸ of_join hget hphase
    | locking guard role =>
      rw [hphase] at hstep
      exact Option.some.inj hstep ▸ of_acquire hget hphase
    | queued guard role =>
      rw [hphase] at hstep
      simp only at hstep
      split at hstep
      next hholder => exact Option.some.inj hstep ▸ of_enter hget hphase hholder
      next => nomatch hstep
    | calling decision guard =>
      rw [hphase] at hstep
      exact Option.some.inj hstep ▸ of_call hget hphase
    | running decision guard pauses call =>
      rw [hphase] at hstep
      cases pauses with
      | zero => exact Option.some.inj hstep ▸ of_respond hget hphase
      | succ pauses =>
        refine ⟨_, .paused hphase, ?_⟩
        rw [← Option.some.inj hstep]
        simp only [goto, after, stay, modify_phase hget, List.map_nil, List.append_nil]
    | stamping decision guard snapshot =>
      rw [hphase] at hstep
      exact Option.some.inj hstep ▸ of_stamp hget hphase
    | writing key guard entry =>
      rw [hphase] at hstep
      exact Option.some.inj hstep ▸ of_write hget hphase
    | landing guard answer =>
      rw [hphase] at hstep
      exact Option.some.inj hstep ▸ of_land hget hphase
    | done answer =>
      rw [hphase] at hstep
      nomatch hstep
    | cancelled =>
      rw [hphase] at hstep
      nomatch hstep

/-- Every way that a step can go is how it goes. -/
theorem step_eq {e : Effect σ} (h : Transition layer c i task e) (hget : c.tasks[i]? = some task) :
    c.step layer i = some (c.after i task e) := by
  unfold step
  rw [hget]
  simp only [Option.bind_eq_bind, Option.bind_some, pure]
  cases h with
  | unready hphase hready | keyed hphase hready hkey | keyless hphase hready hkey =>
    simp only [*, arrive, goto, modify_started_phase hget, after, stay, List.map_nil, List.append_nil]
  | foundExpired hphase hresult =>
    simp only [hphase, look, hresult, goto, note, modify_phase hget, after, stay]
  | @looked _ _ found hphase hresult hfound =>
    cases found with
    | expired => exact absurd rfl hfound
    | _ => simp only [hphase, look, hresult, goto, note, modify_phase hget, after, stay]
  | lookFailed hphase hresult =>
    simp only [hphase, look, hresult, Cache.report, goto, note, modify_phase hget, reporting, after,
      stay, List.map_append, List.append_assoc, List.length_append, List.length_map]
  | discarded hphase =>
    simp only [hphase, Cache.discard, goto, note, modify_phase hget, after, stay]
  | @hit _ again _ hphase hdecision =>
    simp only [hphase, Cache.decide, hdecision]
    cases again <;> simp [goto, note, modify_phase hget, deciding, after, stay]
  | missedAgain hphase hdecision =>
    simp only [hphase, Cache.decide]
    split
    next hhit => exact absurd hhit hdecision
    next => simp [goto, modify_phase hget, after, stay]
  | missed hphase hdecision hflight =>
    simp [hphase, Cache.decide, hdecision, hflight, goto, note, modify_phase hget, deciding, after, stay]
  | unguarded hphase hdecision hne hflight =>
    simp only [hphase, Cache.decide, hdecision]
    split
    next => exact absurd rfl hne
    next => simp [hflight, goto, note, modify_phase hget, deciding, after, stay]
  | served hphase =>
    simp only [hphase, Cache.serve, Cache.report, hitEvent, goto, note, modify_phase hget, reporting,
      after, stay, List.map_append, List.append_assoc, List.length_append, List.length_map]
  | began hphase hlead | followed hphase hlead | passedBy hphase hlead =>
    simp [hphase, join, hlead, goto, modify_phase hget, after, stay]
  | queued hphase hholder | ledAtOnce hphase hholder | followedAtOnce hphase hholder =>
    simp only [hphase, acquire, hholder, enter, goto, modify_phase hget, after, stay, List.map_nil,
      List.append_nil]
  | led hphase hholder | waited hphase hholder =>
    simp only [hphase, hholder, enter, goto, modify_phase hget, after, stay, List.map_nil,
      List.append_nil, if_true]
  | refused hphase hready => simp only [hphase, call, hready, fail_eq_after hget]
  | called hphase hready =>
    simp only [hphase, call, hready, goto, note, modify_phase hget, after, stay]
  | paused hphase =>
    simp only [hphase, goto, modify_phase hget, after, stay, List.map_nil, List.append_nil]
  | failed hphase hanswer => simp only [hphase, respond, hanswer, fail_eq_after hget]
  | answered hphase hanswer =>
    simp only [hphase, respond, hanswer, goto, modify_phase hget, after, stay, List.map_nil,
      List.append_nil]
  | storable hphase hkey | unstorable hphase hkey =>
    unfold stamped at hkey
    simp only [hphase, stamp, hkey, Cache.report, goto, note, modify_phase hget, stamping, stamped,
      reporting, after, stay, List.map_append, List.append_assoc, List.length_append, List.length_map]
  | wrote hphase hresult | writeFailed hphase hresult | writeAborted hphase hresult =>
    simp only [hphase, write, hresult, writeRecord, Cache.report, goto, note, modify_phase hget,
      reporting, after, stay, List.map_append, List.append_assoc, List.length_append, List.length_map]
  | landed hphase =>
    simp only [hphase, land, goto, modify_phase hget, after, stay, List.map_nil, List.append_nil]

end Transition

end

end ResponseCache
