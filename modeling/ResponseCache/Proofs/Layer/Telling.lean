import ResponseCache.Proofs.Layer.Tolerance

/-!
This module contains what the events about a request tell, other than who asked for what. It depends on
nothing but what the request demands of the responses it is served, and what it meets with on its way: the
store, the clock, the flights, and the handler.
-/

namespace ResponseCache

open Cache

def Record.event? : Record → Option Event
  | .reported event => some event
  | _ => none

/-- The event without its time and that which it took. -/
def Event.untimed (e : Event) : Event :=
  { e with timestamp := .epoch, latency := none }

inductive Sight where
  | readiness (isReady : Bool)
  | looked (result : Except StoreError Finding)
  | clock (now : Time)
  | flight (isUnderWay : Bool)
  | lock (isFree : Bool)
  | called (isReady : Bool) (pauses : Nat)
  | answered (snapshot : Option Snapshot)
  | wrote (result : Except WriteFault Unit)
  | nothing
  deriving DecidableEq

inductive ToldTag where
  | found (etag : String)
  | made (body : Bytes) (generated : Time)

def ToldTag.text (tagKey : String) : ToldTag → String
  | found etag => etag
  | made body generated => EntityTag.generate tagKey body generated

/-- What an event tells other than who asked for what, and when. -/
structure Telling where
  kind : EventType
  status : Option Status := none
  tag : Option ToldTag := none
  age : Option Nat := none
  size : Option Nat := none
  ttl : Option Nat := none

def Telling.event (layer : Layer) (number : Nat) (job : Job) (t : Telling) : Event where
  timestamp := .epoch
  kind := t.kind
  requestId := layer.requestId number job.request
  key := layer.keyOf job
  method := some job.request.method
  target := some job.request.target
  status := t.status
  etag := t.tag.map (ToldTag.text (layer.tagKey job))
  age := t.age
  size := t.size
  ttl := t.ttl

/-- What a request brings with it that is not its handler's, as far as its way depends on it. -/
structure Demands where
  isKeyed : Bool
  directives : Directives
  /-- The values of `If-None-Match`. -/
  conditions : List HeaderValue
  deriving DecidableEq

def Layer.demandsOf (l : Layer) (job : Job) : Demands :=
  ⟨(l.keyOf job).isSome, directivesOf job, job.request.headers.getAll "if-none-match"⟩

/-- The point that a request has come to, without its key. -/
inductive Stage where
  | arriving
  | reading (again : Bool)
  | discarding (again : Bool)
  | deciding (found : Option Entry) (again : Bool)
  | serving (entry : Entry)
  | joining (again : Bool)
  | locking (role : Role)
  | queued (role : Role)
  | calling (decision : Decision)
  | running (decision : Decision) (pauses : Nat)
  | stamping (decision : Decision) (snapshot : Snapshot)
  | writing (snapshot : Snapshot) (generated : Time)
  | closed

namespace Stage

def decided (l : Layer) (found : Option Entry) (again : Bool) (decision : Decision) : Stage :=
  match decision, found with
  | .hit, some entry => serving entry
  | decision, _ =>
    if again then joining true
    else if l.singleFlight ∧ decision = .miss then joining false
    else calling decision

def granted : Role → Stage
  | .leader => calling .miss
  | .follower => reading true

def tellHit (l : Layer) (demands : Demands) (entry : Entry) (now : Time) : Telling :=
  let age := (Freshness.evaluate entry.lastValid l.policy .none now).age
  if entry.status.isSuccess && EntityTag.isNamed demands.conditions entry.etag then
    { kind := .notModified, status := some .notModified, tag := some (.found entry.etag), age := some age }
  else
    { kind := .hit, status := some entry.status, tag := some (.found entry.etag), age := some age
      size := some entry.body.length }

/-- Where a request goes by what it meets with, and what is told of that. -/
def next (l : Layer) (demands : Demands) : Stage → Sight → Stage × Option Telling
  | arriving, .readiness true => (if demands.isKeyed then reading false else calling .bypass, none)
  | reading again, .looked (.ok .expired) => (discarding again, none)
  | reading again, .looked (.ok found) => (deciding found.entry? again, none)
  | reading again, .looked (.error _) => (deciding none again, some { kind := .lookupFailed })
  | discarding again, _ => (deciding none again, none)
  | deciding found again, .clock now =>
    (decided l found again (decideRequest found l.policy demands.directives now), none)
  | serving entry, .clock now => (closed, some (tellHit l demands entry now))
  | joining _, .flight false => (locking .leader, none)
  | joining again, .flight true => (if again then calling .miss else locking .follower, none)
  | locking role, .lock true => (granted role, none)
  | locking role, .lock false => (queued role, none)
  | queued role, _ => (granted role, none)
  | calling decision, .called true pauses => (running decision pauses, none)
  | calling _, .called false _ => (closed, some { kind := .error })
  | running decision (pauses + 1), _ => (running decision pauses, none)
  | running decision 0, .answered (some snapshot) => (stamping decision snapshot, none)
  | running _ 0, .answered none => (closed, some { kind := .error })
  | stamping decision snapshot, .clock now =>
    (if demands.isKeyed && decision = .miss && l.stores snapshot.status then writing snapshot now else closed,
      some { kind := .ofOutcome decision.outcome, status := some snapshot.status
             tag := some (.made snapshot.body now), size := some snapshot.body.length })
  | writing snapshot generated, .wrote (.ok ()) =>
    (closed, some { kind := .store, tag := some (.made snapshot.body generated)
                    size := some snapshot.body.length, ttl := some l.policy.maxTtl.secs })
  | writing _ _, .wrote (.error (.error _)) => (closed, some { kind := .storeFailed })
  | _, _ => (closed, none)

end Stage

/-- That a request is at a stage by the point that it has come to. One that went away may be at any. -/
inductive Stands (layer : Layer) (job : Job) : Phase → Stage → Prop where
  | arriving : Stands layer job .arriving .arriving
  | reading {key : String} {again : Bool} : Stands layer job (.reading key again) (.reading again)
  | discarding {key : String} {again : Bool} : Stands layer job (.discarding key again) (.discarding again)
  | deciding {key : String} {found : Option Entry} {again : Bool} :
    Stands layer job (.deciding key found again) (.deciding found again)
  | serving {entry : Entry} : Stands layer job (.serving entry) (.serving entry)
  | joining {key : String} {again : Bool} : Stands layer job (.joining key again) (.joining again)
  | locking {guard : Guard} {role : Role} : Stands layer job (.locking guard role) (.locking role)
  | queued {guard : Guard} {role : Role} : Stands layer job (.queued guard role) (.queued role)
  | calling {decision : Decision} {guard : Option Guard} :
    Stands layer job (.calling decision guard) (.calling decision)
  | running {decision : Decision} {guard : Option Guard} {pauses call : Nat} :
    Stands layer job (.running decision guard pauses call) (.running decision pauses)
  | stamping {decision : Decision} {guard : Option Guard} {snapshot : Snapshot} :
    Stands layer job (.stamping decision guard snapshot) (.stamping decision snapshot)
  | writing {key : String} {guard : Option Guard} {snapshot : Snapshot} {generated : Time} :
    Stands layer job
      (.writing key guard
        (snapshot.toEntry (EntityTag.generate (layer.tagKey job) snapshot.body generated) generated))
      (.writing snapshot generated)
  | landing {guard : Guard} {answer : Answer} : Stands layer job (.landing guard answer) .closed
  | done {answer : Answer} : Stands layer job (.done answer) .closed
  | cancelled {stage : Stage} : Stands layer job .cancelled stage

theorem stands_finish (layer : Layer) (job : Job) (guard : Option Guard) (answer : Answer) :
    Stands layer job (.finish guard answer) .closed := by
  cases guard with
  | none => exact .done
  | some guard => exact .landing

def toldBy (records : List Record) : List Event :=
  (records.filterMap Record.event?).map Event.untimed

section

variable {σ : Type} [Backend σ]

namespace Cache

def sight (c : Cache σ) (layer : Layer) (job : Job) : Phase → Sight
  | .arriving => .readiness job.handler.unready.isNone
  | .reading key _ => .looked (Backend.look c.store c.systemTime key).result
  | .deciding .. => .clock (c.now layer)
  | .serving _ => .clock (c.now layer)
  | .joining key _ => .flight (c.flights.lead? key).isSome
  | .locking guard _ => .lock (c.flights.lock guard.lock).holder.isNone
  | .calling .. => .called job.handler.refusal.isNone job.handler.pauses
  | .running _ _ 0 call => .answered (job.handler.answer call >>= Reply.capture).toOption
  | .stamping .. => .clock (c.now layer)
  | .writing key _ entry => .wrote (Backend.set c.store c.systemTime key entry layer.policy.maxTtl).result
  | _ => .nothing

omit [Backend σ] in
/-- Whether an event is logged that is told after records. -/
def isSampled (c : Cache σ) (layer : Layer) (records : List Record) : Bool :=
  layer.events.shouldSample
    (layer.entropy.draw (c.history.length + records.countP fun record => record.event?.isNone))

end Cache

end

section

variable {σ : Type} {layer : Layer} {c : Cache σ} {i : Nat} {task : Task} {e : Effect σ}

theorem toldBy_of_quiet {records : List Record} (hquiet : ∀ record ∈ records, record.event? = none) :
    toldBy records = [] := by
  unfold toldBy
  rw [List.map_eq_nil_iff, List.filterMap_eq_nil_iff]
  exact hquiet

theorem quiet_records {α : Type} (access : Access σ α) {first : List Record}
    (hfirst : ∀ record ∈ first, record.event? = none) :
    ∀ record ∈ access.records first, record.event? = none :=
  List.forall_mem_append.2 ⟨hfirst, List.forall_mem_map.2 fun _ _ => rfl⟩

theorem isSampled_reporting {records : List Record} (hquiet : ∀ record ∈ records, record.event? = none)
    (event : Event) :
    c.isSampled layer (c.reporting layer records event)
      = layer.events.shouldSample (layer.entropy.draw (c.history.length + records.length)) := by
  have hcount : records.countP (fun record => record.event?.isNone) = records.length := by
    rw [List.countP_eq_length]
    exact fun record hmem => Option.isNone_iff_eq_none.2 (hquiet record hmem)
  unfold isSampled reporting Layer.report
  rw [List.countP_append, hcount]
  split <;> rfl

theorem toldBy_reporting {records : List Record} (hquiet : ∀ record ∈ records, record.event? = none)
    (event : Event) :
    toldBy (c.reporting layer records event)
      = if c.isSampled layer (c.reporting layer records event) then [event.untimed] else [] := by
  have hnil : records.filterMap Record.event? = [] := List.filterMap_eq_nil_iff.2 hquiet
  rw [isSampled_reporting hquiet]
  unfold toldBy reporting Layer.report
  rw [List.filterMap_append, hnil, List.nil_append]
  split <;> rfl

/-- That a step brings a request to a stage, and that what it tells is logged unless it is left out. -/
structure Follows (layer : Layer) (c : Cache σ) (i : Nat) (task : Task) (e : Effect σ)
    (result : Stage × Option Telling) : Prop where
  stands : Stands layer task.job e.phase result.1
  toldBy_eq : toldBy e.records
    = if c.isSampled layer e.records then (result.2.map (Telling.event layer i task.job)).toList else []

theorem Follows.of_quiet {goal : Stage} (hstands : Stands layer task.job e.phase goal)
    (hquiet : ∀ record ∈ e.records, record.event? = none) : Follows layer c i task e (goal, none) where
  stands := hstands
  toldBy_eq := (toldBy_of_quiet hquiet).trans (ite_self _).symm

theorem Follows.of_telling {goal : Stage} {told : Telling} {records : List Record} {event : Event}
    (hstands : Stands layer task.job e.phase goal) (hrecords : e.records = c.reporting layer records event)
    (hquiet : ∀ record ∈ records, record.event? = none)
    (htold : event.untimed = told.event layer i task.job) : Follows layer c i task e (goal, some told) where
  stands := hstands
  toldBy_eq := by
    rw [hrecords, toldBy_reporting hquiet, htold]
    rfl

theorem quiet_deciding (task : Task) (key : String) (decision : Decision) (again : Bool) :
    ∀ record ∈ deciding task key decision again, record.event? = none := by
  unfold deciding
  split
  next => exact List.forall_mem_nil _
  next => exact List.forall_mem_singleton.2 rfl

theorem Stage.decided_of_ne {decision : Decision} (hne : decision ≠ .hit) (found : Option Entry) (again : Bool) :
    decided layer found again decision
      = if again then joining true
        else if layer.singleFlight ∧ decision = .miss then joining false
        else calling decision := by
  cases decision with
  | hit => exact absurd rfl hne
  | miss => rfl
  | bypass => rfl

theorem Stage.next_deciding (job : Job) (found : Option Entry) (again : Bool) (now : Time) :
    (deciding found again).next layer (layer.demandsOf job) (.clock now)
      = (decided layer found again (decideRequest found layer.policy (Layer.directivesOf job) now), none) := rfl

theorem Layer.isSome_storageKey? (job : Job) (decision : Decision) (entry : Entry) :
    (layer.storageKey? job decision entry).isSome
      = ((layer.keyOf job).isSome && decision = .miss && layer.stores entry.status) := by
  unfold Layer.storageKey?
  cases layer.keyOf job with
  | none => rfl
  | some key =>
    rw [Option.filter_some]
    split
    next h => exact (h.symm.trans (Bool.true_and _).symm).trans (Bool.and_assoc _ _ _).symm
    next h =>
      rw [Option.isSome_none, Option.isSome_some, Bool.true_and]
      exact (Bool.eq_false_iff.2 h).symm

theorem untimed_hitEvent (entry : Entry) :
    (c.hitEvent layer i task entry).untimed
      = (Stage.tellHit layer (layer.demandsOf task.job) entry (c.now layer)).event layer i task.job := by
  have hcondition : (entry.status.isSuccess
      && EntityTag.isNamed (layer.demandsOf task.job).conditions entry.etag)
        = Layer.serve.isRevalidated task.job entry := rfl
  unfold hitEvent Stage.tellHit
  rw [hcondition]
  dsimp only
  split <;> rfl

variable [Backend σ]

/-- The stage of a request and what it meets with determine what its step tells, and where it goes. -/
theorem Transition.follows (h : Transition layer c i task e) {stage : Stage}
    (hstands : Stands layer task.job task.phase stage) :
    Follows layer c i task e
      (stage.next layer (layer.demandsOf task.job) (c.sight layer task.job task.phase)) := by
  cases h with
  | unready hphase hready =>
    rw [hphase] at hstands ⊢
    cases hstands
    rw [sight, hready]
    exact .of_quiet .done (List.forall_mem_nil _)
  | keyed hphase hready hkey =>
    rw [hphase] at hstands ⊢
    cases hstands
    rw [sight, hready, Layer.demandsOf, hkey]
    exact .of_quiet .reading (List.forall_mem_nil _)
  | keyless hphase hready hkey =>
    rw [hphase] at hstands ⊢
    cases hstands
    rw [sight, hready, Layer.demandsOf, hkey]
    exact .of_quiet .calling (List.forall_mem_nil _)
  | foundExpired hphase hresult =>
    rw [hphase] at hstands ⊢
    cases hstands
    rw [sight, hresult]
    exact .of_quiet .discarding (quiet_records _ (List.forall_mem_nil _))
  | @looked _ _ found hphase hresult hfound =>
    rw [hphase] at hstands ⊢
    cases hstands
    rw [sight, hresult]
    cases found with
    | expired => exact absurd rfl hfound
    | absent => exact .of_quiet .deciding (quiet_records _ (List.forall_mem_singleton.2 rfl))
    | live entry => exact .of_quiet .deciding (quiet_records _ (List.forall_mem_singleton.2 rfl))
  | lookFailed hphase hresult =>
    rw [hphase] at hstands ⊢
    cases hstands
    rw [sight, hresult]
    refine .of_telling .deciding rfl ?_ rfl
    refine List.forall_mem_append.2 ⟨quiet_records _ (List.forall_mem_singleton.2 rfl), ?_⟩
    exact List.forall_mem_cons.2 ⟨rfl, List.forall_mem_singleton.2 rfl⟩
  | discarded hphase =>
    rw [hphase] at hstands ⊢
    cases hstands
    exact .of_quiet .deciding (List.forall_mem_singleton.2 rfl)
  | hit hphase hdecision =>
    rw [hphase] at hstands ⊢
    cases hstands
    rw [sight, Stage.next_deciding, hdecision]
    exact .of_quiet .serving (quiet_deciding _ _ _ _)
  | missedAgain hphase hdecision =>
    rw [hphase] at hstands ⊢
    cases hstands
    rw [sight, Stage.next_deciding, Stage.decided_of_ne hdecision]
    exact .of_quiet .joining (List.forall_mem_nil _)
  | missed hphase hdecision hflight =>
    rw [hphase] at hstands ⊢
    cases hstands
    have hne : Decision.miss ≠ .hit := nofun
    rw [sight, Stage.next_deciding, hdecision, Stage.decided_of_ne hne, if_neg Bool.false_ne_true,
      if_pos ⟨hflight, rfl⟩]
    exact .of_quiet .joining (List.forall_mem_singleton.2 rfl)
  | unguarded hphase hdecision hne hflight =>
    rw [hphase] at hstands ⊢
    cases hstands
    rw [sight, Stage.next_deciding, hdecision, Stage.decided_of_ne hne, if_neg Bool.false_ne_true,
      if_neg hflight]
    exact .of_quiet .calling (List.forall_mem_singleton.2 rfl)
  | served hphase =>
    rw [hphase] at hstands ⊢
    cases hstands
    exact .of_telling .done rfl (List.forall_mem_singleton.2 rfl) (untimed_hitEvent _)
  | began hphase hlead =>
    rw [hphase] at hstands ⊢
    cases hstands
    rw [sight, hlead]
    exact .of_quiet .locking (List.forall_mem_nil _)
  | followed hphase hlead =>
    rw [hphase] at hstands ⊢
    cases hstands
    rw [sight, hlead]
    exact .of_quiet .locking (List.forall_mem_nil _)
  | passedBy hphase hlead =>
    rw [hphase] at hstands ⊢
    cases hstands
    rw [sight, hlead]
    exact .of_quiet .calling (List.forall_mem_nil _)
  | queued hphase hholder =>
    rw [hphase] at hstands ⊢
    cases hstands
    rw [sight, hholder]
    exact .of_quiet .queued (List.forall_mem_nil _)
  | ledAtOnce hphase hholder =>
    rw [hphase] at hstands ⊢
    cases hstands
    rw [sight, hholder]
    exact .of_quiet .calling (List.forall_mem_nil _)
  | followedAtOnce hphase hholder =>
    rw [hphase] at hstands ⊢
    cases hstands
    rw [sight, hholder]
    exact .of_quiet .reading (List.forall_mem_nil _)
  | led hphase hholder =>
    rw [hphase] at hstands ⊢
    cases hstands
    exact .of_quiet .calling (List.forall_mem_nil _)
  | waited hphase hholder =>
    rw [hphase] at hstands ⊢
    cases hstands
    exact .of_quiet .reading (List.forall_mem_nil _)
  | refused hphase hready =>
    rw [hphase] at hstands ⊢
    cases hstands
    rw [sight, hready]
    refine .of_telling (stands_finish _ _ _ _) rfl ?_ rfl
    exact List.forall_mem_cons.2 ⟨rfl, List.forall_mem_singleton.2 rfl⟩
  | called hphase hready =>
    rw [hphase] at hstands ⊢
    cases hstands
    rw [sight, hready]
    exact .of_quiet .running (List.forall_mem_singleton.2 rfl)
  | paused hphase =>
    rw [hphase] at hstands ⊢
    cases hstands
    exact .of_quiet .running (List.forall_mem_nil _)
  | failed hphase hanswer =>
    rw [hphase] at hstands ⊢
    cases hstands
    rw [sight, hanswer]
    refine .of_telling (stands_finish _ _ _ _) rfl ?_ rfl
    exact List.forall_mem_cons.2 ⟨rfl, List.forall_mem_singleton.2 rfl⟩
  | answered hphase hanswer =>
    rw [hphase] at hstands ⊢
    cases hstands
    rw [sight, hanswer]
    exact .of_quiet .stamping (List.forall_mem_nil _)
  | @storable decision _ snapshot _ hphase hkey =>
    rw [hphase] at hstands ⊢
    cases hstands
    have hstored :
        ((layer.demandsOf task.job).isKeyed && decision = .miss && layer.stores snapshot.status) = true :=
      (layer.isSome_storageKey? _ _ _).symm.trans (Option.isSome_iff_exists.2 ⟨_, hkey⟩)
    rw [sight, Stage.next, if_pos hstored]
    exact .of_telling .writing rfl (List.forall_mem_singleton.2 rfl) rfl
  | @unstorable decision _ snapshot hphase hkey =>
    rw [hphase] at hstands ⊢
    cases hstands
    have hnot :
        ((layer.demandsOf task.job).isKeyed && decision = .miss && layer.stores snapshot.status) = false :=
      (layer.isSome_storageKey? _ _ _).symm.trans (congrArg Option.isSome hkey)
    rw [sight, Stage.next, if_neg (Bool.eq_false_iff.1 hnot)]
    exact .of_telling (stands_finish _ _ _ _) rfl (List.forall_mem_singleton.2 rfl) rfl
  | wrote hphase hresult =>
    rw [hphase] at hstands ⊢
    cases hstands
    rw [sight, hresult]
    refine .of_telling (stands_finish _ _ _ _) rfl ?_ rfl
    refine List.forall_mem_append.2 ⟨quiet_records _ (List.forall_mem_singleton.2 rfl), ?_⟩
    exact List.forall_mem_singleton.2 rfl
  | writeFailed hphase hresult =>
    rw [hphase] at hstands ⊢
    cases hstands
    rw [sight, hresult]
    refine .of_telling (stands_finish _ _ _ _) rfl ?_ rfl
    refine List.forall_mem_append.2 ⟨quiet_records _ (List.forall_mem_singleton.2 rfl), ?_⟩
    exact List.forall_mem_cons.2 ⟨rfl, List.forall_mem_singleton.2 rfl⟩
  | writeAborted hphase hresult =>
    rw [hphase] at hstands ⊢
    cases hstands
    rw [sight, hresult]
    exact .of_quiet (stands_finish _ _ _ _) (quiet_records _ (List.forall_mem_nil _))
  | landed hphase =>
    rw [hphase] at hstands ⊢
    cases hstands
    exact .of_quiet .done (List.forall_mem_nil _)

namespace Cache

def eventsOf (c : Cache σ) (i : Nat) : List Event :=
  (c.notesOf i).filterMap fun note => note.record.event?

/-- What a request meets with by an action, if that is its step, and whether an event of it is logged. -/
def sight? (c : Cache σ) (layer : Layer) (i : Nat) : Action σ → Option (Sight × Bool)
  | .step j =>
    if j = i then do
      let task ← c.tasks[i]?
      let c' ← c.step layer i
      return (c.sight layer task.job task.phase,
        c.isSampled layer ((c'.history.drop c.history.length).map Note.record))
    else none
  | _ => none

def sights (c : Cache σ) (layer : Layer) (i : Nat) : List (Action σ) → List (Sight × Bool)
  | [] => []
  | action :: actions => (c.sight? layer i action).toList ++ (c.act layer action).sights layer i actions

end Cache

/-- What is told of a request that meets with one thing after the other, as far as it is logged. -/
def Stage.tellings (l : Layer) (demands : Demands) : Stage → List (Sight × Bool) → List Telling
  | _, [] => []
  | stage, (sight, isSampled) :: sights =>
    (if isSampled then (stage.next l demands sight).2.toList else [])
      ++ (stage.next l demands sight).1.tellings l demands sights

omit [Backend σ] in
theorem eventsOf_after_self (c : Cache σ) (i : Nat) (task : Task) (e : Effect σ) :
    ((c.after i task e).eventsOf i).map Event.untimed = (c.eventsOf i).map Event.untimed ++ toldBy e.records := by
  unfold eventsOf toldBy
  rw [notesOf_after_self, List.filterMap_append, List.filterMap_map, List.map_append]
  rfl

omit [Backend σ] in
theorem eventsOf_after_of_ne (c : Cache σ) {j : Nat} (hne : j ≠ i) (other : Task) (e : Effect σ) :
    (c.after j other e).eventsOf i = c.eventsOf i := by
  unfold eventsOf
  rw [notesOf_after c other fun heq => absurd heq hne]

theorem sight?_step (hget : c.tasks[i]? = some task) (hstep : c.step layer i = some (c.after i task e)) :
    c.sight? layer i (.step i) = some (c.sight layer task.job task.phase, c.isSampled layer e.records) := by
  have hnew : ((c.after i task e).history.drop c.history.length).map Note.record = e.records := by
    unfold after
    rw [List.drop_left, List.map_map]
    exact List.map_id _
  unfold sight?
  simp only [if_true, hget, hstep, Option.bind_eq_bind, Option.bind_some, hnew]
  rfl

theorem sight?_of_step_eq_none (hstep : c.step layer i = none) : c.sight? layer i (.step i) = none := by
  unfold sight?
  simp only [if_true, hstep, Option.bind_eq_bind, Option.bind_none, Option.bind_fun_none]

/-- What an action is to a request: a step of it, or something that is no concern of its events. -/
theorem act_cases_of_eventsOf (layer : Layer) (hget : c.tasks[i]? = some task) (action : Action σ) :
    (∃ e, Transition layer c i task e ∧ c.act layer action = c.after i task e
        ∧ c.sight? layer i action = some (c.sight layer task.job task.phase, c.isSampled layer e.records))
      ∨ (c.sight? layer i action = none ∧ (c.act layer action).eventsOf i = c.eventsOf i
        ∧ ∃ task', (c.act layer action).tasks[i]? = some task' ∧ task'.job = task.job
          ∧ (task'.phase = task.phase ∨ task'.phase = .cancelled)) := by
  cases action with
  | enlist job =>
    refine .inr ⟨rfl, rfl, task, ?_, rfl, .inl rfl⟩
    exact getElem?_of_isPrefix (List.prefix_append _ _) hget
  | step j =>
    by_cases heq : j = i
    . subst heq
      cases hstep : c.step layer j with
      | none =>
        rw [act_step_of_eq_none hstep]
        exact .inr ⟨sight?_of_step_eq_none hstep, rfl, task, hget, rfl, .inl rfl⟩
      | some c' =>
        obtain ⟨e, h, rfl⟩ := exists_transition_of_step hget hstep
        exact .inl ⟨e, h, act_step_of_eq_some hstep, sight?_step hget hstep⟩
    . refine .inr ⟨if_neg heq, ?_⟩
      cases hstep : c.step layer j with
      | none =>
        rw [act_step_of_eq_none hstep]
        exact ⟨rfl, task, hget, rfl, .inl rfl⟩
      | some c' =>
        obtain ⟨other, e, -, -, rfl⟩ := Transition.of_step hstep
        rw [act_step_of_eq_some hstep]
        exact ⟨eventsOf_after_of_ne c heq other e, task, getElem?_after_of_ne heq e hget, rfl, .inl rfl⟩
  | cancel j =>
    refine .inr ⟨rfl, ?_⟩
    cases cancel_eq c j with
    | inl hsame =>
      simp only [act, hsame]
      exact ⟨trivial, task, hget, rfl, .inl rfl⟩
    | inr hcancel =>
      obtain ⟨other, hother, -, hleave⟩ := hcancel
      simp only [act, hleave]
      refine ⟨?_, ?_⟩
      . unfold eventsOf
        rw [notesOf_after c other fun _ => rfl]
      . by_cases heq : j = i
        . subst heq
          obtain rfl := Option.some.inj (hget.symm.trans hother)
          exact ⟨_, getElem?_after_self hget _, rfl, .inr rfl⟩
        . exact ⟨task, getElem?_after_of_ne heq _ hget, rfl, .inl rfl⟩
  | clock clock => exact .inr ⟨rfl, rfl, task, hget, rfl, .inl rfl⟩
  | systemTime systemTime => exact .inr ⟨rfl, rfl, task, hget, rfl, .inl rfl⟩
  | change f => exact .inr ⟨rfl, rfl, task, hget, rfl, .inl rfl⟩

theorem eventsOf_play (hget : c.tasks[i]? = some task) {stage : Stage}
    (hstands : Stands layer task.job task.phase stage) (actions : List (Action σ)) :
    ((c.play layer actions).eventsOf i).map Event.untimed
      = (c.eventsOf i).map Event.untimed
        ++ (stage.tellings layer (layer.demandsOf task.job) (c.sights layer i actions)).map
          (Telling.event layer i task.job) := by
  induction actions generalizing c task stage with
  | nil => exact (List.append_nil _).symm
  | cons action actions ih =>
    -- The stage moves on by the request's own steps only, whatever else is done in between.
    rw [play_cons, sights]
    obtain ⟨e, h, hact, hsight⟩ | ⟨hsight, hevents, task', hget', hjob, hphase⟩ :=
      act_cases_of_eventsOf layer hget action
    . have hfollows := h.follows hstands
      rw [hact, ih (getElem?_after_self hget e) hfollows.stands, eventsOf_after_self, hfollows.toldBy_eq, hsight,
        Option.toList_some, List.singleton_append, Stage.tellings, List.map_append, List.append_assoc]
      congr 2
      split
      next => exact Option.toList_map
      next => rfl
    . have hstands' : Stands layer task'.job task'.phase stage := by
        rw [hjob]
        cases hphase with
        | inl hsame => exact hsame ▸ hstands
        | inr hcancelled => exact hcancelled ▸ .cancelled
      rw [ih hget' hstands', hevents, hsight, hjob]
      rfl

end

end ResponseCache
