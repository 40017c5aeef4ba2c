import ResponseCache.EntityTag
import ResponseCache.Layer.Cache

/-!
This module contains the steps by which requests go through a running cache. Between any two steps of
a request others may take theirs, clocks may move on, and the client may go away.
-/

namespace ResponseCache

def setMaxAge (headers : Headers) (secs : Nat) : Headers :=
  if headers.contains "cache-control" then
    headers
  else
    match HeaderValue.ofString? ("max-age=" ++ toString secs) with
    | some value => headers.set .cacheControl value
    | none => headers

namespace Layer

def keyOf (l : Layer) (job : Job) : Option String :=
  l.extractor.extract job.request

def directivesOf (job : Job) : Directives :=
  .ofHeaders job.request.headers

/-- The key from which the tag of a response is made. -/
def tagKey (l : Layer) (job : Job) : String :=
  (l.keyOf job).getD
    (String.ofList (job.request.method.toList ++ ' ' :: job.request.target.text))

/-- An event about a request, without what is particular to its kind. -/
def event (l : Layer) (now : Time) (number : Nat) (task : Task) (kind : EventType) : Event where
  timestamp := now
  kind := kind
  requestId := l.requestId number task.job.request
  key := l.keyOf task.job
  method := some task.job.request.method
  target := some task.job.request.target
  latency := some (now.nanosSince task.started / 1000)

/-- The record of an event, unless it is left out of the sample. -/
def report (l : Layer) (historyLength : Nat) (e : Event) : List Record :=
  if l.events.shouldSample (l.entropy.draw historyLength) then [.reported e] else []

/-- Whether a response that the handler gave is stored, and under which key. -/
def storageKey? (l : Layer) (job : Job) (decision : Decision) (entry : Entry) : Option String :=
  (l.keyOf job).filter fun _ => decision = .miss && l.stores entry.status

/-- The response to a request that is answered from an entry, at a point in time. -/
def serve (l : Layer) (job : Job) (entry : Entry) (now : Time) : Response :=
  let remaining := (Freshness.evaluate entry.lastValid l.policy .none now).remaining
  if isRevalidated job entry then
    ⟨.notModified, setMaxAge (Entry.setTag [] entry.etag) remaining, []⟩
  else
    let response := entry.toResponse
    { response with headers := setMaxAge response.headers remaining }
where
  /-- Whether the client has the body already. Only what succeeded can be revalidated. -/
  isRevalidated (job : Job) (entry : Entry) : Bool :=
    entry.status.isSuccess
      && EntityTag.isNamed (job.request.headers.getAll "if-none-match") entry.etag

/-- The response to a request whose handler was run, with its lifetime if it was stored. -/
def replay (l : Layer) (entry : Entry) (stored : Bool) : Response :=
  let response := entry.toResponse
  if stored then
    { response with headers := setMaxAge response.headers l.policy.maxSecs }
  else
    response

end Layer

namespace Cache

variable {σ : Type}

def report (c : Cache σ) (layer : Layer) (i : Nat) (e : Event) : Cache σ :=
  c.note i (layer.report c.history.length e)

/-- A request comes in: it gets its key, and without one it goes to the handler directly. -/
def arrive (c : Cache σ) (layer : Layer) (i : Nat) (task : Task) : Cache σ :=
  let c := { c with tasks := c.tasks.modify i fun t => { t with started := c.systemTime } }
  match task.job.handler.unready with
  | some message => c.goto i (.done (.unready message))
  | none =>
    match layer.keyOf task.job with
    | some key => c.goto i (.reading key false)
    | none => c.goto i (.calling .bypass none)

/--
A request looks into the store. If that fails, it goes on as if there was no entry; if the entry is
expired, its read is not over yet.
-/
def look [Backend σ] (c : Cache σ) (layer : Layer) (i : Nat) (task : Task) (key : String)
    (again : Bool) : Cache σ :=
  let access := Backend.look c.store c.systemTime key
  let c := { c with store := access.store }
  match access.result with
  | .ok .expired => (c.note i (access.records [])).goto i (.discarding key again)
  | .ok found =>
    (c.note i (access.records [.read key (.ok found.entry?)])).goto i
      (.deciding key found.entry? again)
  | .error error =>
    let c := c.note i (access.records [.read key (.error error)])
    let c := c.note i [.logged (.lookupFailed key error), .counted .lookupError]
    let c := c.report layer i (layer.event c.systemTime i task .lookupFailed)
    c.goto i (.deciding key none again)

/-- A request that found an expired entry discards what is under its key by now. -/
def discard [Backend σ] (c : Cache σ) (i : Nat) (key : String) (again : Bool) : Cache σ :=
  let c := { c with store := Backend.discard c.store key }
  (c.note i [.read key (.ok none)]).goto i (.deciding key none again)

def decide (c : Cache σ) (layer : Layer) (i : Nat) (task : Task) (key : String)
    (found : Option Entry) (again : Bool) : Cache σ :=
  let request := task.job.request
  let decision := decideRequest found layer.policy (Layer.directivesOf task.job) (c.now layer)
  let c :=
    if again then c
    else c.note i [.logged (.decided key decision request.method request.target)]
  match decision, found with
  | .hit, some entry => c.goto i (.serving entry)
  | decision, _ =>
    if again then c.goto i (.joining key true)
    else if layer.singleFlight ∧ decision = .miss then c.goto i (.joining key false)
    else c.goto i (.calling decision none)

def serve (c : Cache σ) (layer : Layer) (i : Nat) (task : Task) (entry : Entry) : Cache σ :=
  let response := layer.serve task.job entry (c.now layer)
  let age := (Freshness.evaluate entry.lastValid layer.policy .none (c.now layer)).age
  let event := layer.event c.systemTime i task
  let c := c.note i [.counted .hit]
  let c := c.report layer i <|
    if Layer.serve.isRevalidated task.job entry then
      { event .notModified with
        status := some .notModified, etag := some entry.etag, age := some age }
    else
      { event .hit with
        status := some entry.status, etag := some entry.etag, age := some age
        size := some entry.body.length }
  c.goto i (.done (.response .hit response))

/--
A request looks for a flight for its key, and begins one if there is none. The second time, it does
not wait for a flight that is under way.
-/
def join (c : Cache σ) (i : Nat) (key : String) (again : Bool) : Cache σ :=
  match c.flights.lead? key with
  | none =>
    let id := c.flights.locks.length
    { c with flights := c.flights.start key }.goto i (.locking ⟨key, id⟩ .leader)
  | some id =>
    if again then c.goto i (.calling .miss none) else c.goto i (.locking ⟨key, id⟩ .follower)

/-- What a request does next that was granted a lock. A follower gives it up at once. -/
def enter (c : Cache σ) (i : Nat) (guard : Guard) : Role → Cache σ
  | .leader => c.goto i (.calling .miss (some guard))
  | .follower =>
    { c with flights := c.flights.modify guard.lock Lock.release }.goto i (.reading guard.key true)

def acquire (c : Cache σ) (i : Nat) (guard : Guard) (role : Role) : Cache σ :=
  match (c.flights.lock guard.lock).holder with
  | none =>
    let flights := c.flights.modify guard.lock fun l => { l with holder := some i }
    { c with flights := flights }.enter i guard role
  | some _ =>
    let flights := c.flights.modify guard.lock fun l => { l with waiters := l.waiters ++ [i] }
    { c with flights := flights }.goto i (.queued guard role)

def fail (c : Cache σ) (layer : Layer) (i : Nat) (task : Task) (guard : Option Guard)
    (message : String) : Cache σ :=
  let c := c.note i [.logged (.handlerFailed (layer.keyOf task.job) message), .counted .error]
  let c := c.report layer i (layer.event c.systemTime i task .error)
  c.goto i (.finish guard (.failed message))

def call (c : Cache σ) (layer : Layer) (i : Nat) (task : Task) (decision : Decision)
    (guard : Option Guard) : Cache σ :=
  match task.job.handler.refusal with
  | some message => c.fail layer i task guard message
  | none =>
    let c := { c with calls := c.calls + 1 }.note i [.called]
    c.goto i (.running decision guard task.job.handler.pauses c.calls)

def respond (c : Cache σ) (layer : Layer) (i : Nat) (task : Task) (decision : Decision)
    (guard : Option Guard) (call : Nat) : Cache σ :=
  match task.job.handler.answer call >>= Reply.capture with
  | .error message => c.fail layer i task guard message
  | .ok snapshot => c.goto i (.stamping decision guard snapshot)

/-- What the handler answered is made an entry, which is stored unless there is a reason not to. -/
def stamp (c : Cache σ) (layer : Layer) (i : Nat) (task : Task) (decision : Decision)
    (guard : Option Guard) (snapshot : Snapshot) : Cache σ :=
  let etag := EntityTag.generate (layer.tagKey task.job) snapshot.body (c.now layer)
  let entry := snapshot.toEntry etag (c.now layer)
  let c := c.note i [.counted (if decision = .miss then .miss else .bypass)]
  let c := c.report layer i
    { layer.event c.systemTime i task (.ofOutcome decision.outcome) with
      status := some entry.status, etag := some entry.etag, size := some entry.body.length }
  match layer.storageKey? task.job decision entry with
  | some key => c.goto i (.writing key guard entry)
  | none =>
    c.goto i (.finish guard (.response decision.outcome (layer.replay entry false)))

/-- A request writes the store. If that fails, its response is served all the same. -/
def write [Backend σ] (c : Cache σ) (layer : Layer) (i : Nat) (task : Task) (key : String)
    (guard : Option Guard) (entry : Entry) : Cache σ :=
  let ttl := layer.policy.maxTtl
  let access := Backend.set c.store c.systemTime key entry ttl
  let c := { c with store := access.store }
  let c := c.note i (access.records (writeRecord key entry ttl access.result))
  match access.result with
  | .ok () =>
    let c := c.note i [.counted .store]
    let c := c.report layer i
      { layer.event c.systemTime i task .store with
        etag := some entry.etag, size := some entry.body.length, ttl := some ttl.secs }
    c.goto i (.finish guard (.response .miss (layer.replay entry true)))
  | .error (.error error) =>
    let c := c.note i [.logged (.storeFailed key error), .counted .storeError]
    let c := c.report layer i (layer.event c.systemTime i task .storeFailed)
    c.goto i (.finish guard (.response .miss (layer.replay entry false)))
  | .error .overflow => c.goto i (.finish guard .aborted)

/-- A request that leads a flight ends it, and lets the first of those who wait go on. -/
def land (c : Cache σ) (i : Nat) (guard : Guard) (answer : Answer) : Cache σ :=
  { c with flights := c.flights.finish guard.key guard.lock }.goto i (.done answer)

/--
One step of a request, given by its number. There is none if it is finished, or waits for a lock that
it was not granted.
-/
def step [Backend σ] (c : Cache σ) (layer : Layer) (i : Nat) : Option (Cache σ) := do
  let task ← c.tasks[i]?
  match task.phase with
  | .arriving => return c.arrive layer i task
  | .reading key again => return c.look layer i task key again
  | .discarding key again => return c.discard i key again
  | .deciding key found again => return c.decide layer i task key found again
  | .serving entry => return c.serve layer i task entry
  | .joining key again => return c.join i key again
  | .locking guard role => return c.acquire i guard role
  | .queued guard role =>
    if (c.flights.lock guard.lock).holder = some i then return c.enter i guard role else none
  | .calling decision guard => return c.call layer i task decision guard
  | .running decision guard (pauses + 1) call =>
    return c.goto i (.running decision guard pauses call)
  | .running decision guard 0 call => return c.respond layer i task decision guard call
  | .stamping decision guard snapshot => return c.stamp layer i task decision guard snapshot
  | .writing key guard entry => return c.write layer i task key guard entry
  | .landing guard answer => return c.land i guard answer
  | .done _ => none
  | .cancelled => none

/-- The lock that a request that calls its handler holds, if it leads a flight. -/
def guard? : Phase → Option Guard
  | .calling _ guard => guard
  | .running _ guard _ _ => guard
  | .stamping _ guard _ => guard
  | .writing _ guard _ => guard
  | .landing guard _ => some guard
  | _ => none

/--
The client of a request goes away, at any point before the answer. A leader that holds its lock ends
its flight, and whoever waits for a lock no longer does.
-/
def cancel (c : Cache σ) (i : Nat) : Cache σ :=
  match c.phase? i with
  | none => c
  | some phase =>
    if phase.isFinished then
      c
    else
      let flights :=
        match phase with
        | .queued guard _ => c.flights.modify guard.lock (Lock.forget i)
        | phase =>
          match guard? phase with
          | some guard => c.flights.finish guard.key guard.lock
          | none => c.flights
      { c with flights := flights }.goto i .cancelled

end Cache

end ResponseCache
