import ResponseCache.Proofs.Layer.Origin
import ResponseCache.Proofs.Layer.Response
import ResponseCache.Proofs.Store.Contents

/-!
This module contains where the responses come from that are served from a store: from requests that
missed under the same key, whose handlers were called and gave a whole response with a status that is
stored. The invariant follows an entry from the answer of a handler through the store to the request
that is served it.
-/

namespace ResponseCache

open Cache Backend.Faithful

section

variable {σ : Type} {layer : Layer} {c c' : Cache σ} {i j : Nat} {task : Task} {job : Job}
  {key : String} {entry : Entry} {trail : List Note} {e : Effect σ}

variable [Backend σ] [Backend.Faithful σ]

/-- An entry of a store that goes back to a write, with what happened after it. -/
def Written (layer : Layer) (c : Cache σ) (key : String) (found : Entry) (trail : List Note) :
    Prop :=
  ∃ j job entry success,
    Origin layer c j job key entry (⟨j, .wrote key entry layer.policy.maxTtl success⟩ :: trail)
      ∧ found = kept σ entry

/-- A response that hands out an entry: with its tag, and whole unless the client has it already. -/
def Replays (job : Job) (entry : Entry) (response : Response) : Prop :=
  (∃ value, HeaderValue.ofString? entry.etag = some value
      ∧ response.headers.getAll "etag" = [value])
    ∧ if Layer.serve.isRevalidated job entry then
        response.status = .notModified ∧ response.body = []
      else
        response.status = entry.status ∧ response.body = entry.body

/-- A response that is served from the store, and what it goes back to. -/
def Provenance (layer : Layer) (c : Cache σ) (i : Nat) (job : Job) (response : Response) : Prop :=
  ∃ key found j source entry success, layer.keyOf job = some key
    ∧ Origin layer c j source key entry
      [⟨j, .wrote key entry layer.policy.maxTtl success⟩, ⟨i, .read key (.ok (some found))⟩,
        ⟨i, .counted .hit⟩]
    ∧ found = kept σ entry
    ∧ Replays job entry response

def Sound (layer : Layer) (c : Cache σ) (i : Nat) (job : Job) (answer : Answer) : Prop :=
  ∀ response, answer = .response .hit response → Provenance layer c i job response

def Justified (layer : Layer) (c : Cache σ) (i : Nat) (job : Job) : Phase → Prop
  | .arriving => True
  | .reading key again => layer.keyOf job = some key ∧ (again = true → Missed layer c i job key [])
  | .discarding key again =>
    layer.keyOf job = some key ∧ (again = true → Missed layer c i job key [])
  | .deciding key found again =>
    layer.keyOf job = some key ∧ (again = true → Missed layer c i job key [])
      ∧ ∀ entry, found = some entry →
        Written layer c key entry [⟨i, .read key (.ok (some entry))⟩]
  | .serving entry =>
    ∃ key, layer.keyOf job = some key
      ∧ Written layer c key entry [⟨i, .read key (.ok (some entry))⟩]
  | .joining key _ => Missed layer c i job key []
  | .locking guard _ => Missed layer c i job guard.key []
  | .queued guard _ => Missed layer c i job guard.key []
  | .calling decision _ =>
    decision ≠ .hit ∧ (decision = .miss → ∃ key, Missed layer c i job key [])
  | .running decision _ _ call =>
    decision ≠ .hit ∧ (decision = .miss → ∃ key, Missed layer c i job key [⟨i, .called⟩])
      ∧ ∃ n, call = n + 1 ∧ c.callers[n]? = some i
  | .stamping decision _ snapshot =>
    decision ≠ .hit ∧ (decision = .miss → ∃ key, Missed layer c i job key [⟨i, .called⟩])
      ∧ ∃ n, c.callers[n]? = some i
        ∧ (job.handler.answer (n + 1) >>= Reply.capture) = .ok snapshot
  | .writing key _ entry => Origin layer c i job key entry []
  | .landing _ answer => Sound layer c i job answer
  | .done answer => Sound layer c i job answer
  | .cancelled => True

/-- That everything in a cache that may be served goes back to a request that missed. -/
structure Traceable (layer : Layer) (c : Cache σ) : Prop where
  calls_eq : c.calls = c.callers.length
  justified : ∀ {i task}, c.tasks[i]? = some task → Justified layer c i task.job task.phase
  written : ∀ {key entry}, Holds c.store key entry → Written layer c key entry []

theorem Written.mono {found : Entry} (h : Written layer c key found trail) (hgrows : c.Grows c') :
    Written layer c' key found trail := by
  obtain ⟨j, job, entry, success, horigin, hkept⟩ := h
  exact ⟨j, job, entry, success, horigin.mono hgrows, hkept⟩

theorem Written.concat {found : Entry} (h : Written layer c key found trail)
    (hget : c.tasks[j]? = some task) {record : Record} (hmem : record ∈ e.records) :
    Written layer (c.after j task e) key found (trail ++ [⟨j, record⟩]) := by
  obtain ⟨k, job, entry, success, horigin, hkept⟩ := h
  exact ⟨k, job, entry, success, horigin.concat hget hmem, hkept⟩

theorem Sound.mono {answer : Answer} (h : Sound layer c i job answer) (hgrows : c.Grows c') :
    Sound layer c' i job answer := by
  intro response hanswer
  obtain ⟨key, found, j, source, entry, success, hkey, horigin, hkept, hreplays⟩ :=
    h response hanswer
  exact ⟨key, found, j, source, entry, success, hkey, horigin.mono hgrows, hkept, hreplays⟩

theorem Justified.mono {phase : Phase} (h : Justified layer c i job phase) (hgrows : c.Grows c') :
    Justified layer c' i job phase := by
  have hcallers := callers_of_grows hgrows
  cases phase with
  | arriving => trivial
  | reading key again => exact ⟨h.1, fun hagain => (h.2 hagain).mono hgrows⟩
  | discarding key again => exact ⟨h.1, fun hagain => (h.2 hagain).mono hgrows⟩
  | deciding key found again =>
    exact ⟨h.1, fun hagain => (h.2.1 hagain).mono hgrows,
      fun entry hfound => (h.2.2 entry hfound).mono hgrows⟩
  | serving entry =>
    obtain ⟨key, hkey, hwritten⟩ := h
    exact ⟨key, hkey, hwritten.mono hgrows⟩
  | joining key again => exact Missed.mono h hgrows
  | locking guard role => exact Missed.mono h hgrows
  | queued guard role => exact Missed.mono h hgrows
  | calling decision guard =>
    refine ⟨h.1, fun hmiss => ?_⟩
    obtain ⟨key, hmissed⟩ := h.2 hmiss
    exact ⟨key, hmissed.mono hgrows⟩
  | running decision guard pauses call =>
    obtain ⟨hne, hmissed, n, hcall, hcaller⟩ := h
    refine ⟨hne, fun hmiss => ?_, n, hcall, getElem?_of_isPrefix hcallers hcaller⟩
    obtain ⟨key, hkey⟩ := hmissed hmiss
    exact ⟨key, hkey.mono hgrows⟩
  | stamping decision guard snapshot =>
    obtain ⟨hne, hmissed, n, hcaller, hanswer⟩ := h
    refine ⟨hne, fun hmiss => ?_, n, getElem?_of_isPrefix hcallers hcaller, hanswer⟩
    obtain ⟨key, hkey⟩ := hmissed hmiss
    exact ⟨key, hkey.mono hgrows⟩
  | writing key guard entry => exact Origin.mono h hgrows
  | landing guard answer => exact Sound.mono h hgrows
  | done answer => exact Sound.mono h hgrows
  | cancelled => trivial

theorem replays_serve {source : Job} {found : Entry} {now : Time}
    (horigin : Origin layer c j source key entry trail) (hkept : found = kept σ entry) :
    Replays job entry (layer.serve job found now) := by
  have hstatus : found.status = entry.status := by
    rw [hkept, kept_eq]
  have hbody : found.body = entry.body := by
    rw [hkept, kept_eq]
  have hetag : found.etag = entry.etag := by
    rw [hkept, kept_eq]
  have hrevalidated : Layer.serve.isRevalidated job found = Layer.serve.isRevalidated job entry := by
    unfold Layer.serve.isRevalidated
    rw [hstatus, hetag]
  obtain ⟨value, hvalue⟩ := horigin.ofString?_etag
  refine ⟨⟨value, hvalue, Layer.getAll_etag_serve (hetag ▸ hvalue)⟩, ?_⟩
  split
  next h => exact Layer.serve_of_isRevalidated (hrevalidated.trans h)
  next h =>
    rw [← hstatus, ← hbody]
    exact Layer.serve_of_not_isRevalidated (hrevalidated.trans (Bool.eq_false_iff.2 h))

theorem sound_of_ne_hit {answer : Answer}
    (h : ∀ response, answer ≠ .response .hit response) : Sound layer c i job answer := by
  intro response hanswer
  exact absurd hanswer (h response)

theorem justified_finish {guard : Option Guard} {answer : Answer}
    (h : Sound layer c i job answer) : Justified layer c i job (.finish guard answer) := by
  cases guard with
  | none => exact h
  | some guard => exact h

theorem Traceable.justified_of_transition (hc : Traceable layer c)
    (hget : c.tasks[i]? = some task) (h : Transition layer c i task e) :
    Justified layer (c.after i task e) i task.job e.phase := by
  have hgrows := grows_after hget e
  have hold := (hc.justified hget).mono hgrows
  cases h with
  | unready hphase hready => exact sound_of_ne_hit fun _ => nofun
  | keyed hphase hready hkey => exact ⟨hkey, nofun⟩
  | keyless hphase hready hkey => exact ⟨nofun, nofun⟩
  | foundExpired hphase hresult =>
    rw [hphase] at hold
    exact hold
  | looked hphase hresult hfound =>
    rw [hphase] at hold
    refine ⟨hold.1, hold.2, ?_⟩
    intro entry hentry
    obtain rfl := Finding.entry?_eq_some.1 hentry
    have hwritten := hc.written (holds_of_look hresult)
    exact hwritten.concat hget (mem_records (List.mem_singleton_self _))
  | lookFailed hphase hresult =>
    rw [hphase] at hold
    exact ⟨hold.1, hold.2, fun _ hfound => nomatch hfound⟩
  | discarded hphase =>
    rw [hphase] at hold
    exact ⟨hold.1, hold.2, fun _ hfound => nomatch hfound⟩
  | hit hphase hdecision =>
    rw [hphase] at hold
    exact ⟨_, hold.1, hold.2.2 _ rfl⟩
  | missedAgain hphase hdecision =>
    rw [hphase] at hold
    exact hold.2.1 rfl
  | missed hphase hdecision hflight =>
    rw [hphase] at hold
    exact .of_decided hget hold.1 hdecision (List.mem_singleton_self _)
  | unguarded hphase hdecision hne hflight =>
    rw [hphase] at hold
    refine ⟨hne, ?_⟩
    intro hmiss
    subst hmiss
    exact ⟨_, .of_decided hget hold.1 hdecision (List.mem_singleton_self _)⟩
  | served hphase =>
    have hserving := hc.justified hget
    rw [hphase] at hserving
    obtain ⟨key, hkey, hwritten⟩ := hserving
    intro response hanswer
    obtain rfl := (Answer.response.inj hanswer).2
    obtain ⟨j, source, entry, success, horigin, hkept⟩ := hwritten
    exact ⟨key, _, j, source, entry, success, hkey,
      horigin.concat hget (mem_reporting (List.mem_singleton_self _)), hkept,
      replays_serve horigin hkept⟩
  | began hphase hlead =>
    rw [hphase] at hold
    exact hold
  | followed hphase hlead =>
    rw [hphase] at hold
    exact hold
  | passedBy hphase hlead =>
    rw [hphase] at hold
    exact ⟨nofun, fun _ => ⟨_, hold⟩⟩
  | queued hphase hholder =>
    rw [hphase] at hold
    exact hold
  | ledAtOnce hphase hholder =>
    rw [hphase] at hold
    exact ⟨nofun, fun _ => ⟨_, hold⟩⟩
  | followedAtOnce hphase hholder =>
    rw [hphase] at hold
    exact ⟨hold.key_eq, fun _ => hold⟩
  | led hphase hholder =>
    rw [hphase] at hold
    exact ⟨nofun, fun _ => ⟨_, hold⟩⟩
  | waited hphase hholder =>
    rw [hphase] at hold
    exact ⟨hold.key_eq, fun _ => hold⟩
  | refused hphase hready => exact justified_finish (sound_of_ne_hit fun _ => nofun)
  | called hphase hready =>
    have hcalling := hc.justified hget
    rw [hphase] at hcalling
    refine ⟨hcalling.1, ?_, c.calls, rfl, ?_⟩
    . intro hmiss
      obtain ⟨key, hmissed⟩ := hcalling.2 hmiss
      exact ⟨key, hmissed.concat hget (List.mem_singleton_self _)⟩
    . -- The number of a call counts the calls before it.
      rw [callers_after, hc.calls_eq]
      exact List.getElem?_concat_length
  | paused hphase =>
    rw [hphase] at hold
    exact hold
  | failed hphase hanswer => exact justified_finish (sound_of_ne_hit fun _ => nofun)
  | answered hphase hanswer =>
    rw [hphase] at hold
    obtain ⟨hne, hmissed, n, hcall, hcaller⟩ := hold
    subst hcall
    exact ⟨hne, hmissed, n, hcaller, hanswer⟩
  | storable hphase hkey =>
    rw [hphase] at hold
    obtain ⟨hne, hmissed, n, hcaller, hanswer⟩ := hold
    obtain ⟨hkeyOf, hdecision, hstores⟩ := Layer.storageKey?_eq_some.1 hkey
    -- The key of the flight is not asked for: a request has one key only.
    obtain ⟨missedKey, hmissed⟩ := hmissed hdecision
    obtain rfl := Option.some.inj (hkeyOf.symm.trans hmissed.key_eq)
    exact ⟨hmissed, ⟨n, _, c.now layer, hcaller, hanswer, rfl⟩, hstores⟩
  | unstorable hphase hkey =>
    rw [hphase] at hold
    apply justified_finish
    apply sound_of_ne_hit
    intro response hanswer
    exact hold.1 (Decision.outcome_eq_hit.1 (Answer.response.inj hanswer).1)
  | wrote hphase hresult => exact justified_finish (sound_of_ne_hit fun _ => nofun)
  | writeFailed hphase hresult => exact justified_finish (sound_of_ne_hit fun _ => nofun)
  | writeAborted hphase hresult => exact justified_finish (sound_of_ne_hit fun _ => nofun)
  | landed hphase =>
    rw [hphase] at hold
    exact hold

theorem holds_of_transition (h : Transition layer c i task e)
    (hfits : ∀ {key guard written}, task.phase = .writing key guard written → written.Fits)
    {found : Entry} (hholds : Holds e.store key found) :
    Holds c.store key found ∨ ∃ guard written success, task.phase = .writing key guard written
      ∧ .wrote key written layer.policy.maxTtl success ∈ e.records ∧ found = kept σ written := by
  cases h with
  | foundExpired => exact .inl (holds_of_holds_look hholds)
  | looked => exact .inl (holds_of_holds_look hholds)
  | lookFailed => exact .inl (holds_of_holds_look hholds)
  | discarded => exact .inl (holds_of_holds_discard hholds)
  | wrote hphase hresult =>
    cases holds_of_holds_set (hfits hphase) hholds with
    | inl hold => exact .inl hold
    | inr hnew =>
      obtain ⟨-, rfl, hkept⟩ := hnew
      refine .inr ⟨_, _, true, hphase, ?_, hkept⟩
      exact mem_reporting (List.mem_append_left _ (mem_records (List.mem_singleton_self _)))
  | writeFailed hphase hresult =>
    cases holds_of_holds_set (hfits hphase) hholds with
    | inl hold => exact .inl hold
    | inr hnew =>
      obtain ⟨-, rfl, hkept⟩ := hnew
      refine .inr ⟨_, _, false, hphase, ?_, hkept⟩
      exact mem_reporting (List.mem_append_left _ (mem_records (List.mem_singleton_self _)))
  | writeAborted hphase hresult =>
    -- No record tells of a write that was aborted, so it must not have put anything there.
    cases holds_of_holds_set (hfits hphase) hholds with
    | inl hold => exact .inl hold
    | inr hnew => exact absurd hresult hnew.1
  | _ => exact .inl hholds

/-- A store that no longer has something, but nothing new. -/
def Loses (s s' : σ) : Prop :=
  ∀ {key : String} {entry : Entry}, Holds s' key entry → Holds s key entry

namespace Traceable

theorem after_transition (hc : Traceable layer c) (hget : c.tasks[i]? = some task)
    (h : Transition layer c i task e) : Traceable layer (c.after i task e) where
  calls_eq := by
    have hcalls : (c.after i task e).calls = e.calls := rfl
    rw [hcalls, callers_after, List.length_append, List.length_replicate, h.calls_eq, hc.calls_eq]
  justified := by
    intro k task' hget'
    cases getElem?_after e hget' with
    | inl hself =>
      obtain ⟨rfl, rfl⟩ := hself
      exact hc.justified_of_transition hget h
    | inr hother => exact (hc.justified hother.2).mono (grows_after hget e)
  written := by
    intro key found hholds
    have hfits {key guard written} (hphase : task.phase = .writing key guard written) :
        written.Fits := by
      have hjustified := hc.justified hget
      rw [hphase] at hjustified
      exact Origin.fits hjustified
    cases holds_of_transition h hfits hholds with
    | inl hold => exact (hc.written hold).mono (grows_after hget e)
    | inr hnew =>
      obtain ⟨guard, entry, success, hphase, hrecord, hkept⟩ := hnew
      have hjustified := hc.justified hget
      rw [hphase] at hjustified
      exact ⟨i, task.job, entry, success, Origin.concat hjustified hget hrecord, hkept⟩

theorem after_leave (hc : Traceable layer c) (hget : c.tasks[i]? = some task) :
    Traceable layer (c.after i task (c.leave i task)) where
  calls_eq := by
    rw [callers_after]
    exact hc.calls_eq.trans (congrArg List.length (List.append_nil _).symm)
  justified := by
    intro k task' hget'
    cases getElem?_after (c.leave i task) hget' with
    | inl hself =>
      obtain ⟨rfl, rfl⟩ := hself
      trivial
    | inr hother => exact (hc.justified hother.2).mono (grows_after hget _)
  written hholds := (hc.written hholds).mono (grows_after hget _)

theorem enlist (hc : Traceable layer c) (job : Job) : Traceable layer (c.enlist job).1 where
  calls_eq := hc.calls_eq
  justified := by
    intro k task' hget
    cases getElem?_enlist hget with
    | inl hold => exact (hc.justified hold).mono (grows_enlist c job)
    | inr hnew =>
      obtain ⟨-, rfl⟩ := hnew
      trivial
  written hholds := (hc.written hholds).mono (grows_enlist c job)

theorem of_environment (hc : Traceable layer c) (htasks : c'.tasks = c.tasks)
    (hcalls : c'.calls = c.calls) (hhistory : c'.history = c.history)
    (hloses : Loses c.store c'.store) : Traceable layer c' := by
  have hgrows : c.Grows c' := by
    constructor
    . exact isPrefix_of_eq (congrArg (List.map Task.job) htasks.symm)
    . exact isPrefix_of_eq hhistory.symm
  constructor
  . unfold callers
    rw [hcalls, hhistory]
    exact hc.calls_eq
  . intro i task hget
    rw [htasks] at hget
    exact (hc.justified hget).mono hgrows
  . intro key found hholds
    exact (hc.written (hloses hholds)).mono hgrows

theorem move (hc : Traceable layer c) (hmove : Move layer Loses c c') : Traceable layer c' := by
  apply hmove.rule hc hc.enlist
  . intro i task e hget h
    exact hc.after_transition hget h
  . intro i task hget
    exact hc.after_leave hget
  . intro store clock systemTime hdrift
    refine hc.of_environment rfl rfl rfl ?_
    cases hdrift with
    | inl heq =>
      subst heq
      exact id
    | inr hloses => exact hloses

theorem start {store : σ} (hempty : ∀ key entry, ¬Holds store key entry) (clock systemTime : Time) :
    Traceable layer (Cache.start store clock systemTime) where
  calls_eq := rfl
  justified hget := nomatch hget
  written hholds := absurd hholds (hempty _ _)

theorem provenance (hc : Traceable layer c) (hget : c.tasks[i]? = some task) {response : Response}
    (hphase : task.phase = .done (.response .hit response)) :
    Provenance layer c i task.job response := by
  have hjustified := hc.justified hget
  rw [hphase] at hjustified
  exact hjustified response rfl

end Traceable

end

/--
Every response that is served from a store in memory or on a server goes back to a request that missed
under the same key, however requests, clocks, outages and losses of entries come together.
-/
theorem provenance_of_reachable (layer : Layer) (clock systemTime : Time) :
    (∀ {c : Cache (Unreliable MemoryStore)} {i : Nat} {task : Task} {response : Response},
        Reachable layer Loses (start (.working .empty) clock systemTime) c →
        c.tasks[i]? = some task → task.phase = .done (.response .hit response) →
        Provenance layer c i task.job response)
      ∧ ∀ (keyspace : String) {c : Cache (Unreliable RedisStore)} {i : Nat} {task : Task}
          {response : Response},
        Reachable layer Loses (start (.working (.empty keyspace)) clock systemTime) c →
        c.tasks[i]? = some task → task.phase = .done (.response .hit response) →
        Provenance layer c i task.job response := by
  constructor
  . intro c i task response hreach hget hphase
    have hstart : Traceable layer
        (start (Unreliable.working MemoryStore.empty) clock systemTime) :=
      .start MemoryStore.not_holds_empty clock systemTime
    exact (hreach.invariant hstart Traceable.move).provenance hget hphase
  . intro keyspace c i task response hreach hget hphase
    have hstart : Traceable layer
        (start (Unreliable.working (RedisStore.empty keyspace)) clock systemTime) :=
      .start (RedisStore.not_holds_empty keyspace) clock systemTime
    exact (hreach.invariant hstart Traceable.move).provenance hget hphase

def Task.hit? (t : Task) : Option Response :=
  match t.phase with
  | .done (.response .hit response) => some response
  | _ => none

theorem exists_of_isSome_hit? {σ : Type} {c : Cache σ} {i : Nat}
    (h : (c.tasks[i]?.bind Task.hit?).isSome = true) :
    ∃ task response, c.tasks[i]? = some task ∧ task.phase = .done (.response .hit response) := by
  obtain ⟨response, hresponse⟩ := Option.isSome_iff_exists.1 h
  obtain ⟨task, hget, htask⟩ := Option.bind_eq_some_iff.1 hresponse
  unfold Task.hit? at htask
  split at htask
  next response hphase => exact ⟨task, response, hget, hphase⟩
  next => nomatch htask

def twoRequests {σ : Type} [Backend σ] (store : σ) : Cache σ :=
  let c := ((start store .epoch .epoch).request (.sample false) (.sample 0 (.ok .empty))).1
  (c.request (.sample false) (.sample 0 (.ok .empty))).1

theorem reachable_twoRequests {σ : Type} [Backend σ] (drift : σ → σ → Prop) (store : σ) :
    Reachable (.sample false) drift (start store .epoch .epoch) (twoRequests store) :=
  (Reachable.start.request _).request _

/-- The second of two requests for the same is served what the first was answered. -/
theorem provenance_of_twoRequests :
    (∃ task response,
        (twoRequests (Unreliable.working MemoryStore.empty)).tasks[1]? = some task
          ∧ task.phase = .done (.response .hit response)
          ∧ Provenance (.sample false) (twoRequests (Unreliable.working MemoryStore.empty)) 1
            task.job response)
      ∧ ∃ task response,
        (twoRequests (Unreliable.working (RedisStore.empty "a"))).tasks[1]? = some task
          ∧ task.phase = .done (.response .hit response)
          ∧ Provenance (.sample false)
            (twoRequests (Unreliable.working (RedisStore.empty "a"))) 1 task.job response := by
  constructor
  . have hhit : ((twoRequests (Unreliable.working MemoryStore.empty)).tasks[1]?.bind
        Task.hit?).isSome = true := by
      decide +kernel
    obtain ⟨task, response, hget, hphase⟩ := exists_of_isSome_hit? hhit
    have hreach := reachable_twoRequests Loses (Unreliable.working MemoryStore.empty)
    exact ⟨task, response, hget, hphase,
      (provenance_of_reachable (.sample false) .epoch .epoch).1 hreach hget hphase⟩
  . have hhit : ((twoRequests (Unreliable.working (RedisStore.empty "a"))).tasks[1]?.bind
        Task.hit?).isSome = true := by
      decide +kernel
    obtain ⟨task, response, hget, hphase⟩ := exists_of_isSome_hit? hhit
    have hreach := reachable_twoRequests Loses (Unreliable.working (RedisStore.empty "a"))
    exact ⟨task, response, hget, hphase,
      (provenance_of_reachable (.sample false) .epoch .epoch).2 "a" hreach hget hphase⟩

end ResponseCache
