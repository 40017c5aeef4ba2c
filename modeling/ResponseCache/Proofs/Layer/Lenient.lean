import ResponseCache.Proofs.Layer.Play

/-!
This module contains what a cache makes of looks into its store that fail. It runs beside another one, whose
store finds nothing instead, and the two cannot be told apart but by what they say about the failures.
-/

namespace ResponseCache

open Cache

/-- A store of which every look that would fail finds nothing. -/
structure Lenient (σ : Type) where
  store : σ

namespace Lenient

variable {σ : Type} [Backend σ]

def findNothing : Except StoreError Finding → Except StoreError Finding
  | .ok found => .ok found
  | .error _ => .ok .absent

instance : Backend (Lenient σ) where
  look s now key :=
    ⟨findNothing (Backend.look s.store now key).result, ⟨(Backend.look s.store now key).store⟩,
      (Backend.look s.store now key).commands⟩
  discard s key := ⟨Backend.discard s.store key⟩
  set s now key entry ttl :=
    ⟨(Backend.set s.store now key entry ttl).result, ⟨(Backend.set s.store now key entry ttl).store⟩,
      (Backend.set s.store now key entry ttl).commands⟩

end Lenient

def Action.lenient {σ : Type} : Action σ → Action (Lenient σ)
  | .enlist job => .enlist job
  | .step i => .step i
  | .cancel i => .cancel i
  | .clock t => .clock t
  | .systemTime t => .systemTime t
  | .change f => .change fun s => ⟨f s.store⟩

/-- What is left of a record without what it says about a look that failed. -/
def Record.smoothed? : Record → Option Record
  | .read key (.error _) => some (.read key (.ok none))
  | .logged (.lookupFailed _ _) => none
  | .counted .lookupError => none
  | .reported event => if event.kind = .lookupFailed then none else some (.reported event)
  | record => some record

def Note.smoothed? (note : Note) : Option Note :=
  note.record.smoothed?.map (Note.mk note.task)

def smoothed (history : List Note) : List Note :=
  history.filterMap Note.smoothed?

namespace Layer

def withDraw (layer : Layer) (draw : Nat → Float) : Layer :=
  { layer with entropy := { layer.entropy with draw := draw } }

@[simp]
theorem policy_withDraw (layer : Layer) (draw : Nat → Float) : (layer.withDraw draw).policy = layer.policy := rfl

@[simp]
theorem storageKey?_withDraw (layer : Layer) (draw : Nat → Float) (job : Job) (decision : Decision)
    (entry : Entry) :
    (layer.withDraw draw).storageKey? job decision entry = layer.storageKey? job decision entry := rfl

@[simp]
theorem tagKey_withDraw (layer : Layer) (draw : Nat → Float) (job : Job) :
    (layer.withDraw draw).tagKey job = layer.tagKey job := rfl

@[simp]
theorem now_withDraw {σ : Type} (c : Cache σ) (layer : Layer) (draw : Nat → Float) :
    c.now (layer.withDraw draw) = c.now layer := rfl

/-- Whether it depends on the number drawn for an event if the event is reported. -/
def ReportsByChance (layer : Layer) : Prop :=
  ∃ draw draw', layer.events.shouldSample draw ≠ layer.events.shouldSample draw'

/--
Whether other numbers have the same effect on what is reported. They are drawn where nothing is said about
looks that failed, so that they count by a shorter history.
-/
def Coupled (layer : Layer) (draw : Nat → Float) (history : List Note) : Prop :=
  ∀ {notes : List Note} {note left : Note}, notes ++ [note] <+: history → note.smoothed? = some left →
    layer.events.shouldSample (draw (smoothed (notes ++ [note])).length)
      = layer.events.shouldSample (layer.entropy.draw (notes ++ [note]).length)

end Layer

section

theorem smoothed_append (notes others : List Note) :
    smoothed (notes ++ others) = smoothed notes ++ smoothed others :=
  List.filterMap_append

theorem smoothed_map (i : Nat) (records : List Record) :
    smoothed (records.map (Note.mk i)) = (records.filterMap Record.smoothed?).map (Note.mk i) := by
  unfold smoothed
  rw [List.filterMap_map, List.map_filterMap]
  rfl

theorem filterMap_records {σ α : Type} (access : Access σ α) {first left : List Record}
    (hfirst : first.filterMap Record.smoothed? = left) :
    (access.records first).filterMap Record.smoothed? = access.records left := by
  unfold Access.records
  rw [List.filterMap_append, hfirst, List.filterMap_map]
  congr 1
  exact congrFun List.filterMap_eq_map access.commands

theorem length_smoothed_lt {notes history : List Note} {note left : Note}
    (hhistory : notes ++ [note] <+: history) (hleft : note.smoothed? = some left) :
    (smoothed notes).length < (smoothed history).length := by
  obtain ⟨others, rfl⟩ := hhistory
  rw [smoothed_append, smoothed_append, List.append_assoc, List.length_append, Nat.lt_add_right_iff_pos,
    List.length_append]
  unfold smoothed
  rw [List.filterMap_cons_some hleft, List.length_cons]
  omega

theorem Layer.exists_coupled (layer : Layer) (history : List Note) :
    ∃ draw, (¬layer.ReportsByChance → draw = layer.entropy.draw) ∧ layer.Coupled draw history := by
  by_cases hchance : layer.ReportsByChance
  . suffices hcoupled : ∃ draw, layer.Coupled draw history by
      obtain ⟨draw, hdraw⟩ := hcoupled
      exact ⟨draw, fun hnot => absurd hchance hnot, hdraw⟩
    induction history using List.reverseRecOn with
    | nil => exact ⟨layer.entropy.draw, fun hhistory => absurd (List.prefix_nil.1 hhistory) (by simp)⟩
    | append_singleton history last ih =>
      obtain ⟨draw, hdraw⟩ := ih
      cases hlast : last.smoothed? with
      | none =>
        refine ⟨draw, fun hhistory hleft => ?_⟩
        cases List.prefix_concat_iff.1 hhistory with
        | inl heq =>
          obtain rfl := List.singleton_inj.1 (List.append_inj' heq rfl).2
          nomatch hlast.symm.trans hleft
        | inr hshorter => exact hdraw hshorter hleft
      | some left =>
        -- Only the number that is drawn next is new, as what is left of the history is longer by now.
        refine ⟨fun n =>
          if n = (smoothed (history ++ [last])).length then layer.entropy.draw (history ++ [last]).length
          else draw n, fun {notes note _} hhistory hleft => ?_⟩
        cases List.prefix_concat_iff.1 hhistory with
        | inl heq =>
          rw [heq]
          simp only [if_true]
        | inr hshorter =>
          have hle : (smoothed (notes ++ [note])).length ≤ (smoothed history).length :=
            (hshorter.filterMap Note.smoothed?).length_le
          have hlt := length_smoothed_lt (List.prefix_refl (history ++ [last])) hlast
          simp only [if_neg (Nat.ne_of_lt (Nat.lt_of_le_of_lt hle hlt))]
          exact hdraw hshorter hleft
  . refine ⟨layer.entropy.draw, fun _ => rfl, fun _ _ => ?_⟩
    exact Classical.byContradiction fun hne => hchance ⟨_, _, hne⟩

variable {σ : Type} {layer : Layer} {c : Cache σ} {c' : Cache (Lenient σ)} {i : Nat} {task : Task}
  {draw : Nat → Float} {history : List Note}

/-- Two caches that differ in nothing but what the first says about looks that failed. -/
structure Twins (c : Cache σ) (c' : Cache (Lenient σ)) : Prop where
  store_eq : c'.store = ⟨c.store⟩
  clock_eq : c'.clock = c.clock
  systemTime_eq : c'.systemTime = c.systemTime
  flights_eq : c'.flights = c.flights
  tasks_eq : c'.tasks = c.tasks
  calls_eq : c'.calls = c.calls
  history_eq : c'.history = smoothed c.history

namespace Twins

theorem start (store : σ) (clock systemTime : Time) :
    Twins (Cache.start store clock systemTime) (Cache.start ⟨store⟩ clock systemTime) :=
  ⟨rfl, rfl, rfl, rfl, rfl, rfl, rfl⟩

theorem now_eq (h : Twins c c') (layer : Layer) : c'.now layer = c.now layer := by
  unfold Cache.now
  rw [h.clock_eq, h.systemTime_eq]

theorem event_eq (h : Twins c c') (task : Task) (kind : EventType) :
    layer.event c'.systemTime i task kind = layer.event c.systemTime i task kind := by
  rw [h.systemTime_eq]

theorem phase?_eq (h : Twins c c') (i : Nat) : c'.phase? i = c.phase? i := by
  unfold phase?
  rw [h.tasks_eq]

theorem note (h : Twins c c') (i : Nat) {records records' : List Record}
    (hsame : records' = records.filterMap Record.smoothed?) :
    Twins (c.note i records) (c'.note i records') := by
  refine { h with history_eq := ?_ }
  unfold Cache.note
  rw [h.history_eq, hsame, smoothed_append, smoothed_map]

theorem note_left (h : Twins c c') (i : Nat) {records : List Record}
    (hnone : records.filterMap Record.smoothed? = []) : Twins (c.note i records) c' := by
  refine { h with history_eq := ?_ }
  unfold Cache.note
  rw [h.history_eq, smoothed_append, smoothed_map, hnone, List.map_nil, List.append_nil]

theorem goto (h : Twins c c') (i : Nat) (phase : Phase) : Twins (c.goto i phase) (c'.goto i phase) := by
  refine { h with tasks_eq := ?_ }
  unfold Cache.goto
  rw [h.tasks_eq]

theorem withFlights (h : Twins c c') (flights : Flights) :
    Twins { c with flights := flights } { c' with flights := flights } :=
  { h with flights_eq := rfl }

theorem withStore (h : Twins c c') (store : σ) :
    Twins { c with store := store } { c' with store := ⟨store⟩ } :=
  { h with store_eq := rfl }

/-- What is counted is reported by both, or by none. -/
theorem report (h : Twins c c') (hcoupled : layer.Coupled draw history) (i : Nat) (records : List Record)
    (counter : Counter) {event event' : Event}
    (hkept : (records ++ [Record.counted counter]).filterMap Record.smoothed? = records ++ [.counted counter])
    (hcounter : counter ≠ .lookupError) (hkind : event.kind ≠ .lookupFailed) (hevent : event' = event)
    (hhistory : ((c.note i (records ++ [.counted counter])).report layer i event).history <+: history) :
    Twins ((c.note i (records ++ [.counted counter])).report layer i event)
      ((c'.note i (records ++ [.counted counter])).report (layer.withDraw draw) i event') := by
  subst hevent
  have hnoted := h.note i hkept.symm
  apply hnoted.note
  have hleft : (Note.mk i (.counted counter)).smoothed? = some ⟨i, .counted counter⟩ := by
    cases counter with
    | lookupError => exact absurd rfl hcounter
    | _ => rfl
  have hsame : layer.events.shouldSample (draw (c'.note i (records ++ [.counted counter])).history.length)
      = layer.events.shouldSample
        (layer.entropy.draw (c.note i (records ++ [.counted counter])).history.length) := by
    have hlast : (c.note i (records ++ [.counted counter])).history
        = c.history ++ records.map (Note.mk i) ++ [⟨i, .counted counter⟩] := by
      unfold Cache.note
      rw [List.map_append, List.append_assoc]
      rfl
    rw [hnoted.history_eq, hlast]
    refine hcoupled ?_ hleft
    rw [← hlast]
    exact (List.prefix_append _ _).trans hhistory
  unfold Layer.report Layer.withDraw
  simp only [hsame]
  split
  next =>
    simp only [List.filterMap_cons, Record.smoothed?, if_neg hkind, List.filterMap_nil]
  next => rfl

theorem report_left (h : Twins c c') (i : Nat) {event : Event} (hkind : event.kind = .lookupFailed) :
    Twins (c.report layer i event) c' := by
  apply h.note_left
  unfold Layer.report
  split
  next =>
    simp only [List.filterMap_cons, Record.smoothed?, hkind, if_true, List.filterMap_nil]
  next => rfl

theorem arrive (h : Twins c c') : Twins (c.arrive layer i task) (c'.arrive layer i task) := by
  have hstarted : Twins
      { c with tasks := c.tasks.modify i fun t => { t with started := c.systemTime } }
      { c' with tasks := c'.tasks.modify i fun t => { t with started := c'.systemTime } } := by
    refine { h with tasks_eq := ?_ }
    rw [h.tasks_eq, h.systemTime_eq]
  unfold Cache.arrive
  split
  next => exact hstarted.goto i _
  next =>
    split
    next => exact hstarted.goto i _
    next => exact hstarted.goto i _

theorem decide (h : Twins c c') (key : String) (found : Option Entry) (again : Bool) :
    Twins (c.decide layer i task key found again) (c'.decide layer i task key found again) := by
  unfold Cache.decide
  rw [h.now_eq]
  cases again with
  | true =>
    simp only [if_true]
    split
    next => exact h.goto i _
    next => exact h.goto i _
  | false =>
    simp only [Bool.false_eq_true, if_false]
    split
    next => exact (h.note i rfl).goto i _
    next =>
      split
      next => exact (h.note i rfl).goto i _
      next => exact (h.note i rfl).goto i _

theorem serve (h : Twins c c') (hcoupled : layer.Coupled draw history) (entry : Entry)
    (hhistory : (c.serve layer i task entry).history <+: history) :
    Twins (c.serve layer i task entry) (c'.serve (layer.withDraw draw) i task entry) := by
  unfold Cache.serve
  rw [h.now_eq, h.systemTime_eq]
  refine (h.report hcoupled i [] .hit rfl (by decide) ?_ rfl hhistory).goto i _
  split <;> rintro ⟨⟩

theorem join (h : Twins c c') (key : String) (again : Bool) :
    Twins (c.join i key again) (c'.join i key again) := by
  unfold Cache.join
  rw [h.flights_eq]
  split
  next => exact (h.withFlights _).goto i _
  next =>
    split
    next => exact h.goto i _
    next => exact h.goto i _

theorem enter (h : Twins c c') (guard : Guard) (role : Role) :
    Twins (c.enter i guard role) (c'.enter i guard role) := by
  cases role with
  | leader => exact h.goto i _
  | follower =>
    unfold Cache.enter
    rw [h.flights_eq]
    exact (h.withFlights _).goto i _

theorem acquire (h : Twins c c') (guard : Guard) (role : Role) :
    Twins (c.acquire i guard role) (c'.acquire i guard role) := by
  unfold Cache.acquire
  rw [h.flights_eq]
  split
  next => exact (h.withFlights _).enter guard role
  next => exact (h.withFlights _).goto i _

theorem fail (h : Twins c c') (hcoupled : layer.Coupled draw history) (guard : Option Guard)
    (message : String) (hhistory : (c.fail layer i task guard message).history <+: history) :
    Twins (c.fail layer i task guard message) (c'.fail (layer.withDraw draw) i task guard message) := by
  refine (h.report hcoupled i [.logged (.handlerFailed (layer.keyOf task.job) message)] .error rfl (by decide) ?_
    (h.event_eq task .error) hhistory).goto i _
  rintro ⟨⟩

theorem call (h : Twins c c') (hcoupled : layer.Coupled draw history) (decision : Decision)
    (guard : Option Guard) (hhistory : (c.call layer i task decision guard).history <+: history) :
    Twins (c.call layer i task decision guard) (c'.call (layer.withDraw draw) i task decision guard) := by
  unfold Cache.call at hhistory ⊢
  split
  next hrefusal =>
    simp only [hrefusal] at hhistory
    exact h.fail hcoupled guard _ hhistory
  next =>
    have hcalled : Twins { c with calls := c.calls + 1 } { c' with calls := c.calls + 1 } :=
      { h with calls_eq := rfl }
    rw [h.calls_eq]
    exact (hcalled.note i rfl).goto i _

theorem respond (h : Twins c c') (hcoupled : layer.Coupled draw history) (decision : Decision)
    (guard : Option Guard) (call : Nat)
    (hhistory : (c.respond layer i task decision guard call).history <+: history) :
    Twins (c.respond layer i task decision guard call)
      (c'.respond (layer.withDraw draw) i task decision guard call) := by
  unfold Cache.respond at hhistory ⊢
  split
  next hanswer =>
    simp only [hanswer] at hhistory
    exact h.fail hcoupled guard _ hhistory
  next => exact h.goto i _

theorem stamp (h : Twins c c') (hcoupled : layer.Coupled draw history) (decision : Decision)
    (guard : Option Guard) (snapshot : Snapshot)
    (hhistory : (c.stamp layer i task decision guard snapshot).history <+: history) :
    Twins (c.stamp layer i task decision guard snapshot)
      (c'.stamp (layer.withDraw draw) i task decision guard snapshot) := by
  have hkind (entry : Entry) : ({ layer.event c.systemTime i task (.ofOutcome decision.outcome) with
      status := some entry.status, etag := some entry.etag, size := some entry.body.length } : Event).kind
        ≠ .lookupFailed := by
    cases decision <;> rintro ⟨⟩
  have hcounter : (if decision = .miss then .miss else .bypass : Counter) ≠ .lookupError := by
    split <;> decide
  have hkept : [Record.counted (if decision = .miss then .miss else .bypass)].filterMap Record.smoothed?
      = [Record.counted (if decision = .miss then .miss else .bypass)] := by
    split <;> rfl
  unfold Cache.stamp at hhistory ⊢
  simp only [h.now_eq, Layer.storageKey?_withDraw, Layer.tagKey_withDraw, Layer.now_withDraw]
  cases hkey : layer.storageKey? task.job decision (c.stamped layer task snapshot) with
  | some key =>
    unfold Cache.stamped at hkey
    simp only [hkey] at hhistory ⊢
    refine (h.report hcoupled i [] _ hkept hcounter (hkind _) ?_ hhistory).goto i _
    simp only [Cache.note, h.systemTime_eq]
    rfl
  | none =>
    unfold Cache.stamped at hkey
    simp only [hkey] at hhistory ⊢
    refine (h.report hcoupled i [] _ hkept hcounter (hkind _) ?_ hhistory).goto i _
    simp only [Cache.note, h.systemTime_eq]
    rfl

theorem land (h : Twins c c') (guard : Guard) (answer : Answer) :
    Twins (c.land i guard answer) (c'.land i guard answer) := by
  unfold Cache.land
  rw [h.flights_eq]
  exact (h.withFlights _).goto i _

theorem cancel (h : Twins c c') (i : Nat) : Twins (c.cancel i) (c'.cancel i) := by
  unfold Cache.cancel
  rw [h.phase?_eq, h.flights_eq]
  split
  next => exact h
  next =>
    split
    next => exact h
    next => exact (h.withFlights _).goto i _

theorem enlist (h : Twins c c') (job : Job) : Twins (c.enlist job).1 (c'.enlist job).1 := by
  refine { h with tasks_eq := ?_ }
  unfold Cache.enlist
  rw [h.tasks_eq, h.systemTime_eq]

variable [Backend σ]

theorem look (h : Twins c c') (key : String) (again : Bool) :
    Twins (c.look layer i task key again) (c'.look (layer.withDraw draw) i task key again) := by
  have hlook : Backend.look c'.store c'.systemTime key
      = ⟨Lenient.findNothing (Backend.look c.store c.systemTime key).result,
        ⟨(Backend.look c.store c.systemTime key).store⟩,
        (Backend.look c.store c.systemTime key).commands⟩ := by
    rw [h.store_eq, h.systemTime_eq]
    rfl
  have hnoted (first : List Record) {left : List Record}
      (hfirst : first.filterMap Record.smoothed? = left) :=
    (h.withStore (Backend.look c.store c.systemTime key).store).note i
      (filterMap_records (Backend.look c.store c.systemTime key) hfirst).symm
  unfold Cache.look
  rw [hlook]
  cases hresult : (Backend.look c.store c.systemTime key).result with
  | ok found =>
    simp only [hresult, Lenient.findNothing]
    cases found with
    | expired => exact (hnoted [] rfl).goto i _
    | absent => exact (hnoted [.read key (.ok none)] rfl).goto i _
    | live entry => exact (hnoted [.read key (.ok (some entry))] rfl).goto i _
  | error error =>
    simp only [hresult, Lenient.findNothing]
    refine (((hnoted [.read key (.error error)] rfl).note_left i ?_).report_left i ?_).goto i _
    . rfl
    . rfl

theorem discard (h : Twins c c') (key : String) (again : Bool) :
    Twins (c.discard i key again) (c'.discard i key again) := by
  unfold Cache.discard
  rw [h.store_eq]
  exact ((h.withStore _).note i rfl).goto i _

theorem write (h : Twins c c') (hcoupled : layer.Coupled draw history) (key : String)
    (guard : Option Guard) (entry : Entry)
    (hhistory : (c.write layer i task key guard entry).history <+: history) :
    Twins (c.write layer i task key guard entry)
      (c'.write (layer.withDraw draw) i task key guard entry) := by
  have hset : Backend.set c'.store c'.systemTime key entry layer.policy.maxTtl
      = ⟨(Backend.set c.store c.systemTime key entry layer.policy.maxTtl).result,
        ⟨(Backend.set c.store c.systemTime key entry layer.policy.maxTtl).store⟩,
        (Backend.set c.store c.systemTime key entry layer.policy.maxTtl).commands⟩ := by
    rw [h.store_eq, h.systemTime_eq]
    rfl
  have hnoted {first : List Record} (hfirst : first.filterMap Record.smoothed? = first) :=
    (h.withStore (Backend.set c.store c.systemTime key entry layer.policy.maxTtl).store).note i
      (filterMap_records (Backend.set c.store c.systemTime key entry layer.policy.maxTtl) hfirst).symm
  unfold Cache.write at hhistory ⊢
  simp only [Layer.policy_withDraw, hset]
  cases hresult : (Backend.set c.store c.systemTime key entry layer.policy.maxTtl).result with
  | ok =>
    simp only [hresult, writeRecord] at hhistory ⊢
    refine ((hnoted rfl).report hcoupled i [] .store rfl (by decide) ?_ ?_ hhistory).goto i _
    . rintro ⟨⟩
    . simp only [Cache.note, h.systemTime_eq]
      rfl
  | error fault =>
    cases fault with
    | error error =>
      simp only [hresult, writeRecord] at hhistory ⊢
      refine ((hnoted rfl).report hcoupled i [.logged (.storeFailed key error)] .storeError rfl (by decide) ?_ ?_
        hhistory).goto i _
      . rintro ⟨⟩
      . simp only [Cache.note, h.systemTime_eq]
        rfl
    | overflow =>
      simp only [writeRecord]
      exact (hnoted rfl).goto i _

theorem step (h : Twins c c') (hcoupled : layer.Coupled draw history)
    (hhistory : (c.act layer (.step i)).history <+: history) :
    Twins (c.act layer (.step i)) (c'.act (layer.withDraw draw) (.step i)) := by
  unfold Cache.act Cache.step at hhistory ⊢
  rw [h.tasks_eq, h.flights_eq]
  cases hget : c.tasks[i]? with
  | none =>
    simp only [hget, Option.bind_eq_bind, Option.bind_none, Option.getD_none]
    exact h
  | some task =>
    simp only [hget, Option.bind_eq_bind, Option.bind_some, pure] at hhistory ⊢
    cases hphase : task.phase with
    | arriving => exact h.arrive
    | reading key again => exact h.look key again
    | discarding key again => exact h.discard key again
    | deciding key found again => exact h.decide key found again
    | serving entry =>
      rw [hphase] at hhistory
      exact h.serve hcoupled entry hhistory
    | joining key again => exact h.join key again
    | locking guard role => exact h.acquire guard role
    | queued guard role =>
      simp only
      split
      next => exact h.enter guard role
      next => exact h
    | calling decision guard =>
      rw [hphase] at hhistory
      exact h.call hcoupled decision guard hhistory
    | running decision guard pauses call =>
      rw [hphase] at hhistory
      cases pauses with
      | zero => exact h.respond hcoupled decision guard call hhistory
      | succ pauses => exact h.goto i _
    | stamping decision guard snapshot =>
      rw [hphase] at hhistory
      exact h.stamp hcoupled decision guard snapshot hhistory
    | writing key guard entry =>
      rw [hphase] at hhistory
      exact h.write hcoupled key guard entry hhistory
    | landing guard answer => exact h.land guard answer
    | done answer => exact h
    | cancelled => exact h

theorem act (h : Twins c c') (hcoupled : layer.Coupled draw history) (action : Action σ)
    (hhistory : (c.act layer action).history <+: history) :
    Twins (c.act layer action) (c'.act (layer.withDraw draw) action.lenient) := by
  cases action with
  | enlist job => exact h.enlist job
  | step i => exact h.step hcoupled hhistory
  | cancel i => exact h.cancel i
  | clock t => exact { h with clock_eq := rfl }
  | systemTime t => exact { h with systemTime_eq := rfl }
  | change f =>
    refine { h with store_eq := ?_ }
    unfold Action.lenient Cache.act
    simp only [h.store_eq]

theorem play (h : Twins c c') (actions : List (Action σ))
    (hcoupled : layer.Coupled draw (c.play layer actions).history) :
    Twins (c.play layer actions) (c'.play (layer.withDraw draw) (actions.map Action.lenient)) := by
  induction actions generalizing c c' with
  | nil => exact h
  | cons action actions ih =>
    exact ih (h.act hcoupled action (reachable_play _ layer actions).grows.2) hcoupled

end Twins

end

end ResponseCache
