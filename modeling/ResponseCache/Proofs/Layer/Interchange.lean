import Mathlib.Data.Set.Function
import Mathlib.Order.Interval.Set.Defs
import ResponseCache.Proofs.Layer.Lifetime
import ResponseCache.Proofs.Layer.Tolerance
import ResponseCache.Proofs.Store.LastWritten

/-!
This module contains the proof that a cache does the same over a store in memory and over a namespace on a
server. The two run side by side: whatever the first does, the second does too, and beyond that it only
sends a command for every read and write. That holds as long as nothing happens that the stores treat
differently: no entry expires, and its times are within what its binary format and the clock can hold.
-/

namespace ResponseCache

open Cache

theorem MemoryStore.backendLook_eq (s : MemoryStore) (now : Time) (key : String) :
    Backend.look s now key = ⟨.ok (s.look now key), s, []⟩ := rfl

/-- What is recorded over a server where a record is made over a store in memory. -/
def Record.commanded (keyspace : String) : Record → List Record
  | .read key result => [.read key result, .sent (.get (RedisStore.serverKey keyspace key))]
  | .wrote key entry ttl success =>
    .wrote key entry ttl success :: (RedisStore.setCommands keyspace key entry ttl).map .sent
  | record => [record]

def commanded (keyspace : String) (history : List Note) : List Note :=
  history.flatMap fun note => (note.record.commanded keyspace).map (Note.mk note.task)

def Record.isSent : Record → Bool
  | .sent _ => true
  | _ => false

def unsent (history : List Note) : List Note :=
  history.filter fun note => !note.record.isSent

section

variable {keyspace : String}

theorem commanded_append (keyspace : String) (notes others : List Note) :
    commanded keyspace (notes ++ others) = commanded keyspace notes ++ commanded keyspace others :=
  List.flatMap_append

theorem commanded_map (keyspace : String) (i : Nat) (records : List Record) :
    commanded keyspace (records.map (Note.mk i))
      = (records.flatMap (Record.commanded keyspace)).map (Note.mk i) := by
  unfold commanded
  rw [List.flatMap_map, List.map_flatMap]

theorem Record.commanded_ne_nil (keyspace : String) (record : Record) : record.commanded keyspace ≠ [] := by
  cases record <;> simp [commanded]

/-- Over the store in memory, there is a record of an access alone. -/
theorem flatMap_records {σ α : Type} (keyspace : String) (result : α) (store : σ) (record : Record) :
    ((⟨result, store, []⟩ : Access σ α).records [record]).flatMap (Record.commanded keyspace)
      = record.commanded keyspace := by
  simp [Access.records]

theorem records_setCommands {σ α : Type} (keyspace : String) (result : α) (store : σ) (key : String)
    (entry : Entry) (ttl : Duration) (success : Bool) :
    (⟨result, store, RedisStore.setCommands keyspace key entry ttl⟩ : Access σ α).records
        [.wrote key entry ttl success]
      = (Record.wrote key entry ttl success).commanded keyspace := by
  simp [Access.records, Record.commanded]

theorem length_le_commanded (keyspace : String) (notes : List Note) :
    notes.length ≤ (commanded keyspace notes).length := by
  induction notes with
  | nil => exact Nat.le_refl 0
  | cons note notes ih =>
    have hpos := List.length_pos_iff.2 (note.record.commanded_ne_nil keyspace)
    unfold commanded at ih ⊢
    rw [List.flatMap_cons, List.length_append, List.length_map, List.length_cons]
    omega

theorem unsent_commanded (keyspace : String) (history : List Note) :
    unsent (commanded keyspace history) = unsent history := by
  unfold unsent commanded
  induction history with
  | nil => rfl
  | cons note history ih =>
    rw [List.flatMap_cons, List.filter_append, ih]
    obtain ⟨i, record⟩ := note
    cases record <;> simp [Record.commanded, Record.isSent, List.filter_map]

end

namespace Layer

/--
Whether other numbers have the same effect on what is reported, drawn where the commands are recorded as
well.
-/
def InStep (layer : Layer) (keyspace : String) (draw : Nat → Float) (history : List Note) : Prop :=
  ∀ notes, notes <+: history →
    layer.events.shouldSample (draw (commanded keyspace notes).length)
      = layer.events.shouldSample (layer.entropy.draw notes.length)

theorem exists_inStep (layer : Layer) (keyspace : String) (history : List Note) :
    ∃ draw, (¬layer.ReportsByChance → draw = layer.entropy.draw) ∧ layer.InStep keyspace draw history := by
  by_cases hchance : layer.ReportsByChance
  . -- A longer part of the history is longer over a server, too.
    have hinj : Set.InjOn (fun n => (commanded keyspace (history.take n)).length)
        (Set.Iic history.length) := by
      apply StrictMonoOn.injOn
      intro m _ n hn hlt
      have hn : n ≤ history.length := hn
      have hsplit : history.take n = history.take m ++ (history.take n).drop m := by
        have htake : (history.take n).take m = history.take m := by
          rw [List.take_take, Nat.min_eq_left (Nat.le_of_lt hlt)]
        rw [← htake, List.take_append_drop]
      have hle := length_le_commanded keyspace ((history.take n).drop m)
      rw [List.length_drop, List.length_take] at hle
      simp only
      rw [hsplit, commanded_append, List.length_append]
      omega
    refine ⟨layer.entropy.draw ∘ Function.invFunOn
      (fun n => (commanded keyspace (history.take n)).length) (Set.Iic history.length),
      fun hnot => absurd hchance hnot, fun notes hnotes => ?_⟩
    have hplace := hinj.leftInvOn_invFunOn (Set.mem_Iic.2 hnotes.length_le)
    rw [← List.prefix_iff_eq_take.1 hnotes] at hplace
    rw [Function.comp_apply, hplace]
  . refine ⟨layer.entropy.draw, fun _ => rfl, fun _ _ => ?_⟩
    exact Classical.byContradiction fun hne => hchance ⟨_, _, hne⟩

end Layer

section

variable {σ τ : Type}

/-- The same cache over another store, of which the commands are recorded. -/
def Cache.over (c : Cache σ) (keyspace : String) (store : τ) : Cache τ :=
  ⟨store, c.clock, c.systemTime, c.flights, c.tasks, c.calls, commanded keyspace c.history⟩

def Effect.over (e : Effect σ) (keyspace : String) (store : τ) : Effect τ :=
  ⟨e.phase, e.started, store, e.flights, e.calls, e.records.flatMap (Record.commanded keyspace)⟩

def Action.over : Action σ → Action τ
  | .enlist job => .enlist job
  | .step i => .step i
  | .cancel i => .cancel i
  | .clock t => .clock t
  | .systemTime t => .systemTime t
  | .change _ => .change id

/-- Two caches that differ in nothing but their stores, and the commands that are sent to a server. -/
structure Agree (c : Cache σ) (c' : Cache τ) : Prop where
  clock_eq : c'.clock = c.clock
  systemTime_eq : c'.systemTime = c.systemTime
  flights_eq : c'.flights = c.flights
  tasks_eq : c'.tasks = c.tasks
  calls_eq : c'.calls = c.calls
  history_eq : unsent c'.history = unsent c.history

variable {keyspace : String} {layer : Layer} {c : Cache σ} {i : Nat} {task : Task} {e : Effect σ}
  {draw : Nat → Float} {history : List Note}

theorem agree_over (c : Cache σ) (keyspace : String) (store : τ) : Agree c (c.over keyspace store) :=
  ⟨rfl, rfl, rfl, rfl, rfl, unsent_commanded keyspace c.history⟩

theorem over_after (store store' : τ) (i : Nat) (task : Task) (e : Effect σ) :
    (c.over keyspace store).after i task (e.over keyspace store')
      = (c.after i task e).over keyspace store' := by
  unfold Cache.over Cache.after Effect.over
  rw [commanded_append, commanded_map]

theorem over_stay (store : τ) (task : Task) (phase : Phase) (records : List Record) :
    (c.stay task phase records).over keyspace store
      = (c.over keyspace store).stay task phase (records.flatMap (Record.commanded keyspace)) := rfl

theorem over_stay_withStore (store : τ) (task : Task) (phase : Phase) (records : List Record) (store' : σ)
    (store'' : τ) :
    ({ c.stay task phase records with store := store' } : Effect σ).over keyspace store''
      = { (c.over keyspace store).stay task phase (records.flatMap (Record.commanded keyspace)) with
        store := store'' } := rfl

theorem over_cancel (store : τ) (i : Nat) :
    (c.over keyspace store).cancel i = (c.cancel i).over keyspace store := by
  have hphase : (c.over keyspace store).phase? i = c.phase? i := rfl
  unfold cancel
  rw [hphase]
  split
  next => rfl
  next => split <;> rfl

theorem deciding_over (keyspace : String) (task : Task) (key : String) (decision : Decision) (again : Bool) :
    (deciding task key decision again).flatMap (Record.commanded keyspace)
      = deciding task key decision again := by
  cases again <;> rfl

/-- An event is reported over another store, too, or over none. -/
theorem reporting_over (store : τ) (hinStep : layer.InStep keyspace draw history)
    {records : List Record} {event : Event}
    (hhistory : c.history ++ (c.reporting layer records event).map (Note.mk i) <+: history) :
    (c.reporting layer records event).flatMap (Record.commanded keyspace)
      = (c.over keyspace store).reporting (layer.withDraw draw)
        (records.flatMap (Record.commanded keyspace)) event := by
  have hbefore : c.history ++ records.map (Note.mk i) <+: history := by
    apply List.IsPrefix.trans _ hhistory
    unfold reporting
    rw [List.map_append, ← List.append_assoc]
    exact List.prefix_append ..
  have hsame := hinStep _ hbefore
  rw [commanded_append, commanded_map, List.length_append, List.length_append, List.length_map,
    List.length_map] at hsame
  unfold reporting Layer.report
  rw [List.flatMap_append]
  simp only [Layer.withDraw, Cache.over, hsame]
  split <;> rfl

end

/-- Whether a namespace on a server that does not refuse has what a store in memory has, expired or not. -/
structure RedisStore.Mirrors (keyspace : String) (s : RedisStore) (m : MemoryStore) : Prop where
  keyspace_eq : s.keyspace = keyspace
  outage_eq : s.server.outage = .none
  stored?_eq : ∀ key, s.stored? key = ((m.table.get? key).map Expiring.entry).map .ok

namespace RedisStore.Mirrors

variable {keyspace key : String} {s : RedisStore} {m : MemoryStore} {now : Time} {entry : Entry}
  {ttl : Duration}

theorem empty (keyspace : String) : (RedisStore.empty keyspace).Mirrors keyspace MemoryStore.empty :=
  ⟨rfl, rfl, fun _ => rfl⟩

theorem look (h : s.Mirrors keyspace m) (hexpired : m.look now key ≠ .expired) :
    (Backend.look s now key).result = .ok (m.look now key) := by
  have houtage : s.server.outage.get = none := by rw [h.outage_eq]; rfl
  rw [look_of_stored? houtage (h.stored?_eq key)]
  unfold MemoryStore.look at hexpired ⊢
  cases hget : m.table.get? key with
  | none => rfl
  | some stored =>
    rw [hget] at hexpired
    by_cases hlate : stored.expiresAt ≤ now
    . simp [hlate] at hexpired
    . simp [hlate]

theorem records_look (h : s.Mirrors keyspace m) (now : Time) (key : String)
    (result : Except StoreError (Option Entry)) :
    (Backend.look s now key).records [.read key result] = (Record.read key result).commanded keyspace := by
  simp only [Access.records, Backend.look, send, Record.commanded, h.keyspace_eq]
  rfl

/-- An entry that the binary format keeps as it is gets written, if the time when it expires is in range. -/
theorem set (h : s.Mirrors keyspace m) (key : String) (hadd : (now.add? ttl).isSome) (hfits : entry.Fits)
    (hepoch : Time.epoch ≤ entry.lastValid) (hlatest : entry.lastValid ≤ Codec.latest) :
    ∃ m' s', Backend.set m now key entry ttl = ⟨.ok (), m', []⟩
      ∧ Backend.set s now key entry ttl = ⟨.ok (), s', setCommands keyspace key entry ttl⟩
      ∧ s'.Mirrors keyspace m' := by
  by_cases hlasts : ttl.isZero = true
  . refine ⟨m, s, ?_, ?_, h⟩
    . simp only [Backend.set, MemoryStore.write, hlasts, if_true]
    . simp only [Backend.set, setCommands, hlasts, if_true]
  . have hlasts : ttl.isZero = false := Bool.eq_false_iff.2 hlasts
    obtain ⟨expiresAt, hexpires⟩ := Option.isSome_iff_exists.1 hadd
    have hheld : Codec.held entry = entry := by
      unfold Codec.held
      rw [if_pos hlatest]
    have houtage : s.server.outage.set = none := by rw [h.outage_eq]; rfl
    obtain ⟨bytes, hdecode, hset⟩ := set_of_accepted now key hlasts hfits hepoch houtage
    rw [hheld] at hdecode
    rw [h.keyspace_eq] at hset
    refine ⟨m.put key entry expiresAt, _, ?_, hset, h.keyspace_eq, h.outage_eq, fun other => ?_⟩
    . simp only [Backend.set, MemoryStore.write, hlasts, hexpires, Bool.false_eq_true, if_false]
    . rw [← h.keyspace_eq, stored?_putRaw, hdecode, MemoryStore.put]
      split
      next hkey => rw [← hkey, Table.get?_insert_self, Option.map_some, Option.map_some]
      next hkey => rw [Table.get?_insert_of_ne _ _ (Ne.symm hkey), h.stored?_eq]

end RedisStore.Mirrors

/-- Whether a request has nothing to write but what the binary format of entries keeps as it is. -/
def Phase.IsKept : Phase → Prop
  | .discarding .. => False
  | .stamping _ _ snapshot => ∀ key generated,
    (snapshot.toEntry (EntityTag.generate key snapshot.body generated) generated).Fits
  | .writing _ _ entry => entry.Fits ∧ Time.epoch ≤ entry.lastValid ∧ entry.lastValid ≤ Codec.latest
  | _ => True

/--
Whether the next step of a request at some point meets with nothing that stores treat differently: no entry
has expired, and the times of entries are in the range of their binary format and of the clock.
-/
def Cache.Spares (c : Cache MemoryStore) (layer : Layer) : Phase → Prop
  | .reading key _ => c.store.look c.systemTime key ≠ .expired
  | .stamping .. => Time.epoch ≤ c.now layer ∧ c.now layer ≤ Codec.latest
  | .writing .. => (c.systemTime.add? layer.policy.maxTtl).isSome
  | _ => True

section

variable {keyspace : String} {layer : Layer} {c : Cache MemoryStore} {s : RedisStore} {i : Nat}
  {task : Task} {e : Effect MemoryStore} {draw : Nat → Float} {history : List Note}

theorem Phase.isKept_finish (guard : Option Guard) (answer : Answer) : (finish guard answer).IsKept := by
  cases guard <;> exact trivial

theorem Transition.isKept (h : Transition layer c i task e) (hspares : c.Spares layer task.phase)
    (hkept : task.phase.IsKept) : e.phase.IsKept := by
  cases h with
  | foundExpired hphase hresult =>
    rw [hphase] at hspares
    exact absurd (Except.ok.inj hresult) hspares
  | answered hphase hanswer => exact Snapshot.fits_of_capture hanswer
  | storable hphase hkey =>
    rw [hphase] at hkept hspares
    exact ⟨hkept _ _, hspares⟩
  | refused | failed | unstorable | wrote | writeFailed | writeAborted => exact Phase.isKept_finish ..
  | _ => exact trivial

/-- Whatever a step of a request does over the store in memory, it does over the server. -/
theorem Transition.over (h : Transition layer c i task e) (hspares : c.Spares layer task.phase)
    (hkept : task.phase.IsKept) (hmirrors : s.Mirrors keyspace c.store)
    (hinStep : layer.InStep keyspace draw history) (hhistory : (c.after i task e).history <+: history) :
    ∃ s', s'.Mirrors keyspace e.store
      ∧ Transition (layer.withDraw draw) (c.over keyspace s) i task (e.over keyspace s') := by
  cases h with
  | unready hphase hready => exact ⟨s, hmirrors, .unready hphase hready⟩
  | keyed hphase hready hkey => exact ⟨s, hmirrors, .keyed hphase hready hkey⟩
  | keyless hphase hready hkey => exact ⟨s, hmirrors, .keyless hphase hready hkey⟩
  | foundExpired hphase hresult =>
    rw [hphase] at hspares
    exact absurd (Except.ok.inj hresult) hspares
  | @looked key again found hphase hresult hfound =>
    rw [hphase] at hspares
    obtain rfl := Except.ok.inj hresult
    have hlooked : Transition (layer.withDraw draw) (c.over keyspace s) i task _ :=
      .looked hphase (hmirrors.look hspares) hfound
    refine ⟨s, hmirrors, ?_⟩
    rw [RedisStore.look_store] at hlooked
    rw [over_stay_withStore s, MemoryStore.backendLook_eq, flatMap_records, ← hmirrors.records_look c.systemTime]
    exact hlooked
  | lookFailed hphase hresult => nomatch hresult
  | discarded hphase =>
    rw [hphase] at hkept
    exact hkept.elim
  | @hit key again entry hphase hdecision =>
    refine ⟨s, hmirrors, ?_⟩
    rw [over_stay, deciding_over]
    exact .hit hphase hdecision
  | missedAgain hphase hdecision => exact ⟨s, hmirrors, .missedAgain hphase hdecision⟩
  | missed hphase hdecision hflight => exact ⟨s, hmirrors, .missed hphase hdecision hflight⟩
  | unguarded hphase hdecision hne hflight =>
    exact ⟨s, hmirrors, .unguarded hphase hdecision hne hflight⟩
  | served hphase =>
    refine ⟨s, hmirrors, ?_⟩
    rw [over_stay, reporting_over s hinStep hhistory]
    exact .served hphase
  | began hphase hlead => exact ⟨s, hmirrors, .began hphase hlead⟩
  | followed hphase hlead => exact ⟨s, hmirrors, .followed hphase hlead⟩
  | passedBy hphase hlead => exact ⟨s, hmirrors, .passedBy hphase hlead⟩
  | queued hphase hholder => exact ⟨s, hmirrors, .queued hphase hholder⟩
  | ledAtOnce hphase hholder => exact ⟨s, hmirrors, .ledAtOnce hphase hholder⟩
  | followedAtOnce hphase hholder => exact ⟨s, hmirrors, .followedAtOnce hphase hholder⟩
  | led hphase hholder => exact ⟨s, hmirrors, .led hphase hholder⟩
  | waited hphase hholder => exact ⟨s, hmirrors, .waited hphase hholder⟩
  | refused hphase hready =>
    refine ⟨s, hmirrors, ?_⟩
    rw [over_stay, failing, reporting_over s hinStep hhistory]
    exact .refused hphase hready
  | called hphase hready => exact ⟨s, hmirrors, .called hphase hready⟩
  | paused hphase => exact ⟨s, hmirrors, .paused hphase⟩
  | failed hphase hanswer =>
    refine ⟨s, hmirrors, ?_⟩
    rw [over_stay, failing, reporting_over s hinStep hhistory]
    exact .failed hphase hanswer
  | answered hphase hanswer => exact ⟨s, hmirrors, .answered hphase hanswer⟩
  | storable hphase hkey =>
    refine ⟨s, hmirrors, ?_⟩
    rw [over_stay, stamping, reporting_over s hinStep hhistory]
    exact .storable hphase hkey
  | unstorable hphase hkey =>
    refine ⟨s, hmirrors, ?_⟩
    rw [over_stay, stamping, reporting_over s hinStep hhistory]
    exact .unstorable hphase hkey
  | @wrote key guard entry hphase hresult =>
    rw [hphase] at hspares hkept
    obtain ⟨hfits, hepoch, hlatest⟩ := hkept
    obtain ⟨m', s', hmemory, hserver, hmirrors'⟩ := hmirrors.set key hspares hfits hepoch hlatest
    have hset : Backend.set (c.over keyspace s).store (c.over keyspace s).systemTime key entry
        (layer.withDraw draw).policy.maxTtl
          = ⟨.ok (), s', RedisStore.setCommands keyspace key entry (layer.withDraw draw).policy.maxTtl⟩ :=
      hserver
    have hwrote : Transition (layer.withDraw draw) (c.over keyspace s) i task _ :=
      .wrote hphase (by rw [hset])
    rw [hset, records_setCommands] at hwrote
    rw [hmemory] at hhistory ⊢
    refine ⟨s', hmirrors', ?_⟩
    rw [over_stay_withStore s, reporting_over s hinStep hhistory, List.flatMap_append, flatMap_records]
    exact hwrote
  | writeFailed hphase hresult =>
    rw [hphase] at hspares hkept
    obtain ⟨hfits, hepoch, hlatest⟩ := hkept
    obtain ⟨m', s', hmemory, -⟩ := hmirrors.set _ hspares hfits hepoch hlatest
    rw [hmemory] at hresult
    simp at hresult
  | writeAborted hphase hresult =>
    rw [hphase] at hspares hkept
    obtain ⟨hfits, hepoch, hlatest⟩ := hkept
    obtain ⟨m', s', hmemory, -⟩ := hmirrors.set _ hspares hfits hepoch hlatest
    rw [hmemory] at hresult
    simp at hresult
  | landed hphase => exact ⟨s, hmirrors, .landed hphase⟩

theorem isSome_step_over (store : RedisStore) (layer : Layer) (draw : Nat → Float) (i : Nat) :
    ((c.over keyspace store).step (layer.withDraw draw) i).isSome = (c.step layer i).isSome := by
  unfold step
  simp only [Cache.over]
  cases c.tasks[i]? with
  | none => rfl
  | some task =>
    simp only [Option.bind_eq_bind, Option.bind_some, pure]
    cases task.phase with
    | queued guard role => by_cases hholder : (c.flights.lock guard.lock).holder = some i <;> simp [hholder]
    | running decision guard pauses call => cases pauses <;> rfl
    | _ => rfl

/-- Whether an action meets with nothing that stores treat differently, and leaves the store alone. -/
def Cache.Allows (c : Cache MemoryStore) (layer : Layer) : Action MemoryStore → Prop
  | .step i => ∀ phase ∈ c.phase? i, c.Spares layer phase
  | .change _ => False
  | _ => True

def Cache.Calm (layer : Layer) : Cache MemoryStore → List (Action MemoryStore) → Prop
  | _, [] => True
  | c, action :: actions => c.Allows layer action ∧ Calm layer (c.act layer action) actions

/-- Whether nothing that requests have to write is changed by the binary format of entries. -/
def Cache.IsKept (c : Cache MemoryStore) : Prop :=
  ∀ (i : Nat) (task : Task), c.tasks[i]? = some task → task.phase.IsKept

theorem isKept_act (hkept : c.IsKept) {action : Action MemoryStore} (hallows : c.Allows layer action) :
    (c.act layer action).IsKept := by
  intro k task hget
  obtain ⟨-, hphase⟩ | ⟨old, hold, -, hphase | hphase | ⟨e, rfl, h, -, hphase⟩⟩ := act_cases hget
  . rw [hphase]
    exact trivial
  . rw [hphase]
    exact hkept k old hold
  . rw [hphase]
    exact trivial
  . rw [hphase]
    exact h.isKept (hallows _ (phase?_eq_some hold rfl)) (hkept k old hold)

theorem store_cancel {σ : Type} (c : Cache σ) (i : Nat) : (c.cancel i).store = c.store := by
  cases cancel_eq c i with
  | inl heq => rw [heq]
  | inr hcancel =>
    obtain ⟨task, -, -, heq⟩ := hcancel
    rw [heq]
    rfl

/-- Whatever an action does over the store in memory, it does over the server. -/
theorem act_over (hkept : c.IsKept) {action : Action MemoryStore} (hallows : c.Allows layer action)
    (hmirrors : s.Mirrors keyspace c.store) (hinStep : layer.InStep keyspace draw history)
    (hhistory : (c.act layer action).history <+: history) :
    ∃ s', s'.Mirrors keyspace (c.act layer action).store
      ∧ (c.over keyspace s).act (layer.withDraw draw) action.over
        = (c.act layer action).over keyspace s' := by
  cases action with
  | enlist job => exact ⟨s, hmirrors, rfl⟩
  | step i =>
    cases hstep : c.step layer i with
    | none =>
      have hnone : (c.over keyspace s).step (layer.withDraw draw) i = none := by
        rw [← Option.not_isSome_iff_eq_none, isSome_step_over, hstep]
        exact Bool.false_ne_true
      rw [Action.over, act_step_of_eq_none hstep, act_step_of_eq_none hnone]
      exact ⟨s, hmirrors, rfl⟩
    | some c' =>
      obtain ⟨task, e, hget, h, rfl⟩ := Transition.of_step hstep
      rw [act_step_of_eq_some hstep] at hhistory ⊢
      obtain ⟨s', hmirrors', h'⟩ := h.over (hallows _ (phase?_eq_some hget rfl)) (hkept i task hget) hmirrors
        hinStep hhistory
      refine ⟨s', hmirrors', ?_⟩
      rw [Action.over, act_step_of_eq_some (h'.step_eq hget), over_after]
  | cancel i =>
    refine ⟨s, ?_, over_cancel s i⟩
    rw [Cache.act, store_cancel]
    exact hmirrors
  | clock t => exact ⟨s, hmirrors, rfl⟩
  | systemTime t => exact ⟨s, hmirrors, rfl⟩
  | change f => exact hallows.elim

theorem play_over {actions : List (Action MemoryStore)} (hkept : c.IsKept) (hcalm : c.Calm layer actions)
    (hmirrors : s.Mirrors keyspace c.store) (hinStep : layer.InStep keyspace draw history)
    (hhistory : (c.play layer actions).history <+: history) :
    ∃ s', (c.over keyspace s).play (layer.withDraw draw) (actions.map Action.over)
      = (c.play layer actions).over keyspace s' := by
  induction actions generalizing c s with
  | nil => exact ⟨s, rfl⟩
  | cons action actions ih =>
    obtain ⟨hallows, hcalm⟩ := hcalm
    have hnow := (reachable_play (c.act layer action) layer actions).grows.2.trans hhistory
    obtain ⟨s', hmirrors', hact⟩ := act_over hkept hallows hmirrors hinStep hnow
    obtain ⟨s'', hplay⟩ := ih (isKept_act hkept hallows) hcalm hmirrors' hhistory
    refine ⟨s'', ?_⟩
    rw [List.map_cons, play_cons, hact, hplay, play_cons]

theorem Cache.Calm.of_isPrefix {before actions : List (Action MemoryStore)} (hbefore : before <+: actions)
    (hcalm : c.Calm layer actions) : c.Calm layer before := by
  obtain ⟨after, rfl⟩ := hbefore
  induction before generalizing c with
  | nil => exact trivial
  | cons action before ih => exact ⟨hcalm.1, ih hcalm.2⟩

end

def Plan.over {α τ : Type} (plan : Plan α) (store : τ) : Plan τ :=
  ⟨some store, plan.age, plan.statuses, plan.extractor, plan.singleFlight, plan.events, plan.clock⟩

/-- Nothing that keeps a plan from being built depends on the store. -/
theorem Plan.build_over {α σ τ : Type} {plan : Plan α} {store : σ} {entropy : Entropy} {built : Built σ}
    (hbuild : (plan.over store).build entropy = .ok built) (store' : τ) (draw : Nat → Float) :
    built.store = store ∧ built.layer.entropy = entropy
      ∧ (plan.over store').build { entropy with draw := draw }
        = .ok ⟨built.layer.withDraw draw, store', built.warnings⟩ := by
  have herrors (τ : Type) (store : τ) : (plan.over store).errors = plan.age.errors := rfl
  unfold Plan.build at hbuild ⊢
  rw [herrors] at hbuild ⊢
  cases hage : plan.age.errors with
  | nil =>
    rw [hage] at hbuild
    obtain rfl := Except.ok.inj hbuild
    exact ⟨rfl, rfl, rfl⟩
  | cons error errors =>
    rw [hage] at hbuild
    nomatch hbuild

/--
A cache does the same over a store in memory and over a namespace on a server, both without entries at first,
in whatever order requests come in, take their steps and go away, as long as no entry expires, responses are
made entries at times that the binary format can hold, and the time when they would expire is in range.
At every moment the requests have come to the same points, so that those that are answered are answered the
same, the handlers have been called as often, and the histories differ in nothing but the commands to the
server. If it depends on chance which events are reported, the two meet with the same chance.
-/
theorem agree_of_calm {α : Type} {plan : Plan α} {entropy : Entropy} {built : Built MemoryStore}
    (hbuild : (plan.over MemoryStore.empty).build entropy = .ok built) (keyspace : String)
    (clock systemTime : Time) {actions : List (Action MemoryStore)}
    (hcalm : (start built.store clock systemTime).Calm built.layer actions) :
    ∃ draw built', (¬built.layer.ReportsByChance → draw = entropy.draw)
      ∧ (plan.over (RedisStore.empty keyspace)).build { entropy with draw := draw } = .ok built'
      ∧ ∀ before, before <+: actions →
        Agree ((start built.store clock systemTime).play built.layer before)
          ((start built'.store clock systemTime).play built'.layer (before.map Action.over)) := by
  obtain ⟨draw, hdraw, hinStep⟩ := built.layer.exists_inStep keyspace
    ((start built.store clock systemTime).play built.layer actions).history
  obtain ⟨hstore, hentropy, hbuild'⟩ := Plan.build_over hbuild (RedisStore.empty keyspace) draw
  rw [hentropy] at hdraw
  refine ⟨draw, _, hdraw, hbuild', ?_⟩
  intro before hbefore
  have hhistory : ((start built.store clock systemTime).play built.layer before).history
      <+: ((start built.store clock systemTime).play built.layer actions).history := by
    obtain ⟨after, rfl⟩ := hbefore
    rw [play_append]
    exact (reachable_play _ built.layer after).grows.2
  have hkept : (start built.store clock systemTime).IsKept := by
    intro i task hget
    rw [arriving_of_eq_nil rfl i task hget]
    exact trivial
  have hmirrors : (RedisStore.empty keyspace).Mirrors keyspace built.store := hstore ▸ .empty keyspace
  obtain ⟨s, hplay⟩ := play_over hkept (hcalm.of_isPrefix hbefore) hmirrors hinStep hhistory
  rw [show start (RedisStore.empty keyspace) clock systemTime
    = (start built.store clock systemTime).over keyspace (RedisStore.empty keyspace) from rfl, hplay]
  exact agree_over ..

instance (c : Cache MemoryStore) (layer : Layer) (phase : Phase) : Decidable (c.Spares layer phase) :=
  match phase with
  | .reading key _ => inferInstanceAs (Decidable (c.store.look c.systemTime key ≠ .expired))
  | .stamping .. => inferInstanceAs (Decidable (Time.epoch ≤ c.now layer ∧ c.now layer ≤ Codec.latest))
  | .writing .. => inferInstanceAs (Decidable ((c.systemTime.add? layer.policy.maxTtl).isSome = true))
  | .arriving | .discarding .. | .deciding .. | .serving _ | .joining .. | .locking .. | .queued ..
  | .calling .. | .running .. | .landing .. | .done _ | .cancelled => isTrue trivial

instance (c : Cache MemoryStore) (layer : Layer) (action : Action MemoryStore) :
    Decidable (c.Allows layer action) :=
  match action with
  | .step i => inferInstanceAs (Decidable (∀ phase ∈ c.phase? i, c.Spares layer phase))
  | .change _ => isFalse id
  | .enlist _ | .cancel _ | .clock _ | .systemTime _ => isTrue trivial

instance decidableCalm (layer : Layer) :
    (c : Cache MemoryStore) → (actions : List (Action MemoryStore)) → Decidable (c.Calm layer actions)
  | _, [] => isTrue trivial
  | c, action :: actions =>
    have := decidableCalm layer (c.act layer action) actions
    inferInstanceAs (Decidable (c.Allows layer action ∧ (c.act layer action).Calm layer actions))

def oneAfterTheOther : List (Action MemoryStore) :=
  .enlist (.sample 0 (.ok .empty)) :: List.replicate 7 (.step 0)
    ++ .enlist (.sample 0 (.ok .empty)) :: List.replicate 4 (.step 1)

/-- The second request is answered from the server as it is from memory. -/
theorem agree_of_oneAfterTheOther :
    (start MemoryStore.empty .epoch .epoch).Calm (.sample false) oneAfterTheOther
      ∧ Agree ((start MemoryStore.empty .epoch .epoch).play (.sample false) oneAfterTheOther)
        ((start (RedisStore.empty "n") .epoch .epoch).play (.sample false) (oneAfterTheOther.map Action.over))
      ∧ (((start MemoryStore.empty .epoch .epoch).play (.sample false) oneAfterTheOther).tasks[1]?.bind
        Task.hit?).isSome = true := by
  have hcalm : (start MemoryStore.empty .epoch .epoch).Calm (.sample false) oneAfterTheOther := by
    decide +kernel
  refine ⟨hcalm, ?_, by decide +kernel⟩
  have hbuild : ((Plan.minute ()).over MemoryStore.empty).build ⟨fun _ => "", fun _ => 0⟩
      = .ok ⟨.sample false, .empty, []⟩ :=
    Plan.build_minute MemoryStore.empty
  obtain ⟨draw, built', hdraw, hbuild', hagree⟩ := agree_of_calm hbuild "n" .epoch .epoch hcalm
  rw [hdraw (not_reportsByChance_sample false)] at hbuild'
  obtain rfl := Except.ok.inj ((Plan.build_minute (RedisStore.empty "n")).symm.trans hbuild')
  exact hagree _ List.prefix_rfl

end ResponseCache
