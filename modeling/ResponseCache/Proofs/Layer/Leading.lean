import ResponseCache.Proofs.Layer.Timely
import ResponseCache.Proofs.Layer.Response
import ResponseCache.Proofs.Store.Keeping

/-!
This module contains what requests that miss together do, by how far the flight for their key has come. Its
leader goes from the lock to the handler, the store and the end of the flight; the others wait for it to end,
and are answered from what it stored.
-/

namespace ResponseCache

open Cache

inductive FlightStage where
  | ahead
  | underWay (lock : Nat)
  | ended
  deriving DecidableEq, Repr

/-- The locks that requests ask for and wait for, by the stage of the flight. -/
def FlightStage.Offers (key : String) (guard : Guard) : FlightStage → Prop
  | .ahead => False
  | .underWay lock => guard = ⟨key, lock⟩
  | .ended => guard.key = key

def FlightStage.leads (key : String) : FlightStage → List (String × Nat)
  | .ahead => []
  | .underWay lock => [(key, lock)]
  | .ended => []

/-- Whether an entry was made at a point in time, with a tag that can be sent. -/
structure Entry.Minted (now : Time) (entry : Entry) : Prop where
  lastValid_eq : entry.lastValid = now
  exists_value : ∃ value, HeaderValue.ofString? entry.etag = some value

/-- The points that the leader of a flight comes to, with who holds its lock, the calls, and what is stored. -/
inductive AtWork (layer : Layer) (key : String) (now : Time) (lock leader : Nat) :
    Phase → Option Nat → Nat → Option Entry → Prop where
  | locking : AtWork layer key now lock leader (.locking ⟨key, lock⟩ .leader) none 0 none
  | calling : AtWork layer key now lock leader (.calling .miss (some ⟨key, lock⟩)) (some leader) 0 none
  | running {pauses call : Nat} :
      AtWork layer key now lock leader (.running .miss (some ⟨key, lock⟩) pauses call) (some leader) 1 none
  | stamping {snapshot : Snapshot} (hstores : layer.stores snapshot.status = true) :
      AtWork layer key now lock leader (.stamping .miss (some ⟨key, lock⟩) snapshot) (some leader) 1 none
  | writing {entry : Entry} (hminted : entry.Minted now) :
      AtWork layer key now lock leader (.writing key (some ⟨key, lock⟩) entry) (some leader) 1 none
  | landing {entry : Entry} (hminted : entry.Minted now) :
      AtWork layer key now lock leader (.landing ⟨key, lock⟩ (.response .miss (layer.replay entry true)))
        (some leader) 1 (some entry)

/-- The points that any other request comes to, by the stage of the flight and the entry stored. -/
inductive Aside (layer : Layer) (key : String) (now : Time) (job : Job) (stage : FlightStage)
    (stored : Option Entry) : Phase → Prop where
  | arriving : Aside layer key now job stage stored .arriving
  | reading : Aside layer key now job stage stored (.reading key false)
  | rereading (hended : stage = .ended) : Aside layer key now job stage stored (.reading key true)
  | missed (hnot : stage ≠ .ended) : Aside layer key now job stage stored (.deciding key none false)
  | found {entry : Entry} {again : Bool} (hstored : stored = some entry) :
      Aside layer key now job stage stored (.deciding key (some entry) again)
  | serving {entry : Entry} (hstored : stored = some entry) :
      Aside layer key now job stage stored (.serving entry)
  | joining (hnot : stage ≠ .ended) : Aside layer key now job stage stored (.joining key false)
  | locking {guard : Guard} (hoffers : stage.Offers key guard) :
      Aside layer key now job stage stored (.locking guard .follower)
  | queued {guard : Guard} (hoffers : stage.Offers key guard) :
      Aside layer key now job stage stored (.queued guard .follower)
  | done {entry : Entry} (hstored : stored = some entry) :
      Aside layer key now job stage stored (.done (.response .hit (layer.serve job entry now)))

section

variable {layer : Layer} {key : String} {now : Time} {job : Job} {stage : FlightStage} {stored : Option Entry}
  {phase : Phase} {lock leader : Nat}

namespace Aside

theorem of_none (h : Aside layer key now job stage none phase) (stored : Option Entry) :
    Aside layer key now job stage stored phase := by
  cases h with
  | arriving => exact .arriving
  | reading => exact .reading
  | rereading hended => exact .rereading hended
  | missed hnot => exact .missed hnot
  | joining hnot => exact .joining hnot
  | locking hoffers => exact .locking hoffers
  | queued hoffers => exact .queued hoffers
  | found hstored => nomatch hstored
  | serving hstored => nomatch hstored
  | done hstored => nomatch hstored

theorem underWay_of_ahead (h : Aside layer key now job .ahead none phase) (lock : Nat) :
    Aside layer key now job (.underWay lock) none phase := by
  cases h with
  | arriving => exact .arriving
  | reading => exact .reading
  | rereading hended => nomatch hended
  | missed => exact .missed nofun
  | joining => exact .joining nofun
  | locking hoffers => exact hoffers.elim
  | queued hoffers => exact hoffers.elim
  | found hstored => nomatch hstored
  | serving hstored => nomatch hstored
  | done hstored => nomatch hstored

/-- Requests that have yet to look for the flight are in the way of its end. -/
theorem ended_of_underWay (h : Aside layer key now job (.underWay lock) stored phase)
    (hmissed : phase.isSeeking = false) : Aside layer key now job .ended stored phase := by
  cases h with
  | arriving => exact .arriving
  | reading => exact .reading
  | rereading hended => nomatch hended
  | missed => nomatch hmissed
  | joining => nomatch hmissed
  | locking hoffers => exact .locking (hoffers ▸ rfl)
  | queued hoffers => exact .queued (hoffers ▸ rfl)
  | found hstored => exact .found hstored
  | serving hstored => exact .serving hstored
  | done hstored => exact .done hstored

theorem key_eq {again : Bool} {other : String} (h : Aside layer key now job stage stored (.reading other again)) :
    key = other := by
  cases h with
  | reading => rfl
  | rereading => rfl

theorem deciding {again : Bool} {other : String} (h : Aside layer key now job stage stored (.reading other again))
    (hended : stage = .ended → stored ≠ none) :
    Aside layer key now job stage stored
      (.deciding other (Finding.entry? (stored.elim .absent .live)) again) := by
  cases stored with
  | some entry =>
    cases h with
    | reading => exact .found rfl
    | rereading => exact .found rfl
  | none =>
    cases h with
    | reading => exact .missed fun heq => hended heq rfl
    | rereading heq => exact absurd rfl (hended heq)

theorem eq_done (h : Aside layer key now job stage stored phase) (hfinished : phase.isFinished = true) :
    ∃ entry, stored = some entry ∧ phase = .done (.response .hit (layer.serve job entry now)) := by
  cases h with
  | done hstored => exact ⟨_, hstored, rfl⟩
  | _ => nomatch hfinished

end Aside

theorem Flights.leads_finish_of_eq {f : Flights} {lock : Nat} (hleads : f.leads = [(key, lock)]) :
    (f.finish key lock).leads = [] := by
  have hfilter : (f.finish key lock).leads = f.leads.filter fun lead => lead ≠ (key, lock) := rfl
  rw [hfilter, hleads, List.filter_cons_of_neg (by simp), List.filter_nil]

namespace FlightStage

theorem eq_ahead_of_leads {f : Flights} (hleads : f.leads = stage.leads key) (hlead : f.lead? key = none)
    (hnot : stage ≠ .ended) : stage = .ahead := by
  cases stage with
  | ahead => rfl
  | ended => exact absurd rfl hnot
  | underWay lock =>
    unfold Flights.lead? at hlead
    rw [hleads] at hlead
    nomatch List.lookup_cons_self.symm.trans hlead

theorem eq_underWay_of_leads {f : Flights} {lock : Nat} (hleads : f.leads = stage.leads key)
    (hlead : f.lead? key = some lock) : stage = .underWay lock := by
  unfold Flights.lead? at hlead
  rw [hleads] at hlead
  cases stage with
  | ahead => nomatch hlead
  | ended => nomatch hlead
  | underWay id =>
    obtain rfl := Option.some.inj (List.lookup_cons_self.symm.trans hlead)
    rfl

end FlightStage

/-- What an effect on a request that stands aside leaves as it is. -/
structure Harmless {σ : Type} (Holds : σ → Option Entry → Prop) (c : Cache σ) (stage : FlightStage)
    (stored : Option Entry) (e : Effect σ) : Prop where
  calls_eq : e.calls = c.calls
  holds : Holds e.store stored
  leads_eq : e.flights.leads = c.flights.leads
  holder_eq : ∀ {lock : Nat}, stage = .underWay lock →
    (e.flights.lock lock).holder = (c.flights.lock lock).holder

variable {σ : Type} [Backend σ] {during : Time → Prop} {Holds : σ → Option Entry → Prop} {c c' : Cache σ}
  {i : Nat} {task : Task} {e : Effect σ}

structure Favourable (layer : Layer) (key : String) (during : Time → Prop)
    (Holds : σ → Option Entry → Prop) : Prop where
  singleFlight : layer.singleFlight = true
  maxSecs_pos : 1 ≤ layer.policy.maxSecs
  keeps : Backend.Keeps key layer.policy.maxTtl during Holds

theorem Aside.of_transition (haside : Aside layer key now task.job stage stored task.phase)
    (hlayer : Favourable layer key during Holds) (hc : Attended layer key during now c)
    (hget : c.tasks[i]? = some task) (hstore : Holds c.store stored)
    (hminted : ∀ {entry}, stored = some entry → entry.Minted now)
    (hended : stage = .ended → stored ≠ none) (hleads : c.flights.leads = stage.leads key)
    (hlock : ∀ {lock}, stage = .underWay lock → (c.flights.lock lock).holder ≠ some i
      ∧ (task.phase = .locking ⟨key, lock⟩ .follower → (c.flights.lock lock).holder ≠ none))
    (h : Transition layer c i task e) :
    (stage = .ahead ∧ e.phase = .locking ⟨key, c.flights.locks.length⟩ .leader ∧ e.calls = c.calls
      ∧ e.store = c.store ∧ e.flights = c.flights.start key)
    ∨ (Aside layer key now task.job stage stored e.phase ∧ Harmless Holds c stage stored e) := by
  have hsuits := hc.suits hget
  obtain ⟨hresult, hlooked⟩ := hlayer.keeps.look hstore hc.during_systemTime
  -- What is stored was made at this point of time, so it is fresh whenever a request finds it.
  have hhits : ∀ {entry}, stored = some entry →
      decideRequest (some entry) layer.policy (Layer.directivesOf task.job) (c.now layer) = .hit := by
    intro entry hstored
    rw [hc.now_eq]
    exact hsuits.decideRequest_some hlayer.maxSecs_pos (hminted hstored).lastValid_eq
  cases h with
  | keyed hphase hready hkey =>
    obtain rfl := Option.some.inj (hsuits.keyOf_eq.symm.trans hkey)
    exact .inr ⟨.reading, rfl, hstore, rfl, fun _ => rfl⟩
  | unready hphase hready => nomatch hsuits.unready_eq.symm.trans hready
  | keyless hphase hready hkey => nomatch hsuits.keyOf_eq.symm.trans hkey
  | foundExpired hphase hfound =>
    rw [hphase] at haside
    obtain rfl := haside.key_eq
    exact absurd (Except.ok.inj (hresult.symm.trans hfound)) (Finding.elim_ne_expired stored)
  | lookFailed hphase hfailed =>
    rw [hphase] at haside
    obtain rfl := haside.key_eq
    nomatch hresult.symm.trans hfailed
  | looked hphase hfound =>
    rw [hphase] at haside
    obtain rfl := haside.key_eq
    obtain rfl := Except.ok.inj (hresult.symm.trans hfound)
    exact .inr ⟨haside.deciding hended, rfl, hlooked, rfl, fun _ => rfl⟩
  | hit hphase hdecision =>
    rw [hphase] at haside
    cases haside with
    | found hstored => exact .inr ⟨.serving hstored, rfl, hstore, rfl, fun _ => rfl⟩
  | missed hphase hdecision hflight =>
    rw [hphase] at haside
    cases haside with
    | missed hnot => exact .inr ⟨.joining hnot, rfl, hstore, rfl, fun _ => rfl⟩
    | found hstored => nomatch (hhits hstored).symm.trans hdecision
  | missedAgain hphase hdecision =>
    rw [hphase] at haside
    cases haside with
    | found hstored => exact absurd (hhits hstored) hdecision
  | unguarded hphase hdecision hne hflight =>
    rw [hphase] at haside
    cases haside with
    | missed hnot =>
      rw [hsuits.decideRequest_none hlayer.maxSecs_pos] at hdecision
      exact absurd ⟨hlayer.singleFlight, hdecision.symm⟩ hflight
    | found hstored => exact absurd (hdecision.symm.trans (hhits hstored)) hne
  | served hphase =>
    rw [hphase] at haside
    cases haside with
    | serving hstored =>
      refine .inr ⟨?_, rfl, hstore, rfl, fun _ => rfl⟩
      rw [← hc.now_eq]
      exact .done hstored
  | began hphase hlead =>
    rw [hphase] at haside
    cases haside with
    | joining hnot => exact .inl ⟨FlightStage.eq_ahead_of_leads hleads hlead hnot, rfl, rfl, rfl, rfl⟩
  | followed hphase hlead =>
    rw [hphase] at haside
    cases haside with
    | joining hnot =>
      obtain rfl := FlightStage.eq_underWay_of_leads hleads hlead
      exact .inr ⟨.locking rfl, rfl, hstore, rfl, fun _ => rfl⟩
  | queued hphase hholder =>
    rw [hphase] at haside
    cases haside with
    | locking hoffers =>
      refine .inr ⟨.queued hoffers, rfl, hstore, rfl, ?_⟩
      intro lock _
      apply Flights.holder_modify
      exact fun _ => rfl
  | followedAtOnce hphase hholder =>
    rw [hphase] at haside
    cases haside with
    | locking hoffers =>
      cases stage with
      | ahead => exact hoffers.elim
      | underWay lock =>
        -- The lock is still free only while its leader is to ask for it.
        obtain rfl : _ = Guard.mk key lock := hoffers
        exact absurd hholder ((hlock rfl).2 hphase)
      | ended =>
        obtain rfl : _ = key := hoffers
        exact .inr ⟨.rereading rfl, rfl, hstore, rfl, nofun⟩
  | waited hphase hholder =>
    rw [hphase] at haside
    cases haside with
    | queued hoffers =>
      cases stage with
      | ahead => exact hoffers.elim
      | underWay lock =>
        obtain rfl : _ = Guard.mk key lock := hoffers
        exact absurd hholder (hlock rfl).1
      | ended =>
        obtain rfl : _ = key := hoffers
        exact .inr ⟨.rereading rfl, rfl, hstore, rfl, nofun⟩
  | _ =>
    rw [‹task.phase = _›] at haside
    nomatch haside

/-- What the leader leaves behind by a step: it is at work still, or the flight ends with its answer. -/
inductive Led (layer : Layer) (key : String) (now : Time) (lock leader : Nat)
    (Holds : σ → Option Entry → Prop) (c : Cache σ) (e : Effect σ) : Option Entry → Prop where
  | atWork {later : Option Entry}
      (hwork : AtWork layer key now lock leader e.phase (e.flights.lock lock).holder e.calls later)
      (hstore : Holds e.store later) (hleads : e.flights.leads = c.flights.leads) :
      Led layer key now lock leader Holds c e none
  | ended {entry : Entry} (hminted : entry.Minted now)
      (hphase : e.phase = .done (.response .miss (layer.replay entry true))) (hcalls : e.calls = 1)
      (hstore : Holds e.store (some entry)) (hflights : e.flights = c.flights.finish key lock) :
      Led layer key now lock leader Holds c e (some entry)

omit [Backend σ] in
theorem Led.of_atWork {lock : Nat} {holder : Option Nat} {calls : Nat}
    (hwork : AtWork layer key now lock leader e.phase holder calls stored) (hstore : Holds e.store stored)
    (hleads : e.flights.leads = c.flights.leads) (hholder : (e.flights.lock lock).holder = holder)
    (hcalls : e.calls = calls) : Led layer key now lock leader Holds c e none := by
  rw [← hholder, ← hcalls] at hwork
  exact .atWork hwork hstore hleads

omit [Backend σ] in
theorem minted_stamped (hnow : c.now layer = now) (task : Task) (snapshot : Snapshot) :
    (c.stamped layer task snapshot).Minted now := by
  obtain ⟨value, hvalue, -⟩ := EntityTag.ofString?_generate (layer.tagKey task.job) snapshot.body (c.now layer)
  exact ⟨hnow, value, hvalue⟩

theorem storageKey?_eq (hsuits : job.Suits layer key) {entry : Entry}
    (hstores : layer.stores entry.status = true) : layer.storageKey? job .miss entry = some key := by
  unfold Layer.storageKey?
  rw [hsuits.keyOf_eq, hstores]
  rfl

theorem AtWork.of_transition {lock : Nat} {holder : Option Nat} {calls : Nat}
    (hlayer : Favourable layer key during Holds) (hc : Attended layer key during now c)
    (hget : c.tasks[i]? = some task) (hstore : Holds c.store stored) (hlt : lock < c.flights.locks.length)
    (hholder : (c.flights.lock lock).holder = holder) (hcalls : c.calls = calls)
    (hwork : AtWork layer key now lock i task.phase holder calls stored) (h : Transition layer c i task e) :
    Led layer key now lock i Holds c e stored := by
  have hsuits := hc.suits hget
  cases h with
  | queued hphase hheld =>
    rw [hphase] at hwork
    cases hwork with
    | locking => nomatch hholder.symm.trans hheld
  | ledAtOnce hphase hnone =>
    rw [hphase] at hwork
    cases hwork with
    | locking =>
      have hheld := congrArg Lock.holder (Flights.lock_modify_self hlt fun l => { l with holder := some i })
      exact .of_atWork .calling hstore rfl hheld hcalls
  | called hphase hready =>
    rw [hphase] at hwork
    cases hwork with
    | calling => exact .of_atWork .running hstore rfl hholder (congrArg Nat.succ hcalls)
  | refused hphase hready => nomatch hsuits.refusal_eq.symm.trans hready
  | paused hphase =>
    rw [hphase] at hwork
    cases hwork with
    | running => exact .of_atWork .running hstore rfl hholder hcalls
  | failed hphase hanswer =>
    obtain ⟨snapshot, hok, -⟩ := hsuits.answers _
    nomatch hok.symm.trans hanswer
  | answered hphase hanswer =>
    rw [hphase] at hwork
    cases hwork with
    | running =>
      obtain ⟨snapshot, hok, hstores⟩ := hsuits.answers _
      obtain rfl := Except.ok.inj (hok.symm.trans hanswer)
      exact .of_atWork (.stamping hstores) hstore rfl hholder hcalls
  | storable hphase hkey =>
    rw [hphase] at hwork
    cases hwork with
    | stamping hstores =>
      obtain rfl := Option.some.inj ((storageKey?_eq hsuits hstores).symm.trans hkey)
      exact .of_atWork (.writing (minted_stamped hc.now_eq task _)) hstore rfl hholder hcalls
  | unstorable hphase hkey =>
    rw [hphase] at hwork
    cases hwork with
    | stamping hstores => nomatch (storageKey?_eq hsuits hstores).symm.trans hkey
  | @wrote _ _ entry hphase hresult =>
    rw [hphase] at hwork
    cases hwork with
    | writing hminted =>
      have hstored := (hlayer.keeps.set hstore hc.during_systemTime entry).2
      exact .of_atWork (.landing hminted) hstored rfl hholder hcalls
  | @writeFailed _ _ entry _ hphase hresult =>
    rw [hphase] at hwork
    cases hwork with
    | writing => nomatch (hlayer.keeps.set hstore hc.during_systemTime entry).1.symm.trans hresult
  | @writeAborted _ _ entry hphase hresult =>
    rw [hphase] at hwork
    cases hwork with
    | writing => nomatch (hlayer.keeps.set hstore hc.during_systemTime entry).1.symm.trans hresult
  | landed hphase =>
    rw [hphase] at hwork
    cases hwork with
    | landing hminted => exact .ended hminted rfl hcalls hstore rfl
  | _ =>
    rw [‹task.phase = _›] at hwork
    nomatch hwork

theorem AtWork.minted {holder : Option Nat} {calls : Nat} {entry : Entry}
    (h : AtWork layer key now lock leader phase holder calls (some entry)) : entry.Minted now := by
  cases h with
  | landing hminted => exact hminted

theorem AtWork.eq_landing {holder : Option Nat} {calls : Nat} {entry : Entry}
    (h : AtWork layer key now lock leader phase holder calls (some entry)) :
    ∃ answer, phase = .landing ⟨key, lock⟩ answer := by
  cases h with
  | landing => exact ⟨_, rfl⟩

theorem AtWork.named?_eq {holder : Option Nat} {calls : Nat}
    (h : AtWork layer key now lock leader phase holder calls stored) : phase.named? = some lock := by
  cases h <;> rfl

theorem AtWork.calls_le {holder : Option Nat} {calls : Nat}
    (h : AtWork layer key now lock leader phase holder calls stored) : calls ≤ 1 := by
  cases h <;> decide

theorem AtWork.isFinished_eq {holder : Option Nat} {calls : Nat}
    (h : AtWork layer key now lock leader phase holder calls stored) : phase.isFinished = false := by
  cases h <;> rfl

theorem AtWork.holder_cases {holder : Option Nat} {calls : Nat}
    (h : AtWork layer key now lock leader phase holder calls stored) :
    (holder = none ∧ phase = .locking ⟨key, lock⟩ .leader) ∨ holder = some leader := by
  cases h with
  | locking => exact .inl ⟨rfl, rfl⟩
  | _ => exact .inr rfl

end

end ResponseCache
