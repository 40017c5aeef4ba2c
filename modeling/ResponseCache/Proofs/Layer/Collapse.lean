import ResponseCache.Proofs.Layer.Leading
import ResponseCache.Proofs.Layer.Revalidation
import ResponseCache.Proofs.Layer.Play

/-!
This module contains that single flights collapse requests that miss together into one call of the handler:
the leader of the flight calls it, and the others are answered from what the leader stored. So it is in
every order of their steps in which no step is premature. Where one is, the handler may be called twice.
-/

namespace ResponseCache

open Cache

section

variable {layer : Layer} {key : String} {now : Time} {stage : FlightStage} {stored : Option Entry}
  {σ : Type} [Backend σ] {during : Time → Prop} {Holds : σ → Option Entry → Prop} {c c' : Cache σ}
  {i : Nat} {task : Task} {e : Effect σ}

/-- What a stage of the flight means for the store, the flights, and all requests but one that leads. -/
structure Surrounded (layer : Layer) (key : String) (now : Time) (Holds : σ → Option Entry → Prop)
    (stage : FlightStage) (stored : Option Entry) (leader : Option Nat) (c : Cache σ) : Prop where
  holds : Holds c.store stored
  leads_eq : c.flights.leads = stage.leads key
  asides : ∀ {k : Nat} {other : Task}, some k ≠ leader → c.tasks[k]? = some other →
    Aside layer key now other.job stage stored other.phase

/-- How far requests are that are collapsed: before their flight, while its leader is at work, or after it. -/
inductive Collapsing (layer : Layer) (key : String) (now : Time) (Holds : σ → Option Entry → Prop)
    (c : Cache σ) : Prop where
  | ahead (hcalls : c.calls = 0) (hc : Surrounded layer key now Holds .ahead none none c)
  | underWay {leader : Nat} {task : Task} {lock : Nat} {stored : Option Entry}
      (hleader : c.tasks[leader]? = some task)
      (hwork : AtWork layer key now lock leader task.phase (c.flights.lock lock).holder c.calls stored)
      (hc : Surrounded layer key now Holds (.underWay lock) stored (some leader) c)
  | ended {leader : Nat} {task : Task} {entry : Entry} (hleader : c.tasks[leader]? = some task)
      (hphase : task.phase = .done (.response .miss (layer.replay entry true)))
      (hminted : entry.Minted now) (hcalls : c.calls = 1)
      (hc : Surrounded layer key now Holds .ended (some entry) (some leader) c)

omit [Backend σ] in
theorem Surrounded.of_after {leader : Option Nat} (hstore : Holds e.store stored)
    (hleads : e.flights.leads = stage.leads key)
    (hself : some i ≠ leader → Aside layer key now task.job stage stored e.phase)
    (hothers : ∀ {k : Nat} {other : Task}, k ≠ i → some k ≠ leader → c.tasks[k]? = some other →
      Aside layer key now other.job stage stored other.phase) :
    Surrounded layer key now Holds stage stored leader (c.after i task e) where
  holds := hstore
  leads_eq := hleads
  asides hne hget := by
    cases getElem?_after e hget with
    | inl heq =>
      obtain ⟨rfl, rfl⟩ := heq
      exact hself hne
    | inr hother => exact hothers hother.1 hne hother.2

omit [Backend σ] in
theorem Surrounded.after_harmless {leader : Option Nat}
    (hc : Surrounded layer key now Holds stage stored leader c) (hharmless : Harmless Holds c stage stored e)
    (hnext : Aside layer key now task.job stage stored e.phase) :
    Surrounded layer key now Holds stage stored leader (c.after i task e) := by
  apply Surrounded.of_after hharmless.holds
  . rw [hharmless.leads_eq, hc.leads_eq]
  . exact fun _ => hnext
  . exact fun _ => hc.asides

namespace Collapsing

theorem after_ahead (hlayer : Favourable layer key during Holds) (hattended : Attended layer key during now c)
    (hget : c.tasks[i]? = some task) (h : Transition layer c i task e) (hcalls : c.calls = 0)
    (hc : Surrounded layer key now Holds .ahead none none c) :
    Collapsing layer key now Holds (c.after i task e) := by
  obtain ⟨-, hphase, hcalled, hstore, hflights⟩ | ⟨hnext, hharmless⟩ :=
    (hc.asides nofun hget).of_transition hlayer hattended hget hc.holds nofun nofun hc.leads_eq nofun h
  . -- The request begins the flight and leads it from now on.
    have hfree : (e.flights.lock c.flights.locks.length).holder = none := by
      rw [hflights, Flights.lock_start, Flights.lock_length]
      rfl
    have hwork : AtWork layer key now c.flights.locks.length i e.phase
        (e.flights.lock c.flights.locks.length).holder e.calls none := by
      rw [hfree, hphase, hcalled, hcalls]
      exact .locking
    have hleads : e.flights.leads = FlightStage.leads key (.underWay c.flights.locks.length) := by
      rw [hflights]
      exact congrArg (List.cons _) hc.leads_eq
    refine .underWay (getElem?_after_self hget e) hwork (.of_after ?_ hleads ?_ ?_)
    . rw [hstore]
      exact hc.holds
    . exact fun hne => absurd rfl hne
    . intro k other _ _ hother
      exact (hc.asides nofun hother).underWay_of_ahead _
  . exact .ahead (hharmless.calls_eq.trans hcalls) (hc.after_harmless hharmless hnext)

theorem after_leader (hlayer : Favourable layer key during Holds) (hattended : Attended layer key during now c)
    (hgoverned : Governed c) (hget : c.tasks[i]? = some task) (h : Transition layer c i task e)
    (hearly : c.isPremature i = false) {lock : Nat}
    (hwork : AtWork layer key now lock i task.phase (c.flights.lock lock).holder c.calls stored)
    (hc : Surrounded layer key now Holds (.underWay lock) stored (some i) c) :
    Collapsing layer key now Holds (c.after i task e) := by
  have hlt : lock < c.flights.locks.length := hgoverned.numbered.named_lt hget hwork.named?_eq
  have hled := hwork.of_transition hlayer hattended hget hc.holds hlt rfl rfl h
  cases hled with
  | atWork hwork' hstore hleads =>
    refine .underWay (getElem?_after_self hget e) hwork' (.of_after hstore (hleads.trans hc.leads_eq) ?_ ?_)
    . exact fun hne => absurd rfl hne
    . exact fun _ hne hother => (hc.asides hne hother).of_none _
  | ended hminted hphase hcalls hstore hflights =>
    have hleads : e.flights.leads = FlightStage.leads key .ended := by
      rw [hflights]
      exact Flights.leads_finish_of_eq hc.leads_eq
    refine .ended (getElem?_after_self hget e) hphase hminted hcalls (.of_after hstore hleads ?_ ?_)
    . exact fun hne => absurd rfl hne
    . intro k other hk hne hother
      obtain ⟨answer, hlanding⟩ := hwork.eq_landing
      exact (hc.asides hne hother).ended_of_underWay (isSeeking_of_landing hearly hget hlanding hother)

theorem after_follower (hlayer : Favourable layer key during Holds) (hattended : Attended layer key during now c)
    (hget : c.tasks[i]? = some task) (h : Transition layer c i task e)
    (hearly : c.isPremature i = false) {leader : Nat} {leading : Task} {lock : Nat} (hne : i ≠ leader)
    (hleader : c.tasks[leader]? = some leading)
    (hwork : AtWork layer key now lock leader leading.phase (c.flights.lock lock).holder c.calls stored)
    (hc : Surrounded layer key now Holds (.underWay lock) stored (some leader) c) :
    Collapsing layer key now Holds (c.after i task e) := by
  have haside := hc.asides (fun heq => hne (Option.some.inj heq)) hget
  have hlock : ∀ {id}, FlightStage.underWay lock = .underWay id → (c.flights.lock id).holder ≠ some i
      ∧ (task.phase = .locking ⟨key, id⟩ .follower → (c.flights.lock id).holder ≠ none) := by
    rintro id ⟨⟩
    cases hwork.holder_cases with
    | inl hfree =>
      rw [hfree.1]
      exact ⟨nofun, fun hphase => absurd hfree.2 (ne_locking_of_locking hearly hget hphase hleader)⟩
    | inr hheld =>
      rw [hheld]
      exact ⟨fun heq => hne (Option.some.inj heq).symm, fun _ => nofun⟩
  obtain ⟨hahead, -⟩ | ⟨hnext, hharmless⟩ := haside.of_transition hlayer hattended hget hc.holds
    (fun heq => (heq ▸ hwork).minted) nofun hc.leads_eq hlock h
  . nomatch hahead
  . refine .underWay (getElem?_after_of_ne hne e hleader) ?_ (hc.after_harmless hharmless hnext)
    rw [← hharmless.holder_eq rfl, ← hharmless.calls_eq] at hwork
    exact hwork

theorem after_ended (hlayer : Favourable layer key during Holds) (hattended : Attended layer key during now c)
    (hget : c.tasks[i]? = some task) (h : Transition layer c i task e)
    {leader : Nat} {leading : Task} {entry : Entry} (hleader : c.tasks[leader]? = some leading)
    (hphase : leading.phase = .done (.response .miss (layer.replay entry true)))
    (hminted : entry.Minted now) (hcalls : c.calls = 1)
    (hc : Surrounded layer key now Holds .ended (some entry) (some leader) c) :
    Collapsing layer key now Holds (c.after i task e) := by
  have hne : i ≠ leader := by
    rintro rfl
    obtain rfl := Option.some.inj (hget.symm.trans hleader)
    exact h.phase_ne_done _ hphase
  have haside := hc.asides (fun heq => hne (Option.some.inj heq)) hget
  obtain ⟨hahead, -⟩ | ⟨hnext, hharmless⟩ := haside.of_transition hlayer hattended hget hc.holds
    (fun heq => Option.some.inj heq ▸ hminted) (fun _ => nofun) hc.leads_eq nofun h
  . nomatch hahead
  . exact .ended (getElem?_after_of_ne hne e hleader) hphase hminted (hharmless.calls_eq.trans hcalls)
      (hc.after_harmless hharmless hnext)

theorem after (hlayer : Favourable layer key during Holds) (hattended : Attended layer key during now c)
    (hgoverned : Governed c) (hget : c.tasks[i]? = some task) (h : Transition layer c i task e)
    (hearly : c.isPremature i = false) (hc : Collapsing layer key now Holds c) :
    Collapsing layer key now Holds (c.after i task e) := by
  cases hc with
  | ahead hcalls hc => exact after_ahead hlayer hattended hget h hcalls hc
  | @underWay leader _ _ _ hleader hwork hc =>
    by_cases heq : i = leader
    . subst heq
      obtain rfl := Option.some.inj (hget.symm.trans hleader)
      exact after_leader hlayer hattended hgoverned hget h hearly hwork hc
    . exact after_follower hlayer hattended hget h hearly heq hleader hwork hc
  | ended hleader hphase hminted hcalls hc =>
    exact after_ended hlayer hattended hget h hleader hphase hminted hcalls hc

omit [Backend σ] in
theorem of_tasks (hc : Collapsing layer key now Holds c) (hstore : c'.store = c.store)
    (hflights : c'.flights = c.flights) (hcalls : c'.calls = c.calls)
    (hold : ∀ {k : Nat} {other : Task}, c.tasks[k]? = some other → c'.tasks[k]? = some other)
    (hnew : ∀ {k : Nat} {other : Task}, c'.tasks[k]? = some other →
      c.tasks[k]? = some other ∨ other.phase = .arriving) : Collapsing layer key now Holds c' := by
  have hsurrounded {stage stored leader} (hc : Surrounded layer key now Holds stage stored leader c) :
      Surrounded layer key now Holds stage stored leader c' := by
    refine ⟨hstore ▸ hc.holds, hflights ▸ hc.leads_eq, ?_⟩
    intro k other hne hother
    cases hnew hother with
    | inl hother => exact hc.asides hne hother
    | inr harriving =>
      rw [harriving]
      exact .arriving
  cases hc with
  | ahead hnone hc => exact .ahead (hcalls.trans hnone) (hsurrounded hc)
  | underWay hleader hwork hc =>
    rw [← hcalls, ← hflights] at hwork
    exact .underWay (hold hleader) hwork (hsurrounded hc)
  | ended hleader hphase hminted hone hc =>
    exact .ended (hold hleader) hphase hminted (hcalls.trans hone) (hsurrounded hc)

omit [Backend σ] in
theorem start {store : σ} (hstore : Holds store none) (clock systemTime : Time) :
    Collapsing layer key now Holds (Cache.start store clock systemTime) :=
  .ahead rfl ⟨hstore, rfl, fun _ hget => nomatch hget⟩

end Collapsing

theorem Timely.collapsing {store : σ} {clock systemTime : Time}
    (hlayer : Favourable layer key during Holds) (hstore : Holds store none)
    (hduring : during systemTime) (h : Timely layer key during (Cache.start store clock systemTime) c) :
    Collapsing layer key ((Cache.start store clock systemTime).now layer) Holds c := by
  induction h with
  | start => exact .start hstore clock systemTime
  | @enlist c job _ _ ih =>
    refine ih.of_tasks rfl rfl rfl ?_ ?_
    . exact fun hget => getElem?_of_isPrefix (List.prefix_append _ _) hget
    . intro k other hother
      cases getElem?_enlist hother with
      | inl hold => exact .inl hold
      | inr hnew => exact .inr (hnew.2 ▸ rfl)
  | step hbefore hearly hstep ih =>
    obtain ⟨task, e, hget, h, rfl⟩ := Transition.of_step hstep
    exact ih.after hlayer (hbefore.attended hduring) hbefore.governed hget h hearly
  | systemTime _ _ _ ih => exact ih.of_tasks rfl rfl rfl id .inl

/--
Whether a response to a request repeats another one with a tag: it has the tag, and it has the status and
the body of the other one unless that succeeded and the request names the tag as one that its client has.
-/
def Response.Repeats (job : Job) (tag : String) (value : HeaderValue) (response other : Response) : Prop :=
  other.headers.getAll "etag" = [value]
    ∧ if response.status.isSuccess && EntityTag.isNamed (job.request.headers.getAll "if-none-match") tag then
        other.status = .notModified ∧ other.body = []
      else
        other.status = response.status ∧ other.body = response.body

/--
Whether all requests of a cache were answered with one call of the handler: one of them missed, and every
other one hit what the response to it repeats.
-/
def Collapsed (c : Cache σ) : Prop :=
  c.calls = 1 ∧ ∃ leader response tag value, c.phase? leader = some (.done (.response .miss response))
    ∧ HeaderValue.ofString? tag = some value ∧ response.headers.getAll "etag" = [value]
    ∧ ∀ {i : Nat} {task : Task}, c.tasks[i]? = some task → i ≠ leader →
      ∃ other, task.phase = .done (.response .hit other) ∧ response.Repeats task.job tag value other

theorem repeats_serve {entry : Entry} {value : HeaderValue}
    (hvalue : HeaderValue.ofString? entry.etag = some value) (layer : Layer) (job : Job) (now : Time) :
    (layer.replay entry true).Repeats job entry.etag value (layer.serve job entry now) := by
  refine ⟨Layer.getAll_etag_serve hvalue, ?_⟩
  split
  next hrevalidated => exact Layer.serve_of_isRevalidated hrevalidated
  next hrevalidated => exact Layer.serve_of_not_isRevalidated (Bool.eq_false_iff.2 hrevalidated)

omit [Backend σ] in
theorem Collapsing.calls_le (hc : Collapsing layer key now Holds c) : c.calls ≤ 1 := by
  cases hc with
  | ahead hcalls =>
    rw [hcalls]
    exact Nat.zero_le 1
  | underWay hleader hwork => exact hwork.calls_le
  | ended hleader hphase hminted hcalls => exact Nat.le_of_eq hcalls

omit [Backend σ] in
theorem Collapsing.collapsed (hc : Collapsing layer key now Holds c) (hne : c.tasks ≠ [])
    (hfinished : ∀ {i : Nat} {task : Task}, c.tasks[i]? = some task → task.phase.isFinished = true) :
    Collapsed c := by
  cases hc with
  | ahead hcalls hc =>
    obtain ⟨task, tasks, htasks⟩ := List.exists_cons_of_ne_nil hne
    have hget : c.tasks[0]? = some task := htasks ▸ rfl
    obtain ⟨entry, hstored, -⟩ := (hc.asides nofun hget).eq_done (hfinished hget)
    nomatch hstored
  | underWay hleader hwork => nomatch hwork.isFinished_eq.symm.trans (hfinished hleader)
  | ended hleader hphase hminted hcalls hc =>
    obtain ⟨value, hvalue⟩ := hminted.exists_value
    have htagged := Layer.getAll_etag_replay (l := layer) hvalue true
    refine ⟨hcalls, _, _, _, value, phase?_eq_some hleader hphase, hvalue, htagged, ?_⟩
    intro i task hget hother
    obtain ⟨entry, hstored, hdone⟩ := (hc.asides (fun heq => hother (Option.some.inj heq)) hget).eq_done
      (hfinished hget)
    obtain rfl := Option.some.inj hstored
    exact ⟨_, hdone, repeats_serve hvalue layer task.job now⟩

/--
Requests that miss together under one key, with single flights, a store that keeps what is written, a clock
that stands still, and handlers that succeed with what is stored: in every order of their steps in which no
step is premature the handler is called once at most. Each step lowers the bound of the steps that are left
to its request; while there is a step to be taken, there is one that is not premature; and once there is
none, one request missed and all others hit what it was answered.
-/
theorem collapsed_of_timely {store : σ} {clock systemTime : Time} (hflight : layer.singleFlight = true)
    (hmax : 1 ≤ layer.policy.maxSecs) (hkeeps : Backend.Keeps key layer.policy.maxTtl during Holds)
    (hempty : Holds store none) (hduring : during systemTime)
    (htimely : Timely layer key during (start store clock systemTime) c) :
    c.calls ≤ 1
      ∧ (∀ {i : Nat} {c' : Cache σ}, c.step layer i = some c' →
        c'.rank i < c.rank i ∧ (∀ k, k ≠ i → c'.rank k = c.rank k)
          ∧ ∃ k c'', c.isPremature k = false ∧ c.step layer k = some c'')
      ∧ ((∀ i, c.step layer i = none) → c.tasks ≠ [] → Collapsed c) := by
  have hcollapsing := htimely.collapsing ⟨hflight, hmax, hkeeps⟩ hempty hduring
  refine ⟨hcollapsing.calls_le, ?_, ?_⟩
  . intro i c' hstep
    obtain ⟨hlower, hothers⟩ := rank_of_step hstep
    exact ⟨hlower, hothers, exists_timely_step hstep⟩
  . intro hstuck hne
    exact hcollapsing.collapsed hne (htimely.governed.isFinished_of_stuck hstuck)

end

def Reply.brief : Reply :=
  ⟨.ok, [], [.data [0x76, 0x31]], by decide⟩

def Job.brief : Job :=
  .sample 0 (.ok .brief)

/-- A request like that, whose client has a response already, with whatever tag. -/
def Job.conditional : Job :=
  { Job.brief with request := revalidation.request }

theorem Job.suits_brief : brief.Suits (.sample true) "GET /" where
  keyOf_eq := by decide +kernel
  getAll_eq := rfl
  unready_eq := rfl
  refusal_eq := rfl
  answers _ := ⟨⟨.ok, [], [0x76, 0x31]⟩, rfl, rfl⟩

theorem Job.suits_conditional : conditional.Suits (.sample true) "GET /" where
  keyOf_eq := by decide +kernel
  getAll_eq := by decide +kernel
  unready_eq := rfl
  refusal_eq := rfl
  answers _ := ⟨⟨.ok, [], [0x76, 0x31]⟩, rfl, rfl⟩

def twoTogether (other : Job) : Cache MemoryStore :=
  (((start .empty .epoch .epoch).enlist .brief).1.enlist other).1

/-- Steps of a request that waits while another one leads, and then is answered. -/
def waitingOrder : List Nat :=
  List.replicate 6 0 ++ List.replicate 5 1 ++ List.replicate 4 0 ++ List.replicate 4 1

/-- The request that waits is collapsed with the one that leads. -/
theorem collapsed_of_waiting :
    (Layer.sample true).singleFlight = true ∧ 1 ≤ (Layer.sample true).policy.maxSecs
      ∧ MemoryStore.HoldsSince "GET /" (Layer.sample true).policy.maxTtl .epoch .empty none
      ∧ MemoryStore.Lasting (Layer.sample true).policy.maxTtl .epoch .epoch
      ∧ ∃ c, (twoTogether .conditional).stepsInTime (.sample true) waitingOrder = some c
        ∧ Timely (.sample true) "GET /" (MemoryStore.Lasting (Layer.sample true).policy.maxTtl .epoch)
          (start .empty .epoch .epoch) c
        ∧ (∀ i, c.step (.sample true) i = none) ∧ c.tasks ≠ [] ∧ Collapsed c := by
  have hempty := MemoryStore.holdsSince_empty "GET /" (Layer.sample true).policy.maxTtl .epoch
  have hlasting : MemoryStore.Lasting (Layer.sample true).policy.maxTtl .epoch .epoch := by
    decide
  have hdone : ((twoTogether .conditional).stepsInTime (.sample true) waitingOrder).any
      (fun c => c.tasks.length = 2 && c.tasks.all fun t => t.phase.isFinished) = true := by
    decide +kernel
  obtain ⟨c, hc, hfinished⟩ := (Option.any_eq_true _ _).1 hdone
  rw [Bool.and_eq_true, decide_eq_true_eq, List.all_eq_true] at hfinished
  have htimely : Timely (.sample true) "GET /" (MemoryStore.Lasting (Layer.sample true).policy.maxTtl .epoch)
      (start .empty .epoch .epoch) c := by
    apply Timely.stepsInTime _ hc
    exact (Timely.start.enlist Job.suits_brief).enlist Job.suits_conditional
  have hstuck := stuck_of_isFinished hfinished.2 (.sample true)
  have hne : c.tasks ≠ [] := by
    rw [← List.length_pos_iff, hfinished.1]
    decide
  refine ⟨rfl, by decide, hempty, hlasting, c, hc, htimely, hstuck, hne, ?_⟩
  exact (collapsed_of_timely rfl (by decide) (MemoryStore.keeps _ _ _) hempty hlasting htimely).2.2 hstuck hne

/-- The steps of a request that begins a flight after the one was over by which it was to be answered. -/
def lateOrder : List Nat :=
  List.replicate 3 1 ++ List.replicate 10 0 ++ List.replicate 7 1

/-- The steps of a request that takes the lock of a flight before its leader does. -/
def overtakingOrder : List Nat :=
  List.replicate 4 0 ++ List.replicate 13 1 ++ List.replicate 6 0

/-- The outcome for a request, with the status and the body of its response, once it is answered with one. -/
def Cache.outcome? {σ : Type} (c : Cache σ) (i : Nat) : Option (Outcome × Status × Bytes) :=
  match c.phase? i with
  | some (.done (.response outcome response)) => some (outcome, response.status, response.body)
  | _ => none

/--
Two requests are not collapsed in every order of their steps. A conditional one is told that its client has
the body, which is the other's. The handler is called twice if a request found nothing before the flight
ended and looks for it after that, and if one follows the flight before its leader holds the lock.
-/
theorem not_collapsed :
    (Layer.sample true).singleFlight = true ∧ 1 ≤ (Layer.sample true).policy.maxSecs
      ∧ Job.brief.Suits (.sample true) "GET /" ∧ Job.conditional.Suits (.sample true) "GET /"
      ∧ (let c := (twoTogether .conditional).play (.sample true) (waitingOrder.map .step)
        c.outcome? 0 = some (.miss, .ok, [0x76, 0x31]) ∧ c.outcome? 1 = some (.hit, .notModified, []))
      ∧ (let c := (twoTogether .brief).play (.sample true) (lateOrder.map .step)
        (∀ i, c.step (.sample true) i = none) ∧ c.calls = 2)
      ∧ (let c := (twoTogether .brief).play (.sample true) (overtakingOrder.map .step)
        (∀ i, c.step (.sample true) i = none) ∧ c.calls = 2) := by
  refine ⟨rfl, by decide, Job.suits_brief, Job.suits_conditional, ?_, ⟨?_, ?_⟩, ?_, ?_⟩
  . decide +kernel
  . apply stuck_of_isFinished
    decide +kernel
  . decide +kernel
  . apply stuck_of_isFinished
    decide +kernel
  . decide +kernel

end ResponseCache
