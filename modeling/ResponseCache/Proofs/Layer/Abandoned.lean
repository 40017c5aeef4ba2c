import ResponseCache.Proofs.Layer.Locks
import ResponseCache.Proofs.Layer.Play
import ResponseCache.Store.Memory

/-!
This module contains which flights are under way at any point of a run. These are the flights that
requests lead, and those whose leaders went away before they held the lock, which nobody ends any more.
-/

namespace ResponseCache

open Cache

/-- The flight that a request has begun, as long as it does not hold the lock. -/
def Phase.begun? : Phase → Option Guard
  | .locking guard .leader => some guard
  | .queued guard .leader => some guard
  | _ => none

theorem Phase.lead?_eq_some_iff {phase : Phase} {guard : Guard} :
    phase.lead? = some guard ↔ phase.begun? = some guard ∨ guard? phase = some guard := by
  cases phase with
  | locking guard role => cases role <;> simp [lead?, begun?, guard?]
  | queued guard role => cases role <;> simp [lead?, begun?, guard?]
  | _ => simp [lead?, begun?]

theorem Phase.begun?_of_isFinished {phase : Phase} (h : phase.isFinished = true) : phase.begun? = none := by
  unfold begun?
  split
  next => nomatch h
  next => nomatch h
  next => rfl

section

variable {σ : Type} {c c' : Cache σ} {i k : Nat} {task : Task} {e : Effect σ} {guard : Guard}

/-- The flight that an action leaves behind, which is that of a leader that does not hold the lock yet. -/
def Cache.abandons (c : Cache σ) : Action σ → Option Guard
  | .cancel i => (c.phase? i).bind Phase.begun?
  | _ => none

theorem leads_iff (hget : c.tasks[i]? = some task) :
    Leads c i guard ↔ task.phase.lead? = some guard := by
  unfold Leads
  rw [hget]
  simp

theorem Leads.eq {other : Guard} (h : Leads c i guard) (hother : Leads c i other) : guard = other := by
  obtain ⟨task, hget, hlead⟩ := h
  rw [leads_iff hget, hlead] at hother
  exact Option.some.inj hother

theorem leads_after_iff (hget : c.tasks[i]? = some task) :
    Leads (c.after i task e) k guard
      ↔ (k = i ∧ e.phase.lead? = some guard) ∨ (k ≠ i ∧ Leads c k guard) := by
  constructor
  . exact leads_after
  . rintro (⟨rfl, hlead⟩ | ⟨hne, other, hother, hlead⟩)
    . exact ⟨_, getElem?_after_self hget e, hlead⟩
    . exact ⟨other, getElem?_after_of_ne hne.symm e hother, hlead⟩

theorem leads_enlist_iff (job : Job) : Leads (c.enlist job).1 k guard ↔ Leads c k guard := by
  constructor
  . rintro ⟨task, hget, hlead⟩
    cases getElem?_enlist hget with
    | inl hold => exact ⟨task, hold, hlead⟩
    | inr hnew =>
      obtain ⟨-, rfl⟩ := hnew
      nomatch hlead
  . rintro ⟨task, hget, hlead⟩
    exact ⟨task, getElem?_of_isPrefix (List.prefix_append _ _) hget, hlead⟩

theorem lead?_of_isFinished (h : task.phase.isFinished = true) : task.phase.lead? = none := by
  cases hphase : task.phase with
  | done answer => rfl
  | cancelled => rfl
  | _ =>
    rw [hphase] at h
    nomatch h

/-- What an action does to the flights that there are, and to who leads them. -/
inductive LeadAct (c c' : Cache σ) : Option Guard → Prop where
  | same (hleads : ∀ k guard, Leads c' k guard ↔ Leads c k guard)
      (hflights : c'.flights.leads = c.flights.leads) : LeadAct c c' none
  | began {i : Nat} {key : String} (hnone : c.flights.lead? key = none)
      (hleads : ∀ k guard, Leads c' k guard
        ↔ (k = i ∧ guard = ⟨key, c.flights.locks.length⟩) ∨ Leads c k guard)
      (hflights : c'.flights.leads = (key, c.flights.locks.length) :: c.flights.leads) : LeadAct c c' none
  | ended {i : Nat} {guard : Guard} (hold : Leads c i guard)
      (hleads : ∀ k other, Leads c' k other ↔ k ≠ i ∧ Leads c k other)
      (hflights : c'.flights.leads = c.flights.leads.filter fun lead => lead ≠ (guard.key, guard.lock)) :
      LeadAct c c' none
  | left {i : Nat} {guard : Guard} (hold : Leads c i guard)
      (hleads : ∀ k other, Leads c' k other ↔ k ≠ i ∧ Leads c k other)
      (hflights : c'.flights.leads = c.flights.leads) : LeadAct c c' (some guard)

namespace LeadAct

theorem of_leadStep (hget : c.tasks[i]? = some task) (h : LeadStep c task e) :
    LeadAct c (c.after i task e) none := by
  cases h with
  | @began key hold hnone hlead hflights =>
    apply began hnone (i := i)
    . intro k guard
      rw [leads_after_iff hget, hlead, Option.some.injEq, @eq_comm _ _ guard]
      by_cases heq : k = i
      . subst heq
        simp [leads_iff hget, hold]
      . simp [heq]
    . exact congrArg Flights.leads hflights
  | @ended guard hold hlead hflights =>
    apply ended ((leads_iff hget).2 hold)
    . intro k other
      rw [leads_after_iff hget, hlead]
      exact or_iff_right nofun
    . exact congrArg Flights.leads hflights
  | kept hlead hleads hlocks =>
    apply same _ hleads
    intro k guard
    rw [leads_after_iff hget, hlead]
    by_cases heq : k = i
    . subst heq
      simp [leads_iff hget]
    . simp [heq]

theorem leads_leave (hget : c.tasks[i]? = some task) (k : Nat) (guard : Guard) :
    Leads (c.after i task (c.leave i task)) k guard ↔ k ≠ i ∧ Leads c k guard := by
  rw [leads_after_iff hget]
  exact or_iff_right nofun

theorem of_leave (hget : c.tasks[i]? = some task) :
    LeadAct c (c.after i task (c.leave i task)) task.phase.begun? := by
  have hleads := leads_leave hget
  cases hguard : guard? task.phase with
  | some guard =>
    -- Whoever holds the lock has a guard that ends the flight, so nothing is left behind.
    have hbegun : task.phase.begun? = none := by
      unfold Phase.begun?
      split
      next hphase =>
        rw [hphase] at hguard
        nomatch hguard
      next hphase =>
        rw [hphase] at hguard
        nomatch hguard
      next => rfl
    rw [hbegun]
    apply ended ((leads_iff hget).2 (Phase.lead?_eq_some_iff.2 (.inr hguard))) hleads
    exact congrArg Flights.leads (LeadChange.leave_flights_of_guard? hguard)
  | none =>
    have hflights := (LeadChange.leave_flights_of_guard?_eq_none (c := c) (i := i) hguard).1
    cases hbegun : task.phase.begun? with
    | some guard => exact left ((leads_iff hget).2 (Phase.lead?_eq_some_iff.2 (.inl hbegun))) hleads hflights
    | none =>
      apply same _ hflights
      intro k guard
      refine (hleads k guard).trans (and_iff_right_of_imp ?_)
      rintro h rfl
      rw [leads_iff hget, Phase.lead?_eq_some_iff, hbegun, hguard] at h
      exact h.elim nofun nofun

theorem of_act [Backend σ] (layer : Layer) (c : Cache σ) (action : Action σ) :
    LeadAct c (c.act layer action) (c.abandons action) := by
  cases action with
  | enlist job => exact same (fun _ _ => leads_enlist_iff job) rfl
  | step i =>
    cases hstep : c.step layer i with
    | none =>
      rw [act_step_of_eq_none hstep]
      exact same (fun _ _ => Iff.rfl) rfl
    | some c' =>
      rw [act_step_of_eq_some hstep]
      obtain ⟨task, e, hget, h, rfl⟩ := Transition.of_step hstep
      exact of_leadStep hget (.of_transition h)
  | cancel i =>
    simp only [act, abandons]
    cases hget : c.tasks[i]? with
    | none =>
      unfold cancel phase?
      rw [hget]
      exact same (fun _ _ => Iff.rfl) rfl
    | some task =>
      rw [cancel_eq_of_getElem? hget, phase?_eq_some hget rfl, Option.bind_some]
      split
      next hfinished =>
        rw [Phase.begun?_of_isFinished hfinished]
        exact same (fun _ _ => Iff.rfl) rfl
      next => exact of_leave hget
  | clock clock => exact same (fun _ _ => Iff.rfl) rfl
  | systemTime systemTime => exact same (fun _ _ => Iff.rfl) rfl
  | change f => exact same (fun _ _ => Iff.rfl) rfl

end LeadAct

/--
That the flights there are, one for each key, are those that requests lead and those that were left behind.
-/
structure Tracked (left : List Guard) (c : Cache σ) : Prop where
  mem_leads_iff : ∀ guard : Guard,
    (guard.key, guard.lock) ∈ c.flights.leads ↔ (∃ i, Leads c i guard) ∨ guard ∈ left
  nodup : (c.flights.leads.map Prod.fst).Nodup
  lock_ne : ∀ {i : Nat} {guard other : Guard}, Leads c i guard → other ∈ left → guard.lock ≠ other.lock

namespace Tracked

variable {left : List Guard}

theorem start (store : σ) (clock systemTime : Time) : Tracked [] (Cache.start store clock systemTime) where
  mem_leads_iff guard := by
    refine iff_of_false nofun ?_
    rintro (⟨i, task, hget, -⟩ | hleft)
    . nomatch hget
    . nomatch hleft
  nodup := List.nodup_nil
  lock_ne _ hleft := nomatch hleft

theorem after_began (ht : Tracked left c) (hc : Numbered c) {key : String} (hnone : c.flights.lead? key = none)
    (hleads : ∀ k guard, Leads c' k guard
      ↔ (k = i ∧ guard = ⟨key, c.flights.locks.length⟩) ∨ Leads c k guard)
    (hflights : c'.flights.leads = (key, c.flights.locks.length) :: c.flights.leads) : Tracked left c' where
  mem_leads_iff guard := by
    rw [hflights, List.mem_cons, ht.mem_leads_iff, ← or_assoc]
    refine or_congr_left ?_
    simp only [hleads, exists_or, exists_and_right, exists_eq, true_and]
    rw [Guard.mk.injEq, Prod.mk.injEq]
  nodup := by
    rw [hflights, List.map_cons, List.nodup_cons]
    refine ⟨?_, ht.nodup⟩
    rw [List.mem_map]
    rintro ⟨lead, hlead, rfl⟩
    have hne := List.lookup_eq_none_iff.1 hnone lead hlead
    simp at hne
  lock_ne {k guard other} hk hleft := by
    cases (hleads k guard).1 hk with
    | inl hnew =>
      -- The lock of a new flight comes after all locks that there have been.
      obtain ⟨-, rfl⟩ := hnew
      have hlt := hc.leads_lt ((ht.mem_leads_iff other).2 (.inr hleft))
      exact Nat.ne_of_gt hlt
    | inr hold => exact ht.lock_ne hold hleft

theorem after_ended (ht : Tracked left c) (hc : Orderly c) (hold : Leads c i guard)
    (hleads : ∀ k other, Leads c' k other ↔ k ≠ i ∧ Leads c k other)
    (hflights : c'.flights.leads = c.flights.leads.filter fun lead => lead ≠ (guard.key, guard.lock)) :
    Tracked left c' where
  mem_leads_iff other := by
    rw [hflights, List.mem_filter, ht.mem_leads_iff, decide_eq_true_iff]
    constructor
    . rintro ⟨⟨k, hk⟩ | hleft, hne⟩
      . refine .inl ⟨k, (hleads k other).2 ⟨?_, hk⟩⟩
        rintro rfl
        exact hne (hold.eq hk ▸ rfl)
      . exact .inr hleft
    . rintro (⟨k, hk⟩ | hleft)
      . obtain ⟨hne, hk⟩ := (hleads k other).1 hk
        refine ⟨.inl ⟨k, hk⟩, fun heq => hne ?_⟩
        exact hc.lock_inj hk hold (congrArg Prod.snd heq)
      . exact ⟨.inr hleft, fun heq => ht.lock_ne hold hleft (congrArg Prod.snd heq).symm⟩
  nodup := by
    rw [hflights]
    exact ht.nodup.sublist (List.filter_sublist.map _)
  lock_ne hk hleft := ht.lock_ne ((hleads _ _).1 hk).2 hleft

theorem after_left (ht : Tracked left c) (hc : Orderly c) (hold : Leads c i guard)
    (hleads : ∀ k other, Leads c' k other ↔ k ≠ i ∧ Leads c k other)
    (hflights : c'.flights.leads = c.flights.leads) : Tracked (left ++ [guard]) c' where
  mem_leads_iff other := by
    rw [hflights, ht.mem_leads_iff, List.mem_append, List.mem_singleton]
    constructor
    . rintro (⟨k, hk⟩ | hleft)
      . by_cases heq : k = i
        . subst heq
          exact .inr (.inr (hk.eq hold))
        . exact .inl ⟨k, (hleads k other).2 ⟨heq, hk⟩⟩
      . exact .inr (.inl hleft)
    . rintro (⟨k, hk⟩ | hleft | rfl)
      . exact .inl ⟨k, ((hleads k other).1 hk).2⟩
      . exact .inr hleft
      . exact .inl ⟨i, hold⟩
  nodup := hflights ▸ ht.nodup
  lock_ne {k other _} hk hleft := by
    obtain ⟨hne, hk⟩ := (hleads k other).1 hk
    cases List.mem_append.1 hleft with
    | inl hleft => exact ht.lock_ne hk hleft
    | inr hself =>
      obtain rfl := List.mem_singleton.1 hself
      exact fun hlock => hne (hc.lock_inj hk hold hlock)

theorem after (ht : Tracked left c) (hnumbered : Numbered c) (horderly : Orderly c) {lost : Option Guard}
    (h : LeadAct c c' lost) : Tracked (left ++ lost.toList) c' := by
  cases h with
  | same hleads hflights =>
    rw [Option.toList_none, List.append_nil]
    refine ⟨?_, hflights ▸ ht.nodup, fun hk hleft => ht.lock_ne ((hleads _ _).1 hk) hleft⟩
    intro guard
    simp only [hflights, hleads, ht.mem_leads_iff]
  | began hnone hleads hflights =>
    rw [Option.toList_none, List.append_nil]
    exact ht.after_began hnumbered hnone hleads hflights
  | ended hold hleads hflights =>
    rw [Option.toList_none, List.append_nil]
    exact ht.after_ended horderly hold hleads hflights
  | left hold hleads hflights => exact ht.after_left horderly hold hleads hflights

theorem lead?_eq_some_iff (ht : Tracked left c) (key : String) (id : Nat) :
    c.flights.lead? key = some id ↔ (key, id) ∈ c.flights.leads := by
  constructor
  . exact Flights.mem_leads_of_lead?
  . intro hmem
    cases hlead : c.flights.lead? key with
    | none =>
      have hne := List.lookup_eq_none_iff.1 hlead _ hmem
      simp at hne
    | some other =>
      have heq := List.inj_on_of_nodup_map ht.nodup (Flights.mem_leads_of_lead? hlead) hmem rfl
      rw [(Prod.mk.inj heq).2]

/-- No flight is there once all requests are finished, if none was left behind. -/
theorem leads_eq_nil (ht : Tracked [] c) (hfinished : ∀ task ∈ c.tasks, task.phase.isFinished = true) :
    c.flights.leads = [] := by
  apply List.eq_nil_iff_forall_not_mem.2
  rintro ⟨key, id⟩ hmem
  obtain ⟨i, task, hget, hlead⟩ | hleft := (ht.mem_leads_iff ⟨key, id⟩).1 hmem
  . rw [lead?_of_isFinished (hfinished task (List.mem_of_getElem? hget))] at hlead
    nomatch hlead
  . nomatch hleft

end Tracked

variable [Backend σ]

def abandoned (layer : Layer) : Cache σ → List (Action σ) → List Guard
  | _, [] => []
  | c, action :: actions => (c.abandons action).toList ++ abandoned layer (c.act layer action) actions

theorem abandoned_append (layer : Layer) (c : Cache σ) (actions others : List (Action σ)) :
    abandoned layer c (actions ++ others)
      = abandoned layer c actions ++ abandoned layer (c.play layer actions) others := by
  induction actions generalizing c with
  | nil => rfl
  | cons action actions ih =>
    rw [List.cons_append, abandoned, abandoned, ih, List.append_assoc]
    rfl

theorem Tracked.play (layer : Layer) {left : List Guard} (ht : Tracked left c) (hgoverned : Governed c)
    (horderly : Orderly c) (actions : List (Action σ)) :
    Tracked (left ++ abandoned layer c actions) (c.play layer actions) := by
  induction actions generalizing c left with
  | nil =>
    rw [abandoned, List.append_nil]
    exact ht
  | cons action actions ih =>
    have hreach : Reachable layer (fun _ _ => True) c (c.act layer action) :=
      c.reachable_act layer fun _ _ => trivial
    rw [abandoned, ← List.append_assoc]
    apply ih
    . exact ht.after hgoverned.numbered horderly (.of_act layer c action)
    . exact hreach.invariant hgoverned Governed.move
    . exact hreach.invariant horderly Orderly.move

/-- The end of a leader takes its own flight from those there are, unless the flight is left behind. -/
theorem leads_of_ended (layer : Layer) (action : Action σ) (hold : Leads c i guard)
    (hended : ¬Leads (c.act layer action) i guard) :
    (c.act layer action).flights.leads
        = (if c.abandons action = some guard then c.flights.leads
          else c.flights.leads.filter fun lead => lead ≠ (guard.key, guard.lock))
      ∧ ∀ k other, k ≠ i → (Leads (c.act layer action) k other ↔ Leads c k other) := by
  have hact := LeadAct.of_act layer c action
  generalize c.abandons action = lost at hact ⊢
  cases hact with
  | same hleads hflights => exact absurd ((hleads i guard).2 hold) hended
  | began hnone hleads hflights => exact absurd ((hleads i guard).2 (.inr hold)) hended
  | @ended j other hother hleads hflights =>
    obtain rfl : i = j := by
      by_contra hne
      exact hended ((hleads i guard).2 ⟨hne, hold⟩)
    obtain rfl := hold.eq hother
    refine ⟨?_, fun k other hne => (hleads k other).trans (and_iff_right hne)⟩
    rw [if_neg nofun, hflights]
  | @left j other hother hleads hflights =>
    obtain rfl : i = j := by
      by_contra hne
      exact hended ((hleads i guard).2 ⟨hne, hold⟩)
    obtain rfl := hold.eq hother
    refine ⟨?_, fun k other hne => (hleads k other).trans (and_iff_right hne)⟩
    rw [if_pos rfl, hflights]

/--
The flights there are in a run are those that requests lead, one for each key, and those that were left
behind, and the end of a leader ends no flight but its own. A flight is left behind if its leader goes away
before it holds the lock, and then stays for good; if none is, then no flight is there once all requests are
finished.
-/
theorem flights_of_play (layer : Layer) (store : σ) (clock systemTime : Time) (actions : List (Action σ)) :
    let first := Cache.start store clock systemTime
    let c := first.play layer actions
    let left := abandoned layer first actions
    (∀ key id, c.flights.lead? key = some id ↔ (∃ i, Leads c i ⟨key, id⟩) ∨ ⟨key, id⟩ ∈ left)
      ∧ (∀ i guard, Leads c i guard → guard ∉ left)
      ∧ (∀ i j guard other, Leads c i guard → Leads c j other → guard.key = other.key → i = j)
      ∧ (∀ i guard action, Leads c i guard → ¬Leads (c.act layer action) i guard →
        (c.act layer action).flights.leads
            = (if c.abandons action = some guard then c.flights.leads
              else c.flights.leads.filter fun lead => lead ≠ (guard.key, guard.lock))
          ∧ ∀ j other, j ≠ i → (Leads (c.act layer action) j other ↔ Leads c j other))
      ∧ (∀ guard ∈ left, ∀ others, (c.play layer others).flights.lead? guard.key = some guard.lock)
      ∧ (left = [] → (∀ task ∈ c.tasks, task.phase.isFinished = true) → c.flights.leads = []) := by
  intro first c left
  -- Also after any further actions, since what is left behind is there for good.
  have htracked (others : List (Action σ)) :
      Tracked (left ++ abandoned layer c others) (c.play layer others) := by
    have h := (Tracked.start store clock systemTime).play layer (.start _ _ _) (.start _ _ _)
      (actions ++ others)
    rw [abandoned_append, play_append] at h
    exact h
  have ht : Tracked left c := by
    have h := htracked []
    rw [abandoned, List.append_nil] at h
    exact h
  have horderly : Orderly c :=
    (first.reachable_play layer actions).invariant (.start store clock systemTime) Orderly.move
  refine ⟨?_, ?_, ?_, ?_, ?_, ?_⟩
  . intro key id
    rw [ht.lead?_eq_some_iff]
    exact ht.mem_leads_iff ⟨key, id⟩
  . intro i guard hleads hleft
    exact ht.lock_ne hleads hleft rfl
  . intro i j guard other hi hj hkey
    exact horderly.eq_of_leads hi hj hkey
  . intro i guard action hleads hended
    exact leads_of_ended layer action hleads hended
  . intro guard hleft others
    have h := htracked others
    rw [h.lead?_eq_some_iff]
    exact (h.mem_leads_iff guard).2 (.inr (List.mem_append_left _ hleft))
  . intro hleft hfinished
    exact (hleft ▸ ht).leads_eq_nil hfinished

end

/-- The leader of a flight goes away before it holds the lock, and the flight is there without any request. -/
theorem flight_of_cancelledLeader :
    let actions : List (Action MemoryStore) :=
      [.enlist (.sample 0 (.ok .empty)), .step 0, .step 0, .step 0, .step 0, .cancel 0]
    let c := (Cache.start MemoryStore.empty .epoch .epoch).play (.sample true) actions
    (∀ task ∈ c.tasks, task.phase.isFinished = true) ∧ c.flights.lead? "GET /" = some 0
      ∧ ∀ i guard, ¬Leads c i guard := by
  intro actions c
  have hfinished : ∀ task ∈ c.tasks, task.phase.isFinished = true := by decide +kernel
  have hlead : c.flights.lead? "GET /" = some 0 := by decide +kernel
  refine ⟨hfinished, hlead, ?_⟩
  rintro i guard ⟨task, hget, hleads⟩
  rw [lead?_of_isFinished (hfinished task (List.mem_of_getElem? hget))] at hleads
  nomatch hleads

end ResponseCache
