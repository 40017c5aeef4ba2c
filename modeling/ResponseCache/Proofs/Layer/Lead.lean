import ResponseCache.Proofs.Layer.Growth

/-!
This module contains who leads the flights of a cache. The flight of a request that leads one is the
one that others find for its key, until the request ends it; hence no two requests lead at once for
one key.
-/

namespace ResponseCache

namespace Flights

variable {f : Flights} {key other : String} {id otherId : Nat}

@[simp]
theorem length_modify (f : Flights) (id : Nat) (change : Lock → Lock) :
    (f.modify id change).locks.length = f.locks.length := by
  unfold modify
  exact List.length_modify _ _ _

theorem length_start (f : Flights) (key : String) :
    (f.start key).locks.length = f.locks.length + 1 := by
  unfold start
  rw [List.length_append, List.length_singleton]

theorem length_finish (f : Flights) (key : String) (id : Nat) :
    (f.finish key id).locks.length = f.locks.length := by
  unfold finish
  rw [length_modify]
  rfl

theorem lead?_start_self (f : Flights) (key : String) :
    (f.start key).lead? key = some f.locks.length := by
  unfold lead? start
  exact List.lookup_cons_self

theorem lead?_start_of_ne (f : Flights) (hne : other ≠ key) :
    (f.start key).lead? other = f.lead? other := by
  unfold lead? start
  rw [List.lookup_cons, beq_eq_false_iff_ne.2 hne]

theorem lookup_filter_ne {leads : List (String × Nat)} (hlead : leads.lookup other = some otherId)
    (hne : (other, otherId) ≠ (key, id)) :
    (leads.filter fun lead => lead ≠ (key, id)).lookup other = some otherId := by
  induction leads with
  | nil => nomatch hlead
  | cons lead leads ih =>
    obtain ⟨k, v⟩ := lead
    rw [List.lookup_cons] at hlead
    rw [List.filter_cons]
    split at hlead
    next heq =>
      obtain rfl := beq_iff_eq.1 heq
      obtain rfl := Option.some.inj hlead
      rw [if_pos (decide_eq_true hne), List.lookup_cons_self]
    next hother =>
      split
      next =>
        rw [List.lookup_cons, hother]
        exact ih hlead
      next => exact ih hlead

theorem lead?_finish (hlead : f.lead? other = some otherId) (hne : (other, otherId) ≠ (key, id)) :
    (f.finish key id).lead? other = some otherId :=
  lookup_filter_ne hlead hne

end Flights

/-- The flight that a request leads, from when it began it until it ends it. -/
def Phase.lead? : Phase → Option Guard
  | .locking guard .leader => some guard
  | .queued guard .leader => some guard
  | phase => Cache.guard? phase

open Cache

section

variable {σ : Type} {layer : Layer} {c : Cache σ} {i : Nat} {task : Task} {e : Effect σ}

/-- What a step does to the flight of a request: it begins or ends it, or leaves it as it is. -/
inductive LeadStep (c : Cache σ) (task : Task) (e : Effect σ) : Prop where
  | began {key : String} (hold : task.phase.lead? = none) (hnone : c.flights.lead? key = none)
      (hlead : e.phase.lead? = some ⟨key, c.flights.locks.length⟩)
      (hflights : e.flights = c.flights.start key)
  | ended {guard : Guard} (hold : task.phase.lead? = some guard) (hlead : e.phase.lead? = none)
      (hflights : e.flights = c.flights.finish guard.key guard.lock)
  | kept (hlead : e.phase.lead? = task.phase.lead?) (hleads : e.flights.leads = c.flights.leads)
      (hlocks : e.flights.locks.length = c.flights.locks.length)

namespace LeadStep

theorem of_none (hold : task.phase.lead? = none) (hlead : e.phase.lead? = none)
    (hleads : e.flights.leads = c.flights.leads)
    (hlocks : e.flights.locks.length = c.flights.locks.length) : LeadStep c task e :=
  kept (hlead.trans hold.symm) hleads hlocks

theorem of_finish {guard : Option Guard} {answer : Answer}
    (hlead : task.phase.lead? = guard) (hphase : e.phase = .finish guard answer)
    (hleads : e.flights.leads = c.flights.leads)
    (hlocks : e.flights.locks.length = c.flights.locks.length) : LeadStep c task e := by
  apply kept _ hleads hlocks
  rw [hphase, hlead]
  cases guard <;> rfl

theorem of_transition [Backend σ] (h : Transition layer c i task e) : LeadStep c task e := by
  cases h with
  | began hphase hlead =>
    refine .began ?_ hlead rfl rfl
    rw [hphase]
    rfl
  | landed hphase =>
    refine .ended ?_ rfl rfl
    rw [hphase]
    rfl
  | @queued guard role _ hphase hholder =>
    apply kept _ rfl (Flights.length_modify _ _ _)
    rw [hphase]
    cases role <;> rfl
  | ledAtOnce hphase hholder =>
    apply kept _ rfl (Flights.length_modify _ _ _)
    rw [hphase]
    rfl
  | followedAtOnce hphase hholder =>
    apply of_none (congrArg Phase.lead? hphase) rfl rfl
    rw [Flights.length_modify, Flights.length_modify]
  | led hphase hholder =>
    apply kept _ rfl rfl
    rw [hphase]
    rfl
  | waited hphase hholder =>
    exact of_none (congrArg Phase.lead? hphase) rfl rfl (Flights.length_modify _ _ _)
  | called hphase hready =>
    apply kept _ rfl rfl
    rw [hphase]
    rfl
  | paused hphase =>
    apply kept _ rfl rfl
    rw [hphase]
    rfl
  | answered hphase hanswer =>
    apply kept _ rfl rfl
    rw [hphase]
    rfl
  | storable hphase hkey =>
    apply kept _ rfl rfl
    rw [hphase]
    rfl
  | refused hphase hready => exact of_finish (congrArg Phase.lead? hphase) rfl rfl rfl
  | failed hphase hanswer => exact of_finish (congrArg Phase.lead? hphase) rfl rfl rfl
  | unstorable hphase hkey => exact of_finish (congrArg Phase.lead? hphase) rfl rfl rfl
  | wrote hphase hresult => exact of_finish (congrArg Phase.lead? hphase) rfl rfl rfl
  | writeFailed hphase hresult => exact of_finish (congrArg Phase.lead? hphase) rfl rfl rfl
  | writeAborted hphase hresult => exact of_finish (congrArg Phase.lead? hphase) rfl rfl rfl
  | _ =>
    refine of_none ?_ rfl rfl rfl
    rw [‹task.phase = _›]
    rfl

end LeadStep

/-- What a step or a departure does to the flight of a request. Who leaves may leave a flight behind. -/
inductive LeadChange (c : Cache σ) (task : Task) (e : Effect σ) : Prop where
  | began {key : String} (hnone : c.flights.lead? key = none)
      (hlead : e.phase.lead? = some ⟨key, c.flights.locks.length⟩)
      (hflights : e.flights = c.flights.start key)
  | ended {guard : Guard} (hold : task.phase.lead? = some guard) (hlead : e.phase.lead? = none)
      (hflights : e.flights = c.flights.finish guard.key guard.lock)
  | kept (hlead : ∀ guard, e.phase.lead? = some guard → task.phase.lead? = some guard)
      (hleads : e.flights.leads = c.flights.leads)
      (hlocks : e.flights.locks.length = c.flights.locks.length)

namespace LeadChange

theorem of_none (hlead : e.phase.lead? = none) (hleads : e.flights.leads = c.flights.leads)
    (hlocks : e.flights.locks.length = c.flights.locks.length) : LeadChange c task e := by
  apply kept _ hleads hlocks
  intro guard hguard
  rw [hlead] at hguard
  nomatch hguard

theorem of_transition [Backend σ] (h : Transition layer c i task e) : LeadChange c task e := by
  cases LeadStep.of_transition h with
  | began _ hnone hlead hflights => exact .began hnone hlead hflights
  | ended hold hlead hflights => exact .ended hold hlead hflights
  | kept hlead hleads hlocks => exact .kept (fun _ hguard => hlead ▸ hguard) hleads hlocks

theorem leave_flights_of_guard? {guard : Guard} (h : guard? task.phase = some guard) :
    (c.leave i task).flights = c.flights.finish guard.key guard.lock := by
  unfold leave
  simp only
  split
  next hphase =>
    rw [hphase] at h
    nomatch h
  next => rw [h]

theorem leave_flights_of_guard?_eq_none (h : guard? task.phase = none) :
    (c.leave i task).flights.leads = c.flights.leads
      ∧ (c.leave i task).flights.locks.length = c.flights.locks.length := by
  unfold leave
  simp only
  split
  next => exact ⟨rfl, Flights.length_modify _ _ _⟩
  next =>
    rw [h]
    exact ⟨rfl, rfl⟩

theorem of_leave (c : Cache σ) (i : Nat) (task : Task) : LeadChange c task (c.leave i task) := by
  cases hguard : guard? task.phase with
  | some guard =>
    refine .ended ?_ rfl (leave_flights_of_guard? hguard)
    unfold Phase.lead?
    split
    next hphase =>
      rw [hphase] at hguard
      nomatch hguard
    next hphase =>
      rw [hphase] at hguard
      nomatch hguard
    next => exact hguard
  | none =>
    have hflights := leave_flights_of_guard?_eq_none (c := c) (i := i) hguard
    exact of_none rfl hflights.1 hflights.2

end LeadChange

/-- Whether a request leads a flight, given by the lock that it holds or asks for. -/
def Leads (c : Cache σ) (i : Nat) (guard : Guard) : Prop :=
  ∃ task, c.tasks[i]? = some task ∧ task.phase.lead? = some guard

/-- That the flights that are led are those that are under way, each led by one request. -/
structure Orderly (c : Cache σ) : Prop where
  lock_lt : ∀ {i guard}, Leads c i guard → guard.lock < c.flights.locks.length
  lead_eq : ∀ {i guard}, Leads c i guard → c.flights.lead? guard.key = some guard.lock
  lock_inj : ∀ {i j guard other}, Leads c i guard → Leads c j other → guard.lock = other.lock →
    i = j

theorem leads_after {k : Nat} {guard : Guard}
    (h : Leads (c.after i task e) k guard) :
    (k = i ∧ e.phase.lead? = some guard) ∨ (k ≠ i ∧ Leads c k guard) := by
  obtain ⟨other, hother, hlead⟩ := h
  cases getElem?_after e hother with
  | inl hself =>
    obtain ⟨rfl, rfl⟩ := hself
    exact .inl ⟨rfl, hlead⟩
  | inr hne => exact .inr ⟨hne.1, other, hne.2, hlead⟩

namespace Orderly

theorem after_began (hc : Orderly c) {key : String} (hnone : c.flights.lead? key = none)
    (hlead : e.phase.lead? = some ⟨key, c.flights.locks.length⟩)
    (hflights : e.flights = c.flights.start key) : Orderly (c.after i task e) := by
  have hstart : (c.after i task e).flights = c.flights.start key := hflights
  have hcases {k guard} (h : Leads (c.after i task e) k guard) :
      (k = i ∧ guard = ⟨key, c.flights.locks.length⟩) ∨ (k ≠ i ∧ Leads c k guard) := by
    cases leads_after h with
    | inl hself =>
      obtain ⟨hk, hguard⟩ := hself
      rw [hlead] at hguard
      exact .inl ⟨hk, (Option.some.inj hguard).symm⟩
    | inr hother => exact .inr hother
  constructor
  . intro k guard h
    rw [hstart, Flights.length_start]
    cases hcases h with
    | inl hself =>
      obtain ⟨-, rfl⟩ := hself
      exact Nat.lt_succ_self _
    | inr hother => exact Nat.lt_succ_of_lt (hc.lock_lt hother.2)
  . intro k guard h
    rw [hstart]
    cases hcases h with
    | inl hself =>
      obtain ⟨-, rfl⟩ := hself
      exact Flights.lead?_start_self _ _
    | inr hother =>
      have hold := hc.lead_eq hother.2
      have hne : guard.key ≠ key := by
        intro heq
        rw [heq, hnone] at hold
        nomatch hold
      rw [Flights.lead?_start_of_ne _ hne, hold]
  . intro k l guard other hk hl hlock
    cases hcases hk with
    | inl hself =>
      obtain ⟨rfl, rfl⟩ := hself
      cases hcases hl with
      | inl hself => exact hself.1.symm
      | inr hother =>
        -- The lock of a new flight is none of those that were there.
        have hlt := hc.lock_lt hother.2
        simp only at hlock
        omega
    | inr hother =>
      cases hcases hl with
      | inl hself =>
        obtain ⟨rfl, rfl⟩ := hself
        have hlt := hc.lock_lt hother.2
        simp only at hlock
        omega
      | inr hother' => exact hc.lock_inj hother.2 hother'.2 hlock

theorem after_ended (hc : Orderly c) (hget : c.tasks[i]? = some task) {ended : Guard}
    (hold : task.phase.lead? = some ended) (hlead : e.phase.lead? = none)
    (hflights : e.flights = c.flights.finish ended.key ended.lock) :
    Orderly (c.after i task e) := by
  have hfinish : (c.after i task e).flights = c.flights.finish ended.key ended.lock := hflights
  have hothers {k guard} (h : Leads (c.after i task e) k guard) : k ≠ i ∧ Leads c k guard := by
    cases leads_after h with
    | inl hself =>
      rw [hlead] at hself
      nomatch hself.2
    | inr hother => exact hother
  constructor
  . intro k guard h
    rw [hfinish, Flights.length_finish]
    exact hc.lock_lt (hothers h).2
  . intro k guard h
    obtain ⟨hne, hleads⟩ := hothers h
    rw [hfinish]
    apply Flights.lead?_finish (hc.lead_eq hleads)
    intro heq
    apply hne
    exact hc.lock_inj hleads ⟨task, hget, hold⟩ (congrArg Prod.snd heq)
  . intro k l guard other hk hl hlock
    exact hc.lock_inj (hothers hk).2 (hothers hl).2 hlock

theorem after_kept (hc : Orderly c) (hget : c.tasks[i]? = some task)
    (hlead : ∀ guard, e.phase.lead? = some guard → task.phase.lead? = some guard)
    (hleads : e.flights.leads = c.flights.leads)
    (hlocks : e.flights.locks.length = c.flights.locks.length) : Orderly (c.after i task e) := by
  have hsame {k guard} (h : Leads (c.after i task e) k guard) : Leads c k guard := by
    cases leads_after h with
    | inl hself =>
      obtain ⟨rfl, hguard⟩ := hself
      exact ⟨task, hget, hlead guard hguard⟩
    | inr hother => exact hother.2
  constructor
  . intro k guard h
    exact Nat.lt_of_lt_of_eq (hc.lock_lt (hsame h)) hlocks.symm
  . intro k guard h
    have hold := hc.lead_eq (hsame h)
    unfold Flights.lead? at hold ⊢
    rw [← hold]
    exact congrArg (List.lookup guard.key) hleads
  . intro k l guard other hk hl hlock
    exact hc.lock_inj (hsame hk) (hsame hl) hlock

theorem after (hc : Orderly c) (hget : c.tasks[i]? = some task) (hchange : LeadChange c task e) :
    Orderly (c.after i task e) := by
  cases hchange with
  | began hnone hlead hflights => exact hc.after_began hnone hlead hflights
  | ended hold hlead hflights => exact hc.after_ended hget hold hlead hflights
  | kept hlead hleads hlocks => exact hc.after_kept hget hlead hleads hlocks

theorem of_environment (hc : Orderly c) {c' : Cache σ}
    (hleads : ∀ {i guard}, Leads c' i guard → Leads c i guard)
    (hflights : c'.flights = c.flights) : Orderly c' := by
  constructor
  . intro i guard h
    rw [hflights]
    exact hc.lock_lt (hleads h)
  . intro i guard h
    rw [hflights]
    exact hc.lead_eq (hleads h)
  . intro i j guard other hi hj hlock
    exact hc.lock_inj (hleads hi) (hleads hj) hlock

theorem move [Backend σ] {drift : σ → σ → Prop} {c' : Cache σ} (hc : Orderly c)
    (hmove : Move layer drift c c') : Orderly c' := by
  apply hmove.rule hc
  . intro job
    refine hc.of_environment ?_ rfl
    intro k guard h
    obtain ⟨task, hget, hlead⟩ := h
    cases getElem?_enlist hget with
    | inl hold => exact ⟨task, hold, hlead⟩
    | inr hnew =>
      obtain ⟨-, rfl⟩ := hnew
      nomatch hlead
  . intro i task e hget h
    exact hc.after hget (.of_transition h)
  . intro i task hget
    exact hc.after hget (.of_leave c i task)
  . intro store clock systemTime _
    exact hc.of_environment id rfl

theorem start (store : σ) (clock systemTime : Time) :
    Orderly (Cache.start store clock systemTime) := by
  constructor
  . intro i guard h
    obtain ⟨task, hget, -⟩ := h
    nomatch hget
  . intro i guard h
    obtain ⟨task, hget, -⟩ := h
    nomatch hget
  . intro i j guard other h
    obtain ⟨task, hget, -⟩ := h
    nomatch hget

/-- No two requests lead at once for one key. -/
theorem eq_of_leads (hc : Orderly c) {i j : Nat} {guard other : Guard} (hi : Leads c i guard)
    (hj : Leads c j other) (hkey : guard.key = other.key) : i = j := by
  have hlock := hc.lead_eq hi
  rw [hkey, hc.lead_eq hj] at hlock
  exact hc.lock_inj hi hj (Option.some.inj hlock).symm

end Orderly

end

end ResponseCache
