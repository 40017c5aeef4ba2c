import Mathlib.Data.List.Nodup
import ResponseCache.Proofs.Layer.Lead

/-!
This module contains who holds the locks of a cache. Those in line for a lock are the requests that are
queued for it, and before them the one that holds it. So it is in every state of a run, whoever goes away.
-/

namespace ResponseCache

namespace Lock

variable {l : Lock} {i j : Nat}

def line (l : Lock) : List Nat :=
  l.holder.toList ++ l.waiters

def ask (task : Nat) (l : Lock) : Lock :=
  match l.holder with
  | none => { l with holder := some task }
  | some _ => { l with waiters := l.waiters ++ [task] }

/-- That nobody is in line twice, and that nobody waits for a lock that is free. -/
structure Fair (l : Lock) : Prop where
  nodup : l.line.Nodup
  waiters_eq_nil : l.holder = none → l.waiters = []

theorem mem_line_of_holder (h : l.holder = some i) : i ∈ l.line := by
  unfold line
  rw [h]
  exact List.mem_cons_self

theorem ask_of_none (h : l.holder = none) : l.ask i = { l with holder := some i } := by
  unfold ask
  rw [h]

theorem ask_of_some (h : l.holder = some j) : l.ask i = { l with waiters := l.waiters ++ [i] } := by
  unfold ask
  rw [h]

theorem forget_of_holder (h : l.holder = some i) : l.forget i = l.release := by
  unfold forget
  rw [if_pos h]

theorem holder_ask (h : l.holder = some j) : (l.ask i).holder = some j := by
  rw [ask_of_some h]
  exact h

theorem holder_forget_of_ne (hne : j ≠ i) (h : l.holder = some j) : (l.forget i).holder = some j := by
  unfold forget
  rw [if_neg]
  . exact h
  . rw [h]
    exact fun heq => hne (Option.some.inj heq)

namespace Fair

theorem free : Lock.free.Fair :=
  ⟨List.nodup_nil, fun _ => rfl⟩

theorem release_of_none (h : l.Fair) (hnone : l.holder = none) :
    release { l with holder := some i } = l := by
  obtain ⟨holder, waiters⟩ := l
  obtain rfl : holder = none := hnone
  obtain rfl : waiters = [] := h.waiters_eq_nil rfl
  rfl

theorem line_ask (h : l.Fair) (i : Nat) : (l.ask i).line = l.line ++ [i] := by
  unfold line
  cases hholder : l.holder with
  | none =>
    rw [ask_of_none hholder, h.waiters_eq_nil hholder]
    rfl
  | some j =>
    rw [ask_of_some hholder, hholder, List.append_assoc]

theorem line_forget (h : l.Fair) (i : Nat) : (l.forget i).line = l.line.erase i := by
  unfold line forget
  cases hholder : l.holder with
  | none =>
    rw [if_neg nofun, h.waiters_eq_nil hholder]
    rfl
  | some j =>
    simp only [Option.some.injEq, Option.toList_some, List.singleton_append]
    split
    next heq =>
      rw [heq, List.erase_cons_head]
      unfold release
      cases l.waiters <;> rfl
    next hne =>
      rw [List.erase_cons_tail (by simpa using hne)]
      rfl

theorem ask (h : l.Fair) (hnot : i ∉ l.line) : (l.ask i).Fair := by
  constructor
  . rw [h.line_ask, List.nodup_append]
    refine ⟨h.nodup, List.nodup_singleton i, ?_⟩
    rintro j hj k hk rfl
    obtain rfl := List.mem_singleton.1 hk
    exact hnot hj
  . intro hnone
    cases hholder : l.holder with
    | none =>
      rw [ask_of_none hholder] at hnone
      nomatch hnone
    | some j =>
      rw [holder_ask hholder] at hnone
      nomatch hnone

theorem forget (h : l.Fair) (i : Nat) : (l.forget i).Fair := by
  constructor
  . rw [h.line_forget]
    exact h.nodup.erase i
  . intro hnone
    unfold Lock.forget at hnone ⊢
    split
    next hholder =>
      rw [if_pos hholder] at hnone
      unfold release at hnone ⊢
      rw [List.head?_eq_none_iff] at hnone
      simp only [hnone, List.tail_nil]
    next hholder =>
      rw [if_neg hholder] at hnone
      simp only [h.waiters_eq_nil hnone, List.erase_nil]

end Fair

end Lock

namespace Flights

variable {f : Flights} {id other : Nat}

theorem lock_start (f : Flights) (key : String) (id : Nat) : (f.start key).lock id = f.lock id := by
  unfold lock start
  simp only [List.getD_eq_getElem?_getD, List.getElem?_append]
  split
  next => rfl
  next hle =>
    rw [List.getElem?_eq_none (Nat.not_lt.1 hle), List.getElem?_singleton]
    split <;> rfl

theorem lock_modify_self (hlt : id < f.locks.length) (change : Lock → Lock) :
    (f.modify id change).lock id = change (f.lock id) := by
  unfold lock modify
  simp only [List.getD_eq_getElem?_getD, List.getElem?_modify_eq, List.getElem?_eq_getElem hlt,
    Option.map_eq_map, Option.map_some, Option.getD_some]

theorem lock_modify_of_ne (hne : other ≠ id) (change : Lock → Lock) :
    (f.modify id change).lock other = f.lock other := by
  unfold lock modify
  simp only [List.getD_eq_getElem?_getD, List.getElem?_modify, if_neg hne.symm, Option.map_eq_map,
    Option.map_id']

theorem holder_modify {change : Lock → Lock} (hchange : ∀ l, (change l).holder = l.holder)
    (f : Flights) (id other : Nat) : ((f.modify id change).lock other).holder = (f.lock other).holder := by
  unfold lock modify
  simp only [List.getD_eq_getElem?_getD, List.getElem?_modify]
  cases f.locks[other]? with
  | none => rfl
  | some l =>
    simp only [Option.map_eq_map, Option.map_some, Option.getD_some]
    split
    next => exact hchange l
    next => rfl

theorem lock_length (f : Flights) : f.lock f.locks.length = .free := by
  unfold lock
  rw [List.getD_eq_getElem?_getD, List.getElem?_eq_none (Nat.le_refl _), Option.getD_none]

theorem mem_leads_of_lead? {key : String} (h : f.lead? key = some id) : (key, id) ∈ f.leads := by
  unfold lead? at h
  obtain ⟨before, after, heq, -⟩ := List.lookup_eq_some_iff.1 h
  rw [heq]
  exact List.mem_append_right _ List.mem_cons_self

end Flights

open Cache

def Phase.lock? : Phase → Option Nat
  | .queued guard _ => some guard.lock
  | phase => (guard? phase).map Guard.lock

/-- The lock that a request asks for, or for which it is in line. -/
def Phase.named? : Phase → Option Nat
  | .locking guard _ => some guard.lock
  | phase => phase.lock?

theorem Phase.lock?_of_guard? {phase : Phase} {guard : Guard} (h : guard? phase = some guard) :
    phase.lock? = some guard.lock := by
  unfold lock?
  split
  next => nomatch h
  next => rw [h, Option.map_some]

theorem Phase.named?_of_lock? {phase : Phase} {id : Nat} (h : phase.lock? = some id) :
    phase.named? = some id := by
  unfold named?
  split
  next => nomatch h
  next => exact h

@[simp]
theorem Phase.lock?_finish (guard : Option Guard) (answer : Answer) :
    (finish guard answer).lock? = guard.map Guard.lock := by
  cases guard <;> rfl

@[simp]
theorem Phase.guard?_finish (guard : Option Guard) (answer : Answer) :
    guard? (finish guard answer) = guard := by
  cases guard <;> rfl

@[simp]
theorem Phase.named?_finish (guard : Option Guard) (answer : Answer) :
    (finish guard answer).named? = guard.map Guard.lock := by
  cases guard <;> rfl

section

variable {σ : Type} {layer : Layer} {c c' : Cache σ} {i : Nat} {task : Task} {e : Effect σ}

/-- That the numbers of locks that are in use are those of locks that were made. -/
structure Numbered (c : Cache σ) : Prop where
  named_lt : ∀ {i : Nat} {task : Task} {id : Nat}, c.tasks[i]? = some task →
    task.phase.named? = some id → id < c.flights.locks.length
  leads_lt : ∀ {lead : String × Nat}, lead ∈ c.flights.leads → lead.2 < c.flights.locks.length

theorem Transition.named?_cases [Backend σ] (h : Transition layer c i task e) {id : Nat}
    (hid : e.phase.named? = some id) :
    task.phase.named? = some id ∨ (∃ key, e.flights = c.flights.start key ∧ id = c.flights.locks.length)
      ∨ ∃ key, c.flights.lead? key = some id := by
  cases h with
  | began => exact .inr (.inl ⟨_, rfl, (Option.some.inj hid).symm⟩)
  | followed hphase hlead =>
    obtain rfl := Option.some.inj hid
    exact .inr (.inr ⟨_, hlead⟩)
  | queued hphase => exact .inl (hphase ▸ hid)
  | ledAtOnce hphase => exact .inl (hphase ▸ hid)
  | led hphase => exact .inl (hphase ▸ hid)
  | called hphase => exact .inl (hphase ▸ hid)
  | paused hphase => exact .inl (hphase ▸ hid)
  | answered hphase => exact .inl (hphase ▸ hid)
  | storable hphase => exact .inl (hphase ▸ hid)
  | refused hphase => exact .inl (hphase ▸ (Phase.named?_finish _ _).symm.trans hid)
  | failed hphase => exact .inl (hphase ▸ (Phase.named?_finish _ _).symm.trans hid)
  | unstorable hphase => exact .inl (hphase ▸ (Phase.named?_finish _ _).symm.trans hid)
  | wrote hphase => exact .inl (hphase ▸ (Phase.named?_finish _ _).symm.trans hid)
  | writeFailed hphase => exact .inl (hphase ▸ (Phase.named?_finish _ _).symm.trans hid)
  | writeAborted hphase => exact .inl (hphase ▸ (Phase.named?_finish _ _).symm.trans hid)
  | _ => nomatch hid

theorem LeadChange.length_le (h : LeadChange c task e) :
    c.flights.locks.length ≤ e.flights.locks.length := by
  cases h with
  | began _ _ hflights =>
    rw [hflights, Flights.length_start]
    exact Nat.le_succ _
  | ended _ _ hflights => exact Nat.le_of_eq (hflights ▸ (Flights.length_finish _ _ _).symm)
  | kept _ _ hlocks => exact Nat.le_of_eq hlocks.symm

theorem LeadChange.lt_of_mem_leads (h : LeadChange c task e) (hc : Numbered c) {lead : String × Nat}
    (hlead : lead ∈ e.flights.leads) : lead.2 < e.flights.locks.length := by
  cases h with
  | began _ _ hflights =>
    rw [hflights] at hlead ⊢
    rw [Flights.length_start]
    cases List.mem_cons.1 hlead with
    | inl hnew =>
      rw [hnew]
      exact Nat.lt_succ_self _
    | inr hold => exact Nat.lt_succ_of_lt (hc.leads_lt hold)
  | ended _ _ hflights =>
    rw [hflights] at hlead ⊢
    rw [Flights.length_finish]
    exact hc.leads_lt (List.mem_of_mem_filter hlead)
  | kept _ hleads hlocks =>
    rw [hleads] at hlead
    rw [hlocks]
    exact hc.leads_lt hlead

namespace Numbered

theorem after (hc : Numbered c) (hchange : LeadChange c task e)
    (hnamed : ∀ {id}, e.phase.named? = some id → id < e.flights.locks.length) :
    Numbered (c.after i task e) where
  named_lt {k other id} hget hid := by
    cases getElem?_after e hget with
    | inl hself =>
      obtain ⟨rfl, rfl⟩ := hself
      exact hnamed hid
    | inr hother => exact Nat.lt_of_lt_of_le (hc.named_lt hother.2 hid) hchange.length_le
  leads_lt hlead := hchange.lt_of_mem_leads hc hlead

theorem after_transition [Backend σ] (hc : Numbered c) (hget : c.tasks[i]? = some task)
    (h : Transition layer c i task e) : Numbered (c.after i task e) := by
  have hchange := LeadChange.of_transition h
  apply hc.after hchange
  intro id hid
  obtain hold | ⟨key, hflights, rfl⟩ | ⟨key, hlead⟩ := h.named?_cases hid
  . exact Nat.lt_of_lt_of_le (hc.named_lt hget hold) hchange.length_le
  . rw [hflights, Flights.length_start]
    exact Nat.lt_succ_self _
  . exact Nat.lt_of_lt_of_le (hc.leads_lt (Flights.mem_leads_of_lead? hlead)) hchange.length_le

end Numbered

def InLine (c : Cache σ) (id : Nat) (i : Nat) : Prop :=
  ∃ task, c.tasks[i]? = some task ∧ task.phase.lock? = some id

theorem inLine_iff {id : Nat} (hget : c.tasks[i]? = some task) :
    InLine c id i ↔ task.phase.lock? = some id := by
  constructor
  . rintro ⟨other, hother, hlock⟩
    obtain rfl := Option.some.inj (hget.symm.trans hother)
    exact hlock
  . exact fun hlock => ⟨task, hget, hlock⟩

theorem inLine_after_of_ne {id k : Nat} (hne : k ≠ i) :
    InLine (c.after i task e) id k ↔ InLine c id k := by
  unfold InLine after
  simp only [List.getElem?_set_ne hne.symm]

/-- That those in line for a lock are the requests that wait for it or hold it. -/
structure Lined (c : Cache σ) : Prop where
  fair : ∀ id, (c.flights.lock id).Fair
  mem_line_iff : ∀ {id i : Nat}, i ∈ (c.flights.lock id).line ↔ InLine c id i
  holder_eq : ∀ {i : Nat} {task : Task} {guard : Guard}, c.tasks[i]? = some task →
    guard? task.phase = some guard → (c.flights.lock guard.lock).holder = some i

/-- What a step does to the line of a request: it gets in line or leaves it, or stays where it is. -/
inductive LineChange (c : Cache σ) (i : Nat) (task : Task) (e : Effect σ) : Prop where
  | kept (hlock : e.phase.lock? = task.phase.lock?)
      (hguard : ∀ {guard}, guard? e.phase = some guard → (c.flights.lock guard.lock).holder = some i)
      (hlocks : ∀ id, e.flights.lock id = c.flights.lock id)
  | asked {id : Nat} (hold : task.phase.lock? = none) (hnew : e.phase.lock? = some id)
      (hguard : ∀ {guard}, guard? e.phase = some guard → (c.flights.lock id).holder = none)
      (hself : e.flights.lock id = (c.flights.lock id).ask i)
      (hothers : ∀ other, other ≠ id → e.flights.lock other = c.flights.lock other)
  | left {id : Nat} (hold : task.phase.lock? = some id) (hnew : e.phase.lock? = none)
      (hself : e.flights.lock id = (c.flights.lock id).forget i)
      (hothers : ∀ other, other ≠ id → e.flights.lock other = c.flights.lock other)

namespace Lined

theorem after_of_lines (hc : Lined c) (hget : c.tasks[i]? = some task)
    (hfair : ∀ id, (e.flights.lock id).Fair)
    (hself : ∀ id, i ∈ (e.flights.lock id).line ↔ e.phase.lock? = some id)
    (hothers : ∀ id k, k ≠ i → (k ∈ (e.flights.lock id).line ↔ k ∈ (c.flights.lock id).line))
    (hguard : ∀ {guard}, guard? e.phase = some guard → (e.flights.lock guard.lock).holder = some i)
    (hholder : ∀ id k, k ≠ i → (c.flights.lock id).holder = some k → (e.flights.lock id).holder = some k) :
    Lined (c.after i task e) where
  fair := hfair
  mem_line_iff {id k} := by
    by_cases heq : k = i
    . subst heq
      rw [inLine_iff (getElem?_after_self hget e)]
      exact hself id
    . rw [inLine_after_of_ne heq, ← hc.mem_line_iff]
      exact hothers id k heq
  holder_eq {k other guard} hother hk := by
    cases getElem?_after e hother with
    | inl hself =>
      obtain ⟨rfl, rfl⟩ := hself
      exact hguard hk
    | inr hother => exact hholder _ k hother.1 (hc.holder_eq hother.2 hk)

theorem after_kept (hc : Lined c) (hget : c.tasks[i]? = some task)
    (hlock : e.phase.lock? = task.phase.lock?)
    (hguard : ∀ {guard}, guard? e.phase = some guard → (c.flights.lock guard.lock).holder = some i)
    (hlocks : ∀ id, e.flights.lock id = c.flights.lock id) : Lined (c.after i task e) := by
  refine hc.after_of_lines hget ?_ ?_ ?_ ?_ ?_
  . exact fun id => hlocks id ▸ hc.fair id
  . intro id
    rw [hlocks, hc.mem_line_iff, inLine_iff hget, hlock]
  . intro id k _
    rw [hlocks]
  . intro guard hk
    rw [hlocks, hguard hk]
  . intro id k _ hk
    rw [hlocks, hk]

theorem after_asked (hc : Lined c) (hget : c.tasks[i]? = some task) {id : Nat}
    (hold : task.phase.lock? = none) (hnew : e.phase.lock? = some id)
    (hguard : ∀ {guard}, guard? e.phase = some guard → (c.flights.lock id).holder = none)
    (hself : e.flights.lock id = (c.flights.lock id).ask i)
    (hothers : ∀ other, other ≠ id → e.flights.lock other = c.flights.lock other) :
    Lined (c.after i task e) := by
  have hnot (other : Nat) : i ∉ (c.flights.lock other).line := by
    rw [hc.mem_line_iff, inLine_iff hget, hold]
    nofun
  refine hc.after_of_lines hget ?_ ?_ ?_ ?_ ?_
  . intro other
    by_cases heq : other = id
    . rw [heq, hself]
      exact (hc.fair id).ask (hnot id)
    . rw [hothers other heq]
      exact hc.fair other
  . intro other
    rw [hnew]
    by_cases heq : other = id
    . rw [heq, hself, (hc.fair id).line_ask]
      exact iff_of_true (List.mem_append_right _ (List.mem_singleton_self i)) rfl
    . rw [hothers other heq]
      exact iff_of_false (hnot other) fun h => heq (Option.some.inj h).symm
  . intro other k hne
    by_cases heq : other = id
    . rw [heq, hself, (hc.fair id).line_ask, List.mem_append, List.mem_singleton]
      exact or_iff_left hne
    . rw [hothers other heq]
  . intro guard hk
    obtain rfl : guard.lock = id := Option.some.inj ((Phase.lock?_of_guard? hk).symm.trans hnew)
    rw [hself, Lock.ask_of_none (hguard hk)]
  . intro other k _ hk
    by_cases heq : other = id
    . rw [heq] at hk ⊢
      rw [hself]
      exact Lock.holder_ask hk
    . rw [hothers other heq, hk]

theorem after_left (hc : Lined c) (hget : c.tasks[i]? = some task) {id : Nat}
    (hold : task.phase.lock? = some id) (hnew : e.phase.lock? = none)
    (hself : e.flights.lock id = (c.flights.lock id).forget i)
    (hothers : ∀ other, other ≠ id → e.flights.lock other = c.flights.lock other) :
    Lined (c.after i task e) := by
  refine hc.after_of_lines hget ?_ ?_ ?_ ?_ ?_
  . intro other
    by_cases heq : other = id
    . rw [heq, hself]
      exact (hc.fair id).forget i
    . rw [hothers other heq]
      exact hc.fair other
  . intro other
    rw [hnew]
    refine iff_of_false ?_ nofun
    by_cases heq : other = id
    . rw [heq, hself, (hc.fair id).line_forget]
      exact (hc.fair id).nodup.not_mem_erase
    . rw [hothers other heq, hc.mem_line_iff, inLine_iff hget, hold]
      exact fun h => heq (Option.some.inj h).symm
  . intro other k hne
    by_cases heq : other = id
    . rw [heq, hself, (hc.fair id).line_forget, List.mem_erase_of_ne hne]
    . rw [hothers other heq]
  . intro guard hk
    nomatch hnew.symm.trans (Phase.lock?_of_guard? hk)
  . intro other k hne hk
    by_cases heq : other = id
    . rw [heq] at hk ⊢
      rw [hself]
      exact Lock.holder_forget_of_ne hne hk
    . rw [hothers other heq, hk]

theorem after (hc : Lined c) (hget : c.tasks[i]? = some task) (hchange : LineChange c i task e) :
    Lined (c.after i task e) := by
  cases hchange with
  | kept hlock hguard hlocks => exact hc.after_kept hget hlock hguard hlocks
  | asked hold hnew hguard hself hothers => exact hc.after_asked hget hold hnew hguard hself hothers
  | left hold hnew hself hothers => exact hc.after_left hget hold hnew hself hothers

end Lined

namespace LineChange

theorem of_none (hold : task.phase.lock? = none) (hnew : e.phase.lock? = none)
    (hlocks : e.flights = c.flights) : LineChange c i task e := by
  refine kept (hnew.trans hold.symm) ?_ ?_
  . intro guard hguard
    nomatch hnew.symm.trans (Phase.lock?_of_guard? hguard)
  . intro id
    rw [hlocks]

theorem of_guard? (hc : Lined c) (hget : c.tasks[i]? = some task) (hlock : e.phase.lock? = task.phase.lock?)
    (hguard : guard? e.phase = guard? task.phase) (hlocks : e.flights = c.flights) :
    LineChange c i task e := by
  refine kept hlock ?_ ?_
  . intro guard h
    exact hc.holder_eq hget (hguard ▸ h)
  . intro id
    rw [hlocks]

theorem of_modify (hnumbered : Numbered c) (hget : c.tasks[i]? = some task) {id : Nat}
    (hold : task.phase.lock? = some id) (hnew : e.phase.lock? = none) {change : Lock → Lock}
    (hchange : change (c.flights.lock id) = (c.flights.lock id).forget i)
    (hlocks : e.flights.locks = (c.flights.modify id change).locks) : LineChange c i task e := by
  have hlt := hnumbered.named_lt hget (Phase.named?_of_lock? hold)
  have hlock (other : Nat) : e.flights.lock other = (c.flights.modify id change).lock other := by
    unfold Flights.lock
    rw [hlocks]
  refine left hold hnew ?_ ?_
  . rw [hlock, Flights.lock_modify_self hlt, hchange]
  . intro other hne
    rw [hlock, Flights.lock_modify_of_ne hne]

theorem of_asking (hnumbered : Numbered c) (hget : c.tasks[i]? = some task) {guard : Guard} {role : Role}
    (hphase : task.phase = .locking guard role) (hnew : e.phase.lock? = some guard.lock)
    (hguard : ∀ {held}, guard? e.phase = some held → (c.flights.lock guard.lock).holder = none)
    {change : Lock → Lock} (hchange : change (c.flights.lock guard.lock) = (c.flights.lock guard.lock).ask i)
    (hlocks : e.flights = c.flights.modify guard.lock change) : LineChange c i task e := by
  have hlt : guard.lock < c.flights.locks.length := by
    apply hnumbered.named_lt hget
    rw [hphase]
    rfl
  refine asked (hphase ▸ rfl) hnew hguard ?_ ?_
  . rw [hlocks, Flights.lock_modify_self hlt, hchange]
  . intro other hne
    rw [hlocks, Flights.lock_modify_of_ne hne]

theorem of_finish (hc : Lined c) (hget : c.tasks[i]? = some task) {guard : Option Guard} {answer : Answer}
    (hlock : task.phase.lock? = guard.map Guard.lock) (hguard : guard? task.phase = guard)
    (hphase : e.phase = .finish guard answer) (hlocks : e.flights = c.flights) :
    LineChange c i task e := by
  apply of_guard? hc hget _ _ hlocks
  . rw [hphase, Phase.lock?_finish, hlock]
  . rw [hphase, Phase.guard?_finish, hguard]

theorem of_transition [Backend σ] (hnumbered : Numbered c) (hc : Lined c) (hget : c.tasks[i]? = some task)
    (h : Transition layer c i task e) : LineChange c i task e := by
  cases h with
  | began hphase =>
    refine kept (hphase ▸ rfl) nofun ?_
    exact fun id => Flights.lock_start _ _ id
  | queued hphase hholder =>
    exact of_asking hnumbered hget hphase rfl nofun (Lock.ask_of_some hholder).symm rfl
  | ledAtOnce hphase hholder =>
    exact of_asking hnumbered hget hphase rfl (fun _ => hholder) (Lock.ask_of_none hholder).symm rfl
  | @followedAtOnce guard hphase hholder =>
    -- The follower is in line only for as long as this step takes.
    refine kept (hphase ▸ rfl) nofun ?_
    have hlt : guard.lock < c.flights.locks.length := by
      apply hnumbered.named_lt hget
      rw [hphase]
      rfl
    intro id
    by_cases heq : id = guard.lock
    . rw [heq, Flights.lock_modify_self (by rwa [Flights.length_modify]), Flights.lock_modify_self hlt]
      exact (hc.fair guard.lock).release_of_none hholder
    . rw [Flights.lock_modify_of_ne heq, Flights.lock_modify_of_ne heq]
  | led hphase hholder =>
    refine kept (hphase ▸ rfl) ?_ fun _ => rfl
    intro guard hguard
    obtain rfl := Option.some.inj hguard
    exact hholder
  | waited hphase hholder =>
    exact of_modify hnumbered hget (hphase ▸ rfl) rfl (Lock.forget_of_holder hholder).symm rfl
  | @landed guard answer hphase =>
    have hguard : guard? task.phase = some guard := hphase ▸ rfl
    have hholder := hc.holder_eq hget hguard
    exact of_modify hnumbered hget (hphase ▸ rfl) rfl (Lock.forget_of_holder hholder).symm rfl
  | called hphase => exact of_guard? hc hget (hphase ▸ rfl) (hphase ▸ rfl) rfl
  | paused hphase => exact of_guard? hc hget (hphase ▸ rfl) (hphase ▸ rfl) rfl
  | answered hphase => exact of_guard? hc hget (hphase ▸ rfl) (hphase ▸ rfl) rfl
  | storable hphase => exact of_guard? hc hget (hphase ▸ rfl) (hphase ▸ rfl) rfl
  | refused hphase => exact of_finish hc hget (hphase ▸ rfl) (hphase ▸ rfl) rfl rfl
  | failed hphase => exact of_finish hc hget (hphase ▸ rfl) (hphase ▸ rfl) rfl rfl
  | unstorable hphase => exact of_finish hc hget (hphase ▸ rfl) (hphase ▸ rfl) rfl rfl
  | wrote hphase => exact of_finish hc hget (hphase ▸ rfl) (hphase ▸ rfl) rfl rfl
  | writeFailed hphase => exact of_finish hc hget (hphase ▸ rfl) (hphase ▸ rfl) rfl rfl
  | writeAborted hphase => exact of_finish hc hget (hphase ▸ rfl) (hphase ▸ rfl) rfl rfl
  | _ =>
    refine of_none ?_ rfl rfl
    rw [‹task.phase = _›]
    rfl

theorem of_leave (hnumbered : Numbered c) (hc : Lined c) (hget : c.tasks[i]? = some task) :
    LineChange c i task (c.leave i task) := by
  cases hguard : guard? task.phase with
  | some guard =>
    refine of_modify hnumbered hget (Phase.lock?_of_guard? hguard) rfl
      (Lock.forget_of_holder (hc.holder_eq hget hguard)).symm ?_
    rw [LeadChange.leave_flights_of_guard? hguard]
    rfl
  | none =>
    by_cases hqueued : ∃ guard role, task.phase = .queued guard role
    . obtain ⟨guard, role, hphase⟩ := hqueued
      have hlock : task.phase.lock? = some guard.lock := hphase ▸ rfl
      refine of_modify hnumbered hget hlock rfl rfl ?_
      unfold leave
      rw [hphase]
    . have hnone : task.phase.lock? = none := by
        unfold Phase.lock?
        split
        next guard role hphase => exact absurd ⟨guard, role, hphase⟩ hqueued
        next => rw [hguard, Option.map_none]
      refine of_none hnone rfl ?_
      unfold leave
      simp only
      split
      next guard role hphase => exact absurd ⟨guard, role, hphase⟩ hqueued
      next => rw [hguard]

end LineChange

structure Governed (c : Cache σ) : Prop where
  numbered : Numbered c
  lined : Lined c

namespace Governed

theorem start (store : σ) (clock systemTime : Time) : Governed (Cache.start store clock systemTime) where
  numbered.named_lt hget := nomatch hget
  numbered.leads_lt hlead := nomatch hlead
  lined.fair _ := .free
  lined.mem_line_iff := by
    refine iff_of_false nofun ?_
    rintro ⟨task, hget, -⟩
    nomatch hget
  lined.holder_eq hget := nomatch hget

theorem enlist (hc : Governed c) (job : Job) : Governed (c.enlist job).1 where
  numbered.named_lt hget hid := by
    cases getElem?_enlist hget with
    | inl hold => exact hc.numbered.named_lt hold hid
    | inr hnew =>
      obtain ⟨-, rfl⟩ := hnew
      nomatch hid
  numbered.leads_lt hlead := hc.numbered.leads_lt hlead
  lined.fair id := hc.lined.fair id
  lined.mem_line_iff {id k} := by
    refine Iff.trans hc.lined.mem_line_iff ⟨?_, ?_⟩
    . rintro ⟨task, hget, hlock⟩
      exact ⟨task, getElem?_of_isPrefix (List.prefix_append _ _) hget, hlock⟩
    . rintro ⟨task, hget, hlock⟩
      cases getElem?_enlist hget with
      | inl hold => exact ⟨task, hold, hlock⟩
      | inr hnew =>
        obtain ⟨-, rfl⟩ := hnew
        nomatch hlock
  lined.holder_eq hget hguard := by
    cases getElem?_enlist hget with
    | inl hold => exact hc.lined.holder_eq hold hguard
    | inr hnew =>
      obtain ⟨-, rfl⟩ := hnew
      nomatch hguard

theorem move [Backend σ] {drift : σ → σ → Prop} (hc : Governed c) (hmove : Move layer drift c c') :
    Governed c' := by
  apply hmove.rule hc hc.enlist
  . intro i task e hget h
    have hnumbered := hc.numbered.after_transition hget h
    exact ⟨hnumbered, hc.lined.after hget (.of_transition hc.numbered hc.lined hget h)⟩
  . intro i task hget
    refine ⟨hc.numbered.after (.of_leave c i task) nofun, ?_⟩
    exact hc.lined.after hget (.of_leave hc.numbered hc.lined hget)
  . intro store clock systemTime _
    exact ⟨⟨hc.numbered.named_lt, hc.numbered.leads_lt⟩,
      ⟨hc.lined.fair, hc.lined.mem_line_iff, hc.lined.holder_eq⟩⟩

end Governed

theorem governed_of_reachable [Backend σ] {drift : σ → σ → Prop} {store : σ} {clock systemTime : Time}
    (hreach : Reachable layer drift (start store clock systemTime) c) : Governed c :=
  hreach.invariant (.start store clock systemTime) Governed.move

/-- Whoever waits for a lock waits for a request that holds it. -/
theorem Governed.exists_holder (hc : Governed c) (hget : c.tasks[i]? = some task) {guard : Guard} {role : Role}
    (hphase : task.phase = .queued guard role) :
    ∃ k, (c.flights.lock guard.lock).holder = some k ∧ InLine c guard.lock k := by
  have hline : i ∈ (c.flights.lock guard.lock).line := by
    rw [hc.lined.mem_line_iff, inLine_iff hget, hphase]
    rfl
  cases hholder : (c.flights.lock guard.lock).holder with
  | none =>
    unfold Lock.line at hline
    rw [hholder, (hc.lined.fair guard.lock).waiters_eq_nil hholder] at hline
    nomatch hline
  | some k => exact ⟨k, rfl, hc.lined.mem_line_iff.1 (Lock.mem_line_of_holder hholder)⟩

end

end ResponseCache
