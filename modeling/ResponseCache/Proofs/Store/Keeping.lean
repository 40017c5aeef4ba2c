import ResponseCache.Store.Memory

/-!
This module contains the stores that never fail and keep what was written last under a key. The store in
memory is one, under any key, from some time on until the first entry that is written expires.
-/

namespace ResponseCache

theorem Finding.elim_ne_expired (stored : Option Entry) :
    stored.elim Finding.absent Finding.live ≠ .expired := by
  cases stored <;> nofun

/--
That a store, while it observes times of some kind, finds under a key just what it holds there, and holds
there what is written for a span of time. What it holds is told by a relation.
-/
structure Backend.Keeps {σ : Type} [Backend σ] (key : String) (ttl : Duration) (during : Time → Prop)
    (Holds : σ → Option Entry → Prop) : Prop where
  look : ∀ {s : σ} {now : Time} {found : Option Entry}, Holds s found → during now →
    (Backend.look s now key).result = .ok (found.elim .absent .live)
      ∧ Holds (Backend.look s now key).store found
  set : ∀ {s : σ} {now : Time} {found : Option Entry}, Holds s found → during now → ∀ entry,
    (Backend.set s now key entry ttl).result = .ok ()
      ∧ Holds (Backend.set s now key entry ttl).store (some entry)

namespace MemoryStore

variable {key : String} {ttl : Duration} {first now : Time} {s : MemoryStore} {found : Option Entry}

/-- The times before an entry expires that is written at a time or later, and could be written still. -/
def Lasting (ttl : Duration) (first now : Time) : Prop :=
  first ≤ now ∧ now.nanos < first.nanos + ttl.nanos ∧ now.nanos + ttl.nanos < timeBound

instance (ttl : Duration) (first now : Time) : Decidable (Lasting ttl first now) :=
  inferInstanceAs (Decidable (_ ∧ _))

/-- Whether nothing is under a key, or an entry that was written for a span of time at a time or later. -/
def HoldsSince (key : String) (ttl : Duration) (first : Time) (s : MemoryStore) : Option Entry → Prop
  | none => s.table.get? key = none
  | some entry => ∃ expiresAt, s.table.get? key = some ⟨entry, expiresAt⟩
    ∧ first.nanos + ttl.nanos ≤ expiresAt.nanos

theorem look_of_holdsSince (hholds : HoldsSince key ttl first s found) (hnow : Lasting ttl first now) :
    s.look now key = found.elim .absent .live := by
  unfold look
  cases found with
  | none =>
    rw [show s.table.get? key = none from hholds]
    rfl
  | some entry =>
    obtain ⟨expiresAt, hget, hle⟩ := hholds
    have hlive : ¬expiresAt ≤ now := by
      intro hexpired
      have hexpired : expiresAt.nanos ≤ now.nanos := hexpired
      have hlasts := hnow.2.1
      omega
    rw [hget]
    exact if_neg hlive

theorem write_of_lasting (hnow : Lasting ttl first now) (s : MemoryStore) (key : String) (entry : Entry) :
    ∃ s', s.write now key entry ttl = .ok s' ∧ HoldsSince key ttl first s' (some entry) := by
  obtain ⟨hfirst, hlasts, hbound⟩ := hnow
  have hfirst : first.nanos ≤ now.nanos := hfirst
  have hzero : ttl.isZero = false := by
    unfold Duration.isZero
    rw [decide_eq_false_iff_not]
    omega
  have hlow := now.le_nanos
  let expiresAt : Time := ⟨now.nanos + ttl.nanos, by omega, hbound⟩
  have hexpires : now.add? ttl = some expiresAt := Time.add?_eq_some_iff.2 rfl
  refine ⟨s.put key entry expiresAt, ?_, expiresAt, Table.get?_insert_self _ _ _, ?_⟩
  . unfold write
    rw [hzero, hexpires]
    rfl
  . exact Int.add_le_add_right hfirst _

/-- The store in memory keeps what is written until the first entry expires. -/
theorem keeps (key : String) (ttl : Duration) (first : Time) :
    Backend.Keeps key ttl (Lasting ttl first) (HoldsSince key ttl first) where
  look hholds hnow := ⟨congrArg Except.ok (look_of_holdsSince hholds hnow), hholds⟩
  set {s _ _} _ hnow entry := by
    obtain ⟨s', hwrite, hholds⟩ := write_of_lasting hnow s key entry
    simp only [Backend.set, hwrite]
    exact ⟨trivial, hholds⟩

theorem holdsSince_empty (key : String) (ttl : Duration) (first : Time) : HoldsSince key ttl first empty none :=
  rfl

end MemoryStore

end ResponseCache
