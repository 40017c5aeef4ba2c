/-!
This module contains finite tables from texts to values, in which a key has at most one value.
-/

namespace ResponseCache

/-- A table, as the keys with their values. Of two pairs with the same key the first counts. -/
structure Table (α : Type) where
  pairs : List (String × α)
  deriving Repr

namespace Table

def empty : Table α :=
  ⟨[]⟩

def get? (t : Table α) (key : String) : Option α :=
  t.pairs.lookup key

def erase (t : Table α) (key : String) : Table α :=
  ⟨t.pairs.filter fun (k, _) => k ≠ key⟩

def insert (t : Table α) (key : String) (value : α) : Table α :=
  ⟨(key, value) :: (t.erase key).pairs⟩

@[simp]
theorem get?_empty (key : String) : (empty : Table α).get? key = none := rfl

theorem get?_erase_self (t : Table α) (key : String) : (t.erase key).get? key = none := by
  simp only [get?, erase, List.lookup_eq_none_iff, List.mem_filter]
  rintro ⟨k, v⟩ ⟨-, hk⟩
  simp only [ne_eq, decide_not, Bool.not_eq_true', decide_eq_false_iff_not] at hk
  exact bne_iff_ne.2 (Ne.symm hk)

theorem get?_erase_of_ne (t : Table α) {key other : String} (h : other ≠ key) :
    (t.erase key).get? other = t.get? other := by
  obtain ⟨pairs⟩ := t
  simp only [get?, erase]
  induction pairs with
  | nil => rfl
  | cons p pairs ih =>
    obtain ⟨k, v⟩ := p
    rw [List.filter_cons]
    split
    . rw [List.lookup_cons, List.lookup_cons, ih]
    . rename_i hk
      have heq : k = key := by simpa using hk
      rw [ih, List.lookup_cons, heq, beq_eq_false_iff_ne.2 h]

@[simp]
theorem get?_insert_self (t : Table α) (key : String) (value : α) :
    (t.insert key value).get? key = some value := by
  simp only [get?, insert, List.lookup_cons, beq_self_eq_true]

theorem get?_insert_of_ne (t : Table α) {key other : String} (value : α) (h : other ≠ key) :
    (t.insert key value).get? other = t.get? other := by
  rw [← get?_erase_of_ne t h]
  simp only [get?, insert, List.lookup_cons, beq_eq_false_iff_ne.2 h]

end Table

end ResponseCache
