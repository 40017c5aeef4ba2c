/-!
This module contains sets of status codes, as configurations name them: any numbers of 16 bits, kept
in ascending order.
-/

namespace ResponseCache

abbrev Word16 := Fin UInt16.size

/-- A set of codes, each of them once. -/
structure StatusSet where
  codes : List Word16
  ascending : codes.Pairwise (· < ·)
  deriving DecidableEq, Repr

namespace StatusSet

def empty : StatusSet :=
  ⟨[], .nil⟩

/-- Puts a code into ascending ones, unless it is one of them. -/
def insertCode (n : Word16) : List Word16 → List Word16
  | [] => [n]
  | m :: ms => if n < m then n :: m :: ms else if n = m then m :: ms else m :: insertCode n ms

theorem mem_insertCode {n c : Word16} {ms : List Word16} :
    c ∈ insertCode n ms ↔ c = n ∨ c ∈ ms := by
  induction ms with
  | nil => simp [insertCode]
  | cons m ms ih =>
    unfold insertCode
    split
    . simp
    . split
      . rename_i h
        simp [h]
      . simp only [List.mem_cons, ih]
        exact or_left_comm

theorem pairwise_insertCode (n : Word16) {ms : List Word16} (h : ms.Pairwise (· < ·)) :
    (insertCode n ms).Pairwise (· < ·) := by
  induction ms with
  | nil => simp [insertCode]
  | cons m ms ih =>
    rw [List.pairwise_cons] at h
    unfold insertCode
    split
    . rename_i hlt
      refine List.pairwise_cons.2 ⟨fun c hc => ?_, List.pairwise_cons.2 h⟩
      rcases List.mem_cons.1 hc with rfl | hc
      . exact hlt
      . exact Nat.lt_trans hlt (h.1 c hc)
    . split
      . exact List.pairwise_cons.2 h
      . rename_i hle hne
        have hlt : m < n := by
          simp only [Fin.lt_def, Fin.ext_iff] at hle hne ⊢
          omega
        refine List.pairwise_cons.2 ⟨fun c hc => ?_, ih h.2⟩
        rcases mem_insertCode.1 hc with rfl | hc
        . exact hlt
        . exact h.1 c hc

def insert (n : Word16) (s : StatusSet) : StatusSet :=
  ⟨insertCode n s.codes, pairwise_insertCode n s.ascending⟩

def ofList (codes : List Word16) : StatusSet :=
  codes.foldr insert empty

def toList (s : StatusSet) : List Nat :=
  s.codes.map Fin.val

/-- A set is made of its own codes. -/
theorem ofList_codes (s : StatusSet) : ofList s.codes = s := by
  obtain ⟨codes, h⟩ := s
  induction codes with
  | nil => rfl
  | cons n ms ih =>
    have hms := (List.pairwise_cons.1 h).2
    have hfold : ofList ms = ⟨ms, hms⟩ := ih hms
    change insert n (ofList ms) = _
    rw [hfold]
    simp only [insert, mk.injEq]
    cases ms with
    | nil => rfl
    | cons m ms => simp [insertCode, (List.pairwise_cons.1 h).1 m]

end StatusSet

end ResponseCache
