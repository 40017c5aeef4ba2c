import ResponseCache.Proofs.Text.Pieces
import ResponseCache.Text.Number

/-!
This module contains what is left of a text when its letters are put in lower case: its blanks, its quotes and
its numerals stay where they are.
-/

namespace ResponseCache.Text

/-- A letter in upper case gets another code point, all other characters stay. -/
theorem toLower_eq_or (c : Char) :
    c.toLower = c ∨ ('A'.toNat ≤ c.toNat ∧ c.toNat ≤ 'Z'.toNat ∧ c.toLower.toNat = c.toNat + 32) := by
  unfold Char.toLower
  split
  next hupper =>
    have hlow : 'A'.toNat ≤ c.toNat := hupper.1
    have hhigh : c.toNat ≤ 'Z'.toNat := hupper.2
    have hz : 'Z'.toNat = 90 := rfl
    refine .inr ⟨hlow, hhigh, ?_⟩
    change (c.val + 32).toNat = c.toNat + 32
    rw [UInt32.toNat_add]
    exact Nat.mod_eq_of_lt (show c.toNat + 32 < 2 ^ 32 by omega)
  next => exact .inl rfl

theorem isDigit_iff {c : Char} : isDigit c = true ↔ 48 ≤ c.toNat ∧ c.toNat ≤ 57 := by
  unfold isDigit
  rw [Bool.and_eq_true, decide_eq_true_eq, decide_eq_true_eq]
  exact Iff.rfl

theorem isBlank_of_isDigit {c : Char} (h : isDigit c = true) : isBlank c = false := by
  rw [isDigit_iff] at h
  apply Bool.eq_false_iff.2
  intro hblank
  simp only [isBlank, blankRanges, List.any_cons, List.any_nil, Bool.or_false, Bool.or_eq_true,
    Bool.and_eq_true, decide_eq_true_eq] at hblank
  omega

theorem isDigit_toLower (c : Char) : isDigit c.toLower = isDigit c := by
  have hA : 'A'.toNat = 65 := rfl
  obtain heq | ⟨hlow, -, hlower⟩ := toLower_eq_or c
  . rw [heq]
  . rw [Bool.eq_iff_iff, isDigit_iff, isDigit_iff]
    omega

theorem isBlank_toLower (c : Char) : isBlank c.toLower = isBlank c := by
  have hA : 'A'.toNat = 65 := rfl
  have hz : 'Z'.toNat = 90 := rfl
  obtain heq | ⟨hlow, hhigh, hlower⟩ := toLower_eq_or c
  . rw [heq]
  . rw [Bool.eq_iff_iff]
    simp only [isBlank, blankRanges, List.any_cons, List.any_nil, Bool.or_false, Bool.or_eq_true,
      Bool.and_eq_true, decide_eq_true_eq]
    omega

theorem toLower_eq_iff {c mark : Char} (hmark : mark.toNat < 'A'.toNat) : c.toLower = mark ↔ c = mark := by
  obtain heq | ⟨hlow, -, hlower⟩ := toLower_eq_or c
  . rw [heq]
  . constructor
    . rintro rfl
      omega
    . rintro rfl
      omega

theorem toLower_toLower (c : Char) : c.toLower.toLower = c.toLower := by
  have hA : 'A'.toNat = 65 := rfl
  have hz : 'Z'.toNat = 90 := rfl
  obtain heq | ⟨hlow, -, hlower⟩ := toLower_eq_or c
  . rw [heq, heq]
  . obtain heq | ⟨-, hhigh, -⟩ := toLower_eq_or c.toLower
    . exact heq
    . omega

theorem toLower_of_isDigit {c : Char} (h : isDigit c = true) : c.toLower = c := by
  have hA : 'A'.toNat = 65 := rfl
  rw [isDigit_iff] at h
  obtain heq | ⟨hlow, -, -⟩ := toLower_eq_or c
  . exact heq
  . omega

theorem natural?_map_toLower (cs : List Char) : natural? (cs.map Char.toLower) = natural? cs := by
  have hall : (cs.map Char.toLower).all isDigit = cs.all isDigit := by
    rw [List.all_map]
    congr
    funext c
    exact isDigit_toLower c
  simp only [natural?, hall, ne_eq, List.map_eq_nil_iff]
  split
  next hdigits =>
    have hself : cs.map Char.toLower = cs := by
      rw [List.map_congr_left fun c hc => toLower_of_isDigit (List.all_eq_true.1 hdigits.2 c hc)]
      exact List.map_id' cs
    rw [hself]
  next => rfl

def unsigned (cs : List Char) : List Char :=
  if cs.head? = some '+' then cs.tail else cs

theorem word?_eq_unsigned (cs : List Char) : word? cs = (natural? (unsigned cs)).filter (· < UInt64.size) := by
  unfold word? unsigned
  split
  next rest => simp
  next hplus =>
    rw [if_neg]
    intro hhead
    obtain ⟨rest, rfl⟩ := List.head?_eq_some_iff.1 hhead
    exact hplus rest rfl

theorem word?_map_toLower (cs : List Char) : word? (cs.map Char.toLower) = word? cs := by
  have hplus : ∀ c : Char, c.toLower = '+' ↔ c = '+' := fun c => toLower_eq_iff (by decide)
  have hunsigned : unsigned (cs.map Char.toLower) = (unsigned cs).map Char.toLower := by
    unfold unsigned
    cases cs with
    | nil => rfl
    | cons c cs =>
      simp only [List.map_cons, List.head?_cons, Option.some.injEq, hplus, List.tail_cons]
      split <;> rfl
  rw [word?_eq_unsigned, word?_eq_unsigned, hunsigned, natural?_map_toLower]

theorem natural?_eq_none {cs : List Char} {c : Char} (hmem : c ∈ cs) (hdigit : isDigit c = false) :
    natural? cs = none := by
  unfold natural?
  rw [if_neg]
  rintro ⟨-, hall⟩
  exact absurd (List.all_eq_true.1 hall c hmem) (Bool.eq_false_iff.1 hdigit)

theorem word?_eq_none {cs : List Char} {c : Char} (hmem : c ∈ cs) (hdigit : isDigit c = false)
    (hplus : c ≠ '+') : word? cs = none := by
  have hunsigned : c ∈ unsigned cs := by
    unfold unsigned
    split
    next hhead =>
      obtain ⟨rest, rfl⟩ := List.head?_eq_some_iff.1 hhead
      exact (List.mem_cons.1 hmem).resolve_left hplus
    next => exact hmem
  rw [word?_eq_unsigned, natural?_eq_none hunsigned hdigit]
  rfl

theorem word?_of_head?_ne {cs : List Char} (h : cs.head? ≠ some '+') :
    word? cs = (natural? cs).filter (· < UInt64.size) := by
  rw [word?_eq_unsigned, unsigned, if_neg h]

end ResponseCache.Text
