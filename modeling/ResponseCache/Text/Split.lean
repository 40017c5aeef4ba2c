/-!
This module contains the cutting of text at a separator: into all its pieces, or once.
-/

namespace ResponseCache.Text

/--
The pieces of a text between the separators. A text without separator is one piece, so there is
always at least one.
-/
def splitOn (sep : Char) : List Char → List (List Char)
  | [] => [[]]
  | c :: cs => if c = sep then [] :: splitOn sep cs else (splitOn sep cs).modifyHead (c :: ·)

/-- The parts before and after the first separator, if there is one. -/
def splitOnce (sep : Char) : List Char → Option (List Char × List Char)
  | [] => none
  | c :: cs =>
    if c = sep then
      some ([], cs)
    else
      (splitOnce sep cs).map fun (before, after) => (c :: before, after)

theorem splitOn_ne_nil (sep : Char) (cs : List Char) : splitOn sep cs ≠ [] := by
  induction cs with
  | nil => simp [splitOn]
  | cons c cs ih =>
    unfold splitOn
    split
    . simp
    . cases h : splitOn sep cs with
      | nil => exact absurd h ih
      | cons p ps => simp

theorem splitOn_of_not_mem {sep : Char} {cs : List Char} (h : sep ∉ cs) :
    splitOn sep cs = [cs] := by
  induction cs with
  | nil => rfl
  | cons c cs ih =>
    simp only [List.mem_cons, not_or] at h
    simp [splitOn, Ne.symm h.1, ih h.2]

/-- A separator between two texts ends the last piece of the first and starts a piece. -/
theorem splitOn_append_sep (sep : Char) (as bs : List Char) :
    splitOn sep (as ++ sep :: bs) = splitOn sep as ++ splitOn sep bs := by
  induction as with
  | nil => simp [splitOn]
  | cons a as ih =>
    simp only [List.cons_append, splitOn, ih]
    split
    . simp
    . cases h : splitOn sep as with
      | nil => exact absurd h (splitOn_ne_nil sep as)
      | cons p ps => simp

theorem splitOnce_append_sep {sep : Char} {as : List Char} (h : sep ∉ as) (bs : List Char) :
    splitOnce sep (as ++ sep :: bs) = some (as, bs) := by
  induction as with
  | nil => simp [splitOnce]
  | cons a as ih =>
    simp only [List.mem_cons, not_or] at h
    simp [splitOnce, Ne.symm h.1, ih h.2]

/-- What comes before and after the first separator can be told apart. -/
theorem append_sep_inj {α : Type} {sep : α} {as bs xs ys : List α} (has : sep ∉ as) (hbs : sep ∉ bs)
    (h : as ++ sep :: xs = bs ++ sep :: ys) : as = bs ∧ xs = ys := by
  induction as generalizing bs with
  | nil =>
    cases bs with
    | nil => exact ⟨rfl, (List.cons.inj h).2⟩
    | cons b bs =>
      simp only [List.nil_append, List.cons_append, List.cons.injEq] at h
      simp [h.1] at hbs
  | cons a as ih =>
    cases bs with
    | nil =>
      simp only [List.nil_append, List.cons_append, List.cons.injEq] at h
      simp [h.1] at has
    | cons b bs =>
      rw [List.mem_cons, not_or] at has hbs
      simp only [List.cons_append, List.cons.injEq] at h
      obtain ⟨hinit, hrest⟩ := ih has.2 hbs.2 h.2
      exact ⟨by rw [h.1, hinit], hrest⟩

end ResponseCache.Text
