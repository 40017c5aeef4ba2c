import Mathlib.Data.List.TakeDrop
import Mathlib.Data.List.TakeWhile
import ResponseCache.Text.Blank
import ResponseCache.Text.Split

/-!
This module contains what the pieces of a text have to do with it: they are what stands between two
separators, and they are found again when they are joined. Blanks that are removed at the ends of a text take
nothing else away.
-/

namespace ResponseCache.Text

variable {sep : Char}

theorem not_mem_of_mem_splitOn {cs piece : List Char} (h : piece ∈ splitOn sep cs) : sep ∉ piece := by
  induction cs generalizing piece with
  | nil =>
    obtain rfl := List.mem_singleton.1 h
    exact List.not_mem_nil
  | cons c cs ih =>
    unfold splitOn at h
    split at h
    next =>
      cases List.mem_cons.1 h with
      | inl hnil =>
        rw [hnil]
        exact List.not_mem_nil
      | inr hmem => exact ih hmem
    next hne =>
      cases hpieces : splitOn sep cs with
      | nil => exact absurd hpieces (splitOn_ne_nil sep cs)
      | cons first pieces =>
        rw [hpieces, List.modifyHead_cons] at h
        cases List.mem_cons.1 h with
        | inl hfirst =>
          rw [hfirst, List.mem_cons, not_or]
          refine ⟨Ne.symm hne, ih ?_⟩
          rw [hpieces]
          exact List.mem_cons_self
        | inr hmem =>
          apply ih
          rw [hpieces]
          exact List.mem_cons_of_mem _ hmem

/-- Texts that are joined by separators are cut where each of them would be. -/
theorem splitOn_intercalate_eq_flatMap {texts : List (List Char)} (hne : texts ≠ []) :
    splitOn sep (List.intercalate [sep] texts) = texts.flatMap (splitOn sep) := by
  induction texts with
  | nil => exact absurd rfl hne
  | cons first texts ih =>
    cases texts with
    | nil => rw [List.intercalate_singleton, List.flatMap_singleton]
    | cons second texts =>
      rw [List.intercalate_cons_cons, List.append_assoc, List.singleton_append, splitOn_append_sep,
        ih (List.cons_ne_nil _ _)]
      exact List.flatMap_cons.symm

theorem splitOn_intercalate {pieces : List (List Char)} (hne : pieces ≠ [])
    (hpieces : ∀ piece ∈ pieces, sep ∉ piece) : splitOn sep (List.intercalate [sep] pieces) = pieces := by
  have hsplit : pieces.map (splitOn sep) = pieces.map fun piece => [piece] :=
    List.map_congr_left fun piece hmem => splitOn_of_not_mem (hpieces piece hmem)
  rw [splitOn_intercalate_eq_flatMap hne, List.flatMap_def, hsplit, ← List.flatMap_def,
    List.flatMap_singleton']

/-- Joined texts are the first one, and each of the others behind a separator. -/
theorem intercalate_cons (first : List Char) (texts : List (List Char)) :
    List.intercalate [sep] (first :: texts) = first ++ texts.flatMap (sep :: ·) := by
  induction texts generalizing first with
  | nil => rw [List.intercalate_singleton, List.flatMap_nil, List.append_nil]
  | cons second texts ih =>
    rw [List.intercalate_cons_cons, ih, List.flatMap_cons]
    simp

/-- A text is cut where the first character stands that is not of a class. -/
theorem span_append {p : Char → Bool} {cs rest : List Char} (hcs : ∀ c ∈ cs, p c = true)
    (hrest : ∀ c ∈ rest.head?, p c = false) : (cs ++ rest).span p = (cs, rest) := by
  have hstop : rest.takeWhile p = [] ∧ rest.dropWhile p = rest := by
    cases rest with
    | nil => exact ⟨rfl, rfl⟩
    | cons c rest => simp [hrest c rfl]
  rw [List.span_eq_takeWhile_dropWhile, List.takeWhile_append_of_pos hcs, List.dropWhile_append_of_pos hcs,
    hstop.1, hstop.2, List.append_nil]

/-- What stands before the last separator is cut off what stands behind it. -/
theorem exists_last_of_mem {cs : List Char} (h : sep ∈ cs) :
    ∃ rest last, cs = rest ++ sep :: last ∧ sep ∉ last := by
  obtain ⟨last, rest, hreverse, hlast⟩ := List.eq_append_cons_of_mem (List.mem_reverse.2 h)
  refine ⟨rest.reverse, last.reverse, ?_, fun hmem => hlast (List.mem_reverse.1 hmem)⟩
  rw [← List.reverse_reverse cs, hreverse, List.reverse_append, List.reverse_cons, List.append_assoc,
    List.singleton_append]

/-- A piece stands between two separators, if the ends of the text count as separators. -/
theorem exists_of_mem_splitOn {cs piece : List Char} (h : piece ∈ splitOn sep cs) :
    ∃ before after, sep :: (cs ++ [sep]) = before ++ sep :: (piece ++ sep :: after) := by
  by_cases hmem : sep ∈ cs
  . obtain ⟨first, rest, rfl, hfirst⟩ := List.eq_append_cons_of_mem hmem
    rw [splitOn_append_sep, splitOn_of_not_mem hfirst, List.singleton_append] at h
    cases List.mem_cons.1 h with
    | inl hfirst => exact ⟨[], rest ++ [sep], by simp [hfirst]⟩
    | inr hrest =>
      obtain ⟨before, after, heq⟩ := exists_of_mem_splitOn hrest
      refine ⟨sep :: (first ++ before), after, ?_⟩
      rw [List.append_assoc, List.cons_append, heq]
      simp
  . rw [splitOn_of_not_mem hmem] at h
    obtain rfl := List.mem_singleton.1 h
    exact ⟨[], [], rfl⟩
termination_by cs.length
decreasing_by
  subst_vars
  simp only [List.length_append, List.length_cons]
  omega

theorem mem_of_mem_splitOn {cs piece : List Char} {c : Char} (hpiece : piece ∈ splitOn sep cs) (hc : c ∈ piece) :
    c ∈ cs := by
  obtain ⟨before, after, heq⟩ := exists_of_mem_splitOn hpiece
  have hmem : c ∈ sep :: (cs ++ [sep]) := by
    rw [heq]
    simp [hc]
  have hne : c ≠ sep := fun h => not_mem_of_mem_splitOn hpiece (h ▸ hc)
  simpa [hne] using hmem

theorem not_mem_intercalate {texts : List (List Char)} {c : Char} (hsep : c ≠ sep)
    (htexts : ∀ text ∈ texts, c ∉ text) : c ∉ List.intercalate [sep] texts := by
  induction texts with
  | nil => exact List.not_mem_nil
  | cons first texts ih =>
    obtain ⟨hfirst, hrest⟩ := List.forall_mem_cons.1 htexts
    cases texts with
    | nil =>
      rw [List.intercalate_singleton]
      exact hfirst
    | cons second texts =>
      rw [List.intercalate_cons_cons, List.mem_append, List.mem_append, List.mem_singleton, not_or, not_or]
      exact ⟨⟨hfirst, hsep⟩, ih hrest⟩

theorem splitOnce_of_not_mem {cs : List Char} (h : sep ∉ cs) : splitOnce sep cs = none := by
  induction cs with
  | nil => rfl
  | cons c cs ih =>
    rw [List.mem_cons, not_or] at h
    rw [splitOnce, if_neg (Ne.symm h.1), ih h.2]
    rfl

theorem eq_append_of_splitOnce {cs before after : List Char} (h : splitOnce sep cs = some (before, after)) :
    cs = before ++ sep :: after ∧ sep ∉ before := by
  by_cases hmem : sep ∈ cs
  . obtain ⟨first, rest, rfl, hfirst⟩ := List.eq_append_cons_of_mem hmem
    rw [splitOnce_append_sep hfirst] at h
    cases h
    exact ⟨rfl, hfirst⟩
  . rw [splitOnce_of_not_mem hmem] at h
    nomatch h

theorem not_mem_of_splitOnce {cs before after : List Char}
    (h : splitOnce sep cs = some (before, after)) : sep ∉ before :=
  (eq_append_of_splitOnce h).2

theorem not_mem_of_splitOnce_eq_none {cs : List Char} (h : splitOnce sep cs = none) : sep ∉ cs := by
  induction cs with
  | nil => exact List.not_mem_nil
  | cons c cs ih =>
    unfold splitOnce at h
    split at h
    next => cases h
    next hne =>
      rw [List.mem_cons, not_or]
      exact ⟨Ne.symm hne, ih (Option.map_eq_none_iff.1 h)⟩

def IsBlank (cs : List Char) : Prop :=
  ∀ c ∈ cs, isBlank c = true

/-- Only blanks are removed at the ends of a text. -/
theorem eq_append_trim (cs : List Char) :
    ∃ before after, IsBlank before ∧ IsBlank after ∧ cs = before ++ trim cs ++ after := by
  let rest := cs.dropWhile isBlank
  refine ⟨cs.takeWhile isBlank, (rest.reverse.takeWhile isBlank).reverse, fun c => List.mem_takeWhile_imp,
    fun c hmem => List.mem_takeWhile_imp (List.mem_reverse.1 hmem), ?_⟩
  have hrest : rest = trim cs ++ (rest.reverse.takeWhile isBlank).reverse := by
    unfold trim strip stripEnd
    rw [← List.reverse_append, List.takeWhile_append_dropWhile, List.reverse_reverse]
  rw [List.append_assoc, ← hrest, List.takeWhile_append_dropWhile]

theorem dropWhile_append_eq {p : Char → Bool} {before cs : List Char} (hbefore : ∀ c ∈ before, p c = true)
    (hne : cs ≠ []) (hhead : p (cs.head hne) = false) : (before ++ cs).dropWhile p = cs := by
  rw [List.dropWhile_append_of_pos hbefore]
  cases cs with
  | nil => exact absurd rfl hne
  | cons c cs => exact List.dropWhile_cons_of_neg (Bool.eq_false_iff.1 hhead)

theorem stripEnd_append_of_pos {p : Char → Bool} {after : List Char} (hafter : ∀ c ∈ after, p c = true)
    (cs : List Char) : stripEnd p (cs ++ after) = stripEnd p cs := by
  unfold stripEnd
  rw [List.reverse_append, List.dropWhile_append_of_pos]
  intro c hmem
  exact hafter c (List.mem_reverse.1 hmem)

/-- What is removed at the ends of a text does not matter to what is left. -/
theorem strip_append {p : Char → Bool} {before after : List Char} (hbefore : ∀ c ∈ before, p c = true)
    (hafter : ∀ c ∈ after, p c = true) (cs : List Char) : strip p (before ++ cs ++ after) = strip p cs := by
  unfold strip
  rw [List.append_assoc, List.dropWhile_append_of_pos hbefore, List.dropWhile_append]
  split
  next hnone =>
    rw [List.isEmpty_iff.1 hnone, ← List.append_nil after, List.dropWhile_append_of_pos hafter]
    rfl
  next => exact stripEnd_append_of_pos hafter _

theorem strip_stripEnd (p : Char → Bool) (cs : List Char) : strip p (stripEnd p cs) = strip p cs := by
  have hend : cs = [] ++ stripEnd p cs ++ (cs.reverse.takeWhile p).reverse := by
    unfold stripEnd
    rw [List.nil_append, ← List.reverse_append, List.takeWhile_append_dropWhile, List.reverse_reverse]
  conv =>
    rhs
    rw [hend]
  rw [strip_append (List.forall_mem_nil _)]
  intro c hmem
  exact List.mem_takeWhile_imp (List.mem_reverse.1 hmem)

/-- The end of a text is removed up to the last character that has to stay. -/
theorem stripEnd_append_cons {p : Char → Bool} {c : Char} (h : p c = false) (as bs : List Char) :
    stripEnd p (as ++ c :: bs) = as ++ c :: stripEnd p bs := by
  unfold stripEnd
  rw [List.reverse_append, List.reverse_cons, List.append_assoc, List.dropWhile_append]
  have hstop : ([c] ++ as.reverse).dropWhile p = c :: as.reverse :=
    List.dropWhile_cons_of_neg (Bool.eq_false_iff.1 h)
  split
  next hnone =>
    rw [hstop, List.isEmpty_iff.1 hnone]
    simp
  next => simp

theorem strip_map {p : Char → Bool} {f : Char → Char} (h : ∀ c, p (f c) = p c) (cs : List Char) :
    strip p (cs.map f) = (strip p cs).map f := by
  have hcomp : p ∘ f = p := funext h
  unfold strip stripEnd
  rw [List.dropWhile_map, hcomp, ← List.map_reverse, List.dropWhile_map, hcomp, List.map_reverse]

theorem mem_strip {p : Char → Bool} {c : Char} (h : p c = false) {cs : List Char} (hmem : c ∈ cs) :
    c ∈ strip p cs := by
  have hstay : ∀ {as : List Char}, c ∈ as → c ∈ as.dropWhile p := by
    intro as has
    rw [← List.takeWhile_append_dropWhile (p := p) (l := as)] at has
    cases List.mem_append.1 has with
    | inl htaken => exact absurd (List.mem_takeWhile_imp htaken) (Bool.eq_false_iff.1 h)
    | inr hleft => exact hleft
  unfold strip stripEnd
  rw [List.mem_reverse]
  exact hstay (List.mem_reverse.2 (hstay hmem))

theorem strip_of_forall {p : Char → Bool} {cs : List Char} (h : ∀ c ∈ cs, p c = false) : strip p cs = cs := by
  have hstay : ∀ {as : List Char}, (∀ c ∈ as, p c = false) → as.dropWhile p = as := by
    intro as has
    cases as with
    | nil => rfl
    | cons a as => exact List.dropWhile_cons_of_neg (Bool.eq_false_iff.1 (has a List.mem_cons_self))
  unfold strip stripEnd
  rw [hstay h, hstay fun c hmem => h c (List.mem_reverse.1 hmem), List.reverse_reverse]

/-- What neither begins nor ends with a blank is found between blanks. -/
theorem trim_append {before cs after : List Char} (hbefore : IsBlank before) (hafter : IsBlank after)
    (hne : cs ≠ []) (hhead : isBlank (cs.head hne) = false) (hlast : isBlank (cs.getLast hne) = false) :
    trim (before ++ cs ++ after) = cs := by
  have hstart : (before ++ cs ++ after).dropWhile isBlank = cs ++ after := by
    rw [List.append_assoc]
    apply dropWhile_append_eq hbefore (List.append_ne_nil_of_left_ne_nil hne after)
    rw [List.head_append_of_ne_nil hne]
    exact hhead
  have hend : (after.reverse ++ cs.reverse).dropWhile isBlank = cs.reverse := by
    apply dropWhile_append_eq (fun c hmem => hafter c (List.mem_reverse.1 hmem))
      (fun hnil => hne (List.reverse_eq_nil_iff.1 hnil))
    rw [List.head_reverse]
    exact hlast
  unfold trim strip stripEnd
  rw [hstart, List.reverse_append, hend, List.reverse_reverse]

theorem count_trim {c : Char} (h : isBlank c = false) (cs : List Char) : (trim cs).count c = cs.count c := by
  obtain ⟨before, after, hbefore, hafter, heq⟩ := eq_append_trim cs
  have hnone : ∀ {blanks : List Char}, IsBlank blanks → blanks.count c = 0 := by
    intro blanks hblanks
    apply List.count_eq_zero.2
    intro hmem
    exact absurd (hblanks c hmem) (Bool.eq_false_iff.1 h)
  conv =>
    rhs
    rw [heq]
  rw [List.count_append, List.count_append, hnone hbefore, hnone hafter, Nat.zero_add, Nat.add_zero]

end ResponseCache.Text
