import Mathlib.Data.Multiset.Fold
import ResponseCache.Directives

/-!
This module contains how the demands of several `Cache-Control` values add up: the reading of two
lists of values together is the merge of their readings, and demands at least what each of them does.
Reading the elements one after the other gives the same, so that neither their order nor how often they
are repeated matters, nor which of them share a value.
-/

namespace ResponseCache

def Headers.addAll (h : Headers) (name : HeaderName) (values : List HeaderValue) : Headers :=
  h ++ values.map fun value => (name, value)

theorem Headers.getAll_addAll_self (h : Headers) (name : HeaderName) (values : List HeaderValue) :
    (h.addAll name values).getAll name.text = h.getAll name.text ++ values := by
  unfold addAll
  rw [getAll_append]
  congr 1
  induction values with
  | nil => rfl
  | cons value values ih =>
    unfold getAll at ih ⊢
    rw [List.map_cons, List.filter_cons_of_pos (by simp), List.map_cons, ih]

namespace HeaderValue

theorem text?_eq_some_iff {v : HeaderValue} {text : List Char} :
    v.text? = some text
      ↔ v.bytes.all isTextByte = true ∧ v.bytes.map (fun b => Char.ofNat b.toNat) = text := by
  simp only [text?, Option.ite_none_right_eq_some, Option.some.injEq]

/-- A text with a comma in it is the text of a value exactly if the texts on both sides of the comma are. -/
theorem exists_text?_append_comma_iff {before after : List Char} :
    (∃ v : HeaderValue, v.text? = some (before ++ ',' :: after))
      ↔ (∃ v : HeaderValue, v.text? = some before) ∧ ∃ v : HeaderValue, v.text? = some after := by
  simp only [text?_eq_some_iff]
  constructor
  . rintro ⟨⟨bytes, hvalid⟩, hall, hmap⟩
    obtain ⟨left, right, rfl, hleft, hright⟩ := List.map_eq_append_iff.1 hmap
    obtain ⟨comma, right, rfl, -, hright⟩ := List.map_eq_cons_iff.1 hright
    simp only [List.all_append, List.all_cons, Bool.and_eq_true] at hvalid hall
    exact ⟨⟨⟨left, hvalid.1⟩, hall.1, hleft⟩, ⟨right, hvalid.2.2⟩, hall.2.2, hright⟩
  . rintro ⟨⟨⟨left, hleftValid⟩, hleftAll, hleft⟩, ⟨right, hrightValid⟩, hrightAll, hright⟩
    have hvalid : (left ++ 0x2c :: right).all isValueByte = true := by
      simp only [List.all_append, List.all_cons, hleftValid, hrightValid]
      rfl
    refine ⟨⟨left ++ 0x2c :: right, hvalid⟩, ?_, ?_⟩
    . simp only [List.all_append, List.all_cons, hleftAll, hrightAll]
      rfl
    . rw [List.map_append, List.map_cons, hleft, hright]
      rfl

end HeaderValue

namespace Directives

open Text (splitOn trim word?)

@[simp]
theorem strictest_none (choose : Nat → Nat → Nat) (a : Option Nat) :
    strictest choose a .none = a := by
  cases a <;> rfl

theorem strictest_assoc {choose : Nat → Nat → Nat}
    (hassoc : ∀ a b c, choose (choose a b) c = choose a (choose b c)) (a b c : Option Nat) :
    strictest choose (strictest choose a b) c = strictest choose a (strictest choose b c) := by
  cases a with
  | none => rfl
  | some a =>
    cases b with
    | none => rfl
    | some b =>
      cases c with
      | none => rfl
      | some c => exact congrArg some (hassoc a b c)

theorem strictest_comm {choose : Nat → Nat → Nat} (hcomm : ∀ a b, choose a b = choose b a)
    (a b : Option Nat) : strictest choose a b = strictest choose b a := by
  cases a with
  | none => exact (strictest_none choose b).symm
  | some a =>
    cases b with
    | none => rfl
    | some b => exact congrArg some (hcomm a b)

theorem strictest_self {choose : Nat → Nat → Nat} (hself : ∀ a, choose a a = a) (a : Option Nat) :
    strictest choose a a = a := by
  cases a with
  | none => rfl
  | some a => exact congrArg some (hself a)

@[simp]
theorem merge_none (d : Directives) : merge d none = d := by
  simp [merge, none]

@[simp]
theorem none_merge (d : Directives) : merge none d = d := by
  simp [merge, none, strictest]

theorem merge_noStore (d : Directives) :
    merge d { none with noStore := true } = { d with noStore := true } := by
  simp [merge, none]

theorem merge_assoc (a b c : Directives) : merge (merge a b) c = merge a (merge b c) := by
  simp only [merge, mk.injEq]
  exact ⟨strictest_assoc Nat.min_assoc _ _ _, strictest_assoc Nat.max_assoc _ _ _,
    Bool.or_assoc _ _ _⟩

theorem merge_comm (a b : Directives) : merge a b = merge b a := by
  simp only [merge, mk.injEq]
  exact ⟨strictest_comm Nat.min_comm _ _, strictest_comm Nat.max_comm _ _, Bool.or_comm _ _⟩

theorem merge_self (d : Directives) : merge d d = d := by
  simp only [merge, strictest_self Nat.min_self, strictest_self Nat.max_self, Bool.or_self]

instance : Std.Associative merge := ⟨merge_assoc⟩

instance : Std.Commutative merge := ⟨merge_comm⟩

instance : Std.IdempotentOp merge := ⟨merge_self⟩

theorem foldl_merge (d : Directives) (ds : List Directives) :
    ds.foldl merge d = merge d (ds.foldl merge none) := by
  induction ds generalizing d with
  | nil => simp
  | cons e ds ih =>
    rw [List.foldl_cons, List.foldl_cons, none_merge, ih, ih e, merge_assoc]

theorem ofElements_append (xs ys : List (List Char)) :
    ofElements (xs ++ ys) = merge (ofElements xs) (ofElements ys) := by
  unfold ofElements
  rw [List.map_append, List.foldl_append, foldl_merge]

/-- Of the elements it only matters which ones there are. -/
theorem ofElements_eq_of_mem_iff {xs ys : List (List Char)} (h : ∀ x, x ∈ xs ↔ x ∈ ys) :
    ofElements xs = ofElements ys := by
  have hreadings : (xs.map ofElement : Multiset Directives).dedup
      = (ys.map ofElement : Multiset Directives).dedup := by
    apply Multiset.dedup_ext.2
    intro d
    simp only [Multiset.mem_coe, List.mem_map, h]
  unfold ofElements
  rw [← Multiset.coe_fold_l merge, ← Multiset.coe_fold_l merge, ← Multiset.fold_dedup_idem, hreadings,
    Multiset.fold_dedup_idem]

/--
Reads one more element after those that led to some demands. The two ages are changed to the stricter ones,
and an element that wants no stored response changes the greatest age to zero, whatever it was.
-/
def heed (d : Directives) (element : List Char) : Directives :=
  let (name, argument) := nameAndArgument ((trim element).map Char.toLower)
  if name = "max-age".toList then
    match argument.bind word? with
    | some seconds => { d with maxAge := some (d.maxAge.elim seconds (Nat.min · seconds)) }
    | .none => d
  else if name = "min-fresh".toList then
    match argument.bind word? with
    | some seconds => { d with minFresh := some (d.minFresh.elim seconds (Nat.max · seconds)) }
    | .none => d
  else if name = "no-cache".toList then
    { d with maxAge := some 0 }
  else if name = "no-store".toList then
    { d with noStore := true }
  else
    d

theorem strictest_some (choose : Nat → Nat → Nat) (a : Option Nat) (b : Nat) :
    strictest choose a (some b) = some (a.elim b (choose · b)) := by
  cases a <;> rfl

theorem strictest_min_zero (a : Option Nat) : strictest Nat.min a (some 0) = some 0 := by
  cases a with
  | none => rfl
  | some a => exact congrArg some (Nat.min_zero a)

theorem heed_eq_merge (d : Directives) (element : List Char) :
    heed d element = merge d (ofElement element) := by
  unfold heed ofElement
  simp only
  split
  next =>
    cases (nameAndArgument ((trim element).map Char.toLower)).2.bind word? with
    | none => exact (merge_none d).symm
    | some seconds => simp [merge, none, strictest_some]
  next =>
    split
    next =>
      cases (nameAndArgument ((trim element).map Char.toLower)).2.bind word? with
      | none => exact (merge_none d).symm
      | some seconds => simp [merge, none, strictest_some]
    next =>
      split
      next => simp [merge, none, strictest_min_zero]
      next =>
        split
        next => exact (merge_noStore d).symm
        next => exact (merge_none d).symm

/-- The elements can be read one after the other. -/
theorem ofElements_eq_foldl_heed (elements : List (List Char)) :
    ofElements elements = elements.foldl heed none := by
  unfold ofElements
  rw [List.foldl_map]
  congr
  funext d element
  exact (heed_eq_merge d element).symm

theorem ofValues_append (vs ws : List HeaderValue) :
    ofValues (vs ++ ws) = merge (ofValues vs) (ofValues ws) := by
  unfold ofValues
  rw [List.filterMap_append, List.flatMap_append, ofElements_append]

theorem ofHeaders_addAll (h : Headers) (values : List HeaderValue) :
    ofHeaders (h.addAll .cacheControl values) = merge (ofHeaders h) (ofValues values) := by
  have hvalues : (h.addAll .cacheControl values).getAll "cache-control"
      = h.getAll "cache-control" ++ values := Headers.getAll_addAll_self h .cacheControl values
  unfold ofHeaders
  rw [hvalues, ofValues_append]

theorem ofHeaders_append (g h : Headers) : ofHeaders (g ++ h) = merge (ofHeaders g) (ofHeaders h) := by
  unfold ofHeaders
  rw [Headers.getAll_append, ofValues_append]

theorem ofValues_eq_of_mem_iff {vs ws : List HeaderValue} (h : ∀ v, v ∈ vs ↔ v ∈ ws) :
    ofValues vs = ofValues ws := by
  apply ofElements_eq_of_mem_iff
  intro element
  simp only [List.mem_flatMap, List.mem_filterMap, h]

/-- A comma between two texts ends an element of the first, as the end of a value does. -/
theorem ofValues_of_append_comma {v w joined : HeaderValue} {before after : List Char}
    (hv : v.text? = some before) (hw : w.text? = some after)
    (hjoined : joined.text? = some (before ++ ',' :: after)) : ofValues [joined] = ofValues [v, w] := by
  simp [ofValues, hv, hw, hjoined, Text.splitOn_append_sep]

/--
What a request demands is read off the elements of its `Cache-Control` values one after the other, and it is
the merge of what any two parts of its fields demand. So it only matters which values there are, and a text
can be cut in two at any comma or joined to another one by a comma.
-/
theorem ofHeaders_merges :
    (∀ h : Headers, ofHeaders h = ((h.texts "cache-control").flatMap (splitOn ',')).foldl heed none)
      ∧ (∀ g h : Headers, ofHeaders (g ++ h) = merge (ofHeaders g) (ofHeaders h))
      ∧ (∀ g h : Headers,
        (∀ value, value ∈ g.getAll "cache-control" ↔ value ∈ h.getAll "cache-control") →
          ofHeaders g = ofHeaders h)
      ∧ (∀ {before after : List Char} {v w joined : HeaderValue}, v.text? = some before →
        w.text? = some after → joined.text? = some (before ++ ',' :: after) → ∀ g h : Headers,
          ofHeaders (g ++ [(.cacheControl, joined)] ++ h)
            = ofHeaders (g ++ [(.cacheControl, v), (.cacheControl, w)] ++ h))
      ∧ ∀ before after : List Char,
        (∃ joined : HeaderValue, joined.text? = some (before ++ ',' :: after))
          ↔ (∃ v : HeaderValue, v.text? = some before) ∧ ∃ w : HeaderValue, w.text? = some after := by
  refine ⟨?_, ofHeaders_append, ?_, ?_, ?_⟩
  . intro h
    exact ofElements_eq_foldl_heed _
  . intro g h hmem
    exact ofValues_eq_of_mem_iff hmem
  . intro before after v w joined hv hw hjoined g h
    have hsplit : ofHeaders [(.cacheControl, joined)]
        = ofHeaders [(.cacheControl, v), (.cacheControl, w)] := ofValues_of_append_comma hv hw hjoined
    rw [ofHeaders_append, ofHeaders_append, ofHeaders_append, ofHeaders_append, hsplit]
  . intro before after
    exact HeaderValue.exists_text?_append_comma_iff

/-- Whether all that a client demands is demanded by another client at least as strictly. -/
structure CoveredBy (d other : Directives) : Prop where
  maxAge : ∀ a ∈ d.maxAge, ∃ b ∈ other.maxAge, b ≤ a
  minFresh : ∀ a ∈ d.minFresh, ∃ b ∈ other.minFresh, a ≤ b
  noStore : d.noStore = true → other.noStore = true

theorem exists_mem_strictest {choose : Nat → Nat → Nat} {r : Nat → Nat → Prop}
    (hrefl : ∀ a, r a a) (hchoose : ∀ a b, r (choose a b) a) {a : Nat} {x : Option Nat} (ha : a ∈ x)
    (y : Option Nat) : ∃ b ∈ strictest choose x y, r b a := by
  cases ha
  cases y with
  | none => exact ⟨a, rfl, hrefl a⟩
  | some b => exact ⟨choose a b, rfl, hchoose a b⟩

theorem coveredBy_merge_left (d other : Directives) : CoveredBy d (merge d other) where
  maxAge _ ha := exists_mem_strictest (r := (· ≤ ·)) Nat.le_refl Nat.min_le_left ha _
  minFresh _ ha := exists_mem_strictest (r := (· ≥ ·)) Nat.le_refl Nat.le_max_left ha _
  noStore h := by
    unfold merge
    rw [h, Bool.true_or]

/-- Two demands are met together exactly if each of them is. -/
theorem forall_strictest_iff {choose : Nat → Nat → Nat} {r : Nat → Nat → Prop}
    (hchoose : ∀ a b c, r (choose a b) c ↔ r a c ∧ r b c) (x y z : Option Nat) :
    (∀ a ∈ strictest choose x y, ∃ c ∈ z, r a c)
      ↔ (∀ a ∈ x, ∃ c ∈ z, r a c) ∧ ∀ b ∈ y, ∃ c ∈ z, r b c := by
  cases x with
  | none => simp [strictest]
  | some a =>
    cases y with
    | none => simp
    | some b =>
      cases z with
      | none => simp [strictest]
      | some c => simp [strictest, hchoose]

theorem coveredBy_refl (d : Directives) : CoveredBy d d where
  maxAge a ha := ⟨a, ha, Nat.le_refl a⟩
  minFresh a ha := ⟨a, ha, Nat.le_refl a⟩
  noStore := id

theorem CoveredBy.trans {d e other : Directives} (h : d.CoveredBy e) (h' : e.CoveredBy other) :
    d.CoveredBy other where
  maxAge a ha := by
    obtain ⟨b, hb, hba⟩ := h.maxAge a ha
    obtain ⟨c, hc, hcb⟩ := h'.maxAge b hb
    exact ⟨c, hc, Nat.le_trans hcb hba⟩
  minFresh a ha := by
    obtain ⟨b, hb, hab⟩ := h.minFresh a ha
    obtain ⟨c, hc, hbc⟩ := h'.minFresh b hb
    exact ⟨c, hc, Nat.le_trans hab hbc⟩
  noStore hd := h'.noStore (h.noStore hd)

theorem none_coveredBy (d : Directives) : CoveredBy none d where
  maxAge := by simp [none]
  minFresh := by simp [none]
  noStore := by simp [none]

/-- Two readings are demanded together exactly if each of them is. -/
theorem merge_coveredBy_iff {d e other : Directives} :
    CoveredBy (merge d e) other ↔ CoveredBy d other ∧ CoveredBy e other := by
  have hmax := forall_strictest_iff (r := fun a c => c ≤ a) (fun _ _ _ => Nat.le_min) d.maxAge e.maxAge
    other.maxAge
  have hmin := forall_strictest_iff (r := fun a c => a ≤ c) (fun _ _ _ => Nat.max_le) d.minFresh e.minFresh
    other.minFresh
  constructor
  . intro h
    obtain ⟨hmaxLeft, hmaxRight⟩ := hmax.1 h.maxAge
    obtain ⟨hminLeft, hminRight⟩ := hmin.1 h.minFresh
    exact ⟨⟨hmaxLeft, hminLeft, fun hd => h.noStore (by simp [merge, hd])⟩,
      hmaxRight, hminRight, fun he => h.noStore (by simp [merge, he])⟩
  . rintro ⟨hd, he⟩
    refine ⟨hmax.2 ⟨hd.maxAge, he.maxAge⟩, hmin.2 ⟨hd.minFresh, he.minFresh⟩, ?_⟩
    intro hor
    cases Bool.or_eq_true_iff.1 hor with
    | inl hleft => exact hd.noStore hleft
    | inr hright => exact he.noStore hright

theorem eq_of_forall_exists {r : Nat → Nat → Prop} (hantisymm : ∀ a b, r a b → r b a → a = b)
    {x y : Option Nat} (hxy : ∀ a ∈ x, ∃ b ∈ y, r a b) (hyx : ∀ b ∈ y, ∃ a ∈ x, r b a) : x = y := by
  cases x with
  | none =>
    cases y with
    | none => rfl
    | some b =>
      obtain ⟨a, ha, -⟩ := hyx b rfl
      nomatch ha
  | some a =>
    obtain ⟨b, hb, hab⟩ := hxy a rfl
    obtain ⟨a', ha', hba⟩ := hyx b hb
    cases ha'
    cases hantisymm a b hab hba
    exact hb.symm

/-- Clients that demand at least as much as each other demand the same. -/
theorem CoveredBy.antisymm {d other : Directives} (h : d.CoveredBy other) (h' : other.CoveredBy d) :
    d = other := by
  have hmax := eq_of_forall_exists (r := fun a b => b ≤ a) (fun a b hba hab => Nat.le_antisymm hab hba)
    h.maxAge h'.maxAge
  have hmin := eq_of_forall_exists (r := fun a b => a ≤ b) (fun a b => Nat.le_antisymm) h.minFresh h'.minFresh
  have hstore : d.noStore = other.noStore := Bool.eq_iff_iff.2 ⟨h.noStore, h'.noStore⟩
  cases d
  cases other
  simp only [mk.injEq]
  exact ⟨hmax, hmin, hstore⟩

def together (ds : List Directives) : Directives :=
  ds.foldl merge none

theorem together_append (ds es : List Directives) :
    together (ds ++ es) = merge (together ds) (together es) := by
  unfold together
  rw [List.foldl_append, foldl_merge]

theorem together_cons (d : Directives) (ds : List Directives) :
    together (d :: ds) = merge d (together ds) := by
  unfold together
  rw [List.foldl_cons, none_merge, foldl_merge]

theorem together_coveredBy_iff {ds : List Directives} {other : Directives} :
    (together ds).CoveredBy other ↔ ∀ d ∈ ds, d.CoveredBy other := by
  induction ds with
  | nil => exact ⟨fun _ d hmem => absurd hmem List.not_mem_nil, fun _ => none_coveredBy other⟩
  | cons d ds ih => rw [together_cons, merge_coveredBy_iff, ih, List.forall_mem_cons]

theorem coveredBy_together {d : Directives} {ds : List Directives} (h : d ∈ ds) : d.CoveredBy (together ds) :=
  together_coveredBy_iff.1 (coveredBy_refl _) d h

theorem together_flatten (dss : List (List Directives)) :
    together dss.flatten = together (dss.map together) := by
  induction dss with
  | nil => rfl
  | cons ds dss ih => rw [List.flatten_cons, together_append, ih, List.map_cons, together_cons]

/-- Elements in groups are read group by group. -/
theorem ofElements_flatMap {α : Type} (f : α → List (List Char)) (xs : List α) :
    ofElements (xs.flatMap f) = together (xs.map fun x => ofElements (f x)) := by
  induction xs with
  | nil => rfl
  | cons x xs ih => rw [List.flatMap_cons, ofElements_append, ih, List.map_cons, together_cons]

end Directives

end ResponseCache
