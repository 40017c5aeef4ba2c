import Mathlib.Data.Char
import Mathlib.Data.List.Lex
import ResponseCache.Proofs.Key.Query

/-!
This module contains the proof that the order of a query's pairs is a normal form: queries with the same
pairs of each name are put into the same order, whatever stood between these pairs. Only a query without any
pairs can be told from one that is not there, by the separators in it.
-/

namespace ResponseCache

/-- Texts are compared as lists of their characters are. -/
theorem textBefore_iff_lt {as bs : List Char} : textBefore as bs = true ↔ as < bs := by
  induction as generalizing bs with
  | nil => cases bs <;> simp [textBefore]
  | cons a as ih =>
    cases bs with
    | nil => simp [textBefore]
    | cons b bs =>
      have hchar : a.toNat < b.toNat ↔ a < b := Iff.rfl
      simp [textBefore, List.cons_lt_cons_iff, hchar, ih]

def Ordered (pairs : List (List Char)) : Prop :=
  pairs.Pairwise fun pair later => pairName pair ≤ pairName later

theorem ordered_insertPair {pair : List Char} {pairs : List (List Char)} (h : Ordered pairs) :
    Ordered (insertPair pair pairs) := by
  induction pairs with
  | nil => exact List.pairwise_singleton _ pair
  | cons head pairs ih =>
    obtain ⟨hhead, hpairs⟩ := List.pairwise_cons.1 h
    unfold insertPair
    split
    next hbefore =>
      have hle : pairName head ≤ pairName pair := (textBefore_iff_lt.1 hbefore).le
      refine List.pairwise_cons.2 ⟨?_, ih hpairs⟩
      intro later hmem
      cases mem_insertPair.1 hmem with
      | inl heq => exact heq ▸ hle
      | inr hmem => exact hhead later hmem
    next hnot =>
      have hle : pairName pair ≤ pairName head := le_of_not_gt (mt textBefore_iff_lt.2 hnot)
      refine List.pairwise_cons.2 ⟨?_, h⟩
      intro later hmem
      cases List.mem_cons.1 hmem with
      | inl heq => exact heq ▸ hle
      | inr hmem => exact hle.trans (hhead later hmem)

theorem ordered_sortPairs (pairs : List (List Char)) : Ordered (sortPairs pairs) := by
  induction pairs with
  | nil => exact List.Pairwise.nil
  | cons pair pairs ih => exact ordered_insertPair ih

/-- Whether two lists have the same pairs of each name, in the same order. -/
def SamePairs (pairs pairs' : List (List Char)) : Prop :=
  ∀ name, pairs.filter (fun pair => pairName pair = name) = pairs'.filter fun pair => pairName pair = name

namespace SamePairs

variable {pair pair' : List Char} {pairs pairs' : List (List Char)}

theorem symm (h : SamePairs pairs pairs') : SamePairs pairs' pairs :=
  fun name => (h name).symm

theorem mem (h : SamePairs pairs pairs') (hmem : pair ∈ pairs) : pair ∈ pairs' := by
  have hnamed : pair ∈ pairs.filter fun other => pairName other = pairName pair :=
    List.mem_filter.2 ⟨hmem, decide_eq_true rfl⟩
  rw [h] at hnamed
  exact List.mem_of_mem_filter hnamed

/-- The first pairs of one name are the same, and so is what is left without them. -/
theorem of_cons (hname : pairName pair = pairName pair') (h : SamePairs (pair :: pairs) (pair' :: pairs')) :
    pair = pair' ∧ SamePairs pairs pairs' := by
  have hfirst := h (pairName pair)
  rw [List.filter_cons_of_pos (by simp), List.filter_cons_of_pos (by simpa using hname.symm)] at hfirst
  obtain ⟨rfl, hrest⟩ := List.cons.inj hfirst
  refine ⟨rfl, ?_⟩
  intro name
  by_cases hsame : pairName pair = name
  . exact hsame ▸ hrest
  . have hother := h name
    rw [List.filter_cons_of_neg (by simpa using hsame), List.filter_cons_of_neg (by simpa using hsame)]
      at hother
    exact hother

theorem pairName_head_le (hordered : Ordered (pair' :: pairs'))
    (h : SamePairs (pair :: pairs) (pair' :: pairs')) : pairName pair' ≤ pairName pair := by
  cases List.mem_cons.1 (h.mem List.mem_cons_self) with
  | inl heq => rw [heq]
  | inr hmem => exact (List.pairwise_cons.1 hordered).1 pair hmem

/-- There is one way only to put given pairs of each name in order. -/
theorem eq_of_ordered (hordered : Ordered pairs) (hordered' : Ordered pairs') (h : SamePairs pairs pairs') :
    pairs = pairs' := by
  induction pairs generalizing pairs' with
  | nil =>
    cases pairs' with
    | nil => rfl
    | cons pair' pairs' => exact absurd (h.symm.mem List.mem_cons_self) List.not_mem_nil
  | cons pair pairs ih =>
    cases pairs' with
    | nil => exact absurd (h.mem List.mem_cons_self) List.not_mem_nil
    | cons pair' pairs' =>
      have hname : pairName pair = pairName pair' :=
        le_antisymm (h.symm.pairName_head_le hordered) (h.pairName_head_le hordered')
      obtain ⟨rfl, hrest⟩ := h.of_cons hname
      rw [ih (List.pairwise_cons.1 hordered).2 (List.pairwise_cons.1 hordered').2 hrest]

end SamePairs

theorem sortPairs_eq_iff {pairs pairs' : List (List Char)} :
    sortPairs pairs = sortPairs pairs' ↔ SamePairs pairs pairs' := by
  constructor
  . intro heq name
    rw [← filter_sortPairs name pairs, heq, filter_sortPairs]
  . intro h
    apply SamePairs.eq_of_ordered (ordered_sortPairs pairs) (ordered_sortPairs pairs')
    intro name
    rw [filter_sortPairs, filter_sortPairs]
    exact h name

theorem normalQuery_eq (query : Option (List Char)) :
    normalQuery query
      = if query.getD [] = [] then none
        else some (List.intercalate ['&'] (sortPairs (queryPairs (query.getD [])))) := by
  unfold normalQuery
  cases query with
  | none => rfl
  | some q => cases q <;> rfl

theorem normalQuery_eq_iff {query query' : Option (List Char)} :
    normalQuery query = normalQuery query'
      ↔ SamePairs (queryPairs (query.getD [])) (queryPairs (query'.getD []))
        ∧ (query.getD [] = [] ↔ query'.getD [] = []) := by
  have hnone (query : Option (List Char)) : normalQuery query = none ↔ query.getD [] = [] := by
    rw [normalQuery_eq]
    simp
  rw [← sortPairs_eq_iff]
  constructor
  . intro heq
    rw [← queryPairs_normalQuery, ← queryPairs_normalQuery, ← hnone, ← hnone, heq]
    exact ⟨rfl, Iff.rfl⟩
  . rintro ⟨hpairs, hbare⟩
    rw [normalQuery_eq, normalQuery_eq, hpairs]
    simp only [hbare]

/-- Whether a target has no query, or an empty one. -/
def Target.IsBare (t : Target) : Prop :=
  t.query.getD [] = []

instance (t : Target) : Decidable t.IsBare :=
  inferInstanceAs (Decidable (_ = _))

theorem pathWithQuery_right_inj {path : List Char} {query query' : Option (List Char)} :
    pathWithQuery path query = pathWithQuery path query' ↔ query = query' := by
  cases query <;> cases query' <;> simp [pathWithQuery]

namespace KeyExtractor

theorem extract_standard_of_isCacheable {r : Request} (hcacheable : r.isCacheable = true) :
    standard.extract r
      = some (String.ofList
        (r.method.toList ++ ' ' :: pathWithQuery r.target.path (normalQuery r.target.query))) := by
  simp [standard, extract, extractText, BaseKey.extract, hcacheable]

/--
Requests with the same method and path get the same key without a word about keys from the route exactly if
they have the same pairs of each name, and neither of them has a query of separators alone where the other one
has no query or an empty one. So the order of pairs of different names does not matter, nor do empty pairs
beside others.
-/
theorem extract_standard_eq_iff {r r' : Request} (hcacheable : r.isCacheable = true)
    (hmethod : r.method = r'.method) (hpath : r.target.path = r'.target.path) :
    (∃ key, standard.extract r = some key ∧ standard.extract r' = some key)
      ↔ (∀ name, r.target.pairsNamed name = r'.target.pairsNamed name)
        ∧ (r.target.IsBare ↔ r'.target.IsBare) := by
  have hcacheable' : r'.isCacheable = true := by
    rw [← hcacheable]
    unfold Request.isCacheable
    rw [hmethod]
  have hquery : normalQuery r.target.query = normalQuery r'.target.query
      ↔ (∀ name, r.target.pairsNamed name = r'.target.pairsNamed name)
        ∧ (r.target.IsBare ↔ r'.target.IsBare) := normalQuery_eq_iff
  rw [← hquery, extract_standard_of_isCacheable hcacheable, extract_standard_of_isCacheable hcacheable',
    hmethod, hpath]
  constructor
  . rintro ⟨key, hkey, hkey'⟩
    have htexts := String.ofList_injective (Option.some.inj (hkey.trans hkey'.symm))
    exact pathWithQuery_right_inj.1 (List.cons.inj (List.append_cancel_left htexts)).2
  . intro heq
    rw [heq]
    exact ⟨_, rfl, rfl⟩

def getRequest (target : String) : Request where
  method := "GET"
  target := .ofText target.toList
  headers := []

/-- Two parameters in another order, with empty pairs between and behind them. -/
theorem extract_standard_of_reordered :
    (getRequest "/s?tag=a&page=2&tag=b").isCacheable = true
      ∧ (getRequest "/s?tag=a&page=2&tag=b").method = (getRequest "/s?page=2&&tag=a&tag=b&").method
      ∧ (getRequest "/s?tag=a&page=2&tag=b").target.path = (getRequest "/s?page=2&&tag=a&tag=b&").target.path
      ∧ (∀ name, (getRequest "/s?tag=a&page=2&tag=b").target.pairsNamed name
        = (getRequest "/s?page=2&&tag=a&tag=b&").target.pairsNamed name)
      ∧ ∃ key, standard.extract (getRequest "/s?tag=a&page=2&tag=b") = some key
        ∧ standard.extract (getRequest "/s?page=2&&tag=a&tag=b&") = some key := by
  have hcacheable : (getRequest "/s?tag=a&page=2&tag=b").isCacheable = true := by decide
  have hmethod : (getRequest "/s?tag=a&page=2&tag=b").method
      = (getRequest "/s?page=2&&tag=a&tag=b&").method := rfl
  have hpath : (getRequest "/s?tag=a&page=2&tag=b").target.path
      = (getRequest "/s?page=2&&tag=a&tag=b&").target.path := by decide +kernel
  have hpairs : ∀ name, (getRequest "/s?tag=a&page=2&tag=b").target.pairsNamed name
      = (getRequest "/s?page=2&&tag=a&tag=b&").target.pairsNamed name :=
    sortPairs_eq_iff.1 (by decide +kernel)
  refine ⟨hcacheable, hmethod, hpath, hpairs, ?_⟩
  exact (extract_standard_eq_iff hcacheable hmethod hpath).2 ⟨hpairs, by decide +kernel⟩

/-- No pairs are in a query that is nothing but a separator, but it leaves its mark in the key. -/
theorem extract_standard_ne_of_separator :
    (getRequest "/a").isCacheable = true
      ∧ (getRequest "/a").method = (getRequest "/a?&").method
      ∧ (getRequest "/a").target.path = (getRequest "/a?&").target.path
      ∧ (∀ name, (getRequest "/a").target.pairsNamed name = (getRequest "/a?&").target.pairsNamed name)
      ∧ standard.extract (getRequest "/a") = some "GET /a"
      ∧ standard.extract (getRequest "/a?&") = some "GET /a?" := by
  refine ⟨by decide, rfl, by decide +kernel, ?_, by decide +kernel, by decide +kernel⟩
  exact sortPairs_eq_iff.1 (by decide +kernel)

end KeyExtractor

end ResponseCache
