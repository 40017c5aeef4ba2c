import ResponseCache.Proofs.Key.Overlap
import ResponseCache.Proofs.Text.Pieces

/-!
This module contains what the keys of routes that say nothing about them tell of a query. Its pairs are put
in the order of their names, but those of one name stay in the order in which they came, and all of them can
be read back from the key.
-/

namespace ResponseCache

namespace Target

theorem not_mem_splitPath (cs : List Char) : '?' ∉ (splitPath cs).1 := by
  unfold splitPath
  dsimp only
  split
  next hsplit => exact Text.not_mem_of_splitOnce hsplit
  next hsplit => exact Text.not_mem_of_splitOnce_eq_none hsplit

/-- The path of a target that was read ends before the first question mark. -/
theorem not_mem_path_ofText (cs : List Char) : '?' ∉ (ofText cs).path := by
  unfold ofText
  split
  next => exact not_mem_splitPath cs
  next =>
    split
    next scheme rest hscheme =>
      dsimp only
      split
      next => decide
      next => exact not_mem_splitPath _
    next => exact List.not_mem_nil

theorem mem_text_of_mem_path {t : Target} {c : Char} (h : c ∈ t.path) : c ∈ t.text := by
  unfold text
  simp [h]

theorem mem_text_of_mem_query {t : Target} {c : Char} {query : List Char} (hquery : query ∈ t.query)
    (h : c ∈ query) : c ∈ t.text := by
  unfold text
  simp [Option.mem_def.1 hquery, h]

/-- The pairs of a target's query that have a name, in order, without the empty ones. -/
def pairsNamed (t : Target) (name : List Char) : List (List Char) :=
  (queryPairs (t.query.getD [])).filter fun pair => pairName pair = name

end Target

theorem not_textBefore_self (cs : List Char) : textBefore cs cs = false := by
  induction cs with
  | nil => rfl
  | cons c cs ih =>
    unfold textBefore
    rw [ih]
    simp

theorem mem_insertPair {pair other : List Char} {pairs : List (List Char)} :
    other ∈ insertPair pair pairs ↔ other = pair ∨ other ∈ pairs := by
  induction pairs with
  | nil => simp [insertPair]
  | cons head pairs ih =>
    unfold insertPair
    split
    next =>
      rw [List.mem_cons, ih, List.mem_cons]
      exact or_left_comm
    next => rw [List.mem_cons]

theorem mem_sortPairs {pair : List Char} {pairs : List (List Char)} :
    pair ∈ sortPairs pairs ↔ pair ∈ pairs := by
  induction pairs with
  | nil => rfl
  | cons head pairs ih =>
    unfold sortPairs
    rw [mem_insertPair, ih, List.mem_cons]

theorem filter_insertPair_self (pair : List Char) (pairs : List (List Char)) :
    (insertPair pair pairs).filter (fun other => pairName other = pairName pair)
      = pair :: pairs.filter (fun other => pairName other = pairName pair) := by
  induction pairs with
  | nil => simp [insertPair]
  | cons head pairs ih =>
    unfold insertPair
    split
    next hbefore =>
      have hne : pairName head ≠ pairName pair := by
        intro heq
        rw [heq, not_textBefore_self] at hbefore
        nomatch hbefore
      rw [List.filter_cons_of_neg (by simpa using hne), List.filter_cons_of_neg (by simpa using hne), ih]
    next => rw [List.filter_cons_of_pos (by simp)]

theorem filter_insertPair_of_ne {pair name : List Char} (hne : pairName pair ≠ name)
    (pairs : List (List Char)) :
    (insertPair pair pairs).filter (fun other => pairName other = name)
      = pairs.filter (fun other => pairName other = name) := by
  induction pairs with
  | nil => simp [insertPair, hne]
  | cons head pairs ih =>
    unfold insertPair
    split
    next => rw [List.filter_cons, List.filter_cons, ih]
    next => rw [List.filter_cons_of_neg (by simpa using hne)]

/-- The pairs of one name are in the same order before and after all of them are sorted. -/
theorem filter_sortPairs (name : List Char) (pairs : List (List Char)) :
    (sortPairs pairs).filter (fun pair => pairName pair = name)
      = pairs.filter (fun pair => pairName pair = name) := by
  induction pairs with
  | nil => rfl
  | cons pair pairs ih =>
    unfold sortPairs
    by_cases hname : pairName pair = name
    . subst hname
      rw [filter_insertPair_self, ih, List.filter_cons_of_pos (by simp)]
    . rw [filter_insertPair_of_ne hname, ih, List.filter_cons_of_neg (by simpa using hname)]

theorem mem_queryPairs {query pair : List Char} (h : pair ∈ queryPairs query) :
    '&' ∉ pair ∧ pair ≠ [] := by
  unfold queryPairs at h
  obtain ⟨hmem, hfull⟩ := List.mem_filter.1 h
  refine ⟨Text.not_mem_of_mem_splitOn hmem, ?_⟩
  rintro rfl
  nomatch hfull

theorem queryPairs_intercalate {pairs : List (List Char)} (h : ∀ pair ∈ pairs, '&' ∉ pair ∧ pair ≠ []) :
    queryPairs (List.intercalate ['&'] pairs) = pairs := by
  unfold queryPairs
  cases pairs with
  | nil => rfl
  | cons first rest =>
    rw [Text.splitOn_intercalate (List.cons_ne_nil first rest) fun pair hmem => (h pair hmem).1]
    rw [List.filter_eq_self]
    intro pair hmem
    simpa using (h pair hmem).2

/-- What was made of a query can be cut into its pairs again. -/
theorem queryPairs_normalQuery (query : Option (List Char)) :
    queryPairs ((normalQuery query).getD []) = sortPairs (queryPairs (query.getD [])) := by
  unfold normalQuery
  cases query with
  | none => rfl
  | some q =>
    cases q with
    | nil => rfl
    | cons c cs =>
      apply queryPairs_intercalate
      intro pair hmem
      exact mem_queryPairs (mem_sortPairs.1 hmem)

theorem not_mem_normalQuery {c : Char} (hc : c ≠ '&') {query : Option (List Char)}
    (hquery : ∀ q ∈ query, c ∉ q) : ∀ q ∈ normalQuery query, c ∉ q := by
  intro normal hnormal
  unfold normalQuery at hnormal
  obtain ⟨q, hfilter, rfl⟩ := Option.map_eq_some_iff.1 hnormal
  have hq : c ∉ q := hquery q (Option.filter_eq_some_iff.1 hfilter).1
  apply Text.not_mem_intercalate hc
  intro pair hpair hmem
  have hpiece : pair ∈ Text.splitOn '&' q := (List.mem_filter.1 (mem_sortPairs.1 hpair)).1
  exact hq (Text.mem_of_mem_splitOn hpiece hmem)

theorem pathWithQuery_inj {path path' : List Char} {query query' : Option (List Char)}
    (hpath : '?' ∉ path) (hpath' : '?' ∉ path')
    (h : pathWithQuery path query = pathWithQuery path' query') : path = path' ∧ query = query' := by
  cases query with
  | none =>
    cases query' with
    | none => exact ⟨h, rfl⟩
    | some q' =>
      unfold pathWithQuery at h
      dsimp only at h
      rw [h] at hpath
      simp at hpath
  | some q =>
    cases query' with
    | none =>
      unfold pathWithQuery at h
      dsimp only at h
      rw [← h] at hpath'
      simp at hpath'
    | some q' =>
      obtain ⟨rfl, rfl⟩ := Text.append_sep_inj hpath hpath' h
      exact ⟨rfl, rfl⟩

theorem not_mem_pathWithQuery {c : Char} (hc : c ≠ '?') {path : List Char} {query : Option (List Char)}
    (hpath : c ∉ path) (hquery : ∀ q ∈ query, c ∉ q) : c ∉ pathWithQuery path query := by
  cases query with
  | none => exact hpath
  | some q =>
    rw [pathWithQuery, List.mem_append, List.mem_cons, not_or, not_or]
    exact ⟨hpath, hc, hquery q rfl⟩

theorem Request.not_mem_method_of_isCacheable {r : Request} (h : r.isCacheable = true) :
    ' ' ∉ r.method.toList := by
  unfold isCacheable cacheableMethods at h
  simp only [List.contains_eq_mem, List.mem_cons, List.not_mem_nil, or_false, decide_eq_true_eq] at h
  obtain hmethod | hmethod := h
  . rw [hmethod]
    decide
  . rw [hmethod]
    decide

namespace KeyExtractor

theorem extractText_standard_eq_some {r : Request} {text : List Char}
    (h : standard.extractText r = some text) :
    r.isCacheable = true
      ∧ text = r.method.toList ++ ' ' :: pathWithQuery r.target.path (normalQuery r.target.query) := by
  unfold standard extractText BaseKey.extract at h
  dsimp only at h
  split at h
  next hcacheable =>
    refine ⟨hcacheable, ?_⟩
    simpa using h.symm
  next => nomatch h

/--
Requests that get the same key without a word about keys from the route have the same method and the same
path, and for each name the same pairs in the same order. Only pairs of different names may change places.
-/
theorem sameTarget_of_extract_standard {r r' : Request} {key : String}
    (hpath : '?' ∉ r.target.path) (hpath' : '?' ∉ r'.target.path)
    (hkey : standard.extract r = some key) (hkey' : standard.extract r' = some key) :
    r.method = r'.method ∧ r.target.path = r'.target.path
      ∧ ∀ name, r.target.pairsNamed name = r'.target.pairsNamed name := by
  have htexts := extract_inj (hkey.trans hkey'.symm)
  obtain ⟨text, htext, -⟩ := Option.map_eq_some_iff.1 hkey
  obtain ⟨hcacheable, hr⟩ := extractText_standard_eq_some htext
  obtain ⟨hcacheable', hr'⟩ := extractText_standard_eq_some (htexts ▸ htext)
  rw [hr] at hr'
  obtain ⟨hmethod, hrest⟩ := Text.append_sep_inj (r.not_mem_method_of_isCacheable hcacheable)
    (r'.not_mem_method_of_isCacheable hcacheable') hr'
  obtain ⟨hpaths, hquery⟩ := pathWithQuery_inj hpath hpath' hrest
  refine ⟨String.toList_inj.1 hmethod, hpaths, ?_⟩
  intro name
  unfold Target.pairsNamed
  rw [← filter_sortPairs, ← queryPairs_normalQuery, hquery, queryPairs_normalQuery, filter_sortPairs]

def mixedRequest : Request where
  method := "GET"
  target := .ofText "/s?tag=a&page=2&tag=b".toList
  headers := []

def orderedRequest : Request where
  method := "GET"
  target := .ofText "/s?page=2&&tag=a&tag=b".toList
  headers := []

theorem sameTarget_of_mixedRequest :
    '?' ∉ mixedRequest.target.path ∧ '?' ∉ orderedRequest.target.path
      ∧ standard.extract mixedRequest = some "GET /s?page=2&tag=a&tag=b"
      ∧ standard.extract orderedRequest = some "GET /s?page=2&tag=a&tag=b"
      ∧ mixedRequest.method = orderedRequest.method
      ∧ mixedRequest.target.path = orderedRequest.target.path
      ∧ ∀ name, mixedRequest.target.pairsNamed name = orderedRequest.target.pairsNamed name := by
  have hpath : '?' ∉ mixedRequest.target.path := Target.not_mem_path_ofText _
  have hpath' : '?' ∉ orderedRequest.target.path := Target.not_mem_path_ofText _
  have hkey : standard.extract mixedRequest = some "GET /s?page=2&tag=a&tag=b" := by decide +kernel
  have hkey' : standard.extract orderedRequest = some "GET /s?page=2&tag=a&tag=b" := by decide +kernel
  exact ⟨hpath, hpath', hkey, hkey', sameTarget_of_extract_standard hpath hpath' hkey hkey'⟩

end KeyExtractor

end ResponseCache
