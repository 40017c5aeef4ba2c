import ResponseCache.Proofs.Bytes.Canonical
import ResponseCache.Proofs.Directives
import ResponseCache.Proofs.Key.Overlap

/-!
This module contains how far header fields keep apart requests with the same base: as far as the texts do that
are made of their values. An empty value leaves the same text as no value, and values that are no UTF-8 may
read alike once the replacement character stands for what is wrong in them.
-/

namespace ResponseCache

namespace KeyExtractor

open Bytes.Utf8 (decode? decodeLossy)

/-- Under the same base two requests have the same key exactly if the texts of their keyed fields agree. -/
theorem extract_withHeaders_eq_iff {k : KeyExtractor} (names : List String) {r r' : Request}
    {base : List Char} (hbase : k.base.extract r = some base) (hbase' : k.base.extract r' = some base) :
    (k.withHeaders names).extract r = (k.withHeaders names).extract r'
      ↔ ∀ name ∈ names,
        headerText r.headers (lowerCase name) = headerText r'.headers (lowerCase name) := by
  have htexts : (k.withHeaders names).extractText r = (k.withHeaders names).extractText r'
      ↔ ∀ n ∈ (k.withHeaders names).names, headerText r.headers n = headerText r'.headers n := by
    have hr : (k.withHeaders names).base.extract r = some base := hbase
    have hr' : (k.withHeaders names).base.extract r' = some base := hbase'
    rw [extractText_eq, extractText_eq, hr, hr', ← components_eq_iff]
    simp
  constructor
  . intro heq name hmem
    exact htexts.1 (extract_inj heq) _ (mem_withHeaders.2 ⟨name, hmem, rfl⟩)
  . intro hall
    unfold extract
    congr 1
    rw [htexts]
    intro n hn
    obtain ⟨name, hmem, rfl⟩ := mem_withHeaders.1 hn
    exact hall name hmem

/--
Requests with the same base and the same key have the same text in every keyed field. No value can be made up
that passes for another one together with components after it, whatever separators, digits and names it holds.
-/
theorem headerText_eq_of_extract_eq {k : KeyExtractor} {names : List String} {r r' : Request} {key : String}
    (hbase : k.base.extract r = k.base.extract r') (hkey : (k.withHeaders names).extract r = some key)
    (hkey' : (k.withHeaders names).extract r' = some key) :
    ∀ name ∈ names, headerText r.headers (lowerCase name) = headerText r'.headers (lowerCase name) := by
  obtain ⟨text, htext, -⟩ := Option.map_eq_some_iff.1 hkey
  obtain ⟨base, hr, -⟩ := Option.map_eq_some_iff.1 htext
  have hr' : k.base.extract r' = some base := hbase ▸ hr
  exact (extract_withHeaders_eq_iff names hr hr').1 (hkey.trans hkey'.symm)

/-- A request with a field `a` of the given texts, and a field `b`. -/
def forgedRequest (values : List HeaderValue) : Request where
  method := "GET"
  target := .ofPath ['/', 'k']
  headers := Headers.addAll [(⟨"b", by decide⟩, ⟨[0x7a], by decide⟩)] ⟨"a", by decide⟩ values

/-- What could be the end of a value and the component after it, given in one value. -/
def forgedWhole : List HeaderValue :=
  [⟨Bytes.Utf8.encode ['p', ',', '|', 'b', '=', '1', ':', 'q'], by decide⟩]

def forgedParts : List HeaderValue :=
  [⟨Bytes.Utf8.encode ['p'], by decide⟩, ⟨Bytes.Utf8.encode ['|', 'b', '=', '1', ':', 'q'], by decide⟩]

theorem headerText_eq_of_forged :
    BaseKey.path.extract (forgedRequest forgedWhole) = BaseKey.path.extract (forgedRequest forgedParts)
      ∧ ((KeyExtractor.mk .path []).withHeaders ["B", "A"]).extract (forgedRequest forgedWhole)
        = some "/k|a=8:p,|b=1:q|b=1:z"
      ∧ ((KeyExtractor.mk .path []).withHeaders ["B", "A"]).extract (forgedRequest forgedParts)
        = some "/k|a=8:p,|b=1:q|b=1:z"
      ∧ ∀ name ∈ ["B", "A"], headerText (forgedRequest forgedWhole).headers (lowerCase name)
        = headerText (forgedRequest forgedParts).headers (lowerCase name) := by
  have hbase : BaseKey.path.extract (forgedRequest forgedWhole)
      = BaseKey.path.extract (forgedRequest forgedParts) := by decide
  have hwhole : ((KeyExtractor.mk .path []).withHeaders ["B", "A"]).extract (forgedRequest forgedWhole)
      = some "/k|a=8:p,|b=1:q|b=1:z" := by decide
  have hparts : ((KeyExtractor.mk .path []).withHeaders ["B", "A"]).extract (forgedRequest forgedParts)
      = some "/k|a=8:p,|b=1:q|b=1:z" := by decide
  exact ⟨hbase, hwhole, hparts, headerText_eq_of_extract_eq (k := ⟨.path, []⟩) hbase hwhole hparts⟩

/-- How the fields of a name tell two requests apart. -/
inductive Differs (h h' : Headers) (name : String) : Prop
  /-- Only the first request has the field. -/
  | onlyFirst (hsome : h.getAll name ≠ []) (hnone : h'.getAll name = [])
  /-- Only the second request has the field. -/
  | onlySecond (hnone : h.getAll name = []) (hsome : h'.getAll name ≠ [])
  /-- Both requests have it once, with different bytes. -/
  | bytes {v v' : HeaderValue} (hv : h.getAll name = [v]) (hv' : h'.getAll name = [v'])
      (hne : v.bytes ≠ v'.bytes)

/-- What makes the texts of fields agree that are told apart. -/
inductive Blurred (h h' : Headers) (name : String) : Prop
  /-- The first request has one value, which is empty, and the second has none. -/
  | onlyFirst {v : HeaderValue} (hv : h.getAll name = [v]) (hempty : v.bytes = [])
      (hnone : h'.getAll name = [])
  /-- The second request has one value, which is empty, and the first has none. -/
  | onlySecond {v : HeaderValue} (hnone : h.getAll name = []) (hv : h'.getAll name = [v])
      (hempty : v.bytes = [])
  /-- The values are not both UTF-8, and read alike with the faults replaced. -/
  | bytes {v v' : HeaderValue} (hv : h.getAll name = [v]) (hv' : h'.getAll name = [v'])
      (hfault : decode? v.bytes = none ∨ decode? v'.bytes = none)
      (hread : decodeLossy v.bytes = decodeLossy v'.bytes)

theorem headerText_of_absent {h : Headers} {name : String} (hnone : h.getAll name = []) :
    headerText h name = [] := by
  unfold headerText
  rw [hnone]
  rfl

theorem headerText_of_single {h : Headers} {name : String} {v : HeaderValue} (hv : h.getAll name = [v]) :
    headerText h name = decodeLossy v.bytes := by
  unfold headerText
  rw [hv, List.map_singleton, List.intercalate_singleton]

/-- Of the fields that are there, only one with an empty value leaves no text: a second one adds a comma. -/
theorem headerText_eq_nil_iff {h : Headers} {name : String} (hsome : h.getAll name ≠ []) :
    headerText h name = [] ↔ ∃ v, h.getAll name = [v] ∧ v.bytes = [] := by
  match hvalues : h.getAll name with
  | [] => exact absurd hvalues hsome
  | [v] =>
    rw [headerText_of_single hvalues, Bytes.Utf8.decodeLossy_eq_nil_iff]
    constructor
    . intro hempty
      exact ⟨v, rfl, hempty⟩
    . rintro ⟨w, hw, hempty⟩
      rw [List.head_eq_of_cons_eq hw]
      exact hempty
  | v :: w :: values =>
    unfold headerText
    rw [hvalues, List.map_cons, List.map_cons, List.intercalate_cons_cons]
    simp

theorem eq_of_decodeLossy_eq {bs bs' : Bytes} (hbs : decode? bs ≠ none) (hbs' : decode? bs' ≠ none)
    (h : decodeLossy bs = decodeLossy bs') : bs = bs' := by
  have htext : ∀ {bytes : Bytes}, decode? bytes ≠ none →
      Bytes.Utf8.encode (decodeLossy bytes) = bytes := by
    intro bytes hsome
    unfold decode? at hsome
    cases hdecode : Bytes.Utf8.decode bytes with
    | error => simp [hdecode, Except.toOption] at hsome
    | ok cs => rw [Bytes.Utf8.decodeLossy_of_decode hdecode, Bytes.Utf8.encode_of_decode hdecode]
  rw [← htext hbs, h, htext hbs']

theorem headerText_eq_iff_blurred {h h' : Headers} {name : String} (hdiffers : Differs h h' name) :
    headerText h name = headerText h' name ↔ Blurred h h' name := by
  constructor
  . intro htext
    cases hdiffers with
    | onlyFirst hsome hnone =>
      rw [headerText_of_absent hnone, headerText_eq_nil_iff hsome] at htext
      obtain ⟨v, hv, hempty⟩ := htext
      exact .onlyFirst hv hempty hnone
    | onlySecond hnone hsome =>
      rw [headerText_of_absent hnone, eq_comm, headerText_eq_nil_iff hsome] at htext
      obtain ⟨v, hv, hempty⟩ := htext
      exact .onlySecond hnone hv hempty
    | @bytes v v' hv hv' hne =>
      rw [headerText_of_single hv, headerText_of_single hv'] at htext
      refine .bytes hv hv' ?_ htext
      apply Decidable.or_iff_not_not_and_not.2
      rintro ⟨hsome, hsome'⟩
      exact hne (eq_of_decodeLossy_eq hsome hsome' htext)
  . intro hblurred
    cases hblurred with
    | onlyFirst hv hempty hnone =>
      rw [headerText_of_single hv, headerText_of_absent hnone, Bytes.Utf8.decodeLossy_eq_nil_iff]
      exact hempty
    | onlySecond hnone hv hempty =>
      rw [headerText_of_single hv, headerText_of_absent hnone, eq_comm, Bytes.Utf8.decodeLossy_eq_nil_iff]
      exact hempty
    | bytes hv hv' _ hread =>
      rw [headerText_of_single hv, headerText_of_single hv']
      exact hread

/--
A keyed field that tells two requests with the same base apart gives them different keys, unless it is
blurred. So if each keyed field either tells the requests apart or has the same values in both, they have the
same key exactly if every field that tells them apart is blurred.
-/
theorem extract_eq_iff_blurred {k : KeyExtractor} {names : List String} {r r' : Request}
    {base : List Char} (hbase : k.base.extract r = some base) (hbase' : k.base.extract r' = some base) :
    (∀ name ∈ names, Differs r.headers r'.headers (lowerCase name) →
        ¬Blurred r.headers r'.headers (lowerCase name) →
          (k.withHeaders names).extract r ≠ (k.withHeaders names).extract r')
      ∧ ((∀ name ∈ names, Differs r.headers r'.headers (lowerCase name)
          ∨ r.headers.getAll (lowerCase name) = r'.headers.getAll (lowerCase name)) →
        ((k.withHeaders names).extract r = (k.withHeaders names).extract r'
          ↔ ∀ name ∈ names, Differs r.headers r'.headers (lowerCase name) →
            Blurred r.headers r'.headers (lowerCase name))) := by
  have hkeys := extract_withHeaders_eq_iff names hbase hbase'
  have hblurred : (k.withHeaders names).extract r = (k.withHeaders names).extract r' →
      ∀ name ∈ names, Differs r.headers r'.headers (lowerCase name) →
        Blurred r.headers r'.headers (lowerCase name) := by
    intro heq name hmem hdiffers
    exact (headerText_eq_iff_blurred hdiffers).1 (hkeys.1 heq name hmem)
  constructor
  . intro name hmem hdiffers hclear heq
    exact hclear (hblurred heq name hmem hdiffers)
  . intro hfields
    refine ⟨hblurred, ?_⟩
    intro hall
    rw [hkeys]
    intro name hmem
    cases hfields name hmem with
    | inl hdiffers => exact (headerText_eq_iff_blurred hdiffers).2 (hall name hmem hdiffers)
    | inr hsame => rw [headerText, headerText, hsame]

def withField (values : List HeaderValue) : Request where
  method := "GET"
  target := .ofPath ['/', 'a']
  headers := Headers.addAll [] ⟨"lang", by decide⟩ values

theorem extract_withField (values : List HeaderValue) :
    BaseKey.path.extract (withField values) = some ['/', 'a'] := by
  have hcacheable : (withField values).isCacheable = true := by
    change cacheableMethods.contains "GET" = true
    decide
  unfold BaseKey.extract
  exact if_pos hcacheable

theorem getAll_withField (values : List HeaderValue) :
    (withField values).headers.getAll (lowerCase "Lang") = values := by
  have hname : lowerCase "Lang" = "lang" := by decide
  rw [hname]
  exact Headers.getAll_addAll_self [] ⟨"lang", by decide⟩ values

def plainValue : HeaderValue :=
  ⟨[0x65, 0x6e], by decide⟩

def accentedValue : HeaderValue :=
  ⟨[0xc3, 0xa9], by decide⟩

/-- A value is kept apart from none, and from one with other bytes. -/
theorem extract_withField_ne :
    ((KeyExtractor.mk .path []).withHeaders ["Lang"]).extract (withField [plainValue])
        ≠ ((KeyExtractor.mk .path []).withHeaders ["Lang"]).extract (withField [])
      ∧ ((KeyExtractor.mk .path []).withHeaders ["Lang"]).extract (withField [plainValue])
        ≠ ((KeyExtractor.mk .path []).withHeaders ["Lang"]).extract (withField [accentedValue]) := by
  have hmem : "Lang" ∈ ["Lang"] := List.mem_singleton_self _
  have hbase := extract_withField
  have hvalues := getAll_withField
  constructor
  . have hdiffers : Differs (withField [plainValue]).headers (withField []).headers (lowerCase "Lang") :=
      .onlyFirst (by decide) (hvalues _)
    apply (extract_eq_iff_blurred (k := ⟨.path, []⟩) (hbase _) (hbase _)).1 "Lang" hmem hdiffers
    rw [← headerText_eq_iff_blurred hdiffers]
    decide
  . have hdiffers :
        Differs (withField [plainValue]).headers (withField [accentedValue]).headers (lowerCase "Lang") :=
      .bytes (hvalues _) (hvalues _) (by decide)
    apply (extract_eq_iff_blurred (k := ⟨.path, []⟩) (hbase _) (hbase _)).1 "Lang" hmem hdiffers
    rw [← headerText_eq_iff_blurred hdiffers]
    decide

def emptyValue : HeaderValue :=
  ⟨[], by decide⟩

def brokenValue : HeaderValue :=
  ⟨[0xfe], by decide⟩

def otherBrokenValue : HeaderValue :=
  ⟨[0xfd], by decide⟩

/-- No value and an empty one share a key, and so do two values of one byte that begins no character. -/
theorem extract_withField_eq :
    ((KeyExtractor.mk .path []).withHeaders ["Lang"]).extract (withField [])
        = ((KeyExtractor.mk .path []).withHeaders ["Lang"]).extract (withField [emptyValue])
      ∧ Differs (withField []).headers (withField [emptyValue]).headers (lowerCase "Lang")
      ∧ ((KeyExtractor.mk .path []).withHeaders ["Lang"]).extract (withField [brokenValue])
        = ((KeyExtractor.mk .path []).withHeaders ["Lang"]).extract (withField [otherBrokenValue])
      ∧ Differs (withField [brokenValue]).headers (withField [otherBrokenValue]).headers
        (lowerCase "Lang") := by
  have hvalues := getAll_withField
  refine ⟨by decide, .onlySecond (hvalues _) (by decide), by decide, ?_⟩
  exact .bytes (hvalues _) (hvalues _) (by decide)

end KeyExtractor

end ResponseCache
