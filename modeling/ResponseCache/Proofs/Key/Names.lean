import Mathlib.Data.List.Sort
import ResponseCache.Proofs.Key.Order
import ResponseCache.Proofs.Replay

/-!
This module contains the proof that keys do not depend on how the keyed header fields are listed, nor on how
the fields of a request are: the names of an extractor are a normal form of the set that was listed, and values
are found by the name of their field alone.
-/

namespace ResponseCache

/-- A field may be carried if its name is valid in lower case, and its value is. -/
theorem Entry.validField?_eq (field : String × Bytes) :
    validField? field
      = if h : HeaderName.isName (lowerCase field.1).toList = true then
          (HeaderValue.ofBytes? field.2).map fun value => (⟨lowerCase field.1, h⟩, value)
        else
          none := by
  obtain ⟨name, value⟩ := field
  unfold validField? HeaderName.ofString?
  dsimp only
  split
  next => cases HeaderValue.ofBytes? value <;> rfl
  next => rfl

namespace Headers

/-- The fields of a message in the spelling and order in which they are given, as far as it may carry them. -/
def ofFields (fields : List (String × Bytes)) : Headers :=
  fields.filterMap Entry.validField?

/-- The values that are given for a name, which is in lower case, in order. -/
def valuesOf (fields : List (String × Bytes)) (name : String) : List Bytes :=
  (fields.filter fun field => lowerCase field.1 = name).map Prod.snd

theorem valuesOf_cons (field : String × Bytes) (fields : List (String × Bytes)) (name : String) :
    valuesOf (field :: fields) name
      = if lowerCase field.1 = name then field.2 :: valuesOf fields name else valuesOf fields name := by
  unfold valuesOf
  rw [List.filter_cons]
  simp only [decide_eq_true_eq]
  split <;> rfl

/-- A name has the values that are given for it in any case, as far as they are valid. -/
theorem getAll_ofFields (fields : List (String × Bytes)) (name : String) :
    (ofFields fields).getAll name
      = if HeaderName.isName name.toList then (valuesOf fields name).filterMap HeaderValue.ofBytes? else [] := by
  induction fields with
  | nil => simp [ofFields, valuesOf]
  | cons field fields ih =>
    unfold ofFields at ih ⊢
    rw [List.filterMap_cons, Entry.validField?_eq, valuesOf_cons]
    by_cases hname : lowerCase field.1 = name
    . subst hname
      rw [if_pos rfl, List.filterMap_cons]
      split at ih
      next hvalid =>
        rw [dif_pos hvalid, if_pos hvalid]
        cases HeaderValue.ofBytes? field.2 with
        | none => exact ih
        | some value => rw [Option.map_some, getAll_cons, if_pos rfl, ih]
      next hinvalid => rw [dif_neg hinvalid, if_neg hinvalid, ih]
    . rw [if_neg hname, ← ih]
      by_cases hvalid : HeaderName.isName (lowerCase field.1).toList = true
      . rw [dif_pos hvalid]
        cases HeaderValue.ofBytes? field.2 with
        | none => rfl
        | some value => rw [Option.map_some, getAll_cons, if_neg hname]
      . rw [dif_neg hvalid]

/-- The order of fields with different names does not matter, nor does the case in which names are spelled. -/
theorem getAll_ofFields_congr {fields fields' : List (String × Bytes)}
    (h : ∀ field ∈ fields ++ fields',
      valuesOf fields (lowerCase field.1) = valuesOf fields' (lowerCase field.1)) (name : String) :
    (ofFields fields).getAll name = (ofFields fields').getAll name := by
  have hvalues : valuesOf fields name = valuesOf fields' name := by
    by_cases hmem : ∃ field ∈ fields ++ fields', lowerCase field.1 = name
    . obtain ⟨field, hmem, rfl⟩ := hmem
      exact h field hmem
    . have hnone {given : List (String × Bytes)} (hsub : ∀ field ∈ given, field ∈ fields ++ fields') :
          valuesOf given name = [] := by
        unfold valuesOf
        rw [List.map_eq_nil_iff, List.filter_eq_nil_iff]
        intro field hfield heq
        exact hmem ⟨field, hsub field hfield, of_decide_eq_true heq⟩
      rw [hnone fun field => List.mem_append_left _, hnone fun field => List.mem_append_right _]
  rw [getAll_ofFields, getAll_ofFields, hvalues]

end Headers

namespace KeyExtractor

def Ascending (names : List String) : Prop :=
  names.Pairwise fun name later => name.toList < later.toList

theorem ascending_insertName {name : String} {names : List String} (h : Ascending names) :
    Ascending (insertName name names) := by
  induction names with
  | nil => exact List.pairwise_singleton _ name
  | cons head names ih =>
    obtain ⟨hhead, hnames⟩ := List.pairwise_cons.1 h
    unfold insertName
    split
    next hbefore =>
      have hlt : name.toList < head.toList := textBefore_iff_lt.1 hbefore
      refine List.pairwise_cons.2 ⟨?_, h⟩
      intro later hmem
      cases List.mem_cons.1 hmem with
      | inl heq => exact heq ▸ hlt
      | inr hmem => exact hlt.trans (hhead later hmem)
    next hnot =>
      split
      next => exact h
      next hne =>
        have hle : head.toList ≤ name.toList := le_of_not_gt (mt textBefore_iff_lt.2 hnot)
        have hlt : head.toList < name.toList :=
          hle.lt_of_ne fun heq => hne (String.toList_inj.1 heq).symm
        refine List.pairwise_cons.2 ⟨?_, ih hnames⟩
        intro later hmem
        cases mem_insertName.1 hmem with
        | inl heq => exact heq ▸ hlt
        | inr hmem => exact hhead later hmem

theorem ascending_withHeaders (k : KeyExtractor) (names : List String) :
    Ascending (k.withHeaders names).names := by
  unfold withHeaders
  dsimp only
  induction names.map lowerCase with
  | nil => exact List.Pairwise.nil
  | cons name names ih => exact ascending_insertName ih

/-- There is one way only to list given names in ascending order. -/
theorem eq_of_ascending {names names' : List String} (h : Ascending names) (h' : Ascending names')
    (hmem : ∀ n, n ∈ names ↔ n ∈ names') : names = names' := by
  have : Std.Irrefl fun name later : String => name.toList < later.toList :=
    ⟨fun name => lt_irrefl name.toList⟩
  have : Std.Antisymm fun name later : String => name.toList < later.toList :=
    ⟨fun _ _ hlt hgt => absurd (hlt.trans hgt) (lt_irrefl _)⟩
  exact List.Pairwise.eq_of_mem_iff h h' hmem

/-- The names of an extractor tell which names were listed in any case, and nothing else about the list. -/
theorem withHeaders_eq_iff {k : KeyExtractor} {names names' : List String} :
    k.withHeaders names = k.withHeaders names'
      ↔ ∀ n, n ∈ names.map lowerCase ↔ n ∈ names'.map lowerCase := by
  have hmem (listed : List String) (n : String) :
      n ∈ (k.withHeaders listed).names ↔ n ∈ listed.map lowerCase := by
    rw [mem_withHeaders, List.mem_map]
  constructor
  . intro heq n
    rw [← hmem names, heq, hmem names']
  . intro hall
    have hnames : (k.withHeaders names).names = (k.withHeaders names').names := by
      apply eq_of_ascending (ascending_withHeaders k names) (ascending_withHeaders k names')
      intro n
      rw [hmem, hmem]
      exact hall n
    exact congrArg (KeyExtractor.mk k.base) hnames

theorem components_congr {h h' : Headers} (hvalues : ∀ name, h.getAll name = h'.getAll name)
    (names : List String) : components h names = components h' names := by
  rw [components_eq_iff]
  intro name _
  unfold headerText
  rw [hvalues]

/-- Under the same names and with the same values of each, keys agree exactly if their bases do. -/
theorem extract_eq_iff_base {k : KeyExtractor} {r r' : Request}
    (hvalues : ∀ name, r.headers.getAll name = r'.headers.getAll name) :
    k.extract r = k.extract r' ↔ k.base.extract r = k.base.extract r' := by
  have htexts : k.extractText r = k.extractText r' ↔ k.base.extract r = k.base.extract r' := by
    rw [extractText_eq, extractText_eq, components_congr hvalues]
    apply Option.map_inj_right
    intro base base' heq
    exact List.append_cancel_right heq
  rw [← htexts]
  constructor
  . exact extract_inj
  . intro heq
    unfold extract
    rw [heq]

end KeyExtractor

/--
Whether a base that a route makes of its own reads header fields by their names: the order of fields with
different names says nothing. The other bases read no header fields.
-/
def BaseKey.ReadsByName : BaseKey → Prop
  | .custom base => ∀ r r' : Request, r.method = r'.method → r.target = r'.target →
    (∀ name, r.headers.getAll name = r'.headers.getAll name) → base r = base r'
  | _ => True

theorem BaseKey.ReadsByName.extract_eq {b : BaseKey} (h : b.ReadsByName) {r r' : Request}
    (hmethod : r.method = r'.method) (htarget : r.target = r'.target)
    (hvalues : ∀ name, r.headers.getAll name = r'.headers.getAll name) : b.extract r = b.extract r' := by
  have hcacheable : r.isCacheable = r'.isCacheable := by
    unfold Request.isCacheable
    rw [hmethod]
  cases b with
  | custom base => exact congrArg (Option.map String.toList) (h r r' hmethod htarget hvalues)
  | _ => simp only [extract, hcacheable, hmethod, htarget]

namespace KeyExtractor

/--
However the names of keyed header fields are listed, in whatever order, case and number, and however those of
the fields of a request are, requests with the same method, target and values of each name have the same key.
Only a base that a route makes of its own could tell them apart, and keys then agree exactly if the bases do.
-/
theorem extract_eq_of_sameNames {k : KeyExtractor} {names names' : List String}
    (hnames : ∀ n, n ∈ names.map lowerCase ↔ n ∈ names'.map lowerCase) {r r' : Request}
    (hmethod : r.method = r'.method) (htarget : r.target = r'.target)
    (hvalues : ∀ name, r.headers.getAll name = r'.headers.getAll name) :
    (k.base.ReadsByName → (k.withHeaders names).extract r = (k.withHeaders names').extract r')
      ∧ ((k.withHeaders names).extract r = (k.withHeaders names').extract r'
        ↔ k.base.extract r = k.base.extract r') := by
  have hiff : (k.withHeaders names).extract r = (k.withHeaders names').extract r'
      ↔ k.base.extract r = k.base.extract r' := by
    rw [withHeaders_eq_iff.2 hnames]
    exact extract_eq_iff_base hvalues
  exact ⟨fun hbase => hiff.2 (hbase.extract_eq hmethod htarget hvalues), hiff⟩

/-- A base that a route makes of a field with the name of its tenant, and the path. -/
def tenantBase : BaseKey :=
  .custom fun r => (r.headers.get? "x-tenant").map fun value =>
    String.ofList (Bytes.Utf8.decodeLossy value.bytes ++ r.target.path)

def spelledRequest (fields : List (String × Bytes)) : Request where
  method := "GET"
  target := .ofPath ['/', 'a']
  headers := .ofFields fields

/-- Two languages, the first of them before the tenant. -/
def languagesAround : List (String × Bytes) :=
  [("Accept-Language", [0x64, 0x65]), ("X-Tenant", [0x74]), ("accept-language", [0x65, 0x6e])]

def languagesAfter : List (String × Bytes) :=
  [("x-tenant", [0x74]), ("ACCEPT-LANGUAGE", [0x64, 0x65]), ("Accept-Language", [0x65, 0x6e])]

theorem extract_spelledRequest_eq :
    (∀ n, n ∈ ["X-Tenant", "accept-language"].map lowerCase
        ↔ n ∈ ["Accept-Language", "x-tenant", "ACCEPT-LANGUAGE"].map lowerCase)
      ∧ (spelledRequest languagesAround).method = (spelledRequest languagesAfter).method
      ∧ (spelledRequest languagesAround).target = (spelledRequest languagesAfter).target
      ∧ (∀ name, (spelledRequest languagesAround).headers.getAll name
        = (spelledRequest languagesAfter).headers.getAll name)
      ∧ tenantBase.ReadsByName
      ∧ (spelledRequest languagesAround).headers ≠ (spelledRequest languagesAfter).headers
      ∧ ((KeyExtractor.mk tenantBase []).withHeaders ["X-Tenant", "accept-language"]).extract
          (spelledRequest languagesAround)
        = some "t/a|accept-language=5:de,en|x-tenant=1:t"
      ∧ ((KeyExtractor.mk tenantBase []).withHeaders
          ["Accept-Language", "x-tenant", "ACCEPT-LANGUAGE"]).extract (spelledRequest languagesAfter)
        = some "t/a|accept-language=5:de,en|x-tenant=1:t" := by
  have hnames : ∀ n, n ∈ ["X-Tenant", "accept-language"].map lowerCase
      ↔ n ∈ ["Accept-Language", "x-tenant", "ACCEPT-LANGUAGE"].map lowerCase :=
    (withHeaders_eq_iff (k := ⟨tenantBase, []⟩)).1 (congrArg (KeyExtractor.mk tenantBase) (by decide))
  have hvalues : ∀ name, (spelledRequest languagesAround).headers.getAll name
      = (spelledRequest languagesAfter).headers.getAll name :=
    Headers.getAll_ofFields_congr (by decide +kernel)
  have hbase : tenantBase.ReadsByName := by
    intro r r' _ htarget hvalues
    dsimp only
    rw [htarget, Headers.get?, Headers.get?, hvalues]
  have hkey : ((KeyExtractor.mk tenantBase []).withHeaders ["X-Tenant", "accept-language"]).extract
      (spelledRequest languagesAround) = some "t/a|accept-language=5:de,en|x-tenant=1:t" := by
    decide +kernel
  have hmethod : (spelledRequest languagesAround).method = (spelledRequest languagesAfter).method := rfl
  have htarget : (spelledRequest languagesAround).target = (spelledRequest languagesAfter).target := rfl
  refine ⟨hnames, hmethod, htarget, hvalues, hbase, by decide +kernel, hkey, ?_⟩
  rw [← hkey]
  exact ((extract_eq_of_sameNames (k := ⟨tenantBase, []⟩) hnames hmethod htarget hvalues).1 hbase).symm

/-- A base that a route makes of the name of the field that comes first, whatever it is. -/
def firstFieldBase : BaseKey :=
  .custom fun r => r.headers.head?.map fun field => field.1.text

/-- Two requests that differ in nothing but the order of fields with different names get different keys. -/
theorem extract_ne_of_fieldOrder :
    (spelledRequest languagesAround).method = (spelledRequest languagesAfter).method
      ∧ (spelledRequest languagesAround).target = (spelledRequest languagesAfter).target
      ∧ (∀ name, (spelledRequest languagesAround).headers.getAll name
        = (spelledRequest languagesAfter).headers.getAll name)
      ∧ ((KeyExtractor.mk firstFieldBase []).withHeaders ["X-Tenant"]).extract (spelledRequest languagesAround)
        = some "accept-language|x-tenant=1:t"
      ∧ ((KeyExtractor.mk firstFieldBase []).withHeaders ["X-Tenant"]).extract (spelledRequest languagesAfter)
        = some "x-tenant|x-tenant=1:t" := by
  refine ⟨rfl, rfl, Headers.getAll_ofFields_congr (by decide +kernel), ?_, ?_⟩
  . decide +kernel
  . decide +kernel

end KeyExtractor

end ResponseCache
