import ResponseCache.Bytes.Lemmas
import ResponseCache.Proofs.Bytes.Canonical
import ResponseCache.Proofs.Key.Query
import ResponseCache.Proofs.Layer.Run

/-!
This module contains the proof that tags are made of what tells responses apart: the bytes that are hashed for
a tag can be divided into a key, a time and a body in one way only. The key in them ends at the first zero
byte, since no zero gets into a key from a request, not even from values that are no text.
-/

namespace ResponseCache

/--
Whether there are neither blanks nor control characters in the method and the target of a request, as in all
that can be received.
-/
structure Request.Sendable (r : Request) : Prop where
  method : ∀ c ∈ r.method.toList, 0x20 < c.toNat
  target : ∀ c ∈ r.target.text, 0x20 < c.toNat

theorem Request.sendable_iff {r : Request} :
    r.Sendable ↔ (r.method.toList ++ r.target.text).all (0x20 < ·.toNat) = true := by
  rw [List.all_append, Bool.and_eq_true, List.all_eq_true, List.all_eq_true]
  simp only [decide_eq_true_eq]
  exact ⟨fun h => ⟨h.method, h.target⟩, fun h => ⟨h.1, h.2⟩⟩

instance (r : Request) : Decidable r.Sendable :=
  decidable_of_iff _ Request.sendable_iff.symm

namespace Request.Sendable

variable {r : Request}

theorem nul_not_mem_method (h : r.Sendable) : '\x00' ∉ r.method.toList :=
  fun hmem => absurd (h.method _ hmem) (by decide)

theorem nul_not_mem_text (h : r.Sendable) : '\x00' ∉ r.target.text :=
  fun hmem => absurd (h.target _ hmem) (by decide)

end Request.Sendable

/-- Whether a base is one of those that a route can choose without making its own. -/
inductive BaseKey.IsBuiltIn : BaseKey → Prop where
  | methodPathAndQuery : IsBuiltIn .methodPathAndQuery
  | pathAndQuery : IsBuiltIn .pathAndQuery
  | path : IsBuiltIn .path

theorem BaseKey.IsBuiltIn.nul_not_mem {b : BaseKey} (hb : b.IsBuiltIn) {r : Request} (hr : r.Sendable)
    {base : List Char} (h : b.extract r = some base) : '\x00' ∉ base := by
  have hpath : '\x00' ∉ r.target.path := fun hmem => hr.nul_not_mem_text (Target.mem_text_of_mem_path hmem)
  have hquery : ∀ q ∈ r.target.query, '\x00' ∉ q :=
    fun q hq hmem => hr.nul_not_mem_text (Target.mem_text_of_mem_query hq hmem)
  cases hb with
  | methodPathAndQuery =>
    obtain ⟨-, ⟨⟩⟩ := Option.ite_none_right_eq_some.1 h
    rw [List.mem_append, List.mem_cons, not_or, not_or]
    exact ⟨hr.nul_not_mem_method, by decide,
      not_mem_pathWithQuery (by decide) hpath (not_mem_normalQuery (by decide) hquery)⟩
  | pathAndQuery =>
    obtain ⟨-, ⟨⟩⟩ := Option.ite_none_right_eq_some.1 h
    exact not_mem_pathWithQuery (by decide) hpath hquery
  | path =>
    obtain ⟨-, ⟨⟩⟩ := Option.ite_none_right_eq_some.1 h
    exact hpath

theorem HeaderValue.zero_not_mem_bytes (v : HeaderValue) : 0 ∉ v.bytes :=
  fun hmem => absurd (List.all_eq_true.1 v.valid 0 hmem) (by decide)

namespace KeyExtractor

theorem nul_not_mem_headerText (headers : Headers) (name : String) : '\x00' ∉ headerText headers name := by
  unfold headerText
  apply Text.not_mem_intercalate (by decide)
  intro text hmem
  obtain ⟨value, -, rfl⟩ := List.mem_map.1 hmem
  exact Bytes.Utf8.nul_not_mem_decodeLossy value.zero_not_mem_bytes

theorem nul_not_mem_components (headers : Headers) {names : List String}
    (hnames : ∀ n ∈ names, HeaderName.isName n.toList = true) : '\x00' ∉ components headers names := by
  induction names with
  | nil => exact List.not_mem_nil
  | cons name names ih =>
    obtain ⟨hname, hrest⟩ := List.forall_mem_cons.1 hnames
    have hname := not_mem_of_isName (c := '\x00') (by decide) hname
    have hlength := Text.not_mem_decimal (c := '\x00') (by decide)
    rw [components_cons, label]
    simp [hname, hlength, nul_not_mem_headerText, ih hrest]

end KeyExtractor

/-- What a tag can be made from, as long as a route does not make keys of its own. -/
inductive IsTagKey : String → Prop where
  /-- The key of a request. -/
  | extracted {base : BaseKey} {names : List String} {r : Request} {key : String} (hbase : base.IsBuiltIn)
      (hvalid : ∀ name ∈ names, (HeaderName.ofString? name).isSome = true) (hr : r.Sendable)
      (hkey : ((KeyExtractor.mk base []).withHeaders names).extract r = some key) : IsTagKey key
  /-- Method and target of a request that has no key. -/
  | fallback {r : Request} (hr : r.Sendable) :
      IsTagKey (String.ofList (r.method.toList ++ ' ' :: r.target.text))

theorem isTagKey_tagKey {layer : Layer} {base : BaseKey} {names : List String} {job : Job}
    (hextractor : layer.extractor = (KeyExtractor.mk base []).withHeaders names) (hbase : base.IsBuiltIn)
    (hvalid : ∀ name ∈ names, (HeaderName.ofString? name).isSome = true) (hr : job.request.Sendable) :
    IsTagKey (layer.tagKey job) := by
  unfold Layer.tagKey
  cases hkey : layer.keyOf job with
  | none => exact .fallback hr
  | some key =>
    rw [Layer.keyOf, hextractor] at hkey
    exact .extracted hbase hvalid hr hkey

theorem IsTagKey.nul_not_mem {key : String} (h : IsTagKey key) : '\x00' ∉ key.toList := by
  cases h with
  | extracted hbase hvalid hr hkey =>
    obtain ⟨text, htext, rfl⟩ := Option.map_eq_some_iff.1 hkey
    rw [KeyExtractor.extractText_eq] at htext
    obtain ⟨base, hextract, rfl⟩ := Option.map_eq_some_iff.1 htext
    rw [String.toList_ofList, List.mem_append, not_or]
    exact ⟨hbase.nul_not_mem hr hextract,
      KeyExtractor.nul_not_mem_components _ (KeyExtractor.isName_of_mem_withHeaders hvalid)⟩
  | fallback hr =>
    rw [String.toList_ofList, List.mem_append, List.mem_cons, not_or, not_or]
    exact ⟨hr.nul_not_mem_method, by decide, hr.nul_not_mem_text⟩

theorem Time.unixNanos_lt (t : Time) : t.unixNanos < 256 ^ 16 := by
  have hlt := t.nanos_lt
  unfold timeBound nanosPerSec at hlt
  unfold unixNanos
  omega

namespace EntityTag

open Bytes (sha256)

theorem material_inj {key key' : String} (hkey : '\x00' ∉ key.toList) (hkey' : '\x00' ∉ key'.toList)
    {body body' : Bytes} {time time' : Time} (h : material key body time = material key' body' time') :
    key = key' ∧ body = body' ∧ time.unixNanos = time'.unixNanos := by
  simp only [material, List.append_assoc, List.cons_append, List.nil_append] at h
  -- The key ends at the first zero, and the time takes a fixed number of bytes.
  obtain ⟨htext, hrest⟩ :=
    Text.append_sep_inj (Bytes.Utf8.zero_not_mem_encode hkey) (Bytes.Utf8.zero_not_mem_encode hkey') h
  obtain ⟨htime, hbody⟩ := List.append_inj hrest (by rw [Bytes.length_bigEndian, Bytes.length_bigEndian])
  exact ⟨String.toList_inj.1 (Bytes.Utf8.encode_inj htext), hbody,
    Bytes.bigEndian_inj time.unixNanos_lt time'.unixNanos_lt htime⟩

theorem generate_eq_iff {key key' : String} {body body' : Bytes} {time time' : Time} :
    generate key body time = generate key' body' time'
      ↔ (sha256 (material key body time)).take 16 = (sha256 (material key' body' time')).take 16 := by
  constructor
  . intro h
    have hquoted := (List.cons.inj (String.ofList_injective h)).2
    exact Bytes.toHex_inj (List.append_cancel_right hquoted)
  . intro h
    unfold generate
    rw [h]

/-- Whether two byte strings have hashes with the same first half although they differ. -/
def Collide (bs bs' : Bytes) : Prop :=
  bs ≠ bs' ∧ (sha256 bs).take 16 = (sha256 bs').take 16

/--
Tags are made of the same bytes exactly if key, body and time are the same, where all times before the epoch
count as the epoch. So from the epoch on, two responses share a tag only if they were made from the same, or
else by a collision of the hash.
-/
theorem material_eq_iff_of_isTagKey {key key' : String} (hkey : IsTagKey key) (hkey' : IsTagKey key')
    (body body' : Bytes) (time time' : Time) :
    (material key body time = material key' body' time'
        ↔ key = key' ∧ body = body' ∧ time.unixNanos = time'.unixNanos)
      ∧ (.epoch ≤ time → .epoch ≤ time' →
        (generate key body time = generate key' body' time'
          ↔ (key = key' ∧ body = body' ∧ time = time')
            ∨ Collide (material key body time) (material key' body' time'))) := by
  have hinj : material key body time = material key' body' time'
      → key = key' ∧ body = body' ∧ time.unixNanos = time'.unixNanos :=
    material_inj hkey.nul_not_mem hkey'.nul_not_mem
  refine ⟨⟨hinj, ?_⟩, ?_⟩
  . rintro ⟨rfl, rfl, htime⟩
    unfold material
    rw [htime]
  . intro htime htime'
    constructor
    . intro htag
      by_cases heq : material key body time = material key' body' time'
      . obtain ⟨rfl, rfl, hnanos⟩ := hinj heq
        exact Or.inl ⟨rfl, rfl, Time.eq_of_unixNanos_eq htime htime' hnanos⟩
      . exact Or.inr ⟨heq, generate_eq_iff.1 htag⟩
    . rintro (⟨rfl, rfl, rfl⟩ | hcollide)
      . rfl
      . exact generate_eq_iff.2 hcollide.2

def layerOfAccept : Layer :=
  { Layer.sample false with extractor := KeyExtractor.standard.withHeaders ["Accept"] }

def jobOfAccept (method : String) : Job :=
  { Job.sample 0 (.ok .empty) with
    request := ⟨method, .ofText "/a?b=1&a=2".toList, [(⟨"accept", by decide⟩, ⟨[0x80], by decide⟩)]⟩ }

/-- One of the two requests has a key and the other has none, and their bodies are the same. -/
theorem material_eq_iff_of_jobOfAccept :
    layerOfAccept.tagKey (jobOfAccept "GET") = "GET /a?a=2&b=1|accept=3:\ufffd"
      ∧ layerOfAccept.tagKey (jobOfAccept "POST") = "POST /a?b=1&a=2"
      ∧ IsTagKey "GET /a?a=2&b=1|accept=3:\ufffd" ∧ IsTagKey "POST /a?b=1&a=2" ∧ Time.epoch ≤ Time.epoch
      ∧ material "GET /a?a=2&b=1|accept=3:\ufffd" [0] .epoch ≠ material "POST /a?b=1&a=2" [0] .epoch
      ∧ (generate "GET /a?a=2&b=1|accept=3:\ufffd" [0] .epoch = generate "POST /a?b=1&a=2" [0] .epoch →
        Collide (material "GET /a?a=2&b=1|accept=3:\ufffd" [0] .epoch)
          (material "POST /a?b=1&a=2" [0] .epoch)) := by
  have hget : layerOfAccept.tagKey (jobOfAccept "GET") = "GET /a?a=2&b=1|accept=3:\ufffd" := by decide +kernel
  have hpost : layerOfAccept.tagKey (jobOfAccept "POST") = "POST /a?b=1&a=2" := by decide +kernel
  have hkey (method : String) (hr : (jobOfAccept method).request.Sendable) :
      IsTagKey (layerOfAccept.tagKey (jobOfAccept method)) :=
    isTagKey_tagKey rfl .methodPathAndQuery (by decide) hr
  have hgetKey := hkey "GET" (by decide +kernel)
  have hpostKey := hkey "POST" (by decide +kernel)
  rw [hget] at hgetKey
  rw [hpost] at hpostKey
  obtain ⟨hmaterial, htag⟩ := material_eq_iff_of_isTagKey hgetKey hpostKey [0] [0] .epoch .epoch
  have hle : Time.epoch ≤ Time.epoch := by decide
  have hne : "GET /a?a=2&b=1|accept=3:\ufffd" ≠ "POST /a?b=1&a=2" := by decide
  refine ⟨hget, hpost, hgetKey, hpostKey, hle, fun heq => hne (hmaterial.1 heq).1, ?_⟩
  intro heq
  exact ((htag hle hle).1 heq).resolve_left fun hsame => hne hsame.1

end EntityTag

end ResponseCache
