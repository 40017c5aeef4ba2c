import Mathlib.Data.List.Nodup
import ResponseCache.Proofs.Json.RoundTrip

/-!
This module contains what the decoding of a record comes to if none of its fields occurs twice: each field is taken
up, in whatever order they stand. So a record is decoded from its text and from its value in memory alike, where the
fields are sorted by name.
-/

namespace ResponseCache.Json

variable {α β : Type}

/-- A list is decoded from the values of its members, if each of them is. -/
theorem decodeList_list {item : Json → Except DecodeError α} {value : α → Json}
    (h : ∀ a, item (value a) = .ok a) (as : List α) : decodeList item (.list (as.map value)) = .ok as := by
  have hitem : item ∘ value = pure := funext h
  have hitems : (as.map value).mapM item = pure as := by
    rw [List.mapM_map, hitem, List.mapM_pure, List.map_id']
  unfold decodeList Json.list
  simp only [hitems]
  rfl

/-- A value that may be absent is decoded if it is told from its absence. -/
theorem decodeOptional_optional {decode : Json → Except DecodeError β} {value : α → Json} {f : α → β}
    (h : ∀ a, decode (value a) = .ok (f a)) (hnull : ∀ a, value a ≠ .null) (a : Option α) :
    decodeOptional decode (.optional value a) = .ok (a.map f) := by
  cases a with
  | none => rfl
  | some a =>
    unfold Json.optional decodeOptional
    split
    next heq => exact absurd heq (hnull a)
    next =>
      rw [h]
      rfl

def named (fields : List (String × Json)) : List (Option String × Json) :=
  fields.map fun (name, value) => (some name, value)

theorem named_cons (f : String × Json) (fields : List (String × Json)) :
    named (f :: fields) = (some f.1, f.2) :: named fields :=
  rfl

section Decoding

variable {r : RecordDecoder α} {taken : List String → α} {fields : List (String × Json)} {names : List String}

/-- Whether a field is taken up by whatever was taken up of the others before. -/
def Taken (r : RecordDecoder α) (taken : List String → α) (f : String × Json) : Prop :=
  ∀ names, f.1 ∉ names → r.field f.1 f.2 (taken names) = .ok (taken (f.1 :: names))

/-- Fields with names of their own are taken up one after the other. -/
theorem fields_named (hfields : ∀ f ∈ fields, Taken r taken f) (hnodup : (fields.map Prod.fst).Nodup)
    (hnew : ∀ f ∈ fields, f.1 ∉ names) :
    r.fields (taken names) (named fields) = .ok (taken ((fields.map Prod.fst).reverse ++ names)) := by
  induction fields generalizing names with
  | nil => rfl
  | cons f fields ih =>
    obtain ⟨hf, hfields⟩ := List.forall_mem_cons.1 hfields
    obtain ⟨hfresh, hnodup⟩ := List.nodup_cons.1 hnodup
    obtain ⟨hname, hnew⟩ := List.forall_mem_cons.1 hnew
    have hothers : ∀ g ∈ fields, g.1 ∉ f.1 :: names := by
      intro g hg hmem
      cases List.mem_cons.1 hmem with
      | inl heq => exact hfresh (heq ▸ List.mem_map_of_mem hg)
      | inr hmem => exact hnew g hg hmem
    rw [named_cons, RecordDecoder.fields, hf names hname, List.map_cons, List.reverse_cons, List.append_assoc,
      List.singleton_append, ← ih hfields hnodup hothers]
    rfl

/-- An object that is closed and alone in its document is decoded field by field. -/
theorem decode_object (r : RecordDecoder α) (empty : α) (fields : List (Option String × Json)) (origin : Origin) :
    r.decode empty ⟨.object fields true, origin, true⟩ = r.fields empty fields := by
  unfold RecordDecoder.decode
  cases h : r.fields empty fields <;> simp [h, bind, Except.bind, pure, Except.pure]

/-- A record is decoded from its fields in whatever order they stand, if nothing else is in the document. -/
theorem decode_record (hfields : ∀ f ∈ fields, Taken r taken f) (hnodup : (fields.map Prod.fst).Nodup)
    (origin : Origin) :
    r.decode (taken []) ⟨.record fields, origin, true⟩ = .ok (taken (fields.map Prod.fst).reverse) := by
  have hread : r.fields (taken []) (named fields) = .ok (taken (fields.map Prod.fst).reverse) := by
    rw [fields_named hfields hnodup fun _ _ => List.not_mem_nil, List.append_nil]
  unfold Json.record
  rw [decode_object]
  exact hread

end Decoding

section Sorting

variable {fields sorted : List (String × Json)}

theorem exists_insertField_named {f : String × Json} (hnew : f.1 ∉ fields.map Prod.fst) :
    ∃ gs, gs.Perm (f :: fields) ∧ insertField (some f.1, f.2) (named fields) = named gs := by
  induction fields with
  | nil => exact ⟨[f], .refl _, rfl⟩
  | cons g fields ih =>
    rw [List.map_cons, List.mem_cons, not_or] at hnew
    obtain ⟨gs, hperm, hgs⟩ := ih hnew.2
    simp only [named_cons, insertField, Option.getD_some]
    by_cases hlt : f.1 < g.1
    . exact ⟨f :: g :: fields, .refl _, if_pos hlt⟩
    . refine ⟨g :: gs, (hperm.cons g).trans (.swap f g fields), ?_⟩
      rw [if_neg hlt, if_neg hnew.1, hgs, named_cons]

theorem exists_foldl_insertField (hnodup : (fields.map Prod.fst).Nodup)
    (hnew : ∀ f ∈ fields, f.1 ∉ sorted.map Prod.fst) :
    ∃ gs, gs.Perm (fields ++ sorted)
      ∧ (named fields).foldl (fun sorted f => insertField f sorted) (named sorted) = named gs := by
  induction fields generalizing sorted with
  | nil => exact ⟨sorted, .refl _, rfl⟩
  | cons f fields ih =>
    obtain ⟨hfresh, hnodup⟩ := List.nodup_cons.1 hnodup
    obtain ⟨hname, hnew⟩ := List.forall_mem_cons.1 hnew
    obtain ⟨gs, hperm, hgs⟩ := exists_insertField_named hname
    have hothers : ∀ g ∈ fields, g.1 ∉ gs.map Prod.fst := by
      intro g hg hmem
      rw [(hperm.map Prod.fst).mem_iff, List.map_cons, List.mem_cons] at hmem
      cases hmem with
      | inl heq => exact hfresh (heq ▸ List.mem_map_of_mem hg)
      | inr hmem => exact hnew g hg hmem
    obtain ⟨all, hall, hfold⟩ := ih hnodup hothers
    refine ⟨all, hall.trans ((hperm.append_left fields).trans List.perm_middle), ?_⟩
    rw [named_cons, List.foldl_cons, hgs, hfold]

/-- To sort the fields of a record is to put them into another order, if no two of them have one name. -/
theorem exists_sortFields_record (hnodup : (fields.map Prod.fst).Nodup) :
    ∃ sorted, sorted.Perm fields ∧ (Json.record fields).sortFields = .record sorted := by
  have hnone : ∀ f ∈ fields, f.1 ∉ ([] : List (String × Json)).map Prod.fst := fun _ _ => List.not_mem_nil
  obtain ⟨sorted, hperm, hsorted⟩ := exists_foldl_insertField hnodup hnone
  rw [List.append_nil] at hperm
  refine ⟨sorted, hperm, ?_⟩
  unfold Json.record sortFields
  exact congrArg (Json.object · true) hsorted

end Sorting

/-- The document of a value that is written, be it as a text or as a value in memory. -/
def Document.written (value : Json) : Origin → Document
  | .text => .ofText (String.ofList value.print)
  | .memory => .ofValue value

/-- A record that is written is decoded with all its fields. -/
theorem exists_decode_written {r : RecordDecoder α} {taken : List String → α} {fields : List (String × Json)}
    (hfields : ∀ f ∈ fields, Taken r taken f ∧ Writable f.2) (hnodup : (fields.map Prod.fst).Nodup)
    (origin : Origin) :
    ∃ names, names.Perm (fields.map Prod.fst)
      ∧ r.decode (taken []) (.written (.record fields) origin) = .ok (taken names) := by
  have hwritten : ∃ fields' : List (String × Json), fields'.Perm fields
      ∧ Document.written (.record fields) origin = ⟨.record fields', origin, true⟩ := by
    cases origin with
    | text => exact ⟨fields, .refl _, Document.ofText_print (.record fun f hf => (hfields f hf).2)⟩
    | memory =>
      obtain ⟨sorted, hperm, hsorted⟩ := exists_sortFields_record hnodup
      exact ⟨sorted, hperm, by rw [Document.written, Document.ofValue, hsorted]⟩
  obtain ⟨fields', hperm, hdocument⟩ := hwritten
  refine ⟨(fields'.map Prod.fst).reverse, (List.reverse_perm _).trans (hperm.map Prod.fst), ?_⟩
  rw [hdocument]
  apply decode_record
  . exact fun f hf => (hfields f (hperm.mem_iff.1 hf)).1
  . exact (hperm.map Prod.fst).nodup_iff.2 hnodup

end ResponseCache.Json
