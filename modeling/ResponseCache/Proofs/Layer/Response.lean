import ResponseCache.Layer.Step
import ResponseCache.Proofs.Capture
import ResponseCache.Proofs.EntityTag
import ResponseCache.Text.Number

/-!
This module contains what the responses of a cache have of the entries that they are made of: one tag,
which is that of the entry, its status and body unless the client has them already, and a lifetime unless
the entry has caching directives of its own.
-/

namespace ResponseCache

theorem HeaderValue.ofString?_maxAge (secs : Nat) :
    ∃ value, HeaderValue.ofString? ("max-age=" ++ toString secs) = some value := by
  have hdigits : (toString secs).toList = Text.decimal secs := by
    unfold Text.decimal
    rw [Nat.toString_eq_repr]
    exact String.toList_ofList
  have hname : "max-age=".toList.all (fun c => 0x20 ≤ c.toNat ∧ c.toNat < 0x7f) = true := by
    decide
  obtain ⟨value, hvalue, -⟩ := HeaderValue.ofString?_of_visible (s := "max-age=" ++ toString secs) <| by
    intro c hc
    rw [String.toList_append, hdigits, List.mem_append] at hc
    cases hc with
    | inl hc => exact of_decide_eq_true (List.all_eq_true.1 hname c hc)
    | inr hc =>
      have hdigit := Text.isDigit_of_mem_decimal hc
      unfold Text.isDigit at hdigit
      rw [Bool.and_eq_true, decide_eq_true_eq, decide_eq_true_eq] at hdigit
      have hlow : '0'.toNat ≤ c.toNat := hdigit.1
      have hhigh : c.toNat ≤ '9'.toNat := hdigit.2
      have hzero : 0x20 ≤ '0'.toNat := by decide
      have hnine : '9'.toNat < 0x7f := by decide
      omega
  exact ⟨value, hvalue⟩

def HeaderValue.maxAge (secs : Nat) : HeaderValue :=
  (HeaderValue.ofString? ("max-age=" ++ toString secs)).get
    (Option.isSome_iff_exists.2 (HeaderValue.ofString?_maxAge secs))

theorem HeaderValue.ofString?_eq_maxAge (secs : Nat) :
    HeaderValue.ofString? ("max-age=" ++ toString secs) = some (.maxAge secs) := by
  unfold HeaderValue.maxAge
  rw [Option.some_get]

theorem Headers.contains_eq_false_iff {headers : Headers} {name : String} :
    headers.contains name = false ↔ headers.getAll name = [] := by
  unfold Headers.contains
  rw [Bool.not_eq_false', List.isEmpty_iff]

theorem getAll_cacheControl_setMaxAge_of_nil {headers : Headers} (secs : Nat)
    (hnil : headers.getAll "cache-control" = []) :
    (setMaxAge headers secs).getAll "cache-control" = [.maxAge secs] := by
  unfold setMaxAge
  rw [Headers.contains_eq_false_iff.2 hnil, HeaderValue.ofString?_eq_maxAge]
  exact Headers.getAll_set_self headers .cacheControl _

theorem getAll_cacheControl_setMaxAge_of_ne_nil {headers : Headers} (secs : Nat)
    (hne : headers.getAll "cache-control" ≠ []) :
    (setMaxAge headers secs).getAll "cache-control" = headers.getAll "cache-control" := by
  have hcontains : headers.contains "cache-control" = true := by
    rw [← Bool.not_eq_false, Headers.contains_eq_false_iff]
    exact hne
  unfold setMaxAge
  rw [if_pos hcontains]

theorem getAll_setMaxAge (headers : Headers) (secs : Nat) {name : String}
    (hne : name ≠ "cache-control") :
    (setMaxAge headers secs).getAll name = headers.getAll name := by
  unfold setMaxAge
  split
  next => rfl
  next =>
    split
    next value _ => exact Headers.getAll_set_of_ne headers value hne.symm
    next => rfl

theorem getAll_setTag {headers : Headers} {etag : String} {value : HeaderValue}
    (hvalue : HeaderValue.ofString? etag = some value) :
    (Entry.setTag headers etag).getAll "etag" = [value] := by
  unfold Entry.setTag
  rw [hvalue]
  exact Headers.getAll_set_self headers .etag value

theorem setTag_of_ofString?_eq_none {etag : String} (hnone : HeaderValue.ofString? etag = none)
    (headers : Headers) : Entry.setTag headers etag = headers := by
  unfold Entry.setTag
  rw [hnone]

theorem getAll_setTag_of_ne (headers : Headers) (etag : String) {name : String} (hne : name ≠ "etag") :
    (Entry.setTag headers etag).getAll name = headers.getAll name := by
  unfold Entry.setTag
  split
  next value _ => exact Headers.getAll_set_of_ne headers value hne.symm
  next => rfl

namespace Entry

def fields (e : Entry) : Headers :=
  e.headers.filterMap validField?

theorem toResponse_headers (e : Entry) : e.toResponse.headers = setTag e.fields e.etag := rfl

/-- An entry without a field of a name replays none, unless it is that of its tag. -/
theorem getAll_fields_of_header?_eq_none {e : Entry} (name : HeaderName)
    (hnone : e.header? name.text = none) : e.fields.getAll name.text = [] := by
  unfold header? at hnone
  rw [Option.map_eq_none_iff, List.find?_eq_none] at hnone
  unfold Headers.getAll fields
  rw [List.map_eq_nil_iff, List.filter_eq_nil_iff]
  intro p hp
  obtain ⟨⟨text, bytes⟩, hmem, hvalid⟩ := List.mem_filterMap.1 hp
  unfold validField? at hvalid
  rw [Option.bind_eq_bind, Option.bind_eq_some_iff] at hvalid
  obtain ⟨other, hother, hvalue⟩ := hvalid
  rw [Option.bind_eq_bind, Option.bind_eq_some_iff] at hvalue
  obtain ⟨value, -, heq⟩ := hvalue
  obtain rfl := Option.some.inj heq
  unfold HeaderName.ofString? at hother
  split at hother
  next =>
    obtain rfl := Option.some.inj hother
    have hne := hnone _ hmem
    rw [decide_eq_true_eq, HeaderName.lowerCase_text] at hne
    rw [decide_eq_true_eq]
    exact hne
  next => exact absurd hother.symm (Option.some_ne_none _)

end Entry

namespace Layer

variable {l : Layer} {job : Job} {entry : Entry} {now : Time}

theorem serve_of_isRevalidated (h : serve.isRevalidated job entry = true) :
    (l.serve job entry now).status = .notModified ∧ (l.serve job entry now).body = [] := by
  unfold serve
  simp only [h, if_true, and_self]

theorem serve_of_not_isRevalidated (h : serve.isRevalidated job entry = false) :
    (l.serve job entry now).status = entry.status
      ∧ (l.serve job entry now).body = entry.body := by
  unfold serve
  simp only [h, Bool.false_eq_true, if_false]
  exact ⟨rfl, rfl⟩

theorem status_serve_eq_notModified_iff (hsuccess : entry.status.isSuccess = true) :
    (l.serve job entry now).status = .notModified ↔ serve.isRevalidated job entry = true := by
  cases hrevalidated : serve.isRevalidated job entry with
  | true => simp [(serve_of_isRevalidated hrevalidated).1]
  | false =>
    have hne : entry.status ≠ .notModified := by
      intro hstatus
      rw [hstatus] at hsuccess
      exact absurd hsuccess (by decide)
    simp [(serve_of_not_isRevalidated hrevalidated).1, hne]

theorem getAll_etag_serve {value : HeaderValue}
    (hvalue : HeaderValue.ofString? entry.etag = some value) :
    (l.serve job entry now).headers.getAll "etag" = [value] := by
  unfold serve
  simp only
  split
  next => rw [getAll_setMaxAge _ _ (by decide), getAll_setTag hvalue]
  next =>
    rw [getAll_setMaxAge _ _ (by decide)]
    exact getAll_setTag hvalue

theorem getAll_etag_replay {value : HeaderValue} (hvalue : HeaderValue.ofString? entry.etag = some value)
    (stored : Bool) : (l.replay entry stored).headers.getAll "etag" = [value] := by
  unfold replay
  cases stored with
  | false => exact getAll_setTag hvalue
  | true => exact (getAll_setMaxAge _ _ (by decide)).trans (getAll_setTag hvalue)

end Layer

end ResponseCache
