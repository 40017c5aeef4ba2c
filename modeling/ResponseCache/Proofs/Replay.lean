import ResponseCache.Proofs.Layer.Response

/-!
This module contains what is left of a handler's response in the responses that replay it: its status, its
whole body, and of each header field the first value. Only the tag is always the cache's own, and a
lifetime is added where the handler said nothing about caching.
-/

namespace ResponseCache

def Frame.content : Frame → Bytes
  | .data bytes => bytes
  | _ => []

def Frame.isError : Frame → Bool
  | .error _ => true
  | _ => false

namespace Headers

/-- The fields with those others after them whose names they do not have yet. -/
def keepFirst (h others : Headers) : Headers :=
  others.foldl (fun h field => if h.contains field.1.text then h else h.add field.1 field.2) h

def captured (h : Headers) : List (String × Bytes) :=
  h.map fun field => (field.1.text, field.2.bytes)

theorem keepFirst_cons (h : Headers) (field : HeaderName × HeaderValue) (others : Headers) :
    h.keepFirst (field :: others)
      = (if h.contains field.1.text then h else h.add field.1 field.2).keepFirst others := rfl

theorem getAll_cons (field : HeaderName × HeaderValue) (h : Headers) (name : String) :
    getAll (field :: h) name = if field.1.text = name then field.2 :: h.getAll name else h.getAll name := by
  unfold getAll
  rw [List.filter_cons]
  simp only [decide_eq_true_eq]
  split <;> rfl

theorem get?_cons_self (field : HeaderName × HeaderValue) (h : Headers) :
    get? (field :: h) field.1.text = some field.2 := by
  unfold get?
  rw [getAll_cons, if_pos rfl, List.head?_cons]

theorem get?_cons_of_ne {field : HeaderName × HeaderValue} {name : String} (hne : field.1.text ≠ name)
    (h : Headers) : get? (field :: h) name = h.get? name := by
  unfold get?
  rw [getAll_cons, if_neg hne]

theorem getAll_keepFirst (h others : Headers) (name : String) :
    (h.keepFirst others).getAll name
      = if h.contains name then h.getAll name else (others.get? name).toList := by
  induction others generalizing h with
  | nil =>
    cases hcontains : h.contains name with
    | true => rfl
    | false => exact contains_eq_false_iff.1 hcontains
  | cons field others ih =>
    rw [keepFirst_cons, ih]
    by_cases hname : field.1.text = name
    . subst hname
      cases hcontains : h.contains field.1.text with
      | true => simp only [hcontains, if_true]
      | false =>
        have hadded : (h.add field.1 field.2).getAll field.1.text = [field.2] := by
          rw [getAll_add_self, contains_eq_false_iff.1 hcontains, List.nil_append]
        have hthere : (h.add field.1 field.2).contains field.1.text = true := by
          unfold contains
          rw [hadded]
          rfl
        simp only [Bool.false_eq_true, if_false, hthere, if_true, hadded, get?_cons_self,
          Option.toList_some]
    . have hsame : (if h.contains field.1.text then h else h.add field.1 field.2).getAll name
          = h.getAll name := by
        split
        next => rfl
        next => exact getAll_add_of_ne h field.2 hname
      have hthere : (if h.contains field.1.text then h else h.add field.1 field.2).contains name
          = h.contains name := by
        rw [contains, hsame, contains]
      rw [get?_cons_of_ne hname, hthere, hsame]

theorem any_captured (h : Headers) (name : String) :
    (h.captured.any fun field => field.1 = name) = h.contains name := by
  induction h with
  | nil => rfl
  | cons field h ih =>
    unfold captured at ih ⊢
    unfold contains at ih ⊢
    rw [List.map_cons, List.any_cons, ih, getAll_cons]
    by_cases hname : field.1.text = name
    . simp [hname]
    . simp [hname]

end Headers

theorem HeaderName.ofString?_text (name : HeaderName) : ofString? name.text = some name := by
  unfold ofString?
  simp only [lowerCase_text]
  exact dif_pos name.valid

theorem HeaderValue.ofBytes?_bytes (value : HeaderValue) : ofBytes? value.bytes = some value := by
  unfold ofBytes?
  exact dif_pos value.valid

/-- Whatever was captured of a message can be sent again. -/
theorem Headers.filterMap_captured (h : Headers) : h.captured.filterMap Entry.validField? = h := by
  unfold captured
  rw [List.filterMap_map]
  have hvalid (field : HeaderName × HeaderValue) :
      (Entry.validField? ∘ fun field => (field.1.text, field.2.bytes)) field = some field := by
    simp only [Function.comp_apply, Entry.validField?, HeaderName.ofString?_text,
      HeaderValue.ofBytes?_bytes, Option.bind_eq_bind, Option.bind_some]
    rfl
  rw [funext hvalid]
  exact List.filterMap_some

namespace Capture

theorem setHeader_headers {c : Capture} {h : Headers} (hc : c.headers = h.captured)
    (field : HeaderName × HeaderValue) :
    (c.setHeader field.1.text field.2.bytes).headers
      = (if h.contains field.1.text then h else h.add field.1 field.2).captured := by
  unfold setHeader
  simp only [HeaderName.lowerCase_text]
  rw [hc, Headers.any_captured]
  split
  next => exact hc
  next =>
    unfold Headers.add Headers.captured
    rw [List.map_append]
    rfl

theorem setHeaders_headers {c : Capture} {h : Headers} (hc : c.headers = h.captured) (others : Headers) :
    (c.setHeaders others).headers = (h.keepFirst others).captured := by
  induction others generalizing c h with
  | nil => exact hc
  | cons field others ih =>
    rw [setHeaders_cons, Headers.keepFirst_cons]
    exact ih (setHeader_headers hc field)

theorem setHeader_status (c : Capture) (name : String) (value : Bytes) :
    (c.setHeader name value).status = c.status := by
  unfold setHeader
  simp only
  split <;> rfl

theorem setHeaders_status (c : Capture) (headers : Headers) :
    (c.setHeaders headers).status = c.status := by
  induction headers generalizing c with
  | nil => rfl
  | cons field headers ih => rw [setHeaders_cons, ih, setHeader_status]

/-- A body is captured unless one of its pieces is an error, and then as a whole without the trailers. -/
theorem frames_eq_ok_iff {c : Capture} {frames : List Frame} {s : Snapshot} :
    c.frames frames = .ok s
      ↔ (∀ frame ∈ frames, frame.isError = false)
        ∧ s = ⟨c.status.getD .ok, c.headers, c.body ++ frames.flatMap Frame.content⟩ := by
  induction frames generalizing c with
  | nil =>
    rw [Capture.frames, Except.ok.injEq, List.flatMap_nil, List.append_nil]
    simp only [List.not_mem_nil, false_implies, implies_true, true_and]
    exact eq_comm
  | cons frame frames ih =>
    rw [List.forall_mem_cons, List.flatMap_cons]
    cases frame with
    | data bytes =>
      rw [Capture.frames, ih, ← List.append_assoc]
      simp only [Frame.isError, true_and]
      exact Iff.rfl
    | trailers headers =>
      rw [Capture.frames, ih]
      simp only [Frame.isError, Frame.content, List.nil_append, true_and]
    | error message =>
      rw [Capture.frames]
      simp only [Frame.isError, reduceCtorEq, false_and]

end Capture

theorem Reply.capture_eq_ok_iff {r : Reply} {s : Snapshot} :
    r.capture = .ok s
      ↔ (∀ frame ∈ r.frames, frame.isError = false)
        ∧ s = ⟨r.status, (Headers.keepFirst [] r.headers).captured, r.frames.flatMap Frame.content⟩ := by
  have hheaders := Capture.setHeaders_headers (c := Capture.empty.setStatus r.status) (h := []) rfl r.headers
  unfold Reply.capture
  rw [Capture.frames_eq_ok_iff, Capture.setHeaders_status, hheaders, Capture.setHeaders_body]
  rfl

/--
A response that replays that of a handler: with a tag in the place of any other, and with a lifetime, if
there is one, unless the handler has set the field itself.
-/
structure Echoes (reply : Reply) (tag : HeaderValue) (lifetime : Option Nat) (response : Response) :
    Prop where
  status_eq : response.status = reply.status
  body_eq : response.body = reply.frames.flatMap Frame.content
  tag_eq : response.headers.getAll "etag" = [tag]
  cacheControl_eq : response.headers.getAll "cache-control"
    = ((reply.headers.get? "cache-control").or (lifetime.map HeaderValue.maxAge)).toList
  others_eq : ∀ {name}, name ≠ "etag" → name ≠ "cache-control" →
    response.headers.getAll name = (reply.headers.get? name).toList

/--
Responses to which one and the same was answered by a handler: they differ at most in a lifetime that was
added, and not even in that if the handler has set the field.
-/
structure SameButLifetime (reply : Reply) (response other : Response) : Prop where
  status_eq : response.status = other.status
  body_eq : response.body = other.body
  getAll_eq : ∀ {name}, name ≠ "cache-control" → response.headers.getAll name = other.headers.getAll name
  cacheControl_eq : reply.headers.contains "cache-control" = true →
    response.headers.getAll "cache-control" = other.headers.getAll "cache-control"

variable {reply : Reply} {snapshot : Snapshot} {tag : HeaderValue} {lifetime : Option Nat}
  {response other : Response} {entry : Entry} {job : Job}

namespace Echoes

theorem setMaxAge (h : Echoes reply tag none response) (secs : Nat) :
    Echoes reply tag (some secs) { response with headers := ResponseCache.setMaxAge response.headers secs } where
  status_eq := h.status_eq
  body_eq := h.body_eq
  tag_eq := (getAll_setMaxAge _ _ (by decide)).trans h.tag_eq
  cacheControl_eq := by
    have hold := h.cacheControl_eq
    cases hget : reply.headers.get? "cache-control" with
    | none =>
      rw [hget] at hold
      exact getAll_cacheControl_setMaxAge_of_nil secs hold
    | some value =>
      rw [hget] at hold
      refine (getAll_cacheControl_setMaxAge_of_ne_nil secs ?_).trans hold
      rw [hold]
      exact List.cons_ne_nil _ _
  others_eq hetag hcacheControl := (getAll_setMaxAge _ _ hcacheControl).trans (h.others_eq hetag hcacheControl)

theorem sameButLifetime {lifetime' : Option Nat} (h : Echoes reply tag lifetime response)
    (h' : Echoes reply tag lifetime' other) : SameButLifetime reply response other where
  status_eq := h.status_eq.trans h'.status_eq.symm
  body_eq := h.body_eq.trans h'.body_eq.symm
  getAll_eq := by
    intro name hcacheControl
    by_cases hetag : name = "etag"
    . rw [hetag, h.tag_eq, h'.tag_eq]
    . rw [h.others_eq hetag hcacheControl, h'.others_eq hetag hcacheControl]
  cacheControl_eq := by
    intro hcontains
    rw [h.cacheControl_eq, h'.cacheControl_eq]
    cases hget : reply.headers.get? "cache-control" with
    | none =>
      rw [Headers.get?, List.head?_eq_none_iff, ← Headers.contains_eq_false_iff] at hget
      nomatch hcontains.symm.trans hget
    | some value => rfl

theorem toResponse (hcapture : reply.capture = .ok snapshot) {etag : String}
    (htag : HeaderValue.ofString? etag = some tag) (lastValid : Time) :
    Echoes reply tag none (snapshot.toEntry etag lastValid).toResponse := by
  obtain ⟨-, rfl⟩ := Reply.capture_eq_ok_iff.1 hcapture
  have hheaders (name : String) (hne : name ≠ "etag") :
      (Entry.setTag ((Headers.keepFirst [] reply.headers).captured.filterMap Entry.validField?) etag).getAll name
        = (reply.headers.get? name).toList := by
    rw [getAll_setTag_of_ne _ _ hne, Headers.filterMap_captured, Headers.getAll_keepFirst]
    rfl
  constructor
  . rfl
  . rfl
  . exact getAll_setTag htag
  . rw [Option.map_none, Option.or_none]
    exact hheaders "cache-control" (by decide)
  . intro name hetag _
    exact hheaders name hetag

theorem replay (layer : Layer) (hcapture : reply.capture = .ok snapshot) {etag : String}
    (htag : HeaderValue.ofString? etag = some tag) (lastValid : Time) (stored : Bool) :
    Echoes reply tag (if stored then some layer.policy.maxSecs else none)
      (layer.replay (snapshot.toEntry etag lastValid) stored) := by
  have hecho := toResponse hcapture htag lastValid
  unfold Layer.replay
  cases stored with
  | true => exact hecho.setMaxAge layer.policy.maxSecs
  | false => exact hecho

theorem serve (layer : Layer) (hcapture : reply.capture = .ok snapshot) {etag : String}
    (htag : HeaderValue.ofString? etag = some tag) (lastValid now : Time)
    (hfull : Layer.serve.isRevalidated job (snapshot.toEntry etag lastValid) = false) :
    Echoes reply tag (some (Freshness.evaluate lastValid layer.policy .none now).remaining)
      (layer.serve job (snapshot.toEntry etag lastValid) now) := by
  have hecho := toResponse hcapture htag lastValid
  unfold Layer.serve
  simp only [hfull, Bool.false_eq_true, if_false]
  exact hecho.setMaxAge _

end Echoes

end ResponseCache
