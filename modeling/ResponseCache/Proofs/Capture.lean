import ResponseCache.Capture
import ResponseCache.Proofs.Bytes.Utf8
import ResponseCache.Proofs.Codec.RoundTrip

/-!
This module contains bounds of what is captured of a response: no part of it is longer than the
response, so that all lengths can be written in its binary format.
-/

namespace ResponseCache

namespace HeaderName

theorem lt_0x80_of_isNameChar {c : Char} (h : isNameChar c = true) : c.toNat < 0x80 := by
  have hmarks : (marks.all fun c => c.toNat < 0x80) = true := by decide
  have hz : 'z'.toNat < 0x80 := by decide
  have hnine : '9'.toNat < 0x80 := by decide
  unfold isNameChar Text.isDigit at h
  simp only [Bool.or_eq_true, Bool.and_eq_true, decide_eq_true_eq, List.contains_eq_mem] at h
  obtain (⟨-, hle⟩ | ⟨-, hle⟩) | hmem := h
  . exact Nat.lt_of_le_of_lt hle hz
  . exact Nat.lt_of_le_of_lt hle hnine
  . exact of_decide_eq_true (List.all_eq_true.1 hmarks c hmem)

theorem toLower_of_isNameChar {c : Char} (h : isNameChar c = true) : c.toLower = c := by
  have hmarks : (marks.all fun c => c.toLower = c) = true := by decide
  have hA : '9'.toNat < 'A'.toNat := by decide
  have hZ : 'Z'.toNat < 'a'.toNat := by decide
  unfold isNameChar Text.isDigit at h
  simp only [Bool.or_eq_true, Bool.and_eq_true, decide_eq_true_eq, List.contains_eq_mem] at h
  obtain (⟨hlow, -⟩ | ⟨-, hhigh⟩) | hmem := h
  . have hge : 'a'.toNat ≤ c.toNat := hlow
    unfold Char.toLower
    rw [dif_neg]
    intro hupper
    have hle : c.toNat ≤ 'Z'.toNat := hupper.2
    omega
  . have hle : c.toNat ≤ '9'.toNat := hhigh
    unfold Char.toLower
    rw [dif_neg]
    intro hupper
    have hge : 'A'.toNat ≤ c.toNat := hupper.1
    omega
  . exact of_decide_eq_true (List.all_eq_true.1 hmarks c hmem)

theorem isNameChar_of_mem {name : HeaderName} {c : Char} (h : c ∈ name.text.toList) :
    isNameChar c = true := by
  have hvalid := name.valid
  unfold isName at hvalid
  rw [Bool.and_eq_true, List.all_eq_true] at hvalid
  exact hvalid.2 c h

theorem lowerCase_text (name : HeaderName) : lowerCase name.text = name.text := by
  unfold lowerCase
  rw [← String.toList_inj, String.toList_ofList]
  rw [List.map_congr_left fun c hc => toLower_of_isNameChar (isNameChar_of_mem hc), List.map_id']

theorem length_text (name : HeaderName) : Bytes.Utf8.length name.text.toList = name.text.length := by
  rw [Bytes.Utf8.length_of_lt_0x80]
  . exact String.length_toList
  . intro c hc
    exact lt_0x80_of_isNameChar (isNameChar_of_mem hc)

end HeaderName

namespace Capture

theorem mem_headers_of_setHeader {c : Capture} {name : String} {value : Bytes}
    {field : String × Bytes} (h : field ∈ (c.setHeader name value).headers) :
    field ∈ c.headers ∨ field = (lowerCase name, value) := by
  unfold setHeader at h
  simp only at h
  split at h
  . exact .inl h
  . simp only [List.mem_append, List.mem_cons, List.not_mem_nil, or_false] at h
    exact h

theorem length_setHeader_le (c : Capture) (name : String) (value : Bytes) :
    (c.setHeader name value).headers.length ≤ c.headers.length + 1 := by
  unfold setHeader
  simp only
  split
  . omega
  . exact Nat.le_of_eq List.length_append

theorem setHeader_body (c : Capture) (name : String) (value : Bytes) :
    (c.setHeader name value).body = c.body := by
  unfold setHeader
  simp only
  split <;> rfl

theorem setHeaders_cons (c : Capture) (p : HeaderName × HeaderValue) (headers : Headers) :
    c.setHeaders (p :: headers) = (c.setHeader p.1.text p.2.bytes).setHeaders headers := rfl

theorem mem_headers_of_setHeaders {c : Capture} {headers : Headers} {field : String × Bytes}
    (h : field ∈ (c.setHeaders headers).headers) :
    field ∈ c.headers ∨ ∃ p ∈ headers, field = (p.1.text, p.2.bytes) := by
  induction headers generalizing c with
  | nil => exact .inl h
  | cons p headers ih =>
    cases ih h with
    | inl hset =>
      cases mem_headers_of_setHeader hset with
      | inl hmem => exact .inl hmem
      | inr heq =>
        rw [HeaderName.lowerCase_text] at heq
        exact .inr ⟨p, List.mem_cons_self, heq⟩
    | inr hrest =>
      obtain ⟨q, hq, heq⟩ := hrest
      exact .inr ⟨q, List.mem_cons_of_mem _ hq, heq⟩

theorem length_setHeaders_le (c : Capture) (headers : Headers) :
    (c.setHeaders headers).headers.length ≤ c.headers.length + headers.length := by
  induction headers generalizing c with
  | nil => exact Nat.le_refl _
  | cons p headers ih =>
    have hset := length_setHeader_le c p.1.text p.2.bytes
    have hrest := ih (c.setHeader p.1.text p.2.bytes)
    rw [setHeaders_cons, List.length_cons]
    omega

theorem setHeaders_body (c : Capture) (headers : Headers) :
    (c.setHeaders headers).body = c.body := by
  induction headers generalizing c with
  | nil => rfl
  | cons p headers ih => rw [setHeaders_cons, ih, setHeader_body]

theorem snapshot_of_frames {c : Capture} {frames : List Frame} {s : Snapshot}
    (h : c.frames frames = .ok s) :
    s.status = c.status.getD .ok ∧ s.headers = c.headers ∧
      s.body.length = c.body.length + Frame.total frames := by
  induction frames generalizing c with
  | nil =>
    rw [Capture.frames] at h
    obtain rfl := Except.ok.inj h
    exact ⟨rfl, rfl, rfl⟩
  | cons frame frames ih =>
    cases frame with
    | data bytes =>
      obtain ⟨hstatus, hheaders, hbody⟩ := ih (c := c.write bytes) h
      refine ⟨hstatus, hheaders, ?_⟩
      rw [hbody, Frame.total]
      simp only [write, Frame.size, List.length_append]
      omega
    | trailers headers =>
      obtain ⟨hstatus, hheaders, hbody⟩ := ih (c := c) h
      refine ⟨hstatus, hheaders, ?_⟩
      rw [hbody, Frame.total]
      simp only [Frame.size]
      omega
    | error message => nomatch h

end Capture

theorem Headers.length_le_bytes (headers : Headers) : headers.length ≤ headers.bytes := by
  induction headers with
  | nil => exact Nat.le_refl _
  | cons p headers ih =>
    rw [List.length_cons, bytes]
    omega

theorem Headers.le_bytes_of_mem {headers : Headers} {p : HeaderName × HeaderValue}
    (h : p ∈ headers) : p.1.text.length + p.2.bytes.length ≤ headers.bytes := by
  induction headers with
  | nil => nomatch h
  | cons q headers ih =>
    rw [bytes]
    cases List.mem_cons.1 h with
    | inl heq =>
      rw [heq]
      omega
    | inr hmem =>
      have hle := ih hmem
      omega

theorem Reply.mem_headers_of_capture {r : Reply} {s : Snapshot} (h : r.capture = .ok s)
    {field : String × Bytes} (hmem : field ∈ s.headers) :
    ∃ p ∈ r.headers, field = (p.1.text, p.2.bytes) := by
  rw [(Capture.snapshot_of_frames h).2.1] at hmem
  cases Capture.mem_headers_of_setHeaders hmem with
  | inl hempty => nomatch hempty
  | inr hp => exact hp

/-- What was captured of a response is as short as the format needs it. -/
theorem Reply.fits_of_capture {r : Reply} {s : Snapshot} (h : r.capture = .ok s) {etag : String}
    (hetag : Bytes.Utf8.length etag.toList < UInt64.size) (lastValid : Time) :
    (s.toEntry etag lastValid).Fits := by
  obtain ⟨-, hheaders, hbody⟩ := Capture.snapshot_of_frames h
  have hlt : r.headers.bytes + Frame.total r.frames < UInt64.size :=
    r.bytes_lt
  refine ⟨?_, ?_, ?_, ?_, hetag⟩
  . have hlength := Capture.length_setHeaders_le (Capture.empty.setStatus r.status) r.headers
    have hbytes := r.headers.length_le_bytes
    rw [← hheaders] at hlength
    show s.headers.length < _
    have hempty : (Capture.empty.setStatus r.status).headers.length = 0 := rfl
    omega
  . intro field hmem
    obtain ⟨p, hp, rfl⟩ := Reply.mem_headers_of_capture h hmem
    have hle := Headers.le_bytes_of_mem hp
    rw [HeaderName.length_text]
    omega
  . intro field hmem
    obtain ⟨p, hp, rfl⟩ := Reply.mem_headers_of_capture h hmem
    have hle := Headers.le_bytes_of_mem hp
    simp only
    omega
  . show s.body.length < _
    rw [hbody, Capture.setHeaders_body]
    have hempty : (Capture.empty.setStatus r.status).body.length = 0 := rfl
    omega

end ResponseCache
