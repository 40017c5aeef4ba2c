import ResponseCache.EntityTag
import ResponseCache.Proofs.Bytes.Utf8

/-!
This module contains the proof that every tag that is made can be sent to a client: it consists of
visible characters of ASCII, all of which a header value may hold.
-/

namespace ResponseCache

theorem HeaderValue.ofString?_of_visible {s : String}
    (h : ∀ c ∈ s.toList, 0x20 ≤ c.toNat ∧ c.toNat < 0x7f) :
    ∃ value, HeaderValue.ofString? s = some value
      ∧ value.bytes = s.toList.map fun c => UInt8.ofNat c.toNat := by
  have hencode : Bytes.Utf8.encode s.toList = s.toList.map fun c => UInt8.ofNat c.toNat := by
    apply Bytes.Utf8.encode_of_lt_0x80
    intro c hc
    have hvisible := h c hc
    omega
  have hvalid : (s.toList.map fun c => UInt8.ofNat c.toNat).all HeaderValue.isValueByte = true := by
    rw [List.all_map, List.all_eq_true]
    intro c hc
    have hvisible := h c hc
    have hnat : (UInt8.ofNat c.toNat).toNat = c.toNat :=
      Bytes.Utf8.toNat_ofNat_of_lt (by omega)
    have hlow : (0x20 : UInt8) ≤ UInt8.ofNat c.toNat := by
      rw [UInt8.le_iff_toNat_le, hnat]
      exact hvisible.1
    have hdel : UInt8.ofNat c.toNat ≠ 0x7f := by
      intro heq
      rw [heq] at hnat
      have hdel : (0x7f : UInt8).toNat = 0x7f := rfl
      omega
    unfold HeaderValue.isValueByte
    simp only [Function.comp, hlow, hdel, decide_true, ne_eq, not_false_eq_true, Bool.and_self,
      Bool.true_or]
  refine ⟨⟨_, hvalid⟩, ?_, rfl⟩
  unfold HeaderValue.ofString? HeaderValue.ofBytes?
  simp only [hencode]
  rw [dif_pos hvalid]

/-- Visible characters are read as they were written. -/
theorem HeaderValue.text?_of_visible {s : String} (h : ∀ c ∈ s.toList, 0x20 ≤ c.toNat ∧ c.toNat < 0x7f)
    {value : HeaderValue} (hvalue : HeaderValue.ofString? s = some value) : value.text? = some s.toList := by
  obtain ⟨other, hother, hbytes⟩ := HeaderValue.ofString?_of_visible h
  obtain rfl := Option.some.inj (hother.symm.trans hvalue)
  have hnat {c : Char} (hc : c ∈ s.toList) : (UInt8.ofNat c.toNat).toNat = c.toNat := by
    have hvisible := h c hc
    exact Bytes.Utf8.toNat_ofNat_of_lt (by omega)
  have hall : other.bytes.all isTextByte = true := by
    rw [hbytes, List.all_map, List.all_eq_true]
    intro c hc
    have hvisible := h c hc
    have hlow : (0x20 : UInt8) ≤ UInt8.ofNat c.toNat := by
      rw [UInt8.le_iff_toNat_le, hnat hc]
      exact hvisible.1
    have hhigh : UInt8.ofNat c.toNat ≤ 0x7e := by
      rw [UInt8.le_iff_toNat_le, hnat hc]
      exact Nat.le_of_lt_succ hvisible.2
    unfold isTextByte
    simp only [Function.comp, hlow, hhigh, decide_true, Bool.and_self, Bool.true_or]
  have hread (c : Char) (hc : c ∈ s.toList) :
      ((fun b : UInt8 => Char.ofNat b.toNat) ∘ fun c : Char => UInt8.ofNat c.toNat) c = c := by
    simp only [Function.comp, hnat hc, Char.ofNat_toNat]
  unfold text?
  rw [if_pos hall, hbytes, List.map_map, List.map_congr_left hread, List.map_id']

namespace EntityTag

def hexDigits : List Char :=
  "0123456789abcdef".toList

theorem hexDigit_mem {n : Nat} (h : n < 16) : Bytes.hexDigit n ∈ hexDigits := by
  have hall : ∀ n < 16, Bytes.hexDigit n ∈ hexDigits := by
    decide
  exact hall n h

theorem mem_of_mem_toHex {bs : Bytes} {c : Char} (h : c ∈ Bytes.toHex bs) : c ∈ hexDigits := by
  unfold Bytes.toHex at h
  rw [List.mem_flatMap] at h
  obtain ⟨b, -, hc⟩ := h
  have hb := b.toNat_lt
  simp only [List.mem_cons, List.not_mem_nil, or_false] at hc
  cases hc with
  | inl hc =>
    rw [hc]
    apply hexDigit_mem
    omega
  | inr hc =>
    rw [hc]
    apply hexDigit_mem
    omega

theorem visible_of_mem {c : Char} (h : c ∈ hexDigits) : 0x20 ≤ c.toNat ∧ c.toNat < 0x7f := by
  have hall : hexDigits.all (fun c => 0x20 ≤ c.toNat ∧ c.toNat < 0x7f) = true := by
    decide
  exact of_decide_eq_true (List.all_eq_true.1 hall c h)

theorem generate_visible {key : String} {body : Bytes} {generated : Time} {c : Char}
    (h : c ∈ (generate key body generated).toList) : 0x20 ≤ c.toNat ∧ c.toNat < 0x7f := by
  unfold generate at h
  rw [String.toList_ofList] at h
  simp only [List.mem_append, List.mem_cons, List.not_mem_nil, or_false] at h
  obtain (rfl | hhex) | rfl := h
  . decide
  . exact visible_of_mem (mem_of_mem_toHex hhex)
  . decide

theorem text?_of_ofString?_generate {key : String} {body : Bytes} {generated : Time} {value : HeaderValue}
    (hvalue : HeaderValue.ofString? (generate key body generated) = some value) :
    value.text? = some (generate key body generated).toList :=
  HeaderValue.text?_of_visible (fun _ => generate_visible) hvalue

theorem length_generate (key : String) (body : Bytes) (generated : Time) :
    Bytes.Utf8.length (generate key body generated).toList = 34 := by
  rw [Bytes.Utf8.length_of_lt_0x80]
  . unfold generate
    rw [String.toList_ofList, List.length_append, List.length_cons, Bytes.length_toHex,
      List.length_take, Bytes.length_sha256]
    rfl
  . intro c hc
    have hvisible := generate_visible hc
    omega

theorem ofString?_generate (key : String) (body : Bytes) (generated : Time) :
    ∃ value, HeaderValue.ofString? (generate key body generated) = some value
      ∧ value.bytes = (generate key body generated).toList.map fun c => UInt8.ofNat c.toNat :=
  HeaderValue.ofString?_of_visible fun _ => generate_visible

end EntityTag

end ResponseCache
