import ResponseCache.Proofs.Bytes.Utf8

/-!
This module contains the proof that no other byte string reads as a text than its UTF-8 encoding: the
bytes from which a character is read are the ones by which it is written. They are there also where other
bytes beside them are no text.
-/

namespace ResponseCache.Bytes.Utf8

theorem toNat_ofNat_of_isValidChar {n : Nat} (h : n.isValidChar) : (Char.ofNat n).toNat = n := by
  unfold Char.ofNat
  rw [dif_pos h]
  rfl

theorem payload_lt (b : UInt8) : payload b < 64 :=
  Nat.mod_lt _ (by decide)

theorem toNat_eq_add_payload {b : UInt8} (h : isContinuation b = true) :
    b.toNat = 0x80 + payload b := by
  rw [isContinuation_iff] at h
  unfold payload
  omega

theorem encodeChar_of_one {b : UInt8} (h : b < 0x80) :
    encodeChar (Char.ofNat b.toNat) = [b] := by
  rw [lt_0x80_iff] at h
  have hchar : (Char.ofNat b.toNat).toNat = b.toNat :=
    toNat_ofNat_of_isValidChar (Or.inl (by omega))
  rw [encodeChar_of_lt_0x80 (by omega), hchar, UInt8.ofNat_toNat]

theorem encodeChar_of_two {b0 b1 : UInt8} (h0 : between 0xc2 0xdf b0 = true)
    (h1 : isContinuation b1 = true) :
    encodeChar (Char.ofNat (b0.toNat % 32 * 64 + payload b1)) = [b0, b1] := by
  rw [leadsTwo_iff] at h0
  have hpayload := payload_lt b1
  have hbyte := toNat_eq_add_payload h1
  generalize hn : b0.toNat % 32 * 64 + payload b1 = n
  have hchar : (Char.ofNat n).toNat = n := toNat_ofNat_of_isValidChar (Or.inl (by omega))
  have hlead : 0xc0 + n / 64 = b0.toNat := by omega
  have hlast : 0x80 + n % 64 = b1.toNat := by omega
  unfold encodeChar
  simp only [hchar]
  rw [if_neg (by omega), if_pos (by omega), hlead, hlast, UInt8.ofNat_toNat, UInt8.ofNat_toNat]

theorem encodeChar_of_three {b0 b1 b2 : UInt8} (h0 : between 0xe0 0xef b0 = true)
    (h1 : second3 b0 b1 = true) (h2 : isContinuation b2 = true) :
    encodeChar (Char.ofNat (b0.toNat % 16 * 4096 + payload b1 * 64 + payload b2))
      = [b0, b1, b2] := by
  rw [leadsThree_iff] at h0
  obtain ⟨hcont, hlow, hhigh⟩ := second3_iff.1 h1
  have hpayload1 := payload_lt b1
  have hpayload2 := payload_lt b2
  have hbyte1 := toNat_eq_add_payload hcont
  have hbyte2 := toNat_eq_add_payload h2
  generalize hn : b0.toNat % 16 * 4096 + payload b1 * 64 + payload b2 = n
  have hchar : (Char.ofNat n).toNat = n := by
    apply toNat_ofNat_of_isValidChar
    unfold Nat.isValidChar
    omega
  have hlead : 0xe0 + n / 4096 = b0.toNat := by omega
  have hsecond : 0x80 + n / 64 % 64 = b1.toNat := by omega
  have hlast : 0x80 + n % 64 = b2.toNat := by omega
  unfold encodeChar
  simp only [hchar]
  rw [if_neg (by omega), if_neg (by omega), if_pos (by omega), hlead, hsecond, hlast,
    UInt8.ofNat_toNat, UInt8.ofNat_toNat, UInt8.ofNat_toNat]

theorem encodeChar_of_four {b0 b1 b2 b3 : UInt8} (h0 : between 0xf0 0xf4 b0 = true)
    (h1 : second4 b0 b1 = true) (h2 : isContinuation b2 = true) (h3 : isContinuation b3 = true) :
    encodeChar (Char.ofNat (b0.toNat % 8 * 262144 + payload b1 * 4096 + payload b2 * 64
      + payload b3)) = [b0, b1, b2, b3] := by
  rw [leadsFour_iff] at h0
  obtain ⟨hcont, hlow, hhigh⟩ := second4_iff.1 h1
  have hpayload1 := payload_lt b1
  have hpayload2 := payload_lt b2
  have hpayload3 := payload_lt b3
  have hbyte1 := toNat_eq_add_payload hcont
  have hbyte2 := toNat_eq_add_payload h2
  have hbyte3 := toNat_eq_add_payload h3
  generalize hn : b0.toNat % 8 * 262144 + payload b1 * 4096 + payload b2 * 64 + payload b3 = n
  have hchar : (Char.ofNat n).toNat = n := by
    apply toNat_ofNat_of_isValidChar
    unfold Nat.isValidChar
    omega
  have hlead : 0xf0 + n / 262144 = b0.toNat := by omega
  have hsecond : 0x80 + n / 4096 % 64 = b1.toNat := by omega
  have hthird : 0x80 + n / 64 % 64 = b2.toNat := by omega
  have hlast : 0x80 + n % 64 = b3.toNat := by omega
  unfold encodeChar
  simp only [hchar]
  rw [if_neg (by omega), if_neg (by omega), if_neg (by omega), hlead, hsecond, hthird, hlast,
    UInt8.ofNat_toNat, UInt8.ofNat_toNat, UInt8.ofNat_toNat, UInt8.ofNat_toNat]

theorem encode_of_cons_eq_map {c : Char} {rest : List Segment} {cs : List Char} {tail : Bytes}
    (ih : ∀ {cs : List Char}, rest = cs.map .char → encode cs = tail)
    (h : .char c :: rest = cs.map .char) : encode cs = encodeChar c ++ tail := by
  obtain ⟨c', cs', rfl, hchar, hrest⟩ := List.map_eq_cons_iff.1 h.symm
  cases hchar
  rw [encode_cons, ih hrest.symm]

theorem encode_of_segments {bs : Bytes} {cs : List Char} (h : segments bs = cs.map .char) :
    encode cs = bs := by
  fun_induction segments bs generalizing cs with
  | case1 =>
    rw [List.map_eq_nil_iff.1 h.symm]
    rfl
  | case2 b0 r0 h0 ih =>
    rw [encode_of_cons_eq_map ih h, encodeChar_of_one h0]
    rfl
  | case4 b0 _ h0 b1 r1 h1 ih =>
    rw [encode_of_cons_eq_map ih h, encodeChar_of_two h0 h1]
    rfl
  | case8 b0 _ _ h0 b1 h1 b2 r2 h2 ih =>
    rw [encode_of_cons_eq_map ih h, encodeChar_of_three h0 h1 h2]
    rfl
  | case14 b0 _ _ _ h0 b1 h1 b2 h2 b3 r3 h3 ih =>
    rw [encode_of_cons_eq_map ih h, encodeChar_of_four h0 h1 h2 h3]
    rfl
  | _ =>
    -- The first segment is no character.
    cases cs <;> nomatch h

theorem eq_map_char_of_decode_go {index : Nat} {segs : List Segment} {cs : List Char}
    (h : decode.go index segs = .ok cs) : segs = cs.map .char := by
  induction segs generalizing index cs with
  | nil =>
    cases h
    rfl
  | cons seg segs ih =>
    cases seg with
    | char c =>
      rw [decode.go] at h
      cases hrest : decode.go (index + (encodeChar c).length) segs with
      | error =>
        rw [hrest] at h
        cases h
      | ok tail =>
        rw [hrest] at h
        cases h
        rw [ih hrest]
        rfl
    | invalid => cases h
    | incomplete => cases h

/-- A byte string that reads as a text is the encoding of this text. -/
theorem encode_of_decode {bs : Bytes} {cs : List Char} (h : decode bs = .ok cs) :
    encode cs = bs :=
  encode_of_segments (eq_map_char_of_decode_go h)

/-- Nothing is replaced in a byte string that reads as a text. -/
theorem decodeLossy_of_decode {bs : Bytes} {cs : List Char} (h : decode bs = .ok cs) :
    decodeLossy bs = cs := by
  unfold decodeLossy
  rw [eq_map_char_of_decode_go h, List.map_map]
  exact List.map_id cs

theorem decodeLossy_eq_nil_iff {bs : Bytes} : decodeLossy bs = [] ↔ bs = [] := by
  unfold decodeLossy
  rw [List.map_eq_nil_iff]
  fun_cases segments bs <;> simp

theorem mem_append_of_char_mem_cons {c c' : Char} {rest : List Segment} {front tail : Bytes} {b : UInt8}
    (hfront : encodeChar c' = front) (ih : .char c ∈ rest → b ∈ tail) (h : .char c ∈ .char c' :: rest)
    (hb : b ∈ encodeChar c) : b ∈ front ++ tail := by
  cases List.mem_cons.1 h with
  | inl heq =>
    obtain rfl := Segment.char.inj heq
    exact List.mem_append_left tail (hfront ▸ hb)
  | inr hmem => exact List.mem_append_right front (ih hmem)

/-- The bytes of a character that is read are among those that were to be read. -/
theorem mem_of_char_mem_segments {bs : Bytes} {c : Char} (h : .char c ∈ segments bs) {b : UInt8}
    (hb : b ∈ encodeChar c) : b ∈ bs := by
  fun_induction segments bs with
  | case2 b0 r0 h0 ih => exact mem_append_of_char_mem_cons (encodeChar_of_one h0) ih h hb
  | case4 b0 _ h0 b1 r1 h1 ih => exact mem_append_of_char_mem_cons (encodeChar_of_two h0 h1) ih h hb
  | case8 b0 _ _ h0 b1 h1 b2 r2 h2 ih =>
    exact mem_append_of_char_mem_cons (encodeChar_of_three h0 h1 h2) ih h hb
  | case14 b0 _ _ _ h0 b1 h1 b2 h2 b3 r3 h3 ih =>
    exact mem_append_of_char_mem_cons (encodeChar_of_four h0 h1 h2 h3) ih h hb
  | _ =>
    -- The first segment is no character.
    grind

theorem zero_not_mem_encodeChar {c : Char} (hc : c ≠ '\x00') : 0 ∉ encodeChar c := by
  have hpos : c.toNat ≠ 0 := fun hzero => hc (Char.toNat_inj.1 hzero)
  have hvalid : c.toNat.isValidChar := c.valid
  have hne {n : Nat} (hn : n % 256 ≠ 0) : (0 : UInt8) ≠ UInt8.ofNat n := by
    rw [Ne, ← UInt8.toNat_inj]
    simpa using hn.symm
  unfold Nat.isValidChar at hvalid
  unfold encodeChar
  simp only
  split
  next => exact List.not_mem_cons_of_ne_of_not_mem (hne (by omega)) List.not_mem_nil
  next =>
    have hlater (n : Nat) : (0 : UInt8) ≠ UInt8.ofNat (0x80 + n % 64) := hne (by omega)
    split
    next =>
      simp only [List.mem_cons, List.not_mem_nil, or_false, not_or]
      exact ⟨hne (by omega), hlater _⟩
    next =>
      split
      next =>
        simp only [List.mem_cons, List.not_mem_nil, or_false, not_or]
        exact ⟨hne (by omega), hlater _, hlater _⟩
      next =>
        simp only [List.mem_cons, List.not_mem_nil, or_false, not_or]
        exact ⟨hne (by omega), hlater _, hlater _, hlater _⟩

theorem zero_not_mem_encode {cs : List Char} (h : '\x00' ∉ cs) : 0 ∉ encode cs := by
  unfold encode
  rw [List.mem_flatMap]
  rintro ⟨c, hmem, hzero⟩
  exact zero_not_mem_encodeChar (fun hc => h (hc ▸ hmem)) hzero

/-- A zero is read only where there is one: no replacement brings it in. -/
theorem nul_not_mem_decodeLossy {bs : Bytes} (h : 0 ∉ bs) : '\x00' ∉ decodeLossy bs := by
  unfold decodeLossy
  rw [List.mem_map]
  rintro ⟨segment, hmem, hread⟩
  cases segment with
  | char c =>
    obtain rfl : c = '\x00' := hread
    exact h (mem_of_char_mem_segments hmem List.mem_cons_self)
  | invalid size => nomatch hread
  | incomplete size => nomatch hread

end ResponseCache.Bytes.Utf8
