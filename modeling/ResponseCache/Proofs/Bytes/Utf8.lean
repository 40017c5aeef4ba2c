import ResponseCache.Bytes.Utf8

/-!
This module contains the proof that a text is read back from its UTF-8 encoding: the bytes of a
character are the first segment of any byte string that begins with them. A text of ASCII takes one
byte for each character.
-/

namespace ResponseCache.Bytes.Utf8

theorem between_iff {first last b : UInt8} :
    between first last b = true ↔ first.toNat ≤ b.toNat ∧ b.toNat ≤ last.toNat := by
  unfold between
  rw [Bool.and_eq_true, decide_eq_true_eq, decide_eq_true_eq, UInt8.le_iff_toNat_le,
    UInt8.le_iff_toNat_le]

theorem toNat_ofNat_of_lt {n : Nat} (h : n < 256) : (UInt8.ofNat n).toNat = n :=
  UInt8.toNat_ofNat_of_lt' h

theorem toNat_continuation (n : Nat) : (UInt8.ofNat (0x80 + n % 64)).toNat = 0x80 + n % 64 := by
  apply toNat_ofNat_of_lt
  omega

theorem lt_0x80_iff {b : UInt8} : b < 0x80 ↔ b.toNat < 0x80 :=
  UInt8.lt_iff_toNat_lt

theorem leadsTwo_iff {b : UInt8} :
    between 0xc2 0xdf b = true ↔ 0xc2 ≤ b.toNat ∧ b.toNat ≤ 0xdf :=
  between_iff

theorem leadsThree_iff {b : UInt8} :
    between 0xe0 0xef b = true ↔ 0xe0 ≤ b.toNat ∧ b.toNat ≤ 0xef :=
  between_iff

theorem leadsFour_iff {b : UInt8} :
    between 0xf0 0xf4 b = true ↔ 0xf0 ≤ b.toNat ∧ b.toNat ≤ 0xf4 :=
  between_iff

theorem isContinuation_iff {b : UInt8} :
    isContinuation b = true ↔ 0x80 ≤ b.toNat ∧ b.toNat ≤ 0xbf :=
  between_iff

theorem second_iff {lowLead highLead low high lead b : UInt8} (hlow : 0x80 ≤ low.toNat)
    (hhigh : high.toNat ≤ 0xbf) (hne : lowLead ≠ highLead) :
    (if lead = lowLead then between low 0xbf
        else if lead = highLead then between 0x80 high else isContinuation) b = true
      ↔ isContinuation b = true ∧ (lead.toNat = lowLead.toNat → low.toNat ≤ b.toNat)
        ∧ (lead.toNat = highLead.toNat → b.toNat ≤ high.toNat) := by
  have hbounds : between low 0xbf b = true ↔ low.toNat ≤ b.toNat ∧ b.toNat ≤ 0xbf := between_iff
  have hbounds' : between 0x80 high b = true ↔ 0x80 ≤ b.toNat ∧ b.toNat ≤ high.toNat := between_iff
  rw [UInt8.toNat_inj, UInt8.toNat_inj]
  split
  next heq =>
    simp only [heq, hne, false_implies, true_implies, and_true]
    rw [hbounds, isContinuation_iff]
    omega
  next hother =>
    split
    next heq =>
      simp only [heq, hne.symm, false_implies, true_implies, true_and]
      rw [hbounds', isContinuation_iff]
      omega
    next hother' => simp [hother, hother']

theorem second3_iff {lead b : UInt8} :
    second3 lead b = true ↔ isContinuation b = true ∧ (lead.toNat = 0xe0 → 0xa0 ≤ b.toNat)
      ∧ (lead.toNat = 0xed → b.toNat ≤ 0x9f) :=
  second_iff (by decide) (by decide) (by decide)

theorem second4_iff {lead b : UInt8} :
    second4 lead b = true ↔ isContinuation b = true ∧ (lead.toNat = 0xf0 → 0x90 ≤ b.toNat)
      ∧ (lead.toNat = 0xf4 → b.toNat ≤ 0x8f) :=
  second_iff (by decide) (by decide) (by decide)

theorem isContinuation_continuation (n : Nat) :
    isContinuation (UInt8.ofNat (0x80 + n % 64)) = true := by
  rw [isContinuation_iff, toNat_continuation]
  omega

theorem payload_continuation (n : Nat) : payload (UInt8.ofNat (0x80 + n % 64)) = n % 64 := by
  unfold payload
  rw [toNat_continuation]
  omega

theorem segments_of_lt_0x80 {n : Nat} (h : n < 0x80) (bs : Bytes) :
    segments (UInt8.ofNat n :: bs) = .char (Char.ofNat n) :: segments bs := by
  have hlead : (UInt8.ofNat n).toNat = n := toNat_ofNat_of_lt (by omega)
  have hone : UInt8.ofNat n < 0x80 := by
    rw [lt_0x80_iff, hlead]
    exact h
  rw [segments.eq_def]
  simp only
  rw [if_pos hone, hlead]

theorem segments_of_lt_0x800 {n : Nat} (hlow : 0x80 ≤ n) (h : n < 0x800) (bs : Bytes) :
    segments (UInt8.ofNat (0xc0 + n / 64) :: UInt8.ofNat (0x80 + n % 64) :: bs)
      = .char (Char.ofNat n) :: segments bs := by
  have hlead : (UInt8.ofNat (0xc0 + n / 64)).toNat = 0xc0 + n / 64 :=
    toNat_ofNat_of_lt (by omega)
  have hone : ¬UInt8.ofNat (0xc0 + n / 64) < 0x80 := by
    rw [lt_0x80_iff, hlead]
    omega
  have htwo : between 0xc2 0xdf (UInt8.ofNat (0xc0 + n / 64)) = true := by
    rw [leadsTwo_iff, hlead]
    omega
  have hchar : (0xc0 + n / 64) % 32 * 64 + n % 64 = n := by omega
  rw [segments.eq_def]
  simp only
  rw [if_neg hone, if_pos htwo, if_pos (isContinuation_continuation n), payload_continuation,
    hlead, hchar]

theorem segments_of_lt_0x10000 {n : Nat} (hlow : 0x800 ≤ n) (h : n < 0x10000)
    (hvalid : n.isValidChar) (bs : Bytes) :
    segments (UInt8.ofNat (0xe0 + n / 4096) :: UInt8.ofNat (0x80 + n / 64 % 64)
        :: UInt8.ofNat (0x80 + n % 64) :: bs)
      = .char (Char.ofNat n) :: segments bs := by
  unfold Nat.isValidChar at hvalid
  have hlead : (UInt8.ofNat (0xe0 + n / 4096)).toNat = 0xe0 + n / 4096 :=
    toNat_ofNat_of_lt (by omega)
  have hone : ¬UInt8.ofNat (0xe0 + n / 4096) < 0x80 := by
    rw [lt_0x80_iff, hlead]
    omega
  have htwo : ¬between 0xc2 0xdf (UInt8.ofNat (0xe0 + n / 4096)) = true := by
    rw [leadsTwo_iff, hlead]
    omega
  have hthree : between 0xe0 0xef (UInt8.ofNat (0xe0 + n / 4096)) = true := by
    rw [leadsThree_iff, hlead]
    omega
  -- The closer bounds keep out what is shorter, and the surrogates, which are no characters.
  have hsecond : second3 (UInt8.ofNat (0xe0 + n / 4096)) (UInt8.ofNat (0x80 + n / 64 % 64))
      = true := by
    refine second3_iff.2 ⟨isContinuation_continuation (n / 64), ?_, ?_⟩
    . rw [hlead, toNat_continuation]
      omega
    . rw [hlead, toNat_continuation]
      omega
  have hchar : (0xe0 + n / 4096) % 16 * 4096 + n / 64 % 64 * 64 + n % 64 = n := by omega
  rw [segments.eq_def]
  simp only
  rw [if_neg hone, if_neg htwo, if_pos hthree, if_pos hsecond,
    if_pos (isContinuation_continuation n), payload_continuation, payload_continuation, hlead,
    hchar]

theorem segments_of_le_0x10000 {n : Nat} (hlow : 0x10000 ≤ n) (hvalid : n.isValidChar)
    (bs : Bytes) :
    segments (UInt8.ofNat (0xf0 + n / 262144) :: UInt8.ofNat (0x80 + n / 4096 % 64)
        :: UInt8.ofNat (0x80 + n / 64 % 64) :: UInt8.ofNat (0x80 + n % 64) :: bs)
      = .char (Char.ofNat n) :: segments bs := by
  unfold Nat.isValidChar at hvalid
  have hlead : (UInt8.ofNat (0xf0 + n / 262144)).toNat = 0xf0 + n / 262144 :=
    toNat_ofNat_of_lt (by omega)
  have hone : ¬UInt8.ofNat (0xf0 + n / 262144) < 0x80 := by
    rw [lt_0x80_iff, hlead]
    omega
  have htwo : ¬between 0xc2 0xdf (UInt8.ofNat (0xf0 + n / 262144)) = true := by
    rw [leadsTwo_iff, hlead]
    omega
  have hthree : ¬between 0xe0 0xef (UInt8.ofNat (0xf0 + n / 262144)) = true := by
    rw [leadsThree_iff, hlead]
    omega
  have hfour : between 0xf0 0xf4 (UInt8.ofNat (0xf0 + n / 262144)) = true := by
    rw [leadsFour_iff, hlead]
    omega
  have hsecond : second4 (UInt8.ofNat (0xf0 + n / 262144)) (UInt8.ofNat (0x80 + n / 4096 % 64))
      = true := by
    refine second4_iff.2 ⟨isContinuation_continuation (n / 4096), ?_, ?_⟩
    . rw [hlead, toNat_continuation]
      omega
    . rw [hlead, toNat_continuation]
      omega
  have hchar : (0xf0 + n / 262144) % 8 * 262144 + n / 4096 % 64 * 4096 + n / 64 % 64 * 64
      + n % 64 = n := by omega
  rw [segments.eq_def]
  simp only
  rw [if_neg hone, if_neg htwo, if_neg hthree, if_pos hfour, if_pos hsecond,
    if_pos (isContinuation_continuation (n / 64)), if_pos (isContinuation_continuation n),
    payload_continuation, payload_continuation, payload_continuation, hlead, hchar]

theorem segments_encodeChar_append (c : Char) (bs : Bytes) :
    segments (encodeChar c ++ bs) = .char c :: segments bs := by
  have hvalid : c.toNat.isValidChar := c.valid
  have hread : Segment.char (Char.ofNat c.toNat) :: segments bs = .char c :: segments bs := by
    rw [Char.ofNat_toNat]
  unfold encodeChar
  simp only
  split
  next h => exact (segments_of_lt_0x80 h bs).trans hread
  next h1 =>
    split
    next h => exact (segments_of_lt_0x800 (Nat.le_of_not_lt h1) h bs).trans hread
    next h2 =>
      split
      next h => exact (segments_of_lt_0x10000 (Nat.le_of_not_lt h2) h hvalid bs).trans hread
      next h3 => exact (segments_of_le_0x10000 (Nat.le_of_not_lt h3) hvalid bs).trans hread

theorem segments_encode (cs : List Char) : segments (encode cs) = cs.map .char := by
  induction cs with
  | nil => rfl
  | cons c cs ih =>
    rw [encode_cons, segments_encodeChar_append, ih]
    rfl

theorem decode_go_map_char (cs : List Char) (index : Nat) :
    decode.go index (cs.map .char) = .ok cs := by
  induction cs generalizing index with
  | nil => rfl
  | cons c cs ih =>
    rw [List.map_cons, decode.go, ih]
    rfl

/-- A text is read back as it was written. -/
theorem decode_encode (cs : List Char) : decode (encode cs) = .ok cs := by
  unfold decode
  rw [segments_encode]
  exact decode_go_map_char cs 0

theorem encode_inj {cs ds : List Char} (h : encode cs = encode ds) : cs = ds := by
  have hread := decode_encode cs
  rw [h, decode_encode] at hread
  exact (Except.ok.inj hread).symm

theorem encodeChar_of_lt_0x80 {c : Char} (h : c.toNat < 0x80) :
    encodeChar c = [UInt8.ofNat c.toNat] := by
  unfold encodeChar
  simp only
  rw [if_pos h]

theorem encode_of_lt_0x80 {cs : List Char} (h : ∀ c ∈ cs, c.toNat < 0x80) :
    encode cs = cs.map fun c => UInt8.ofNat c.toNat := by
  induction cs with
  | nil => rfl
  | cons c cs ih =>
    rw [List.forall_mem_cons] at h
    rw [encode_cons, encodeChar_of_lt_0x80 h.1, ih h.2]
    rfl

theorem length_of_lt_0x80 {cs : List Char} (h : ∀ c ∈ cs, c.toNat < 0x80) :
    length cs = cs.length := by
  unfold length
  rw [encode_of_lt_0x80 h, List.length_map]

end ResponseCache.Bytes.Utf8
