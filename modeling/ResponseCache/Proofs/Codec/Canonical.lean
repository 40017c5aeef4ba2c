import ResponseCache.Proofs.Bytes.Canonical
import ResponseCache.Proofs.Codec.RoundTrip

/-!
This module contains the proof that an entry has one binary form: every reader takes from the front
of a byte string nothing but what the writer of the same kind puts there for the value that was read.
Hence the bytes of an entry are read from a byte string exactly if they stand at its front, and no
beginning of them is read as an entry.
-/

namespace ResponseCache

namespace Codec

open Bytes (littleEndian ofLittleEndian)

theorem exists_of_bind_eq_ok {α β : Type} {x : Except CodecError α}
    {f : α → Except CodecError β} {b : β} (h : (x >>= f) = .ok b) : ∃ a, x = .ok a ∧ f a = .ok b := by
  cases x with
  | error => nomatch h
  | ok a => exact ⟨a, rfl, h⟩

theorem eq_of_getNumber {width n : Nat} {bs rest : Bytes}
    (h : getNumber width bs = .ok (n, rest)) : bs = littleEndian width n ++ rest ∧ n < 256 ^ width := by
  unfold getNumber at h
  split at h
  next hle =>
    cases h
    have hlength : (bs.take width).length = width := by
      rw [List.length_take]
      omega
    have hlayout := Bytes.littleEndian_ofLittleEndian (bs.take width)
    have hlt := Bytes.ofLittleEndian_lt (bs.take width)
    rw [hlength] at hlayout hlt
    rw [hlayout, List.take_append_drop]
    exact ⟨rfl, hlt⟩
  next => nomatch h

theorem eq_of_getLength {n : Nat} {bs rest : Bytes} (h : getLength bs = .ok (n, rest)) :
    bs = putLength n ++ rest ∧ n < UInt64.size :=
  eq_of_getNumber h

theorem eq_of_getBytes {value bs rest : Bytes} (h : getBytes bs = .ok (value, rest)) :
    bs = putBytes value ++ rest ∧ value.length < UInt64.size := by
  unfold getBytes at h
  obtain ⟨⟨n, after⟩, hlength, htaken⟩ := exists_of_bind_eq_ok h
  obtain ⟨rfl, hn⟩ := eq_of_getLength hlength
  simp only at htaken
  split at htaken
  next hle =>
    cases htaken
    have htake : (after.take n).length = n := by
      rw [List.length_take]
      omega
    unfold putBytes
    rw [htake, List.append_assoc, List.take_append_drop]
    exact ⟨rfl, hn⟩
  next => nomatch htaken

theorem eq_of_getText {s : String} {bs rest : Bytes} (h : getText bs = .ok (s, rest)) :
    bs = putText s ++ rest ∧ Bytes.Utf8.length s.toList < UInt64.size := by
  unfold getText at h
  obtain ⟨⟨n, after⟩, hlength, htaken⟩ := exists_of_bind_eq_ok h
  obtain ⟨rfl, hn⟩ := eq_of_getLength hlength
  simp only at htaken
  split at htaken
  next hle =>
    split at htaken
    next cs hdecode =>
      cases htaken
      have hencode := Bytes.Utf8.encode_of_decode hdecode
      have htake : (after.take n).length = n := by
        rw [List.length_take]
        omega
      unfold putText putBytes Bytes.Utf8.length
      rw [String.toList_ofList, hencode, htake, List.append_assoc, List.take_append_drop]
      exact ⟨rfl, hn⟩
    next => nomatch htaken
  next => nomatch htaken

theorem eq_of_getField {field : String × Bytes} {bs rest : Bytes}
    (h : getField bs = .ok (field, rest)) :
    bs = putField field ++ rest ∧ Bytes.Utf8.length field.1.toList < UInt64.size
      ∧ field.2.length < UInt64.size := by
  unfold getField at h
  obtain ⟨⟨name, afterName⟩, hname, htail⟩ := exists_of_bind_eq_ok h
  obtain ⟨⟨value, afterValue⟩, hvalue, hpair⟩ := exists_of_bind_eq_ok htail
  cases hpair
  obtain ⟨rfl, hnameLt⟩ := eq_of_getText hname
  obtain ⟨rfl, hvalueLt⟩ := eq_of_getBytes hvalue
  unfold putField
  rw [List.append_assoc]
  exact ⟨rfl, hnameLt, hvalueLt⟩

theorem eq_of_getFields {n : Nat} {fields : List (String × Bytes)} {bs rest : Bytes}
    (h : getFields n bs = .ok (fields, rest)) :
    bs = fields.flatMap putField ++ rest ∧ fields.length = n
      ∧ (∀ field ∈ fields, Bytes.Utf8.length field.1.toList < UInt64.size)
      ∧ ∀ field ∈ fields, field.2.length < UInt64.size := by
  induction n generalizing fields bs with
  | zero =>
    cases h
    exact ⟨rfl, rfl, by simp, by simp⟩
  | succ n ih =>
    unfold getFields at h
    obtain ⟨⟨field, afterField⟩, hfield, htail⟩ := exists_of_bind_eq_ok h
    obtain ⟨⟨others, afterOthers⟩, hothers, hlist⟩ := exists_of_bind_eq_ok htail
    cases hlist
    obtain ⟨rfl, hnameLt, hvalueLt⟩ := eq_of_getField hfield
    obtain ⟨rfl, hcount, hnames, hvalues⟩ := ih hothers
    refine ⟨?_, ?_, List.forall_mem_cons.2 ⟨hnameLt, hnames⟩,
      List.forall_mem_cons.2 ⟨hvalueLt, hvalues⟩⟩
    . rw [List.flatMap_cons, List.append_assoc]
    . rw [List.length_cons, hcount]

/-- An entry that can be written, and needs no change for it. -/
structure Writable (e : Entry) : Prop where
  fits : e.Fits
  epoch_le : Time.epoch ≤ e.lastValid
  le_latest : e.lastValid ≤ latest

theorem held_of_writable {e : Entry} (h : Writable e) : held e = e := by
  unfold held
  rw [if_pos h.le_latest]

theorem nanos_of_ofNanos? {n : Nat} {t : Time} (h : Time.ofNanos? n = some t) : t.nanos = n := by
  unfold Time.ofNanos? at h
  split at h
  . cases h
    rfl
  . cases h

theorem code_of_ofNat? {n : Nat} {status : Status} (h : Status.ofNat? n = some status) :
    status.code = n := by
  unfold Status.ofNat? at h
  split at h
  . cases h
    rfl
  . cases h

theorem encode_of_writable {e : Entry} (h : Writable e) :
    encode e = .ok (littleEndian 2 e.status.code
      ++ (putLength e.headers.length ++ e.headers.flatMap putField)
      ++ putBytes e.body
      ++ littleEndian 8 e.lastValid.unixNanos
      ++ putText e.etag) := by
  have hlow : 0 ≤ e.lastValid.nanos := h.epoch_le
  have hhigh : e.lastValid.nanos ≤ maxNanos := h.le_latest
  have hmin : min e.lastValid.unixNanos maxNanos = e.lastValid.unixNanos := by
    unfold Time.unixNanos
    omega
  unfold encode
  rw [if_neg (by omega), hmin]

theorem encode_of_getEntry {e : Entry} {bs rest : Bytes} (h : getEntry bs = .ok (e, rest)) :
    Writable e ∧ ∃ p, encode e = .ok p ∧ bs = p ++ rest := by
  unfold getEntry at h
  obtain ⟨⟨code, afterCode⟩, hcode, hfromCount⟩ := exists_of_bind_eq_ok h
  obtain ⟨⟨count, afterCount⟩, hcount, hfromHeaders⟩ := exists_of_bind_eq_ok hfromCount
  obtain ⟨⟨headers, afterHeaders⟩, hheaders, hfromBody⟩ := exists_of_bind_eq_ok hfromHeaders
  obtain ⟨⟨body, afterBody⟩, hbody, hfromNanos⟩ := exists_of_bind_eq_ok hfromBody
  obtain ⟨⟨nanos, afterNanos⟩, hnanos, hfromEtag⟩ := exists_of_bind_eq_ok hfromNanos
  obtain ⟨⟨etag, afterEtag⟩, hetag, hchecked⟩ := exists_of_bind_eq_ok hfromEtag
  simp only at hchecked
  split at hchecked
  next status lastValid hstatus htime =>
    cases hchecked
    obtain ⟨rfl, -⟩ := eq_of_getNumber hcode
    obtain ⟨rfl, hcountLt⟩ := eq_of_getLength hcount
    obtain ⟨rfl, rfl, hnamesLt, hvaluesLt⟩ := eq_of_getFields hheaders
    obtain ⟨rfl, hbodyLt⟩ := eq_of_getBytes hbody
    obtain ⟨rfl, hnanosLt⟩ := eq_of_getNumber hnanos
    obtain ⟨rfl, hetagLt⟩ := eq_of_getText hetag
    have htimeNanos := nanos_of_ofNanos? htime
    have hwritable : Writable ⟨status, headers, body, lastValid, etag⟩ := by
      refine ⟨⟨hcountLt, hnamesLt, hvaluesLt, hbodyLt, hetagLt⟩, ?_, ?_⟩
      . show 0 ≤ lastValid.nanos
        omega
      . show lastValid.nanos ≤ maxNanos
        unfold maxNanos UInt64.size
        omega
    have hunix : lastValid.unixNanos = nanos := by
      unfold Time.unixNanos
      omega
    refine ⟨hwritable, _, encode_of_writable hwritable, ?_⟩
    simp only [code_of_ofNat? hstatus, hunix, List.append_assoc]
  next => nomatch hchecked

theorem encode_of_decode_eq_ok {e : Entry} {bs : Bytes} (h : decode bs = .ok e) :
    Writable e ∧ ∃ p, encode e = .ok p ∧ p <+: bs := by
  unfold decode at h
  cases hread : getEntry bs with
  | error fault =>
    rw [hread] at h
    nomatch h
  | ok read =>
    rw [hread] at h
    cases h
    obtain ⟨hwritable, p, hencode, hbs⟩ := encode_of_getEntry hread
    exact ⟨hwritable, p, hencode, read.2, hbs.symm⟩

theorem decode_of_isPrefix {e : Entry} {p bs : Bytes} (hwritable : Writable e)
    (hencode : encode e = .ok p) (hfront : p <+: bs) : decode bs = .ok e := by
  obtain ⟨rest, rfl⟩ := hfront
  rw [decode_encode_append hwritable.fits hencode, held_of_writable hwritable]

theorem not_decode_of_isPrefix {e e' : Entry} {p q : Bytes} (hwritable : Writable e)
    (hencode : encode e = .ok p) (hfront : q <+: p) (hne : q ≠ p) : decode q ≠ .ok e' := by
  intro hdecode
  obtain ⟨hwritable', p', hencode', hfront'⟩ := encode_of_decode_eq_ok hdecode
  -- The whole reads as what its beginning reads as, so that both are the one form of one entry.
  have hwhole : decode p = .ok e' := decode_of_isPrefix hwritable' hencode' (hfront'.trans hfront)
  rw [decode_of_isPrefix hwritable hencode (List.prefix_refl p)] at hwhole
  cases hwhole
  rw [hencode] at hencode'
  cases hencode'
  exact hne (hfront.eq_of_length_le hfront'.length_le)

/--
A byte string that reads as an entry begins with the binary form of this entry. The form is all that is
read: any byte string that begins with it reads as the entry, no other does, and whatever is cut off at
the end of the form is missed.
-/
theorem canonical_of_decode {e : Entry} {bs : Bytes} (h : decode bs = .ok e) :
    ∃ p, encode e = .ok p ∧ p <+: bs
      ∧ (∀ q, q <+: p → q ≠ p → ∃ fault, decode q = .error fault)
      ∧ ∀ other, decode other = .ok e ↔ p <+: other := by
  obtain ⟨hwritable, p, hencode, hfront⟩ := encode_of_decode_eq_ok h
  refine ⟨p, hencode, hfront, ?_, ?_⟩
  . intro q hq hne
    cases hdecode : decode q with
    | error fault => exact ⟨fault, rfl⟩
    | ok e' => exact absurd hdecode (not_decode_of_isPrefix hwritable hencode hq hne)
  . intro other
    constructor
    . intro hother
      obtain ⟨-, p', hencode', hfront'⟩ := encode_of_decode_eq_ok hother
      rw [hencode] at hencode'
      cases hencode'
      exact hfront'
    . intro hother
      exact decode_of_isPrefix hwritable hencode hother

def smallEntry : Entry where
  status := ⟨410, by decide, by decide⟩
  headers := [("é", [0xff])]
  body := []
  lastValid := ⟨5, by decide, by decide⟩
  etag := "a"

def smallForm : Bytes :=
  [0x9a, 0x01]
    ++ [1, 0, 0, 0, 0, 0, 0, 0]
    ++ [2, 0, 0, 0, 0, 0, 0, 0, 0xc3, 0xa9]
    ++ [1, 0, 0, 0, 0, 0, 0, 0, 0xff]
    ++ [0, 0, 0, 0, 0, 0, 0, 0]
    ++ [5, 0, 0, 0, 0, 0, 0, 0]
    ++ [1, 0, 0, 0, 0, 0, 0, 0, 0x61]

theorem canonical_smallForm :
    decode (smallForm ++ [0x07]) = .ok smallEntry
      ∧ ∃ p, encode smallEntry = .ok p ∧ p <+: smallForm ++ [0x07]
        ∧ (∀ q, q <+: p → q ≠ p → ∃ fault, decode q = .error fault)
        ∧ ∀ other, decode other = .ok smallEntry ↔ p <+: other := by
  have hdecode : decode (smallForm ++ [0x07]) = .ok smallEntry := by rfl
  exact ⟨hdecode, canonical_of_decode hdecode⟩

end Codec

end ResponseCache
