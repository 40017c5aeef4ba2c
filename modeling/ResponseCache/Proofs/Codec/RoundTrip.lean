import ResponseCache.Bytes.Lemmas
import ResponseCache.Codec
import ResponseCache.Proofs.Bytes.Utf8

/-!
This module contains the proof that an entry is read back from its binary format, whatever follows
it there: every reader takes from the front of a byte string what the writer of the same kind put
there. Only a time that is too late for the format is not kept.
-/

namespace ResponseCache

/-- Whether the lengths of all parts of an entry can be written in eight bytes. -/
structure Entry.Fits (e : Entry) : Prop where
  headers_lt : e.headers.length < UInt64.size
  name_lt : ∀ field ∈ e.headers, Bytes.Utf8.length field.1.toList < UInt64.size
  value_lt : ∀ field ∈ e.headers, field.2.length < UInt64.size
  body_lt : e.body.length < UInt64.size
  etag_lt : Bytes.Utf8.length e.etag.toList < UInt64.size

namespace Codec

open Bytes (littleEndian ofLittleEndian)

def latest : Time :=
  ⟨maxNanos, by decide, by decide⟩

/-- The entry as the format holds it. -/
def held (e : Entry) : Entry :=
  { e with lastValid := if e.lastValid ≤ latest then e.lastValid else latest }

theorem bind_eq_of_eq_ok {α β : Type} {x : Except CodecError α} {a : α}
    {f : α → Except CodecError β} {r : Except CodecError β} (hx : x = .ok a) (hf : f a = r) :
    (x >>= f) = r := by
  rw [hx]
  exact hf

theorem getNumber_littleEndian {width n : Nat} (h : n < 256 ^ width) (rest : Bytes) :
    getNumber width (littleEndian width n ++ rest) = .ok (n, rest) := by
  have hlength : (littleEndian width n).length = width := Bytes.length_littleEndian width n
  unfold getNumber
  rw [if_pos, List.take_left' hlength, List.drop_left' hlength, Bytes.ofLittleEndian_littleEndian h]
  rw [List.length_append, hlength]
  omega

theorem getLength_putLength {n : Nat} (h : n < UInt64.size) (rest : Bytes) :
    getLength (putLength n ++ rest) = .ok (n, rest) :=
  getNumber_littleEndian h rest

theorem getBytes_putBytes {bs : Bytes} (h : bs.length < UInt64.size) (rest : Bytes) :
    getBytes (putBytes bs ++ rest) = .ok (bs, rest) := by
  unfold getBytes putBytes
  rw [List.append_assoc]
  apply bind_eq_of_eq_ok (getLength_putLength h _)
  simp only
  rw [if_pos, List.take_left, List.drop_left]
  . rfl
  . rw [List.length_append]
    omega

theorem getText_putText {s : String} (h : Bytes.Utf8.length s.toList < UInt64.size)
    (rest : Bytes) : getText (putText s ++ rest) = .ok (s, rest) := by
  unfold Bytes.Utf8.length at h
  unfold getText putText putBytes
  rw [List.append_assoc]
  apply bind_eq_of_eq_ok (getLength_putLength h _)
  simp only
  rw [if_pos, List.take_left, List.drop_left, Bytes.Utf8.decode_encode]
  . simp only [String.ofList_toList]
    rfl
  . rw [List.length_append]
    omega

theorem getField_putField {field : String × Bytes}
    (hname : Bytes.Utf8.length field.1.toList < UInt64.size)
    (hvalue : field.2.length < UInt64.size) (rest : Bytes) :
    getField (putField field ++ rest) = .ok (field, rest) := by
  unfold getField putField
  rw [List.append_assoc]
  apply bind_eq_of_eq_ok (getText_putText hname _)
  apply bind_eq_of_eq_ok (getBytes_putBytes hvalue _)
  rfl

theorem getFields_flatMap_putField {fields : List (String × Bytes)}
    (hname : ∀ field ∈ fields, Bytes.Utf8.length field.1.toList < UInt64.size)
    (hvalue : ∀ field ∈ fields, field.2.length < UInt64.size) (rest : Bytes) :
    getFields fields.length (fields.flatMap putField ++ rest) = .ok (fields, rest) := by
  induction fields with
  | nil => rfl
  | cons field fields ih =>
    rw [List.forall_mem_cons] at hname hvalue
    rw [List.flatMap_cons, List.append_assoc, List.length_cons, getFields]
    apply bind_eq_of_eq_ok (getField_putField hname.1 hvalue.1 _)
    apply bind_eq_of_eq_ok (ih hname.2 hvalue.2)
    rfl

theorem ofNanos?_min_unixNanos {t : Time} (h : 0 ≤ t.nanos) :
    Time.ofNanos? (min t.unixNanos maxNanos : Nat) = some (if t ≤ latest then t else latest) := by
  have hlatest : latest.nanos = maxNanos := rfl
  have hmax : (maxNanos : Int) < timeBound := by decide
  have hle (u : Time) : u ≤ latest ↔ u.nanos ≤ maxNanos := Iff.rfl
  have hnanos : ((min t.unixNanos maxNanos : Nat) : Int)
      = (if t ≤ latest then t else latest).nanos := by
    unfold Time.unixNanos
    split
    next hearly =>
      rw [hle] at hearly
      omega
    next hlate =>
      rw [hle] at hlate
      omega
  have hrange := (if t ≤ latest then t else latest).nanos_lt
  have hlow := (if t ≤ latest then t else latest).le_nanos
  unfold Time.ofNanos?
  rw [hnanos, dif_pos ⟨hlow, hrange⟩]

theorem getEntry_encode {e : Entry} {bytes : Bytes} (hfits : e.Fits)
    (hencode : encode e = .ok bytes) (rest : Bytes) :
    getEntry (bytes ++ rest) = .ok (held e, rest) := by
  unfold encode at hencode
  split at hencode
  next => nomatch hencode
  next hepoch =>
    have hbytes := Except.ok.inj hencode
    have hcode : e.status.code < 256 ^ 2 := by
      have hlt := e.status.code_lt
      omega
    have hstatus : Status.ofNat? e.status.code = some e.status := by
      unfold Status.ofNat?
      rw [dif_pos ⟨e.status.le_code, e.status.code_lt⟩]
    have hnanos : min e.lastValid.unixNanos maxNanos < 256 ^ 8 := by
      have hle := Nat.min_le_right e.lastValid.unixNanos maxNanos
      have hmax : maxNanos < 256 ^ 8 := by decide
      omega
    rw [← hbytes]
    simp only [List.append_assoc]
    -- One reader for each part, in the order in which the parts were written.
    apply bind_eq_of_eq_ok (getNumber_littleEndian hcode _)
    apply bind_eq_of_eq_ok (getLength_putLength hfits.headers_lt _)
    apply bind_eq_of_eq_ok (getFields_flatMap_putField hfits.name_lt hfits.value_lt _)
    apply bind_eq_of_eq_ok (getBytes_putBytes hfits.body_lt _)
    apply bind_eq_of_eq_ok (getNumber_littleEndian hnanos _)
    apply bind_eq_of_eq_ok (getText_putText hfits.etag_lt _)
    rw [ofNanos?_min_unixNanos (Int.not_lt.1 hepoch), hstatus]
    rfl

theorem decode_encode_append {e : Entry} {bytes : Bytes} (hfits : e.Fits)
    (hencode : encode e = .ok bytes) (rest : Bytes) : decode (bytes ++ rest) = .ok (held e) := by
  unfold decode
  rw [getEntry_encode hfits hencode rest]
  rfl

theorem decode_encode {e : Entry} {bytes : Bytes} (hfits : e.Fits)
    (hencode : encode e = .ok bytes) : decode bytes = .ok (held e) := by
  have hread := decode_encode_append hfits hencode []
  rwa [List.append_nil] at hread

/--
An entry cannot be written exactly if it was generated before the epoch. Otherwise it is read back
from what was written, whatever follows it: with the earlier of its time and the last one that the
format can hold, and with nothing else changed.
-/
theorem roundTrip_of_fits {e : Entry} (hfits : e.Fits) (rest : Bytes) :
    ((∃ fault, encode e = .error fault) ↔ ¬Time.epoch ≤ e.lastValid)
      ∧ (Time.epoch ≤ e.lastValid →
          ∃ bytes, encode e = .ok bytes ∧ decode (bytes ++ rest) = .ok (held e)) := by
  have hepoch : Time.epoch ≤ e.lastValid ↔ ¬e.lastValid.nanos < 0 := Int.not_lt.symm
  rw [hepoch, Decidable.not_not]
  unfold encode
  by_cases h : e.lastValid.nanos < 0
  . simp [h]
  . refine ⟨by simp [h], fun _ => ⟨_, if_neg h, ?_⟩⟩
    apply decode_encode_append hfits
    exact if_neg h

def lateEntry : Entry where
  status := ⟨404, by decide, by decide⟩
  headers := [("é", [0xff, 0x00]), ("é", [])]
  body := [0x80]
  lastValid := ⟨maxNanos + 1, by decide, by decide⟩
  etag := "\"ä\""

theorem fits_lateEntry : lateEntry.Fits :=
  ⟨by decide, by decide, by decide, by decide, by decide⟩

theorem roundTrip_lateEntry :
    lateEntry.Fits
      ∧ (¬∃ fault, encode lateEntry = .error fault)
      ∧ ∃ bytes, encode lateEntry = .ok bytes
        ∧ decode (bytes ++ [0x01]) = .ok { lateEntry with lastValid := latest } := by
  have hepoch : Time.epoch ≤ lateEntry.lastValid := by decide
  obtain ⟨hfails, hreads⟩ := roundTrip_of_fits fits_lateEntry [0x01]
  exact ⟨fits_lateEntry, fun h => hfails.1 h hepoch, hreads hepoch⟩

end Codec

end ResponseCache
