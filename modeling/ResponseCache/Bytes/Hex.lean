import ResponseCache.Bytes.Basic
import ResponseCache.Text.Number

/-!
This module contains the hexadecimal spelling of byte strings: two lower-case digits for each byte.
-/

namespace ResponseCache.Bytes

open Text (hexValue?)

def hexDigit (n : Nat) : Char :=
  Nat.digitChar n

def toHex (bs : Bytes) : List Char :=
  bs.flatMap fun b => [hexDigit (b.toNat / 16), hexDigit (b.toNat % 16)]

def ofHex? : List Char → Option Bytes
  | [] => some []
  | high :: low :: rest => do
    let h ← hexValue? high
    let l ← hexValue? low
    let bs ← ofHex? rest
    return UInt8.ofNat (16 * h + l) :: bs
  | [_] => none

@[simp]
theorem length_toHex (bs : Bytes) : (toHex bs).length = 2 * bs.length := by
  induction bs with
  | nil => rfl
  | cons b bs ih =>
    simp only [toHex, List.flatMap_cons, List.length_append, List.length_cons] at ih ⊢
    simp only [List.length_nil, ih]
    omega

theorem hexDigit_inj {m n : Nat} (hm : m < 16) (hn : n < 16) (h : hexDigit m = hexDigit n) : m = n := by
  have hall : ∀ m < 16, ∀ n < 16, hexDigit m = hexDigit n → m = n := by
    decide
  exact hall m hm n hn h

theorem toHex_inj {as bs : Bytes} (h : toHex as = toHex bs) : as = bs := by
  induction as generalizing bs with
  | nil =>
    cases bs with
    | nil => rfl
    | cons b bs => nomatch h
  | cons a as ih =>
    cases bs with
    | nil => nomatch h
    | cons b bs =>
      have ha := a.toNat_lt
      have hb := b.toNat_lt
      simp only [toHex, List.flatMap_cons, List.cons_append, List.nil_append, List.cons.injEq] at h
      have hhigh := hexDigit_inj (by omega) (by omega) h.1
      have hlow := hexDigit_inj (by omega) (by omega) h.2.1
      have hbyte : a = b := UInt8.toNat_inj.1 (by omega)
      rw [hbyte, ih h.2.2]

end ResponseCache.Bytes
