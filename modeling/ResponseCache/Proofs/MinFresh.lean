import ResponseCache.Proofs.Demands
import ResponseCache.Proofs.DirectiveList

/-!
This module contains what a larger number does in a demand for remaining freshness: it takes stored responses
away from a client, up to the numbers that do not fit 64 bits, which demand nothing.
-/

namespace ResponseCache

namespace Directives

open Text (natural? splitOn)

theorem isNameChar_toLower {c : Char} (h : Text.isDigit c = true) : HeaderName.isNameChar c.toLower = true := by
  rw [Text.toLower_of_isDigit h]
  simp [HeaderName.isNameChar, h]

def minFreshOf (digits : List Char) (ne_nil : digits ≠ []) (all : digits.all Text.isDigit = true) :
    Directive :=
  .named .none ⟨"min-fresh".toList, by decide, by decide⟩
    (some ⟨.none, .none, .token
      ⟨digits, ne_nil, List.all_eq_true.2 fun c hmem => isNameChar_toLower (List.all_eq_true.1 all c hmem)⟩⟩)
    .none

theorem isPlain_minFreshOf {digits : List Char} (ne_nil : digits ≠ [])
    (all : digits.all Text.isDigit = true) : (minFreshOf digits ne_nil all).IsPlain := by
  have hmark : ∀ {c : Char}, Text.isDigit c = false → c ∉ digits := fun hc hmem =>
    absurd (List.all_eq_true.1 all _ hmem) (Bool.eq_false_iff.1 hc)
  intro a ha
  cases ha
  refine ⟨hmark (by decide), ?_⟩
  intro hhead
  exact hmark (c := '+') (by decide) (List.mem_of_head? hhead)

/-- What a number demands is lost if it does not fit 64 bits. -/
theorem ofValues_of_natural? {v : HeaderValue} {digits : List Char} {n : Nat}
    (hv : v.text? = some ("min-fresh=".toList ++ digits)) (hn : natural? digits = some n) :
    ofValues [v] = { none with minFresh := (some n).filter (· < UInt64.size) } := by
  have hdigits : digits ≠ [] ∧ digits.all Text.isDigit = true := by
    unfold natural? at hn
    exact (Option.ite_none_right_eq_some.1 hn).1
  have hspelled : (minFreshOf digits hdigits.1 hdigits.2).spelled = "min-fresh=".toList ++ digits := by
    simp [minFreshOf, Directive.spelled, Assignment.spelled, Argument.spelled, EntityTag.Blanks.none]
  have hvalues : ofValues [v] = ofElements (splitOn ',' ("min-fresh=".toList ++ digits)) := by
    simp [ofValues, hv]
  rw [hvalues, ← hspelled, Directive.ofElements_splitOn_spelled,
    Directive.apparent_eq_meaning (isPlain_minFreshOf _ _), ← hn]
  rfl

theorem minFresh_coveredBy {x y : Option Nat} (h : ∀ a ∈ x, ∃ b ∈ y, a ≤ b) :
    CoveredBy { none with minFresh := x } { none with minFresh := y } where
  maxAge _ ha := nomatch ha
  minFresh := h
  noStore hstore := nomatch hstore

/-- Of two readings the stricter one stays the stricter one among others. -/
theorem CoveredBy.merge {d e : Directives} (h : d.CoveredBy e) (before after : Directives) :
    (merge (merge before d) after).CoveredBy (merge (merge before e) after) := by
  obtain ⟨hleft, hafter⟩ :=
    merge_coveredBy_iff.1 (coveredBy_refl (Directives.merge (.merge before e) after))
  obtain ⟨hbefore, he⟩ := merge_coveredBy_iff.1 hleft
  rw [merge_coveredBy_iff, merge_coveredBy_iff]
  exact ⟨⟨hbefore, h.trans he⟩, hafter⟩

end Directives

open Directives (ofHeaders)

/--
A client that does not get a stored response with some number does not get it with a larger one, among any
other fields, unless only the larger one does not fit 64 bits. Such a number counts as if it were not there.
-/
theorem decideRequest_ne_hit_of_le {existing : Option Entry} {policy : AgePolicy} {now : Time}
    {g h : Headers} {v w : HeaderValue} {digits digits' : List Char} {m n : Nat}
    (hv : v.text? = some ("min-fresh=".toList ++ digits)) (hm : Text.natural? digits = some m)
    (hw : w.text? = some ("min-fresh=".toList ++ digits')) (hn : Text.natural? digits' = some n)
    (hle : m ≤ n) :
    ((n < UInt64.size ∨ UInt64.size ≤ m) →
        decideRequest existing policy (ofHeaders (g ++ [(.cacheControl, v)] ++ h)) now ≠ .hit →
          decideRequest existing policy (ofHeaders (g ++ [(.cacheControl, w)] ++ h)) now ≠ .hit)
      ∧ (UInt64.size ≤ n →
        decideRequest existing policy (ofHeaders (g ++ [(.cacheControl, w)] ++ h)) now
          = decideRequest existing policy (ofHeaders (g ++ h)) now) := by
  have hone : ∀ value : HeaderValue, ofHeaders (g ++ [(.cacheControl, value)] ++ h)
      = (Directives.merge (.merge (ofHeaders g) (.ofValues [value])) (ofHeaders h)) := by
    intro value
    rw [Directives.ofHeaders_append, Directives.ofHeaders_append]
    rfl
  constructor
  . intro hfits hne hhit
    apply hne
    have hcovered : (Directives.ofValues [v]).CoveredBy (.ofValues [w]) := by
      rw [Directives.ofValues_of_natural? hv hm, Directives.ofValues_of_natural? hw hn]
      apply Directives.minFresh_coveredBy
      intro a ha
      obtain ⟨rfl, hfit⟩ : m = a ∧ a < UInt64.size := by simpa using ha
      have hfit' : n < UInt64.size := by omega
      exact ⟨n, by simp [hfit'], hle⟩
    rw [hone] at hhit ⊢
    exact decideRequest_eq_hit_of_later (hcovered.merge _ _) (Time.le_refl now) hhit
  . intro hlarge
    have hnone : Directives.ofValues [w] = .none := by
      rw [Directives.ofValues_of_natural? hw hn, Option.filter_some, if_neg (by simpa using hlarge)]
      rfl
    rw [hone, hnone, Directives.merge_none, Directives.ofHeaders_append]

/-- The value `min-fresh=21`, which is more than what is left at half a minute. -/
def twentyOne : HeaderValue :=
  ⟨Bytes.Utf8.encode "min-fresh=21".toList, by decide⟩

def twentyTwo : HeaderValue :=
  ⟨Bytes.Utf8.encode "min-fresh=0022".toList, by decide⟩

/-- The value of `min-fresh` with the least number that does not fit 64 bits. -/
def tooLarge : HeaderValue :=
  ⟨Bytes.Utf8.encode "min-fresh=18446744073709551616".toList, by decide⟩

theorem decideGuarded_twentyTwo :
    twentyOne.text? = some ("min-fresh=".toList ++ "21".toList)
      ∧ Text.natural? "21".toList = some 21
      ∧ twentyTwo.text? = some ("min-fresh=".toList ++ "0022".toList)
      ∧ Text.natural? "0022".toList = some 22
      ∧ tooLarge.text? = some ("min-fresh=".toList ++ "18446744073709551616".toList)
      ∧ Text.natural? "18446744073709551616".toList = some UInt64.size
      ∧ decideGuarded [(.cacheControl, twentyOne)] halfMinute ≠ .hit
      ∧ decideGuarded [(.cacheControl, twentyTwo)] halfMinute ≠ .hit
      ∧ decideGuarded [(.cacheControl, tooLarge)] halfMinute = decideGuarded [] halfMinute := by
  have hv : twentyOne.text? = some ("min-fresh=".toList ++ "21".toList) := by decide
  have hm : Text.natural? "21".toList = some 21 := by decide
  have hw : twentyTwo.text? = some ("min-fresh=".toList ++ "0022".toList) := by decide
  have hn : Text.natural? "0022".toList = some 22 := by decide
  have hlarge : tooLarge.text? = some ("min-fresh=".toList ++ "18446744073709551616".toList) := by decide
  have hsize : Text.natural? "18446744073709551616".toList = some UInt64.size := by decide
  have hne : decideGuarded [(.cacheControl, twentyOne)] halfMinute ≠ .hit := by decide +kernel
  obtain ⟨hkeeps, -⟩ := decideRequest_ne_hit_of_le (g := []) (h := []) hv hm hw hn (by decide)
  obtain ⟨-, hignored⟩ := decideRequest_ne_hit_of_le (g := []) (h := []) hv hm hlarge hsize (by decide)
  exact ⟨hv, hm, hw, hn, hlarge, hsize, hne, hkeeps (.inl (by decide)) hne, hignored (Nat.le_refl _)⟩

/-- A number that does not fit is larger, and does not keep from the client what a smaller one keeps. -/
theorem decideGuarded_tooLarge :
    twentyOne.text? = some ("min-fresh=".toList ++ "21".toList)
      ∧ tooLarge.text? = some ("min-fresh=".toList ++ "18446744073709551616".toList)
      ∧ Text.ofDigits "21".toList ≤ Text.ofDigits "18446744073709551616".toList
      ∧ decideGuarded [(.cacheControl, twentyOne)] halfMinute ≠ .hit
      ∧ decideGuarded [(.cacheControl, tooLarge)] halfMinute = .hit := by
  decide +kernel

end ResponseCache
