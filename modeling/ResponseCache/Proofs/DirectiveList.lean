import ResponseCache.Proofs.Directives
import ResponseCache.Proofs.Layer.TagList
import ResponseCache.Proofs.Text.Case

/-!
This module contains the values of `Cache-Control` as their grammar has them: lists of directives, each with a
name and perhaps an argument, which may be a text in quotes. They are read piece by piece between the commas,
also those in quotes, and a number may begin with a plus sign. So all that is meant is heeded, but what
stands in quotes may be heeded, too.
-/

namespace ResponseCache

open EntityTag (Blanks)
open Text (splitOn splitOnce trim strip word?)

/-- A word of the grammar: characters that the names of header fields have, in any case. -/
structure Token where
  text : List Char
  ne_nil : text ≠ []
  all : text.all (fun c => HeaderName.isNameChar c.toLower) = true

inductive QuotedChar where
  /-- One that stands for itself. -/
  | plain (c : Char) (not_quote : c ≠ '"') (not_escape : c ≠ '\\')
  /-- Any one behind the mark that takes away its meaning. -/
  | escaped (c : Char)

def QuotedChar.written : QuotedChar → List Char
  | plain c _ _ => [c]
  | escaped c => ['\\', c]

inductive Argument where
  | token (t : Token)
  | quoted (cs : List QuotedChar)

namespace Argument

/-- An argument as it is written, without the quotes around it. -/
def written : Argument → List Char
  | token t => t.text
  | quoted cs => cs.flatMap QuotedChar.written

def spelled : Argument → List Char
  | token t => t.text
  | quoted cs => '"' :: cs.flatMap QuotedChar.written ++ ['"']

/-- The number that an argument is: some digits, whose value fits 64 bits. -/
def number? (a : Argument) : Option Nat :=
  (Text.natural? a.written).filter (· < UInt64.size)

end Argument

/-- The equals sign with an argument behind it and the blanks around it. -/
structure Assignment where
  before : Blanks
  after : Blanks
  argument : Argument

def Assignment.spelled (a : Assignment) : List Char :=
  a.before.text ++ '=' :: (a.after.text ++ a.argument.spelled)

inductive Directive where
  /-- Nothing but blanks. -/
  | blank (b : Blanks)
  /-- A name with or without an argument, and the blanks around them. -/
  | named (before : Blanks) (name : Token) (assignment : Option Assignment) (after : Blanks)

namespace Directive

open Directives (merge together ofElement ofElements)

def spelled : Directive → List Char
  | blank b => b.text
  | named before name assignment after =>
    before.text ++ name.text ++ (assignment.elim [] Assignment.spelled ++ after.text)

/-- What a directive of a name in lower case demands, with the number that it gives. -/
def demand (name : List Char) (number : Option Nat) : Directives :=
  if name = "max-age".toList then
    { Directives.none with maxAge := number }
  else if name = "min-fresh".toList then
    { Directives.none with minFresh := number }
  else if name = "no-cache".toList then
    { Directives.none with maxAge := some 0 }
  else if name = "no-store".toList then
    { Directives.none with noStore := true }
  else
    Directives.none

/-- What an element means: only its name counts, in any case, and its argument if it is a number. -/
def meaning : Directive → Directives
  | blank _ => Directives.none
  | named _ name assignment _ =>
    demand (name.text.map Char.toLower) (assignment.bind fun a => a.argument.number?)

/--
What an element seems to mean to those who cut it at every comma: its number ends at the first comma, what
stands behind it is read as further elements, and a number may have a plus sign.
-/
def apparent : Directive → Directives
  | blank _ => Directives.none
  | named _ name assignment after =>
    let name := name.text.map Char.toLower
    match assignment with
    | none => demand name none
    | some a =>
      match splitOnce ',' a.argument.written with
      | none => demand name (word? a.argument.written)
      | some (first, rest) =>
        merge (demand name (word? (strip (· = '"') (trim ('"' :: first)))))
          (ofElements (splitOn ',' (rest ++ '"' :: after.text)))

/-- Whether the argument of an element has no comma in it and does not begin with a plus sign. -/
def IsPlain : Directive → Prop
  | blank _ => True
  | named _ _ assignment _ =>
    ∀ a ∈ assignment, ',' ∉ a.argument.written ∧ a.argument.written.head? ≠ some '+'

instance : DecidablePred IsPlain
  | blank _ => inferInstanceAs (Decidable True)
  | named _ _ assignment _ => inferInstanceAs (Decidable (∀ a ∈ assignment,
    ',' ∉ a.argument.written ∧ a.argument.written.head? ≠ some '+'))

end Directive

theorem isBlank_of_isNameChar {c : Char} (h : HeaderName.isNameChar c = true) : Text.isBlank c = false := by
  have hmarks : (HeaderName.marks.all fun c => !Text.isBlank c) = true := by decide
  have hblank : Text.isBlank c = true → c.toNat ≤ 32 ∨ 127 < c.toNat := by
    simp only [Text.isBlank, Text.blankRanges, List.any_cons, List.any_nil, Bool.or_false, Bool.or_eq_true,
      Bool.and_eq_true, decide_eq_true_eq]
    omega
  unfold HeaderName.isNameChar at h
  simp only [Bool.or_eq_true, Bool.and_eq_true, decide_eq_true_eq, List.contains_eq_mem] at h
  apply Bool.eq_false_iff.2
  intro hc
  obtain (⟨hlow, hhigh⟩ | hdigit) | hmem := h
  . have hge : 97 ≤ c.toNat := hlow
    have hle : c.toNat ≤ 122 := hhigh
    have hrange := hblank hc
    omega
  . have hrange := hblank hc
    rw [Text.isDigit_iff] at hdigit
    omega
  . have hmark := List.all_eq_true.1 hmarks c hmem
    rw [hc] at hmark
    contradiction

namespace Token

variable (t : Token)

theorem mem {c : Char} (h : c ∈ t.text) : HeaderName.isNameChar c.toLower = true :=
  List.all_eq_true.1 t.all c h

theorem not_mem {c : Char} (h : HeaderName.isNameChar c.toLower = false) : c ∉ t.text :=
  fun hmem => absurd (t.mem hmem) (Bool.eq_false_iff.1 h)

theorem equals_not_mem_lower : '=' ∉ t.text.map Char.toLower := by
  intro hmem
  obtain ⟨c, hc, heq⟩ := List.mem_map.1 hmem
  have hname := t.mem hc
  rw [heq] at hname
  contradiction

theorem isBlank_of_mem {c : Char} (h : c ∈ t.text) : Text.isBlank c = false := by
  rw [← Text.isBlank_toLower]
  exact isBlank_of_isNameChar (t.mem h)

theorem trim_lower : Text.trim (t.text.map Char.toLower) = t.text.map Char.toLower := by
  apply Text.strip_of_forall
  intro c hmem
  obtain ⟨d, hd, rfl⟩ := List.mem_map.1 hmem
  exact isBlank_of_isNameChar (t.mem hd)

end Token

namespace Directive

open Directives (merge together ofElement ofElements)

theorem ofElement_eq_demand (element : List Char) :
    ofElement element
      = demand (Directives.nameAndArgument ((trim element).map Char.toLower)).1
        ((Directives.nameAndArgument ((trim element).map Char.toLower)).2.bind word?) := rfl

theorem ofElement_of_blank (b : Blanks) : ofElement b.text = Directives.none := by
  have htrim : trim b.text = [] := by
    have happend := Text.strip_append b.isBlank (List.forall_mem_nil _) []
    rw [List.append_nil, List.append_nil] at happend
    exact happend
  rw [ofElement_eq_demand, htrim]
  rfl

theorem ofElement_of_name (before : Blanks) (name : Token) (after : Blanks) :
    ofElement (before.text ++ name.text ++ after.text) = demand (name.text.map Char.toLower) none := by
  have htrim : trim (before.text ++ name.text ++ after.text) = name.text := by
    rw [trim, Text.strip_append before.isBlank after.isBlank]
    exact Text.strip_of_forall fun c => name.isBlank_of_mem
  have hsplit : splitOnce '=' (name.text.map Char.toLower) = none :=
    Text.splitOnce_of_not_mem name.equals_not_mem_lower
  rw [ofElement_eq_demand, htrim, Directives.nameAndArgument, hsplit]
  rfl

/-- The argument stands behind the first equals sign, with blanks and then quotes around it that do not count. -/
theorem ofElement_of_assignment (before : Blanks) (name : Token) (between : Blanks) (rest : List Char) :
    ofElement (before.text ++ name.text ++ (between.text ++ '=' :: rest))
      = demand (name.text.map Char.toLower) (word? (strip (· = '"') (trim rest))) := by
  have htrim : trim (before.text ++ name.text ++ (between.text ++ '=' :: rest))
      = (name.text ++ between.text) ++ '=' :: Text.stripEnd Text.isBlank rest := by
    have hne : name.text ++ (between.text ++ '=' :: rest) ≠ [] :=
      List.append_ne_nil_of_left_ne_nil name.ne_nil _
    rw [trim, strip, List.append_assoc, Text.dropWhile_append_eq before.isBlank hne, ← List.append_assoc,
      Text.stripEnd_append_cons (by decide)]
    rw [List.head_append_of_ne_nil name.ne_nil]
    exact name.isBlank_of_mem (List.head_mem _)
  have hequals : '=' ∉ (name.text ++ between.text).map Char.toLower := by
    rw [List.map_append, List.mem_append, not_or]
    refine ⟨name.equals_not_mem_lower, ?_⟩
    intro hmem
    obtain ⟨c, hc, heq⟩ := List.mem_map.1 hmem
    obtain rfl := (Text.toLower_eq_iff (by decide)).1 heq
    exact between.not_mem (by decide) hc
  have hname : trim ((name.text ++ between.text).map Char.toLower) = name.text.map Char.toLower := by
    have hblank : ∀ c ∈ between.text, Text.isBlank c = true := between.isBlank
    have happend := Text.strip_append (List.forall_mem_nil _) hblank name.text
    rw [trim, Text.strip_map Text.isBlank_toLower, ← List.nil_append name.text, happend]
    rw [← Text.strip_map Text.isBlank_toLower]
    exact name.trim_lower
  have hargument : strip (· = '"') (trim ((Text.stripEnd Text.isBlank rest).map Char.toLower))
      = (strip (· = '"') (trim rest)).map Char.toLower := by
    have hquote : ∀ c : Char, decide (c.toLower = '"') = decide (c = '"') := by
      intro c
      rw [decide_eq_decide]
      exact Text.toLower_eq_iff (by decide)
    rw [trim, Text.strip_map Text.isBlank_toLower, Text.strip_stripEnd, Text.strip_map hquote, trim]
  rw [ofElement_eq_demand, htrim, List.map_append, List.map_cons]
  have hsplit : Directives.nameAndArgument ((name.text ++ between.text).map Char.toLower
        ++ '='.toLower :: (Text.stripEnd Text.isBlank rest).map Char.toLower)
      = (name.text.map Char.toLower, some ((strip (· = '"') (trim rest)).map Char.toLower)) := by
    rw [Directives.nameAndArgument, show '='.toLower = '=' by decide, Text.splitOnce_append_sep hequals]
    simp only [hname, hargument]
  rw [hsplit]
  exact congrArg (demand _) (Text.word?_map_toLower _)

end Directive

namespace Argument

theorem quote_escaped {cs : List QuotedChar} (h : '"' ∈ (quoted cs).written) : '\\' ∈ (quoted cs).written := by
  unfold written at h ⊢
  rw [List.mem_flatMap] at h ⊢
  obtain ⟨c, hmem, hquote⟩ := h
  refine ⟨c, hmem, ?_⟩
  cases c with
  | plain c not_quote _ => exact absurd (List.mem_singleton.1 hquote).symm not_quote
  | escaped c => exact List.mem_cons_self

/-- No number is found by taking away more quotes: they have escapes in front of them. -/
theorem word?_strip_written (cs : List QuotedChar) :
    word? (strip (· = '"') (quoted cs).written) = word? (quoted cs).written := by
  by_cases hquote : '"' ∈ (quoted cs).written
  . have hescape := quote_escaped hquote
    have hstripped := Text.mem_strip (p := (· = '"')) (by decide) hescape
    rw [Text.word?_eq_none hescape (by decide) (by decide),
      Text.word?_eq_none hstripped (by decide) (by decide)]
  . rw [Text.strip_of_forall]
    intro c hmem
    exact decide_eq_false fun heq => hquote (heq ▸ hmem)

/-- The number is found between the blanks, with or without quotes. -/
theorem word?_spelled (a : Argument) (before after : Blanks) :
    word? (strip (· = '"') (trim (before.text ++ a.spelled ++ after.text))) = word? a.written := by
  cases a with
  | token t =>
    have htrim : trim (before.text ++ t.text ++ after.text) = t.text := by
      rw [trim, Text.strip_append before.isBlank after.isBlank]
      exact Text.strip_of_forall fun c => t.isBlank_of_mem
    rw [spelled, written, htrim, Text.strip_of_forall]
    intro c hmem
    exact decide_eq_false fun heq => t.not_mem (by decide) (heq ▸ hmem)
  | quoted cs =>
    have htrim : trim (before.text ++ (['"'] ++ (quoted cs).written ++ ['"']) ++ after.text)
        = ['"'] ++ (quoted cs).written ++ ['"'] := by
      have hne : ['"'] ++ (quoted cs).written ++ ['"'] ≠ [] :=
        List.append_ne_nil_of_right_ne_nil _ (List.cons_ne_nil _ _)
      apply Text.trim_append before.isBlank after.isBlank hne
      . change Text.isBlank '"' = false
        decide
      . rw [List.getLast_append_singleton]
        decide
    have hquotes : ∀ c ∈ ['"'], decide (c = '"') = true := List.forall_mem_singleton.2 (by decide)
    have hspelled : (quoted cs).spelled = ['"'] ++ (quoted cs).written ++ ['"'] := rfl
    rw [hspelled, htrim, Text.strip_append hquotes hquotes, word?_strip_written]

theorem comma_not_mem_spelled {a : Argument} (h : ',' ∉ a.written) : ',' ∉ a.spelled := by
  cases a with
  | token t => exact h
  | quoted cs =>
    have hspelled : (quoted cs).spelled = ['"'] ++ (quoted cs).written ++ ['"'] := rfl
    simp [hspelled, h]

/-- Only what is in quotes has a comma in it. -/
theorem spelled_of_comma {a : Argument} (h : ',' ∈ a.written) : a.spelled = '"' :: a.written ++ ['"'] := by
  cases a with
  | token t => exact absurd h (t.not_mem (by decide))
  | quoted cs => rfl

theorem number?_eq_none {a : Argument} (h : ',' ∈ a.written) : a.number? = none := by
  unfold number?
  rw [Text.natural?_eq_none h (by decide)]
  rfl

theorem word?_written {a : Argument} (h : a.written.head? ≠ some '+') : word? a.written = a.number? :=
  Text.word?_of_head?_ne h

/-- What is a number is read as this number. -/
theorem word?_of_number? {a : Argument} {n : Nat} (h : a.number? = some n) : word? a.written = some n := by
  rw [word?_written, h]
  intro hhead
  obtain ⟨rest, hrest⟩ := List.head?_eq_some_iff.1 hhead
  have hplus : '+' ∈ a.written := by
    rw [hrest]
    exact List.mem_cons_self
  unfold number? at h
  rw [Text.natural?_eq_none hplus (by decide)] at h
  nomatch h

end Argument

namespace Directive

open Directives (CoveredBy merge together ofElement ofElements)

theorem ofElements_singleton (element : List Char) : ofElements [element] = ofElement element :=
  Directives.none_merge _

theorem comma_not_mem_lead (before : Blanks) (name : Token) (between : Blanks) {text : List Char}
    (h : ',' ∉ text) : ',' ∉ before.text ++ name.text ++ (between.text ++ '=' :: text) := by
  have hbefore := before.not_mem (c := ',') (by decide)
  have hname := name.not_mem (c := ',') (by decide)
  have hbetween := between.not_mem (c := ',') (by decide)
  simp [hbefore, hname, hbetween, h]

/-- The pieces of an element are read as it seems to be meant. -/
theorem ofElements_splitOn_spelled (d : Directive) : ofElements (splitOn ',' d.spelled) = d.apparent := by
  cases d with
  | blank b =>
    rw [spelled, Text.splitOn_of_not_mem (b.not_mem (by decide)), ofElements_singleton, ofElement_of_blank,
      apparent]
  | named before name assignment after =>
    cases assignment with
    | none =>
      have hcomma : ',' ∉ before.text ++ name.text ++ after.text := by
        have hbefore := before.not_mem (c := ',') (by decide)
        have hname := name.not_mem (c := ',') (by decide)
        have hafter := after.not_mem (c := ',') (by decide)
        simp [hbefore, hname, hafter]
      have hspelled : (named before name none after).spelled = before.text ++ name.text ++ after.text := rfl
      rw [hspelled, Text.splitOn_of_not_mem hcomma, ofElements_singleton, ofElement_of_name, apparent]
    | some a =>
      have hspelled : (named before name (some a) after).spelled
          = before.text ++ name.text
            ++ (a.before.text ++ '=' :: (a.after.text ++ a.argument.spelled ++ after.text)) := by
        simp [spelled, Assignment.spelled]
      rw [hspelled, apparent]
      split
      next hsplit =>
        have hwritten := Text.not_mem_of_splitOnce_eq_none hsplit
        have hcomma : ',' ∉ a.after.text ++ a.argument.spelled ++ after.text := by
          have hbefore := a.after.not_mem (c := ',') (by decide)
          have hafter := after.not_mem (c := ',') (by decide)
          simp [hbefore, hafter, Argument.comma_not_mem_spelled hwritten]
        rw [Text.splitOn_of_not_mem (comma_not_mem_lead before name a.before hcomma), ofElements_singleton,
          ofElement_of_assignment, a.argument.word?_spelled]
      next first rest hsplit =>
        -- The first piece ends in the argument, with the blanks and the quote in front of it.
        obtain ⟨hwritten, hfirst⟩ := Text.eq_append_of_splitOnce hsplit
        have hcomma : ',' ∉ a.after.text ++ '"' :: first := by
          have hbefore := a.after.not_mem (c := ',') (by decide)
          simp [hbefore, hfirst]
        have hpieces : before.text ++ name.text
              ++ (a.before.text ++ '=' :: (a.after.text ++ a.argument.spelled ++ after.text))
            = (before.text ++ name.text ++ (a.before.text ++ '=' :: (a.after.text ++ '"' :: first)))
              ++ ',' :: (rest ++ '"' :: after.text) := by
          rw [Argument.spelled_of_comma (by simp [hwritten]), hwritten]
          simp
        have htrim : trim (a.after.text ++ '"' :: first) = trim ('"' :: first) := by
          have happend := Text.strip_append a.after.isBlank (List.forall_mem_nil _) ('"' :: first)
          rw [List.append_nil] at happend
          exact happend
        rw [hpieces, Text.splitOn_append_sep,
          Text.splitOn_of_not_mem (comma_not_mem_lead before name a.before hcomma),
          Directives.ofElements_append, ofElements_singleton, ofElement_of_assignment, htrim]

theorem demand_none_coveredBy (name : List Char) (number : Option Nat) :
    (demand name none).CoveredBy (demand name number) := by
  have hnone : ∀ d : Directives, CoveredBy ⟨none, none, false⟩ d := Directives.none_coveredBy
  unfold demand
  split
  next => exact hnone _
  next =>
    split
    next => exact hnone _
    next => exact Directives.coveredBy_refl _

/-- What is meant is not lost when an element is cut. -/
theorem meaning_coveredBy_apparent (d : Directive) : d.meaning.CoveredBy d.apparent := by
  cases d with
  | blank b => exact Directives.coveredBy_refl _
  | named before name assignment after =>
    cases assignment with
    | none => exact Directives.coveredBy_refl _
    | some a =>
      rw [meaning, apparent, Option.bind_some]
      split
      next =>
        cases hnumber : a.argument.number? with
        | none => exact demand_none_coveredBy _ _
        | some n =>
          rw [Argument.word?_of_number? hnumber]
          exact Directives.coveredBy_refl _
      next first rest hsplit =>
        have hcomma : ',' ∈ a.argument.written := by simp [(Text.eq_append_of_splitOnce hsplit).1]
        rw [Argument.number?_eq_none hcomma]
        exact (demand_none_coveredBy _ _).trans (Directives.coveredBy_merge_left _ _)

theorem apparent_eq_meaning {d : Directive} (h : d.IsPlain) : d.apparent = d.meaning := by
  cases d with
  | blank b => rfl
  | named before name assignment after =>
    cases assignment with
    | none => rfl
    | some a =>
      obtain ⟨hcomma, hplus⟩ := h a rfl
      rw [meaning, apparent, Text.splitOnce_of_not_mem hcomma, Option.bind_some]
      simp only [Argument.word?_written hplus]

def spelledAll (ds : List Directive) : List Char :=
  List.intercalate [','] (ds.map spelled)

theorem ofElements_splitOn_spelledAll (ds : List Directive) :
    ofElements (splitOn ',' (spelledAll ds)) = together (ds.map apparent) := by
  by_cases hnil : ds = []
  . rw [hnil]
    rfl
  . have hne : ds.map spelled ≠ [] := fun hmap => hnil (List.map_eq_nil_iff.1 hmap)
    rw [spelledAll, Text.splitOn_intercalate_eq_flatMap hne, Directives.ofElements_flatMap, List.map_map]
    congr 1
    exact List.map_congr_left fun d _ => d.ofElements_splitOn_spelled

end Directive

namespace Directives

open Directive (apparent meaning spelledAll)

/--
The demands of a request whose `Cache-Control` values are lists of directives are what these seem to mean when
they are cut at every comma. Nothing that they mean is lost. More is demanded only if some directive seems
to mean what they do not mean together, and this takes an argument with a comma in it or with a plus sign in
front.
-/
theorem ofHeaders_eq_together_apparent {h : Headers} {lists : List (List Directive)}
    (hspelled : h.texts "cache-control" = lists.map spelledAll) :
    ofHeaders h = together (lists.flatten.map apparent)
      ∧ (together (lists.flatten.map meaning)).CoveredBy (ofHeaders h)
      ∧ (ofHeaders h = together (lists.flatten.map meaning)
        ↔ ∀ d ∈ lists.flatten, d.apparent.CoveredBy (together (lists.flatten.map meaning)))
      ∧ ((∀ d ∈ lists.flatten, d.IsPlain) → ofHeaders h = together (lists.flatten.map meaning)) := by
  have happarent : ofHeaders h = together (lists.flatten.map apparent) := by
    have hvalues : ofHeaders h = ofElements ((h.texts "cache-control").flatMap (splitOn ',')) := rfl
    rw [hvalues, hspelled, List.flatMap_map, ofElements_flatMap, List.map_flatten, together_flatten,
      List.map_map]
    congr 1
    exact List.map_congr_left fun ds _ => Directive.ofElements_splitOn_spelledAll ds
  have hmeant : (together (lists.flatten.map meaning)).CoveredBy (ofHeaders h) := by
    rw [happarent, together_coveredBy_iff, List.forall_mem_map]
    intro d hmem
    exact d.meaning_coveredBy_apparent.trans (coveredBy_together (List.mem_map_of_mem hmem))
  refine ⟨happarent, hmeant, ?_, ?_⟩
  . constructor
    . intro heq d hmem
      rw [← heq, happarent]
      exact coveredBy_together (List.mem_map_of_mem hmem)
    . intro hall
      refine CoveredBy.antisymm ?_ hmeant
      rw [happarent, together_coveredBy_iff, List.forall_mem_map]
      exact hall
  . intro hplain
    rw [happarent]
    congr 1
    exact List.map_congr_left fun d hmem => Directive.apparent_eq_meaning (hplain d hmem)

def demanding (text : String) : Headers :=
  (HeaderValue.ofString? text).toList.map fun value => (.cacheControl, value)

def quotedChar (c : Char) : QuotedChar :=
  if hquote : c = '"' then .escaped c
  else if hescape : c = '\\' then .escaped c
  else .plain c hquote hescape

def unknown (argument : Argument) : Directive :=
  .named .none ⟨['x'], by decide, by decide⟩ (some ⟨.none, .none, argument⟩) .none

/-- The directive `Max-Age` with an argument, and some blanks in front of it. -/
def oldest (before : Blanks) (argument : Argument) : Directive :=
  .named before ⟨"Max-Age".toList, by decide, by decide⟩ (some ⟨.none, .none, argument⟩) .none

def plainList : List Directive :=
  [unknown (.token ⟨['y'], by decide, by decide⟩), oldest .space (.quoted [quotedChar '5'])]

theorem ofHeaders_plainList :
    (demanding "x=y, Max-Age=\"5\"").texts "cache-control" = [plainList].map spelledAll
      ∧ (∀ d ∈ [plainList].flatten, d.IsPlain)
      ∧ ofHeaders (demanding "x=y, Max-Age=\"5\"") = { none with maxAge := some 5 } := by
  have htexts : (demanding "x=y, Max-Age=\"5\"").texts "cache-control" = [plainList].map spelledAll := by
    decide +kernel
  have hplain : ∀ d ∈ [plainList].flatten, d.IsPlain := by decide
  obtain ⟨-, -, -, hmeant⟩ := ofHeaders_eq_together_apparent htexts
  refine ⟨htexts, hplain, ?_⟩
  rw [hmeant hplain]
  decide

def hiddenList : List Directive :=
  [unknown (.quoted ("a,no-store,b".toList.map quotedChar))]

def signedList : List Directive :=
  [oldest .none (.token ⟨['+', '5'], by decide, by decide⟩)]

/-- What is in quotes is heeded, and a number with a sign is. Neither list means anything. -/
theorem ofHeaders_hiddenList :
    (demanding "x=\"a,no-store,b\"").texts "cache-control" = [hiddenList].map spelledAll
      ∧ together ([hiddenList].flatten.map meaning) = none
      ∧ ofHeaders (demanding "x=\"a,no-store,b\"") = { none with noStore := true }
      ∧ (demanding "Max-Age=+5").texts "cache-control" = [signedList].map spelledAll
      ∧ together ([signedList].flatten.map meaning) = none
      ∧ ofHeaders (demanding "Max-Age=+5") = { none with maxAge := some 5 } := by
  decide +kernel

end Directives

end ResponseCache
