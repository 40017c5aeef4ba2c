import ResponseCache.Json.Printer
import ResponseCache.Proofs.Text.Pieces

/-!
This module contains the proof that the text of a value is read as the value: within a longer text the reading
ends where the text of the value does, and the bound on its steps is never met.
-/

namespace ResponseCache.Json

open Text (decimal isDigit digitValue ofDigits)

/-- A value that is written in full and read back: there is no number in it but natural ones of 64 bits. -/
inductive Writable : Json → Prop
  | null : Writable .null
  | bool (b : Bool) : Writable (.bool b)
  | nat {n : Nat} (h : n < UInt64.size) : Writable (.nat n)
  | string (s : String) : Writable (.string s)
  | list {values : List Json} (h : ∀ v ∈ values, Writable v) : Writable (.list values)
  | record {fields : List (String × Json)} (h : ∀ f ∈ fields, Writable f.2) : Writable (.record fields)

/-- Whether a text ends or goes on with a mark that may follow a value. -/
def MarkNext (rest : List Char) : Prop :=
  ∀ c ∈ rest.head?, c ∈ [',', ']', '\x7d']

theorem MarkNext.props {rest : List Char} (h : MarkNext rest) {c : Char} (hc : c ∈ rest.head?) :
    isDigit c = false ∧ isSpace c = false ∧ isExponentMark c = false ∧ c ≠ '.' := by
  have hmem := h c hc
  simp only [List.mem_cons, List.not_mem_nil, or_false] at hmem
  obtain rfl | rfl | rfl := hmem <;> exact ⟨rfl, rfl, rfl, by decide⟩

section Strings

variable {c : Char} {rest : List Char}

theorem simpleEscape?_of_escapeLetter? {letter : Char} (h : escapeLetter? c = some letter) :
    simpleEscape? letter = some c ∧ letter ≠ 'u' := by
  unfold escapeLetter? at h
  split at h <;> cases h <;> decide

theorem ne_of_escapeLetter?_eq_none (h : escapeLetter? c = none) : c ≠ '"' ∧ c ≠ '\\' := by
  constructor <;> rintro rfl <;> cases h

def unit16 (c : Char) : Unit16 :=
  if (escapeLetter? c).isNone ∧ c.toNat < 0x20 then .escaped c.toNat else .char c

theorem hexValue?_hexDigit {n : Nat} (h : n < 16) : Text.hexValue? (Bytes.hexDigit n) = some n := by
  have hall : ∀ n < 16, Text.hexValue? (Bytes.hexDigit n) = some n := by decide
  exact hall n h

theorem hex4?_control (h : c.toNat < 0x20) :
    hex4? ('0' :: '0' :: Bytes.hexDigit (c.toNat / 16) :: Bytes.hexDigit (c.toNat % 16) :: rest)
      = some (c.toNat, rest) := by
  have hhigh : Text.hexValue? (Bytes.hexDigit (c.toNat / 16)) = some (c.toNat / 16) :=
    hexValue?_hexDigit (by omega)
  have hlow : Text.hexValue? (Bytes.hexDigit (c.toNat % 16)) = some (c.toNat % 16) :=
    hexValue?_hexDigit (by omega)
  have hzero : Text.hexValue? '0' = some 0 := rfl
  simp [hex4?, hhigh, hlow, hzero, Nat.div_add_mod]

/-- One step of reading a string: a character is read as its unit. -/
theorem stringUnits?_escape (n : Nat) (c : Char) (rest : List Char) :
    stringUnits? (n + 1) (escape c ++ rest)
      = (stringUnits? n rest).map fun (units, rest) => (unit16 c :: units, rest) := by
  unfold escape unit16
  cases hletter : escapeLetter? c with
  | some letter =>
    obtain ⟨hsimple, hne⟩ := simpleEscape?_of_escapeLetter? hletter
    simp only [List.cons_append, List.nil_append, Option.isNone_some, Bool.false_eq_true, false_and, if_false]
    rw [stringUnits?, if_neg (by decide), if_pos rfl, hsimple, Option.map_eq_bind]
    . rfl
    . exact hne
  | none =>
    obtain ⟨hquote, hslash⟩ := ne_of_escapeLetter?_eq_none hletter
    by_cases hcontrol : c.toNat < 0x20
    . simp only [hcontrol, if_true, List.cons_append, List.nil_append, Option.isNone_none, true_and]
      rw [stringUnits?, if_neg (by decide), if_pos rfl, hex4?_control hcontrol, Option.map_eq_bind]
      rfl
    . simp only [hcontrol, if_false, List.cons_append, List.nil_append, and_false]
      rw [stringUnits?.eq_def]
      simp only [if_neg hquote, if_neg hslash, if_neg hcontrol, Option.map_eq_bind]
      rfl

/-- The units of a text up to its closing quote are those of its characters. -/
theorem stringUnits?_flatMap_escape (cs : List Char) {n : Nat} (hn : cs.length < n) :
    stringUnits? n (cs.flatMap escape ++ '"' :: rest) = some (cs.map unit16, rest) := by
  induction cs generalizing n with
  | nil =>
    obtain ⟨m, rfl⟩ := Nat.exists_eq_add_of_lt hn
    rfl
  | cons c cs ih =>
    cases n with
    | zero => cases hn
    | succ n =>
      rw [List.flatMap_cons, List.append_assoc, stringUnits?_escape, ih (Nat.lt_of_succ_lt_succ hn)]
      rfl

theorem joinUnits?_map_unit16 (cs : List Char) : joinUnits? (cs.map unit16) = some cs := by
  induction cs with
  | nil => rfl
  | cons c cs ih =>
    rw [List.map_cons, unit16]
    split
    next hcontrol =>
      have hhigh : isHighSurrogate c.toNat = false := by
        simp only [isHighSurrogate, Bool.and_eq_false_iff, decide_eq_false_iff_not]
        omega
      have hlow : isLowSurrogate c.toNat = false := by
        simp only [isLowSurrogate, Bool.and_eq_false_iff, decide_eq_false_iff_not]
        omega
      rw [joinUnits?.eq_def]
      simp [hhigh, hlow, ih]
    next =>
      rw [joinUnits?, ih]
      rfl

theorem escape_ne_nil (c : Char) : escape c ≠ [] := by
  unfold escape
  split
  next => exact List.cons_ne_nil _ _
  next => split <;> exact List.cons_ne_nil _ _

theorem length_le_flatMap_escape (cs : List Char) : cs.length ≤ (cs.flatMap escape).length := by
  induction cs with
  | nil => exact Nat.le_refl 0
  | cons c cs ih =>
    have hpos := List.length_pos_iff.2 (escape_ne_nil c)
    rw [List.flatMap_cons, List.length_append, List.length_cons]
    omega

/-- A string is read back after its opening quote. -/
theorem string?_escaped (s : String) (rest : List Char) :
    string? (s.toList.flatMap escape ++ '"' :: rest) = some (some s, rest) := by
  have hlength : s.toList.length < (s.toList.flatMap escape ++ '"' :: rest).length := by
    have hle := length_le_flatMap_escape s.toList
    rw [List.length_append, List.length_cons]
    omega
  unfold string?
  rw [stringUnits?_flatMap_escape _ hlength]
  simp [joinUnits?_map_unit16]

end Strings

theorem skipSpace_cons (c : Char) (h : isSpace c = false) (cs : List Char) : skipSpace (c :: cs) = c :: cs :=
  List.dropWhile_cons_of_neg (Bool.eq_false_iff.1 h)

section Numbers

variable {n : Nat} {rest : List Char}

/-- The numeral of a number other than zero does not begin with a zero. -/
theorem head?_decimal_ne (hn : 0 < n) : (decimal n).head? ≠ some '0' := by
  induction n using Nat.strongRecOn with
  | ind n ih =>
    unfold decimal
    cases Nat.lt_or_ge n 10 with
    | inl hlt =>
      have hdigits : ∀ m < 10, 0 < m → Nat.digitChar m ≠ '0' := by decide
      rw [Nat.toDigits_of_lt_base hlt, List.head?_cons]
      exact fun heq => hdigits n hlt hn (Option.some.inj heq)
    | inr hge =>
      rw [Nat.toDigits_of_base_le (by decide) hge, List.head?_append, Option.or_of_isSome
        (List.isSome_head?.2 Nat.toDigits_ne_nil)]
      exact ih (n / 10) (Nat.div_lt_self hn (by decide)) (Nat.div_pos hge (by decide))

theorem whole?_decimal (hrest : ∀ c ∈ rest.head?, isDigit c = false) :
    whole? (decimal n ++ rest) = some (decimal n, rest) := by
  have hdigits : digits1? (decimal n ++ rest) = some (decimal n, rest) := by
    unfold digits1?
    rw [Text.span_append (fun c => Text.isDigit_of_mem_decimal) hrest]
    split
    next heq => exact absurd (congrArg Prod.fst heq) (Text.decimal_ne_nil n)
    next heq => rw [heq]
  have hzero : (decimal n).head? = some '0' → n = 0 := by
    intro hhead
    by_contra hne
    exact head?_decimal_ne (Nat.pos_of_ne_zero hne) hhead
  unfold whole?
  rw [hdigits]
  split
  next heq => exact heq.symm
  next hne heq =>
    have hdecimal : decimal n = '0' :: _ := congrArg Prod.fst (Option.some.inj heq)
    rw [hzero (hdecimal ▸ rfl)] at hdecimal
    exact absurd (List.cons.inj hdecimal).2.symm hne
  next => rfl

theorem le_foldl_digits (cs : List Char) (n : Nat) : n ≤ cs.foldl (fun n c => 10 * n + digitValue c) n := by
  induction cs generalizing n with
  | nil => exact Nat.le_refl n
  | cons c cs ih => exact Nat.le_trans (by omega) (ih (10 * n + digitValue c))

/-- Digits are taken up as long as the number they form fits. -/
theorem ofWhole_go_eq (cs : List Char) (h : cs.foldl (fun n c => 10 * n + digitValue c) n < UInt64.size) :
    Significand.ofWhole.go n cs = ⟨cs.foldl (fun n c => 10 * n + digitValue c) n, 0⟩ := by
  induction cs generalizing n with
  | nil => rfl
  | cons c cs ih =>
    rw [Significand.ofWhole.go, if_pos (Nat.lt_of_le_of_lt (le_foldl_digits cs _) h)]
    exact ih h

theorem ofWhole_decimal (hn : n < UInt64.size) : Significand.ofWhole (decimal n) = ⟨n, 0⟩ := by
  have heq : (decimal n).foldl (fun n c => 10 * n + digitValue c) 0 = n := Text.ofDigits_decimal n
  have hgo := ofWhole_go_eq (decimal n) (heq.symm ▸ hn)
  rw [heq] at hgo
  exact hgo

theorem toList_text_natural (n : Nat) : (Number.text (.natural n)).toList = decimal n := by
  unfold Number.text
  simp [decimal]

/-- A text that begins with a numeral begins with a digit. -/
theorem exists_cons_of_decimal (n : Nat) (rest : List Char) :
    ∃ c cs, decimal n ++ rest = c :: cs ∧ isDigit c = true := by
  cases hdecimal : decimal n with
  | nil => exact absurd hdecimal (Text.decimal_ne_nil n)
  | cons c cs => exact ⟨c, cs ++ rest, rfl, Text.isDigit_of_mem_decimal (hdecimal ▸ List.mem_cons_self)⟩

/-- A natural number is read up to the mark after it. -/
theorem numeral?_decimal (hrest : MarkNext rest) :
    numeral? (decimal n ++ rest) = some (⟨false, decimal n, none, none⟩, rest) := by
  have hwhole : whole? (decimal n ++ rest) = some (decimal n, rest) :=
    whole?_decimal fun c hc => (hrest.props hc).1
  have hpart : part? rest = some (none, rest) := by
    cases rest with
    | nil => rfl
    | cons c rest =>
      obtain ⟨-, -, -, hpoint⟩ := hrest.props rfl
      rw [part?]
      exact fun rest heq => hpoint (List.cons.inj heq).1
  have hexponent : exponent? rest = some (none, rest) := by
    cases rest with
    | nil => rfl
    | cons c rest =>
      obtain ⟨-, -, hmark, -⟩ := hrest.props rfl
      simp [exponent?, hmark]
  obtain ⟨c, cs, hcons, hdigit⟩ := exists_cons_of_decimal n rest
  unfold numeral?
  split
  next heq =>
    split at heq
    next hminus =>
      obtain ⟨rfl, -⟩ := List.cons.inj (hcons.symm.trans hminus)
      contradiction
    next =>
      cases heq
      simp [hwhole, hpart, hexponent]

theorem value?_decimal (hn : n < UInt64.size) :
    Numeral.value? ⟨false, decimal n, none, none⟩ = some (.natural n) := by
  simp [Numeral.value?, ofWhole_decimal hn]

end Numbers

section Values

variable {v : Json} {values : List Json} {fields : List (Option String × Json)} {n : Nat} {rest : List Char}

theorem readValue_null : readValue (n + 1) (['n', 'u', 'l', 'l'] ++ rest) = (.null, some rest) :=
  rfl

theorem readValue_true : readValue (n + 1) (['t', 'r', 'u', 'e'] ++ rest) = (.bool true, some rest) :=
  rfl

theorem readValue_false : readValue (n + 1) (['f', 'a', 'l', 's', 'e'] ++ rest) = (.bool false, some rest) :=
  rfl

theorem quote_append (s : String) (rest : List Char) :
    quote s ++ rest = '"' :: (s.toList.flatMap escape ++ '"' :: rest) := by
  simp [quote]

theorem readValue_quote (s : String) : readValue (n + 1) (quote s ++ rest) = (.string s, some rest) := by
  rw [quote_append, readValue, skipSpace_cons '"' rfl]
  simp only [string?_escaped]

theorem isSpace_of_isDigit {c : Char} (h : isDigit c = true) : isSpace c = false := by
  apply Bool.eq_false_iff.2
  intro hspace
  simp only [isSpace, Bool.or_eq_true, decide_eq_true_eq] at hspace
  obtain ((rfl | rfl) | rfl) | rfl := hspace <;> contradiction

theorem readValue_decimal {m : Nat} (hm : m < UInt64.size) (hrest : MarkNext rest) :
    readValue (n + 1) (decimal m ++ rest) = (.nat m, some rest) := by
  obtain ⟨c, cs, hcons, hdigit⟩ := exists_cons_of_decimal m rest
  have hskip : skipSpace (decimal m ++ rest) = c :: cs := by
    rw [hcons, skipSpace_cons c (isSpace_of_isDigit hdigit)]
  have hnumeral := numeral?_decimal (n := m) hrest
  rw [hcons] at hnumeral
  rw [readValue, hskip]
  split
  case h_8 =>
    simp only [hnumeral, value?_decimal hm]
    rfl
  all_goals
    next heq => cases heq <;> contradiction

/-- A value is read from its text with two steps for each of its characters. -/
def Reads (v : Json) : Prop :=
  ∀ {n : Nat} {rest : List Char}, 2 * (print v).length ≤ n → MarkNext rest →
    readValue n (print v ++ rest) = (v, some rest)

/-- The text of a value begins with a character that is no space and does not end the array around it. -/
theorem Writable.exists_cons (hv : Writable v) :
    ∃ c cs, print v = c :: cs ∧ isSpace c = false ∧ c ≠ ']' := by
  cases hv with
  | null => exact ⟨'n', _, rfl, rfl, by decide⟩
  | bool b =>
    cases b with
    | false => exact ⟨'f', _, rfl, rfl, by decide⟩
    | true => exact ⟨'t', _, rfl, rfl, by decide⟩
  | @nat m =>
    obtain ⟨c, cs, hcons, hdigit⟩ := exists_cons_of_decimal m []
    rw [List.append_nil] at hcons
    refine ⟨c, cs, ?_, isSpace_of_isDigit hdigit, ?_⟩
    . rw [Json.nat, print, toList_text_natural, hcons]
    . rintro rfl
      contradiction
  | string s => exact ⟨'"', _, by rw [print]; rfl, rfl, by decide⟩
  | list h => exact ⟨'[', _, by rw [Json.list, print]; rfl, rfl, by decide⟩
  | record h => exact ⟨'\x7b', _, by rw [Json.record, print]; rfl, rfl, by decide⟩

section Items

variable {cs text : List Char}

theorem readItems_last (h : readValue n cs = (v, some (']' :: rest))) :
    readItems (n + 1) cs = ([v], some rest) := by
  rw [readItems, h]
  rfl

theorem readItems_more (h : readValue n cs = (v, some (',' :: text)))
    (hitems : readItems n text = (values, some rest)) : readItems (n + 1) cs = (v :: values, some rest) := by
  rw [readItems, h]
  simp only [skipSpace_cons ',' rfl, hitems]

theorem readFields_last {name : String} (h : readValue n text = (v, some ('\x7d' :: rest))) :
    readFields (n + 1) (quote name ++ ':' :: text) = ([(some name, v)], some rest) := by
  rw [quote_append, readFields, skipSpace_cons '"' rfl]
  simp only [string?_escaped, skipSpace_cons ':' rfl, h, skipSpace_cons '\x7d' rfl]

theorem readFields_more {name : String} (h : readValue n cs = (v, some (',' :: text)))
    (hfields : readFields n text = (fields, some rest)) :
    readFields (n + 1) (quote name ++ ':' :: cs) = ((some name, v) :: fields, some rest) := by
  rw [quote_append, readFields, skipSpace_cons '"' rfl]
  simp only [string?_escaped, skipSpace_cons ':' rfl, h, skipSpace_cons ',' rfl, hfields]

end Items

theorem markNext_cons {c : Char} (h : c ∈ [',', ']', '\x7d']) : MarkNext (c :: rest) := by
  intro a ha
  cases ha
  exact h

/-- The items of an array are read from their text, with one step more than two for each character. -/
theorem readItems_printItems (hne : values ≠ []) (hvalues : ∀ v ∈ values, Reads v)
    (hn : 2 * (printItems values).length + 1 ≤ n) :
    readItems n (printItems values ++ ']' :: rest) = (values, some rest) := by
  induction values generalizing n with
  | nil => exact absurd rfl hne
  | cons v values ih =>
    obtain ⟨hv, hvalues⟩ := List.forall_mem_cons.1 hvalues
    cases n with
    | zero => cases hn
    | succ n =>
      rw [printItems, List.length_append] at hn
      rw [printItems]
      cases values with
      | nil =>
        rw [List.isEmpty_nil, if_pos rfl, List.append_nil]
        exact readItems_last (hv (by omega) (markNext_cons (by decide)))
      | cons w values =>
        rw [List.isEmpty_cons, if_neg Bool.false_ne_true, List.length_cons] at hn
        rw [List.isEmpty_cons, if_neg Bool.false_ne_true, List.append_assoc, List.cons_append]
        have hitems := ih (List.cons_ne_nil w values) hvalues (n := n) (by omega)
        exact readItems_more (hv (by omega) (markNext_cons (by decide))) hitems

/-- The fields of an object are read from their text within the same bound. -/
theorem readFields_printFields (hne : fields ≠ []) (hfields : ∀ f ∈ fields, f.1.isSome ∧ Reads f.2)
    (hn : 2 * (printFields fields).length + 1 ≤ n) :
    readFields n (printFields fields ++ '\x7d' :: rest) = (fields, some rest) := by
  induction fields generalizing n with
  | nil => exact absurd rfl hne
  | cons f fields ih =>
    obtain ⟨name, v⟩ := f
    obtain ⟨hfield, hothers⟩ := List.forall_mem_cons.1 hfields
    obtain ⟨name, rfl⟩ := Option.isSome_iff_exists.1 hfield.1
    have hv : Reads v := hfield.2
    cases n with
    | zero => cases hn
    | succ n =>
      rw [printFields, List.length_append, List.length_append, List.length_cons] at hn
      rw [printFields]
      cases fields with
      | nil =>
        rw [List.isEmpty_nil, if_pos rfl, List.append_nil, List.append_assoc, List.cons_append]
        exact readFields_last (hv (by omega) (markNext_cons (by decide)))
      | cons g fields =>
        rw [List.isEmpty_cons, if_neg Bool.false_ne_true, List.length_cons] at hn
        rw [List.isEmpty_cons, if_neg Bool.false_ne_true, List.append_assoc, List.append_assoc,
          List.cons_append, List.cons_append]
        have hrest := ih (List.cons_ne_nil g fields) hothers (n := n) (by omega)
        exact readFields_more (hv (by omega) (markNext_cons (by decide))) hrest

/-- An array is read from its text if its items are. -/
theorem readValue_list (hvalues : ∀ v ∈ values, Writable v ∧ Reads v)
    (hn : 2 * (print (.list values)).length ≤ n + 1) :
    readValue (n + 1) (print (.list values) ++ rest) = (.list values, some rest) := by
  have htext : print (.list values) ++ rest = '[' :: (printItems values ++ ']' :: rest) := by
    simp [Json.list, print]
  simp only [Json.list, print, if_true, List.length_append, List.length_cons, List.length_nil] at hn
  rw [htext, readValue, skipSpace_cons '[' rfl]
  cases values with
  | nil => rfl
  | cons v values =>
    obtain ⟨c, cs, hcons, hspace, hne⟩ := (hvalues v List.mem_cons_self).1.exists_cons
    obtain ⟨tail, hstart⟩ : ∃ tail, printItems (v :: values) ++ ']' :: rest = c :: tail := by
      rw [printItems, hcons]
      exact ⟨_, rfl⟩
    have hitems : readItems n (c :: tail) = (v :: values, some rest) := by
      rw [← hstart]
      exact readItems_printItems (List.cons_ne_nil v values) (fun v hv => (hvalues v hv).2) (by omega)
    simp only [hstart, skipSpace_cons c hspace]
    split
    next heq =>
      cases heq
      contradiction
    next => simp only [hitems, Option.isSome_some, Json.list]

/-- An object is read from its text if the values of its fields are. -/
theorem readValue_object (hfields : ∀ f ∈ fields, f.1.isSome ∧ Reads f.2)
    (hn : 2 * (print (.object fields true)).length ≤ n + 1) :
    readValue (n + 1) (print (.object fields true) ++ rest) = (.object fields true, some rest) := by
  have htext : print (.object fields true) ++ rest = '\x7b' :: (printFields fields ++ '\x7d' :: rest) := by
    simp [print]
  simp only [print, if_true, List.length_append, List.length_cons, List.length_nil] at hn
  rw [htext, readValue, skipSpace_cons '\x7b' rfl]
  cases fields with
  | nil => rfl
  | cons f fields =>
    obtain ⟨tail, hstart⟩ : ∃ tail, printFields (f :: fields) ++ '\x7d' :: rest = '"' :: tail := by
      rw [printFields, quote]
      exact ⟨_, rfl⟩
    have hread : readFields n ('"' :: tail) = (f :: fields, some rest) := by
      rw [← hstart]
      exact readFields_printFields (List.cons_ne_nil f fields) hfields (by omega)
    simp only [hstart, skipSpace_cons '"' rfl]
    split
    next heq => cases heq
    next => simp only [hread, Option.isSome_some]

/-- The bound on the steps is never zero, since no value is written as nothing. -/
theorem Writable.reads_of_succ (hv : Writable v)
    (h : ∀ {n rest}, 2 * (print v).length ≤ n + 1 → MarkNext rest →
      readValue (n + 1) (print v ++ rest) = (v, some rest)) :
    Reads v := by
  intro n rest hn
  obtain ⟨c, cs, hcons, -⟩ := hv.exists_cons
  cases n with
  | zero =>
    rw [hcons] at hn
    cases hn
  | succ n => exact h hn

theorem Writable.reads (hv : Writable v) : Reads v := by
  induction hv with
  | null => exact Writable.null.reads_of_succ fun _ _ => readValue_null
  | bool b =>
    apply (Writable.bool b).reads_of_succ
    intro n rest _ _
    cases b with
    | false => exact readValue_false
    | true => exact readValue_true
  | nat h =>
    apply (Writable.nat h).reads_of_succ
    intro n rest _ hrest
    rw [Json.nat, print, toList_text_natural]
    exact readValue_decimal h hrest
  | string s =>
    apply (Writable.string s).reads_of_succ
    intro n rest _ _
    rw [print]
    exact readValue_quote s
  | list h ih =>
    apply (Writable.list h).reads_of_succ
    intro n rest hn _
    exact readValue_list (fun v hv => ⟨h v hv, ih v hv⟩) hn
  | record h ih =>
    apply (Writable.record h).reads_of_succ
    intro n rest hn _
    refine readValue_object ?_ hn
    intro f hf
    obtain ⟨field, hmem, rfl⟩ := List.mem_map.1 hf
    exact ⟨rfl, ih field hmem⟩

end Values

/-- The document of the text of a value holds the value, and nothing follows it. -/
theorem Document.ofText_print {v : Json} (hv : Writable v) :
    Document.ofText (String.ofList (print v)) = ⟨v, .text, true⟩ := by
  have hread : readValue (2 * (print v).length + 2) (print v ++ []) = (v, some []) :=
    hv.reads (by omega) fun c hc => nomatch hc
  rw [List.append_nil] at hread
  simp only [Document.ofText, String.toList_ofList, hread]
  rfl

example : print (.list [.nat 200, .null, .string "a\n"]) = "[200,null,\"a\\n\"]".toList := by
  decide

end ResponseCache.Json
