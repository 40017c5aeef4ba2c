import ResponseCache.Proofs.Key.Component

/-!
This module contains the condition under which requests with different bases get the same key. The
base of a key tells neither its length nor its end, so a base can go on with what is a component in
another key, up to a place inside the text of a header field that the client chose.
-/

namespace ResponseCache

open Text (decimal not_mem_decimal)

namespace KeyExtractor

theorem mem_insertName {name n : String} {names : List String} :
    n ∈ insertName name names ↔ n = name ∨ n ∈ names := by
  induction names with
  | nil => simp [insertName]
  | cons head names ih =>
    unfold insertName
    split
    . simp
    . split
      . next heq => simp [heq]
      . simp only [List.mem_cons, ih]
        constructor
        . rintro (h | h | h) <;> simp [h]
        . rintro (h | h | h) <;> simp [h]

theorem mem_withHeaders {k : KeyExtractor} {names : List String} {n : String} :
    n ∈ (k.withHeaders names).names ↔ ∃ name ∈ names, lowerCase name = n := by
  unfold withHeaders
  dsimp only
  induction names with
  | nil => simp
  | cons name names ih =>
    rw [List.map_cons, List.foldr_cons, mem_insertName, ih]
    simp [eq_comm]

theorem not_mem_of_isName {cs : List Char} {c : Char} (hc : HeaderName.isNameChar c = false)
    (h : HeaderName.isName cs = true) : c ∉ cs := by
  intro hmem
  unfold HeaderName.isName at h
  rw [Bool.and_eq_true, List.all_eq_true] at h
  have hchar := h.2 c hmem
  rw [hc] at hchar
  contradiction

theorem isName_of_mem_withHeaders {k : KeyExtractor} {names : List String}
    (hvalid : ∀ name ∈ names, (HeaderName.ofString? name).isSome = true) :
    ∀ n ∈ (k.withHeaders names).names, HeaderName.isName n.toList = true := by
  intro n hn
  rw [mem_withHeaders] at hn
  obtain ⟨name, hmem, rfl⟩ := hn
  have hname := hvalid name hmem
  unfold HeaderName.ofString? at hname
  split at hname
  . next h => exact h
  . contradiction

theorem not_mem_of_mem_withHeaders {k : KeyExtractor} {names : List String}
    (hvalid : ∀ name ∈ names, (HeaderName.ofString? name).isSome = true) :
    ∀ n ∈ (k.withHeaders names).names, '=' ∉ n.toList :=
  fun n hn => not_mem_of_isName (by decide) (isName_of_mem_withHeaders hvalid n hn)

/--
The key of a request can also be read as that of another one with a longer base: that base goes on
with components of the first key and ends inside a header text, whose rest spells the components of
the other key, together with the components after it.
-/
def Overlaps (k : KeyExtractor) (r r' : Request) : Prop :=
  ∃ base before name after start rest,
    k.base.extract r = some base ∧ k.names = before ++ name :: after
      ∧ headerText r.headers name = start ++ rest
      ∧ k.base.extract r'
          = some (base ++ (components r.headers before ++ (label r.headers name ++ start)))
      ∧ components r'.headers k.names = rest ++ components r.headers after

theorem extractText_eq_of_overlaps {k : KeyExtractor} {r r' : Request} (h : k.Overlaps r r') :
    k.extractText r = k.extractText r' := by
  obtain ⟨base, before, name, after, start, rest, hbase, hnames, htext, hbase', hrest⟩ := h
  rw [extractText_eq, extractText_eq, hbase, hbase', hrest, hnames]
  simp [htext]

theorem exists_name_of_label_eq_append {h : Headers} {name : String} {cut left : List Char}
    (hcut : cut ≠ []) (hlabel : label h name = cut ++ '|' :: left) :
    ∃ front back, name.toList = front ++ '|' :: back
      ∧ left = back ++ '=' :: (decimal (Bytes.Utf8.length (headerText h name)) ++ [':']) := by
  cases cut with
  | nil => contradiction
  | cons c cut =>
    simp only [label, List.cons_append, List.cons.injEq, List.append_assoc] at hlabel
    have happend := hlabel.2
    rw [List.append_eq_append_iff] at happend
    obtain ⟨passed, -, hpassed⟩ | ⟨back, hname, hback⟩ := happend
    . -- Behind the name there are only the equals sign, digits and the colon
      have hmark : '|' ∈ '=' :: (decimal (Bytes.Utf8.length (headerText h name)) ++ [':']) := by
        rw [hpassed]
        simp
      have hdigits := not_mem_decimal (c := '|') (by decide) (Bytes.Utf8.length (headerText h name))
      simp [hdigits] at hmark
    . cases back with
      | nil => simp at hback
      | cons b back =>
        simp only [List.cons_append, List.cons.injEq] at hback
        obtain ⟨rfl, hleft⟩ := hback
        exact ⟨cut, back, hname, hleft⟩

theorem label_ne_append_mark {h h' : Headers} {first : String} {more : List String}
    (hnames : ∀ n ∈ first :: more, '=' ∉ n.toList) {passed names : List String} {name : String}
    (hsuffix : passed ++ name :: names = first :: more) {cut left : List Char} (hcut : cut ≠ [])
    (hlabel : label h name = cut ++ '|' :: left)
    (hall : components h' (first :: more)
      = '|' :: (left ++ (headerText h name ++ components h names))) : False := by
  -- The end of the name is then read as the first name, but too few components are left after it.
  obtain ⟨front, back, hname, hleft⟩ := exists_name_of_label_eq_append hcut hlabel
  have hmem : name ∈ first :: more := by
    rw [← hsuffix]
    simp
  have hback : '=' ∉ back := by
    have hall := hnames name hmem
    rw [hname] at hall
    simp only [List.mem_append, List.mem_cons, not_or] at hall
    exact hall.2.2
  simp only [hleft, components_cons, label, List.cons_append, List.append_assoc, List.cons.injEq,
    true_and, List.nil_append] at hall
  obtain ⟨hfirst, -, hrest⟩ := label_append_inj hback (hnames first (by simp)) hall.symm
  have hnames' : ∀ n ∈ names, '=' ∉ n.toList := by
    intro n hn
    apply hnames
    rw [← hsuffix]
    simp [hn]
  have hmore : ∀ n ∈ more, '=' ∉ n.toList := fun n hn => hnames n (List.mem_cons_of_mem _ hn)
  obtain ⟨rfl, -⟩ := components_inj hnames' hmore hrest
  cases passed with
  | nil =>
    -- The name would be the first one, and longer than itself.
    simp only [List.nil_append, List.cons.injEq, and_true] at hsuffix
    have hlen := congrArg List.length hname
    rw [hsuffix, ← hfirst] at hlen
    simp at hlen
    omega
  | cons p passed =>
    have hlen := congrArg List.length hsuffix
    simp at hlen
    omega

theorem exists_text_of_append_components {h h' : Headers} {first : String} {more : List String}
    (hnames : ∀ n ∈ first :: more, '=' ∉ n.toList) {passed names : List String}
    (hsuffix : passed ++ names = first :: more) {cut : List Char} (hcut : cut ≠ [])
    (heq : cut ++ components h' (first :: more) = components h names) :
    ∃ before name after start rest,
      names = before ++ name :: after ∧ headerText h name = start ++ rest
        ∧ cut = components h before ++ (label h name ++ start)
        ∧ components h' (first :: more) = rest ++ components h after := by
  induction names generalizing passed cut with
  | nil =>
    simp only [components_nil, List.append_eq_nil_iff] at heq
    exact absurd heq.1 hcut
  | cons name names ih =>
    rw [components_cons _ _ names, List.append_eq_append_iff] at heq
    -- The cut is in the label, or else in the text, or else in the components after it.
    obtain ⟨left, hlabel, hall⟩ | ⟨cut, rfl, htext⟩ := heq
    . cases left with
      | nil =>
        refine ⟨[], name, names, [], headerText h name, rfl, rfl, ?_, hall⟩
        rw [hlabel]
        simp
      | cons c left =>
        have hc : c = '|' := by
          simp only [components_cons, label, List.cons_append, List.cons.injEq] at hall
          exact hall.1.symm
        subst hc
        exact (label_ne_append_mark hnames hsuffix hcut hlabel hall).elim
    . rw [List.append_eq_append_iff] at htext
      obtain ⟨cut', rfl, hrest⟩ | ⟨rest, htext, hall⟩ := htext
      . cases cut' with
        | nil =>
          refine ⟨[], name, names, headerText h name, [], rfl, by simp, by simp, ?_⟩
          exact hrest.symm
        | cons c cut' =>
          have hpassed : (passed ++ [name]) ++ names = first :: more := by
            rw [← hsuffix]
            simp
          obtain ⟨before, name', after, start, rest, hsplit, htext, hcut', hall⟩ :=
            ih hpassed (List.cons_ne_nil c cut') hrest.symm
          refine ⟨name :: before, name', after, start, rest, ?_, htext, ?_, hall⟩
          . rw [hsplit, List.cons_append]
          . rw [hcut']
            simp
      . exact ⟨[], name, names, cut, rest, rfl, htext, by simp, hall⟩

theorem overlaps_of_append_eq {k : KeyExtractor} (hnames : ∀ n ∈ k.names, '=' ∉ n.toList)
    {r r' : Request} {base cut : List Char} (hbase : k.base.extract r = some base)
    (hbase' : k.base.extract r' = some (base ++ cut)) (hcut : cut ≠ [])
    (heq : components r.headers k.names = cut ++ components r'.headers k.names) :
    k.Overlaps r r' := by
  cases hk : k.names with
  | nil =>
    rw [hk] at heq
    simp only [components_nil, List.nil_eq, List.append_nil] at heq
    exact absurd heq hcut
  | cons first more =>
    rw [hk] at heq hnames
    obtain ⟨before, name, after, start, rest, hsplit, htext, hcut', hrest⟩ :=
      exists_text_of_append_components hnames (List.nil_append _) hcut heq.symm
    refine ⟨base, before, name, after, start, rest, hbase, ?_, htext, ?_, ?_⟩
    . rw [hk, hsplit]
    . rw [hbase', hcut']
    . rw [hk, hrest]

theorem extract_inj {k k' : KeyExtractor} {r r' : Request} (h : k.extract r = k'.extract r') :
    k.extractText r = k'.extractText r' := by
  unfold extract at h
  cases hr : k.extractText r with
  | none =>
    cases hr' : k'.extractText r' with
    | none => rfl
    | some text' => simp [hr, hr'] at h
  | some text =>
    cases hr' : k'.extractText r' with
    | none => simp [hr, hr'] at h
    | some text' =>
      simp only [hr, hr', Option.map_some, Option.some.injEq] at h
      rw [String.ofList_injective h]

theorem overlaps_of_extract_eq {k : KeyExtractor} (hnames : ∀ n ∈ k.names, '=' ∉ n.toList)
    {r r' : Request} (hbase : k.base.extract r ≠ k.base.extract r')
    (h : k.extract r = k.extract r') : k.Overlaps r r' ∨ k.Overlaps r' r := by
  have htext := extract_inj h
  rw [extractText_eq, extractText_eq] at htext
  cases hr : k.base.extract r with
  | none =>
    cases hr' : k.base.extract r' with
    | none => simp [hr, hr'] at hbase
    | some base' => simp [hr, hr'] at htext
  | some base =>
    cases hr' : k.base.extract r' with
    | none => simp [hr, hr'] at htext
    | some base' =>
      simp only [hr, hr', Option.map_some, Option.some.injEq] at htext
      rw [List.append_eq_append_iff] at htext
      obtain ⟨cut, rfl, heq⟩ | ⟨cut, rfl, heq⟩ := htext
      . left
        apply overlaps_of_append_eq hnames hr hr' _ heq
        rintro rfl
        simp [hr, hr'] at hbase
      . right
        apply overlaps_of_append_eq hnames hr' hr _ heq
        rintro rfl
        simp [hr, hr'] at hbase

theorem mark_mem_of_overlaps {k : KeyExtractor} (hnames : ∀ n ∈ k.names, '=' ∉ n.toList)
    {r r' : Request} (h : k.Overlaps r r') : ∃ name ∈ k.names, '|' ∈ headerText r.headers name := by
  obtain ⟨base, before, name, after, start, rest, -, hsplit, htext, -, hrest⟩ := h
  refine ⟨name, by simp [hsplit], ?_⟩
  rw [htext]
  cases rest with
  | nil =>
    have hafter : ∀ n ∈ after, '=' ∉ n.toList := by
      intro n hn
      apply hnames
      rw [hsplit]
      simp [hn]
    have hlen := congrArg List.length (components_inj hnames hafter hrest).1
    rw [hsplit] at hlen
    simp at hlen
    omega
  | cons c rest =>
    rw [hsplit] at hrest
    cases before with
    | nil =>
      simp only [List.nil_append, components_cons, label, List.cons_append, List.cons.injEq] at hrest
      simp [← hrest.1]
    | cons first before =>
      simp only [components_cons, label, List.cons_append, List.cons.injEq] at hrest
      simp [← hrest.1]

/-- Requests with different bases have different keys as long as no client sends the mark. -/
theorem extract_ne_of_mark_not_mem {k : KeyExtractor} (hnames : ∀ n ∈ k.names, '=' ∉ n.toList)
    {r r' : Request} (hbase : k.base.extract r ≠ k.base.extract r')
    (hr : ∀ name ∈ k.names, '|' ∉ headerText r.headers name)
    (hr' : ∀ name ∈ k.names, '|' ∉ headerText r'.headers name) : k.extract r ≠ k.extract r' := by
  intro heq
  cases overlaps_of_extract_eq hnames hbase heq with
  | inl h =>
    obtain ⟨name, hmem, hmark⟩ := mark_mem_of_overlaps hnames h
    exact hr name hmem hmark
  | inr h =>
    obtain ⟨name, hmem, hmark⟩ := mark_mem_of_overlaps hnames h
    exact hr' name hmem hmark

/--
Requests with different bases have the same key exactly if one of the keys overlaps the other. With
the component of at least one header field in the key, this depends on the text that a client puts
into the field.
-/
theorem extract_eq_iff_overlaps {k : KeyExtractor} {names : List String}
    (hvalid : ∀ name ∈ names, (HeaderName.ofString? name).isSome = true) {r r' : Request}
    (hbase : k.base.extract r ≠ k.base.extract r') :
    (k.withHeaders names).extract r = (k.withHeaders names).extract r'
      ↔ (k.withHeaders names).Overlaps r r' ∨ (k.withHeaders names).Overlaps r' r := by
  constructor
  . apply overlaps_of_extract_eq (not_mem_of_mem_withHeaders hvalid) hbase
  . intro h
    unfold extract
    cases h with
    | inl h => rw [extractText_eq_of_overlaps h]
    | inr h => rw [extractText_eq_of_overlaps h]

/-- A request with a header field whose text contains what could be a component. -/
def markedRequest : Request where
  method := "GET"
  target := .ofPath ['/', 'a']
  headers :=
    [(⟨"x", by decide⟩, ⟨Bytes.Utf8.encode ['Q', '|', 'x', '=', '1', ':', 'y'], by decide⟩)]

/-- A request for another path, which contains what could be a label. -/
def labelledRequest : Request where
  method := "GET"
  target := .ofPath ['/', 'a', '|', 'x', '=', '7', ':', 'Q']
  headers := [(⟨"x", by decide⟩, ⟨Bytes.Utf8.encode ['y'], by decide⟩)]

/-- The paths of two requests differ, the text of a header field in their keys differs, too. -/
theorem extract_markedRequest_eq :
    (HeaderName.ofString? "x").isSome = true
      ∧ BaseKey.path.extract markedRequest ≠ BaseKey.path.extract labelledRequest
      ∧ ((KeyExtractor.mk .path []).withHeaders ["x"]).extract markedRequest
        = ((KeyExtractor.mk .path []).withHeaders ["x"]).extract labelledRequest := by
  decide

theorem markedRequest_overlaps :
    (∀ name ∈ ["x"], (HeaderName.ofString? name).isSome = true)
      ∧ BaseKey.path.extract markedRequest ≠ BaseKey.path.extract labelledRequest
      ∧ (((KeyExtractor.mk .path []).withHeaders ["x"]).Overlaps markedRequest labelledRequest
        ∨ ((KeyExtractor.mk .path []).withHeaders ["x"]).Overlaps labelledRequest markedRequest) := by
  have hvalid : ∀ name ∈ ["x"], (HeaderName.ofString? name).isSome = true := by decide
  have hbase : BaseKey.path.extract markedRequest ≠ BaseKey.path.extract labelledRequest := by
    decide
  refine ⟨hvalid, hbase, ?_⟩
  rw [← extract_eq_iff_overlaps (k := ⟨.path, []⟩) hvalid hbase]
  decide

end KeyExtractor

end ResponseCache
