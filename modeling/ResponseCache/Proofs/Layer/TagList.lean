import ResponseCache.Proofs.Layer.Revalidation
import ResponseCache.Proofs.Text.Pieces

/-!
This module contains the conditions under which a client wants no body, as their grammar has them: a star,
or a list of entity tags, whose labels may have any character but the quote in them. They are read piece by
piece between the commas, also those in labels. Thus a tag with a comma in it is not found, and a star
between two commas of a label is taken for the one that names all tags.
-/

namespace ResponseCache.EntityTag

structure Tag where
  weak : Bool
  label : List Char
  quote_not_mem : '"' ∉ label

namespace Tag

def quoted (t : Tag) : List Char :=
  '"' :: t.label ++ ['"']

def spelled (t : Tag) : List Char :=
  if t.weak then 'W' :: '/' :: t.quoted else t.quoted

/-- Whether a star with nothing but blanks around it is between two commas of the label. -/
def HidesStar (t : Tag) : Prop :=
  ∃ first middle last, t.label = first ++ ',' :: (middle ++ ',' :: last) ∧ Text.trim middle = ['*']

theorem not_hidesStar {t : Tag} (h : ',' ∉ t.label) : ¬t.HidesStar := by
  rintro ⟨first, middle, last, hlabel, -⟩
  exact h (by simp [hlabel])

end Tag

structure Blanks where
  text : List Char
  mem : ∀ c ∈ text, c = ' ' ∨ c = '\t'

structure Listed where
  before : Blanks
  tag : Tag
  after : Blanks

def Listed.spelled (e : Listed) : List Char :=
  e.before.text ++ e.tag.spelled ++ e.after.text

inductive Condition where
  /-- It is any tag. -/
  | any (before after : Blanks)
  /-- It is in a list. -/
  | oneOf (elements : List Listed)

namespace Condition

def spelled : Condition → List Char
  | any before after => before.text ++ ['*'] ++ after.text
  | oneOf elements => List.intercalate [','] (elements.map Listed.spelled)

def IsAny : Condition → Prop
  | any _ _ => True
  | oneOf _ => False

def tags : Condition → List Tag
  | any _ _ => []
  | oneOf elements => elements.map Listed.tag

/-- Whether a condition names a tag. Weak and strong tags are not told apart. -/
def Names (c : Condition) (etag : Tag) : Prop :=
  c.IsAny ∨ ∃ t ∈ c.tags, t.label = etag.label

/--
Whether a condition seems to name a tag to those who cut it at every comma: a star between two commas of a
label is taken for one on its own, and a tag with a comma in it is not found.
-/
def SeemsToName (c : Condition) (etag : Tag) : Prop :=
  c.IsAny ∨ ∃ t ∈ c.tags, t.HidesStar ∨ (t.label = etag.label ∧ ',' ∉ etag.label)

/-- What is cut at commas is read as it is meant if no star is hidden and the tag itself is not cut. -/
theorem seemsToName_iff_names {c : Condition} {etag : Tag}
    (h : ∀ t ∈ c.tags, ¬t.HidesStar ∧ (t.label = etag.label → ',' ∉ t.label)) :
    c.SeemsToName etag ↔ c.Names etag := by
  unfold SeemsToName Names
  constructor
  . rintro (hany | ⟨t, hmem, hstar | ⟨hlabel, -⟩⟩)
    . exact .inl hany
    . exact absurd hstar (h t hmem).1
    . exact .inr ⟨t, hmem, hlabel⟩
  . rintro (hany | ⟨t, hmem, hlabel⟩)
    . exact .inl hany
    . exact .inr ⟨t, hmem, .inr ⟨hlabel, hlabel ▸ (h t hmem).2 hlabel⟩⟩

end Condition

theorem count_stripWeak (cs : List Char) : (stripWeak cs).count '"' = cs.count '"' := by
  fun_induction stripWeak cs with
  | case1 rest ih => simp [ih]
  | case2 cs _ => rfl

namespace Tag

variable (t : Tag)

theorem stripWeak_quoted : stripWeak t.quoted = t.quoted := by
  simp [quoted, stripWeak]

theorem stripWeak_spelled : stripWeak t.spelled = t.quoted := by
  unfold spelled
  split
  . rw [stripWeak]
    exact t.stripWeak_quoted
  . exact t.stripWeak_quoted

theorem count_quoted : t.quoted.count '"' = 2 := by
  simp [quoted, List.count_append, List.count_eq_zero.2 t.quote_not_mem]

theorem quoted_inj {t other : Tag} (h : t.quoted = other.quoted) : t.label = other.label :=
  List.append_cancel_right (List.cons.inj h).2

end Tag

theorem Blanks.isBlank (b : Blanks) : Text.IsBlank b.text := by
  intro c hmem
  obtain rfl | rfl := b.mem c hmem <;> decide

theorem Blanks.not_mem {c : Char} (h : Text.isBlank c = false) (b : Blanks) : c ∉ b.text :=
  fun hmem => absurd (b.isBlank c hmem) (Bool.eq_false_iff.1 h)

/-- A piece that names a tag is a star, or has both the quotes of the tag. -/
theorem count_of_names {piece : List Char} {etag : Tag} (h : names piece etag.spelled = true) :
    (Text.trim piece = ['*'] ∧ piece.count '"' = 0)
      ∨ (stripWeak (Text.trim piece) = etag.quoted ∧ piece.count '"' = 2) := by
  have hcount : (Text.trim piece).count '"' = piece.count '"' := Text.count_trim (by decide) piece
  simp only [names, Bool.or_eq_true, decide_eq_true_eq, etag.stripWeak_spelled] at h
  rw [← hcount]
  cases h with
  | inl hstar =>
    rw [hstar]
    exact .inl ⟨rfl, rfl⟩
  | inr hquoted =>
    refine .inr ⟨hquoted, ?_⟩
    rw [← count_stripWeak, hquoted, etag.count_quoted]

theorem not_names_of_count {piece : List Char} (h : piece.count '"' = 1) (etag : Tag) :
    names piece etag.spelled = false := by
  apply Bool.eq_false_iff.2
  intro hnames
  obtain ⟨-, hcount⟩ | ⟨-, hcount⟩ := count_of_names hnames <;> omega

theorem trim_of_names {piece : List Char} (hquote : '"' ∉ piece) {etag : Tag}
    (h : names piece etag.spelled = true) : Text.trim piece = ['*'] := by
  have hnone := List.count_eq_zero.2 hquote
  obtain ⟨hstar, -⟩ | ⟨-, hcount⟩ := count_of_names h
  . exact hstar
  . omega

theorem names_of_star {piece : List Char} (h : Text.trim piece = ['*']) (tag : List Char) :
    names piece tag = true := by
  simp [names, h]

namespace Listed

def opening (e : Listed) : List Char :=
  e.before.text ++ if e.tag.weak then ['W', '/', '"'] else ['"']

def closing (e : Listed) : List Char :=
  '"' :: e.after.text

variable (e : Listed)

theorem spelled_eq : e.spelled = e.opening ++ (e.tag.label ++ e.closing) := by
  unfold spelled opening closing Tag.spelled Tag.quoted
  split <;> simp

theorem comma_not_mem_opening : ',' ∉ e.opening := by
  have hblanks := e.before.not_mem (c := ',') (by decide)
  unfold opening
  split <;> simp [hblanks]

theorem comma_not_mem_closing : ',' ∉ e.closing := by
  have hblanks := e.after.not_mem (c := ',') (by decide)
  simp [closing, hblanks]

theorem count_opening : e.opening.count '"' = 1 := by
  have hblanks := List.count_eq_zero.2 (e.before.not_mem (c := '"') (by decide))
  unfold opening
  split <;> simp [hblanks]

theorem count_closing : e.closing.count '"' = 1 := by
  have hblanks := List.count_eq_zero.2 (e.after.not_mem (c := '"') (by decide))
  simp [closing, hblanks]

theorem trim_spelled : Text.trim e.spelled = e.tag.spelled := by
  have hne : e.tag.spelled ≠ [] := by
    unfold Tag.spelled
    split <;> exact List.cons_ne_nil _ _
  have hlast : e.tag.spelled.getLast hne = '"' := by
    rw [List.getLast_eq_iff_getLast?_eq_some]
    unfold Tag.spelled Tag.quoted
    split <;> simp [List.getLast?_cons]
  apply Text.trim_append e.before.isBlank e.after.isBlank hne
  . unfold Tag.spelled Tag.quoted
    split <;> rfl
  . rw [hlast]
    decide

theorem comma_not_mem_append_closing {last : List Char} (h : ',' ∉ last) : ',' ∉ last ++ e.closing := by
  simp [h, e.comma_not_mem_closing]

/-- What comes before the first comma of a label is cut off. -/
theorem splitOn_spelled {first rest : List Char} (hlabel : e.tag.label = first ++ ',' :: rest)
    (hfirst : ',' ∉ first) :
    Text.splitOn ',' e.spelled = (e.opening ++ first) :: Text.splitOn ',' (rest ++ e.closing) := by
  have hspelled : e.spelled = (e.opening ++ first) ++ ',' :: (rest ++ e.closing) := by
    simp [e.spelled_eq, hlabel]
  have hopening : ',' ∉ e.opening ++ first := by
    simp [e.comma_not_mem_opening, hfirst]
  rw [hspelled, Text.splitOn_append_sep, Text.splitOn_of_not_mem hopening, List.singleton_append]

/-- The whole of what is listed names a tag exactly if it is the same one. -/
theorem names_spelled_iff (etag : Tag) :
    names e.spelled etag.spelled = true ↔ e.tag.label = etag.label := by
  simp only [names, e.trim_spelled, Tag.stripWeak_spelled, Bool.or_eq_true, decide_eq_true_eq]
  constructor
  . rintro (hstar | hquoted)
    . unfold Tag.spelled Tag.quoted at hstar
      split at hstar <;> simp at hstar
    . exact Tag.quoted_inj hquoted
  . intro h
    exact .inr (by rw [Tag.quoted, Tag.quoted, h])

/-- The piece between two commas of a label. -/
theorem hidesStar_of_mem_splitOn {t : Tag} {first middle last piece : List Char} {etag : Tag}
    (hlabel : t.label = first ++ ',' :: (middle ++ ',' :: last)) (hpiece : piece ∈ Text.splitOn ',' middle)
    (hnames : names piece etag.spelled = true) : t.HidesStar := by
  obtain ⟨before, after, hcut⟩ := Text.exists_of_mem_splitOn hpiece
  have hlabel : t.label = (first ++ before) ++ ',' :: (piece ++ ',' :: (after ++ last)) := by
    calc t.label = first ++ ((',' :: (middle ++ [','])) ++ last) := by simp [hlabel]
      _ = (first ++ before) ++ ',' :: (piece ++ ',' :: (after ++ last)) := by simp [hcut]
  have hmem : ∀ c ∈ piece, c ∈ t.label := by
    intro c hc
    rw [hlabel]
    simp [hc]
  exact ⟨_, piece, _, hlabel, trim_of_names (fun hquote => t.quote_not_mem (hmem _ hquote)) hnames⟩

/-- Of the pieces of a tag with a comma in it, the first and the last have one of its quotes each. -/
theorem hidesStar_of_names (hcomma : ',' ∈ e.tag.label) {piece : List Char}
    (hpiece : piece ∈ Text.splitOn ',' e.spelled) {etag : Tag} (hnames : names piece etag.spelled = true) :
    e.tag.HidesStar := by
  obtain ⟨first, rest, hlabel, hfirst⟩ := List.eq_append_cons_of_mem hcomma
  have hfirstQuote : '"' ∉ first := fun hmem => e.tag.quote_not_mem (by simp [hlabel, hmem])
  have hrestQuote : '"' ∉ rest := fun hmem => e.tag.quote_not_mem (by simp [hlabel, hmem])
  have hopening : names (e.opening ++ first) etag.spelled = false := by
    apply not_names_of_count
    rw [List.count_append, e.count_opening, List.count_eq_zero.2 hfirstQuote]
  have hclosing : ∀ {last}, '"' ∉ last → names (last ++ e.closing) etag.spelled = false := by
    intro last hlast
    apply not_names_of_count
    rw [List.count_append, e.count_closing, List.count_eq_zero.2 hlast]
  rw [e.splitOn_spelled hlabel hfirst] at hpiece
  cases List.mem_cons.1 hpiece with
  | inl hpiece => simp [hpiece, hopening] at hnames
  | inr hpiece =>
    by_cases hrest : ',' ∈ rest
    . obtain ⟨middle, last, rfl, hlast⟩ := Text.exists_last_of_mem hrest
      have hlastQuote : '"' ∉ last := fun hmem => hrestQuote (by simp [hmem])
      rw [List.append_assoc, List.cons_append, Text.splitOn_append_sep,
        Text.splitOn_of_not_mem (e.comma_not_mem_append_closing hlast)] at hpiece
      cases List.mem_append.1 hpiece with
      | inl hpiece => exact hidesStar_of_mem_splitOn hlabel hpiece hnames
      | inr hpiece => simp [List.mem_singleton.1 hpiece, hclosing hlastQuote] at hnames
    . rw [Text.splitOn_of_not_mem (e.comma_not_mem_append_closing hrest)] at hpiece
      simp [List.mem_singleton.1 hpiece, hclosing hrestQuote] at hnames

theorem names_of_hidesStar (h : e.tag.HidesStar) (tag : List Char) :
    ∃ piece ∈ Text.splitOn ',' e.spelled, names piece tag = true := by
  obtain ⟨first, middle, last, hlabel, hstar⟩ := h
  have hmiddle : ',' ∉ middle := by
    rw [← List.count_eq_zero, ← Text.count_trim (by decide), hstar]
    rfl
  have hspelled : e.spelled = (e.opening ++ first) ++ ',' :: (middle ++ ',' :: (last ++ e.closing)) := by
    simp [e.spelled_eq, hlabel]
  refine ⟨middle, ?_, names_of_star hstar tag⟩
  rw [hspelled, Text.splitOn_append_sep, Text.splitOn_append_sep, Text.splitOn_of_not_mem hmiddle]
  simp

theorem exists_names_iff (etag : Tag) :
    (∃ piece ∈ Text.splitOn ',' e.spelled, names piece etag.spelled = true)
      ↔ e.tag.HidesStar ∨ (e.tag.label = etag.label ∧ ',' ∉ etag.label) := by
  by_cases hcomma : ',' ∈ e.tag.label
  . constructor
    . rintro ⟨piece, hpiece, hnames⟩
      exact .inl (e.hidesStar_of_names hcomma hpiece hnames)
    . rintro (hstar | ⟨hlabel, hnone⟩)
      . exact e.names_of_hidesStar hstar _
      . exact absurd (hlabel ▸ hcomma) hnone
  . have hspelled : ',' ∉ e.spelled := by
      simp [e.spelled_eq, e.comma_not_mem_opening, e.comma_not_mem_closing, hcomma]
    rw [Text.splitOn_of_not_mem hspelled]
    simp only [List.mem_singleton, exists_eq_left, e.names_spelled_iff]
    constructor
    . intro hlabel
      exact .inr ⟨hlabel, hlabel ▸ hcomma⟩
    . rintro (hstar | ⟨hlabel, -⟩)
      . exact absurd hstar (Tag.not_hidesStar hcomma)
      . exact hlabel

end Listed

/-- A condition seems to name a tag exactly if one of its pieces does. -/
theorem Condition.exists_names_iff (c : Condition) (etag : Tag) :
    (∃ piece ∈ Text.splitOn ',' c.spelled, names piece etag.spelled = true) ↔ c.SeemsToName etag := by
  cases c with
  | any before after =>
    have hstar : Text.trim (any before after).spelled = ['*'] :=
      Text.trim_append before.isBlank after.isBlank (List.cons_ne_nil _ _) (by decide) (by decide)
    have hcomma : ',' ∉ (any before after).spelled := by
      rw [← List.count_eq_zero, ← Text.count_trim (by decide), hstar]
      rfl
    rw [Text.splitOn_of_not_mem hcomma]
    simp only [List.mem_singleton, exists_eq_left, names_of_star hstar, true_iff]
    exact .inl trivial
  | oneOf elements =>
    by_cases hnil : elements = []
    . subst hnil
      constructor
      . rintro ⟨piece, hpiece, hnames⟩
        obtain rfl := List.mem_singleton.1 hpiece
        exact absurd (trim_of_names List.not_mem_nil hnames) (by decide)
      . rintro (hany | ⟨t, hmem, -⟩)
        . exact hany.elim
        . exact absurd hmem List.not_mem_nil
    . have hne : elements.map Listed.spelled ≠ [] := fun hmap => hnil (List.map_eq_nil_iff.1 hmap)
      unfold spelled
      rw [Text.splitOn_intercalate_eq_flatMap hne]
      simp only [List.flatMap_map, List.mem_flatMap]
      constructor
      . rintro ⟨piece, ⟨e, hmem, hpiece⟩, hnames⟩
        exact .inr ⟨e.tag, List.mem_map_of_mem hmem, (e.exists_names_iff etag).1 ⟨piece, hpiece, hnames⟩⟩
      . rintro (hany | ⟨t, hmem, htag⟩)
        . exact hany.elim
        . obtain ⟨e, helement, rfl⟩ := List.mem_map.1 hmem
          obtain ⟨piece, hpiece, hnames⟩ := (e.exists_names_iff etag).2 htag
          exact ⟨piece, ⟨e, helement, hpiece⟩, hnames⟩

theorem isNamed_iff_exists {values : List HeaderValue} {conditions : List Condition}
    (h : values.filterMap HeaderValue.text? = conditions.map Condition.spelled) (etag : Tag) :
    isNamed values (String.ofList etag.spelled) = true ↔ ∃ c ∈ conditions, c.SeemsToName etag := by
  unfold isNamed
  rw [h, String.toList_ofList, List.any_map, List.any_eq_true]
  simp only [Function.comp, List.any_eq_true, Condition.exists_names_iff]

/--
The client is told that it has the representation with a tag exactly if one of its conditions seems to name
the tag. This is as the conditions mean it if none of the tags that they list hides a star, and the tag
itself has no comma in it if it is listed.
-/
theorem isNamed_iff_seemsToName {values : List HeaderValue} {conditions : List Condition}
    (h : values.filterMap HeaderValue.text? = conditions.map Condition.spelled) (etag : Tag) :
    (isNamed values (String.ofList etag.spelled) = true ↔ ∃ c ∈ conditions, c.SeemsToName etag)
      ∧ ((∀ c ∈ conditions, ∀ t ∈ c.tags, ¬t.HidesStar ∧ (t.label = etag.label → ',' ∉ t.label)) →
        (isNamed values (String.ofList etag.spelled) = true ↔ ∃ c ∈ conditions, c.Names etag))
      ∧ ∀ (l : Layer) (job : Job) (entry : Entry) (now : Time),
        job.request.headers.getAll "if-none-match" = values → entry.etag = String.ofList etag.spelled →
          entry.status.isSuccess = true →
            ((l.serve job entry now).status = .notModified ↔ ∃ c ∈ conditions, c.SeemsToName etag) := by
  have hnamed := isNamed_iff_exists h etag
  refine ⟨hnamed, ?_, ?_⟩
  . intro hread
    rw [hnamed]
    apply exists_congr
    intro c
    apply and_congr_right
    intro hmem
    exact Condition.seemsToName_iff_names (hread c hmem)
  . intro l job entry now hvalues hetag hsuccess
    rw [Layer.status_serve_eq_notModified_iff hsuccess, ← hnamed, Layer.serve.isRevalidated, hsuccess, hvalues,
      hetag, Bool.true_and]

def Blanks.none : Blanks :=
  ⟨[], List.forall_mem_nil _⟩

def Blanks.space : Blanks :=
  ⟨[' '], List.forall_mem_singleton.2 (.inl rfl)⟩

/-- A request with a condition that is spelled as a text. -/
def asking (text : String) : Job :=
  { revalidation with
    request := ⟨"GET", .ofPath ['/'], Option.toList do
      let name ← HeaderName.ofString? "if-none-match"
      let value ← HeaderValue.ofString? text
      return (name, value)⟩ }

def plainTag : Tag :=
  ⟨false, ['x'], by decide⟩

def plainTagged : Entry :=
  { freshEntry none with etag := "\"x\"" }

/-- A list of two tags, the second of which is `W/"x"`. -/
def weakSecond : Condition :=
  .oneOf [⟨.none, ⟨true, ['*'], by decide⟩, .none⟩, ⟨.space, { plainTag with weak := true }, .none⟩]

def askingWeakly : Job :=
  asking "W/\"*\", W/\"x\""

theorem isNamed_of_weakSecond :
    askingWeakly.request.headers.texts "if-none-match" = [weakSecond].map Condition.spelled
      ∧ (∀ c ∈ [weakSecond], ∀ t ∈ c.tags, ¬t.HidesStar ∧ (t.label = plainTag.label → ',' ∉ t.label))
      ∧ isNamed (askingWeakly.request.headers.getAll "if-none-match") "\"x\"" = true
      ∧ ((Layer.sample false).serve askingWeakly plainTagged .epoch).status = .notModified := by
  have htexts : askingWeakly.request.headers.texts "if-none-match" = [weakSecond].map Condition.spelled := by
    decide +kernel
  have hcomma : ∀ t ∈ weakSecond.tags, ',' ∉ t.label :=
    List.forall_mem_cons.2 ⟨by decide, List.forall_mem_singleton.2 (by decide)⟩
  have hread : ∀ c ∈ [weakSecond], ∀ t ∈ c.tags,
      ¬t.HidesStar ∧ (t.label = plainTag.label → ',' ∉ t.label) := by
    rw [List.forall_mem_singleton]
    exact fun t hmem => ⟨Tag.not_hidesStar (hcomma t hmem), fun _ => hcomma t hmem⟩
  have hmem : weakSecond ∈ [weakSecond] := List.mem_singleton_self _
  have hnames : weakSecond.Names plainTag := .inr ⟨_, List.mem_cons_of_mem _ List.mem_cons_self, rfl⟩
  obtain ⟨-, hgrammar, hserved⟩ := isNamed_iff_seemsToName htexts plainTag
  refine ⟨htexts, hread, (hgrammar hread).2 ⟨_, hmem, hnames⟩, ?_⟩
  apply (hserved (Layer.sample false) askingWeakly plainTagged .epoch rfl rfl rfl).2
  exact ⟨_, hmem, (Condition.seemsToName_iff_names (hread _ hmem)).2 hnames⟩

/-- A list of a tag with a star between two commas. -/
def starList : Condition :=
  .oneOf [⟨.none, ⟨false, "a,*,b".toList, by decide⟩, .none⟩]

def commaTag : Tag :=
  ⟨false, "a,b".toList, by decide⟩

def commaList : Condition :=
  .oneOf [⟨.none, commaTag, .none⟩]

/-- A client that has `"a,*,b"` is told that it has `"x"`, and one that has `"a,b"` gets it once more. -/
theorem notModified_of_starList :
    (asking "\"a,*,b\"").request.headers.texts "if-none-match" = [starList.spelled]
      ∧ ¬starList.Names plainTag
      ∧ isNamed ((asking "\"a,*,b\"").request.headers.getAll "if-none-match") "\"x\"" = true
      ∧ ((Layer.sample false).serve (asking "\"a,*,b\"") plainTagged .epoch).status = .notModified
      ∧ (asking "\"a,b\"").request.headers.texts "if-none-match" = [commaList.spelled]
      ∧ commaList.Names commaTag
      ∧ isNamed ((asking "\"a,b\"").request.headers.getAll "if-none-match") "\"a,b\"" = false := by
  refine ⟨by decide +kernel, ?_, by decide +kernel, by decide +kernel, by decide +kernel, ?_,
    by decide +kernel⟩
  . rintro (hany | ⟨t, hmem, hlabel⟩)
    . exact hany.elim
    . obtain rfl := List.mem_singleton.1 hmem
      exact absurd hlabel (by decide)
  . exact .inr ⟨commaTag, List.mem_singleton_self _, rfl⟩

end ResponseCache.EntityTag
