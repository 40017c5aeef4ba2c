import ResponseCache.Key

/-!
This module contains the reading of the components of a key: each of them tells where it ends, so a
sequence of components can be cut in one way only. The names of the components are free of equals
signs since they are names of header fields.
-/

namespace ResponseCache

open Text (decimal not_mem_decimal decimal_inj append_sep_inj)

namespace KeyExtractor

def label (headers : Headers) (name : String) : List Char :=
  '|' :: name.toList ++ '=' :: decimal (Bytes.Utf8.length (headerText headers name)) ++ [':']

def components (headers : Headers) (names : List String) : List Char :=
  names.flatMap (component headers)

theorem component_eq (headers : Headers) (name : String) :
    component headers name = label headers name ++ headerText headers name := by
  unfold component label
  simp

@[simp]
theorem components_nil (headers : Headers) : components headers [] = [] := rfl

@[simp]
theorem components_cons (headers : Headers) (name : String) (names : List String) :
    components headers (name :: names)
      = label headers name ++ (headerText headers name ++ components headers names) := by
  unfold components
  rw [List.flatMap_cons, component_eq, List.append_assoc]

@[simp]
theorem components_append (headers : Headers) (as bs : List String) :
    components headers (as ++ bs) = components headers as ++ components headers bs := by
  unfold components
  rw [List.flatMap_append]

theorem extractText_eq (k : KeyExtractor) (r : Request) :
    k.extractText r = (k.base.extract r).map (· ++ components r.headers k.names) := rfl

theorem name_length_append_inj {a b xs ys : List Char} {m n : Nat} (ha : '=' ∉ a) (hb : '=' ∉ b)
    (h : a ++ '=' :: (decimal m ++ ':' :: xs) = b ++ '=' :: (decimal n ++ ':' :: ys)) :
    a = b ∧ m = n ∧ xs = ys := by
  obtain ⟨hname, hrest⟩ := append_sep_inj ha hb h
  obtain ⟨hlen, hafter⟩ :=
    append_sep_inj (not_mem_decimal (by decide) m) (not_mem_decimal (by decide) n) hrest
  exact ⟨hname, decimal_inj hlen, hafter⟩

theorem label_append_inj {h h' : Headers} {a : List Char} {m n : String} {xs ys : List Char}
    (ha : '=' ∉ a) (hn : '=' ∉ n.toList)
    (heq : a ++ '=' :: (decimal (Bytes.Utf8.length (headerText h m)) ++ ':' :: (headerText h m ++ xs))
      = n.toList ++ '=' :: (decimal (Bytes.Utf8.length (headerText h' n))
          ++ ':' :: (headerText h' n ++ ys))) :
    a = n.toList ∧ headerText h m = headerText h' n ∧ xs = ys := by
  obtain ⟨hname, hlen, hrest⟩ := name_length_append_inj ha hn heq
  obtain ⟨htext, hxs⟩ := Bytes.Utf8.append_inj_of_length_eq hrest hlen
  exact ⟨hname, htext, hxs⟩

theorem headerText_append_inj {h h' : Headers} {name : String} {xs ys : List Char}
    (heq : label h name ++ (headerText h name ++ xs) = label h' name ++ (headerText h' name ++ ys)) :
    headerText h name = headerText h' name ∧ xs = ys := by
  simp only [label, List.cons_append, List.append_assoc, List.cons.injEq, true_and,
    List.append_cancel_left_eq, List.nil_append] at heq
  obtain ⟨hlen, hrest⟩ := append_sep_inj (not_mem_decimal (by decide) _) (not_mem_decimal (by decide) _) heq
  exact Bytes.Utf8.append_inj_of_length_eq hrest (decimal_inj hlen)

/-- Under the same names the components of two requests agree exactly if their texts do. -/
theorem components_eq_iff {h h' : Headers} {names : List String} :
    components h names = components h' names ↔ ∀ n ∈ names, headerText h n = headerText h' n := by
  induction names with
  | nil => simp
  | cons name names ih =>
    rw [components_cons, components_cons, List.forall_mem_cons, ← ih]
    constructor
    . exact headerText_append_inj
    . rintro ⟨htext, hrest⟩
      rw [hrest, label, label, htext]

/-- The components of two requests agree only if their names and texts do. -/
theorem components_inj {h h' : Headers} {ns ms : List String}
    (hns : ∀ n ∈ ns, '=' ∉ n.toList) (hms : ∀ m ∈ ms, '=' ∉ m.toList)
    (heq : components h ns = components h' ms) :
    ns = ms ∧ ∀ n ∈ ns, headerText h n = headerText h' n := by
  induction ns generalizing ms with
  | nil =>
    cases ms with
    | nil => simp
    | cons m ms => simp [label] at heq
  | cons n ns ih =>
    cases ms with
    | nil => simp [label] at heq
    | cons m ms =>
      simp only [components_cons, label, List.cons_append, List.append_assoc, List.cons.injEq,
        true_and, List.nil_append] at heq
      -- The names end at the equals signs, the numbers at the colons, the texts where these say.
      obtain ⟨hname, htext, hrest⟩ := label_append_inj (hns n (by simp)) (hms m (by simp)) heq
      obtain rfl : n = m := String.toList_inj.1 hname
      have hns' : ∀ n ∈ ns, '=' ∉ n.toList := fun n hn => hns n (List.mem_cons_of_mem _ hn)
      have hms' : ∀ m ∈ ms, '=' ∉ m.toList := fun m hm => hms m (List.mem_cons_of_mem _ hm)
      obtain ⟨rfl, htexts⟩ := ih hns' hms' hrest
      refine ⟨rfl, ?_⟩
      intro n' hn'
      cases hn' with
      | head => exact htext
      | tail _ hn' => exact htexts n' hn'

end KeyExtractor

end ResponseCache
