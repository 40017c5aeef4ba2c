import Mathlib.Data.List.Induction
import Mathlib.Logic.Function.Basic
import ResponseCache.Store.Memory

/-!
This module contains a store in the hands of several readers and writers, whose steps interleave. A read
that finds an expired entry ends with a second step, which discards whatever is under the key by then.
For the store in memory this decides whether an entry is found that was written in between: it is,
until it expires, exactly as long as no read discards it that was halfway when it was written.
-/

namespace ResponseCache

structure Shared (σ : Type) where
  store : σ
  now : Time
  /-- The key under which a reader found an expired entry, until it discards what is there. -/
  halfway : Nat → Option String
  /-- What the reads that are over gave, the first first. -/
  answers : List (Nat × Except StoreError (Option Entry))

namespace Shared

inductive Action where
  | elapse (d : Duration)
  | look (reader : Nat) (key : String)
  /-- A reader that is halfway ends its read. -/
  | discard (reader : Nat)
  | set (key : String) (entry : Entry) (ttl : Duration)

variable {σ : Type} [Backend σ]

def start (store : σ) (now : Time) : Shared σ :=
  ⟨store, now, fun _ => none, []⟩

def answer (s : Shared σ) (reader : Nat) (result : Except StoreError (Option Entry)) : Shared σ :=
  { s with answers := s.answers ++ [(reader, result)] }

/--
The store after something happened. A reader that is halfway begins no other read, and one that is not
has nothing to discard.
-/
def act (s : Shared σ) : Action → Shared σ
  | .elapse d => { s with now := (s.now.add? d).getD s.now }
  | .look reader key =>
    if (s.halfway reader).isSome then
      s
    else
      let access := Backend.look s.store s.now key
      match access.result with
      | .ok .expired =>
        { s with store := access.store, halfway := Function.update s.halfway reader (some key) }
      | result => { s with store := access.store }.answer reader (result.map Finding.entry?)
  | .discard reader =>
    match s.halfway reader with
    | none => s
    | some key =>
      { s with
        store := Backend.discard s.store key
        halfway := Function.update s.halfway reader none }.answer reader (.ok none)
  | .set key entry ttl => { s with store := (Backend.set s.store s.now key entry ttl).store }

def play (s : Shared σ) (actions : List Action) : Shared σ :=
  actions.foldl act s

@[simp]
theorem play_nil (s : Shared σ) : s.play [] = s := rfl

theorem play_concat (s : Shared σ) (actions : List Action) (a : Action) :
    s.play (actions ++ [a]) = (s.play actions).act a := by
  simp [play]

section

variable {s : Shared σ} {reader : Nat} {key : String}

theorem act_look_of_expired (hfree : s.halfway reader = none)
    (hexpired : (Backend.look s.store s.now key).result = .ok .expired) :
    s.act (.look reader key)
      = { s with
          store := (Backend.look s.store s.now key).store
          halfway := Function.update s.halfway reader (some key) } := by
  simp [act, hfree, hexpired]

theorem act_look_of_ended (hfree : s.halfway reader = none)
    (hended : (Backend.look s.store s.now key).result ≠ .ok .expired) :
    s.act (.look reader key)
      = { s with store := (Backend.look s.store s.now key).store }.answer reader
          ((Backend.look s.store s.now key).result.map Finding.entry?) := by
  simp [act, hfree]

theorem act_look_of_halfway {other : String} (hhalfway : s.halfway reader = some other) :
    s.act (.look reader key) = s := by
  simp [act, hhalfway]

theorem act_discard_of_free (hfree : s.halfway reader = none) : s.act (.discard reader) = s := by
  simp [act, hfree]

theorem act_discard_of_halfway (hhalfway : s.halfway reader = some key) :
    s.act (.discard reader)
      = { s with
          store := Backend.discard s.store key
          halfway := Function.update s.halfway reader none }.answer reader (.ok none) := by
  simp [act, hhalfway]

/-- A read with nothing between its steps gives what a read of the store gives. -/
theorem answers_of_uninterrupted (hfree : s.halfway reader = none) :
    ((s.act (.look reader key)).act (.discard reader)).answers
      = s.answers ++ [(reader, (Backend.get s.store s.now key).result)] := by
  unfold Backend.get
  by_cases hexpired : (Backend.look s.store s.now key).result = .ok .expired
  . have hhalfway : (s.act (.look reader key)).halfway reader = some key := by
      rw [act_look_of_expired hfree hexpired]
      exact Function.update_self ..
    rw [act_discard_of_halfway hhalfway, act_look_of_expired hfree hexpired]
    simp [answer, hexpired]
  . have hstill : (s.act (.look reader key)).halfway reader = none := by
      rw [act_look_of_ended hfree hexpired]
      exact hfree
    rw [act_discard_of_free hstill, act_look_of_ended hfree hexpired]
    simp [answer]

end

theorem now_le_act (s : Shared σ) (a : Action) : s.now ≤ (s.act a).now := by
  cases a with
  | elapse d =>
    cases hadd : s.now.add? d with
    | none =>
      simp only [act, hadd]
      exact Time.le_refl _
    | some later =>
      simp only [act, hadd]
      show s.now.nanos ≤ later.nanos
      rw [Time.add?_eq_some_iff.1 hadd]
      omega
  | look reader key =>
    simp only [act]
    split
    . exact Time.le_refl _
    . split <;> exact Time.le_refl _
  | discard reader =>
    simp only [act]
    split <;> exact Time.le_refl _
  | set key entry ttl => exact Time.le_refl _

section

variable {first s : Shared MemoryStore} {key : String} {written : Expiring} {reader : Nat}

theorem act_look_of_live (hfree : s.halfway reader = none)
    (hget : s.store.table.get? key = some written) (hfresh : ¬written.expiresAt ≤ s.now) :
    s.act (.look reader key) = s.answer reader (.ok (some written.entry)) := by
  have hlive : (Backend.look s.store s.now key).result = .ok (.live written.entry) := by
    simp [Backend.look, MemoryStore.look, hget, hfresh]
  rw [act_look_of_ended hfree (by simp [hlive]), hlive]
  rfl

theorem act_look_of_absent (hfree : s.halfway reader = none)
    (hget : s.store.table.get? key = none) :
    s.act (.look reader key) = s.answer reader (.ok none) := by
  have habsent : (Backend.look s.store s.now key).result = .ok .absent := by
    simp [Backend.look, MemoryStore.look, hget]
  rw [act_look_of_ended hfree (by simp [habsent]), habsent]
  rfl

theorem store_act_look (s : Shared MemoryStore) (reader : Nat) (key : String) :
    (s.act (.look reader key)).store = s.store := by
  simp only [act]
  split
  . rfl
  . split <;> rfl

theorem halfway_act_discard (s : Shared MemoryStore) (reader : Nat) :
    (s.act (.discard reader)).halfway = Function.update s.halfway reader none := by
  cases hhalfway : s.halfway reader with
  | none => rw [act_discard_of_free hhalfway, ← hhalfway, Function.update_eq_self]
  | some key =>
    rw [act_discard_of_halfway hhalfway]
    rfl

theorem get?_act_discard (s : Shared MemoryStore) (reader : Nat) (key : String) :
    (s.act (.discard reader)).store.table.get? key
      = if s.halfway reader = some key then none else s.store.table.get? key := by
  cases hhalfway : s.halfway reader with
  | none => simp [act_discard_of_free hhalfway]
  | some other =>
    rw [act_discard_of_halfway hhalfway]
    show (s.store.table.erase other).get? key = _
    by_cases heq : other = key
    . subst heq
      simp [Table.get?_erase_self]
    . simp [heq, Table.get?_erase_of_ne _ (Ne.symm heq)]

theorem get?_act_set_of_ne (s : Shared MemoryStore) {key other : String} (hne : key ≠ other)
    (entry : Entry) (ttl : Duration) :
    (s.act (.set other entry ttl)).store.table.get? key = s.store.table.get? key := by
  simp only [act, Backend.set, MemoryStore.write]
  split
  next store hwrite =>
    split at hwrite
    . cases hwrite
      rfl
    . split at hwrite
      . cases hwrite
        exact Table.get?_insert_of_ne _ _ hne
      . nomatch hwrite
  next => rfl

theorem get?_act_set_self (s : Shared MemoryStore) {key : String} {entry : Entry} {ttl : Duration}
    {expiresAt : Time} (httl : ttl.isZero = false) (hexpires : s.now.add? ttl = some expiresAt) :
    (s.act (.set key entry ttl)).store.table.get? key = some ⟨entry, expiresAt⟩ := by
  simp [act, Backend.set, MemoryStore.write, httl, hexpires, MemoryStore.put]

/--
What is under a key after an entry was written there and more happened, but no other write there and not
the end of its time: the entry is there until it is discarded, and only the readers that were halfway
when it was written can do that.
-/
structure Since (first : Shared MemoryStore) (key : String) (written : Expiring)
    (actions : List Action) (s : Shared MemoryStore) : Prop where
  halfway_iff : ∀ r, s.halfway r = some key ↔ first.halfway r = some key ∧ .discard r ∉ actions
  get?_eq_some : (∀ r, first.halfway r = some key → .discard r ∉ actions) →
    s.store.table.get? key = some written
  get?_eq_none : (∃ r, first.halfway r = some key ∧ .discard r ∈ actions) →
    s.store.table.get? key = none

namespace Since

variable {actions : List Action}

theorem get?_cases (h : Since first key written actions s) :
    s.store.table.get? key = some written ∨ s.store.table.get? key = none := by
  by_cases hlate : ∃ r, first.halfway r = some key ∧ .discard r ∈ actions
  . exact .inr (h.get?_eq_none hlate)
  . exact .inl (h.get?_eq_some fun r hr hmem => hlate ⟨r, hr, hmem⟩)

/-- Of what is no discard, it only matters that the key keeps its entry and its readers. -/
theorem concat_of_same (h : Since first key written actions s) {a : Action}
    (hdiscard : ∀ r, a ≠ .discard r)
    (hget : (s.act a).store.table.get? key = s.store.table.get? key)
    (hhalfway : ∀ r, (s.act a).halfway r = some key ↔ s.halfway r = some key) :
    Since first key written (actions ++ [a]) (s.act a) := by
  have hmem : ∀ r, .discard r ∈ actions ++ [a] ↔ .discard r ∈ actions := by
    intro r
    rw [List.mem_append, List.mem_singleton]
    constructor
    . rintro (hmem | heq)
      . exact hmem
      . exact absurd heq.symm (hdiscard r)
    . exact .inl
  constructor
  . intro r
    rw [hhalfway, hmem]
    exact h.halfway_iff r
  . simp only [hmem, hget]
    exact h.get?_eq_some
  . simp only [hmem, hget]
    exact h.get?_eq_none

theorem concat_look (h : Since first key written actions s) (hfresh : ¬written.expiresAt ≤ s.now)
    (reader : Nat) (other : String) :
    Since first key written (actions ++ [.look reader other]) (s.act (.look reader other)) := by
  apply h.concat_of_same
  . simp
  . rw [store_act_look]
  . intro r
    cases hfree : s.halfway reader with
    | some k => rw [act_look_of_halfway hfree]
    | none =>
      by_cases hexpired : (Backend.look s.store s.now other).result = .ok .expired
      . rw [act_look_of_expired hfree hexpired]
        -- What is under the key itself is not expired.
        have hne : other ≠ key := by
          rintro rfl
          obtain hget | hget := h.get?_cases
          . simp [Backend.look, MemoryStore.look, hget, hfresh] at hexpired
          . simp [Backend.look, MemoryStore.look, hget] at hexpired
        by_cases heq : r = reader
        . subst heq
          simp [hne, hfree]
        . simp [Function.update_of_ne heq]
      . rw [act_look_of_ended hfree hexpired]
        rfl

theorem concat_discard (h : Since first key written actions s) (reader : Nat) :
    Since first key written (actions ++ [.discard reader]) (s.act (.discard reader)) := by
  have hmem : ∀ r, .discard r ∈ actions ++ [.discard reader] ↔ .discard r ∈ actions ∨ r = reader := by
    simp
  constructor
  . intro r
    rw [halfway_act_discard, hmem, not_or, ← and_assoc, ← h.halfway_iff]
    by_cases heq : r = reader
    . subst heq
      simp
    . simp [heq]
  . intro hnone
    have hbefore : ∀ r, first.halfway r = some key → .discard r ∉ actions := fun r hr hr' =>
      hnone r hr ((hmem r).2 (.inl hr'))
    have hother : s.halfway reader ≠ some key := fun hhalfway =>
      hnone reader ((h.halfway_iff reader).1 hhalfway).1 ((hmem reader).2 (.inr rfl))
    rw [get?_act_discard, if_neg hother]
    exact h.get?_eq_some hbefore
  . rintro ⟨r, hr, hr'⟩
    rw [get?_act_discard]
    split
    next => rfl
    next hother =>
      rw [hmem] at hr'
      by_cases hbefore : .discard r ∈ actions
      . exact h.get?_eq_none ⟨r, hr, hbefore⟩
      . obtain rfl := hr'.resolve_left hbefore
        exact absurd ((h.halfway_iff r).2 ⟨hr, hbefore⟩) hother

theorem concat_set (h : Since first key written actions s) {other : String} (hne : key ≠ other)
    (entry : Entry) (ttl : Duration) :
    Since first key written (actions ++ [.set other entry ttl]) (s.act (.set other entry ttl)) := by
  apply h.concat_of_same
  . simp
  . exact get?_act_set_of_ne s hne entry ttl
  . intro r
    rfl

theorem of_play {entry : Entry} {ttl : Duration} {expiresAt : Time} (httl : ttl.isZero = false)
    (hexpires : first.now.add? ttl = some expiresAt)
    (hlast : ∀ entry ttl, .set key entry ttl ∉ actions)
    (hfresh : ¬expiresAt ≤ ((first.act (.set key entry ttl)).play actions).now) :
    Since first key ⟨entry, expiresAt⟩ actions ((first.act (.set key entry ttl)).play actions) := by
  induction actions using List.reverseRecOn with
  | nil =>
    constructor
    . intro r
      simp [act]
    . exact fun _ => get?_act_set_self first httl hexpires
    . simp
  | append_singleton actions a ih =>
    rw [play_concat] at hfresh ⊢
    generalize hs : (first.act (.set key entry ttl)).play actions = s at hfresh ih ⊢
    have hbefore : ¬expiresAt ≤ s.now := fun hle => hfresh (Time.le_trans hle (now_le_act s a))
    have hsince := ih (fun e t hmem => hlast e t (List.mem_append_left _ hmem)) hbefore
    cases a with
    | elapse d =>
      exact hsince.concat_of_same (by simp) rfl fun _ => Iff.rfl
    | look reader other => exact hsince.concat_look hbefore reader other
    | discard reader => exact hsince.concat_discard reader
    | set other e t =>
      have hne : key ≠ other := by
        rintro rfl
        exact hlast e t (by simp)
      exact hsince.concat_set hne e t

end Since

/--
What a read finds that begins after an entry was written under its key, if nothing else was written
there and the entry has not expired: the entry, exactly if it was not discarded by a reader that was
halfway when it was written, and nothing otherwise.
-/
theorem answers_after_set {entry : Entry} {ttl : Duration} {expiresAt : Time}
    {actions : List Action} (httl : ttl.isZero = false)
    (hexpires : first.now.add? ttl = some expiresAt)
    (hplay : (first.act (.set key entry ttl)).play actions = s)
    (hlast : ∀ entry ttl, .set key entry ttl ∉ actions) (hfresh : ¬expiresAt ≤ s.now)
    (hfree : s.halfway reader = none) :
    ((∀ r, first.halfway r = some key → .discard r ∉ actions) →
        (s.act (.look reader key)).answers = s.answers ++ [(reader, .ok (some entry))])
      ∧ ((∃ r, first.halfway r = some key ∧ .discard r ∈ actions) →
        (s.act (.look reader key)).answers = s.answers ++ [(reader, .ok none)]) := by
  subst hplay
  have hsince := Since.of_play httl hexpires hlast hfresh
  constructor
  . intro hkept
    rw [act_look_of_live hfree (hsince.get?_eq_some hkept) hfresh]
    rfl
  . intro hlost
    rw [act_look_of_absent hfree (hsince.get?_eq_none hlost)]
    rfl

end

def small (byte : UInt8) : Entry :=
  ⟨.ok, [], [byte], .epoch, "\"a\""⟩

def tenMinutes : Duration :=
  .ofSecs 600 (by decide)

/-- The first entry under a key has expired, which reader 0 has found but not yet acted on. -/
def overtaken : Shared MemoryStore :=
  (start .empty .epoch).play [.set "k" (small 1) ⟨2, by decide⟩, .elapse ⟨2, by decide⟩, .look 0 "k"]

def rewritten : Shared MemoryStore :=
  overtaken.act (.set "k" (small 2) tenMinutes)

/-- The time at which the second entry expires. -/
def deadline : Time :=
  ⟨600 * nanosPerSec + 2, by decide, by decide⟩

/-- As long as reader 0 is halfway, the others find the second entry. -/
theorem answers_after_set_of_overtaken :
    tenMinutes.isZero = false
      ∧ overtaken.now.add? tenMinutes = some deadline
      ∧ overtaken.halfway 0 = some "k"
      ∧ (∀ entry ttl, .set "k" entry ttl ∉ [Action.look 1 "k"])
      ∧ ¬deadline ≤ (rewritten.play [.look 1 "k"]).now
      ∧ (rewritten.play [.look 1 "k"]).halfway 2 = none
      ∧ (∀ r, overtaken.halfway r = some "k" → .discard r ∉ [Action.look 1 "k"])
      ∧ ((rewritten.play [.look 1 "k"]).act (.look 2 "k")).answers
        = (rewritten.play [.look 1 "k"]).answers ++ [(2, .ok (some (small 2)))] := by
  have hlast : ∀ entry ttl, .set "k" entry ttl ∉ [Action.look 1 "k"] := by simp
  have hkept : ∀ r, overtaken.halfway r = some "k" → .discard r ∉ [Action.look 1 "k"] := by simp
  have hexpires : overtaken.now.add? tenMinutes = some deadline := by decide
  have hfresh : ¬deadline ≤ (rewritten.play [.look 1 "k"]).now := by decide
  exact ⟨by decide, hexpires, by decide, hlast, hfresh, by decide, hkept,
    (answers_after_set (by decide) hexpires rfl hlast hfresh (by decide)).1 hkept⟩

/-- When reader 0 goes on, it discards the second entry, which is lost to all who read after it. -/
theorem lost_after_set :
    tenMinutes.isZero = false
      ∧ overtaken.now.add? tenMinutes = some deadline
      ∧ (∀ entry ttl, .set "k" entry ttl ∉ [Action.discard 0])
      ∧ ¬deadline ≤ (rewritten.play [.discard 0]).now
      ∧ (rewritten.play [.discard 0]).halfway 1 = none
      ∧ ((rewritten.play [.discard 0]).act (.look 1 "k")).answers
        = (rewritten.play [.discard 0]).answers ++ [(1, .ok none)] := by
  refine ⟨by decide, by decide, by simp, by decide, by decide, ?_⟩
  rfl

end Shared

end ResponseCache
