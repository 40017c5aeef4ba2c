import ResponseCache.Proofs.Store.Contents

/-!
This module contains what can be told of a store by its replies. Of the stores in memory and on a server
it cannot be told afterwards that they were read, or that a write failed: whatever is read and written
later, they reply as if it had not happened.
-/

namespace ResponseCache

inductive StoreUse where
  | read (now : Time) (key : String)
  | write (now : Time) (key : String) (entry : Entry) (ttl : Duration)

inductive StoreReply where
  | read (result : Except StoreError (Option Entry))
  | written (result : Except WriteFault Unit)

namespace StoreUse

def time : StoreUse → Time
  | read now _ => now
  | write now _ _ _ => now

def reply {σ : Type} [Backend σ] (s : σ) : StoreUse → StoreReply × σ
  | read now key => (.read (Backend.get s now key).result, (Backend.get s now key).store)
  | write now key entry ttl =>
    (.written (Backend.set s now key entry ttl).result, (Backend.set s now key entry ttl).store)

/-- Whether time never goes back, from a time on. -/
def Timely : Time → List StoreUse → Prop
  | _, [] => True
  | now, use :: uses => now ≤ use.time ∧ Timely use.time uses

def replies {σ : Type} [Backend σ] (s : σ) : List StoreUse → List StoreReply
  | [] => []
  | use :: uses => (use.reply s).1 :: replies (use.reply s).2 uses

end StoreUse

open StoreUse

section

variable {σ : Type} [Backend σ] {now later : Time} {s s' s'' : σ}

/-- Whether two stores reply the same to whatever is read and written from a time on. -/
def SameReplies (now : Time) (s s' : σ) : Prop :=
  ∀ uses, Timely now uses → replies s uses = replies s' uses

namespace SameReplies

theorem refl (now : Time) (s : σ) : SameReplies now s s :=
  fun _ _ => rfl

theorem trans (h : SameReplies now s s') (h' : SameReplies now s' s'') : SameReplies now s s'' :=
  fun uses htimely => (h uses htimely).trans (h' uses htimely)

theorem mono (h : SameReplies now s s') (hle : now ≤ later) : SameReplies later s s' := by
  intro uses htimely
  apply h
  cases uses with
  | nil => trivial
  | cons use uses => exact ⟨Time.le_trans hle htimely.1, htimely.2⟩

/-- Stores reply the same if they are related in a way that every reply is the same and keeps. -/
theorem of_relation {R : Time → σ → σ → Prop}
    (hreply : ∀ {now s s'} {use : StoreUse}, R now s s' → now ≤ use.time →
      (use.reply s).1 = (use.reply s').1 ∧ R use.time (use.reply s).2 (use.reply s').2)
    (h : R now s s') : SameReplies now s s' := by
  intro uses htimely
  induction uses generalizing now s s' with
  | nil => rfl
  | cons use uses ih =>
    obtain ⟨hsame, hnext⟩ := hreply h htimely.1
    unfold replies
    rw [hsame, ih hnext htimely.2]

theorem reply (h : SameReplies now s s') (use : StoreUse) (hle : now ≤ use.time) :
    (use.reply s).1 = (use.reply s').1 ∧ SameReplies use.time (use.reply s).2 (use.reply s').2 := by
  constructor
  . exact (List.cons.inj (h [use] ⟨hle, trivial⟩)).1
  . intro uses htimely
    exact (List.cons.inj (h (use :: uses) ⟨hle, htimely⟩)).2

end SameReplies

/-- A store of which it cannot be told later that it was read, or that a write failed. -/
class Backend.Discreet (σ : Type) [Backend σ] : Prop where
  look : ∀ (s : σ) (now : Time) (key : String), SameReplies now (look s now key).store s
  discard : ∀ {s : σ} {now : Time} {key : String}, (Backend.look s now key).result = .ok .expired →
    SameReplies now (discard (Backend.look s now key).store key) s
  set : ∀ {s : σ} {now : Time} {key : String} {entry : Entry} {ttl : Duration} {fault : WriteFault},
    (set s now key entry ttl).result = .error fault → SameReplies now (set s now key entry ttl).store s

end

namespace MemoryStore

variable {s s' s'' : MemoryStore} {now later : Time} {key : String}

/-- What is under a key and has not expired. -/
def live? (s : MemoryStore) (now : Time) (key : String) : Option Expiring :=
  (s.table.get? key).filter fun stored => ¬stored.expiresAt ≤ now

/-- Whether two stores have the same under all keys, except for what has expired. -/
def SameLive (now : Time) (s s' : MemoryStore) : Prop :=
  ∀ key, s.live? now key = s'.live? now key

theorem SameLive.mono (h : SameLive now s s') (hle : now ≤ later) : SameLive later s s' := by
  have hlater (s : MemoryStore) (key : String) :
      s.live? later key = (s.live? now key).filter fun stored => ¬stored.expiresAt ≤ later := by
    unfold live?
    rw [Option.filter_filter]
    congr 1
    funext stored
    rw [← Bool.decide_and, decide_eq_decide]
    refine ⟨fun hlater => ⟨?_, hlater⟩, And.right⟩
    exact fun hnow => hlater (Time.le_trans hnow hle)
  intro key
  rw [hlater s, hlater s', h key]

/-- The three ways that a look can go. -/
theorem look_cases (s : MemoryStore) (now : Time) (key : String) :
    (s.look now key = .absent ∧ s.live? now key = none)
      ∨ (s.look now key = .expired ∧ s.live? now key = none)
      ∨ ∃ stored, s.look now key = .live stored.entry ∧ s.live? now key = some stored := by
  unfold look live?
  cases s.table.get? key with
  | none => exact .inl ⟨rfl, rfl⟩
  | some stored =>
    simp only [Option.filter_some]
    by_cases hexpired : stored.expiresAt ≤ now
    . rw [if_pos hexpired, decide_eq_false (not_not_intro hexpired)]
      exact .inr (.inl ⟨rfl, rfl⟩)
    . rw [if_neg hexpired, decide_eq_true hexpired]
      exact .inr (.inr ⟨stored, rfl, rfl⟩)

theorem sameLive_discard (h : s.look now key = .expired) : SameLive now (s.discard key) s := by
  intro other
  by_cases heq : other = key
  . subst heq
    have hnone : s.live? now other = none := by
      obtain ⟨hlook, -⟩ | ⟨-, hlive⟩ | ⟨stored, hlook, -⟩ := s.look_cases now other
      . nomatch h.symm.trans hlook
      . exact hlive
      . nomatch h.symm.trans hlook
    rw [hnone]
    unfold live? discard
    rw [Table.get?_erase_self]
    rfl
  . unfold live? discard
    rw [Table.get?_erase_of_ne _ heq]

theorem live?_put_self (s : MemoryStore) (now : Time) (key : String) (entry : Entry) (expiresAt : Time) :
    (s.put key entry expiresAt).live? now key
      = (some ⟨entry, expiresAt⟩ : Option Expiring).filter fun stored => ¬stored.expiresAt ≤ now := by
  unfold live? put
  rw [Table.get?_insert_self]

theorem SameLive.put (h : SameLive now s s') (key : String) (entry : Entry) (expiresAt : Time) :
    SameLive now (s.put key entry expiresAt) (s'.put key entry expiresAt) := by
  intro other
  by_cases heq : other = key
  . rw [heq, live?_put_self, live?_put_self]
  . unfold live? MemoryStore.put
    rw [Table.get?_insert_of_ne _ _ heq, Table.get?_insert_of_ne _ _ heq]
    exact h other

theorem get_eq (s : MemoryStore) (now : Time) (key : String) :
    (Backend.get s now key).result = .ok ((s.live? now key).map Expiring.entry)
      ∧ SameLive now (Backend.get s now key).store s := by
  simp only [Backend.get, Backend.look]
  obtain ⟨hlook, hlive⟩ | ⟨hlook, hlive⟩ | ⟨stored, hlook, hlive⟩ := s.look_cases now key
  . rw [hlook, hlive]
    exact ⟨rfl, fun _ => rfl⟩
  . rw [hlook, hlive]
    exact ⟨rfl, sameLive_discard hlook⟩
  . rw [hlook, hlive]
    exact ⟨rfl, fun _ => rfl⟩

theorem reply_of_sameLive {use : StoreUse} (h : SameLive now s s') (hle : now ≤ use.time) :
    (use.reply s).1 = (use.reply s').1 ∧ SameLive use.time (use.reply s).2 (use.reply s').2 := by
  have hlive := h.mono hle
  cases use with
  | read later key =>
    obtain ⟨hresult, hstore⟩ := get_eq s later key
    obtain ⟨hresult', hstore'⟩ := get_eq s' later key
    have hsame : s.live? later key = s'.live? later key := hlive key
    simp only [StoreUse.reply]
    rw [hresult, hresult', hsame]
    exact ⟨rfl, fun other => (hstore other).trans ((hlive other).trans (hstore' other).symm)⟩
  | write later key entry ttl =>
    simp only [StoreUse.reply, Backend.set, MemoryStore.write]
    by_cases hzero : ttl.isZero = true
    . simp only [if_pos hzero]
      exact ⟨trivial, hlive⟩
    . simp only [if_neg hzero]
      cases later.add? ttl with
      | none => exact ⟨rfl, hlive⟩
      | some expiresAt => exact ⟨rfl, hlive.put key entry expiresAt⟩

instance : Backend.Discreet MemoryStore where
  look s now _ := .refl now s
  discard h := .of_relation reply_of_sameLive (sameLive_discard (Except.ok.inj h))
  set {s now key entry ttl fault} h := by
    simp only [Backend.set] at h ⊢
    split at h
    next => nomatch h
    next => exact .refl now s

end MemoryStore

namespace Interruptible

variable {σ : Type} [Backend σ] {now later : Time} {s s' : Interruptible σ}

theorem get_of_outage {reason : String} (houtage : s.outage.get = some reason) (now : Time) (key : String) :
    (Backend.get s now key).result = .error (.unavailable reason) ∧ (Backend.get s now key).store = s := by
  simp only [Backend.get, Backend.look, houtage]
  exact ⟨rfl, trivial⟩

theorem get_of_no_outage (houtage : s.outage.get = none) (now : Time) (key : String) :
    (Backend.get s now key).result = (Backend.get s.store now key).result
      ∧ (Backend.get s now key).store = { s with store := (Backend.get s.store now key).store } := by
  simp only [Backend.get, Backend.look, houtage]
  split <;> exact ⟨rfl, rfl⟩

/-- Whether two stores are under the same outage and would reply the same without it. -/
def SameBehind (now : Time) (s s' : Interruptible σ) : Prop :=
  s.outage = s'.outage ∧ SameReplies now s.store s'.store

theorem reply_of_sameBehind {use : StoreUse} (h : SameBehind now s s') (hle : now ≤ use.time) :
    (use.reply s).1 = (use.reply s').1 ∧ SameBehind use.time (use.reply s).2 (use.reply s').2 := by
  obtain ⟨houtage, hsame⟩ := h
  cases use with
  | read later key =>
    simp only [StoreUse.reply]
    cases hget : s.outage.get with
    | some reason =>
      obtain ⟨hresult, hstore⟩ := get_of_outage hget later key
      obtain ⟨hresult', hstore'⟩ := get_of_outage (s := s') (houtage ▸ hget) later key
      rw [hresult, hresult', hstore, hstore']
      exact ⟨rfl, houtage, hsame.mono hle⟩
    | none =>
      obtain ⟨hresult, hstore⟩ := get_of_no_outage hget later key
      obtain ⟨hresult', hstore'⟩ := get_of_no_outage (s := s') (houtage ▸ hget) later key
      obtain ⟨hreply, hnext⟩ := hsame.reply (.read later key) hle
      rw [hresult, hresult', hstore, hstore']
      exact ⟨hreply, houtage, hnext⟩
  | write later key entry ttl =>
    simp only [StoreUse.reply, Backend.set]
    cases hset : s.outage.set with
    | some reason =>
      have hset' : s'.outage.set = some reason := houtage ▸ hset
      simp only [hset']
      exact ⟨trivial, houtage, hsame.mono hle⟩
    | none =>
      have hset' : s'.outage.set = none := houtage ▸ hset
      obtain ⟨hreply, hnext⟩ := hsame.reply (.write later key entry ttl) hle
      simp only [hset']
      exact ⟨hreply, houtage, hnext⟩

variable [Backend.Discreet σ]

instance : Backend.Discreet (Interruptible σ) where
  look s now key := by
    apply SameReplies.of_relation reply_of_sameBehind
    simp only [Backend.look]
    cases s.outage.get with
    | some reason => exact ⟨rfl, .refl now s.store⟩
    | none => exact ⟨rfl, Backend.Discreet.look s.store now key⟩
  discard {s now key} h := by
    apply SameReplies.of_relation reply_of_sameBehind
    simp only [Backend.look] at h ⊢
    cases hget : s.outage.get with
    | some reason =>
      rw [hget] at h
      nomatch h
    | none =>
      rw [hget] at h
      exact ⟨rfl, Backend.Discreet.discard h⟩
  set {s now key entry ttl fault} h := by
    apply SameReplies.of_relation reply_of_sameBehind
    simp only [Backend.set] at h ⊢
    cases hset : s.outage.set with
    | some reason => exact ⟨rfl, .refl now s.store⟩
    | none =>
      rw [hset] at h
      exact ⟨rfl, Backend.Discreet.set h⟩

end Interruptible

namespace RedisStore

instance : Backend.Discreet RedisStore where
  look s now key := by
    rw [look_store]
    exact .refl now s
  discard {s now key} _ := by
    rw [look_store]
    exact .refl now s
  set {s now key entry ttl fault} h := by
    simp only [Backend.set] at h ⊢
    split at h
    next => nomatch h
    next hzero =>
      rw [if_neg hzero]
      cases hencode : Codec.encode entry with
      | error fault => exact .refl now s
      | ok bytes =>
        rw [hencode] at h
        simp only [send, Server.execute] at h ⊢
        cases houtage : s.server.outage.set with
        | some line => exact .refl now s
        | none =>
          rw [houtage] at h
          nomatch h

end RedisStore

end ResponseCache
