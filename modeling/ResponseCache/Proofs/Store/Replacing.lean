import Mathlib.Logic.Relation
import ResponseCache.Proofs.Store.Legible

/-!
This module contains what a write does to the entries that were under its key before. A write for some time
puts its entry in the place of all of them, whatever happens to the store later without another write there.
A write for no time at all also succeeds, but it leaves the earlier entry where it is.
-/

namespace ResponseCache

open Backend (Legible)
open Relation (ReflTransGen)

section

variable {σ α : Type} [Backend σ]

/-- What may happen to a store while nothing is written under a key. A read is a look, or a look and a discard. -/
inductive Backend.Spares (drift : σ → σ → Prop) (key : String) : σ → σ → Prop where
  | looked (s : σ) (now : Time) (other : String) : Spares drift key s (look s now other).store
  | discarded (s : σ) (other : String) : Spares drift key s (discard s other)
  | wrote {other : String} (hne : other ≠ key) (s : σ) (now : Time) (entry : Entry) (ttl : Duration) :
      Spares drift key s (set s now other entry ttl).store
  | drifted {s s' : σ} (h : drift s s') : Spares drift key s s'

/--
Whether every read under a key that is not refused finds a given entry or nothing, as long as nothing is
written there.
-/
def Backend.HasOnly [Legible σ] (drift : σ → σ → Prop) (key : String) (entry : Entry) (s : σ) : Prop :=
  ∀ s', ReflTransGen (Spares drift key) s s' → Legible.Works s' → ∀ later,
    (get s' later key).result = .ok none ∨ (get s' later key).result = .ok (some entry)

/-- What stays or vanishes with every step has stayed or vanished at the end of a run. -/
theorem Backend.content_of_run {drift : σ → σ → Prop} {key : String} {content : σ → Option α}
    (hstep : ∀ {s s'}, Spares drift key s s' → content s' = content s ∨ content s' = none) {s s' : σ}
    (hrun : ReflTransGen (Spares drift key) s s') : content s' = content s ∨ content s' = none := by
  induction hrun with
  | refl => exact .inl rfl
  | tail _ hlast ih =>
    cases hstep hlast with
    | inl hsame =>
      rw [hsame]
      exact ih
    | inr hnone => exact .inr hnone

end

namespace MemoryStore

open Backend (Spares HasOnly content_of_run)

variable {s s' : MemoryStore} {now : Time} {key : String} {entry : Entry} {ttl : Duration}

def Evicts (s s' : MemoryStore) : Prop :=
  ∃ key, s' = s.discard key

theorem content_of_spares (h : Spares Evicts key s s') :
    s'.table.get? key = s.table.get? key ∨ s'.table.get? key = none := by
  cases h with
  | looked => exact .inl rfl
  | discarded _ other => exact s.table.get?_erase key other
  | @wrote other hne _ now entry ttl =>
    left
    simp only [Backend.set]
    obtain ⟨-, hwrite⟩ | ⟨-, expiresAt, -, hwrite⟩ | hwrite := s.write_cases now other entry ttl
    . rw [hwrite]
    . rw [hwrite]
      exact Table.get?_insert_of_ne _ _ hne.symm
    . rw [hwrite]
  | drifted h =>
    obtain ⟨other, rfl⟩ := h
    exact s.table.get?_erase key other

theorem get_result (s : MemoryStore) (now : Time) (key : String) :
    (Backend.get s now key).result = .ok (Finding.entry? (s.look now key)) := by
  simp only [Backend.get, Backend.look]
  cases s.look now key <;> rfl

theorem find_of_content {stored : Expiring} (h : s.table.get? key = some stored ∨ s.table.get? key = none)
    (now : Time) :
    Finding.entry? (s.look now key) = none ∨ Finding.entry? (s.look now key) = some stored.entry := by
  unfold look
  cases h with
  | inl hget =>
    rw [hget]
    dsimp only
    split
    next => exact .inl rfl
    next => exact .inr rfl
  | inr hnone =>
    rw [hnone]
    exact .inl rfl

/-- An entry that was put under a key is all that is found there from then on. -/
theorem hasOnly_put (s : MemoryStore) (key : String) (entry : Entry) (expiresAt : Time) :
    HasOnly Evicts key entry (s.put key entry expiresAt) := by
  intro s' hrun _ later
  have hcontent := content_of_run content_of_spares hrun
  have hput : (s.put key entry expiresAt).table.get? key = some ⟨entry, expiresAt⟩ :=
    s.table.get?_insert_self key _
  rw [hput] at hcontent
  rw [get_result]
  exact (find_of_content hcontent later).imp (congrArg _) (congrArg _)

theorem set_of_isZero (hzero : ttl.isZero = true) : Backend.set s now key entry ttl = ⟨.ok (), s, []⟩ := by
  simp only [Backend.set, write, hzero]
  rfl

theorem hasOnly_set_iff (hresult : (Backend.set s now key entry ttl).result = .ok ()) :
    HasOnly Evicts key entry (Backend.set s now key entry ttl).store
      ↔ ttl.isZero = false ∨ HasOnly Evicts key entry s := by
  cases hzero : ttl.isZero with
  | true => simp [set_of_isZero hzero]
  | false =>
    simp only [Backend.set] at hresult ⊢
    obtain ⟨htrue, -⟩ | ⟨-, expiresAt, -, hwrite⟩ | hwrite := s.write_cases now key entry ttl
    . exact absurd (hzero.symm.trans htrue) Bool.false_ne_true
    . rw [hwrite]
      simp [hasOnly_put]
    . rw [hwrite] at hresult
      cases hresult

end MemoryStore

namespace RedisStore

open Backend (Spares HasOnly content_of_run)

variable {s s' : RedisStore} {now : Time} {key : String} {entry : Entry} {ttl : Duration}

/-- What happens on a server without the store, except that another value is put under a key. -/
inductive Drifts (key : String) (s : RedisStore) : RedisStore → Prop where
  /-- The server begins to refuse commands, or ends it. -/
  | interrupted (outage : Outage) : Drifts key s (s.interrupt outage)
  | expired (other : String) :
      Drifts key s { s with server := { s.server with table := s.server.table.erase other } }
  | written {other : String} (hne : other ≠ serverKey s.keyspace key) (bytes : Bytes) :
      Drifts key s (s.putRaw other bytes)

theorem content_of_spares (h : Spares (Drifts key) key s s') :
    s'.stored? key = s.stored? key ∨ s'.stored? key = none := by
  cases h with
  | looked =>
    rw [look_store]
    exact .inl rfl
  | discarded => exact .inl rfl
  | @wrote other hne _ now entry ttl =>
    left
    obtain ⟨hstore, -⟩ | ⟨bytes, -, hstore, -⟩ := s.set_cases now other entry ttl
    . rw [hstore]
    . rw [hstore, stored?_putRaw, if_neg hne]
  | drifted h =>
    unfold stored?
    cases h with
    | interrupted => exact .inl rfl
    | expired other =>
      exact (s.server.table.get?_erase (serverKey s.keyspace key) other).imp
        (congrArg (Option.map _)) (congrArg (Option.map _))
    | written hne bytes => exact .inl (congrArg (Option.map _) (Table.get?_insert_of_ne _ _ hne.symm))

theorem get_result_of_stored? {found : Option Entry} (hworks : s.server.outage.get = none)
    (hstored : s.stored? key = found.map .ok) (now : Time) : (Backend.get s now key).result = .ok found := by
  have hlook : (Backend.look s now key).result = .ok (found.elim .absent .live) :=
    look_of_stored? hworks hstored
  unfold Backend.get
  simp only [hlook]
  cases found <;> rfl

/-- An entry that is under a key is all that is found there from then on. -/
theorem hasOnly_of_stored? (hstored : s.stored? key = some (.ok entry)) :
    HasOnly (Drifts key) key entry s := by
  intro s' hrun hworks later
  cases content_of_run content_of_spares hrun with
  | inl hsame =>
    have hfound : s'.stored? key = (some entry).map .ok := hsame.trans hstored
    exact .inr (get_result_of_stored? hworks hfound later)
  | inr hnone =>
    have hfound : s'.stored? key = Option.map .ok none := hnone
    exact .inl (get_result_of_stored? hworks hfound later)

theorem set_of_isZero (hzero : ttl.isZero = true) : Backend.set s now key entry ttl = ⟨.ok (), s, []⟩ := by
  simp only [Backend.set, hzero]
  rfl

theorem hasOnly_set_iff (hfits : entry.Fits) (hresult : (Backend.set s now key entry ttl).result = .ok ()) :
    HasOnly (Drifts key) key (Codec.held entry) (Backend.set s now key entry ttl).store
      ↔ ttl.isZero = false ∨ HasOnly (Drifts key) key (Codec.held entry) s := by
  cases hzero : ttl.isZero with
  | true => simp [set_of_isZero hzero]
  | false =>
    obtain ⟨-, htrue | ⟨fault, hfails⟩⟩ | ⟨bytes, hencode, hstore, -⟩ := s.set_cases now key entry ttl
    . exact absurd (hzero.symm.trans htrue) Bool.false_ne_true
    . cases hresult.symm.trans hfails
    . have hheld : (s.putRaw (serverKey s.keyspace key) bytes).stored? key = some (.ok (Codec.held entry)) := by
        rw [stored?_putRaw, if_pos rfl, Codec.decode_encode hfits hencode]
      rw [hstore]
      simp [hasOnly_of_stored? hheld]

end RedisStore

section

open Backend (HasOnly)

/--
After a write that succeeds, all that can be found under its key is its own entry, as the store holds it,
exactly if the write is for some time, or else if nothing but this entry could be found there before.
-/
theorem hasOnly_iff_of_set_ok {now : Time} {key : String} {entry : Entry} {ttl : Duration} :
    (∀ {s : MemoryStore}, (Backend.set s now key entry ttl).result = .ok () →
        (HasOnly MemoryStore.Evicts key entry (Backend.set s now key entry ttl).store
          ↔ ttl.isZero = false ∨ HasOnly MemoryStore.Evicts key entry s))
      ∧ (entry.Fits → ∀ {s : RedisStore}, (Backend.set s now key entry ttl).result = .ok () →
        (HasOnly (RedisStore.Drifts key) key (Codec.held entry) (Backend.set s now key entry ttl).store
          ↔ ttl.isZero = false ∨ HasOnly (RedisStore.Drifts key) key (Codec.held entry) s)) :=
  ⟨MemoryStore.hasOnly_set_iff, fun hfits => RedisStore.hasOnly_set_iff hfits⟩

def entryOfBody (body : Bytes) : Entry where
  status := .ok
  headers := []
  body := body
  lastValid := .epoch
  etag := "\"a\""

def storeOfFirst {σ : Type} [Backend σ] (empty : σ) : σ :=
  (Backend.set empty .epoch "k" (entryOfBody [1]) ⟨60 * nanosPerSec, by decide⟩).store

theorem fits_entryOfBody_two : (entryOfBody [2]).Fits :=
  ⟨by decide, by decide, by decide, by decide, by decide⟩

/-- A second write for a minute puts its entry in the place of the first one. -/
theorem hasOnly_second :
    (entryOfBody [2]).Fits
      ∧ (Backend.set (storeOfFirst MemoryStore.empty) .epoch "k" (entryOfBody [2])
          ⟨60 * nanosPerSec, by decide⟩).result = .ok ()
      ∧ HasOnly MemoryStore.Evicts "k" (entryOfBody [2])
        (Backend.set (storeOfFirst MemoryStore.empty) .epoch "k" (entryOfBody [2])
          ⟨60 * nanosPerSec, by decide⟩).store
      ∧ (Backend.set (storeOfFirst (RedisStore.empty "n")) .epoch "k" (entryOfBody [2])
          ⟨60 * nanosPerSec, by decide⟩).result = .ok ()
      ∧ HasOnly (RedisStore.Drifts "k") "k" (Codec.held (entryOfBody [2]))
        (Backend.set (storeOfFirst (RedisStore.empty "n")) .epoch "k" (entryOfBody [2])
          ⟨60 * nanosPerSec, by decide⟩).store := by
  have hmemory : (Backend.set (storeOfFirst MemoryStore.empty) .epoch "k" (entryOfBody [2])
      ⟨60 * nanosPerSec, by decide⟩).result = .ok () := by decide +kernel
  have hserver : (Backend.set (storeOfFirst (RedisStore.empty "n")) .epoch "k" (entryOfBody [2])
      ⟨60 * nanosPerSec, by decide⟩).result = .ok () := by decide +kernel
  exact ⟨fits_entryOfBody_two,
    hmemory, (hasOnly_iff_of_set_ok.1 hmemory).2 (.inl rfl),
    hserver, (hasOnly_iff_of_set_ok.2 fits_entryOfBody_two hserver).2 (.inl rfl)⟩

/-- After a second write for no time, the entry of the first one is found. -/
theorem get_first_of_set_zero :
    (Backend.set (storeOfFirst MemoryStore.empty) .epoch "k" (entryOfBody [2]) .zero).result = .ok ()
      ∧ (Backend.get (Backend.set (storeOfFirst MemoryStore.empty) .epoch "k" (entryOfBody [2]) .zero).store
          .epoch "k").result = .ok (some (entryOfBody [1]))
      ∧ (Backend.set (storeOfFirst (RedisStore.empty "n")) .epoch "k" (entryOfBody [2]) .zero).result = .ok ()
      ∧ (Backend.get
          (Backend.set (storeOfFirst (RedisStore.empty "n")) .epoch "k" (entryOfBody [2]) .zero).store
          .epoch "k").result = .ok (some (entryOfBody [1]))
      ∧ entryOfBody [1] ≠ entryOfBody [2] ∧ entryOfBody [1] ≠ Codec.held (entryOfBody [2]) := by
  decide +kernel

end

end ResponseCache
