import ResponseCache.Proofs.Store.LastWritten

/-!
This module contains stores of which it can be told what is under a key, and until when. A look finds just
that, and it stays until something else is written under the key or discarded there.
-/

namespace ResponseCache

/-- A store of which it can be told what is under a key. -/
class Backend.Legible (σ : Type) [Backend σ] where
  /-- The entry under a key, with the time from which on it counts as absent, if there is one. -/
  under? : σ → String → Option (Entry × Option Time)
  /-- Whether reads are not refused. -/
  Works : σ → Prop
  /-- Whether the format of entries holds a time as it is. -/
  Keeps : Time → Prop
  look_store : ∀ (s : σ) (now : Time) (key : String), (look s now key).store = s
  look_result : ∀ {s : σ} {now : Time} {key : String} {entry : Entry} {expiry : Option Time}, Works s →
    under? s key = some (entry, expiry) → (∀ time ∈ expiry, ¬time ≤ now) →
    (look s now key).result = .ok (.live entry)
  under?_discard : ∀ (s : σ) {key other : String}, other ≠ key → under? (discard s key) other = under? s other
  works_discard : ∀ {s : σ} (key : String), Works s → Works (discard s key)
  under?_set : ∀ {s : σ} {now : Time} {key other : String} {entry : Entry} {ttl : Duration},
    other ≠ key ∨ (set s now key entry ttl).result ≠ .ok () →
    under? (set s now key entry ttl).store other = under? s other
  works_set : ∀ {s : σ} (now : Time) (key : String) (entry : Entry) (ttl : Duration), Works s →
    Works (set s now key entry ttl).store
  exists_under?_set : ∀ {s : σ} {now : Time} {key : String} {entry : Entry} {ttl : Duration},
    ttl.isZero = false → entry.Fits → Keeps entry.lastValid → (set s now key entry ttl).result = .ok () →
    ∃ expiry, under? (set s now key entry ttl).store key = some (entry, expiry)
      ∧ ∀ time ∈ expiry, now.add? ttl = some time

namespace MemoryStore

variable {s : MemoryStore} {now : Time} {key other : String} {entry : Entry} {ttl : Duration}

def under? (s : MemoryStore) (key : String) : Option (Entry × Option Time) :=
  (s.table.get? key).map fun stored => (stored.entry, some stored.expiresAt)

theorem look_of_under? {expiry : Option Time} (hunder : s.under? key = some (entry, expiry))
    (hlives : ∀ time ∈ expiry, ¬time ≤ now) : s.look now key = .live entry := by
  unfold under? at hunder
  obtain ⟨stored, hget, heq⟩ := Option.map_eq_some_iff.1 hunder
  obtain ⟨rfl, rfl⟩ := Prod.mk.inj heq
  unfold look
  rw [hget]
  exact if_neg (hlives _ rfl)

theorem write_cases (s : MemoryStore) (now : Time) (key : String) (entry : Entry) (ttl : Duration) :
    (ttl.isZero = true ∧ s.write now key entry ttl = .ok s)
      ∨ (ttl.isZero = false ∧ ∃ expiresAt, now.add? ttl = some expiresAt
        ∧ s.write now key entry ttl = .ok (s.put key entry expiresAt))
      ∨ s.write now key entry ttl = .error .overflow := by
  unfold write
  cases hzero : ttl.isZero with
  | true => exact .inl ⟨rfl, rfl⟩
  | false =>
    cases now.add? ttl with
    | some expiresAt => exact .inr (.inl ⟨rfl, expiresAt, rfl, rfl⟩)
    | none => exact .inr (.inr rfl)

theorem under?_put_self (s : MemoryStore) (key : String) (entry : Entry) (expiresAt : Time) :
    (s.put key entry expiresAt).under? key = some (entry, some expiresAt) := by
  unfold under? put
  rw [Table.get?_insert_self]
  rfl

theorem under?_put_of_ne (s : MemoryStore) (hne : other ≠ key) (entry : Entry) (expiresAt : Time) :
    (s.put key entry expiresAt).under? other = s.under? other := by
  unfold under? put
  rw [Table.get?_insert_of_ne _ _ hne]

theorem under?_discard (s : MemoryStore) (hne : other ≠ key) :
    (Backend.discard s key).under? other = s.under? other := by
  simp only [Backend.discard, under?, discard]
  rw [Table.get?_erase_of_ne _ hne]

theorem under?_set (h : other ≠ key ∨ (Backend.set s now key entry ttl).result ≠ .ok ()) :
    (Backend.set s now key entry ttl).store.under? other = s.under? other := by
  simp only [Backend.set] at h ⊢
  obtain ⟨-, hwrite⟩ | ⟨-, expiresAt, -, hwrite⟩ | hwrite := s.write_cases now key entry ttl
  . rw [hwrite]
  . rw [hwrite] at h ⊢
    exact under?_put_of_ne s (h.resolve_right (not_not_intro rfl)) entry expiresAt
  . rw [hwrite]

theorem exists_under?_set (hlasts : ttl.isZero = false)
    (hresult : (Backend.set s now key entry ttl).result = .ok ()) :
    ∃ expiry, (Backend.set s now key entry ttl).store.under? key = some (entry, expiry)
      ∧ ∀ time ∈ expiry, now.add? ttl = some time := by
  simp only [Backend.set] at hresult ⊢
  obtain ⟨hzero, -⟩ | ⟨-, expiresAt, hexpires, hwrite⟩ | hwrite := s.write_cases now key entry ttl
  . exact absurd (hlasts.symm.trans hzero) Bool.false_ne_true
  . rw [hwrite]
    refine ⟨some expiresAt, under?_put_self s key entry expiresAt, ?_⟩
    intro time htime
    obtain rfl := Option.some.inj htime
    exact hexpires
  . rw [hwrite] at hresult
    cases hresult

instance : Backend.Legible MemoryStore where
  under? := under?
  Works _ := True
  Keeps _ := True
  look_store _ _ _ := rfl
  look_result _ hunder hlives := congrArg Except.ok (look_of_under? hunder hlives)
  under?_discard s _ _ := under?_discard s
  works_discard _ _ := trivial
  under?_set := under?_set
  works_set _ _ _ _ _ := trivial
  exists_under?_set hlasts _ _ := exists_under?_set hlasts

end MemoryStore

namespace RedisStore

variable {s : RedisStore} {now : Time} {key other : String} {entry : Entry} {ttl : Duration}

def under? (s : RedisStore) (key : String) : Option (Entry × Option Time) :=
  match s.stored? key with
  | some (.ok entry) => some (entry, none)
  | _ => none

theorem stored?_of_under? {expiry : Option Time} (hunder : s.under? key = some (entry, expiry)) :
    s.stored? key = some (.ok entry) := by
  unfold under? at hunder
  split at hunder
  next found hstored =>
    obtain ⟨rfl, -⟩ := Prod.mk.inj (Option.some.inj hunder)
    exact hstored
  next => nomatch hunder

theorem look_of_under? {expiry : Option Time} (hworks : s.server.outage.get = none)
    (hunder : s.under? key = some (entry, expiry)) : (Backend.look s now key).result = .ok (.live entry) := by
  have hstored : s.stored? key = (some entry).map .ok := stored?_of_under? hunder
  exact look_of_stored? hworks hstored

/-- A write puts bytes under its key, or leaves the server as it is. -/
theorem set_cases (s : RedisStore) (now : Time) (key : String) (entry : Entry) (ttl : Duration) :
    ((Backend.set s now key entry ttl).store = s
        ∧ (ttl.isZero = true ∨ ∃ fault, (Backend.set s now key entry ttl).result = .error fault))
      ∨ ∃ bytes, Codec.encode entry = .ok bytes
        ∧ (Backend.set s now key entry ttl).store = s.putRaw (serverKey s.keyspace key) bytes
        ∧ (Backend.set s now key entry ttl).result = .ok () := by
  simp only [Backend.set]
  cases hzero : ttl.isZero with
  | true => exact .inl ⟨rfl, .inl rfl⟩
  | false =>
    cases hencode : Codec.encode entry with
    | error fault => exact .inl ⟨rfl, .inr ⟨_, rfl⟩⟩
    | ok bytes =>
      simp only [send, Server.execute]
      cases s.server.outage.set with
      | some line => exact .inl ⟨rfl, .inr ⟨_, rfl⟩⟩
      | none => exact .inr ⟨bytes, rfl, rfl, rfl⟩

theorem under?_set (h : other ≠ key ∨ (Backend.set s now key entry ttl).result ≠ .ok ()) :
    (Backend.set s now key entry ttl).store.under? other = s.under? other := by
  obtain ⟨hstore, -⟩ | ⟨bytes, -, hstore, hresult⟩ := s.set_cases now key entry ttl
  . rw [hstore]
  . have hne := h.resolve_right (not_not_intro hresult)
    rw [hstore]
    unfold under?
    rw [stored?_putRaw, if_neg hne.symm]

theorem outage_set (s : RedisStore) (now : Time) (key : String) (entry : Entry) (ttl : Duration) :
    (Backend.set s now key entry ttl).store.server.outage = s.server.outage := by
  obtain ⟨hstore, -⟩ | ⟨bytes, -, hstore, -⟩ := s.set_cases now key entry ttl
  . rw [hstore]
  . rw [hstore]
    rfl

theorem under?_set_self (hlasts : ttl.isZero = false) (hfits : entry.Fits)
    (hkeeps : entry.lastValid ≤ Codec.latest) (hresult : (Backend.set s now key entry ttl).result = .ok ()) :
    (Backend.set s now key entry ttl).store.under? key = some (entry, none) := by
  obtain ⟨-, hzero | ⟨fault, hfails⟩⟩ | ⟨bytes, hencode, hstore, -⟩ := s.set_cases now key entry ttl
  . exact absurd (hlasts.symm.trans hzero) Bool.false_ne_true
  . cases hresult.symm.trans hfails
  . have hheld : Codec.held entry = entry := by
      unfold Codec.held
      rw [if_pos hkeeps]
    rw [hstore]
    unfold under?
    rw [stored?_putRaw, if_pos rfl, Codec.decode_encode hfits hencode, hheld]

instance : Backend.Legible RedisStore where
  under? := under?
  Works s := s.server.outage.get = none
  Keeps time := time ≤ Codec.latest
  look_store := look_store
  look_result hworks hunder _ := look_of_under? hworks hunder
  under?_discard _ _ _ _ := rfl
  works_discard _ hworks := hworks
  under?_set := under?_set
  works_set {s} now key entry ttl hworks := (congrArg Outage.get (s.outage_set now key entry ttl)).trans hworks
  exists_under?_set hlasts hfits hkeeps hresult :=
    ⟨none, under?_set_self hlasts hfits hkeeps hresult,
      fun time htime => absurd htime (Option.not_mem_none time)⟩

end RedisStore

end ResponseCache
