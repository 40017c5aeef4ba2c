import ResponseCache.Proofs.Codec.RoundTrip
import ResponseCache.Store.Memory
import ResponseCache.Store.Redis

/-!
This module contains what the stores hold, and that it comes from writes alone: looks and discards put
nothing into a store, and a write puts there what its format keeps of the entry, or nothing.
-/

namespace ResponseCache

/-- A store of which is known what it holds. -/
class Backend.Faithful (σ : Type) [Backend σ] where
  /-- Whether there is an entry under a key, be it expired or not. -/
  Holds : σ → String → Entry → Prop
  kept : Entry → Entry
  kept_eq : ∀ e, kept e = { e with lastValid := (kept e).lastValid }
  holds_of_look : ∀ {s : σ} {now : Time} {key : String} {entry : Entry},
    (look s now key).result = .ok (.live entry) → Holds s key entry
  holds_of_holds_look : ∀ {s : σ} {now : Time} {key other : String} {entry : Entry},
    Holds (look s now key).store other entry → Holds s other entry
  holds_of_holds_discard : ∀ {s : σ} {key other : String} {entry : Entry},
    Holds (discard s key) other entry → Holds s other entry
  holds_of_holds_set : ∀ {s : σ} {now : Time} {key other : String} {written entry : Entry}
    {ttl : Duration}, written.Fits → Holds (set s now key written ttl).store other entry →
      Holds s other entry ∨ ((set s now key written ttl).result ≠ .error .overflow
        ∧ other = key ∧ entry = kept written)

namespace Table

variable {α : Type}

theorem get?_erase (t : Table α) (key other : String) :
    (t.erase other).get? key = t.get? key ∨ (t.erase other).get? key = none := by
  by_cases h : key = other
  . exact .inr (h ▸ t.get?_erase_self key)
  . exact .inl (t.get?_erase_of_ne h)

theorem get?_eq_some_of_erase {t : Table α} {key other : String} {value : α}
    (h : (t.erase key).get? other = some value) : t.get? other = some value := by
  by_cases heq : other = key
  . rw [heq, get?_erase_self] at h
    nomatch h
  . rw [get?_erase_of_ne t heq] at h
    exact h

theorem get?_eq_some_of_insert {t : Table α} {key other : String} {new value : α}
    (h : (t.insert key new).get? other = some value) :
    t.get? other = some value ∨ (other = key ∧ value = new) := by
  by_cases heq : other = key
  . rw [heq, get?_insert_self] at h
    exact .inr ⟨heq, (Option.some.inj h).symm⟩
  . rw [get?_insert_of_ne t new heq] at h
    exact .inl h

end Table

namespace MemoryStore

/-- Whether there is an entry under a key, be it expired or not. -/
def Holds (s : MemoryStore) (key : String) (entry : Entry) : Prop :=
  ∃ expiresAt, s.table.get? key = some ⟨entry, expiresAt⟩

theorem not_holds_empty (key : String) (entry : Entry) : ¬empty.Holds key entry := by
  intro h
  obtain ⟨expiresAt, hget⟩ := h
  nomatch hget

theorem holds_of_look {s : MemoryStore} {now : Time} {key : String} {entry : Entry}
    (h : s.look now key = .live entry) : s.Holds key entry := by
  unfold look at h
  split at h
  next => nomatch h
  next stored hstored =>
    split at h
    next => nomatch h
    next =>
      obtain ⟨found, expiresAt⟩ := stored
      obtain rfl := Finding.live.inj h
      exact ⟨expiresAt, hstored⟩

theorem holds_of_holds_discard {s : MemoryStore} {key other : String} {entry : Entry}
    (h : (s.discard key).Holds other entry) : s.Holds other entry := by
  obtain ⟨expiresAt, hget⟩ := h
  exact ⟨expiresAt, Table.get?_eq_some_of_erase hget⟩

theorem holds_of_holds_put {s : MemoryStore} {key other : String} {written entry : Entry}
    {expiresAt : Time} (h : (s.put key written expiresAt).Holds other entry) :
    s.Holds other entry ∨ (other = key ∧ entry = written) := by
  obtain ⟨expiry, hget⟩ := h
  cases Table.get?_eq_some_of_insert hget with
  | inl hget => exact .inl ⟨expiry, hget⟩
  | inr heq => exact .inr ⟨heq.1, congrArg Expiring.entry heq.2⟩

theorem holds_of_holds_write {s s' : MemoryStore} {now : Time} {key other : String}
    {written entry : Entry} {ttl : Duration} (hwrite : s.write now key written ttl = .ok s')
    (h : s'.Holds other entry) : s.Holds other entry ∨ (other = key ∧ entry = written) := by
  unfold write at hwrite
  split at hwrite
  next =>
    obtain rfl := Except.ok.inj hwrite
    exact .inl h
  next =>
    split at hwrite
    next expiresAt hexpires =>
      obtain rfl := Except.ok.inj hwrite
      exact holds_of_holds_put h
    next => nomatch hwrite

instance : Backend.Faithful MemoryStore where
  Holds := Holds
  kept := id
  kept_eq _ := rfl
  holds_of_look h := holds_of_look (Except.ok.inj h)
  holds_of_holds_look h := h
  holds_of_holds_discard h := holds_of_holds_discard h
  holds_of_holds_set {s now key other written entry ttl} _ h := by
    simp only [Backend.set] at h ⊢
    cases hwrite : s.write now key written ttl with
    | ok s' =>
      rw [hwrite] at h
      cases holds_of_holds_write hwrite h with
      | inl hold => exact .inl hold
      | inr hnew => exact .inr ⟨nofun, hnew⟩
    | error fault =>
      rw [hwrite] at h
      exact .inl h

end MemoryStore

/-- A store that can be made to refuse, and then may do all the same what it refuses. -/
structure Unreliable (σ : Type) where
  store : σ
  outage : Outage
  /-- Whether a write is carried out that is refused. -/
  obeys : Bool

namespace Unreliable

variable {σ : Type} [Backend σ]

def working (store : σ) : Unreliable σ :=
  ⟨store, .none, false⟩

instance : Backend (Unreliable σ) where
  look s now key :=
    match s.outage.get with
    | some reason => ⟨.error (.unavailable reason), s, []⟩
    | none =>
      let access := Backend.look s.store now key
      ⟨access.result, { s with store := access.store }, access.commands⟩
  discard s key := { s with store := Backend.discard s.store key }
  set s now key entry ttl :=
    let access := Backend.set s.store now key entry ttl
    match s.outage.set with
    | some reason =>
      ⟨.error (.error (.unavailable reason)),
        if s.obeys then { s with store := access.store } else s, access.commands⟩
    | none => ⟨access.result, { s with store := access.store }, access.commands⟩

variable [Backend.Faithful σ]

instance : Backend.Faithful (Unreliable σ) where
  Holds s := Backend.Faithful.Holds s.store
  kept := Backend.Faithful.kept σ
  kept_eq := Backend.Faithful.kept_eq
  holds_of_look {s now key entry} h := by
    simp only [Backend.look] at h
    split at h
    next => nomatch h
    next => exact Backend.Faithful.holds_of_look h
  holds_of_holds_look {s now key other entry} h := by
    simp only [Backend.look] at h
    split at h
    next => exact h
    next => exact Backend.Faithful.holds_of_holds_look h
  holds_of_holds_discard h := Backend.Faithful.holds_of_holds_discard h
  holds_of_holds_set {s now key other written entry ttl} hfits h := by
    simp only [Backend.set] at h ⊢
    split at h
    next reason _ =>
      -- Whether the write was carried out or not, an error is reported of it.
      split at h
      next =>
        cases Backend.Faithful.holds_of_holds_set hfits h with
        | inl hold => exact .inl hold
        | inr hnew => exact .inr ⟨nofun, hnew.2⟩
      next => exact .inl h
    next => exact Backend.Faithful.holds_of_holds_set hfits h

end Unreliable

namespace RedisStore

/-- Whether the server has the binary format of an entry under a key of the namespace. -/
def Holds (s : RedisStore) (key : String) (entry : Entry) : Prop :=
  ∃ bytes, s.server.table.get? (serverKey s.keyspace key) = some bytes
    ∧ Codec.decode bytes = .ok entry

theorem not_holds_empty (keyspace key : String) (entry : Entry) :
    ¬(empty keyspace).Holds key entry := by
  intro h
  obtain ⟨bytes, hget, -⟩ := h
  nomatch hget

theorem serverKey_inj {keyspace key other : String}
    (h : serverKey keyspace key = serverKey keyspace other) : key = other := by
  unfold serverKey at h
  have htext := congrArg String.toList h
  simp only [String.toList_append] at htext
  exact String.toList_inj.1 (List.append_cancel_left htext)

theorem execute_get (s : Server) (key : String) :
    s.execute (.get key)
      = (match s.outage.get, s.table.get? key with
        | some line, _ => .error (.ofLine line)
        | none, some bytes => .value bytes
        | none, none => .absent, s) := by
  simp only [Server.execute]
  cases s.outage.get with
  | some line => rfl
  | none => cases s.table.get? key <;> rfl

theorem look_store (s : RedisStore) (now : Time) (key : String) :
    (Backend.look s now key).store = s := by
  simp only [Backend.look, send, execute_get]

theorem holds_of_look {s : RedisStore} {now : Time} {key : String} {entry : Entry}
    (h : (Backend.look s now key).result = .ok (.live entry)) : s.Holds key entry := by
  simp only [Backend.look, send, execute_get] at h
  cases houtage : s.server.outage.get with
  | some line =>
    rw [houtage] at h
    nomatch h
  | none =>
    cases hget : s.server.table.get? (serverKey s.keyspace key) with
    | none =>
      rw [houtage, hget] at h
      nomatch h
    | some bytes =>
      rw [houtage, hget] at h
      simp only [readEntry] at h
      cases hdecode : Codec.decode bytes with
      | error fault =>
        rw [hdecode] at h
        nomatch h
      | ok decoded =>
        rw [hdecode] at h
        obtain rfl := Finding.live.inj (Except.ok.inj h)
        exact ⟨bytes, hget, hdecode⟩

theorem readWritten_ok : readWritten .ok ≠ .error .overflow := by
  intro h
  nomatch h

theorem holds_of_holds_set {s : RedisStore} {now : Time} {key other : String}
    {written entry : Entry} {ttl : Duration} (hfits : written.Fits)
    (h : (Backend.set s now key written ttl).store.Holds other entry) :
    s.Holds other entry ∨ ((Backend.set s now key written ttl).result ≠ .error .overflow
      ∧ other = key ∧ entry = Codec.held written) := by
  simp only [Backend.set] at h ⊢
  split at h
  next => exact .inl h
  next hzero =>
    rw [if_neg hzero]
    cases hencode : Codec.encode written with
    | error fault =>
      rw [hencode] at h
      exact .inl h
    | ok bytes =>
      rw [hencode] at h
      simp only [send, Server.execute] at h ⊢
      cases houtage : s.server.outage.set with
      | some line =>
        rw [houtage] at h
        exact .inl h
      | none =>
        rw [houtage] at h
        obtain ⟨found, hget, hdecode⟩ := h
        cases Table.get?_eq_some_of_insert hget with
        | inl hold => exact .inl ⟨found, hold, hdecode⟩
        | inr hnew =>
          obtain ⟨hkey, rfl⟩ := hnew
          rw [Codec.decode_encode hfits hencode] at hdecode
          exact .inr ⟨readWritten_ok, serverKey_inj hkey, (Except.ok.inj hdecode).symm⟩

instance : Backend.Faithful RedisStore where
  Holds := Holds
  kept := Codec.held
  kept_eq _ := rfl
  holds_of_look h := holds_of_look h
  holds_of_holds_look h := by
    rw [look_store] at h
    exact h
  holds_of_holds_discard h := h
  holds_of_holds_set hfits h := holds_of_holds_set hfits h

end RedisStore

end ResponseCache
