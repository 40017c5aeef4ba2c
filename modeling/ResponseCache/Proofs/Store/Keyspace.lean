import ResponseCache.Proofs.Store.LastWritten

/-!
This module contains stores that share a server, each with a namespace of its own. What is read through one
of them was written through it, unless one of the namespaces goes on after a colon where the other one ends:
then the keys of the one are also keys of the other.
-/

namespace ResponseCache

inductive ServerEvent where
  /-- It is read or written through a namespace. -/
  | use (keyspace : String) (u : ServerUse)
  /-- It lets the value of a key expire. -/
  | expire (key : String)

namespace ServerEvent

/-- Whether an event comes through one of two namespaces, if through any, with an entry that can be. -/
def Through (a b : String) : ServerEvent → Prop
  | use keyspace u =>
    (keyspace = a ∨ keyspace = b) ∧ ∀ {now key entry ttl}, u.use = .write now key entry ttl → entry.Fits
  | expire _ => True

theorem Through.symm {a b : String} {event : ServerEvent} (h : event.Through a b) : event.Through b a := by
  cases event with
  | use keyspace u => exact ⟨h.1.symm, h.2⟩
  | expire key => trivial

/-- Whether an entry, as the format holds it, was written under a key through a namespace. -/
def Writes (keyspace key : String) (entry : Entry) : ServerEvent → Prop
  | use other u =>
    other = keyspace ∧ ∃ now written ttl, u.use = .write now key written ttl ∧ entry = Codec.held written
  | expire _ => False

end ServerEvent

namespace Server

def reply (s : Server) (keyspace : String) (u : ServerUse) : StoreReply :=
  ((RedisStore.mk keyspace s).exchange u).1

def next (s : Server) : ServerEvent → Server
  | .use keyspace u => ((RedisStore.mk keyspace s).exchange u).2.server
  | .expire key => { s with table := s.table.erase key }

def after (s : Server) (events : List ServerEvent) : Server :=
  events.foldl next s

end Server

namespace RedisStore

open Server

/-- Whether a namespace is another one with a colon and more after it. -/
def Extends (keyspace other : String) : Prop :=
  ∃ rest : String, other = keyspace ++ ":" ++ rest

/-- Whether neither of two namespaces goes on where the other ends. -/
def Apart (a b : String) : Prop :=
  ¬Extends a b ∧ ¬Extends b a

/--
Whether every entry that is read through one of two namespaces was written through it, whatever happens to
a server that is used through them.
-/
def Isolated (a b : String) : Prop :=
  ∀ (events : List ServerEvent), (∀ event ∈ events, event.Through a b) →
    ∀ own, own = a ∨ own = b → ∀ (outage : Outage) (now : Time) (key : String) (entry : Entry),
      (Server.empty.after events).reply own ⟨outage, .read now key⟩ = .read (.ok (some entry)) →
        ∃ event ∈ events, event.Writes own key entry

/-- Every key of a namespace that extends another one is a key of that one. -/
theorem serverKey_append (keyspace rest key : String) :
    serverKey (keyspace ++ ":" ++ rest) key = serverKey keyspace (rest ++ ":" ++ key) := by
  simp only [serverKey, String.append_assoc]

theorem extends_of_toList_eq {a b : String} {rest : List Char} (h : b.toList = a.toList ++ ':' :: rest) :
    Extends a b := by
  refine ⟨String.ofList rest, String.toList_inj.1 ?_⟩
  simp [h]

theorem Extends.ne {a b : String} (h : Extends a b) : b ≠ a := by
  obtain ⟨rest, rfl⟩ := h
  intro heq
  have hlength := congrArg String.length heq
  simp only [String.length_append] at hlength
  have hcolon : ":".length = 1 := rfl
  omega

theorem Extends.colon_mem {a b : String} (h : Extends a b) : ':' ∈ b.toList := by
  obtain ⟨rest, rfl⟩ := h
  simp

theorem apart_of_colon_not_mem {a b : String} (ha : ':' ∉ a.toList) (hb : ':' ∉ b.toList) : Apart a b :=
  ⟨fun h => hb h.colon_mem, fun h => ha h.colon_mem⟩

/-- No other namespaces than such have a key of the server in common. -/
theorem eq_or_extends_of_serverKey_eq {a b key other : String} (h : serverKey a key = serverKey b other) :
    a = b ∨ Extends a b ∨ Extends b a := by
  have htext := congrArg String.toList h
  simp only [serverKey, String.toList_append, List.append_assoc] at htext
  rw [List.append_eq_append_iff] at htext
  obtain ⟨cut, hb, hcut⟩ | ⟨cut, ha, hcut⟩ := htext
  . cases cut with
    | nil => exact .inl (String.toList_inj.1 (hb.trans (List.append_nil _)).symm)
    | cons colon rest =>
      obtain rfl : ':' = colon := (List.cons.inj hcut).1
      exact .inr (.inl (extends_of_toList_eq hb))
  . cases cut with
    | nil => exact .inl (String.toList_inj.1 (ha.trans (List.append_nil _)))
    | cons colon rest =>
      obtain rfl : ':' = colon := (List.cons.inj hcut).1
      exact .inr (.inr (extends_of_toList_eq ha))

theorem Apart.symm {a b : String} (h : Apart a b) : Apart b a :=
  ⟨h.2, h.1⟩

theorem Apart.serverKey_ne {a b own other : String} (hapart : Apart a b) (hown : own = a ∨ own = b)
    (hother : other = a ∨ other = b) (hne : other ≠ own) (key otherKey : String) :
    serverKey own key ≠ serverKey other otherKey := by
  have hboth : Apart own other := by
    obtain rfl | rfl := hown <;> obtain rfl | rfl := hother
    . exact absurd rfl hne
    . exact hapart
    . exact hapart.symm
    . exact absurd rfl hne
  intro h
  obtain heq | hextends | hextends := eq_or_extends_of_serverKey_eq h
  . exact hne heq.symm
  . exact hboth.1 hextends
  . exact hboth.2 hextends

theorem look_eq_of_get {σ : Type} [Backend σ] {s : σ} {now : Time} {key : String} {entry : Entry}
    (h : (Backend.get s now key).result = .ok (some entry)) :
    (Backend.look s now key).result = .ok (.live entry) := by
  unfold Backend.get at h
  cases hlook : (Backend.look s now key).result with
  | error error =>
    simp only [hlook] at h
    nomatch h
  | ok found =>
    cases found with
    | absent | expired =>
      simp only [hlook] at h
      nomatch h
    | live stored =>
      simp only [hlook] at h
      obtain rfl : stored = entry := Option.some.inj (Except.ok.inj h)
      rfl

theorem get_store (s : RedisStore) (now : Time) (key : String) : (Backend.get s now key).store = s := by
  unfold Backend.get
  simp only
  split <;> exact look_store s now key

theorem holds_of_reply {s : Server} {own key : String} {outage : Outage} {now : Time} {entry : Entry}
    (h : s.reply own ⟨outage, .read now key⟩ = .read (.ok (some entry))) : Holds ⟨own, s⟩ key entry :=
  holds_of_look (s := (RedisStore.mk own s).interrupt outage) (look_eq_of_get (StoreReply.read.inj h))

/-- A use through a namespace changes the server under one of its keys at most. -/
theorem exchange_server (s : RedisStore) (u : ServerUse) :
    (s.exchange u).2.keyspace = s.keyspace
      ∧ ((s.exchange u).2.server.table = s.server.table
        ∨ ∃ key bytes, (s.exchange u).2.server.table
          = s.server.table.insert (serverKey s.keyspace key) bytes) := by
  obtain ⟨outage, use⟩ := u
  cases use with
  | read now key =>
    simp only [exchange, StoreUse.reply, get_store]
    exact ⟨rfl, .inl rfl⟩
  | write now key entry ttl =>
    simp only [exchange, StoreUse.reply, Backend.set]
    split
    next => exact ⟨rfl, .inl rfl⟩
    next =>
      split
      next => exact ⟨rfl, .inl rfl⟩
      next bytes _ =>
        simp only [send, Server.execute]
        split
        next => exact ⟨rfl, .inl rfl⟩
        next => exact ⟨rfl, .inr ⟨key, bytes, rfl⟩⟩

/-- The store that is used is the one with its namespace on the server after the use. -/
theorem mk_next (keyspace : String) (s : Server) (u : ServerUse) :
    RedisStore.mk keyspace (s.next (.use keyspace u)) = ((RedisStore.mk keyspace s).exchange u).2 :=
  congrArg (RedisStore.mk · _) (exchange_server ⟨keyspace, s⟩ u).1.symm

/-- What a namespace holds after a use was there before, or was written by the use. -/
theorem holds_of_holds_exchange {s : RedisStore} {u : ServerUse} {key : String} {entry : Entry}
    (hfits : ∀ {now other written ttl}, u.use = .write now other written ttl → written.Fits)
    (h : (s.exchange u).2.Holds key entry) :
    s.Holds key entry
      ∨ ∃ now written ttl, u.use = .write now key written ttl ∧ entry = Codec.held written := by
  obtain ⟨outage, use⟩ := u
  cases use with
  | read now other =>
    have hstore := get_store (s.interrupt outage) now other
    simp only [exchange, StoreUse.reply, hstore] at h
    exact .inl h
  | write now other written ttl =>
    obtain hold | ⟨-, rfl, hheld⟩ := holds_of_holds_set (hfits rfl) h
    . exact .inl hold
    . exact .inr ⟨now, written, ttl, rfl, hheld⟩

/-- What is under a key of a namespace after an event was there before, or was written there by the event. -/
theorem writes_of_holds_next {a b own key : String} {s : Server} {event : ServerEvent} {entry : Entry}
    (hapart : Apart a b) (hthrough : event.Through a b) (hown : own = a ∨ own = b)
    (h : Holds ⟨own, s.next event⟩ key entry) : Holds ⟨own, s⟩ key entry ∨ event.Writes own key entry := by
  cases event with
  | expire expired =>
    obtain ⟨bytes, hget, hdecode⟩ := h
    exact .inl ⟨bytes, Table.get?_eq_some_of_erase hget, hdecode⟩
  | use keyspace u =>
    by_cases heq : keyspace = own
    . subst heq
      rw [mk_next] at h
      obtain hold | hnew := holds_of_holds_exchange hthrough.2 h
      . exact .inl hold
      . exact .inr ⟨rfl, hnew⟩
    . -- Whatever comes through the other namespace is under another key of the server.
      obtain ⟨bytes, hget, hdecode⟩ := h
      refine .inl ⟨bytes, ?_, hdecode⟩
      obtain hsame | ⟨other, value, hinsert⟩ := (exchange_server ⟨keyspace, s⟩ u).2
      . exact hsame ▸ hget
      . have hne := hapart.serverKey_ne hown hthrough.1 heq key other
        exact (Table.get?_insert_of_ne s.table value hne) ▸ hinsert ▸ hget

theorem writes_of_holds_after {a b own key : String} {events : List ServerEvent} {entry : Entry}
    (hapart : Apart a b) (hthrough : ∀ event ∈ events, event.Through a b) (hown : own = a ∨ own = b)
    (h : Holds ⟨own, Server.empty.after events⟩ key entry) : ∃ event ∈ events, event.Writes own key entry := by
  induction events using List.reverseRecOn with
  | nil => exact absurd h (not_holds_empty own key entry)
  | append_singleton events event ih =>
    rw [List.forall_mem_append, List.forall_mem_singleton] at hthrough
    have hafter : Server.empty.after (events ++ [event]) = (Server.empty.after events).next event := by
      simp [Server.after]
    rw [hafter] at h
    cases writes_of_holds_next hapart hthrough.2 hown h with
    | inl hold =>
      obtain ⟨earlier, hmem, hwrites⟩ := ih hthrough.1 hold
      exact ⟨earlier, List.mem_append_left _ hmem, hwrites⟩
    | inr hnew => exact ⟨event, List.mem_append_right _ List.mem_cons_self, hnew⟩

/-- A write through one namespace is read through another one that has the key of the server, too. -/
theorem reply_of_serverKey_eq {a b key other : String} (hkey : serverKey a key = serverKey b other)
    {entry : Entry} (hfits : entry.Fits) (hepoch : Time.epoch ≤ entry.lastValid) (ttl : Duration)
    (hlasts : ttl.isZero = false) (s : Server) (now later : Time) :
    (s.next (.use b ⟨.none, .write now other entry ttl⟩)).reply a ⟨.none, .read later key⟩
      = .read (.ok (some (Codec.held entry))) := by
  obtain ⟨hearly, -⟩ | ⟨-, line, hline, -⟩ | ⟨-, -, -, hstored⟩ :=
    exchange_write (s := ⟨b, s⟩) now other .none hlasts hfits
  . exact absurd hepoch hearly
  . nomatch hline
  . have hread : (RedisStore.mk a (s.next (.use b ⟨.none, .write now other entry ttl⟩))).stored? key
        = (some (Codec.held entry)).map .ok := by
      have hself := hstored other
      rw [if_pos rfl, ← mk_next] at hself
      unfold stored? at hself ⊢
      rw [hkey]
      exact hself
    unfold Server.reply
    rw [exchange_read hread]
    rfl

theorem nanosPerSec_lt : nanosPerSec < durationBound := by
  decide

def oneSecond : Duration :=
  ⟨nanosPerSec, nanosPerSec_lt⟩

def plainEntry : Entry :=
  { Codec.lateEntry with lastValid := .epoch }

theorem fits_plainEntry : plainEntry.Fits :=
  ⟨Codec.fits_lateEntry.1, Codec.fits_lateEntry.2, Codec.fits_lateEntry.3, Codec.fits_lateEntry.4,
    Codec.fits_lateEntry.5⟩

theorem through_plainEntry (a b : String) (time : Time) (key : String) (ttl : Duration) :
    ServerEvent.Through a b (.use a ⟨.none, .write time key plainEntry ttl⟩) := by
  refine ⟨.inl rfl, ?_⟩
  rintro _ _ _ _ ⟨⟩
  exact fits_plainEntry

/-- Through the shorter namespace, an entry can be written that is then read through the longer one. -/
theorem not_isolated_of_extends {a b : String} (h : Extends a b) : ¬Isolated a b := by
  have hne := h.ne
  obtain ⟨rest, rfl⟩ := h
  intro hisolated
  have hthrough := through_plainEntry a (a ++ ":" ++ rest) .epoch (rest ++ ":" ++ "") oneSecond
  have hreply :=
    reply_of_serverKey_eq (serverKey_append a rest "") fits_plainEntry (by decide) oneSecond rfl
      Server.empty .epoch .epoch
  obtain ⟨event, hmem, hwrites⟩ :=
    hisolated _ (List.forall_mem_singleton.2 hthrough) _ (.inr rfl) _ _ _ _ hreply
  obtain rfl := List.mem_singleton.1 hmem
  exact hne hwrites.1.symm

theorem Isolated.symm {a b : String} (h : Isolated a b) : Isolated b a := by
  intro events hthrough own hown
  exact h events (fun event hmem => (hthrough event hmem).symm) own hown.symm

/--
Two namespaces on one server are isolated exactly if neither is the other one with a colon and more after
it.
-/
theorem isolated_iff_apart (a b : String) : Isolated a b ↔ Apart a b := by
  constructor
  . intro hisolated
    exact ⟨fun h => not_isolated_of_extends h hisolated, fun h => not_isolated_of_extends h hisolated.symm⟩
  . intro hapart events hthrough own hown outage now key entry hreply
    exact writes_of_holds_after hapart hthrough hown (holds_of_reply hreply)

def crossing : List ServerEvent :=
  [.use "a" ⟨.none, .write .epoch "b:k" plainEntry oneSecond⟩]

/-- What is written under `b:k` in the namespace `a` is read under `k` in the namespace `a:b`. -/
theorem reply_after_crossing :
    "a:b" ≠ "a"
      ∧ (∀ event ∈ crossing, event.Through "a" "a:b")
      ∧ (Server.empty.after crossing).reply "a:b" ⟨.none, .read .epoch "k"⟩ = .read (.ok (some plainEntry))
      ∧ ¬∃ event ∈ crossing, event.Writes "a:b" "k" plainEntry := by
  have hne : "a:b" ≠ "a" := by decide
  refine ⟨hne, ?_, ?_, ?_⟩
  . exact List.forall_mem_singleton.2 (through_plainEntry "a" "a:b" .epoch "b:k" _)
  . have hkey : serverKey "a:b" "k" = serverKey "a" "b:k" := by decide
    exact reply_of_serverKey_eq hkey fits_plainEntry (by decide) _ rfl Server.empty .epoch .epoch
  . rintro ⟨event, hmem, hwrites⟩
    obtain rfl := List.mem_singleton.1 hmem
    exact hne hwrites.1.symm

end RedisStore

end ResponseCache
