import Mathlib.Data.List.Induction
import ResponseCache.Proofs.Store.Replies

/-!
This module contains what a namespace on a server is to those who read and write it while the server may
refuse any command: a map from keys to entries. A read that is not refused finds what was written last
under its key, as the format holds it, and a write that fails cannot be told from one that never happened.
-/

namespace ResponseCache

/-- A read or a write, with the reasons for which the server refuses commands at that time. -/
structure ServerUse where
  outage : Outage
  use : StoreUse

/-- Whether what is written, if anything, has parts of lengths that the format can hold, and lasts. -/
def ServerUse.Lasting (u : ServerUse) : Prop :=
  match u.use with
  | .read _ _ => True
  | .write _ _ entry ttl => entry.Fits ∧ ttl.isZero = false

def StoreReply.written? (key : String) : StoreUse × StoreReply → Option Entry
  | (.write _ other entry _, .written (.ok ())) => if other = key then some entry else none
  | _ => none

/-- The entry of the last write under a key that succeeded. -/
def StoreReply.lastWritten? (log : List (StoreUse × StoreReply)) (key : String) : Option Entry :=
  (log.filterMap (written? key)).getLast?

open StoreReply (written? lastWritten?)

theorem StoreReply.lastWritten?_concat (log : List (StoreUse × StoreReply)) (last : StoreUse × StoreReply)
    (key : String) : lastWritten? (log ++ [last]) key = (written? key last).or (lastWritten? log key) := by
  unfold lastWritten?
  rw [List.filterMap_append, List.getLast?_append]
  cases hlast : written? key last <;> simp [hlast]

namespace RedisStore

variable {s : RedisStore} {now : Time} {key : String} {entry : Entry} {ttl : Duration}

def stored? (s : RedisStore) (key : String) : Option (Except CodecError Entry) :=
  (s.server.table.get? (serverKey s.keyspace key)).map Codec.decode

theorem stored?_empty (keyspace key : String) : (empty keyspace).stored? key = none := rfl

theorem look_of_refused {line : String} (hrefused : s.server.outage.get = some line) :
    (Backend.look s now key).result = .error (.server (.ofLine line)) := by
  simp only [Backend.look, send, execute_get, hrefused]
  rfl

theorem look_of_stored? {found : Option Entry} (houtage : s.server.outage.get = none)
    (hstored : s.stored? key = found.map .ok) :
    (Backend.look s now key).result = .ok (found.elim .absent .live) := by
  unfold stored? at hstored
  simp only [Backend.look, send, execute_get, houtage]
  cases hget : s.server.table.get? (serverKey s.keyspace key) with
  | none =>
    rw [hget] at hstored
    obtain rfl : found = none := by simpa using hstored.symm
    rfl
  | some bytes =>
    rw [hget] at hstored
    cases found with
    | none => nomatch hstored
    | some entry =>
      have hdecode : Codec.decode bytes = .ok entry := by simpa using hstored
      simp only [readEntry, hdecode]
      rfl

def setCommands (keyspace key : String) (entry : Entry) (ttl : Duration) : List ServerCommand :=
  if ttl.isZero then
    []
  else
    match Codec.encode entry with
    | .ok bytes => [.setex (serverKey keyspace key) (max ttl.secs 1) bytes]
    | .error _ => []

/-- An entry from before the epoch is given up before the server is asked. -/
theorem set_of_early (hlasts : ttl.isZero = false) (hearly : ¬Time.epoch ≤ entry.lastValid) :
    Backend.set s now key entry ttl = ⟨.error (.error (.codec .beforeEpoch)), s, []⟩ := by
  have hencode : Codec.encode entry = .error .beforeEpoch := by
    unfold Codec.encode
    exact if_pos (Int.not_le.1 hearly)
  simp only [Backend.set, hlasts, hencode]
  rfl

/-- The command that writes an entry that is not from before the epoch. -/
theorem set_of_encode {bytes : Bytes} (hlasts : ttl.isZero = false)
    (hencode : Codec.encode entry = .ok bytes) :
    Backend.set s now key entry ttl
      = s.send (.setex (serverKey s.keyspace key) (max ttl.secs 1) bytes) readWritten := by
  simp only [Backend.set, hlasts, hencode]
  rfl

theorem encode_of_not_early (hepoch : Time.epoch ≤ entry.lastValid) :
    ∃ bytes, Codec.encode entry = .ok bytes := by
  have hnanos : ¬entry.lastValid.nanos < 0 := Int.not_lt.2 hepoch
  simp [Codec.encode, hnanos]

theorem set_of_refused {line : String} (now : Time) (key : String) (hlasts : ttl.isZero = false)
    (hepoch : Time.epoch ≤ entry.lastValid) (hrefused : s.server.outage.set = some line) :
    (Backend.set s now key entry ttl).result = .error (.error (.server (.ofLine line)))
      ∧ (Backend.set s now key entry ttl).store = s := by
  obtain ⟨bytes, hencode⟩ := encode_of_not_early hepoch
  rw [set_of_encode hlasts hencode]
  simp only [send, Server.execute, hrefused]
  exact ⟨rfl, trivial⟩

theorem set_of_accepted (now : Time) (key : String) (hlasts : ttl.isZero = false) (hfits : entry.Fits)
    (hepoch : Time.epoch ≤ entry.lastValid) (houtage : s.server.outage.set = none) :
    ∃ bytes, Codec.decode bytes = .ok (Codec.held entry)
      ∧ Backend.set s now key entry ttl
        = ⟨.ok (), s.putRaw (serverKey s.keyspace key) bytes, setCommands s.keyspace key entry ttl⟩ := by
  obtain ⟨bytes, hencode⟩ := encode_of_not_early hepoch
  refine ⟨bytes, Codec.decode_encode hfits hencode, ?_⟩
  rw [set_of_encode hlasts hencode]
  simp only [send, Server.execute, houtage, setCommands, hlasts, hencode]
  rfl

theorem stored?_putRaw (s : RedisStore) (key : String) (bytes : Bytes) (other : String) :
    (s.putRaw (serverKey s.keyspace key) bytes).stored? other
      = if key = other then some (Codec.decode bytes) else s.stored? other := by
  unfold stored? putRaw
  split
  next hkey => rw [hkey, Table.get?_insert_self, Option.map_some]
  next hkey => rw [Table.get?_insert_of_ne _ _ fun heq => hkey (serverKey_inj heq).symm]

def exchange (s : RedisStore) (u : ServerUse) : StoreReply × RedisStore :=
  u.use.reply (s.interrupt u.outage)

def serve (s : RedisStore) (uses : List ServerUse) : RedisStore :=
  uses.foldl (fun s u => (s.exchange u).2) s

/-- What is asked of a store, each with its reply. -/
def transcript : RedisStore → List ServerUse → List (StoreUse × StoreReply)
  | _, [] => []
  | s, u :: uses => (u.use, (s.exchange u).1) :: transcript (s.exchange u).2 uses

theorem serve_concat (s : RedisStore) (uses : List ServerUse) (u : ServerUse) :
    s.serve (uses ++ [u]) = ((s.serve uses).exchange u).2 := by
  simp [serve]

theorem transcript_concat (s : RedisStore) (uses : List ServerUse) (u : ServerUse) :
    s.transcript (uses ++ [u]) = s.transcript uses ++ [(u.use, ((s.serve uses).exchange u).1)] := by
  induction uses generalizing s with
  | nil => rfl
  | cons first uses ih =>
    rw [List.cons_append, transcript, ih]
    rfl

/-- The outage of the moment is all that a use leaves behind if it does nothing else. -/
theorem transcript_interrupt (s : RedisStore) (outage : Outage) (uses : List ServerUse) :
    (s.interrupt outage).transcript uses = s.transcript uses := by
  cases uses <;> rfl

theorem exchange_read {outage : Outage} {found : Option Entry} (hstored : s.stored? key = found.map .ok) :
    s.exchange ⟨outage, .read now key⟩
      = (.read (match outage.get with
          | some line => .error (.server (.ofLine line))
          | none => .ok found), s.interrupt outage) := by
  have hstore : (Backend.look (s.interrupt outage) now key).store = s.interrupt outage := look_store ..
  simp only [exchange, StoreUse.reply, Backend.get]
  cases houtage : outage.get with
  | some line => simp [look_of_refused (s := s.interrupt outage) houtage, hstore, Except.map]
  | none =>
    have hlook : (Backend.look (s.interrupt outage) now key).result = .ok (found.elim .absent .live) :=
      look_of_stored? houtage hstored
    cases found <;> simp [hlook, hstore, Except.map, Finding.entry?]

theorem exchange_write (now : Time) (key : String) (outage : Outage) (hlasts : ttl.isZero = false)
    (hfits : entry.Fits) :
    (¬Time.epoch ≤ entry.lastValid
        ∧ s.exchange ⟨outage, .write now key entry ttl⟩
          = (.written (.error (.error (.codec .beforeEpoch))), s.interrupt outage))
      ∨ (Time.epoch ≤ entry.lastValid ∧ ∃ line, outage.set = some line
        ∧ s.exchange ⟨outage, .write now key entry ttl⟩
          = (.written (.error (.error (.server (.ofLine line)))), s.interrupt outage))
      ∨ (Time.epoch ≤ entry.lastValid ∧ outage.set = none
        ∧ (s.exchange ⟨outage, .write now key entry ttl⟩).1 = .written (.ok ())
        ∧ ∀ other, (s.exchange ⟨outage, .write now key entry ttl⟩).2.stored? other
          = if key = other then some (.ok (Codec.held entry)) else s.stored? other) := by
  simp only [exchange, StoreUse.reply]
  by_cases hepoch : Time.epoch ≤ entry.lastValid
  . right
    cases houtage : outage.set with
    | some line =>
      left
      obtain ⟨hresult, hstore⟩ := set_of_refused (s := s.interrupt outage) now key hlasts hepoch houtage
      rw [hresult, hstore]
      exact ⟨hepoch, line, rfl, rfl⟩
    | none =>
      right
      obtain ⟨bytes, hdecode, hset⟩ :=
        set_of_accepted (s := s.interrupt outage) now key hlasts hfits hepoch houtage
      rw [hset]
      refine ⟨hepoch, rfl, rfl, fun other => ?_⟩
      rw [stored?_putRaw, hdecode]
      rfl
  . left
    rw [set_of_early hlasts hepoch]
    exact ⟨hepoch, rfl⟩

def Vacant (s : RedisStore) : Prop :=
  ∀ key, s.stored? key = none

/-- What is under a key is what was written there last, as the format holds it. -/
theorem stored?_serve (hvacant : s.Vacant) {uses : List ServerUse} (hlasting : ∀ u ∈ uses, u.Lasting)
    (key : String) :
    (s.serve uses).stored? key
      = ((lastWritten? (s.transcript uses) key).map Codec.held).map .ok := by
  induction uses using List.reverseRecOn generalizing key with
  | nil => exact hvacant key
  | append_singleton uses u ih =>
    rw [List.forall_mem_append, List.forall_mem_singleton] at hlasting
    have hbefore := ih hlasting.1 key
    rw [serve_concat, transcript_concat, StoreReply.lastWritten?_concat]
    obtain ⟨outage, use⟩ := u
    cases use with
    | read now other =>
      rw [exchange_read (ih hlasting.1 other)]
      exact hbefore
    | write now other entry ttl =>
      obtain ⟨hfits, hlasts⟩ := hlasting.2
      obtain ⟨-, heq⟩ | ⟨-, line, -, heq⟩ | ⟨-, -, hreply, hstored⟩ :=
        exchange_write (s := s.serve uses) now other outage hlasts hfits
      . rw [heq]
        exact hbefore
      . rw [heq]
        exact hbefore
      . rw [hreply, hstored, hbefore]
        simp only [written?]
        split <;> simp

/--
A namespace that starts with nothing under any key is a map, whatever is read and written there and
whatever commands the server refuses. A read that is not refused finds the entry of the last write under
its key that succeeded, as the format holds it, or nothing if there is none. A write fails exactly if its
entry is from before the epoch or it is refused, and after a failure all goes on as if it had not
happened.
-/
theorem exchange_after_serve (hvacant : s.Vacant) {uses : List ServerUse}
    (hlasting : ∀ u ∈ uses, u.Lasting) :
    (∀ outage now key, ((s.serve uses).exchange ⟨outage, .read now key⟩).1
        = .read (match outage.get with
          | some line => .error (.server (.ofLine line))
          | none => .ok ((lastWritten? (s.transcript uses) key).map Codec.held)))
      ∧ ∀ outage now key entry ttl, ServerUse.Lasting ⟨outage, .write now key entry ttl⟩ →
        ((s.serve uses).exchange ⟨outage, .write now key entry ttl⟩).1
            = .written (if Time.epoch ≤ entry.lastValid then
                match outage.set with
                | some line => .error (.error (.server (.ofLine line)))
                | none => .ok ()
              else .error (.error (.codec .beforeEpoch)))
          ∧ ∀ fault,
            ((s.serve uses).exchange ⟨outage, .write now key entry ttl⟩).1 = .written (.error fault) →
              ∀ later, ((s.serve uses).exchange ⟨outage, .write now key entry ttl⟩).2.transcript later
                = (s.serve uses).transcript later := by
  constructor
  . intro outage now key
    rw [exchange_read (stored?_serve hvacant hlasting key)]
  . intro outage now key entry ttl hwrite
    obtain ⟨hfits, hlasts⟩ := hwrite
    obtain ⟨hearly, heq⟩ | ⟨hepoch, line, houtage, heq⟩ | ⟨hepoch, houtage, hreply, -⟩ :=
      exchange_write (s := s.serve uses) now key outage hlasts hfits
    . rw [heq, if_neg hearly]
      exact ⟨rfl, fun _ _ => transcript_interrupt _ outage⟩
    . rw [heq, if_pos hepoch, houtage]
      exact ⟨rfl, fun _ _ => transcript_interrupt _ outage⟩
    . rw [hreply, if_pos hepoch, houtage]
      exact ⟨rfl, nofun⟩

def earlyEntry : Entry :=
  { Codec.lateEntry with lastValid := ⟨-1, by decide, by decide⟩ }

def loading : Outage :=
  ⟨none, some "LOADING"⟩

/-- A write that succeeds, one under the same key that fails, and one under another key that fails. -/
def disturbed : List ServerUse :=
  [⟨.none, .write .epoch "a" Codec.lateEntry ⟨nanosPerSec, by decide⟩⟩,
    ⟨.none, .write .epoch "a" earlyEntry ⟨nanosPerSec, by decide⟩⟩,
    ⟨loading, .write .epoch "b" Codec.lateEntry ⟨nanosPerSec, by decide⟩⟩]

theorem exchange_after_disturbed :
    (empty "n").Vacant
      ∧ (∀ u ∈ disturbed, u.Lasting)
      ∧ (((empty "n").serve disturbed).exchange ⟨.none, .read .epoch "a"⟩).1
        = .read (.ok (some { Codec.lateEntry with lastValid := Codec.latest }))
      ∧ (((empty "n").serve disturbed).exchange ⟨.none, .read .epoch "b"⟩).1 = .read (.ok none)
      ∧ ∀ later,
        (((empty "n").serve disturbed).exchange
            ⟨loading, .write .epoch "b" Codec.lateEntry ⟨nanosPerSec, by decide⟩⟩).2.transcript later
          = ((empty "n").serve disturbed).transcript later := by
  have hvacant : (empty "n").Vacant := stored?_empty "n"
  have hlate := Codec.fits_lateEntry
  have hearly : earlyEntry.Fits := ⟨hlate.1, hlate.2, hlate.3, hlate.4, hlate.5⟩
  have hlasting : ∀ u ∈ disturbed, u.Lasting := by
    simp only [disturbed, List.forall_mem_cons, ServerUse.Lasting]
    exact ⟨⟨hlate, rfl⟩, ⟨hearly, rfl⟩, ⟨hlate, rfl⟩, List.forall_mem_nil _⟩
  obtain ⟨hread, hwrite⟩ := exchange_after_serve hvacant hlasting
  have ha : lastWritten? ((empty "n").transcript disturbed) "a" = some Codec.lateEntry := by decide
  have hb : lastWritten? ((empty "n").transcript disturbed) "b" = none := by decide
  obtain ⟨hreply, hsame⟩ := hwrite loading .epoch "b" Codec.lateEntry ⟨nanosPerSec, by decide⟩ ⟨hlate, rfl⟩
  refine ⟨hvacant, hlasting, ?_, ?_, ?_⟩
  . rw [hread, ha]
    rfl
  . rw [hread, hb]
    rfl
  . apply hsame
    rw [hreply, if_pos (by decide)]
    rfl

end RedisStore

end ResponseCache
