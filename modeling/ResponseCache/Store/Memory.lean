import ResponseCache.Store.Basic
import ResponseCache.Store.Table

/-!
This module contains the store in the memory of one process, in which entries expire.
-/

namespace ResponseCache

/-- An entry with the time from which on it counts as absent. -/
structure Expiring where
  entry : Entry
  expiresAt : Time
  deriving DecidableEq, Repr

structure MemoryStore where
  table : Table Expiring
  deriving Repr

namespace MemoryStore

def empty : MemoryStore :=
  ⟨.empty⟩

/-- The first step of a read: looks under a key. -/
def look (s : MemoryStore) (now : Time) (key : String) : Finding :=
  match s.table.get? key with
  | none => .absent
  | some stored => if stored.expiresAt ≤ now then .expired else .live stored.entry

/-- The second step of a read that found an expired entry: discards what is under the key. -/
def discard (s : MemoryStore) (key : String) : MemoryStore :=
  ⟨s.table.erase key⟩

def put (s : MemoryStore) (key : String) (entry : Entry) (expiresAt : Time) : MemoryStore :=
  ⟨s.table.insert key ⟨entry, expiresAt⟩⟩

/-- Writes an entry. One that would expire at once is not written at all. -/
def write (s : MemoryStore) (now : Time) (key : String) (entry : Entry) (ttl : Duration) :
    Except WriteFault MemoryStore :=
  if ttl.isZero then
    .ok s
  else
    match now.add? ttl with
    | some expiresAt => .ok (s.put key entry expiresAt)
    | none => .error .overflow

instance : Backend MemoryStore where
  look s now key := ⟨.ok (s.look now key), s, []⟩
  discard := discard
  set s now key entry ttl :=
    match s.write now key entry ttl with
    | .ok s => ⟨.ok (), s, []⟩
    | .error fault => ⟨.error fault, s, []⟩

end MemoryStore

end ResponseCache
