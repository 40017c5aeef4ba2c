import ResponseCache.Store.Basic
import ResponseCache.Store.Table

/-!
This module contains the stores that keep every entry for ever: as it is, or in its binary format.
-/

namespace ResponseCache

structure PlainStore where
  table : Table Entry
  deriving Repr

namespace PlainStore

def empty : PlainStore :=
  ⟨.empty⟩

instance : Backend PlainStore where
  look s _ key := ⟨.ok ((s.table.get? key).elim .absent .live), s, []⟩
  discard s key := ⟨s.table.erase key⟩
  set s _ key entry _ := ⟨.ok (), ⟨s.table.insert key entry⟩, []⟩

end PlainStore

structure EncodedStore where
  table : Table Bytes
  deriving Repr

namespace EncodedStore

def empty : EncodedStore :=
  ⟨.empty⟩

def putRaw (key : String) (bytes : Bytes) (s : EncodedStore) : EncodedStore :=
  ⟨s.table.insert key bytes⟩

instance : Backend EncodedStore where
  look s _ key :=
    match s.table.get? key with
    | none => ⟨.ok .absent, s, []⟩
    | some bytes => ⟨((Codec.decode bytes).map .live).mapError .codec, s, []⟩
  discard s key := ⟨s.table.erase key⟩
  set s _ key entry _ :=
    match Codec.encode entry with
    | .error fault => ⟨.error (.error (.codec fault)), s, []⟩
    | .ok bytes => ⟨.ok (), s.putRaw key bytes, []⟩

end EncodedStore

end ResponseCache
