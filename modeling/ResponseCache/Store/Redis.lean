import ResponseCache.Store.Basic
import ResponseCache.Store.Table

/-!
This module contains the store on a Redis server, which several processes can share: entries in their
binary format, under keys with the namespace of the store in front.
-/

namespace ResponseCache

inductive ServerReply where
  | ok
  | absent
  | value (bytes : Bytes)
  | error (e : ServerError)
  deriving DecidableEq, Repr

/-- A server of byte strings that never lets them expire. -/
structure Server where
  table : Table Bytes
  outage : Outage
  deriving Repr

namespace Server

def empty : Server :=
  ⟨.empty, .none⟩

/-- Executes a command. During an outage, the answer is an error and nothing changes. -/
def execute (s : Server) : ServerCommand → ServerReply × Server
  | .get key =>
    match s.outage.get, s.table.get? key with
    | some line, _ => (.error (.ofLine line), s)
    | none, some bytes => (.value bytes, s)
    | none, none => (.absent, s)
  | .setex key _ bytes =>
    match s.outage.set with
    | some line => (.error (.ofLine line), s)
    | none => (.ok, { s with table := s.table.insert key bytes })

end Server

structure RedisStore where
  keyspace : String
  server : Server
  deriving Repr

namespace RedisStore

def defaultKeyspace : String :=
  "tower_route_cache"

def empty (keyspace : String) : RedisStore :=
  ⟨keyspace, .empty⟩

def serverKey (keyspace key : String) : String :=
  keyspace ++ ":" ++ key

def interrupt (outage : Outage) (s : RedisStore) : RedisStore :=
  { s with server := { s.server with outage := outage } }

def putRaw (key : String) (bytes : Bytes) (s : RedisStore) : RedisStore :=
  { s with server := { s.server with table := s.server.table.insert key bytes } }

def send (s : RedisStore) (command : ServerCommand) (read : ServerReply → α) :
    Access RedisStore α :=
  let (reply, server) := s.server.execute command
  ⟨read reply, { s with server := server }, [command]⟩

def readEntry : ServerReply → Except StoreError Finding
  | .value bytes => ((Codec.decode bytes).map .live).mapError .codec
  | .error e => .error (.server e)
  | _ => .ok .absent

def readWritten : ServerReply → Except WriteFault Unit
  | .error e => .error (.error (.server e))
  | _ => .ok ()

/--
Reads and writes entries. One that would expire at once is not written at all; the server counts
time in whole seconds, of which at least one.
-/
instance : Backend RedisStore where
  look s _ key := s.send (.get (serverKey s.keyspace key)) readEntry
  discard s _ := s
  set s _ key entry ttl :=
    if ttl.isZero then
      ⟨.ok (), s, []⟩
    else
      match Codec.encode entry with
      | .error fault => ⟨.error (.error (.codec fault)), s, []⟩
      | .ok bytes =>
        s.send (.setex (serverKey s.keyspace key) (max ttl.secs 1) bytes) readWritten

end RedisStore

end ResponseCache
