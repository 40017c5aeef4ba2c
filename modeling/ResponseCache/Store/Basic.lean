import ResponseCache.Codec

/-!
This module contains what the stores of entries have in common: how they are read and written, and
how that may fail.
-/

namespace ResponseCache

/-- An error that a server signals instead of an answer. -/
structure ServerError where
  /-- The word by which the server names the kind of the error. -/
  code : String
  detail : Option String
  deriving DecidableEq, Repr

namespace ServerError

/-- The error in the line that a server answers: its first word is the code. -/
def ofLine (line : String) : ServerError :=
  match Text.splitOnce ' ' line.toList with
  | some (code, detail) => ⟨String.ofList code, some (String.ofList detail)⟩
  | none => ⟨line, none⟩

/-- The codes with a meaning of their own, and how messages call them. -/
def knownCodes : List (String × String) :=
  [("ERR", "ResponseError"),
   ("EXECABORT", "ExecAbortError"),
   ("LOADING", "BusyLoadingError"),
   ("NOSCRIPT", "NoScriptError"),
   ("MOVED", "Moved"),
   ("ASK", "Ask"),
   ("TRYAGAIN", "TryAgain"),
   ("CLUSTERDOWN", "ClusterDown"),
   ("CROSSSLOT", "CrossSlot"),
   ("MASTERDOWN", "MasterDown"),
   ("READONLY", "ReadOnly"),
   ("NOTBUSY", "NotBusy"),
   ("NOSUB", "NoSub")]

def message (e : ServerError) : String :=
  match knownCodes.lookup e.code, e.detail with
  | some kind, some detail => "An error was signalled by the server - " ++ kind ++ ": " ++ detail
  | some kind, none => "An error was signalled by the server- " ++ kind
  | none, some detail => e.code ++ ": " ++ detail
  | none, none => e.code ++ ": Unknown extension error encountered"

end ServerError

/-- Why a store did not do what it was asked. -/
inductive StoreError where
  | unavailable (reason : String)
  | codec (fault : CodecError)
  | server (fault : ServerError)
  deriving DecidableEq, Repr

def StoreError.message : StoreError → String
  | .unavailable reason => "backend error: " ++ reason
  | .codec fault => "codec error: " ++ fault.message
  | .server fault => fault.message

inductive WriteFault where
  | error (e : StoreError)
  /-- The time at which the entry would expire is out of range, which aborts the request. -/
  | overflow
  deriving DecidableEq, Repr

inductive ServerCommand where
  | get (key : String)
  | setex (key : String) (secs : Nat) (value : Bytes)
  deriving DecidableEq, Repr

structure Access (σ α : Type) where
  result : α
  store : σ
  /-- The commands that were sent to a server. -/
  commands : List ServerCommand

inductive Finding where
  | absent
  | expired
  | live (entry : Entry)
  deriving DecidableEq, Repr

/-- The entry that a look found, if it counts. -/
def Finding.entry? : Finding → Option Entry
  | .live entry => some entry
  | _ => none

/--
A store of entries. Accesses happen at a time that the store itself observes. A read takes two steps
if it finds an expired entry: it looks, and then it discards what is under the key.
-/
class Backend (σ : Type) where
  /-- Looks for the entry of a key. -/
  look : σ → Time → String → Access σ (Except StoreError Finding)
  /-- Discards what is under a key, where entries can be found expired. -/
  discard : σ → String → σ
  /-- Puts an entry in the place of any other under its key, for a span of time. -/
  set : σ → Time → String → Entry → Duration → Access σ (Except WriteFault Unit)

/-- A read with nothing between its steps. -/
def Backend.get [Backend σ] (s : σ) (now : Time) (key : String) :
    Access σ (Except StoreError (Option Entry)) :=
  let access := look s now key
  match access.result with
  | .ok .expired => ⟨.ok none, discard access.store key, access.commands⟩
  | result => ⟨result.map Finding.entry?, access.store, access.commands⟩

/-- The reasons for which a store refuses to be read or written, while there are any. -/
structure Outage where
  get : Option String
  set : Option String
  deriving DecidableEq, Repr

def Outage.none : Outage :=
  ⟨.none, .none⟩

/-- A store that can be made to refuse. -/
structure Interruptible (σ : Type) where
  store : σ
  outage : Outage
  deriving Repr

namespace Interruptible

def working (store : σ) : Interruptible σ :=
  ⟨store, .none⟩

def interrupt (outage : Outage) (s : Interruptible σ) : Interruptible σ :=
  { s with outage := outage }

/-- Passes accesses on unless there is a reason to refuse them. -/
instance [Backend σ] : Backend (Interruptible σ) where
  look s now key :=
    match s.outage.get with
    | some reason => ⟨.error (.unavailable reason), s, []⟩
    | none =>
      let access := Backend.look s.store now key
      ⟨access.result, { s with store := access.store }, access.commands⟩
  discard s key := { s with store := Backend.discard s.store key }
  set s now key entry ttl :=
    match s.outage.set with
    | some reason => ⟨.error (.error (.unavailable reason)), s, []⟩
    | none =>
      let access := Backend.set s.store now key entry ttl
      ⟨access.result, { s with store := access.store }, access.commands⟩

end Interruptible

end ResponseCache
