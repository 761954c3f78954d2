/-
Module: SipServer.Store.Memory
Purpose: The in-memory call store (`b2bua/src/store/memory.rs`): bodies by partition and call, and the SIP
  routing index with the keys each call owns; the partition of a callRef (`store/call_store.rs`).
Trusted boundary: translated from the source
-/
import SipServer.Call.IndexKey
import SipServer.Lib.KeyMap

namespace SipServer.Store

open SipServer.Lib

/-- The role a node holds in a call: its primary, or the backup that acts on a copy. -/
inductive PartitionRole where
  | primary
  | backup
deriving Repr, DecidableEq

/-! ### Partitions -/

/-- The partition of a callRef: this node is the primary its ordinal names, else it holds a backup for that
    peer; a callRef without an ordinal is this node's own. -/
def partitionOf (selfOrdinal callRef : String) : PartitionRole × String :=
  match Index.parseCallRef callRef.toList with
  | some parsed =>
    let primary := String.ofList parsed.primary
    if primary = selfOrdinal then (.primary, primary) else (.backup, primary)
  | none => (.primary, selfOrdinal)

/-! ### Bodies and index -/

/-- The place of a body, `{role}:{primary}:call:{callRef}` in the source. -/
structure BodyKey where
  role : PartitionRole
  primary : String
  callRef : String
deriving Repr, DecidableEq

/-- The bodies, the index (an index key is written without its `idx:`) and, for each call, the index keys it
    owns. -/
structure InMemoryCallStore (Body : Type) where
  bodies : KeyMap BodyKey Body
  indexes : KeyMap String String
  idxByRef : KeyMap String (List String)

namespace InMemoryCallStore

variable {Body : Type}

def new : InMemoryCallStore Body := ⟨∅, ∅, ∅⟩

/-- Drop `key` if it still resolves to the call. -/
def dropKey (callRef : String) (indexes : KeyMap String String) (key : String) : KeyMap String String :=
  if indexes.get key = some callRef then indexes.remove key else indexes

/-- The index once the call owns `keys` instead of `old`. -/
def replaceKeys (callRef : String) (indexes : KeyMap String String) (old keys : List String) :
    KeyMap String String :=
  let dropped := (old.filter fun key => decide (key ∉ keys)).foldl (dropKey callRef) indexes
  keys.foldl (fun indexes key => indexes.insert key callRef) dropped

/-- Store a body, and replace the index keys the call owns unless none is given. -/
def storeBody (store : InMemoryCallStore Body) (place : BodyKey) (body : Body) (keys : List String) :
    InMemoryCallStore Body :=
  let bodies := store.bodies.insert place body
  if keys = [] then { store with bodies := bodies }
  else
    { bodies := bodies
      indexes := replaceKeys place.callRef store.indexes ((store.idxByRef.get place.callRef).getD []) keys
      idxByRef := store.idxByRef.insert place.callRef keys }

/-- Remove a body with every index key its call owns and those given; the body removed. -/
def removeBody (store : InMemoryCallStore Body) (place : BodyKey) (keys : List String) :
    InMemoryCallStore Body × Option Body :=
  let owned := (store.idxByRef.get place.callRef).getD []
  ({ bodies := store.bodies.remove place
     indexes := keys.foldl (dropKey place.callRef) (owned.foldl (dropKey place.callRef) store.indexes)
     idxByRef := store.idxByRef.remove place.callRef },
    store.bodies.get place)

end InMemoryCallStore

end SipServer.Store
