/-
Module: SipServer.Store.Handover
Purpose: What the replicating store hands back to the replica reap (`take_displaced`, `evict_snapshot` and
  `reap` of `b2bua/src/repl/store.rs`), with every write numbered so that a body can be followed. A reap's
  upkeep and each eviction of its snapshot are steps of their own, as each takes the metadata lock anew, so
  writes come between them.
Trusted boundary: translated from the source
-/
import SipServer.Store.Replicating

namespace SipServer.Store

open SipServer.Lib

/-- A body, with the number of the write it came by. -/
structure NumberedBody (Body : Type) where
  number : ℕ
  body : Body
deriving Repr, DecidableEq

variable {Body : Type}

/-- The write numbered `number`. -/
def PutWrite.numbered (write : PutWrite Body) (number : ℕ) : PutWrite (NumberedBody Body) where
  role := write.role
  primary := write.primary
  callRef := write.callRef
  body := ⟨number, write.body⟩
  indexes := write.indexes
  ttlMs := write.ttlMs
  callGen := write.callGen
  callBgen := write.callBgen
  opts := write.opts

namespace ReplicatingCallStore

/-- Take the backup bodies of calls another call on their callRef replaced here. -/
def takeDisplaced (store : ReplicatingCallStore Body) : ReplicatingCallStore Body × List Body :=
  ({ store with displaced := ∅ }, store.displaced.entries.map fun entry => entry.2)

end ReplicatingCallStore

/-- Which call of the store handed a body back: the nth reap or the nth take. -/
inductive Caller where
  | reap (call : ℕ)
  | take (call : ℕ)
deriving Repr, DecidableEq

/-- The write of a body handed back, and the call that handed it. -/
structure Handed where
  caller : Caller
  number : ℕ
deriving Repr, DecidableEq

/-- The store, the last instant a write read, the incarnations the writes named in order, and what was handed
    back. -/
structure Ledger (Body : Type) where
  store : ReplicatingCallStore (NumberedBody Body)
  nowMs : ℤ
  names : List (Option String)
  handed : List Handed

namespace Ledger

inductive Event (Body : Type) where
  | put (nowMs : ℤ) (write : PutWrite Body)
  | delete (nowMs : ℤ) (write : DeleteWrite)
  | upkeep (nowMs : ℤ)
  /-- One turn of a reap's loop over its snapshot; `nowMs` is the instant the reap was called for. -/
  | evict (call : ℕ) (nowMs : ℤ) (callRef : String)
  | take (call : ℕ)
deriving Repr, DecidableEq

def new (gen : ℕ) (deadPeerTtlMs defaultTtlMs nowMs : ℤ) : Ledger Body where
  store := .new gen deadPeerTtlMs defaultTtlMs
  nowMs := nowMs
  names := []
  handed := []

/-- Bodies go back to `caller`. -/
def hand (ledger : Ledger Body) (caller : Caller) (store : ReplicatingCallStore (NumberedBody Body))
    (bodies : List (NumberedBody Body)) : Ledger Body :=
  { ledger with
    store := store
    handed := ledger.handed ++ bodies.map fun body => ⟨caller, body.number⟩ }

/-- One event; a write cannot read an instant before the last one read. -/
def step (ledger : Ledger Body) : Event Body → Option (Ledger Body)
  | .put nowMs write =>
    if nowMs < ledger.nowMs then none
    else
      some { ledger with
        store := ledger.store.writePut nowMs (write.numbered ledger.names.length)
        nowMs := nowMs
        names := ledger.names ++ [write.opts.incarnation] }
  | .delete nowMs write =>
    if nowMs < ledger.nowMs then none
    else some { ledger with store := ledger.store.writeDelete nowMs write, nowMs := nowMs }
  | .upkeep nowMs => some { ledger with store := ledger.store.upkeep nowMs }
  | .evict call nowMs callRef =>
    let evicted := ledger.store.evict nowMs callRef
    some (ledger.hand (.reap call) evicted.1 evicted.2.toList)
  | .take call =>
    let taken := ledger.store.takeDisplaced
    some (ledger.hand (.take call) taken.1 taken.2)

end Ledger

end SipServer.Store
