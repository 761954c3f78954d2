/-
Module: SipServer.Repl.Changelog
Purpose: The per-peer compacted changelog (`b2bua/src/repl/changelog.rs` and `changelog/{drain,held,progress,
  serving}.rs`): one sub-log for each peer and partition, the operations on it and what they answer.
Trusted boundary: translated from the source
-/
import SipServer.Lib.KeyMap
import SipServer.Lib.SortedMap
import Mathlib.Order.Nat

namespace SipServer.Repl

open SipServer.Lib

/-!
A changelog operation takes the changelog's lock once, so it is one function of the changelog here; what the
source does between two lock acquisitions is two operations. Counters are `u64` and unbounded here. The clock
is an argument of the operations that read it. Left out: when an entry was written, when a claim was made and
a flow opened, and the high-water mark, which no operation of this module reads.
-/

/-- A changelog position: an incarnation and its counter, ordered lexicographically. -/
structure Watermark where
  gen : ℕ
  counter : ℕ
deriving Repr, DecidableEq

namespace Watermark

instance : LE Watermark :=
  ⟨fun left right => left.gen < right.gen ∨ left.gen = right.gen ∧ left.counter ≤ right.counter⟩

instance : LT Watermark :=
  ⟨fun left right => left.gen < right.gen ∨ left.gen = right.gen ∧ left.counter < right.counter⟩

instance (left right : Watermark) : Decidable (left ≤ right) :=
  inferInstanceAs (Decidable (_ ∨ _))

instance (left right : Watermark) : Decidable (left < right) :=
  inferInstanceAs (Decidable (_ ∨ _))

/-- `std::cmp::max`. -/
def highest (left right : Watermark) : Watermark := if left ≤ right then right else left

/-- The position of a puller that holds nothing. -/
def origin : Watermark := ⟨0, 0⟩

end Watermark

/-- The two flows toward a peer: its own calls held here, and our calls it backs up. -/
inductive Partition where
  | pri
  | bak
deriving Repr, DecidableEq

inductive Op where
  | put
  | delete
deriving Repr, DecidableEq

/-- What a delete entry states beside its op. -/
structure Stated where
  answered : Bool
  incarnation : Option String
deriving Repr, DecidableEq

/-- `Stated::default()`. -/
def Stated.nothing : Stated := ⟨false, none⟩

/-- A call's position in a compacted sub-log. -/
structure RefState where
  counter : ℕ
  firstSent : Option ℕ
  op : Op
  answered : Bool
  incarnation : Option String
deriving Repr, DecidableEq

/-- One drainable entry, as snapshotted under the lock. -/
structure Due where
  counter : ℕ
  callRef : String
  op : Op
  answered : Bool
  incarnation : Option String
deriving Repr, DecidableEq

/-! ### One sub-log -/

/-- The compacted log of one peer and partition. -/
structure SubLog where
  entries : SortedMap ℕ String
  byRef : KeyMap String RefState
  retainedFloor : ℕ
  opened : ℕ
  head : ℕ
  applied : Option Watermark
  streams : ℕ
  acked : Watermark
  unbound : Option (String × Watermark)

namespace SubLog

def new (retainedFloor : ℕ) : SubLog where
  entries := ∅
  byRef := ∅
  retainedFloor := retainedFloor
  opened := retainedFloor
  head := 0
  applied := none
  streams := 0
  acked := .origin
  unbound := none

/-- The state a write leaves for its call: what the replaced state `prev` had sent is kept only once applied,
    and not by a put over a delete. -/
def nextState (sub : SubLog) (prev : Option RefState) (counter : ℕ) (op : Op) (stated : Stated) : RefState :=
  match prev with
  | none => ⟨counter, none, op, stated.answered, stated.incarnation⟩
  | some prev =>
    { counter := counter
      firstSent :=
        if op = .delete ∨ prev.op = .put then
          prev.firstSent.filter fun sent => decide (sent ≤ sub.acked.counter)
        else none
      op := op
      answered := stated.answered ||
        (decide (op = .delete) && decide (prev.op = .delete) && prev.answered)
      incarnation := stated.incarnation }

/-- Move a call to `counter`, dropping its prior slot. -/
def put (sub : SubLog) (counter : ℕ) (callRef : String) (op : Op) (stated : Stated) : SubLog :=
  let prev := sub.byRef.get callRef
  let compacted := match prev with
    | some prev => sub.entries.remove prev.counter
    | none => sub.entries
  { sub with
    entries := compacted.insert counter callRef
    byRef := sub.byRef.insert callRef (sub.nextState prev counter op stated)
    head := max sub.head counter }

/-- Drop a call's entry, whatever its op. -/
def forget (sub : SubLog) (callRef : String) : SubLog :=
  match sub.byRef.get callRef with
  | some state =>
    { sub with byRef := sub.byRef.remove callRef, entries := sub.entries.remove state.counter }
  | none => sub

/-- Mark a call's entry sent at `counter` unless it was sent before. -/
def markSent (counter : ℕ) (state : RefState) : RefState :=
  { state with firstSent := some (state.firstSent.getD counter) }

/-- Snapshot the entries `pairs`, each marked sent at its own counter. -/
def snapshot (byRef : KeyMap String RefState) :
    List (ℕ × String) → KeyMap String RefState × List Due
  | [] => (byRef, [])
  | (counter, callRef) :: pairs =>
    match byRef.get callRef with
    | none => snapshot byRef pairs
    | some state =>
      let rest := snapshot (byRef.insert callRef (markSent counter state)) pairs
      (rest.1, ⟨counter, callRef, state.op, state.answered, state.incarnation⟩ :: rest.2)

/-- The due entries above `since` (or all when `cold`), ascending, capped at `limit`. -/
def due (sub : SubLog) (since : ℕ) (cold : Bool) (limit : ℕ) : SubLog × List Due :=
  let taken := snapshot sub.byRef
    ((sub.entries.above (if cold then none else some since)).take limit)
  ({ sub with byRef := taken.1 }, taken.2)

/-- Mark every entry at or below `w` sent at `w` unless it was sent before. -/
def scanned (sub : SubLog) (w : ℕ) : SubLog :=
  let read := sub.entries.pairs.filter fun pair => decide (pair.1 ≤ w)
  { sub with byRef := read.foldl (fun byRef pair => byRef.modify pair.2 (markSent w)) sub.byRef }

/-- Remove one applied tombstone, raising the floor to its counter. -/
def reapRef (sub : SubLog) (callRef : String) : SubLog :=
  match sub.byRef.get callRef with
  | some state =>
    { sub with
      byRef := sub.byRef.remove callRef
      entries := sub.entries.remove state.counter
      retainedFloor := max sub.retainedFloor state.counter }
  | none => sub

/-- The calls whose tombstone the peer reported applying. -/
def appliedTombstones (sub : SubLog) : List String :=
  (sub.entries.pairs.filter fun pair =>
    decide (pair.1 ≤ sub.acked.counter) &&
      (sub.byRef.get pair.2).any fun state => decide (state.op = .delete)).map (·.2)

/-- Remove the tombstones the peer reported applying under incarnation `gen` (`reap_sublog`). -/
def reap (sub : SubLog) (gen : ℕ) : SubLog :=
  if sub.acked.gen ≠ gen then sub else sub.appliedTombstones.foldl reapRef sub

end SubLog

/-! ### One peer's log -/

/-- A peer's two sub-logs, its liveness clock and the serve tasks that keep it. -/
structure PeerLog where
  pri : SubLog
  bak : SubLog
  lastActiveMs : ℤ
  serving : ℕ

namespace PeerLog

/-- A log opened when the node's counter stood at `counter`. -/
def new (nowMs : ℤ) (counter : ℕ) : PeerLog := ⟨.new counter, .new counter, nowMs, 0⟩

def sub (log : PeerLog) : Partition → SubLog
  | .pri => log.pri
  | .bak => log.bak

/-- `sub_mut`. -/
def changeSub (log : PeerLog) (partition : Partition) (change : SubLog → SubLog) : PeerLog :=
  match partition with
  | .pri => { log with pri := change log.pri }
  | .bak => { log with bak := change log.bak }

end PeerLog

/-! ### The changelog -/

/-- The node's changelog under incarnation `gen`. -/
structure Changelog where
  gen : ℕ
  deadPeerTtlMs : ℤ
  counter : ℕ
  peers : KeyMap String PeerLog
  bound : KeyMap String String

namespace Changelog

def new (gen : ℕ) (deadPeerTtlMs : ℤ) : Changelog := ⟨gen, deadPeerTtlMs, 0, ∅, ∅⟩

variable (log : Changelog) (peer : String) (partition : Partition)

/-- The current head. -/
def head : Watermark := ⟨log.gen, log.counter⟩

/-- The sub-log of a peer and partition, `none` for a peer with no log. -/
def sub : Option SubLog :=
  (log.peers.get peer).map fun peerLog => peerLog.sub partition

/-- Change a peer's sub-log, if the peer has a log. -/
def changeSub (change : SubLog → SubLog) : Changelog :=
  { log with peers := log.peers.modify peer fun peerLog => peerLog.changeSub partition change }

/-- The peer's log, opened at the node's counter when there is none (`entry().or_insert_with`). -/
def peerLogOrNew (nowMs : ℤ) (peer : String) (counter : ℕ) : PeerLog :=
  (log.peers.get peer).getD (PeerLog.new nowMs counter)

/-- Whether a warm puller resuming from `since` must re-bootstrap. -/
def needsReset (since : Watermark) : Bool :=
  if log.gen < since.gen then true
  else if since.gen < log.gen then false
  else if log.counter < since.counter then true
  else (log.sub peer partition).any fun sub => decide (since.counter < sub.retainedFloor)

/-- Record a mutation: the next counter, the sub-log compacted. -/
def bump (nowMs : ℤ) (peer callRef : String) (op : Op) (partition : Partition)
    (stated : Stated) : Changelog × Watermark :=
  let peerLog := (log.peerLogOrNew nowMs peer log.counter).changeSub partition fun sub =>
    sub.put (log.counter + 1) callRef op stated
  ({ log with counter := log.counter + 1, peers := log.peers.insert peer peerLog },
    ⟨log.gen, log.counter + 1⟩)

def bumpPut (nowMs : ℤ) (peer callRef : String) (partition : Partition) : Changelog × Watermark :=
  log.bump nowMs peer callRef .put partition .nothing

def bumpDelete (nowMs : ℤ) (peer callRef : String) (partition : Partition)
    (answered : Bool) (incarnation : Option String) : Changelog × Watermark :=
  log.bump nowMs peer callRef .delete partition ⟨answered, incarnation⟩

/-- Drop a call's entry toward a peer: the peer refused its replica. -/
def forget (callRef : String) : Changelog :=
  log.changeSub peer partition fun sub => sub.forget callRef

/-- The position of a call's entry toward a peer. -/
def positionOf (callRef : String) : Option Watermark :=
  (log.sub peer partition).bind fun sub =>
    (sub.byRef.get callRef).map fun state => ⟨log.gen, state.counter⟩

/-- Evict idle peers no serve task keeps, then the tombstones each remaining peer reported applying. -/
def reap (nowMs : ℤ) : Changelog :=
  { log with
    peers := log.peers.filterMap fun _ peerLog =>
      if 0 < peerLog.serving ∨ nowMs - peerLog.lastActiveMs < log.deadPeerTtlMs then
        some { peerLog with pri := peerLog.pri.reap log.gen, bak := peerLog.bak.reap log.gen }
      else none }

/-! ### Draining -/

/-- The snapshot a drain from `since` takes under the lock. -/
def drain (since : Watermark) (limit : ℕ) : Changelog × List Due :=
  let cold := decide (since.gen < log.gen)
  match log.sub peer partition with
  | none => (log, [])
  | some sub =>
    (log.changeSub peer partition fun sub => (sub.due since.counter cold limit).1,
      (sub.due since.counter cold limit).2)

/-- The op and the answer a call's entry holds now. -/
def current (callRef : String) : Option (Op × Bool) :=
  (log.sub peer partition).bind fun sub =>
    (sub.byRef.get callRef).map fun state => (state.op, state.answered)

/-! ### What a peer holds -/

/-- Whether a report or a pull under `identity` is one of a process membership does not bind to the peer. -/
def isUnbound (peer : String) (identity : Option String) : Bool :=
  (log.bound.get peer).any fun bound => decide (some bound ≠ identity)

/-- The peer pulls cold: the position it applied falls back to none on both partitions. -/
def noteColdPull (peer : String) (identity : Option String) : Changelog :=
  if log.isUnbound peer identity then log
  else
    let reset := fun sub : SubLog => { sub with acked := Watermark.origin }
    (log.changeSub peer .pri reset).changeSub peer .bak reset

/-- A bootstrap scan read at `w` carries every entry at or below it. -/
def noteScanned (w : Watermark) : Changelog :=
  log.changeSub peer partition fun sub => sub.scanned w.counter

/-- The position a drain for a puller of an earlier incarnation starts from. -/
def openedAt : Option Watermark :=
  (log.sub peer partition).map fun sub => ⟨log.gen, sub.opened⟩

/-- Keep aside the highest report of an identity not bound yet. -/
def noteUnbound (gen : ℕ) (identity : Option String) (reported : Watermark) (sub : SubLog) : SubLog :=
  match identity with
  | none => sub
  | some identity =>
    let higher := sub.unbound.all fun kept => decide (kept.1 ≠ identity) || decide (kept.2 < reported)
    if reported.gen = gen ∧ higher = true then { sub with unbound := some (identity, reported) } else sub

/-- Take a report of the bound identity: the latest stands as the claim, the highest as acknowledged. -/
def noteReport (gen : ℕ) (reported : Watermark) (sub : SubLog) : SubLog :=
  { sub with
    applied := some reported
    acked := if reported.gen = gen ∧ sub.acked < reported then reported else sub.acked }

/-- A puller reports the position it applied. -/
def noteApplied (nowMs : ℤ) (peer : String) (identity : Option String)
    (partition : Partition) (reported : Watermark) : Changelog :=
  if log.isUnbound peer identity then
    log.changeSub peer partition (noteUnbound log.gen identity reported)
  else
    { log with
      peers := log.peers.modify peer fun peerLog =>
        { peerLog with lastActiveMs := nowMs }.changeSub partition (noteReport log.gen reported) }

/-- The acknowledged position falls back to what the newly bound identity reported before. -/
def rebind (identity : String) (sub : SubLog) : SubLog :=
  let reported := sub.unbound.filter fun kept => decide (kept.1 = identity)
  { sub with unbound := none, acked := (reported.map (·.2)).getD .origin }

/-- Bind a peer to the identity membership names for it. -/
def bindIdentity (peer : String) (identity : Option String) : Changelog :=
  match identity with
  | none => { log with bound := log.bound.remove peer }
  | some identity =>
    if log.bound.get peer = some identity then log
    else
      let rebound := { log with bound := log.bound.insert peer identity }
      (rebound.changeSub peer .pri (rebind identity)).changeSub peer .bak (rebind identity)

/-- Whether a serve task streams the peer's flow. -/
def flowConnected : Bool :=
  (log.sub peer partition).any fun sub => decide (0 < sub.streams)

/-- Whether the peer reported applying `position` or past it. -/
def hasApplied (position : Watermark) : Bool :=
  (log.sub peer partition).any fun sub => decide (position ≤ sub.acked)

/-! ### Serve tasks -/

/-- Register a serve task, opening the peer's log when there is none. -/
def serving (nowMs : ℤ) (peer : String) (partition : Partition) : Changelog :=
  let peerLog := log.peerLogOrNew nowMs peer log.counter
  let served := { peerLog with serving := peerLog.serving + 1 }.changeSub partition fun sub =>
    { sub with streams := sub.streams + 1, applied := none }
  { log with peers := log.peers.insert peer served }

/-- A serve task ends (the guard's drop). -/
def unserve : Changelog :=
  { log with
    peers := log.peers.modify peer fun peerLog =>
      { peerLog with serving := peerLog.serving - 1 }.changeSub partition fun sub =>
        { sub with
          streams := sub.streams - 1
          applied := if sub.streams - 1 = 0 then none else sub.applied } }

/-! ### Runs -/

/-- One operation on the changelog. -/
inductive Operation where
  | put (nowMs : ℤ) (peer callRef : String) (partition : Partition)
  | delete (nowMs : ℤ) (peer callRef : String) (partition : Partition) (answered : Bool)
      (incarnation : Option String)
  | forget (peer : String) (partition : Partition) (callRef : String)
  | drain (peer : String) (partition : Partition) (since : Watermark) (limit : ℕ)
  | scan (peer : String) (partition : Partition) (w : Watermark)
  | coldPull (peer : String) (identity : Option String)
  | report (nowMs : ℤ) (peer : String) (identity : Option String) (partition : Partition)
      (reported : Watermark)
  | bind (peer : String) (identity : Option String)
  | serve (nowMs : ℤ) (peer : String) (partition : Partition)
  | unserve (peer : String) (partition : Partition)
  | reap (nowMs : ℤ)
deriving Repr, DecidableEq

def step : Operation → Changelog
  | .put nowMs peer callRef partition => (log.bumpPut nowMs peer callRef partition).1
  | .delete nowMs peer callRef partition answered incarnation =>
    (log.bumpDelete nowMs peer callRef partition answered incarnation).1
  | .forget peer partition callRef => log.forget peer partition callRef
  | .drain peer partition since limit => (log.drain peer partition since limit).1
  | .scan peer partition w => log.noteScanned peer partition w
  | .coldPull peer identity => log.noteColdPull peer identity
  | .report nowMs peer identity partition reported =>
    log.noteApplied nowMs peer identity partition reported
  | .bind peer identity => log.bindIdentity peer identity
  | .serve nowMs peer partition => log.serving nowMs peer partition
  | .unserve peer partition => log.unserve peer partition
  | .reap nowMs => log.reap nowMs

end Changelog

end SipServer.Repl
