/-
Module: SipServer.Store.Replicating
Purpose: The replicating call store (`b2bua/src/repl/store.rs`, `store/{write,admission}.rs`,
  `resurrection.rs`, `incarnation.rs`, `store/refusals.rs`): which writes it takes, what a write, a delete
  and a reap do to its bodies, metadata and tombstones, and what it logs for the pulling peer.
Trusted boundary: translated from the source
-/
import SipServer.Repl.Changelog
import SipServer.Store.Memory
import Mathlib.Data.Finset.Basic

namespace SipServer.Store

open SipServer.Lib
open SipServer.Repl (Changelog Partition)

/-!
Bodies are of an open type `Body`; beside each one stands, for the observer only, the incarnation its write
stated or took over. The clock is an argument. Instants and offsets are `i64` and unbounded here. A function
that takes the metadata lock once is one function of the store; `writePut` and `writeDelete` are the part
under that lock followed by the changelog entry. Left out: a poisoned lock.
-/

/-! ### Incarnations and tombstones -/

/-- Whether a write of `incoming` is of a call other than the `held` one: both are named and differ. -/
def isAnotherCall (held incoming : Option String) : Bool :=
  match held, incoming with
  | some held, some incoming => decide (held ≠ incoming)
  | _, _ => false

/-- How a call came to be buried. -/
inductive Burial where
  | deleted
  | replaced
deriving Repr, DecidableEq

structure Tombstone where
  buriedAtMs : ℤ
  incarnation : Option String
  burial : Burial
deriving Repr, DecidableEq

/-- `RESURRECTION_TOMBSTONE_MS`. -/
def resurrectionTombstoneMs : ℤ := 300000

/-- The tombstone is inside its window. -/
def Tombstone.live (tombstone : Tombstone) (nowMs : ℤ) : Bool :=
  decide (nowMs - tombstone.buriedAtMs < resurrectionTombstoneMs)

/-- Buried calls by callRef. -/
abbrev ResurrectionTombstones := KeyMap String (List Tombstone)

namespace ResurrectionTombstones

/-- The tombstones of a callRef. -/
def on (tombstones : ResurrectionTombstones) (callRef : String) : List Tombstone :=
  (tombstones.get callRef).getD []

/-- Bury an incarnation, re-stamped if it was buried before. -/
def bury (tombstones : ResurrectionTombstones) (callRef : String) (incarnation : Option String)
    (burial : Burial) (atMs : ℤ) : ResurrectionTombstones :=
  tombstones.insert callRef
    ((tombstones.on callRef).filter (fun tombstone => decide (tombstone.incarnation ≠ incarnation)) ++
      [⟨atMs, incarnation, burial⟩])

/-- How a put of `incarnation` is buried now, if it is; a put naming none is taken as one of any buried
    call. -/
def burial (tombstones : ResurrectionTombstones) (callRef : String) (incarnation : Option String)
    (nowMs : ℤ) : Option Burial :=
  let buried := (tombstones.on callRef).filter fun tombstone =>
    tombstone.live nowMs && (incarnation.isNone || decide (tombstone.incarnation = incarnation))
  -- `min_by_key`: a delete answers before a replacement.
  if buried.any fun tombstone => decide (tombstone.burial = .deleted) then some .deleted
  else buried.head?.map (·.burial)

/-- Drop every tombstone past its window. -/
def prune (tombstones : ResurrectionTombstones) (nowMs : ℤ) : ResurrectionTombstones :=
  tombstones.filterMap fun _ buried =>
    let kept := buried.filter fun tombstone => tombstone.live nowMs
    if kept = [] then none else some kept

end ResurrectionTombstones

/-! ### Refusals -/

/-- One refusal of a replica. -/
structure Refusal where
  incarnation : Option String
  primary : String
  expiryAtMs : ℤ
  seq : ℕ
deriving Repr, DecidableEq

/-- The replicas a backup refused, by callRef and in the order they were refused. -/
structure RefusedReplicas where
  byRef : KeyMap String Refusal
  order : SortedMap ℕ String
  nextSeq : ℕ

/-- `REFUSAL_TTL_MS`. -/
def refusalTtlMs : ℤ := 10000

/-- `REFUSALS_MAX`. -/
def refusalsMax : ℕ := 65536

namespace RefusedReplicas

def new : RefusedReplicas := ⟨∅, ∅, 0⟩

/-- The call is gone. -/
def clear (replicas : RefusedReplicas) (callRef : String) : RefusedReplicas :=
  match replicas.byRef.get callRef with
  | none => replicas
  | some refusal =>
    { replicas with byRef := replicas.byRef.remove callRef, order := replicas.order.remove refusal.seq }

/-- Drop every refusal that lapsed. -/
def reap (replicas : RefusedReplicas) (nowMs : ℤ) : RefusedReplicas :=
  let gone := replicas.byRef.keys.filter fun callRef =>
    (replicas.byRef.get callRef).any fun refusal => decide (refusal.expiryAtMs ≤ nowMs)
  gone.foldl clear replicas

/-- A new scan of a primary states what it backs up: every refusal of it goes. -/
def clearPrimary (replicas : RefusedReplicas) (primary : String) : RefusedReplicas :=
  let gone := replicas.byRef.keys.filter fun callRef =>
    (replicas.byRef.get callRef).any fun refusal => decide (refusal.primary = primary)
  gone.foldl clear replicas

/-- While the refusals are at their most, the oldest of those listed goes. -/
def evict (replicas : RefusedReplicas) : List (ℕ × String) → RefusedReplicas
  | [] => replicas
  | (seq, oldest) :: later =>
    if refusalsMax ≤ replicas.byRef.size then
      { replicas with byRef := replicas.byRef.remove oldest, order := replicas.order.remove seq }.evict later
    else replicas

/-- Refuse a call incarnation of a primary. -/
def refuse (replicas : RefusedReplicas) (callRef : String) (incarnation : Option String) (primary : String)
    (nowMs : ℤ) : RefusedReplicas :=
  let cleared := replicas.clear callRef
  let room := cleared.evict cleared.order.pairs
  { byRef := room.byRef.insert callRef ⟨incarnation, primary, nowMs + refusalTtlMs, room.nextSeq⟩
    order := room.order.insert room.nextSeq callRef
    nextSeq := room.nextSeq + 1 }

/-- Whether a write is refused: the same call incarnation was, or one of the two names none. -/
def refuses (replicas : RefusedReplicas) (callRef : String) (incarnation : Option String) : Bool :=
  (replicas.byRef.get callRef).any fun refusal =>
    incarnation.isNone || refusal.incarnation.isNone || decide (refusal.incarnation = incarnation)

end RefusedReplicas

/-- The replicas refused here as a backup, and this node's own calls with no backup. -/
structure Refusals where
  replicas : RefusedReplicas
  unbacked : Finset String

/-! ### The store -/

/-- What a frame carries of a call beside its body. -/
structure RefMeta where
  callGen : ℤ
  callBgen : ℤ
  bodyTtlMs : ℤ
  indexes : List String
  incarnation : Option String
  skewOffsetMs : Option ℤ
deriving Repr, DecidableEq

/-- The record beside a body: where it lives, the call's backup, when it expires and the authority's
    answer. -/
structure CallMeta where
  refMeta : RefMeta
  role : PartitionRole
  primary : String
  backup : Option String
  expiryAtMs : Option ℤ
  authorityAnswered : Bool
deriving Repr, DecidableEq

/-- Whether the body is past its time to live. -/
def CallMeta.expired (record : CallMeta) (nowMs : ℤ) : Bool :=
  record.expiryAtMs.any fun expiry => decide (expiry ≤ nowMs)

/-- Primary to backup, or an acting backup to the primary. -/
inductive PropagateDirection where
  | forward
  | reverse
deriving Repr, DecidableEq

structure PutOpts where
  peer : Option String
  direction : Option PropagateDirection
  originNowMs : Option ℤ
  incarnation : Option String
deriving Repr, DecidableEq

/-- A body with the incarnation its write stated or took over. -/
structure StoredBody (Body : Type) where
  body : Body
  incarnation : Option String
deriving Repr, DecidableEq

structure ReplicatingCallStore (Body : Type) where
  inner : InMemoryCallStore (StoredBody Body)
  changelog : Changelog
  records : KeyMap String CallMeta
  backups : ℕ
  refusals : Refusals
  tombstones : ResurrectionTombstones
  displaced : KeyMap String Body
  defaultTtlMs : ℤ

/-- A put: where it goes, the body with its version, and the options. -/
structure PutWrite (Body : Type) where
  role : PartitionRole
  primary : String
  callRef : String
  body : Body
  indexes : List String
  ttlMs : ℤ
  callGen : ℤ
  callBgen : ℤ
  opts : PutOpts
deriving Repr, DecidableEq

structure DeleteWrite where
  role : PartitionRole
  primary : String
  callRef : String
  indexes : List String
  answered : Bool
  opts : PutOpts
deriving Repr, DecidableEq

namespace ReplicatingCallStore

variable {Body : Type}

def new (gen : ℕ) (deadPeerTtlMs defaultTtlMs : ℤ) : ReplicatingCallStore Body where
  inner := .new
  changelog := .new gen deadPeerTtlMs
  records := ∅
  backups := 0
  refusals := ⟨⟨∅, ∅, 0⟩, ∅⟩
  tombstones := ∅
  displaced := ∅
  defaultTtlMs := defaultTtlMs

variable (store : ReplicatingCallStore Body)

/-- The expiry of a body stored with `ttlMs`, with the backstop for none. -/
def expiryFor (nowMs ttlMs : ℤ) : Option ℤ :=
  let effective := if 0 < ttlMs then ttlMs else store.defaultTtlMs
  if 0 < effective then some (nowMs + effective) else none

/-- The partition a write's frame is tagged with. -/
def partitionFor : Option PropagateDirection → Partition
  | some .reverse => .pri
  | _ => .bak

/-- The count of records of role `Backup` after one of them changes. -/
def accountRole (backups : ℕ) (old next : Option PartitionRole) : ℕ :=
  if next = some .backup ∧ old ≠ some .backup then backups + 1
  else if old = some .backup ∧ next ≠ some .backup then backups - 1
  else backups

/-- The incarnation held for a callRef. -/
def heldIncarnation (callRef : String) : Option String :=
  (store.records.get callRef).bind fun record => record.refMeta.incarnation

/-- Keep a backup's body of a named call for the replica reap. -/
def keepForReap (incarnation : Option String) (body : Body) : ReplicatingCallStore Body :=
  match incarnation with
  | some incarnation => { store with displaced := store.displaced.insert incarnation body }
  | none => store

/-- Bury a call another one replaced, and on a backup keep its body for the reap. -/
def buryReplaced (callRef : String) (incarnation : Option String) (body : Body)
    (role : PartitionRole) (nowMs : ℤ) : ReplicatingCallStore Body :=
  let buried := { store with tombstones := store.tombstones.bury callRef incarnation .replaced nowMs }
  if role = .backup then buried.keepForReap incarnation body else buried

/-- Remove the record and the body of the call a write of another one replaces. -/
def displace (callRef : String) (gone : CallMeta) (nowMs : ℤ) : ReplicatingCallStore Body :=
  let removed := store.inner.removeBody ⟨gone.role, gone.primary, callRef⟩ gone.refMeta.indexes
  let displaced := { store with
    inner := removed.1
    records := store.records.remove callRef
    backups := accountRole store.backups (some gone.role) none
    tombstones := store.tombstones.bury callRef gone.refMeta.incarnation .replaced nowMs }
  match gone.role, removed.2 with
  | .backup, some body =>
    if 0 < gone.refMeta.callBgen then displaced.keepForReap gone.refMeta.incarnation body.body else displaced
  | _, _ => displaced

/-- Whether a write of `incarnation` is taken, and the store it leaves before the write. -/
def admits (callRef : String) (incarnation : Option String) (body : Body)
    (role : PartitionRole) (direction : Option PropagateDirection) (nowMs : ℤ) :
    ReplicatingCallStore Body × Bool :=
  match store.tombstones.burial callRef incarnation nowMs with
  | some .deleted => (store, false)
  | some .replaced =>
    match incarnation with
    | some _ => (store.buryReplaced callRef incarnation body role nowMs, false)
    | none => (store, false)
  | none =>
    if isAnotherCall (store.heldIncarnation callRef) incarnation then
      if direction = some .reverse then (store.buryReplaced callRef incarnation body role nowMs, false)
      else
        match store.records.get callRef with
        | some gone => (store.displace callRef gone nowMs, true)
        | none => (store, true)
    else (store, true)

/-- The backup a forward flush names. -/
def flushedBackup (opts : PutOpts) : Option String :=
  match opts.direction with
  | some .forward => opts.peer
  | _ => none

/-- The record a write leaves: what the write does not carry stays as it was. -/
def recorded (held : Option CallMeta) (write : PutWrite Body) (refMeta : RefMeta) (expiryAtMs : Option ℤ) :
    CallMeta :=
  match held with
  | some record =>
    { record with
      refMeta := refMeta
      role := write.role
      primary := write.primary
      expiryAtMs := expiryAtMs
      backup := if (flushedBackup write.opts).isSome then flushedBackup write.opts else record.backup }
  | none => ⟨refMeta, write.role, write.primary, flushedBackup write.opts, expiryAtMs, false⟩

/-- The part of a put under the metadata lock, and whether the write was taken. -/
def storePut (nowMs : ℤ) (write : PutWrite Body) : ReplicatingCallStore Body × Bool :=
  -- An unnamed write is one of the held call: it takes its name.
  let incarnation := write.opts.incarnation.or (store.heldIncarnation write.callRef)
  let admitted := store.admits write.callRef incarnation write.body write.role write.opts.direction nowMs
  if admitted.2 then
    let store := admitted.1
    let held := store.records.get write.callRef
    let refMeta : RefMeta :=
      ⟨write.callGen, write.callBgen, write.ttlMs, write.indexes, incarnation,
        write.opts.originNowMs.map fun origin => nowMs - origin⟩
    ({ store with
      inner := store.inner.storeBody ⟨write.role, write.primary, write.callRef⟩
        ⟨write.body, incarnation⟩ write.indexes
      records := store.records.insert write.callRef
        (recorded held write refMeta (store.expiryFor nowMs write.ttlMs))
      backups := accountRole store.backups (held.map (·.role)) (some write.role) }, true)
  else (admitted.1, false)

/-- A refusal of the call no longer stands, and the peer's entry moves. -/
def logPut (nowMs : ℤ) (write : PutWrite Body) : ReplicatingCallStore Body :=
  { store with
    refusals := { store.refusals with replicas := store.refusals.replicas.clear write.callRef }
    changelog :=
      match write.opts.peer with
      | some peer => (store.changelog.bumpPut nowMs peer write.callRef (partitionFor write.opts.direction)).1
      | none => store.changelog }

/-- `write_put`. -/
def writePut (nowMs : ℤ) (write : PutWrite Body) : ReplicatingCallStore Body :=
  let stored := store.storePut nowMs write
  if stored.2 then stored.1.logPut nowMs write else stored.1

/-- The incarnation a delete ends: the one it names, or the one it finds. -/
def deletedIncarnation (write : DeleteWrite) : Option String :=
  write.opts.incarnation.or (store.heldIncarnation write.callRef)

/-- Whether a delete is of another call than the one held. -/
def deletesAnother (write : DeleteWrite) : Bool :=
  (store.records.get write.callRef).isSome &&
    isAnotherCall (store.heldIncarnation write.callRef) write.opts.incarnation

/-- The part of a delete under the metadata lock: a call other than the held one is only buried, else the
    body and the record go and the call is buried. -/
def storeDelete (nowMs : ℤ) (write : DeleteWrite) : ReplicatingCallStore Body :=
  if store.deletesAnother write then
    { store with tombstones := store.tombstones.bury write.callRef write.opts.incarnation .deleted nowMs }
  else
    { store with
      inner := (store.inner.removeBody ⟨write.role, write.primary, write.callRef⟩ write.indexes).1
      records := store.records.remove write.callRef
      backups :=
        match store.records.get write.callRef with
        | some gone => accountRole store.backups (some gone.role) none
        | none => store.backups
      tombstones := store.tombstones.bury write.callRef (store.deletedIncarnation write) .deleted nowMs }

/-- The call has no refusal and no want of a backup, and the peer's entry becomes a delete of
    `incarnation`. -/
def logDelete (nowMs : ℤ) (write : DeleteWrite) (incarnation : Option String) : ReplicatingCallStore Body :=
  { store with
    refusals :=
      { replicas := store.refusals.replicas.clear write.callRef
        unbacked := store.refusals.unbacked.erase write.callRef }
    changelog :=
      match write.opts.peer with
      | some peer =>
        (store.changelog.bumpDelete nowMs peer write.callRef (partitionFor write.opts.direction)
          write.answered           incarnation).1
      | none => store.changelog }

/-- `write_delete`. -/
def writeDelete (nowMs : ℤ) (write : DeleteWrite) : ReplicatingCallStore Body :=
  let stored := store.storeDelete nowMs write
  if store.deletesAnother write then stored
  else stored.logDelete nowMs write (store.deletedIncarnation write)

/-- The callRefs whose body is expired. -/
def expiredSnapshot (nowMs : ℤ) : List String :=
  store.records.keys.filter fun callRef =>
    (store.records.get callRef).any fun record => record.expired nowMs

/-- Evict one snapshotted callRef if its body is still expired, and the body evicted. -/
def evict (nowMs : ℤ) (callRef : String) : ReplicatingCallStore Body × Option Body :=
  match store.records.get callRef with
  | none => (store, none)
  | some record =>
    if record.expired nowMs then
      let removed := store.inner.removeBody ⟨record.role, record.primary, callRef⟩ record.refMeta.indexes
      ({ store with
        inner := removed.1
        records := store.records.remove callRef
        backups := accountRole store.backups (some record.role) none }, removed.2.map (·.body))
    else (store, none)

/-- Evict the snapshotted callRefs in turn; the bodies evicted. -/
def evictSnapshot (store : ReplicatingCallStore Body) (nowMs : ℤ) :
    List String → ReplicatingCallStore Body × List Body
  | [] => (store, [])
  | callRef :: expired =>
    let evicted := store.evict nowMs callRef
    let rest := evicted.1.evictSnapshot nowMs expired
    (rest.1, evicted.2.toList ++ rest.2)

/-- What a reap does before it looks for expired bodies. -/
def upkeep (nowMs : ℤ) : ReplicatingCallStore Body :=
  { store with
    tombstones := store.tombstones.prune nowMs
    refusals := { store.refusals with replicas := store.refusals.replicas.reap nowMs }
    changelog := store.changelog.reap nowMs }

/-- Prune tombstones and refusals, reap the changelog, then evict every expired body. -/
def reap (nowMs : ℤ) : ReplicatingCallStore Body × List Body :=
  let pruned := store.upkeep nowMs
  pruned.evictSnapshot nowMs (pruned.expiredSnapshot nowMs)

/-! ### Reads of the replication server -/

/-- A body with its metadata, of one write; an expired body reads as absent. -/
def readEntry (nowMs : ℤ) (place : BodyKey) : Option (Body × RefMeta) :=
  match store.records.get place.callRef with
  | none => none
  | some record =>
    if record.expired nowMs then none
    else (store.inner.bodies.get place).map fun stored => (stored.body, record.refMeta)

/-- Whether the record is one of this node's own calls, `primary`, that `backup` backs up, and not
    expired. -/
def backedBy (nowMs : ℤ) (primary backup : String) (record : CallMeta) : Bool :=
  decide (record.role = .primary) && decide (record.primary = primary) &&
    decide (record.backup = some backup) &&
    !record.expired nowMs

/-- The callRefs a bootstrap of `backup` scans. -/
def scanRefsBackedBy (nowMs : ℤ) (primary backup : String) : List String :=
  store.records.keys.filter fun callRef => (store.records.get callRef).any (backedBy nowMs primary backup)

/-! ### Runs -/

/-- One operation on the store. -/
inductive Operation (Body : Type) where
  | put (write : PutWrite Body)
  | delete (write : DeleteWrite)
  | reap
deriving Repr, DecidableEq

/-- An operation at an instant of the clock. -/
structure Request (Body : Type) where
  nowMs : ℤ
  operation : Operation Body
deriving Repr, DecidableEq

def step (request : Request Body) : ReplicatingCallStore Body :=
  match request.operation with
  | .put write => store.writePut request.nowMs write
  | .delete write => store.writeDelete request.nowMs write
  | .reap => (store.reap request.nowMs).1

end ReplicatingCallStore

end SipServer.Store
