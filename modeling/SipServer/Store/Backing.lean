/-
Module: SipServer.Store.Backing
Purpose: Which backup a call's writes go to (`b2bua/src/store/mod.rs`, `store/backup.rs`,
  `repl/replication.rs`), the refusal of a replica by its backup (`repl/store/backing.rs`), and the two of
  them interleaved at the locks they take.
Trusted boundary: translated from the source
-/
import SipServer.Lib.Runs
import SipServer.Store.Replicating

namespace SipServer.Store

open SipServer.Lib
open SipServer.Repl (Changelog)

/-! ### Where a write goes -/

/-- The primary a callRef names; a callRef without an ordinal is this node's own. -/
def primaryOf (selfOrdinal callRef : String) : String :=
  match Index.parseCallRef callRef.toList with
  | some parsed => String.ofList parsed.primary
  | none => selfOrdinal

/-- The peer a write goes to: the backup of an own call, the primary of another node's. -/
def replicationTarget (selfOrdinal callRef : String) (backupResolver : String → Option String) :
    Option (String × PropagateDirection) :=
  let primary := primaryOf selfOrdinal callRef
  if primary = selfOrdinal then (backupResolver callRef).map fun backup => (backup, .forward)
  else some (primary, .reverse)

/-- Where a write is stored, and where it goes. -/
structure ReplicationPlan where
  role : PartitionRole
  primary : String
  target : Option (String × PropagateDirection)
deriving Repr, DecidableEq

namespace ReplicationPlan

def resolve (selfOrdinal callRef : String) (backupResolver : String → Option String) : ReplicationPlan :=
  let (role, primary) := partitionOf selfOrdinal callRef
  ⟨role, primary, replicationTarget selfOrdinal callRef backupResolver⟩

def putOpts (plan : ReplicationPlan) : PutOpts :=
  match plan.target with
  | some (peer, direction) => ⟨some peer, some direction, none, none⟩
  | none => ⟨none, none, none, none⟩

end ReplicationPlan

namespace ReplicatingCallStore

variable {Body : Type}

variable (store : ReplicatingCallStore Body)

/-- Whether this node's call has no backup. -/
def unbacked (callRef : String) : Bool := decide (callRef ∈ store.refusals.unbacked)

/-- The backup of a call whose envelope names `bak`. -/
def backupOf (callRef : String) (bak : Option String) : Option String :=
  (bak.filter fun bak => !bak.isEmpty).bind fun bak => if store.unbacked callRef then none else some bak

/-- The place of a call's write and its options: a call without a backup is stored here alone. -/
def storeTarget (selfOrdinal callRef : String) (bak : Option String) : PartitionRole × String × PutOpts :=
  match store.backupOf callRef bak with
  | some bak =>
    let plan := ReplicationPlan.resolve selfOrdinal callRef fun _ => some bak
    (plan.role, plan.primary, plan.putOpts)
  | none =>
    let (role, primary) := partitionOf selfOrdinal callRef
    (role, primary, ⟨none, none, none, none⟩)

/-! ### Calls without a backup -/

/-- Change which of this node's calls have no backup. -/
def changeUnbacked (change : Finset String → Finset String) : ReplicatingCallStore Body :=
  { store with refusals := { store.refusals with unbacked := change store.refusals.unbacked } }

/-- The new call has no backup for its whole life. -/
def leaveUnbacked (callRef : String) : ReplicatingCallStore Body :=
  store.changeUnbacked (insert callRef)

/-- The new call has its backup, whatever an earlier call on the callRef had. -/
def admitBacked (callRef : String) : ReplicatingCallStore Body :=
  store.changeUnbacked (·.erase callRef)

/-- Whether this node holds the call as its primary with `backup` as its backup; a refusal that names no
    incarnation is of any. -/
def heldWith (backup callRef : String) (incarnation : Option String) : Bool :=
  (store.records.get callRef).any fun record =>
    decide (record.role = .primary) && decide (record.backup = some backup) &&
      incarnation.all fun named => decide (record.refMeta.incarnation = some named)

/-- The part of `backup_refused` under the metadata lock: the call has no backup from here on. -/
def dropBackup (callRef : String) : ReplicatingCallStore Body :=
  { store with records := store.records.modify callRef fun record => { record with
    backup := none } }.leaveUnbacked callRef

/-- The part of `backup_refused` under the change log's lock: the call's entry toward the backup goes. -/
def forgetBackup (backup callRef : String) : ReplicatingCallStore Body :=
  { store with changelog := store.changelog.forget backup .bak callRef }

/-- The part of `abandon_backup` under the metadata lock, and the incarnation it gives up. -/
def dropAbandoned (callRef : String) : ReplicatingCallStore Body × Option String :=
  match store.records.get callRef with
  | some record =>
    if record.role = .primary then (store.dropBackup callRef, record.refMeta.incarnation)
    else (store.leaveUnbacked callRef, none)
  | none => (store.leaveUnbacked callRef, none)

/-- The part of `abandon_backup` under the change log's lock: the call's entry toward the backup becomes a
    delete. -/
def logAbandoned (nowMs : ℤ) (backup callRef : String)
    (incarnation : Option String) : ReplicatingCallStore Body :=
  { store with changelog := (store.changelog.bumpDelete nowMs backup callRef .bak false incarnation).1 }

end ReplicatingCallStore

/-! ### Turns and refusals at work -/

/-- How far the write of a turn has come. -/
inductive Turn (Body : Type) where
  /-- Its target is resolved, its body is not stored. -/
  | flushing (role : PartitionRole) (primary : String) (opts : PutOpts)
  | deleting (role : PartitionRole) (primary : String) (opts : PutOpts)
  /-- Stored, and the change log not moved. -/
  | stored (write : PutWrite Body)
  | deleted (write : DeleteWrite) (incarnation : Option String)
  | abandoned (backup : String) (incarnation : Option String)

/-- The body a turn flushes and what stands beside it. -/
structure Flushed (Body : Type) where
  body : Body
  indexes : List String
  ttlMs : ℤ
  callGen : ℤ
  callBgen : ℤ
  incarnation : String

/-!
A turn takes the refusals' lock where its target is resolved, the metadata lock where its body is stored or
removed, and the change log's where its entry moves; a refusal takes the metadata lock and then the change
log's. Each of these is one event. A frame of a peer is applied in one event: it moves no entry.
-/

/-- A node at its store: the turn of each call that is under way (its lock lets one in), and the refusals
    whose entry toward the backup is still to go. -/
structure BackedNode (Body : Type) where
  store : ReplicatingCallStore Body
  turns : KeyMap String (Turn Body)
  refusing : List (String × String)

/-- One critical section, by the task that takes it. -/
inductive BackedEvent (Body : Type) where
  /-- A new call is admitted, with its backup or for life without. -/
  | admits (callRef : String) (backed : Bool)
  /-- A turn of the call, whose envelope names `bak`, resolves where its write goes. -/
  | resolve (callRef : String) (bak : Option String)
  | resolveDelete (callRef : String) (bak : Option String)
  /-- A turn ends that found nothing to write. -/
  | leave (callRef : String)
  | store (nowMs : ℤ) (callRef : String) (flushed : Flushed Body)
  | log (nowMs : ℤ) (callRef : String)
  | delete (nowMs : ℤ) (callRef : String) (indexes : List String) (answered : Bool) (incarnation : String)
  | logDelete (nowMs : ℤ) (callRef : String)
  /-- The body of a turn's write does not encode. -/
  | abandon (callRef : String)
  | logAbandoned (nowMs : ℤ) (callRef : String)
  /-- A backup's refusal is read. -/
  | refuse (backup callRef : String) (incarnation : Option String)
  | forget (backup callRef : String)
  /-- A frame of a peer is applied in the partition it names, under its callRef's primary; it goes to no
      other peer. -/
  | applied (nowMs : ℤ) (write : PutWrite Body)
  | appliedDelete (nowMs : ℤ) (write : DeleteWrite)
  | reap (nowMs : ℤ)
  /-- What serving a peer does to the change log. -/
  | serves (operation : Changelog.Operation)

namespace BackedNode

variable {Body : Type}

def new (gen : ℕ) (deadPeerTtlMs defaultTtlMs : ℤ) : BackedNode Body :=
  ⟨.new gen deadPeerTtlMs defaultTtlMs, ∅, []⟩

/-- The backup a turn gives up: the peer of a forward write. -/
def abandons (opts : PutOpts) : Option String :=
  if opts.direction = some .forward then opts.peer else none

/-- A task's critical section on the node. -/
def step (selfOrdinal : String) (node : BackedNode Body) : BackedEvent Body → Option (BackedNode Body)
  | .admits callRef backed =>
    some { node with
      store := if backed then node.store.admitBacked callRef else node.store.leaveUnbacked callRef }
  | .resolve callRef bak =>
    match node.turns.get callRef with
    | none =>
      let (role, primary, opts) := node.store.storeTarget selfOrdinal callRef bak
      some { node with turns := node.turns.insert callRef (.flushing role primary opts) }
    | some _ => none
  | .resolveDelete callRef bak =>
    match node.turns.get callRef with
    | none =>
      let (role, primary, opts) := node.store.storeTarget selfOrdinal callRef bak
      some { node with turns := node.turns.insert callRef (.deleting role primary opts) }
    | some _ => none
  | .leave callRef =>
    match node.turns.get callRef with
    | some (.flushing ..) | some (.deleting ..) => some { node with turns := node.turns.remove callRef }
    | _ => none
  | .store nowMs callRef flushed =>
    match node.turns.get callRef with
    | some (.flushing role primary opts) =>
      let write : PutWrite Body :=
        ⟨role, primary, callRef, flushed.body, flushed.indexes, flushed.ttlMs, flushed.callGen,
          flushed.callBgen, { opts with incarnation := some flushed.incarnation }⟩
      let stored := node.store.storePut nowMs write
      some { node with
        store := stored.1
        turns := if stored.2 then node.turns.insert callRef (.stored write) else node.turns.remove callRef }
    | _ => none
  | .log nowMs callRef =>
    match node.turns.get callRef with
    | some (.stored write) =>
      some { node with store := node.store.logPut nowMs write, turns := node.turns.remove callRef }
    | _ => none
  | .delete nowMs callRef indexes answered incarnation =>
    match node.turns.get callRef with
    | some (.deleting role primary opts) =>
      let write : DeleteWrite :=
        ⟨role, primary, callRef, indexes, answered, { opts with incarnation := some incarnation }⟩
      some { node with
        store := node.store.storeDelete nowMs write
        turns :=
          if node.store.deletesAnother write then node.turns.remove callRef
          else node.turns.insert callRef (.deleted write (node.store.deletedIncarnation write)) }
    | _ => none
  | .logDelete nowMs callRef =>
    match node.turns.get callRef with
    | some (.deleted write incarnation) =>
      some { node with
        store := node.store.logDelete nowMs write incarnation, turns := node.turns.remove callRef }
    | _ => none
  | .abandon callRef =>
    match node.turns.get callRef with
    | some (.flushing _ _ opts) =>
      match abandons opts with
      | some backup =>
        let dropped := node.store.dropAbandoned callRef
        some { node with
          store := dropped.1, turns := node.turns.insert callRef (.abandoned backup dropped.2) }
      | none => some { node with turns := node.turns.remove callRef }
    | _ => none
  | .logAbandoned nowMs callRef =>
    match node.turns.get callRef with
    | some (.abandoned backup incarnation) =>
      some { node with
        store := node.store.logAbandoned nowMs backup callRef incarnation
        turns := node.turns.remove callRef }
    | _ => none
  | .refuse backup callRef incarnation =>
    if node.store.heldWith backup callRef incarnation then
      some { node with
        store := node.store.dropBackup callRef, refusing := (backup, callRef) :: node.refusing }
    else some node
  | .forget backup callRef =>
    if (backup, callRef) ∈ node.refusing then
      some { node with
        store := node.store.forgetBackup backup callRef, refusing := node.refusing.erase (backup, callRef) }
    else none
  | .applied nowMs write =>
    if write.opts.peer = none ∧ write.primary = (partitionOf selfOrdinal write.callRef).2 then
      some { node with store := node.store.writePut nowMs write }
    else none
  | .appliedDelete nowMs write =>
    if write.opts.peer = none then some { node with store := node.store.writeDelete nowMs write } else none
  | .reap nowMs => some { node with store := (node.store.reap nowMs).1 }
  | .serves operation =>
    match operation with
    | .put .. | .delete .. | .forget .. => none
    | operation =>
      some { node with store := { node.store with changelog := node.store.changelog.step operation } }

end BackedNode

end SipServer.Store
