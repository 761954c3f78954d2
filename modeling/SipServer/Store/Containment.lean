/-
Module: SipServer.Store.Containment
Purpose: Two copies of one call incarnation, each in its envelope: the version vector and state stamp
  (`b2bua/src/store/envelope.rs`), the write that moves them (`CallState::update` in
  `b2bua/src/store/mod.rs`), containment and the meeting of two copies (`b2bua/src/store/containment.rs`).
Trusted boundary: translated from the source
-/
import SipServer.Call.Copies
import SipServer.Call.Compared
import SipServer.Store.Memory

namespace SipServer.Store

open SipServer.Call

/-- The role of the call's other owner. -/
def PartitionRole.other : PartitionRole → PartitionRole
  | .primary => .backup
  | .backup => .primary

/-! ### The envelope -/

/-- The worker pair of a call, its version vector `(p, b)` and its state stamp. -/
structure CallTopology where
  pri : String
  bak : String
  gen : ℤ
  bakGen : ℤ
  stampGen : ℤ
  stampBakGen : ℤ
deriving Repr, DecidableEq

namespace CallTopology

/-- The topology of a call at `(gen, bakGen)`, stamped at that version. -/
def new (pri bak : String) (gen bakGen : ℤ) : CallTopology := ⟨pri, bak, gen, bakGen, gen, bakGen⟩

/-- The version vector `(p, b)`. -/
def vector (topology : CallTopology) : ℤ × ℤ := (topology.gen, topology.bakGen)

/-- The state stamp `(p, b)`. -/
def stamp (topology : CallTopology) : ℤ × ℤ := (topology.stampGen, topology.stampBakGen)

/-- Stamp the current vector: the write it counts changed a compared field. -/
def stampVector (topology : CallTopology) : CallTopology :=
  { topology with stampGen := topology.gen, stampBakGen := topology.bakGen }

/-- Raise the vector to the component-wise maximum; the stamp stays. -/
def raiseVector (topology other : CallTopology) : CallTopology :=
  { topology with
    gen := max topology.gen other.gen
    bakGen := max topology.bakGen other.bakGen }

/-- Count a write of the node in `role`. -/
def bump (topology : CallTopology) : PartitionRole → CallTopology
  | .primary => { topology with gen := topology.gen + 1 }
  | .backup => { topology with bakGen := topology.bakGen + 1 }

end CallTopology

/-- A call record in its envelope; a call placed without a worker pair has no topology. -/
structure Enveloped (Data : Type) where
  call : Record Data
  topology : Option CallTopology
deriving Repr, DecidableEq

variable {Data : Type} [DecidableEq Data]

namespace Enveloped

/-- The copy with the exempt fields of `other` merged in and its vector raised; the stamp stays. -/
def mergeExempt (envelope other : Enveloped Data) : Enveloped Data where
  call := envelope.call.mergeExempt other.call
  topology :=
    match envelope.topology, other.topology with
    | some mine, some theirs => some (mine.raiseVector theirs)
    | mine, _ => mine

/-- A write of the node in `role`: its counter moves, and the stamp when a compared field changed. -/
def update (resident : Enveloped Data) (role : PartitionRole) (call : Record Data) : Enveloped Data :=
  let changed := !resident.call.sameState call
  { call := call
    topology := resident.topology.map fun topology =>
      if changed then (topology.bump role).stampVector else topology.bump role }

end Enveloped

/-! ### Containment -/

/-- How two copies of one call incarnation stand. -/
inductive Containment where
  | both
  | held
  | incoming
  | neither
deriving Repr, DecidableEq

/-- Whether the copy at `r` contains the copy at `l`: `l`'s stamp is at or below `r`'s vector. -/
def contains (r l : CallTopology) : Bool :=
  decide (l.stamp.1 ≤ r.vector.1) && decide (l.stamp.2 ≤ r.vector.2)

def containment (held incoming : CallTopology) : Containment :=
  match contains held incoming, contains incoming held with
  | true, true => .both
  | true, false => .held
  | false, true => .incoming
  | false, false => .neither

/-- What a meeting of two copies keeps. -/
inductive Met (Data : Type) where
  | held (kept : Enveloped Data)
  | incoming (kept : Enveloped Data)
  | diverged
deriving Repr, DecidableEq

/-- `held` meets `incoming`: the copy that contains the other stands, the primary's when each does. -/
def meet (held incoming : Enveloped Data) (incomingIsPrimary : Bool) : Met Data :=
  match held.topology, incoming.topology with
  | some mine, some theirs =>
    match containment mine theirs with
    | .held => .held (held.mergeExempt incoming)
    | .incoming => .incoming (incoming.mergeExempt held)
    | .both =>
      if incomingIsPrimary then .incoming (incoming.mergeExempt held)
      else .held (held.mergeExempt incoming)
    | .neither => .diverged
  | _, _ => .held held

/-! ### Two copies of one call -/

/-- A write of the call's limiter state within a turn: it is only ever moved by its own operations. -/
inductive LimiterWrite where
  | number (turn : Numbering)
  | learn (answer : Learning)
deriving Repr, DecidableEq

def LimiterWrite.apply (state : CallLimiterState) : LimiterWrite → CallLimiterState
  | .number turn => turn.apply state
  | .learn answer => answer.apply state

/-- One change of a compared field, as an observer of both nodes records it: its number among all of the run,
    the node that made it, the vector it was stamped with and whether the call then owed a release. -/
structure StateChange where
  id : ℕ
  author : PartitionRole
  vector : ℤ × ℤ
  owes : Bool
deriving Repr, DecidableEq

/-- One node's copy, with the changes it has incorporated. -/
structure Copy (Data : Type) where
  call : Record Data
  topology : CallTopology
  seen : List StateChange
deriving Repr, DecidableEq

namespace Copy

def enveloped (copy : Copy Data) : Enveloped Data := ⟨copy.call, some copy.topology⟩

/-- The node takes `kept`, a copy that has incorporated `seen`. -/
def replace (copy : Copy Data) (kept : Enveloped Data) (seen : List StateChange) : Copy Data :=
  ⟨kept.call, kept.topology.getD copy.topology, seen⟩

/-- A turn of the node in `role` leaves the record `next`, the limiter state moved by `limiterWrites`. -/
def write (copy : Copy Data) (role : PartitionRole) (id : ℕ) (next : Record Data)
    (limiterWrites : List LimiterWrite) : Copy Data :=
  let call := { next with limiter := limiterWrites.foldl LimiterWrite.apply copy.call.limiter }
  let updated := copy.enveloped.update role call
  let change : StateChange := ⟨id, role, (copy.topology.bump role).vector, call.limiter.releaseOwed⟩
  copy.replace updated (if copy.call.sameState call then copy.seen else change :: copy.seen)

/-- The copy met by `incoming`; copies that diverged stay apart. -/
def meets (copy incoming : Copy Data) (role : PartitionRole) : Copy Data :=
  match meet copy.enveloped incoming.enveloped (decide (role = .backup)) with
  | .held kept => copy.replace kept copy.seen
  | .incoming kept => copy.replace kept incoming.seen
  | .diverged => copy

end Copy

/-- The call's two copies and the number of changes made so far. -/
structure Pair (Data : Type) where
  primary : Copy Data
  backup : Copy Data
  changes : ℕ
deriving Repr, DecidableEq

namespace Pair

/-- What happens to the copy of the node in `role`. -/
inductive Event (Data : Type) where
  | write (role : PartitionRole) (next : Record Data) (limiterWrites : List LimiterWrite)
  | take (role : PartitionRole)
  | meet (role : PartitionRole)

def copy (pair : Pair Data) : PartitionRole → Copy Data
  | .primary => pair.primary
  | .backup => pair.backup

def setCopy (pair : Pair Data) (role : PartitionRole) (copy : Copy Data) : Pair Data :=
  match role with
  | .primary => { pair with primary := copy }
  | .backup => { pair with backup := copy }

def step (pair : Pair Data) : Event Data → Pair Data
  | .write role next limiterWrites =>
    { pair.setCopy role ((pair.copy role).write role pair.changes next limiterWrites) with
      changes := pair.changes + 1 }
  | .take role => pair.setCopy role (pair.copy role.other)
  | .meet role => pair.setCopy role ((pair.copy role).meets (pair.copy role.other) role)

/-- Both copies as they left their common origin. -/
def origin (call : Record Data) (topology : CallTopology) : Pair Data :=
  ⟨⟨call, topology, []⟩, ⟨call, topology, []⟩, 0⟩

end Pair

end SipServer.Store
