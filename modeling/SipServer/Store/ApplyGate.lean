/-
Module: SipServer.Store.ApplyGate
Purpose: What the puller does with a replicated `Put` of a call it may hold (`Puller::apply_to_store` in
  `b2bua/src/repl/puller/apply.rs`, `meet_stored` beside it): the version vectors of the stored and the
  incoming copy settle the frame, or the two copies meet. Runs are over every copy of one call incarnation
  that exists anywhere: in a node's memory, in a store or in a frame still on its way.
Trusted boundary: translated from the source
-/
import SipServer.Store.Containment

namespace SipServer.Store

open SipServer.Call

/-- How an inbound frame is reconciled into the store. -/
inductive ApplyMode where
  | bootstrap
  | forward
  | reverse
deriving Repr, DecidableEq

/-- What was done with a frame. -/
inductive ApplyOutcome where
  | applied
  | dominated
  | refused
  | shed
  | superseded
deriving Repr, DecidableEq

/-- The stored vector is at or past the incoming one. -/
def dominated (stored incoming : ℤ × ℤ) : Bool :=
  decide (stored.1 ≥ incoming.1) && decide (stored.2 ≥ incoming.2)

/-- The incoming vector is at or past the stored one. -/
def descends (stored incoming : ℤ × ℤ) : Bool :=
  decide (stored.1 ≤ incoming.1) && decide (stored.2 ≤ incoming.2)

/-- What the vectors settle of a `Put`; `none` when the two copies have to meet. -/
def applyGate (mode : ApplyMode) (stored : Option (ℤ × ℤ)) (anotherCall : Bool) (incoming : ℤ × ℤ) :
    Option ApplyOutcome :=
  match mode with
  | .bootstrap =>
    match stored with
    | some version => if !anotherCall && dominated version incoming then some .dominated else some .applied
    | none => some .applied
  | .forward =>
    if anotherCall then some .applied else vectors
  | .reverse =>
    if anotherCall then some .superseded else vectors
where
  /-- Both steady directions read the vectors the same way. -/
  vectors : Option ApplyOutcome :=
    match stored with
    | none => some .applied
    | some version =>
      if dominated version incoming then some .dominated
      else if descends version incoming then some .applied
      else none

/-- The direction in which frames reach the node in `role`: the primary's flow forward, the backup's
    reverse. -/
def ApplyMode.reaching : PartitionRole → ApplyMode
  | .backup => .forward
  | .primary => .reverse

variable {Data : Type} [DecidableEq Data]

/-- The copy the node in `role` stores once `incoming`, a copy of the same incarnation, is applied over
    `copy`. -/
def Copy.applies (copy incoming : Copy Data) (role : PartitionRole) : Copy Data :=
  match applyGate (.reaching role) (some copy.topology.vector) false incoming.topology.vector with
  | some .applied => incoming
  | some _ => copy
  | none => copy.meets incoming role

/-- Every copy of one call incarnation in existence, and the number of changes made so far. -/
structure Copies (Data : Type) where
  held : List (Copy Data)
  changes : ℕ
deriving Repr, DecidableEq

namespace Copies

/-- What happens to the copies, each named by its place. -/
inductive Event (Data : Type) where
  /-- A turn of the node in `role` on a copy that counts every write of the node still held anywhere. -/
  | write (role : PartitionRole) (copy : ℕ) (next : Record Data) (limiterWrites : List LimiterWrite)
  /-- The store of the node in `role` applies a frame. -/
  | apply (role : PartitionRole) (stored incoming : ℕ)
  /-- A live copy of the node in `role` meets one handed up to it. -/
  | meet (role : PartitionRole) (live incoming : ℕ)
  /-- A copy is gone: overwritten, lost with its node or with the frame that carried it. -/
  | lose (copy : ℕ)

/-- The version vector component the node in `role` counts its writes in. -/
def own (role : PartitionRole) (copy : Copy Data) : ℤ :=
  match role with
  | .primary => copy.topology.vector.1
  | .backup => copy.topology.vector.2

def add (copies : Copies Data) (copy : Copy Data) : Copies Data :=
  { copies with held := copy :: copies.held }

/-- One event; `none` when it names no copy, or a turn would reuse a number. -/
def step (copies : Copies Data) : Event Data → Option (Copies Data)
  | .write role copy next limiterWrites => do
      let mine ← copies.held[copy]?
      if copies.held.all fun other => decide (own role other ≤ own role mine) then
        some { copies.add (mine.write role copies.changes next limiterWrites) with
          changes := copies.changes + 1 }
      else none
  | .apply role stored incoming => do
      let copy ← copies.held[stored]?
      let other ← copies.held[incoming]?
      some (copies.add (copy.applies other role))
  | .meet role live incoming => do
      let copy ← copies.held[live]?
      let other ← copies.held[incoming]?
      some (copies.add (copy.meets other role))
  | .lose copy => some { copies with held := copies.held.eraseIdx copy }

/-- The first copy of the call. -/
def origin (call : Record Data) (topology : CallTopology) : Copies Data := ⟨[⟨call, topology, []⟩], 0⟩

end Copies

end SipServer.Store
