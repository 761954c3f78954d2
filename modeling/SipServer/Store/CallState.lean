/-
Module: SipServer.Store.CallState
Purpose: The call map and the maps derived from it (`b2bua/src/store/mod.rs`, `index.rs`, `materialise.rs`,
  `resident_envelope.rs`, `local_release.rs`, `takeover.rs`), each operation as the map writes it makes in
  their order, and the pass that reconciles them (`reconcile.rs`).
Trusted boundary: translated from the source
-/
import Mathlib.Data.Finset.Card
import SipServer.Store.Containment

namespace SipServer.Store

open SipServer.Lib SipServer.Call

/-! ### Calls and their keys -/

/-- A call as the map keeps it: what it is found by, and its record. -/
structure ResidentCall (Data : Type) where
  callRef : String
  index : Index.Call
  record : Record Data
deriving Repr, DecidableEq, Inhabited

variable {Data : Type}

/-- Every index key a call owns. -/
def callIndexKeys (call : ResidentCall Data) : List String :=
  (Index.callIndexKeys call.index).map String.ofList

namespace ResidentCall

def runsUncounted (call : ResidentCall Data) : Bool := call.record.limiter.runsUncounted

/-- Whether two copies agree on every compared field. -/
def sameState [DecidableEq Data] (call other : ResidentCall Data) : Bool :=
  decide (call.callRef = other.callRef ∧ call.index = other.index) && call.record.sameState other.record

/-- A materialised call: the trace this node opened for it, and its limiter's change counter in the next
    epoch. -/
def materialised (call : ResidentCall Data) (trace : Data) : ResidentCall Data :=
  { call with record := { call.record with trace, limiter := call.record.limiter.enterEpoch } }

end ResidentCall

/-! ### The maps -/

/-- The call map and the maps derived from it. -/
structure Inner (Data : Type) where
  calls : KeyMap String (ResidentCall Data)
  /-- The store envelope of each resident call placed under a worker pair. -/
  topologies : KeyMap String CallTopology
  /-- A routing key, and the callRef it names. -/
  sipIndex : KeyMap String String
  /-- The routing keys each call owns. -/
  indexed : KeyMap String (List String)
  /-- The callRefs with a serialization lock. -/
  locks : Finset String
  takeover : Finset String
  parked : Finset String
  touched : KeyMap String ℤ
  /-- Resident calls that run uncounted. -/
  uncounted : ℕ

/-- One write of one map. -/
inductive Write (Data : Type) where
  | point (key callRef : String)
  /-- Point a key at a call where it names another or none. -/
  | repoint (key callRef : String)
  /-- Drop a key that names the call. -/
  | unpoint (key callRef : String)
  | own (callRef : String) (keys : List String)
  | disown (callRef : String)
  | stamp (callRef : String) (nowMs : ℤ)
  | unstamp (callRef : String)
  /-- Write a call's envelope, or none. -/
  | place (callRef : String) (topology : Option CallTopology)
  | bump (callRef : String) (role : PartitionRole)
  | stampVector (callRef : String)
  | restateUncounted (was is : Bool)
  | put (call : ResidentCall Data)
  | evict (callRef : String)
  | unlock (callRef : String)
  | mark (callRef : String)
  | unmark (callRef : String)
  | unpark (callRef : String)

namespace Inner

def new : Inner Data := ⟨∅, ∅, ∅, ∅, ∅, ∅, ∅, ∅, 0⟩

variable (inner : Inner Data)

def apply : Write Data → Inner Data
  | .point key callRef => { inner with sipIndex := inner.sipIndex.insert key callRef }
  | .repoint key callRef =>
    if inner.sipIndex.get key = some callRef then inner
    else { inner with sipIndex := inner.sipIndex.insert key callRef }
  | .unpoint key callRef =>
    if inner.sipIndex.get key = some callRef then { inner with sipIndex := inner.sipIndex.remove key }
    else inner
  | .own callRef keys => { inner with indexed := inner.indexed.insert callRef keys }
  | .disown callRef => { inner with indexed := inner.indexed.remove callRef }
  | .stamp callRef nowMs => { inner with touched := inner.touched.insert callRef nowMs }
  | .unstamp callRef => { inner with touched := inner.touched.remove callRef }
  | .place callRef (some topology) => { inner with topologies := inner.topologies.insert callRef topology }
  | .place callRef none => { inner with topologies := inner.topologies.remove callRef }
  | .bump callRef role => { inner with topologies := inner.topologies.modify callRef (·.bump role) }
  | .stampVector callRef => { inner with topologies := inner.topologies.modify callRef (·.stampVector) }
  | .restateUncounted false true => { inner with uncounted := inner.uncounted + 1 }
  | .restateUncounted true false => { inner with uncounted := inner.uncounted - 1 }
  | .restateUncounted _ _ => inner
  | .put call => { inner with calls := inner.calls.insert call.callRef call }
  | .evict callRef => { inner with calls := inner.calls.remove callRef }
  | .unlock callRef => { inner with locks := inner.locks.erase callRef }
  | .mark callRef => { inner with takeover := insert callRef inner.takeover }
  | .unmark callRef => { inner with takeover := inner.takeover.erase callRef }
  | .unpark callRef => { inner with parked := inner.parked.erase callRef }

/-- The writes of a list, one after the other. -/
def applyAll (writes : List (Write Data)) : Inner Data := writes.foldl apply inner

/-! ### The operations -/

/-- Drop a call's keys, leaving any key another call now holds. -/
def unindex (callRef : String) (keys : List String) : List (Write Data) := keys.map (.unpoint · callRef)

/-- Take the keys a call owns from it, if it owns any, and drop them. -/
def unindexOwned (callRef : String) : List (Write Data) :=
  match inner.indexed.get callRef with
  | some keys => .disown callRef :: unindex callRef keys
  | none => []

/-- Point every key at the call and make them the keys it owns, dropping the stale ones. -/
def reindex (callRef : String) (keys : List String) : List (Write Data) :=
  if inner.indexed.get callRef = some keys then keys.map (.repoint · callRef)
  else inner.unindexOwned callRef ++ keys.map (.point · callRef) ++ [.own callRef keys]

def create (call : ResidentCall Data) (topology : Option CallTopology) (nowMs : ℤ) : List (Write Data) :=
  let was := (inner.calls.get call.callRef).any (·.runsUncounted)
  inner.reindex call.callRef (callIndexKeys call) ++
    [.stamp call.callRef nowMs, .place call.callRef topology, .restateUncounted was call.runsUncounted,
      .put call]

/-- Put a call in place of its resident copy; nothing when none is resident. -/
def replaceLocked (call : ResidentCall Data) : List (Write Data) :=
  match inner.calls.get call.callRef with
  | none => []
  | some resident =>
    inner.reindex call.callRef (callIndexKeys call) ++
      (if resident.runsUncounted ≠ call.runsUncounted then
        [.restateUncounted resident.runsUncounted call.runsUncounted] else []) ++ [.put call]

/-- Replace the call for a write this node made: its counter moves, and the stamp when a compared field
    changed. -/
def update [DecidableEq Data] (selfOrdinal : String) (inner : Inner Data) (call : ResidentCall Data) :
    List (Write Data) :=
  match inner.calls.get call.callRef with
  | none => []
  | some resident =>
    (if (inner.topologies.get call.callRef).isSome then
      .bump call.callRef (partitionOf selfOrdinal call.callRef).1 ::
        if !resident.sameState call then [.stampVector call.callRef] else []
    else []) ++ inner.replaceLocked call

/-- Replace the call with no counter moved. -/
def updateQuiet (call : ResidentCall Data) : List (Write Data) := inner.replaceLocked call

/-- Replace the call and its envelope. -/
def updateEnveloped (call : ResidentCall Data) (topology : Option CallTopology) : List (Write Data) :=
  if (inner.calls.get call.callRef).isSome then .place call.callRef topology :: inner.replaceLocked call
  else []

/-- Put a materialised call into the map unless it is resident; `trace` is what this node's trace registry
    gave it. -/
def materializeIfAbsent (call : ResidentCall Data) (topology : Option CallTopology) (trace : Data)
    (nowMs : ℤ) : List (Write Data) :=
  if (inner.calls.get call.callRef).isSome then []
  else
    let call := call.materialised trace
    inner.reindex call.callRef (callIndexKeys call) ++
      [.stamp call.callRef nowMs, .place call.callRef topology, .restateUncounted false call.runsUncounted,
        .put call]

/-- Drop a resident call from memory alone. -/
def dropLocal (callRef : String) : List (Write Data) :=
  [.evict callRef, .place callRef none] ++
    ((inner.calls.get callRef).map (fun was => .restateUncounted was.runsUncounted false)).toList ++
    inner.unindexOwned callRef ++ [.unlock callRef, .unmark callRef, .unpark callRef, .unstamp callRef]

/-- Refresh the stamp of a resident call; it never goes back. -/
def touch (callRef : String) (nowMs : ℤ) : List (Write Data) :=
  if (inner.calls.get callRef).isSome then
    [.stamp callRef (max ((inner.touched.get callRef).getD nowMs) nowMs)] else []

end Inner

/-- What is asked of the store. -/
inductive Operation (Data : Type) where
  | create (call : ResidentCall Data) (topology : Option CallTopology) (nowMs : ℤ)
  | update (call : ResidentCall Data)
  | updateQuiet (call : ResidentCall Data)
  | updateEnveloped (call : ResidentCall Data) (topology : Option CallTopology)
  | materializeIfAbsent (call : ResidentCall Data) (topology : Option CallTopology) (trace : Data)
      (nowMs : ℤ)
  | dropLocal (callRef : String)
  | remove (callRef : String)
  | touch (callRef : String) (nowMs : ℤ)
  | markTakeover (callRef : String)

namespace Inner

/-- The map writes of an operation, in their order. -/
def writes [DecidableEq Data] (selfOrdinal : String) (inner : Inner Data) :
    Operation Data → List (Write Data)
  | .create call topology nowMs => inner.create call topology nowMs
  | .update call => inner.update selfOrdinal call
  | .updateQuiet call => inner.updateQuiet call
  | .updateEnveloped call topology => inner.updateEnveloped call topology
  | .materializeIfAbsent call topology trace nowMs => inner.materializeIfAbsent call topology trace nowMs
  | .dropLocal callRef => inner.dropLocal callRef
  -- the delete it logs in the replicating store writes none of these maps
  | .remove callRef => inner.dropLocal callRef
  | .touch callRef nowMs => inner.touch callRef nowMs
  | .markTakeover callRef => [.mark callRef]

/-- An operation that completes. -/
def perform [DecidableEq Data] (selfOrdinal : String) (inner : Inner Data) (operation : Operation Data) :
    Inner Data :=
  inner.applyAll (inner.writes selfOrdinal operation)

/-- An operation a panic cuts after some of its writes. -/
def cut [DecidableEq Data] (selfOrdinal : String) (inner : Inner Data) (operation : Operation Data)
    (made : ℕ) : Inner Data :=
  inner.applyAll ((inner.writes selfOrdinal operation).take made)

end Inner

/-! ### Reconciling -/

/-- The corrections one pass made, by kind. -/
structure Reconciled where
  orphanStamps : ℕ
  missingStamps : ℕ
  orphanIndex : ℕ
  missingIndex : ℕ
  orphanTakeover : ℕ
  orphanEnvelopes : ℕ
deriving Repr, DecidableEq, Inhabited

namespace Inner

def resident (inner : Inner Data) (callRef : String) : Bool := (inner.calls.get callRef).isSome

/-- Keep the entries of resident calls. -/
def retain {Value : Type} (inner : Inner Data) (entries : KeyMap String Value) : KeyMap String Value :=
  entries.filterMap fun callRef value => if inner.resident callRef then some value else none

/-- Keep the routing keys that name resident calls. -/
def retainKeys (inner : Inner Data) : KeyMap String String :=
  inner.sipIndex.filterMap fun _ owner => if inner.resident owner then some owner else none

/-- One resident call of the walk: stamped and indexed again where it is not. -/
def readd (nowMs : ℤ) (state : Inner Data × Reconciled) (callRef : String) : Inner Data × Reconciled :=
  let (inner, fixed) := state
  match inner.calls.get callRef with
  | none => state
  | some call =>
    let (inner, fixed) :=
      if (inner.touched.get callRef).isSome then (inner, fixed)
      else ({ inner with touched := inner.touched.insert callRef nowMs },
        { fixed with missingStamps := fixed.missingStamps + 1 })
    if (inner.indexed.get callRef).isSome then (inner, fixed)
    else
      let keys := callIndexKeys call
      let sipIndex := keys.foldl
        (fun index key => if (index.get key).isSome then index else index.insert key callRef) inner.sipIndex
      ({ inner with sipIndex, indexed := inner.indexed.insert callRef keys },
        { fixed with missingIndex := fixed.missingIndex + 1 })

/-- The maps with the entries of no resident call dropped. -/
def retained (inner : Inner Data) : Inner Data :=
  { inner with
    topologies := inner.retain inner.topologies
    touched := inner.retain inner.touched
    indexed := inner.retain inner.indexed
    sipIndex := inner.retainKeys }

/-- The walk over the entries; `order` is the one in which it meets the resident calls. -/
def reconcileInner (inner : Inner Data) (nowMs : ℤ) (order : List String) : Inner Data × Reconciled :=
  let retained := inner.retained
  let fixed : Reconciled :=
    { orphanStamps := inner.touched.size - retained.touched.size
      missingStamps := 0
      orphanIndex := (inner.indexed.size - retained.indexed.size) +
        (inner.sipIndex.size - retained.sipIndex.size)
      missingIndex := 0
      orphanTakeover := 0
      orphanEnvelopes := inner.topologies.size - retained.topologies.size }
  order.foldl (readd nowMs) (retained, fixed)

/-- One pass: a takeover mark of no resident call is dropped, and the entries are walked when the stamps or
    the key lists are not as many as the calls. -/
def reconcile (inner : Inner Data) (nowMs : ℤ) (order : List String) : Inner Data × Reconciled :=
  let takeover := inner.takeover.filter (inner.resident ·)
  let orphanTakeover := inner.takeover.card - takeover.card
  let inner := { inner with takeover }
  let (inner, fixed) :=
    if inner.touched.size = inner.calls.size ∧ inner.indexed.size = inner.calls.size then (inner, default)
    else inner.reconcileInner nowMs order
  (inner, { fixed with orphanTakeover })

end Inner

end SipServer.Store
