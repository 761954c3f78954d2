/-
Module: SipServer.Dispatch.Queue
Purpose: One call's queue (`b2bua/src/dispatch/queue.rs`) and the dispatch table it reads
  (`dispatch/class.rs`): what an event's class decides, the offer, the release and what waits behind it, the
  pop and the reopening.
Trusted boundary: translated from the source
-/
import Mathlib.Data.List.Basic
import Mathlib.Data.Int.Notation

namespace SipServer.Dispatch

/-!
The lifetime counts are `u64` and the sizes `usize` in the source; neither gets near its bound, so both are
natural numbers. Left out: what makes an event of its class (`DispatchClass::of`).
-/

/-! ### The dispatch table -/

/-- Why a call's queue is torn down. -/
inductive RemovalClass where
  | terminated
  | selfRelease
  | standDown
  | orphan
deriving Repr, DecidableEq

/-- Why an item was discarded without running. -/
inductive Discard where
  | queueFull
  | atCap
  | released (removal : RemovalClass)
  | capped
deriving Repr, DecidableEq

/-- How far past the queue's bounds an event may wait. -/
inductive Room where
  | bounded
  | pastBounds
  | always
deriving Repr, DecidableEq

/-- What is owed to the sender of an event discarded unrun. -/
inductive Owed where
  | nothing
  | forget
  | newCallRefused
  | retryLater
  | dialogGone
  | cappedRefusal
deriving Repr, DecidableEq

inductive PermitPool where
  | shared
  | newCall
deriving Repr, DecidableEq

inductive QueueThreshold where
  | fullCap
  | newCallHeadroom
deriving Repr, DecidableEq

/-- How many live queues an event may find and still open one. -/
def QueueThreshold.of (threshold : QueueThreshold) (cap headroom : ℕ) : ℕ :=
  match threshold with
  | .fullCap => cap
  | .newCallHeadroom => cap - headroom

/-- One row of the dispatch table. -/
structure Row where
  room : Room
  counted : Bool
  pastLifetimeCap : Bool
  unrun : Owed
  ended : Owed
  capped : Owed
  pool : PermitPool
  opensQueueBelow : QueueThreshold
deriving Repr, DecidableEq

namespace Row

/-- A bounded row for what a peer sends. -/
def bounded (unrun ended capped : Owed) : Row where
  room := .bounded
  counted := true
  pastLifetimeCap := false
  unrun := unrun
  ended := ended
  capped := capped
  pool := .shared
  opensQueueBelow := .fullCap

/-- The node's own work. -/
def ownWork : Row :=
  { bounded .nothing .nothing .nothing with room := .always, counted := false, pastLifetimeCap := true }

/-- What a discard owes. -/
def owed (row : Row) : Discard → Owed
  | .capped => row.capped
  | .released .terminated => row.ended
  | .queueFull | .atCap | .released _ => row.unrun

/-- Admitted on a call past its lifetime cap. -/
def admittedWhenCapped (row : Row) : Bool := decide (row.room = .always) || row.pastLifetimeCap

end Row

/-- What one event is to its call's queue. -/
inductive DispatchClass where
  | initialInvite
  | emergencyInvite
  | inDialogInvite
  | ack
  | otherRequest
  | strayCancel
  | response
  | txnOutcome
  | cancelled
  | timer
  | internal
deriving Repr, DecidableEq

namespace DispatchClass

/-- A new initial INVITE, normal or emergency. -/
def isNewCall : DispatchClass → Bool
  | .initialInvite | .emergencyInvite => true
  | _ => false

/-- The class's row of the table. -/
def row : DispatchClass → Row
  | .initialInvite =>
    { Row.bounded .newCallRefused .newCallRefused .newCallRefused with
      pool := .newCall, opensQueueBelow := .newCallHeadroom }
  | .emergencyInvite => Row.bounded .newCallRefused .newCallRefused .newCallRefused
  | .inDialogInvite => Row.bounded .retryLater .dialogGone .dialogGone
  | .ack => Row.bounded .nothing .nothing .nothing
  | .otherRequest => Row.bounded .forget .forget .cappedRefusal
  | .strayCancel => Row.bounded .nothing .nothing .cappedRefusal
  | .response => { Row.bounded .nothing .nothing .nothing with pastLifetimeCap := true }
  | .txnOutcome => { Row.ownWork with counted := true }
  | .cancelled =>
    { Row.bounded .nothing .nothing .nothing with room := .pastBounds, pastLifetimeCap := true }
  | .timer => Row.ownWork
  | .internal => Row.ownWork

end DispatchClass

/-! ### The queue -/

/-- `NEAR_CAP_PERCENT`. -/
def nearCapPercent : ℕ := 80

/-- The counters and gauges a queue moves. -/
structure B2buaMetrics where
  cappedRefusals : ℕ
  releaseDiscards : ℕ
  queueDrops : ℕ
  overflowRefused : ℕ
  pastBoundDepth : ℕ
  overflowDepth : ℤ
  callsNearLifetimeCap : ℤ
deriving Repr, DecidableEq

def B2buaMetrics.new : B2buaMetrics := ⟨0, 0, 0, 0, 0, 0, 0⟩

/-- A queue's bounds: the items it holds, which is also its overflow ceiling, and the counted offers of a
    call's life. -/
structure Limits where
  depth : ℕ
  lifetimeCap : ℕ
deriving Repr, DecidableEq

/-- What became of an offered item. -/
inductive Outcome (Item : Type) where
  | queued
  | discarded (item : Item) (why : Discard) (owed : Owed)
deriving Repr, DecidableEq

/-- The result of one offer. -/
structure Offer (Item : Type) where
  outcome : Outcome Item
  crossedLifetimeCap : Bool
  hitOverflowCeiling : Bool
deriving Repr, DecidableEq

/-- What the worker takes next. -/
inductive Popped (Item : Type) where
  | item (item : Item) (cls : DispatchClass)
  | release (removal : RemovalClass)
deriving Repr, DecidableEq

inductive Entry (Item : Type) where
  | item (item : Item) (cls : DispatchClass)
  | release (removal : RemovalClass)
deriving Repr, DecidableEq

namespace Entry

variable {Item : Type}

def isNewCall : Entry Item → Bool
  | .item _ cls => cls.isNewCall
  | .release _ => false

def room : Entry Item → Room
  | .item _ cls => cls.row.room
  | .release _ => .always

end Entry

/-- One call's queue. -/
structure CallQueue (Item : Type) where
  entries : List (Entry Item)
  limits : Limits
  released : Option RemovalClass
  nextCall : Bool
  waiting : ℕ
  offered : ℕ
  nextOffered : ℕ
  nearCap : Bool
  capped : Bool
deriving Repr, DecidableEq

namespace CallQueue

variable {Item : Type}

def new (limits : Limits) : CallQueue Item where
  entries := []
  limits := { limits with depth := max limits.depth 1 }
  released := none
  nextCall := false
  waiting := 0
  offered := 0
  nextOffered := 0
  nearCap := false
  capped := false

def enteredOverflow (metrics : B2buaMetrics) : B2buaMetrics :=
  { metrics with pastBoundDepth := metrics.pastBoundDepth + 1, overflowDepth := metrics.overflowDepth + 1 }

variable (queue : CallQueue Item) (metrics : B2buaMetrics)

/-- Enter the near-cap gauge once the offers pass their share of the lifetime cap. -/
def noteNearCap : CallQueue Item × B2buaMetrics :=
  if !queue.nearCap && decide (queue.limits.lifetimeCap * nearCapPercent < queue.offered * 100) then
    ({ queue with nearCap := true },
      { metrics with callsNearLifetimeCap := metrics.callsNearLifetimeCap + 1 })
  else (queue, metrics)

/-- Count one counted offer, and whether it is the one that crosses the lifetime cap. -/
def count : CallQueue Item × B2buaMetrics × Bool :=
  let noted := { queue with offered := queue.offered + 1 }.noteNearCap metrics
  let crossed := decide (noted.1.limits.lifetimeCap < noted.1.offered) && !noted.1.capped
  ({ noted.1 with capped := noted.1.capped || crossed }, noted.2, crossed)

/-- `Offer::discarded`, with whether the offer crossed the cap. -/
def refused (item : Item) (cls : DispatchClass) (crossed : Bool) (why : Discard) : Offer Item :=
  ⟨.discarded item why (cls.row.owed why), crossed, false⟩

/-- The item goes in at the back. -/
def pushItem (queue : CallQueue Item) (item : Item) (cls : DispatchClass) (nextCall : Bool) :
    CallQueue Item :=
  { queue with nextCall := queue.nextCall || nextCall, entries := queue.entries ++ [.item item cls] }

/-- The row's room decides. -/
def makeRoom (item : Item) (cls : DispatchClass)
    (nextCall crossed : Bool) : CallQueue Item × B2buaMetrics × Offer Item :=
  if queue.limits.depth ≤ queue.entries.length then
    match cls.row.room with
    | .bounded =>
      -- A new call's discard is counted by the router that answers it.
      let metrics := if cls.isNewCall then metrics else { metrics with queueDrops := metrics.queueDrops + 1 }
      (queue, metrics, refused item cls crossed .queueFull)
    | .pastBounds =>
      if queue.limits.depth ≤ queue.waiting then
        let metrics := { metrics with
          queueDrops := metrics.queueDrops + 1
          overflowRefused := metrics.overflowRefused + 1 }
        (queue, metrics, { refused item cls crossed .queueFull with hitOverflowCeiling := true })
      else
        ({ queue with waiting := queue.waiting + 1 }.pushItem item cls nextCall, enteredOverflow metrics,
          ⟨.queued, crossed, false⟩)
    | .always => (queue.pushItem item cls nextCall, enteredOverflow metrics, ⟨.queued, crossed, false⟩)
  else (queue.pushItem item cls nextCall, metrics, ⟨.queued, crossed, false⟩)

/-- A counted class counts toward the lifetime cap unless the release is queued. -/
def countOffer (cls : DispatchClass) : CallQueue Item × B2buaMetrics × Bool :=
  if cls.row.counted && queue.released.isNone then queue.count metrics else (queue, metrics, false)

/-- Behind the release, a new call and every offer after it wait for the call's next queue. -/
def waitsBehind (queue : CallQueue Item) (cls : DispatchClass) : Bool :=
  queue.released.isSome && (queue.nextCall || cls.isNewCall)

/-- What waits behind the release counts toward the next queue. -/
def countNext (queue : CallQueue Item) (cls : DispatchClass) : CallQueue Item :=
  if queue.waitsBehind cls && cls.row.counted then { queue with nextOffered := queue.nextOffered + 1 }
  else queue

/-- The offer once counted: a capped call refuses what its row does not take, an offer behind the release is
    discarded, then the row's room decides. -/
def place (item : Item) (cls : DispatchClass) (crossed : Bool) :
    CallQueue Item × B2buaMetrics × Offer Item :=
  let nextCall := queue.waitsBehind cls
  if !nextCall && queue.capped && !cls.row.admittedWhenCapped then
    let metrics := if cls.isNewCall then metrics
      else { metrics with cappedRefusals := metrics.cappedRefusals + 1 }
    (queue, metrics, refused item cls crossed .capped)
  else
    match nextCall, queue.released with
    | false, some removal =>
      let metrics := if cls.isNewCall then metrics
        else { metrics with releaseDiscards := metrics.releaseDiscards + 1 }
      (queue, metrics, refused item cls crossed (.released removal))
    | nextCall, _ => queue.makeRoom metrics item cls nextCall crossed

/-- Offer an item of a class. -/
def offer (item : Item) (cls : DispatchClass) : CallQueue Item × B2buaMetrics × Offer Item :=
  let (queue, metrics, crossed) := queue.countOffer metrics cls
  (queue.countNext cls).place metrics item cls crossed

/-- Queue the call's release behind every item already queued, or in front of the first new call. -/
def release (removal : RemovalClass) : CallQueue Item × B2buaMetrics :=
  if queue.released.isSome then (queue, metrics)
  else
    let queue := { queue with released := some removal }
    let metrics := if queue.limits.depth ≤ queue.entries.length then enteredOverflow metrics else metrics
    match queue.entries.findIdx? Entry.isNewCall with
    | none => ({ queue with entries := queue.entries ++ [.release removal] }, metrics)
    | some position =>
      -- The last entry of the queue proper moves into the overflow.
      let lastProper := queue.entries[queue.limits.depth - 1]?
      let moves := decide (position < queue.limits.depth) &&
        decide (queue.limits.depth ≤ queue.entries.length) &&
        decide (lastProper.map Entry.room = some .pastBounds)
      ({ queue with
        waiting := if moves then queue.waiting + 1 else queue.waiting
        entries := queue.entries.insertIdx position (.release removal)
        nextCall := true }, metrics)

/-- Open the call's next queue on what waits behind the release just taken; `false` when nothing waits. -/
def reopen : CallQueue Item × B2buaMetrics × Bool :=
  match queue.entries with
  | [] => (queue, metrics, false)
  | _ :: _ =>
    let noted := { queue with
      released := none
      nextCall := false
      offered := queue.nextOffered
      nextOffered := 0
      capped := false }.noteNearCap metrics
    (noted.1, noted.2, true)

/-- Take the oldest entry. -/
def pop : CallQueue Item × B2buaMetrics × Option (Popped Item) :=
  match queue.entries with
  | [] => (queue, metrics, none)
  | front :: rest =>
    -- The overflow's oldest entry, if any, moves into the queue proper.
    let moved := rest[queue.limits.depth - 1]?
    let waiting := if moved.map Entry.room = some .pastBounds then queue.waiting - 1 else queue.waiting
    let metrics := if moved.isSome then { metrics with overflowDepth := metrics.overflowDepth - 1 }
      else metrics
    let queue := { queue with entries := rest, waiting := waiting }
    match front with
    | .item item cls => (queue, metrics, some (.item item cls))
    | .release removal =>
      let metrics :=
        if queue.nearCap then { metrics with callsNearLifetimeCap := metrics.callsNearLifetimeCap - 1 }
        else metrics
      ({ queue with nearCap := false }, metrics, some (.release removal))

end CallQueue

end SipServer.Dispatch
