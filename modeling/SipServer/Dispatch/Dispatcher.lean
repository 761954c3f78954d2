/-
Module: SipServer.Dispatch.Dispatcher
Purpose: The per-call dispatcher and its workers (`b2bua/src/dispatch/mod.rs`, `dispatch/worker.rs`), one
  step per critical section: the offer under the map lock, the release that finds a slot and queues on it
  later, the wake-ups under way, and the worker that pops, waits for its permits, runs a body, and takes a
  release.
Trusted boundary: translated from the source
-/
import SipServer.Dispatch.Queue
import SipServer.Lib.KeyMap

namespace SipServer.Dispatch

open SipServer.Lib

/-!
Everything between two lock acquisitions of one thread is one step. A slot is an address (an `Arc`), so a
release that still holds one after the map let it go reads the queue it finds there. The halt
(`InFlight::halt`) is left out, and so are the counters only the metrics endpoint reads; a body's end is one
step whether it returned, panicked or was aborted, since the worker goes on the same way after each.
-/

/-- A call's queue, the call it was opened for, and the wake-up its `Notify` keeps; `queued` is what an
    observer notes of the items reported queued, in order. -/
structure Slot (Item : Type) where
  callRef : String
  queue : CallQueue Item
  wakePermit : Bool
  queued : List Item
deriving Repr, DecidableEq

/-- A slot after an offer to its queue. -/
def Slot.noted {Item : Type} (held : Slot Item) (queue : CallQueue Item) (item : Item)
    (outcome : Outcome Item) : Slot Item :=
  { held with
    queue := queue
    queued := match outcome with
      | .queued => held.queued ++ [item]
      | .discarded _ _ _ => held.queued }

/-- The wake-ups under way once an offer to a slot returned: a queued item wakes its worker. -/
def wakesFor {Item : Type} (slot : ℕ) (outcome : Outcome Item) (wakes : List ℕ) : List ℕ :=
  match outcome with
  | .queued => slot :: wakes
  | .discarded _ _ _ => wakes

/-- Where a worker is between two of its critical sections. -/
inductive WorkerState (Item : Type) where
  /-- About to pop. -/
  | popping
  /-- In `notified().await`. -/
  | waiting
  /-- Waits for a permit of the new-call share. -/
  | acquiring (item : Item) (cls : DispatchClass)
  /-- Waits for a permit of the shared pool, with its new-call permit if its row has one. -/
  | sharing (item : Item) (cls : DispatchClass)
  /-- The item's body runs. -/
  | running (item : Item) (cls : DispatchClass)
  /-- Took the release, and has yet to decide whether the queue lives on. -/
  | leaving (removal : RemovalClass)
  | left
deriving Repr, DecidableEq

/-- A worker of a slot; `popped` is what an observer notes of the items it took, in order. -/
structure Worker (Item : Type) where
  callRef : String
  slot : ℕ
  state : WorkerState Item
  popped : List Item
deriving Repr, DecidableEq

/-- The permits free. -/
structure Permits where
  shared : ℕ
  newCall : ℕ
deriving Repr, DecidableEq

/-- The permits a body of a class holds are free again. -/
def Permits.freed (permits : Permits) (cls : DispatchClass) : Permits where
  shared := permits.shared + 1
  newCall := match cls.row.pool with
    | .newCall => permits.newCall + 1
    | .shared => permits.newCall

/-- The dispatcher, its slots and workers, and the releases and wake-ups under way. -/
structure Dispatcher (Item : Type) where
  slots : KeyMap String ℕ
  heap : ℕ → Slot Item
  workers : KeyMap ℕ (Worker Item)
  created : ℕ
  permits : Permits
  limits : Limits
  cap : ℕ
  newCallHeadroom : ℕ
  metrics : B2buaMetrics
  wakes : List ℕ
  releases : List (ℕ × RemovalClass)

namespace Dispatcher

variable {Item : Type}

/-- `PerCallDispatcher::new` with its builders: pools of at least one permit and at most
    `Semaphore::MAX_PERMITS`, a cap of at least one queue, and a headroom that leaves one queue to new
    calls. -/
def new (maxPermits : { most : ℕ // 0 < most }) (concurrency share : ℕ) (limits : Limits)
    (cap headroom : ℕ) : Dispatcher Item where
  slots := ∅
  heap := fun _ => ⟨"", CallQueue.new limits, false, []⟩
  workers := ∅
  created := 0
  permits := ⟨min (max concurrency 1) maxPermits, min (max share 1) (min (max concurrency 1) maxPermits)⟩
  limits := { limits with depth := max limits.depth 1 }
  cap := max cap 1
  newCallHeadroom := min headroom (max cap 1 - 1)
  metrics := .new
  wakes := []
  releases := []

/-- Offer an item to a call's queue, opening the queue and its worker when the call has none. -/
def offer (dispatcher : Dispatcher Item) (callRef : String) (item : Item) (cls : DispatchClass) :
    Dispatcher Item × Offer Item :=
  match dispatcher.slots.get callRef with
  | some slot =>
    let held := dispatcher.heap slot
    let (queue, metrics, offer) := held.queue.offer dispatcher.metrics item cls
    ({ dispatcher with
      heap := Function.update dispatcher.heap slot (held.noted queue item offer.outcome)
      metrics := metrics
      wakes := wakesFor slot offer.outcome dispatcher.wakes }, offer)
  | none =>
    let threshold := cls.row.opensQueueBelow.of dispatcher.cap dispatcher.newCallHeadroom
    if threshold ≤ dispatcher.slots.keys.length ∧ cls.row.room = .bounded then
      (dispatcher, CallQueue.refused item cls false .atCap)
    else
      let opened := CallQueue.new dispatcher.limits
      let (queue, metrics, offer) := opened.offer dispatcher.metrics item cls
      let slot := dispatcher.created
      let held : Slot Item := ⟨callRef, opened, false, []⟩
      ({ dispatcher with
        slots := dispatcher.slots.insert callRef slot
        heap := Function.update dispatcher.heap slot (held.noted queue item offer.outcome)
        -- The worker is spawned at its first pop.
        workers := dispatcher.workers.insert slot ⟨callRef, slot, .popping, []⟩
        created := slot + 1
        metrics := metrics
        wakes := wakesFor slot offer.outcome dispatcher.wakes }, offer)

variable (dispatcher : Dispatcher Item) (number : ℕ) (worker : Worker Item)

/-- The worker moves to a state. -/
def moveTo (state : WorkerState Item) : Dispatcher Item :=
  { dispatcher with workers := dispatcher.workers.insert number { worker with state := state } }

/-- The worker's pop, under the queue's lock. -/
def popNext : Dispatcher Item :=
  let held := dispatcher.heap worker.slot
  let (queue, metrics, popped) := held.queue.pop dispatcher.metrics
  let dispatcher := { dispatcher with
    heap := Function.update dispatcher.heap worker.slot { held with queue := queue }
    metrics := metrics }
  match popped with
  | none => dispatcher.moveTo number worker .waiting
  | some (.release removal) => dispatcher.moveTo number worker (.leaving removal)
  | some (.item item cls) =>
    let worker := { worker with popped := worker.popped ++ [item] }
    match cls.row.pool with
    | .newCall => dispatcher.moveTo number worker (.acquiring item cls)
    | .shared => dispatcher.moveTo number worker (.sharing item cls)

/-- What waits behind the release opens the call's next queue; with nothing there the slot leaves the map.
    Both locks are held. -/
def leave : Dispatcher Item :=
  let held := dispatcher.heap worker.slot
  let (queue, metrics, next) := held.queue.reopen dispatcher.metrics
  let dispatcher := { dispatcher with
    heap := Function.update dispatcher.heap worker.slot { held with queue := queue }
    metrics := metrics }
  if next then dispatcher.moveTo number worker .popping
  else { dispatcher with slots := dispatcher.slots.remove worker.callRef }.moveTo number worker .left

/-- The next step of a worker; `none` while it cannot take it. -/
def work : Option (Dispatcher Item) :=
  let held := dispatcher.heap worker.slot
  match worker.state with
  | .popping => some (dispatcher.popNext number worker)
  | .waiting =>
    if held.wakePermit then
      some ({ dispatcher with
        heap := Function.update dispatcher.heap worker.slot { held with wakePermit := false } }.moveTo number
          worker
          .popping)
    else none
  | .acquiring item cls =>
    if dispatcher.permits.newCall = 0 then none
    else some ({ dispatcher with
      permits.newCall := dispatcher.permits.newCall - 1 }.moveTo number worker (.sharing item cls))
  | .sharing item cls =>
    if dispatcher.permits.shared = 0 then none
    else some ({ dispatcher with
      permits.shared := dispatcher.permits.shared - 1 }.moveTo number worker (.running item cls))
  | .running _ cls =>
    some ({ dispatcher with permits := dispatcher.permits.freed cls }.moveTo number worker .popping)
  | .leaving _ => some (dispatcher.leave number worker)
  | .left => none

/-- The second half of a release, under the queue's lock; the wake-up follows. -/
def releaseOn (dispatcher : Dispatcher Item) (slot : ℕ) (removal : RemovalClass) : Dispatcher Item :=
  let held := dispatcher.heap slot
  let (queue, metrics) := held.queue.release dispatcher.metrics removal
  { dispatcher with
    heap := Function.update dispatcher.heap slot { held with queue := queue }
    metrics := metrics
    wakes := slot :: dispatcher.wakes
    releases := dispatcher.releases.erase (slot, removal) }

end Dispatcher

/-- A critical section of the dispatcher, of a caller or of a worker. -/
inductive Event (Item : Type) where
  | offer (callRef : String) (item : Item) (cls : DispatchClass)
  /-- A release finds its call's slot under the map lock. -/
  | find (callRef : String) (removal : RemovalClass)
  /-- A release that found a slot queues on it. -/
  | release (slot : ℕ) (removal : RemovalClass)
  /-- A caller wakes the worker of the slot it queued on. -/
  | wake (slot : ℕ)
  | work (number : ℕ)
deriving Repr, DecidableEq

namespace Dispatcher

variable {Item : Type}

/-- One step, if it can be taken. -/
def step (dispatcher : Dispatcher Item) : Event Item → Option (Dispatcher Item)
  | .offer callRef item cls => some (dispatcher.offer callRef item cls).1
  | .find callRef removal =>
    match dispatcher.slots.get callRef with
    | some slot => some { dispatcher with releases := (slot, removal) :: dispatcher.releases }
    | none => some dispatcher
  | .release slot removal =>
    if (slot, removal) ∈ dispatcher.releases then some (dispatcher.releaseOn slot removal) else none
  | .wake slot =>
    if slot ∈ dispatcher.wakes then
      some { dispatcher with
        heap := Function.update dispatcher.heap slot { dispatcher.heap slot with wakePermit := true }
        wakes := dispatcher.wakes.erase slot }
    else none
  | .work number => (dispatcher.workers.get number).bind (dispatcher.work number)

end Dispatcher

end SipServer.Dispatch
