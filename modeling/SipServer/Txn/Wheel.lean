/-
Module: SipServer.Txn.Wheel
Purpose: What the layer does to its timer wheel and its event queue: each transaction as the wheel keys it
  stores, its lifetime and whether it owes an ACK, and the steps that take one such state to the next.
-/
import SipServer.Txn.Owner

namespace SipServer.Txn

open SipServer.Lib SipServer.Retransmit

/-!
The wheel forgets what the transactions say and keeps when they are called. A transaction owns at most four
of its entries, whose keys it stores; every other entry is loose and leaves the wheel only by firing.
-/

/-- The four keys a transaction may store. -/
inductive Slot where
  | retransmit
  | timeout
  | cleanup
  | cancelRetransmit
deriving DecidableEq

/-- The transaction and the slot whose key a timer's firing clears. -/
def Timer.slot : Timer → Option (Slot × TxnId)
  | .clientRetransmit branch => some (.retransmit, .client branch)
  | .serverRetransmit key => some (.retransmit, .server key)
  | .clientTimeout branch => some (.timeout, .client branch)
  | .cleanup id => some (.cleanup, id)
  | .cancelRetransmit branch => some (.cancelRetransmit, .client branch)
  | .firstResponse _ | .trying _ _ | .ackBound _ _ | .cancelBound _ _ | .eventRetry => none

/-- What a transaction has on the wheel, and what of it the wheel decides. -/
structure Hands where
  retransmit : Option TimerKey
  timeout : Option TimerKey
  cleanup : Option TimerKey
  cancelRetransmit : Option TimerKey
  createdAt : ℕ
  lifetime : Lifetime
  /-- It holds the ACK of a non-2xx final. -/
  owesAck : Bool
  callId : String
  fromTag : String

namespace Hands

def key (hands : Hands) : Slot → Option TimerKey
  | .retransmit => hands.retransmit
  | .timeout => hands.timeout
  | .cleanup => hands.cleanup
  | .cancelRetransmit => hands.cancelRetransmit

def setKey (hands : Hands) (slot : Slot) (key : Option TimerKey) : Hands :=
  match slot with
  | .retransmit => { hands with retransmit := key }
  | .timeout => { hands with timeout := key }
  | .cleanup => { hands with cleanup := key }
  | .cancelRetransmit => { hands with cancelRetransmit := key }

end Hands

def Transaction.hands (txn : Transaction) : Hands where
  retransmit := txn.retransmitKey
  timeout := txn.timeoutKey
  cleanup := txn.cleanupKey
  cancelRetransmit := txn.cancelRetransmitKey
  createdAt := txn.createdAt
  lifetime := txn.lifetime
  owesAck := txn.unsentAck.isSome
  callId := txn.callId
  fromTag := txn.fromTag

@[ext] structure Wheel where
  now : ℕ
  timers : DelayQueue Timer
  txns : TxnId → Option Hands
  /-- The retry tick is pending. -/
  armed : Bool
  capacity : ℕ
  /-- How long an ACK may be held. -/
  ackBound : ℕ
  events : List Emission
  deferred : List Emission
  delivered : List Emission
  swept : List Emission
  emissions : List Emission

namespace Wheel

variable (wheel : Wheel)

def modify (id : TxnId) (change : Hands → Hands) : Wheel :=
  { wheel with txns := Function.update wheel.txns id ((wheel.txns id).map change) }

def insert (timer : Timer) (due : ℕ) : Wheel :=
  { wheel with timers := (wheel.timers.insert timer due).2 }

def remove (key : TimerKey) : Wheel := { wheel with timers := wheel.timers.remove key }

def cancel : Option TimerKey → Wheel
  | some key => wheel.remove key
  | none => wheel

/-- File an entry of a transaction and store its key. -/
def store (id : TxnId) (slot : Slot) (timer : Timer) (due : ℕ) : Wheel :=
  (wheel.insert timer due).modify id (·.setKey slot (some wheel.timers.freshKey))

/-- Take one stored key's entry off the wheel. -/
def drop (id : TxnId) (slot : Slot) : Wheel :=
  match wheel.txns id with
  | some hands => (wheel.modify id (·.setKey slot none)).cancel (hands.key slot)
  | none => wheel

/-- An entry leaves the wheel as it fires, and the slot it was stored in is cleared. -/
def fire (key : TimerKey) (timer : Timer) : Wheel :=
  match timer.slot with
  | some (slot, id) => (wheel.remove key).modify id (·.setKey slot none)
  | none => wheel.remove key

/-- Take the four entries of a transaction off the wheel. -/
def cancelAll (hands : Hands) : Wheel :=
  (((wheel.cancel hands.retransmit).cancel hands.timeout).cancel hands.cleanup).cancel hands.cancelRetransmit

/-- Where a cleanup entry for a deadline goes. -/
def cleanupDue (deadline : ℕ) : ℕ := wheel.now + min (deadline - wheel.now) maxDelay

/-- A transaction enters, over the one its identity named. -/
def enter (id : TxnId) (hands : Hands) : Wheel :=
  let entered := { wheel.insert (.cleanup id) (wheel.cleanupDue hands.lifetime.deadline) with
    txns := Function.update wheel.txns id (some (hands.setKey .cleanup (some wheel.timers.freshKey))) }
  match wheel.txns id with
  | some old => entered.cancelAll old
  | none => entered

/-- A transaction leaves, its entries with it. -/
def leave (id : TxnId) : Wheel :=
  match wheel.txns id with
  | some hands => { wheel with txns := Function.update wheel.txns id none }.cancelAll hands
  | none => wheel

/-- A transaction is held for a reason, its cleanup entry moved to the new deadline. -/
def holdFor (id : TxnId) (why : Hold) (left : ℕ) : Wheel :=
  match wheel.txns id with
  | some hands =>
    let lifetime := hands.lifetime.hold why (deadlineAfter wheel.now left)
    ((wheel.cancel hands.cleanup).modify id ({ · with lifetime })).store id .cleanup (.cleanup id)
      (wheel.cleanupDue lifetime.deadline)
  | none => wheel

/-- A client transaction comes to hold an ACK, its bound armed. -/
def owe (branch : Branch) (due : ℕ) : Wheel :=
  match wheel.txns (.client branch) with
  | some hands =>
    (wheel.modify (.client branch) ({ · with owesAck := true })).insert
      (.ackBound branch hands.createdAt) due
  | none => wheel

/-- What a client INVITE runs stops at its final. -/
def stop (branch : Branch) : Wheel :=
  ((wheel.drop (.client branch) .retransmit).drop (.client branch) .timeout).drop
    (.client branch) .cancelRetransmit

def armRetry : Wheel :=
  if wheel.armed then wheel
  else { wheel.insert .eventRetry (wheel.now + Owner.eventRetryMs) with armed := true }

def defer (emission : Emission) : Wheel :=
  { wheel with deferred := wheel.deferred ++ [emission] }.armRetry

def emits (emission : Emission) : Wheel := { wheel with emissions := wheel.emissions ++ [emission] }

/-- The first deferred events move to the queue. -/
def flush (count : ℕ) : Wheel :=
  { wheel with events := wheel.events ++ wheel.deferred.take count, deferred := wheel.deferred.drop count }

/-- How many events the queue has room for. -/
def room : ℕ := wheel.capacity - wheel.events.length

/-- The retry tick: what there is room for is queued, and a tick is pending again while any is left. -/
def tick (key : TimerKey) : Wheel :=
  let flushed := { wheel.remove key with armed := false }.flush wheel.room
  if flushed.deferred.isEmpty then flushed else flushed.armRetry

/-- The deferred requests a server transaction admitted are dropped. -/
def sweep (swept : SweptServer) : Wheel :=
  { wheel with
    deferred := wheel.deferred.filter (fun emission => !swept.admitted emission.event)
    swept := wheel.swept ++ wheel.deferred.filter (fun emission => swept.admitted emission.event) }

/-- One thing that happens to the wheel or the queue. `mayExpire` tells whether a transaction may reach its
    deadline. -/
inductive Step (mayExpire : Prop) (wheel : Wheel) : Wheel → Prop where
  | passes (ms : ℕ) : Step mayExpire wheel { wheel with now := wheel.now + ms }
  | arms {timer : Timer} (due : ℕ) (loose : timer.slot = none) (other : timer ≠ .eventRetry) :
      Step mayExpire wheel (wheel.insert timer due)
  | stores {id : TxnId} {slot : Slot} {timer : Timer} (due : ℕ) (own : timer.slot = some (slot, id))
      (other : slot ≠ .cleanup) : Step mayExpire wheel (wheel.store id slot timer due)
  | drops (id : TxnId) (slot : Slot) : Step mayExpire wheel (wheel.drop id slot)
  | fires {key : TimerKey} {due : ℕ} {timer : Timer} (filed : wheel.timers.get key = some (due, timer))
      (other : timer ≠ .eventRetry) (noBound : ∀ branch opened, timer ≠ .ackBound branch opened) :
      Step mayExpire wheel (wheel.fire key timer)
  | firesBound {key : TimerKey} {due opened : ℕ} {branch : Branch}
      (filed : wheel.timers.get key = some (due, .ackBound branch opened)) :
      Step mayExpire wheel ((wheel.remove key).modify (.client branch)
        (fun hands => if hands.createdAt = opened then { hands with owesAck := false } else hands))
  | holds (id : TxnId) (why : Hold) (left : ℕ)
      (long : ∀ branch hands, id = .client branch → wheel.txns id = some hands → hands.owesAck = true →
        timerD ≤ left) :
      Step mayExpire wheel (wheel.holdFor id why left)
  | acks (branch : Branch) :
      Step mayExpire wheel (wheel.modify (.client branch) ({ · with owesAck := false }))
  | rejects (branch : Branch) {due : ℕ} (soon : due ≤ wheel.now + wheel.ackBound) :
      Step mayExpire wheel (((wheel.owe branch due).stop branch).holdFor (.client branch) .timerD timerD)
  | enters {id : TxnId} {hands : Hands} (acked : hands.owesAck = false)
      (near : hands.lifetime.deadline ≤ wheel.now + maxDelay)
      (preset : ∀ slot key, hands.key slot = some key → wheel.txns id = none ∧
        ∃ due timer, wheel.timers.get key = some (due, timer) ∧ timer.slot = some (slot, id)) :
      Step mayExpire wheel (wheel.enter id hands)
  | leaves (id : TxnId) : Step mayExpire wheel (wheel.leave id)
  | queues {emission : Emission} (number : emission.number = wheel.emissions.length)
      (room : wheel.events.length < wheel.capacity)
      (first : emission.critical = true → wheel.deferred = []) :
      Step mayExpire wheel { wheel.emits emission with events := wheel.events ++ [emission] }
  | loses {emission : Emission} (number : emission.number = wheel.emissions.length)
      (ordinary : emission.critical = false) :
      Step mayExpire wheel (wheel.emits emission)
  | defers {emission : Emission} (number : emission.number = wheel.emissions.length)
      (critical : emission.critical = true) : Step mayExpire wheel ((wheel.emits emission).defer emission)
  | ticks {key : TimerKey} {due : ℕ} (filed : wheel.timers.get key = some (due, .eventRetry)) :
      Step mayExpire wheel (wheel.tick key)
  | takes {emission : Emission} {rest : List Emission} (queued : wheel.events = emission :: rest) :
      Step mayExpire wheel { wheel with events := rest, delivered := wheel.delivered ++ [emission] }
  | sweeps {key : ServerTxnKey} {hands : Hands} {backstop : ℕ}
      (stands : wheel.txns (.server key) = some hands)
      (active : hands.lifetime = .active backstop) (expires : mayExpire) :
      Step mayExpire wheel ((wheel.leave (.server key)).sweep ⟨key, hands.callId, hands.fromTag⟩)

/-- Any number of things that happen. -/
abbrev Steps (mayExpire : Prop) : Wheel → Wheel → Prop := Relation.ReflTransGen (Step mayExpire)

end Wheel

/-- The owner's state, as its wheel and its queue. -/
def Owner.wheel (owner : Owner) : Wheel where
  now := owner.now
  timers := owner.timers
  txns id := (owner.txn id).map Transaction.hands
  armed := owner.eventRetryArmed
  capacity := owner.config.eventCapacity
  ackBound := owner.config.ackBoundMs
  events := owner.events
  deferred := owner.deferredEvents
  delivered := owner.delivered
  swept := owner.swept
  emissions := owner.emissions

end SipServer.Txn
