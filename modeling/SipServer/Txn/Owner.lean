/-
Module: SipServer.Txn.Owner
Purpose: The owner task's state and bookkeeping (`sip-txn/src/layer/owner.rs`): its transaction maps, the
  timer wheel, the per-call index, the output queue (`events.rs`) and when a transaction leaves the map
  (`lifetime.rs`).
Trusted boundary: translated from the source
-/
import SipServer.Lib.DelayQueue
import SipServer.Lib.KeyMap
import SipServer.Txn.Transaction

namespace SipServer.Txn

open SipServer.Lib SipServer.Retransmit

/-!
`now` stands still during a turn of the owner. A datagram sent is noted in `journal`, and so is each event
emitted and each outcome a transaction takes, with the serial of the transaction it concerns; `opened`,
`emissions`, `delivered` and `swept` are the observer's too. The consumer keeps its end of the event queue
open. Of the counters only those of the held CANCELs are kept; the stamps of the event queue (`event_age.rs`)
and the holds of the node's shared refusals are left out.
-/

structure Config where
  eventCapacity : ℕ
  capacity_pos : 0 < eventCapacity
  inviteInitialTimeoutMs : ℕ
  inviteFirstResponseTimeoutMs : ℕ
  tryingBoundMs : ℕ
  ackBoundMs : ℕ
  cancelBoundMs : ℕ
  statelessOptions : Bool
  keepaliveLane : Bool
  /-- How the timer wheel, tokio-util's `DelayQueue`, takes its slots. -/
  slots : SlotChoice

/-- What an observer of the layer notes, in order. -/
inductive Note where
  /-- A response to the request of a server transaction left. -/
  | response (txn status : ℕ) (buf : Bytes) (dest : SocketAddr)
  /-- A server transaction took its final. -/
  | answered (txn status : ℕ) (buf : Bytes)
  /-- The 200 to a CANCEL of a server transaction's INVITE left. -/
  | cancelOk (txn : ℕ) (buf : Bytes) (dest : SocketAddr)
  /-- A server transaction holds the answers to a CANCEL. -/
  | answersHeld (txn : ℕ) (held : UnsentCancel)
  /-- The request of a client transaction left. -/
  | request (txn : ℕ) (buf : Bytes) (dest : SocketAddr)
  /-- The TU handed over a CANCEL of a client INVITE. -/
  | cancelHanded (txn : ℕ)
  /-- A CANCEL of a client INVITE left. -/
  | cancel (txn : ℕ) (buf : Bytes) (dest : SocketAddr)
  /-- The CANCEL a client INVITE had on the wire drew a response. -/
  | cancelAnswered (txn : ℕ)
  /-- A client transaction took a provisional. -/
  | provisional (txn : ℕ)
  /-- A client INVITE took its first non-2xx final, with the ACK it draws. -/
  | rejected (txn : ℕ) (ack : Option (Bytes × SocketAddr))
  /-- The hop ACK of a client INVITE's non-2xx final left. -/
  | ack (txn : ℕ) (buf : Bytes) (dest : SocketAddr)
  /-- A client INVITE took its first 2xx. -/
  | accepted (txn : ℕ)
  /-- The call of a client transaction released it. -/
  | released (txn : ℕ)
  /-- An event was emitted, for a client transaction or for none. -/
  | event (txn : Option ℕ) (event : TransactionEvent)
  | watched (callRef : CallRef)
  /-- A datagram left outside every transaction. -/
  | raw (buf : Bytes) (dest : SocketAddr)
deriving Repr, DecidableEq

/-- An event on its way to the consumer, numbered in the order of emission. -/
structure Emission where
  number : ℕ
  critical : Bool
  event : TransactionEvent
deriving Repr, DecidableEq

structure Owner where
  config : Config
  now : ℕ
  clients : KeyMap Branch Transaction
  servers : KeyMap ServerTxnKey Transaction
  timers : DelayQueue Timer
  /-- The event queue, oldest first. -/
  events : List Emission
  deferredEvents : List Emission
  eventRetryArmed : Bool
  selfReleaseWatch : List CallRef
  txnIndex : KeyMap CallRef CallTxns
  pendingQuiesce : List CallRef
  heldCancels : KeyMap HeldAs ServerTxnKey
  /-- What transactions that left the map owe, each as the note of its leaving. -/
  owedSends : List Note
  recentUasTags : KeyMap (String × Tag) (Tag × ℕ)
  cancelsHeld : ℕ
  heldCancelsFlushed : ℕ
  heldCancelsDropped : ℕ
  /-- Identifiers drawn. -/
  ids : ℕ
  opened : ℕ
  /-- Every event emitted, in order. -/
  emissions : List Emission
  delivered : List Emission
  swept : List Emission
  journal : List Note

namespace Owner

def new (config : Config) : Owner where
  config := config
  now := 0
  clients := ∅
  servers := ∅
  timers := .empty config.slots
  events := []
  deferredEvents := []
  eventRetryArmed := false
  selfReleaseWatch := []
  txnIndex := ∅
  pendingQuiesce := []
  heldCancels := ∅
  owedSends := []
  recentUasTags := ∅
  cancelsHeld := 0
  heldCancelsFlushed := 0
  heldCancelsDropped := 0
  ids := 0
  opened := 0
  emissions := []
  delivered := []
  swept := []
  journal := []

variable (owner : Owner)

def say (note : Note) : Owner := { owner with journal := owner.journal ++ [note] }

/-- The transaction an identity names. -/
def txn : TxnId → Option Transaction
  | .client branch => owner.clients.get branch
  | .server key => owner.servers.get key

def modifyClient (branch : Branch) (change : Transaction → Transaction) : Owner :=
  { owner with clients := owner.clients.modify branch change }

def modifyServer (key : ServerTxnKey) (change : Transaction → Transaction) : Owner :=
  { owner with servers := owner.servers.modify key change }

def modifyTxn (id : TxnId) (change : Transaction → Transaction) : Owner :=
  match id with
  | .client branch => owner.modifyClient branch change
  | .server key => owner.modifyServer key change

def putTxn (id : TxnId) (txn : Transaction) : Owner :=
  match id with
  | .client branch => { owner with clients := owner.clients.insert branch txn }
  | .server key => { owner with servers := owner.servers.insert key txn }

def dropTxn (id : TxnId) : Owner :=
  match id with
  | .client branch => { owner with clients := owner.clients.remove branch }
  | .server key => { owner with servers := owner.servers.remove key }

/-! Timers -/

/-- Arm a timer after a delay, held within the wheel's range. -/
def arm (timer : Timer) (delay : ℕ) : TimerKey × Owner :=
  let (key, timers) := owner.timers.insert timer (owner.now + min delay maxDelay)
  (key, { owner with timers })

/-- Arm a timer at a deadline; one already past is due at once. -/
def armAt (timer : Timer) (deadline : ℕ) : TimerKey × Owner :=
  owner.arm timer (deadline - owner.now)

def cancelTimer : Option TimerKey → Owner
  | some key => { owner with timers := owner.timers.remove key }
  | none => owner

/-! The output queue -/

def eventRetryMs : ℕ := 100

def armEventRetry : Owner :=
  if owner.eventRetryArmed then owner
  else { (owner.arm .eventRetry eventRetryMs).2 with eventRetryArmed := true }

/-- Queue a critical event onto the retry deque. -/
def defer (emission : Emission) : Owner :=
  { owner with deferredEvents := owner.deferredEvents ++ [emission] }.armEventRetry

/-- Offer an event to the bounded queue; true when it was queued or deferred. -/
def offer (about : Option ℕ) (event : TransactionEvent) (critical : Bool) : Bool × Owner :=
  let emission : Emission := ⟨owner.emissions.length, critical, event⟩
  let owner : Owner := { owner.say (.event about event) with emissions := owner.emissions ++ [emission] }
  if critical && !owner.deferredEvents.isEmpty then (true, owner.defer emission)
  else if owner.events.length < owner.config.eventCapacity then
    (true, { owner with events := owner.events ++ [emission] })
  else if critical then (true, owner.defer emission)
  else (false, owner)

def emit (about : Option ℕ) (event : TransactionEvent) : Bool × Owner := owner.offer about event false

def emitCritical (about : Option ℕ) (event : TransactionEvent) : Owner := (owner.offer about event true).2

/-- An out-of-dialog OPTIONS takes the keepalive lane when the layer runs one. -/
def emitKeepalive (event : TransactionEvent) : Owner :=
  if owner.config.keepaliveLane then owner else (owner.emit none event).2

/-- The loop of `flush_deferred` over what is left to re-offer. -/
def reoffer (owner : Owner) : List Emission → Owner
  | [] => { owner with deferredEvents := [] }
  | emission :: rest =>
    if owner.events.length < owner.config.eventCapacity then
      reoffer { owner with events := owner.events ++ [emission] } rest
    else { owner with deferredEvents := emission :: rest }

/-- Re-offer deferred critical events in order once the queue has room. -/
def flushDeferred : Owner :=
  let owner := owner.reoffer owner.deferredEvents
  if owner.deferredEvents.isEmpty then { owner with eventRetryArmed := false } else owner.armEventRetry

/-- The consumer takes the next event of the queue. -/
def take : Owner :=
  match owner.events with
  | emission :: events => { owner with events, delivered := owner.delivered ++ [emission] }
  | [] => owner

end Owner

/-- The identity of a server transaction that left the map unanswered. -/
structure SweptServer where
  key : ServerTxnKey
  callId : String
  fromTag : String
deriving Repr, DecidableEq

/-- Whether an event is the request this transaction admitted. -/
def SweptServer.admitted (swept : SweptServer) : TransactionEvent → Bool
  | .message (.request req) _ _ _ =>
    ServerTxnKey.ofRequest req = some swept.key && req.callId = swept.callId &&
      req.fromTag.getD "" = swept.fromTag
  | _ => false

namespace Owner

variable (owner : Owner)

/-- Remove the deferred request a swept server transaction admitted. -/
def dropDeferredRequestOf (swept : SweptServer) : Owner :=
  { owner with
    deferredEvents := owner.deferredEvents.filter (fun emission => !swept.admitted emission.event)
    swept := owner.swept ++ owner.deferredEvents.filter (fun emission => swept.admitted emission.event) }

/-! The books of each call -/

/-- Any transaction still on a call's books. -/
def hasTxnsFor (callRef : CallRef) : Bool :=
  (owner.txnIndex.get callRef).any (fun txns => 0 < txns.onBooks)

def trackCallRef (callRef : Option CallRef) (id : TxnId) : Owner :=
  match callRef with
  | some callRef =>
    { owner with txnIndex :=
        owner.txnIndex.insert callRef (((owner.txnIndex.get callRef).getD .new).track id) }
  | none => owner

def untrackCallRef (callRef : Option CallRef) (id : TxnId) : Owner :=
  match callRef with
  | none => owner
  | some callRef =>
    match owner.txnIndex.get callRef with
    | none => owner
    | some txns =>
      if (txns.untrack id).holdsNone then { owner with txnIndex := owner.txnIndex.remove callRef }
      else { owner with txnIndex := owner.txnIndex.insert callRef (txns.untrack id) }

/-- A watched call left with no transaction on its books hears `CallQuiesced` at the end of the turn. -/
def quiesceIfLast (callRef : CallRef) : Owner :=
  if callRef ∈ owner.selfReleaseWatch ∧ ¬ owner.hasTxnsFor callRef then
    { owner with pendingQuiesce := owner.pendingQuiesce ++ [callRef] }
  else owner

/-- Take a transaction off its call's books while it stays resident. -/
def detachFromCall (id : TxnId) : Owner :=
  match (owner.txn id).bind (·.callRef) with
  | none => owner
  | some callRef =>
    ((owner.modifyTxn id ({ · with callRef := none })).untrackCallRef (some callRef) id).quiesceIfLast
      callRef

/-- Take an Accepted client transaction off its call's books while the call keeps it. -/
def settleAccepted (branch : Branch) : Owner :=
  match (owner.clients.get branch).bind (·.callRef) with
  | none => owner
  | some callRef =>
    match owner.txnIndex.get callRef with
    | none => owner
    | some txns =>
      if branch ∈ txns.client then
        { owner with txnIndex := owner.txnIndex.insert callRef (txns.settle branch) }.quiesceIfLast callRef
      else owner

/-- Deliver the one-shot `CallQuiesced` of a watched call. -/
def notifyQuiesced (callRef : CallRef) : Owner :=
  { owner with selfReleaseWatch := owner.selfReleaseWatch.erase callRef }.emitCritical none
    (.callQuiesced callRef)

/-- Emit the `CallQuiesced` notices of this turn whose call is still quiet. -/
def flushPendingQuiesce : Owner :=
  owner.pendingQuiesce.foldl
    (fun owner callRef =>
      if callRef ∈ owner.selfReleaseWatch ∧ ¬ owner.hasTxnsFor callRef then owner.notifyQuiesced callRef
      else owner)
    { owner with pendingQuiesce := [] }

/-! Entering and leaving the maps -/

/-- Take a transaction's four entries off the wheel. -/
def cancelTimers (txn : Transaction) : Owner :=
  (((owner.cancelTimer txn.retransmitKey).cancelTimer txn.timeoutKey).cancelTimer txn.cleanupKey).cancelTimer
    txn.cancelRetransmitKey

/-- Count a CANCEL that leaves unsent with its transaction. -/
def countDroppedCancel (txn : Transaction) : Owner :=
  if txn.holdsUnsentCancel then { owner with heldCancelsDropped := owner.heldCancelsDropped + 1 } else owner

/-- Put a transaction in the map of its role, over the one a reused client branch held. -/
def setTxn (txn : Transaction) : Owner :=
  let displaced := owner.txn txn.id
  let owner := owner.putTxn txn.id txn
  let owner :=
    match displaced with
    | some old => ((owner.cancelTimers old).untrackCallRef old.callRef txn.id).countDroppedCancel old
    | none => owner
  owner.trackCallRef txn.callRef txn.id

/-- Keep the tag this node bound to a dialog. -/
def rememberUasTag (callId fromTag : String) (tag : Tag) : Owner :=
  { owner with recentUasTags := owner.recentUasTags.insert (callId, fromTag) (tag, owner.now) }

/-- What a transaction leaving the map with held answers owes, queued for the end of the turn. -/
def oweHeldCancel (txn : ℕ) (held : UnsentCancel) : Owner :=
  { owner with
    heldCancels := owner.heldCancels.remove held.heldAs
    owedSends := owner.owedSends ++ (held.cancelOk.map (fun ok => Note.cancelOk txn ok.1 ok.2)).toList
      ++ (held.terminated.map (fun final => Note.response txn 487 final.1 final.2)).toList }

def flushOwedSends : Owner :=
  { owner with journal := owner.journal ++ owner.owedSends, owedSends := [] }

/-- The books a leaving transaction keeps: the dialog's tag, the answers it holds. -/
def settleLeaving (id : TxnId) (txn : Transaction) : Owner :=
  let owner :=
    match id, txn.boundToTag with
    | .server _, some tag => owner.rememberUasTag txn.callId txn.fromTag tag
    | _, _ => owner
  match txn.unsentCancel with
  | some held => owner.oweHeldCancel txn.serial held
  | none => owner

/-- Remove a transaction, its timers with it; true when it was there. -/
def deleteTxn (id : TxnId) : Bool × Owner :=
  match owner.txn id with
  | none => (false, owner)
  | some txn =>
    let owner := ((owner.dropTxn id).settleLeaving id txn).cancelTimers txn
    let owner := (owner.untrackCallRef txn.callRef id).countDroppedCancel txn
    (true, match txn.callRef with
      | some callRef => owner.quiesceIfLast callRef
      | none => owner)

/-- Put a fresh transaction in the map `Active` and arm its backstop, `finish` completing it first. -/
def openTxnWith (head : NewTransaction) (finish : Transaction → Transaction) : Owner :=
  let budget :=
    match head.kind with
    | .invite => owner.config.inviteInitialTimeoutMs + txnMaxAge
    | .nonInvite => txnMaxAge
  let txn := finish (.new head owner.opened owner.now (.active (deadlineAfter owner.now budget)))
  let (key, owner) := owner.armAt (.cleanup txn.id) txn.lifetime.deadline
  { owner with opened := owner.opened + 1 }.setTxn { txn with cleanupKey := some key }

def openTxn (head : NewTransaction) : Owner := owner.openTxnWith head id

/-- The cleanup entry of a transaction at its lifetime deadline, in place of the one it had. -/
def armDeadline (id : TxnId) : Owner :=
  match owner.txn id with
  | none => owner
  | some txn =>
    let owner := owner.cancelTimer txn.cleanupKey
    let (key, owner) := owner.armAt (.cleanup id) txn.lifetime.deadline
    owner.modifyTxn id ({ · with cleanupKey := some key })

/-- Hold a transaction for `why`, `left` from now. -/
def holdFor (id : TxnId) (why : Hold) (left : ℕ) : Owner :=
  let till := deadlineAfter owner.now left
  (owner.modifyTxn id (fun txn => { txn with lifetime := txn.lifetime.hold why till })).armDeadline id

def hold (id : TxnId) (why : Hold) : Owner := owner.holdFor id why why.duration

/-- The server transaction an identity names, while it is still working its request. -/
def unanswered (id : TxnId) : Option SweptServer :=
  match id, owner.txn id with
  | .server key, some txn =>
    match txn.lifetime with
    | .active _ => some ⟨key, txn.callId, txn.fromTag⟩
    | .held _ _ => none
  | _, _ => none

/-- A transaction reached its deadline and leaves the map; a server one still active takes its deferred
    request with it. -/
def expire (id : TxnId) : Owner :=
  let left := (owner.deleteTxn id).2
  match owner.unanswered id with
  | some swept => left.dropDeferredRequestOf swept
  | none => left

/-- The transactions resident more than one sweep interval past their deadline. -/
def overdue : List TxnId :=
  let late (txn : Transaction) : Bool := deadlineAfter txn.lifetime.deadline txnSweepInterval ≤ owner.now
  (owner.clients.entries.filter (fun entry => late entry.2)).map (fun entry => TxnId.client entry.1) ++
    (owner.servers.entries.filter (fun entry => late entry.2)).map (fun entry => TxnId.server entry.1)

/-- The safety net: every overdue transaction expires. -/
def reapOverdue : Owner := owner.overdue.foldl expire owner

/-- Drop every remembered tag past Timer L. -/
def forgetExpiredUasTags : Owner :=
  { owner with recentUasTags :=
      owner.recentUasTags.filterMap (fun _ tag => if owner.now - tag.2 < timerL then some tag else none) }

def sweep : Owner := owner.reapOverdue.forgetExpiredUasTags

end Owner

end SipServer.Txn
