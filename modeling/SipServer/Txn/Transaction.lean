/-
Module: SipServer.Txn.Transaction
Purpose: One transaction's record (`sip-txn/src/layer/txn.rs`), its end-of-life state (`lifetime.rs`), the
  entries of the timer wheel and the live transactions of a call (`call_txns.rs`).
Trusted boundary: translated from the source
-/
import Mathlib.Data.List.Basic
import SipServer.Retransmit.Ladder
import SipServer.Txn.Message

namespace SipServer.Txn

open SipServer.Retransmit

/-!
An instant is a number of milliseconds. `held`, the hold the node's shared refusals keep on a server
transaction's identity, is left out: only those refusals read it. `serial` is the observer's: it tells apart
the transactions opened one after another on one identity.
-/

inductive TxnState where
  | trying
  | proceeding
  | completed
  | confirmed
  | accepted
deriving Repr, DecidableEq

namespace TxnState

/-- No final yet. -/
def isActive : TxnState → Bool
  | trying | proceeding => true
  | completed | confirmed | accepted => false

end TxnState

/-- The hold a transaction that is done with its request waits out. -/
inductive Hold where
  | timerD
  | timerH
  | timerL
  | timerJ
  | timerI
  | timerM
  | gaveUp
deriving Repr, DecidableEq

def Hold.duration : Hold → ℕ
  | timerD => Retransmit.timerD
  | timerH => Retransmit.timerH
  | timerL => Retransmit.timerL
  | timerJ => Retransmit.timerJ
  | timerI => Retransmit.timerI
  | timerM => Retransmit.timerM
  | gaveUp => Retransmit.timerB

/-- The furthest a deadline lies, a year. -/
def maxDelay : ℕ := 365 * 24 * 3600 * 1000

/-- The instant a delay after another, at most `maxDelay` after it. -/
def deadlineAfter (start delay : ℕ) : ℕ := start + min delay maxDelay

inductive Lifetime where
  | active (backstop : ℕ)
  | held (why : Hold) (till : ℕ)
deriving Repr, DecidableEq

namespace Lifetime

/-- The instant the transaction leaves the map. -/
def deadline : Lifetime → ℕ
  | active backstop => backstop
  | held _ till => till

def gaveUp : Lifetime → Bool
  | held .gaveUp _ => true
  | _ => false

/-- This lifetime held for `why`. Re-arming the hold already running keeps the later deadline. -/
def hold (lifetime : Lifetime) (why : Hold) (till : ℕ) : Lifetime :=
  match lifetime with
  | held running old => held why (if running = why then max till old else till)
  | active _ => held why till

end Lifetime

inductive TxnId where
  | client (branch : Branch)
  | server (key : ServerTxnKey)
deriving Repr, DecidableEq

/-- An entry of the timer wheel. -/
inductive Timer where
  | clientRetransmit (branch : Branch)
  | serverRetransmit (key : ServerTxnKey)
  | clientTimeout (branch : Branch)
  | firstResponse (branch : Branch)
  | trying (key : ServerTxnKey) (opened : ℕ)
  | cleanup (id : TxnId)
  | ackBound (branch : Branch) (opened : ℕ)
  | cancelBound (key : ServerTxnKey) (opened : ℕ)
  | cancelRetransmit (branch : Branch)
  | eventRetry
deriving Repr, DecidableEq

inductive CancelWire where
  | held
  | sent
deriving Repr, DecidableEq

/-- Call-ID, From-tag and CSeq number of an INVITE. -/
abbrev HeldAs := String × String × ℕ

/-- The answers to a CANCEL a server INVITE holds. -/
structure UnsentCancel where
  cancelOk : Option (Bytes × SocketAddr)
  terminated : Option (Bytes × SocketAddr)
  heldAs : HeldAs
deriving Repr, DecidableEq

/-- A CANCEL parked on its client INVITE. -/
structure HeldCancel where
  buf : Bytes
  dest : SocketAddr
  wire : CancelWire
  ladder : Option Ladder
deriving Repr, DecidableEq

def maxDialogs : ℕ := 16

/-- A dialog of a client INVITE, by its To-tag. -/
structure InviteDialog where
  toTag : Option Tag
  cseq : ℕ
  byed : Bool
  ack : Option (Bytes × SocketAddr)
deriving Repr, DecidableEq

structure NewTransaction where
  id : TxnId
  kind : TxnKind
  method : Method
  cseq : ℕ
  callId : String
  fromTag : String
  originalRequest : Option SipRequest
  callRef : Option CallRef
  legId : Option String
  incarnationMark : Option String
  state : TxnState
  destination : Option SocketAddr
deriving Repr, DecidableEq

/-- Keys of the timer wheel. -/
abbrev TimerKey := ℕ

structure Transaction extends NewTransaction where
  serial : ℕ
  lastResponse : Option Bytes
  lastResponseStatus : Option ℕ
  createdAt : ℕ
  uasToTag : Option Tag
  finalToTag : Option Tag
  retransmitKey : Option TimerKey
  timeoutKey : Option TimerKey
  cleanupKey : Option TimerKey
  heldCancel : Option HeldCancel
  cancelRetransmitKey : Option TimerKey
  retransmitBuf : Option Bytes
  seedResend : Option Bytes
  unsentAck : Option (Bytes × SocketAddr)
  unsentCancel : Option UnsentCancel
  ladder : Option Ladder
  timeoutKind : TxnTimeoutKind
  deadHopReported : Bool
  pastTrying : Bool
  dialogs : List InviteDialog
  reliableOffers : List Tag
  lifetime : Lifetime
  orphaned : Bool
  seeded : Bool
deriving Repr, DecidableEq

namespace Transaction

/-- The one constructor: a fresh record entering the map at an instant. -/
def new (head : NewTransaction) (serial now : ℕ) (lifetime : Lifetime) : Transaction where
  toNewTransaction := head
  serial := serial
  lastResponse := none
  lastResponseStatus := none
  createdAt := now
  uasToTag := none
  finalToTag := none
  retransmitKey := none
  timeoutKey := none
  cleanupKey := none
  heldCancel := none
  cancelRetransmitKey := none
  retransmitBuf := none
  seedResend := none
  unsentAck := none
  unsentCancel := none
  ladder := none
  timeoutKind := .response
  deadHopReported := false
  pastTrying := false
  dialogs := []
  reliableOffers := []
  lifetime := lifetime
  orphaned := false
  seeded := false

/-- The To-tag a server INVITE has bound: its final's, else the pinned one. -/
def boundToTag (txn : Transaction) : Option Tag := txn.finalToTag.or txn.uasToTag

/-- The datagram cached for a copy of the request, with its status. -/
def cached (txn : Transaction) : Option (Bytes × ℕ) :=
  match txn.lastResponse, txn.lastResponseStatus with
  | some buf, some status => some (buf, status)
  | _, _ => none

/-- Record the dialog under a To-tag, unless it is known or past `maxDialogs`. -/
def noteDialog (txn : Transaction) (toTag : Option Tag) : Transaction :=
  if txn.dialogs.any (·.toTag = toTag) ∨ maxDialogs ≤ txn.dialogs.length then txn
  else { txn with dialogs := txn.dialogs ++ [⟨toTag, 0, false, none⟩] }

def dialog (txn : Transaction) (toTag : Option Tag) : Option InviteDialog :=
  txn.dialogs.find? (·.toTag = toTag)

/-- Change the dialog under a To-tag, recorded first when new. -/
def updateDialog (txn : Transaction) (toTag : Option Tag) (change : InviteDialog → InviteDialog) :
    Transaction :=
  let txn := txn.noteDialog toTag
  { txn with
    dialogs := txn.dialogs.map fun dialog => if dialog.toTag = toTag then change dialog else dialog }

/-- A CANCEL is parked that never left. -/
def holdsUnsentCancel (txn : Transaction) : Bool := txn.heldCancel.any (·.wire = .held)

end Transaction

/-- The live transactions of one call, by role. -/
structure CallTxns where
  client : List Branch
  server : List ServerTxnKey
  accepted : List Branch
deriving Repr, DecidableEq

namespace CallTxns

def new : CallTxns := ⟨[], [], []⟩

/-- How many transactions are on the call's books. -/
def onBooks (txns : CallTxns) : ℕ := txns.client.length + txns.server.length

def holdsNone (txns : CallTxns) : Bool := txns.client.isEmpty && txns.server.isEmpty && txns.accepted.isEmpty

/-- Every client transaction of the call, Accepted ones included. -/
def everyClient (txns : CallTxns) : List Branch := txns.client ++ txns.accepted

def track (txns : CallTxns) : TxnId → CallTxns
  | .client branch => { txns with client := txns.client.insert branch }
  | .server key => { txns with server := txns.server.insert key }

def untrack (txns : CallTxns) : TxnId → CallTxns
  | .client branch =>
    { txns with client := txns.client.erase branch, accepted := txns.accepted.erase branch }
  | .server key => { txns with server := txns.server.erase key }

/-- Move a client transaction to the Accepted ones. -/
def settle (txns : CallTxns) (branch : Branch) : CallTxns :=
  { txns with client := txns.client.erase branch, accepted := txns.accepted.insert branch }

end CallTxns

end SipServer.Txn
