/-
Module: SipServer.Txn.Turn
Purpose: The owner task's loop (`sip-txn/src/layer/run.rs`): timer dispatch (`owner.rs`), the command funnel
  (`commands.rs`), and one turn from the work it takes to the notices it flushes.
Trusted boundary: translated from the source
-/
import SipServer.Lib.Runs
import SipServer.Txn.Seed

namespace SipServer.Txn

open SipServer.Retransmit

/-!
The commands that only read are left out, and so is the answer to a datagram that does not parse. Timers fire
one a turn, the earliest due first; the sweep runs only when no timer is due, since the loop polls the wheel
before it.
-/

inductive Command where
  | sendRequest (msg : SipRequest) (dest : SocketAddr) (kind : TxnKind)
  | sendResponse (msg : SipResponse) (dest : SocketAddr)
  | sendRaw (buf : Bytes) (dest : SocketAddr)
  | seed (callRef : CallRef) (seeds : List TxnSeed)
  | reoffer (message : SipMessage) (src : SocketAddr)
  | cancelTxnsForCall (callRef : CallRef)
  | relinquishCall (callRef : CallRef)
  | relinquishServer (key : ServerTxnKey)
  | relinquishClient (branch : Branch)
  | relinquishAccepted (callRef : CallRef)
  | forgetUnansweredOfCall (callRef : CallRef)
  | answerUnansweredInvitesOfCall (callRef : CallRef) (status : ℕ) (reason : String)
  | releaseCancel (heldAs : HeldAs)
  | releaseAck (branch : Branch)
  | releaseTrying (key : ServerTxnKey)
  | watchSelfRelease (callRef : CallRef)

/-- What one turn of the loop takes. -/
inductive Work where
  | forget (key : ServerTxnKey) (callId fromTag : String)
  | command (command : Command)
  /-- The entry of the wheel a key names. -/
  | timer (key : TimerKey)
  | sweep
  | request (req : SipRequest) (src : SocketAddr) (judgement : Owner.Judgement)
  | response (resp : SipResponse) (src : SocketAddr)

namespace Owner

/-- A fired timer; its entry already left the wheel, and the key of it that a transaction stores is cleared
    first. -/
def fireTimer (wire : Wire) (owner : Owner) : Timer → Owner
  | .clientRetransmit branch =>
    (owner.modifyClient branch ({ · with retransmitKey := none })).fireRetransmit branch
  | .serverRetransmit key =>
    (owner.modifyServer key ({ · with retransmitKey := none })).fireServerRetransmit key
  | .clientTimeout branch => (owner.modifyClient branch ({ · with timeoutKey := none })).fireTimeout branch
  | .firstResponse branch => owner.fireFirstResponse branch
  | .trying key opened => owner.fireTrying wire key opened
  | .ackBound branch opened => owner.fireAckBound branch opened
  | .cancelBound key opened => owner.fireCancelBound key opened
  | .cleanup id => (owner.modifyTxn id ({ · with cleanupKey := none })).expire id
  | .cancelRetransmit branch =>
    (owner.modifyClient branch ({ · with cancelRetransmitKey := none })).fireCancelRetransmit branch
  | .eventRetry => { owner with eventRetryArmed := false }.flushDeferred

/-- The consumer asks to be told when a call's last transaction clears. -/
def watchSelfRelease (owner : Owner) (callRef : CallRef) : Owner :=
  let owner := owner.say (.watched callRef)
  if owner.hasTxnsFor callRef then { owner with selfReleaseWatch := owner.selfReleaseWatch.insert callRef }
  else owner.notifyQuiesced callRef

def handleCommand (wire : Wire) (owner : Owner) : Command → Owner
  | .sendRequest msg dest kind => owner.doSendRequest wire msg dest kind
  | .sendResponse msg dest => owner.doSendResponse wire msg dest
  | .sendRaw buf dest => owner.say (.raw buf dest)
  | .seed callRef seeds => (owner.doSeed wire callRef seeds).2
  | .reoffer message src => (owner.doReoffer wire message src).2
  | .cancelTxnsForCall callRef => owner.doCancelTxnsForCall callRef
  | .relinquishCall callRef => owner.relinquishCall callRef
  | .relinquishServer key => owner.relinquishServer key
  | .relinquishClient branch => owner.relinquishClient branch
  | .relinquishAccepted callRef => owner.relinquishAcceptedOfCall callRef
  | .forgetUnansweredOfCall callRef => owner.forgetUnansweredOfCall callRef
  | .answerUnansweredInvitesOfCall callRef status reason =>
    owner.answerUnansweredInvitesOfCall wire callRef status reason
  | .releaseCancel heldAs => (owner.releaseHeldCancel heldAs).2
  | .releaseAck branch => (owner.sendHeldAck branch).2
  | .releaseTrying key => (owner.sendFirstTrying wire key).2
  | .watchSelfRelease callRef => owner.watchSelfRelease callRef

/-- The work of a turn; none when a timer is not the next to fire, or the sweep comes while a timer is
    due. -/
def work (wire : Wire) (owner : Owner) : Work → Option Owner
  | .forget key callId fromTag => some (owner.forgetUnanswered key callId fromTag)
  | .command command => some (owner.handleCommand wire command)
  | .timer key =>
    match owner.timers.get key with
    | none => none
    | some (_, timer) =>
      if owner.timers.expires owner.now key then
        some ({ owner with timers := owner.timers.remove key }.fireTimer wire timer)
      else none
  | .sweep => if owner.timers.idle owner.now then some owner.sweep else none
  | .request req src judgement => some (owner.handleInboundRequest wire req src judgement)
  | .response resp src => some (owner.inboundResponse wire resp src false).2

/-- One turn: its work, then what transactions that left owe, then the quiet calls. -/
def turn (wire : Wire) (owner : Owner) (work : Work) : Option Owner :=
  (owner.work wire work).map (fun owner => owner.flushOwedSends.flushPendingQuiesce)

end Owner

/-- What happens to the layer: a turn of its owner, the passing of time, a take of its consumer. -/
inductive OwnerEvent where
  | turn (work : Work)
  | pass (ms : ℕ)
  | take

namespace Owner

def step (wire : Wire) (owner : Owner) : OwnerEvent → Option Owner
  | .turn work => owner.turn wire work
  | .pass ms => some { owner with now := owner.now + ms }
  | .take => some owner.take

end Owner

end SipServer.Txn
