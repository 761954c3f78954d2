/-
Module: SipServer.Txn.Message
Purpose: The messages the transaction layer handles, as far as it reads them: their identity
  (`sip-txn/src/layer/key.rs`), the marks of the call they belong to (`via_marks.rs`), the events it emits
  (`event.rs`), and the message crate's composers as a parameter.
Trusted boundary: translated from the source
-/
import Mathlib.Order.Basic

namespace SipServer.Txn

abbrev Bytes := String
abbrev SocketAddr := ℕ
abbrev Branch := String
abbrev Tag := String
abbrev CallRef := String

inductive Method where
  | invite
  | ack
  | cancel
  | bye
  | options
  | other (name : String)
deriving Repr, DecidableEq

/-- A top Via: what names its hop, and the call marks a request of this node carries there. -/
structure Via where
  branch : Option Branch
  sentBy : String
  /-- `cr`, `lg` and `ci`, decoded. -/
  callRef : Option CallRef
  legId : Option String
  incarnationMark : Option String
deriving Repr, DecidableEq

/-- The branch, unless it is missing or empty. -/
def Via.namedBranch (via : Via) : Option Branch := via.branch.filter (· ≠ "")

structure SipRequest where
  method : Method
  topVia : Via
  cseq : ℕ
  callId : String
  fromTag : Option Tag
  toTag : Option Tag
  /-- The Request-URI's `callRef` parameter, decoded. -/
  uriCallRef : Option CallRef
  headers : List String
  /-- Whether the body carries a session description. -/
  sdp : Bool
  image : Bytes
deriving Repr, DecidableEq

structure SipResponse where
  status : ℕ
  topVia : Via
  cseq : ℕ
  cseqMethod : Method
  callId : String
  fromTag : Option Tag
  toTag : Option Tag
  sdp : Bool
  /-- Whether it bears a well-formed RSeq. -/
  rseq : Bool
  image : Bytes
deriving Repr, DecidableEq

def SipResponse.Is2xx (resp : SipResponse) : Prop := 200 ≤ resp.status ∧ resp.status < 300

instance (resp : SipResponse) : Decidable resp.Is2xx := inferInstanceAs (Decidable (_ ∧ _))

inductive SipMessage where
  | request (req : SipRequest)
  | response (resp : SipResponse)
deriving Repr, DecidableEq

/-- The method a server transaction is filed under: an ACK's is its INVITE's. -/
def filedMethod : Method → Method
  | .ack => .invite
  | method => method

/-- A server transaction's identity (RFC 3261 §17.2.3). -/
structure ServerTxnKey where
  branch : Branch
  sentBy : String
  method : Method
deriving Repr, DecidableEq

namespace ServerTxnKey

/-- The identity a message with a top Via and a method names; none without a branch. -/
def new (via : Via) (method : Method) : Option ServerTxnKey :=
  via.namedBranch.map (fun branch => ⟨branch, via.sentBy, filedMethod method⟩)

def ofRequest (req : SipRequest) : Option ServerTxnKey := new req.topVia req.method

def ofResponse (resp : SipResponse) : Option ServerTxnKey := new resp.topVia resp.cseqMethod

/-- The INVITE transaction a CANCEL with this top Via names. -/
def cancelledInvite (via : Via) : Option ServerTxnKey := new via .invite

end ServerTxnKey

inductive TxnKind where
  | invite
  | nonInvite
deriving Repr, DecidableEq

inductive TxnTimeoutKind where
  | response
  | transaction
deriving Repr, DecidableEq

inductive TransactionEvent where
  | message (message : SipMessage) (src : SocketAddr) (matchedClientTxn : Bool) (datagram : Bytes)
  | cancelled (callId fromTag : String) (inviteCseq : Option ℕ) (inDialog : Bool) (headers : List String)
      (toTag : Option Tag)
  | timeout (branch : Branch) (callRef legId incarnationMark : Option String) (method : Method) (cseq : ℕ)
      (destination : Option SocketAddr) (kind : TxnTimeoutKind)
  | hopAlive (branch : Branch) (callRef legId : String) (incarnationMark : Option String)
  | callQuiesced (callRef : CallRef)
deriving Repr, DecidableEq

/-- A received response handed up, its datagram its own image. -/
def TransactionEvent.response (resp : SipResponse) (src : SocketAddr) (matchedClientTxn : Bool) :
    TransactionEvent :=
  .message (.response resp) src matchedClientTxn resp.image

/-- The message crate's composers and the identifier supply. Composing fails on a message whose lines nothing
    can echo. -/
structure Wire where
  /-- A request as the transport stamps it on receipt, and the address every response to it goes to. -/
  stampReceived : SipRequest → SocketAddr → SipRequest × SocketAddr
  stampedDestination : Via → SocketAddr → SocketAddr
  responseDestination : Via → Option SocketAddr
  /-- A response of a status and reason under a To-tag, with extra header lines. -/
  generateResponse : SipRequest → ℕ → String → Option Tag → List String → Option SipResponse
  delayedTryingTimestamp : SipRequest → ℕ → Option String
  retagResponse : SipResponse → Tag → Option SipResponse
  isFallbackToTag : Tag → Bool
  generateAckForNon2xx : SipRequest → SipResponse → Option Bytes
  /-- The ACK of a 2xx built from its INVITE on a branch, answering the offer it owes an answer to. -/
  generateAckFor2xxFromInvite : SipRequest → SipResponse → Branch → Option Bytes → Option SipRequest
  generateByeFor2xxFromInvite : SipRequest → SipResponse → ℕ → Branch → Option SipRequest
  /-- The answer that rejects every stream a response offers. -/
  rejectOffer : SipRequest → SipResponse → Option Bytes
  nextHop : SipRequest → Option SocketAddr
  parse : Bytes → Option SipRequest
  newBranch : ℕ → Branch
  newTag : ℕ → Tag
  /-- A response keeps its identity under another To-tag. -/
  retag_identity : ∀ resp tag retagged, retagResponse resp tag = some retagged →
    retagged.topVia = resp.topVia ∧ retagged.cseqMethod = resp.cseqMethod
  /-- A generated BYE leaves on the branch it was given. -/
  bye_branch : ∀ invite resp cseq branch bye,
    generateByeFor2xxFromInvite invite resp cseq branch = some bye →
    bye.topVia.branch = some branch

/-- Composers that echo the lines a message is built from, on a node that answers where a request came
    from. -/
def Wire.plain : Wire where
  stampReceived req src := (req, src)
  stampedDestination _ src := src
  responseDestination _ := none
  generateResponse req status reason toTag _ :=
    some ⟨status, req.topVia, req.cseq, req.method, req.callId, req.fromTag, toTag, false, false, reason⟩
  delayedTryingTimestamp _ _ := none
  retagResponse resp tag := some { resp with toTag := some tag }
  isFallbackToTag tag := tag = ""
  generateAckForNon2xx _ _ := some "ACK"
  generateAckFor2xxFromInvite invite resp branch _ :=
    some { invite with method := .ack, topVia := { invite.topVia with
      branch := some branch }, toTag := resp.toTag, image := "ACK" }
  generateByeFor2xxFromInvite invite resp cseq branch :=
    some { invite with
      method := .bye
      topVia := { invite.topVia with branch := some branch }
      cseq
      toTag := resp.toTag
      image := "BYE" }
  rejectOffer _ _ := none
  nextHop _ := some 1
  parse _ := none
  newBranch drawn := "z9hG4bK-layer" ++ String.ofList (List.replicate drawn 'x')
  newTag drawn := "tag" ++ String.ofList (List.replicate drawn 'x')
  retag_identity resp tag retagged isRetagged := by
    cases isRetagged
    exact ⟨rfl, rfl⟩
  bye_branch invite resp cseq branch bye isBye := by
    cases isBye
    rfl

end SipServer.Txn
