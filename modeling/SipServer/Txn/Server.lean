/-
Module: SipServer.Txn.Server
Purpose: The server transactions (RFC 3261 §17.2): admission, replay and ACKs, the TU's responses and Timer G
  (`sip-txn/src/layer/server.rs`), the first provisional (`trying.rs`), the To-tag a response is held to
  (`bind.rs`), a CANCEL (`server_cancel.rs`) and its held answers (`held_cancel.rs`), and the transactions
  nothing will answer (`unanswered.rs`).
Trusted boundary: translated from the source
-/
import SipServer.Txn.Owner

namespace SipServer.Txn

open SipServer.Retransmit

/-!
What the node's shared refusals and the new-call gate answer for a datagram comes with it (`Judgement`). The
counters, the report that held messages left at their bound and a debug build's assertion on a foreign To-tag
are left out.
-/

namespace Owner

/-! The To-tag of a response -/

/-- The tag remembered for the dialog a response answers on, within Timer L. -/
def recallUasTag (owner : Owner) (resp : SipResponse) : Option Tag :=
  match resp.fromTag with
  | none => none
  | some fromTag =>
    match owner.recentUasTags.get (resp.callId, fromTag) with
    | none => none
    | some (tag, since) => if owner.now - since < timerL then some tag else none

/-- What the layer holds one response to. -/
inductive Bound where
  | exact (tag : Tag)
  | fill (tag : Tag)
  | free
deriving Repr, DecidableEq

def boundFor (owner : Owner) (resp : SipResponse) : Bound :=
  if resp.cseqMethod = .cancel then
    let txn := (ServerTxnKey.cancelledInvite resp.topVia).bind owner.servers.get
    match (((txn.bind (·.originalRequest)).bind (·.toTag)).or (txn.bind (·.boundToTag))).or
      (owner.recallUasTag resp) with
    | some tag => .exact tag
    | none => .free
  else
    match (ServerTxnKey.ofResponse resp).bind owner.servers.get with
    | none =>
      match owner.recallUasTag resp with
      | some tag => .fill tag
      | none => .free
    | some txn =>
      match txn.originalRequest.bind (·.toTag) with
      | some tag => .exact tag
      | none =>
        match txn.kind, txn.boundToTag.or (owner.recallUasTag resp) with
        | .nonInvite, some tag => .fill tag
        | _, _ => .free

variable (wire : Wire) (owner : Owner) (key : ServerTxnKey)

/-- A response under the tag this layer binds it to. -/
def bindToTag (resp : SipResponse) : SipResponse :=
  if resp.status ≤ 100 then resp
  else
    let chosen := resp.toTag.filter (fun tag => !wire.isFallbackToTag tag)
    match owner.boundFor resp, chosen with
    | .free, _ => resp
    | .fill _, some _ => resp
    | .exact bound, some tag => if tag = bound then resp else (wire.retagResponse resp bound).getD resp
    | .exact bound, none => (wire.retagResponse resp bound).getD resp
    | .fill bound, none => (wire.retagResponse resp bound).getD resp

/-- Record the tag a final sent on a server INVITE bound. -/
def recordUasTag (resp : SipResponse) : Owner :=
  match resp.toTag, owner.servers.get key with
  | some tag, some txn =>
    if txn.kind = .invite ∧ 200 ≤ resp.status then
      (owner.modifyServer key ({ · with finalToTag := some tag })).rememberUasTag txn.callId txn.fromTag tag
    else owner
  | _, _ => owner

/-- The To-tag a server INVITE has bound, pinned now where none was yet. -/
def uasToTagOf (key : ServerTxnKey) : Option Tag × Owner :=
  let txn := owner.servers.get key
  match txn.bind (·.boundToTag) with
  | some tag => (some tag, owner)
  | none =>
    match (txn.bind (·.originalRequest)).bind (·.toTag) with
    | some tag => (some tag, owner.modifyServer key ({ · with uasToTag := some tag }))
    | none =>
      let tag := wire.newTag owner.ids
      (some tag, { owner with ids := owner.ids + 1 }.modifyServer key ({ · with uasToTag := some tag }))

/-! Responses through a server transaction -/

/-- Timer G: re-send the non-2xx final of a server INVITE still Completed. -/
def fireServerRetransmit : Owner :=
  match owner.servers.get key with
  | none => owner
  | some txn =>
    if txn.kind = .invite ∧ txn.state = .completed then
      match txn.cached, txn.destination with
      | some (buf, status), some dest =>
        let owner := owner.say (.response txn.serial status buf dest)
        match txn.ladder with
        | none => owner
        | some ladder =>
          let (rearm, ladder) := ladder.advance
          let owner := owner.modifyServer key ({ · with ladder := some ladder })
          match rearm with
          | none => owner
          | some interval =>
            let (timer, owner) := owner.arm (.serverRetransmit key) interval
            owner.modifyServer key ({ · with retransmitKey := some timer })
      | _, _ => owner
    else owner

/-- Arm a server transaction's timers after its final: its hold, and Timer G for a server INVITE's
    non-2xx. -/
def armFinalHold (kind : TxnKind) (status : ℕ) : Owner :=
  let why : Hold :=
    match kind with
    | .invite => if 200 ≤ status ∧ status < 300 then .timerL else .timerH
    | .nonInvite => .timerJ
  let owner := owner.hold (.server key) why
  if kind = .invite ∧ 300 ≤ status then
    match Ladder.armed (Schedule.rfc .inviteServerFinal) with
    | none => owner
    | some (ladder, first) =>
      let (timer, owner) := owner.arm (.serverRetransmit key) first
      owner.modifyServer key ({ · with retransmitKey := some timer, ladder := some ladder })
  else owner

/-- The state a server transaction enters on sending a response. -/
def stateAfter (kind : TxnKind) (status : ℕ) : TxnState :=
  if status < 200 then .proceeding
  else
    match kind with
    | .invite => if status < 300 then .accepted else .completed
    | .nonInvite => .completed

/-- What a server transaction keeps of a response the TU hands over. -/
def cacheResponse (txn : Transaction) (status : ℕ) (msg : SipResponse) : Owner :=
  let owner := owner.recordUasTag key msg
  let pinned := if 100 < status then msg.toTag else none
  let owner := owner.modifyServer key (fun txn =>
    { txn with
      uasToTag := txn.uasToTag.or pinned
      lastResponse := some msg.image
      lastResponseStatus := some status
      state := stateAfter txn.kind status
      originalRequest := if 200 ≤ status then none else txn.originalRequest })
  if 200 ≤ status then (owner.say (.answered txn.serial status msg.image)).armFinalHold key txn.kind status
  else owner

/-- Send a TU response through its server transaction; one that has sent its final drops it. -/
def doSendResponse (msg : SipResponse) (dest : SocketAddr) : Owner :=
  let status := msg.status
  let txn := (ServerTxnKey.ofResponse msg).bind owner.servers.get
  if msg.cseqMethod ≠ .cancel ∧ txn.any (fun txn => !txn.state.isActive) then owner
  else
    let msg := owner.bindToTag wire msg
    if msg.cseqMethod = .cancel then owner.say (.raw msg.image dest)
    else
      match ServerTxnKey.ofResponse msg with
      | none => owner.say (.raw msg.image dest)
      | some key =>
        match owner.servers.get key with
        | some txn =>
          (owner.cacheResponse key txn status msg).say
            (.response txn.serial status msg.image (txn.destination.getD dest))
        | none =>
          if 300 ≤ status ∧ msg.cseqMethod = .invite then owner else owner.say (.raw msg.image dest)

/-- Park a Completed server INVITE in Confirmed for Timer I on its ACK. -/
def holdForTimerI : Owner :=
  match owner.servers.get key with
  | none => owner
  | some txn =>
    let owner := owner.modifyServer key ({ · with
      state := .confirmed, ladder := none, retransmitKey := none })
    ((owner.cancelTimer txn.retransmitKey).hold (.server key) .timerI).detachFromCall (.server key)

/-! The first provisional -/

def armTryingBound (opened : ℕ) : Owner :=
  (owner.armAt (.trying key opened) (deadlineAfter opened owner.config.tryingBoundMs)).2

/-- Send the 100 of a server INVITE still `Trying` with nothing sent; true when it left. -/
def sendFirstTrying (key : ServerTxnKey) : Bool × Owner :=
  match owner.servers.get key with
  | none => (false, owner)
  | some txn =>
    match txn.originalRequest, txn.destination with
    | some request, some dest =>
      if txn.kind = .invite ∧ txn.state = .trying then
        let delay := owner.now - txn.createdAt
        let timestamp := if 0 < delay then wire.delayedTryingTimestamp request delay else none
        match wire.generateResponse request 100 "Trying" none timestamp.toList with
        | none => (false, owner)
        | some trying =>
          (true, (owner.say (.response txn.serial 100 trying.image dest)).modifyServer key
            ({ · with
              state := .proceeding, lastResponse := some trying.image, lastResponseStatus := some 100 }))
      else (false, owner)
    | _, _ => (false, owner)

def fireTrying (key : ServerTxnKey) (opened : ℕ) : Owner :=
  if (owner.servers.get key).any (·.createdAt = opened) then (owner.sendFirstTrying wire key).2 else owner

/-! A CANCEL and its answers -/

def holdsCancelAnswers (owner : Owner) : Bool := 0 < owner.config.cancelBoundMs

/-- Hold the answers to a CANCEL on a server INVITE and arm their bound. -/
def holdCancelAnswers (heldAs : HeldAs) (cancelOk terminated : Option (Bytes × SocketAddr)) : Owner :=
  match owner.servers.get key with
  | none => owner
  | some txn =>
    let held : UnsentCancel := ⟨cancelOk, terminated, heldAs⟩
    let owner := (owner.say (.answersHeld txn.serial held)).modifyServer key
      ({ · with unsentCancel := some held })
    let owner := { owner with heldCancels := owner.heldCancels.insert heldAs key }
    (owner.armAt (.cancelBound key txn.createdAt) (deadlineAfter owner.now owner.config.cancelBoundMs)).2

/-- A server INVITE leaves for another node, which sends its final. -/
def waiveHeldFinal : Owner :=
  owner.modifyServer key (fun txn =>
    { txn with unsentCancel := txn.unsentCancel.map ({ · with terminated := none }) })

/-- Send the answers a transaction holds, then start the 487's Timer G and Timer H; true when they left. -/
def sendHeldCancel : Bool × Owner :=
  match owner.servers.get key with
  | none => (false, owner)
  | some txn =>
    match txn.unsentCancel with
    | none => (false, owner)
    | some held =>
      let owner := owner.modifyServer key ({ · with unsentCancel := none })
      let owner := { owner with heldCancels := owner.heldCancels.remove held.heldAs }
      let owner :=
        match held.cancelOk with
        | some ok => owner.say (.cancelOk txn.serial ok.1 ok.2)
        | none => owner
      (true, match held.terminated with
        | some final => (owner.say (.response txn.serial 487 final.1 final.2)).armFinalHold key .invite 487
        | none => owner)

def fireCancelBound (opened : ℕ) : Owner :=
  if (owner.servers.get key).any (·.createdAt = opened) then (owner.sendHeldCancel key).2 else owner

def releaseHeldCancel (owner : Owner) (heldAs : HeldAs) : Bool × Owner :=
  match owner.heldCancels.get heldAs with
  | none => (false, owner)
  | some key => owner.sendHeldCancel key

/-- The INVITE server transaction a CANCEL names, when it passes a test. -/
def cancelledInvite (owner : Owner) (via : Via) (pick : Transaction → Bool) :
    Option (ServerTxnKey × Transaction) :=
  match ServerTxnKey.cancelledInvite via with
  | none => none
  | some key => ((owner.servers.get key).filter pick).map (fun txn => (key, txn))

/-- The 200 to a CANCEL leaves now, unless it is held. -/
def replyToCancel (owner : Owner) (hold : Bool) (serial : ℕ) (cancelOk : Option (Bytes × SocketAddr)) :
    Owner :=
  match cancelOk with
  | some ok => if hold then owner else owner.say (.cancelOk serial ok.1 ok.2)
  | none => owner

/-- A cancelled INVITE takes its 487, which leaves now, unless it is held. -/
def takeTerminated (owner : Owner) (hold : Bool) (key : ServerTxnKey) (serial : ℕ) (dest : SocketAddr) :
    Option SipResponse → Owner
  | none => owner
  | some final =>
    let owner := owner.say (.answered serial 487 final.image)
    let owner := if hold then owner else owner.say (.response serial 487 final.image dest)
    let owner := (owner.recordUasTag key final).modifyServer key
      ({ · with
        state := .completed
        lastResponse := some final.image
        lastResponseStatus := some 487
        originalRequest := none })
    if hold then owner else owner.armFinalHold key .invite 487

/-- The 200 to a CANCEL and the 487 to the active INVITE it cancels, sent or held, and `Cancelled`. -/
def cancelActive (req : SipRequest) (cancelDest : SocketAddr) (key : ServerTxnKey)
    (txn : Transaction) : Owner :=
  let inviteCseq := txn.originalRequest.map (·.cseq)
  let inDialog := txn.originalRequest.any (·.toTag.isSome)
  let (uasToTag, owner) := owner.uasToTagOf wire key
  let hold := owner.holdsCancelAnswers
  let cancelOk := (wire.generateResponse req 200 "OK" uasToTag []).map (fun ok => (ok.image, cancelDest))
  let inviteDest := txn.destination.getD cancelDest
  let terminated := txn.originalRequest.bind (wire.generateResponse · 487 "Request Terminated" uasToTag [])
  let owner := (owner.replyToCancel hold txn.serial cancelOk).takeTerminated hold key txn.serial inviteDest
    terminated
  let owner :=
    if hold then
      owner.holdCancelAnswers key (req.callId, req.fromTag.getD "", inviteCseq.getD 0) cancelOk
        (terminated.map (fun final => (final.image, inviteDest)))
    else owner
  owner.emitCritical none (.cancelled req.callId (req.fromTag.getD "") inviteCseq inDialog req.headers
    uasToTag)

/-- A CANCEL, received or handed back by the consumer (`datagram` none): whether a transaction here took
    it. -/
def handleCancel (req : SipRequest) (src : SocketAddr) (datagram : Option Bytes) : Bool × Owner :=
  let cancelDest := wire.stampedDestination req.topVia src
  let named (txn : Transaction) : Bool :=
    txn.kind = .invite && txn.callId = req.callId && txn.fromTag = req.fromTag.getD ""
  match owner.cancelledInvite req.topVia (fun txn => named txn && txn.state.isActive) with
  | some (key, txn) => (true, owner.cancelActive wire req cancelDest key txn)
  | none =>
    match owner.cancelledInvite req.topVia (·.unsentCancel.isSome) with
    | some _ => (true, owner)
    | none =>
      match owner.cancelledInvite req.topVia (fun txn => named txn && !txn.state.isActive) with
      | some (key, txn) =>
        let (toTag, owner) := owner.uasToTagOf wire key
        (true, match wire.generateResponse req 200 "OK" toTag [] with
          | some ok => owner.say (.cancelOk txn.serial ok.image cancelDest)
          | none => owner)
      | none =>
        (false, match datagram with
          | some datagram => (owner.emit none (.message (.request req) src false datagram)).2
          | none => owner)

/-! An inbound request -/

/-- The retransmission path: a copy of a request a server transaction matches draws its cached response; true
    when a transaction absorbed it. -/
def replayCached (req : SipRequest) (src : SocketAddr) : Bool × Owner :=
  match ServerTxnKey.ofRequest req with
  | none => (false, owner)
  | some key =>
    match owner.servers.get key with
    | none => (false, owner)
    | some txn =>
      if txn.unsentCancel.isSome then (true, owner)
      else
        let dest := txn.destination.getD (wire.stampedDestination req.topVia src)
        match txn.cached with
        | some (buf, status) => (true, owner.say (.response txn.serial status buf dest))
        | none =>
          if txn.kind = .invite ∧ txn.state = .proceeding then
            match wire.generateResponse (wire.stampReceived req src).1 100 "Trying" none [] with
            | none => (true, owner)
            | some trying =>
              (true, (owner.say (.response txn.serial 100 trying.image dest)).modifyServer key
                ({ · with lastResponse := some trying.image, lastResponseStatus := some 100 }))
          else (true, owner)

/-- What the node answers for a new INVITE. -/
inductive NewInvite where
  /-- Answered with the node's refusal, where one can be composed. -/
  | refused (refusal : Option Bytes)
  | admitted
deriving Repr, DecidableEq

/-- What the node's shared refusals and the gate answer for a datagram. -/
structure Judgement where
  newInvite : NewInvite
  /-- The datagram is an ACK of a refusal. -/
  acknowledgesRefusal : Bool
deriving Repr, DecidableEq

def handUp (req : SipRequest) (src : SocketAddr) : Owner :=
  (owner.emit none (.message (.request (wire.stampReceived req src).1) src false req.image)).2

/-- An ACK: absorbed by the transaction of its non-2xx final, else passed up unless it answers no dialog
    here. -/
def handleAck (key : ServerTxnKey) (req : SipRequest) (src : SocketAddr)
    (judgement : Judgement) : Owner :=
  let stray := if req.toTag.isNone ∨ judgement.acknowledgesRefusal then owner else owner.handUp wire req src
  match owner.servers.get key with
  | none => stray
  | some txn =>
    match txn.kind, txn.state, txn.lastResponseStatus with
    | .invite, .confirmed, _ => owner
    | .invite, .completed, some status => if 300 ≤ status then owner.holdForTimerI key else stray
    | .invite, .accepted, _ => (owner.detachFromCall (.server key)).handUp wire req src
    | _, _, _ => stray

/-- Open the server transaction of a request and hand it up: an INVITE as a critical event; a non-INVITE the
    full queue drops is forgotten. -/
def admitRequest (req : SipRequest) (destination : SocketAddr) (src : SocketAddr)
    (datagram : Bytes) : Owner :=
  let kind : TxnKind := if req.method = .invite then .invite else .nonInvite
  let owner := owner.openTxn
    { id := .server key
      kind
      method := req.method
      cseq := req.cseq
      callId := req.callId
      fromTag := req.fromTag.getD ""
      originalRequest := if req.method = .invite then some req else none
      callRef := req.uriCallRef
      legId := none
      incarnationMark := none
      state := .trying
      destination := some destination }
  let event : TransactionEvent := .message (.request req) src false datagram
  match kind with
  | .invite => (owner.armTryingBound key owner.now).emitCritical none event
  | .nonInvite =>
    let (queued, owner) := owner.emit none event
    if queued then owner else (owner.deleteTxn (.server key)).2

/-- A request no transaction holds. -/
def admitNew (req : SipRequest) (src : SocketAddr) (judgement : Judgement) : Owner :=
  if owner.config.statelessOptions ∧ req.method = .options ∧ req.toTag = none then
    owner.emitKeepalive (.message (.request (wire.stampReceived req src).1) src false req.image)
  else
    let (stamped, destination) := wire.stampReceived req src
    match ServerTxnKey.ofRequest stamped with
    | none => owner
    | some key =>
      match stamped.method, judgement.newInvite with
      | .invite, .refused refusal =>
        match refusal with
        | some buf => owner.say (.raw buf destination)
        | none => owner
      | _, _ => owner.admitRequest key stamped destination src req.image

def handleInboundRequest (req : SipRequest) (src : SocketAddr) (judgement : Judgement) : Owner :=
  match ServerTxnKey.ofRequest req with
  | none => owner.handUp wire req src
  | some key =>
    match req.method with
    | .ack => owner.handleAck wire key req src judgement
    | .cancel => (owner.handleCancel wire (wire.stampReceived req src).1 src (some req.image)).2
    | _ =>
      match owner.replayCached wire req src with
      | (true, owner) => owner
      | (false, owner) => owner.admitNew wire req src judgement

/-! Transactions nothing will answer -/

/-- Forget a non-INVITE server transaction whose request the consumer discarded unanswered. -/
def forgetUnanswered (callId fromTag : String) : Owner :=
  if (owner.servers.get key).any (fun txn =>
      txn.kind = .nonInvite && txn.state = .trying && txn.callId = callId && txn.fromTag = fromTag) then
    (owner.deleteTxn (.server key)).2
  else owner

/-- The server transactions of a call. -/
def serversOf (owner : Owner) (callRef : CallRef) : List ServerTxnKey :=
  ((owner.txnIndex.get callRef).map (·.server)).getD []

/-- Forget every non-INVITE server transaction of a call that has sent no final. -/
def forgetUnansweredOfCall (owner : Owner) (callRef : CallRef) : Owner :=
  let unanswered := (owner.serversOf callRef).filter (fun key =>
    (owner.servers.get key).any (fun txn => txn.kind = .nonInvite && txn.state.isActive))
  unanswered.foldl (fun owner key => (owner.deleteTxn (.server key)).2) owner

/-- The in-dialog server INVITEs of a call that have sent no final, each with its request and where its
    answer goes. -/
def unansweredInvites (owner : Owner) (callRef : CallRef) :
    List (ServerTxnKey × SipRequest × Option SocketAddr) :=
  (owner.serversOf callRef).filterMap (fun key =>
    (owner.servers.get key).bind (fun txn =>
      if txn.kind = .invite ∧ txn.state.isActive then
        (txn.originalRequest.filter (·.toTag.isSome)).map (fun req => (key, req, txn.destination))
      else none))

/-- Answer every in-dialog server INVITE of a call that has sent no final. -/
def answerUnansweredInvitesOfCall (callRef : CallRef) (status : ℕ) (reason : String) : Owner :=
  (owner.unansweredInvites callRef).foldl
    (fun owner entry =>
      match entry.2.2.or (wire.responseDestination entry.2.1.topVia) with
      | none => owner
      | some dest =>
        let (toTag, owner) := owner.uasToTagOf wire entry.1
        match wire.generateResponse entry.2.1 status reason toTag [] with
        | none => owner
        | some resp => owner.doSendResponse wire resp dest)
    owner

end Owner

end SipServer.Txn
