/-
Module: SipServer.Txn.Client
Purpose: The client transactions (RFC 3261 §17.1): the send of a request or a CANCEL, the retransmit ladders,
  the give-up (`sip-txn/src/layer/client.rs`, `client_give_up.rs`), the held ACK of a non-2xx
  (`held_ack.rs`), the Accepted hold (`accepted.rs`) and the transactions a released call leaves behind
  (`orphan.rs`).
Trusted boundary: translated from the source
-/
import SipServer.Txn.Owner

namespace SipServer.Txn

open SipServer.Retransmit

/-!
The rendering of a request is its image. The handle a send returns, the counters and the logged refusals to
build a message are left out.
-/

namespace Owner

/-! The CANCEL parked on its INVITE -/

variable (owner : Owner) (branch : Branch)

/-- Re-send, once, the INVITE of a transaction seeded `Trying`. -/
def releaseSeedResend : Owner :=
  match owner.clients.get branch with
  | none => owner
  | some txn =>
    if txn.lifetime.gaveUp then owner
    else
      match txn.seedResend with
      | none => owner
      | some buf =>
        let owner := owner.modifyClient branch ({ · with seedResend := none })
        let (key, owner) := owner.arm (.clientRetransmit branch) 0
        owner.modifyClient branch ({ · with retransmitBuf := some buf, retransmitKey := some key })

/-- Arm the Timer E ladder of the CANCEL on the wire, unless one runs. -/
def armCancelRetransmit : Owner :=
  match owner.clients.get branch with
  | none => owner
  | some txn =>
    match txn.cancelRetransmitKey, txn.heldCancel, Ladder.armed (Schedule.rfc .cancelClient) with
    | none, some held, some (ladder, first) =>
      let (key, owner) := owner.arm (.cancelRetransmit branch) first
      owner.modifyClient branch
        ({ · with heldCancel := some { held with ladder := some ladder }, cancelRetransmitKey := some key })
    | _, _, _ => owner

/-- Put a held CANCEL on the wire as its INVITE takes a provisional. -/
def flushCancelOnProvisional : Owner :=
  match owner.clients.get branch with
  | none => owner
  | some txn =>
    match txn.heldCancel with
    | none => owner
    | some held =>
      match held.wire with
      | .sent => owner
      | .held =>
        let owner := owner.modifyClient branch ({ · with heldCancel := some { held with wire := .sent } })
        let owner := if txn.lifetime.gaveUp then owner.hold (.client branch) .gaveUp else owner
        let owner := owner.say (.cancel txn.serial held.buf held.dest)
        { owner with heldCancelsFlushed := owner.heldCancelsFlushed + 1 }.armCancelRetransmit branch

/-- The Timer E tick of the CANCEL on the wire. -/
def fireCancelRetransmit : Owner :=
  match owner.clients.get branch with
  | none => owner
  | some txn =>
    if txn.state.isActive then
      match txn.heldCancel with
      | none => owner
      | some held =>
        match held.wire with
        | .held => owner
        | .sent =>
          let rearm := held.ladder.map Ladder.advance
          let owner := owner.modifyClient branch
            ({ · with heldCancel := some { held with ladder := rearm.map Prod.snd } })
          let owner := owner.say (.cancel txn.serial held.buf held.dest)
          match rearm.bind Prod.fst with
          | none => owner
          | some interval =>
            let (key, owner) := owner.arm (.cancelRetransmit branch) interval
            owner.modifyClient branch ({ · with cancelRetransmitKey := some key })
    else owner

inductive CancelGate where
  | hold
  | suppress
  | send
deriving Repr, DecidableEq

/-- What becomes of a CANCEL the TU hands over. -/
def cancelGate (owner : Owner) (msg : SipRequest) : CancelGate :=
  match msg.topVia.branch.bind owner.clients.get with
  | none => .suppress
  | some txn =>
    if txn.kind = .invite ∧ txn.state.isActive then
      match txn.state with
      | .trying => .hold
      | _ => .send
    else .suppress

/-- Hold a CANCEL until the first provisional; a newer one takes a held one's place. -/
def holdCancel (buf : Bytes) (dest : SocketAddr) : Owner :=
  match owner.clients.get branch with
  | none => owner
  | some txn =>
    let owner := owner.say (.cancelHanded txn.serial)
    let owner := owner.modifyClient branch ({ · with heldCancel := some ⟨buf, dest, .held, none⟩ })
    let owner : Owner :=
      if txn.heldCancel.isSome then { owner with heldCancelsDropped := owner.heldCancelsDropped + 1 }
      else owner
    { owner with cancelsHeld := owner.cancelsHeld + 1 }.releaseSeedResend branch

/-- Send a CANCEL on a client INVITE that took a provisional, parked there for its ladder. -/
def sendCancel (buf : Bytes) (dest : SocketAddr) : Owner :=
  match owner.clients.get branch with
  | none => owner
  | some txn =>
    let firstOnGivenUp := txn.lifetime.gaveUp && txn.heldCancel.all (·.wire = .held)
    let parked : HeldCancel :=
      match txn.heldCancel with
      | some held => { held with buf, dest }
      | none => ⟨buf, dest, .sent, none⟩
    let owner := owner.say (.cancelHanded txn.serial)
    let owner := owner.modifyClient branch ({ · with heldCancel := some parked })
    let owner := (owner.say (.cancel txn.serial buf dest)).armCancelRetransmit branch
    if firstOnGivenUp then owner.hold (.client branch) .gaveUp else owner

/-! The send of a request -/

/-- The give-up of a client transaction and what its expiry reports. -/
def clientTimeout (owner : Owner) (kind : TxnKind) (req : SipRequest) : ℕ × TxnTimeoutKind :=
  match kind with
  | .invite =>
    (if req.toTag.isNone then min timerB owner.config.inviteInitialTimeoutMs else timerB, .response)
  | .nonInvite => (timerF, .response)

def startClientRetransmit (buf : Bytes) (dest : SocketAddr) (maxMs : ℕ)
    (timeoutKind : TxnTimeoutKind) : Owner :=
  match owner.clients.get branch with
  | none => owner
  | some txn =>
    let cls : Retransmit.Class := match txn.kind with
      | .invite => .inviteClient
      | .nonInvite => .nonInviteClient
    match Ladder.armed ((Schedule.rfc cls).withGiveUp (min maxMs timerB)) with
    | none => owner
    | some (ladder, first) =>
      let (retransmit, owner) := owner.arm (.clientRetransmit branch) first
      let (timeout, owner) := owner.arm (.clientTimeout branch) maxMs
      owner.modifyClient branch
        ({ · with
          retransmitKey := some retransmit
          timeoutKey := some timeout
          retransmitBuf := some buf
          ladder := some ladder
          timeoutKind
          destination := some dest })

/-- Raise the CSeq of the dialog a request names on every client INVITE of its call it shares its dialog
    with; a BYE ends the dialog. -/
def noteDialogCseq (owner : Owner) (callRef : Option CallRef) (req : SipRequest) : Owner :=
  match req.toTag, callRef.bind owner.txnIndex.get with
  | some toTag, some txns =>
    txns.everyClient.foldl
      (fun owner branch => owner.modifyClient branch (fun txn =>
        if txn.kind = .invite ∧ txn.callId = req.callId ∧ txn.fromTag = req.fromTag.getD "" then
          txn.updateDialog (some toTag) (fun dialog =>
            { dialog with cseq := max dialog.cseq req.cseq, byed := dialog.byed || req.method = .bye })
        else txn))
      owner
  | _, _ => owner

/-- Record the ACK the TU sent on the dialog of the Accepted client INVITE it acknowledges. -/
def noteTuAck (owner : Owner) (ack : SipRequest) (dest : SocketAddr) : Owner :=
  match ack.topVia.callRef.bind owner.txnIndex.get with
  | none => owner
  | some txns =>
    let acknowledged (branch : Branch) : Bool := (owner.clients.get branch).any (fun txn =>
      txn.state = .accepted && txn.callId = ack.callId && txn.fromTag = ack.fromTag.getD "" &&
        txn.cseq = ack.cseq)
    match txns.accepted.find? acknowledged with
    | none => owner
    | some branch => owner.modifyClient branch (fun txn =>
      txn.updateDialog ack.toTag ({ · with ack := some (ack.image, dest) }))

/-- Open the client transaction of a request that leaves. -/
def openClient (msg : SipRequest) (dest : SocketAddr) (kind : TxnKind) : Owner :=
  let owner := owner.noteDialogCseq msg.topVia.callRef msg
  let owner := owner.say (.request owner.opened msg.image dest)
  let owner := owner.openTxn
    { id := .client branch
      kind
      method := msg.method
      cseq := msg.cseq
      callId := msg.callId
      fromTag := msg.fromTag.getD ""
      originalRequest := if kind = .invite then some msg else none
      callRef := msg.topVia.callRef
      legId := msg.topVia.legId
      incarnationMark := msg.topVia.incarnationMark
      state := .trying
      destination := some dest }
  let (maxMs, timeoutKind) := owner.clientTimeout kind msg
  let owner := owner.startClientRetransmit branch msg.image dest maxMs timeoutKind
  if kind = .invite ∧ msg.toTag = none ∧ owner.config.inviteFirstResponseTimeoutMs ≤ maxMs then
    (owner.arm (.firstResponse branch) owner.config.inviteFirstResponseTimeoutMs).2
  else owner

/-- Send a request: a CANCEL through its INVITE's gate, an ACK raw, any other on a client transaction of its
    own. -/
def doSendRequest (wire : Wire) (owner : Owner) (msg : SipRequest) (dest : SocketAddr) (kind : TxnKind) :
    Owner :=
  match msg.method with
  | .cancel =>
    match owner.cancelGate msg with
    | .hold => owner.holdCancel (msg.topVia.branch.getD "") msg.image dest
    | .suppress => owner
    | .send => owner.sendCancel (msg.topVia.branch.getD "") msg.image dest
  | .ack => (owner.say (.raw msg.image dest)).noteTuAck msg dest
  | _ =>
    match msg.topVia.namedBranch with
    | some branch => owner.openClient branch msg dest kind
    | none => { owner with ids := owner.ids + 1 }.openClient (wire.newBranch owner.ids) msg dest kind

/-! Timers of a client transaction -/

/-- Timer A or E: re-send the request while no final came. -/
def fireRetransmit : Owner :=
  match owner.clients.get branch with
  | none => owner
  | some txn =>
    match txn.state.isActive, txn.retransmitBuf, txn.destination with
    | true, some buf, some dest =>
      let owner := owner.say (.request txn.serial buf dest)
      match txn.ladder with
      | none => owner
      | some ladder =>
        let ladder :=
          if txn.kind = .nonInvite ∧ txn.state = .proceeding then ladder.retarget .nonInviteProceeding
          else ladder
        let (rearm, ladder) := ladder.advance
        let owner := owner.modifyClient branch ({ · with ladder := some ladder })
        match rearm with
        | none => owner
        | some interval =>
          let (key, owner) := owner.arm (.clientRetransmit branch) interval
          owner.modifyClient branch ({ · with retransmitKey := some key })
    | _, _, _ => owner

/-- The `Timeout` an active client transaction reports; none once it took a final or gave up. -/
def timeoutEvent : Option TransactionEvent :=
  match owner.clients.get branch with
  | none => none
  | some txn =>
    if txn.state.isActive ∧ ¬ txn.lifetime.gaveUp then
      some (.timeout branch txn.callRef txn.legId txn.incarnationMark txn.method txn.cseq txn.destination
        txn.timeoutKind)
    else none

/-- End a client transaction on its give-up: a non-INVITE is deleted, an INVITE stops retransmitting and is
    held. -/
def giveUp : Owner :=
  match owner.clients.get branch with
  | none => owner
  | some txn =>
    match txn.kind with
    | .invite =>
      let owner := owner.modifyClient branch ({ · with ladder := none, retransmitKey := none })
      (owner.cancelTimer txn.retransmitKey).hold (.client branch) .gaveUp
    | .nonInvite => (owner.deleteTxn (.client branch)).2

/-- Timer B or F, or the INVITE bound. -/
def fireTimeout : Owner :=
  match owner.timeoutEvent branch, owner.clients.get branch with
  | some event, some txn =>
    let owner := owner.giveUp branch
    if txn.deadHopReported then owner else owner.emitCritical (some txn.serial) event
  | _, _ => owner

/-- The TU's first-response deadline on an initial INVITE. -/
def fireFirstResponse : Owner :=
  match owner.clients.get branch with
  | none => owner
  | some txn =>
    if txn.kind = .invite ∧ txn.state.isActive ∧ ¬ txn.lifetime.gaveUp ∧ ¬ txn.deadHopReported then
      if txn.state = .proceeding then
        match txn.pastTrying, txn.callRef, txn.legId with
        | false, some callRef, some legId =>
          (owner.emit (some txn.serial) (.hopAlive branch callRef legId txn.incarnationMark)).2
        | _, _, _ => owner
      else
        match owner.timeoutEvent branch with
        | none => owner
        | some event =>
          (owner.modifyClient branch ({ · with deadHopReported := true })).emitCritical
            (some txn.serial) event
    else owner

/-- Re-arm a client INVITE's give-up to the INVITE bound at its first provisional, measured from its send. -/
def rearmInviteBound : Owner :=
  match owner.clients.get branch with
  | none => owner
  | some txn =>
    if txn.kind = .invite ∧ txn.timeoutKind = .response ∧ ¬ txn.lifetime.gaveUp ∧ ¬ txn.deadHopReported then
      let remaining := max (owner.config.inviteInitialTimeoutMs - (owner.now - txn.createdAt)) 1
      let owner := (owner.modifyClient branch ({ · with timeoutKey := none })).cancelTimer txn.timeoutKey
      let (key, owner) := owner.arm (.clientTimeout branch) remaining
      owner.modifyClient branch ({ · with timeoutKey := some key, timeoutKind := .transaction })
    else owner

/-! The hop ACK of a non-2xx final -/

/-- Send the ACK now under a bound of zero, else hold it and arm its bound. -/
def ackFirstNon2xx (ack : Bytes × SocketAddr) : Owner :=
  match owner.clients.get branch with
  | none => owner.say (.raw ack.1 ack.2)
  | some txn =>
    if 0 < owner.config.ackBoundMs then
      let owner := owner.modifyClient branch ({ · with unsentAck := some ack })
      (owner.armAt (.ackBound branch txn.createdAt) (deadlineAfter owner.now owner.config.ackBoundMs)).2
    else owner.say (.ack txn.serial ack.1 ack.2)

/-- Send the ACK a transaction holds; true when it left. -/
def sendHeldAck : Bool × Owner :=
  match owner.clients.get branch with
  | none => (false, owner)
  | some txn =>
    match txn.unsentAck with
    | none => (false, owner)
    | some ack =>
      (true, (owner.modifyClient branch ({ · with unsentAck := none })).say (.ack txn.serial ack.1 ack.2))

/-- The bound of the transaction opened at an instant passed. -/
def fireAckBound (opened : ℕ) : Owner :=
  if (owner.clients.get branch).any (·.createdAt = opened) then (owner.sendHeldAck branch).2 else owner

/-- Stop what a client INVITE runs as it takes its final; a CANCEL still parked on it is moot. -/
def stopOnFinal (state : TxnState) : Owner :=
  match owner.clients.get branch with
  | none => owner
  | some txn =>
    let owner := owner.modifyClient branch
      ({ · with
        state
        heldCancel := none
        retransmitKey := none
        timeoutKey := none
        cancelRetransmitKey := none })
    (((owner.countDroppedCancel txn).cancelTimer txn.retransmitKey).cancelTimer txn.timeoutKey).cancelTimer
      txn.cancelRetransmitKey

/-- Move a client INVITE to Completed on its first non-2xx final. -/
def completeNon2xx : Owner :=
  (owner.stopOnFinal branch .completed).hold (.client branch) .timerD

/-- The ACK a non-2xx final draws, with its destination, when it can be built. -/
def non2xxAck (wire : Wire) (txn : Transaction) (resp : SipResponse) : Option (Bytes × SocketAddr) :=
  match txn.originalRequest, txn.destination with
  | some invite, some dest => (wire.generateAckForNon2xx invite resp).map (fun ack => (ack, dest))
  | _, _ => none

/-- A non-2xx final on a client INVITE. -/
def takeNon2xxFinal (wire : Wire) (owner : Owner) (branch : Branch) (txn : Transaction) (resp : SipResponse)
    (src : SocketAddr) : Owner :=
  let ack := non2xxAck wire txn resp
  if txn.state = .completed then
    match ack with
    | some ack => if txn.unsentAck.isSome then owner else owner.say (.ack txn.serial ack.1 ack.2)
    | none => owner
  else
    let owner := owner.say (.rejected txn.serial ack)
    if txn.orphaned then
      let owner :=
        match ack with
        | some ack => owner.say (.ack txn.serial ack.1 ack.2)
        | none => owner
      owner.completeNon2xx branch
    else
      let owner :=
        match ack with
        | some ack => owner.ackFirstNon2xx branch ack
        | none => owner
      (owner.completeNon2xx branch).emitCritical (some txn.serial) (.response resp src true)

/-! Accepted, and orphaned -/

/-- Move a client INVITE to Accepted on its first 2xx. -/
def accept2xx (resp : SipResponse) : Owner :=
  match owner.clients.get branch with
  | none => owner
  | some txn =>
    let owner := (owner.say (.accepted txn.serial)).stopOnFinal branch .accepted
    let owner := owner.modifyClient branch (fun txn =>
      { txn with
        originalRequest := none
        retransmitBuf := (txn.originalRequest.map SipRequest.image).or txn.retransmitBuf
        seedResend := none
        ladder := none }.noteDialog resp.toTag)
    (owner.hold (.client branch) .timerM).settleAccepted branch

/-- Note the To-tag of a reliable provisional that carries the offer its INVITE did not. -/
def noteReliableOffer (resp : SipResponse) : Owner :=
  match resp.toTag with
  | none => owner
  | some tag =>
    if resp.sdp ∧ resp.rseq then
      owner.modifyClient branch (fun txn =>
        if txn.originalRequest.any (fun invite => !invite.sdp) ∧ txn.reliableOffers.length < maxDialogs ∧
            tag ∉ txn.reliableOffers then
          { txn with reliableOffers := txn.reliableOffers ++ [tag] }
        else txn)
    else owner

/-- The answer the ACK of a 2xx owes. -/
def owedAnswer (wire : Wire) (invite : SipRequest) (resp : SipResponse) (reliableOffers : List Tag) :
    Option Bytes :=
  if invite.sdp ∨ resp.toTag.any (· ∈ reliableOffers) then none
  else if resp.sdp then wire.rejectOffer invite resp
  else none

/-- The ACK of a 2xx built from the INVITE, on a fresh branch, with its next hop. -/
def orphanAck (wire : Wire) (owner : Owner) (txn : Transaction) (invite : SipRequest) (resp : SipResponse) :
    Option (Bytes × SocketAddr) :=
  match wire.generateAckFor2xxFromInvite invite resp (wire.newBranch owner.ids)
      (owedAnswer wire invite resp txn.reliableOffers) with
  | none => none
  | some ack => (wire.nextHop ack).map (fun dest => (ack.image, dest))

/-- The BYE that ends the dialog a 2xx to an orphaned initial INVITE created, with its next hop. -/
def orphanBye (wire : Wire) (owner : Owner) (txn : Transaction) (invite : SipRequest) (resp : SipResponse) :
    Option (SipRequest × SocketAddr) :=
  match invite.toTag with
  | some _ => none
  | none =>
    let sent := ((txn.dialog resp.toTag).map (·.cseq)).getD 0
    match wire.generateByeFor2xxFromInvite invite resp (max invite.cseq sent + 1)
      (wire.newBranch owner.ids) with
    | none => none
    | some bye => (wire.nextHop bye).map (fun dest => (bye, dest))

/-- Orphan a client transaction and take it off its call's books. -/
def orphan : Owner :=
  match owner.clients.get branch with
  | none => owner
  | some txn =>
    ((owner.say (.released txn.serial)).modifyClient branch ({ · with orphaned := true })).detachFromCall
      (.client branch)

/-- End with a BYE the dialog a 2xx to an orphaned initial INVITE created, on an orphaned transaction of its
    own. -/
def byeUnheldDialog (wire : Wire) (owner : Owner) (branch : Branch) (invite : SipRequest)
    (resp : SipResponse) : Owner :=
  match owner.clients.get branch with
  | none => owner
  | some txn =>
    let bye := orphanBye wire owner txn invite resp
    let owner := if invite.toTag.isNone then { owner with ids := owner.ids + 1 } else owner
    match bye with
    | none => owner
    | some (bye, dest) =>
      (doSendRequest wire owner bye dest .nonInvite).orphan (bye.topVia.branch.getD "")

/-- A 2xx on an orphaned Accepted client INVITE: its dialog's ACK, and its BYE when no ACK had left for
    it. -/
def release2xx (wire : Wire) (owner : Owner) (branch : Branch) (resp : SipResponse) : Owner :=
  match owner.clients.get branch with
  | none => owner
  | some _ =>
    let owner := owner.modifyClient branch (·.noteDialog resp.toTag)
    match owner.clients.get branch with
    | none => owner
    | some txn =>
      let known := txn.dialog resp.toTag
      match known.bind (·.ack), txn.retransmitBuf.bind wire.parse with
      | some (ack, dest), _ => owner.say (.raw ack dest)
      | none, none => owner
      | none, some invite =>
        let built := orphanAck wire owner txn invite resp
        let owner := { owner with ids := owner.ids + 1 }
        match built with
        | none => owner
        | some (ack, dest) =>
          let owner := owner.say (.raw ack dest)
          match known with
          | none => owner
          | some dialog =>
            let owner := owner.modifyClient branch
              (·.updateDialog resp.toTag ({ · with ack := some (ack, dest) }))
            if dialog.byed then owner else byeUnheldDialog wire owner branch invite resp

/-- Release every client transaction of a call: each is orphaned and runs out its own timers. -/
def doCancelTxnsForCall (owner : Owner) (callRef : CallRef) : Owner :=
  match owner.txnIndex.get callRef with
  | none => owner
  | some txns => txns.everyClient.foldl orphan owner

/-! An inbound response -/

/-- What a client transaction does on any provisional: Proceeding, and an INVITE stops retransmitting. -/
def proceed (txn : Transaction) : Owner :=
  let owner := owner.say (.provisional txn.serial)
  match txn.kind with
  | .invite =>
    (owner.modifyClient branch ({ · with state := .proceeding, retransmitKey := none })).cancelTimer
      txn.retransmitKey
  | .nonInvite => owner.modifyClient branch ({ · with state := .proceeding })

/-- A 100: absorbed after nudging the transaction's state. -/
def inboundTrying (resp : SipResponse) : Bool × Owner :=
  match owner.clients.get branch with
  | none => (false, owner)
  | some txn =>
    if branch ≠ "" ∧ txn.method = resp.cseqMethod ∧ txn.state.isActive then
      (true, ((owner.proceed branch txn).rearmInviteBound branch).flushCancelOnProvisional branch)
    else (false, owner)

/-- A response to a CANCEL ends the CANCEL on the wire. -/
def cancelAnswered : Owner :=
  match owner.clients.get branch with
  | none => owner
  | some txn =>
    if txn.kind = .invite ∧ txn.heldCancel.any (·.wire = .sent) then
      ((owner.say (.cancelAnswered txn.serial)).modifyClient branch
        ({ · with heldCancel := none, cancelRetransmitKey := none })).cancelTimer txn.cancelRetransmitKey
    else owner

/-- The client transaction a response matches: a 2xx on an Accepted one its call holds goes to the TU. -/
def clientMatch (resp : SipResponse) : Option Transaction :=
  (owner.clients.get branch).filter (fun txn =>
    txn.method = resp.cseqMethod && (txn.state ≠ .accepted || txn.orphaned || !decide resp.Is2xx))

/-- A provisional above 100 on a client transaction. -/
def inboundProvisional (txn : Transaction) (resp : SipResponse) : Owner :=
  if txn.state.isActive then
    let owner := (owner.proceed branch txn).modifyClient branch ({ · with pastTrying := true })
    let owner := if txn.kind = .invite then owner.noteReliableOffer branch resp else owner
    (owner.rearmInviteBound branch).flushCancelOnProvisional branch
  else owner

/-- A response on the client transaction it matches. -/
def matchedResponse (wire : Wire) (owner : Owner) (branch : Branch) (txn : Transaction) (resp : SipResponse)
    (src : SocketAddr) (reoffer : Bool) : Owner :=
  if txn.state = .accepted then
    if resp.Is2xx then release2xx wire owner branch resp else owner
  else if resp.status < 200 then
    let owner := owner.inboundProvisional branch txn resp
    if !txn.orphaned || !reoffer then (owner.emit (some txn.serial) (.response resp src true)).2 else owner
  else
    match txn.kind with
    | .invite =>
      if 300 ≤ resp.status then takeNon2xxFinal wire owner branch txn resp src
      else if txn.orphaned then release2xx wire (owner.accept2xx branch resp) branch resp
      else (owner.accept2xx branch resp).emitCritical (some txn.serial) (.response resp src true)
    | .nonInvite =>
      let owner := (owner.deleteTxn (.client branch)).2
      if txn.orphaned then owner else owner.emitCritical (some txn.serial) (.response resp src true)

/-- A response received, or handed back by the consumer: whether a client transaction took it. -/
def inboundResponse (wire : Wire) (owner : Owner) (resp : SipResponse) (src : SocketAddr) (reoffer : Bool) :
    Bool × Owner :=
  let branch := resp.topVia.branch.getD ""
  let handUp (owner : Owner) : Owner := if reoffer then owner
    else (owner.emit none (.response resp src false)).2
  if resp.status = 100 then owner.inboundTrying branch resp
  else if branch = "" then (false, handUp owner)
  else if resp.cseqMethod = .cancel then (false, handUp (owner.cancelAnswered branch))
  else
    match owner.clientMatch branch resp with
    | none => (false, handUp owner)
    | some txn => (true, matchedResponse wire owner branch txn resp src reoffer)

end Owner

end SipServer.Txn
