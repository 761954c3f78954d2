/-
Module: SipServer.Txn.Seed
Purpose: Transactions that change nodes: the seeds that rebuild them from a record
  (`sip-txn/src/layer/seed.rs`, `seed/non_invite.rs`), the datagram re-offered against them, and the
  relinquishing of a call's transactions (`relinquish.rs`).
Trusted boundary: translated from the source
-/
import SipServer.Txn.Client
import SipServer.Txn.Server

namespace SipServer.Txn

open SipServer.Retransmit

/-- One transaction to rebuild. A response a seed carries is of the kind its name says: the record holds it
    as it left. -/
inductive TxnSeed where
  | clientInvite (invite : SipRequest) (dest : SocketAddr) (provisional : Bool) (cancel : Option SipRequest)
      (ackAhead : Option (Bytes × SocketAddr))
  | clientRejected (invite : SipRequest) (dest : SocketAddr) (boundMs : ℕ)
  | serverInvite (request : SipRequest) (toTag : Option Tag)
      (provisional : Option { resp : SipResponse // resp.status < 200 }) (legId : Option String)
  | serverAccepted (response : { resp : SipResponse // resp.Is2xx }) (legId : Option String)
  | serverRejected (response : { resp : SipResponse // 300 ≤ resp.status }) (dest : SocketAddr)
      (legId : Option String)
      (boundMs : Option ℕ)
  | clientNonInvite (request : SipRequest) (dest : SocketAddr) (boundMs : ℕ)
  | serverNonInvite (request : SipRequest) (legId : Option String)
  | serverNonInviteAnswered (response : { resp : SipResponse // 200 ≤ resp.status }) (dest : SocketAddr)
      (boundMs : ℕ)
      (legId : Option String)

namespace Owner

/-- The record of a client transaction rebuilt from its request. -/
def clientHead (branch : Branch) (callRef : CallRef) (req : SipRequest) (dest : SocketAddr) (kind : TxnKind)
    (state : TxnState) : NewTransaction where
  id := .client branch
  kind := kind
  method := match kind with
    | .invite => .invite
    | .nonInvite => req.method
  cseq := req.cseq
  callId := req.callId
  fromTag := req.fromTag.getD ""
  originalRequest := match kind with
    | .invite => some req
    | .nonInvite => none
  callRef := req.topVia.callRef.or (some callRef)
  legId := req.topVia.legId
  incarnationMark := req.topVia.incarnationMark
  state := state
  destination := some dest

/-- The record of a server transaction rebuilt from its final. -/
def answeredHead (key : ServerTxnKey) (callRef : CallRef) (resp : SipResponse) (kind : TxnKind)
    (legId : Option String) (state : TxnState) (destination : Option SocketAddr) : NewTransaction where
  id := .server key
  kind := kind
  method := match kind with
    | .invite => .invite
    | .nonInvite => resp.cseqMethod
  cseq := resp.cseq
  callId := resp.callId
  fromTag := resp.fromTag.getD ""
  originalRequest := none
  callRef := some callRef
  legId := legId
  incarnationMark := none
  state := state
  destination := destination

/-! Client seeds -/

/-- Hold the CANCEL the record says was sent for a seeded client INVITE. -/
def seedHeldCancel (owner : Owner) (branch : Branch) (cancel : SipRequest) (dest : SocketAddr) : Owner :=
  match owner.clients.get branch with
  | none => owner
  | some _ =>
    let owner := owner.modifyClient branch ({ · with heldCancel := some ⟨cancel.image, dest, .held, none⟩ })
    { owner with cancelsHeld := owner.cancelsHeld + 1 }.releaseSeedResend branch

/-- A client INVITE awaiting its final. -/
def seedClientInvite (owner : Owner) (callRef : CallRef) (invite : SipRequest) (dest : SocketAddr)
    (provisional : Bool) (cancel : Option SipRequest) : Bool × Owner :=
  match invite.topVia.namedBranch with
  | none => (false, owner)
  | some branch =>
    if (owner.clients.get branch).isSome then (false, owner)
    else
      let (bound, owner) := owner.arm (.clientTimeout branch) owner.config.inviteInitialTimeoutMs
      let owner := owner.openTxnWith
        (clientHead branch callRef invite dest .invite (if provisional then .proceeding else .trying))
        ({ · with
          timeoutKind := .transaction
          timeoutKey := some bound
          seedResend := if provisional then none else some invite.image })
      let owner :=
        match cancel with
        | some cancel => owner.seedHeldCancel branch cancel dest
        | none => owner
      (true, owner.releaseSeedResend branch)

/-- A client INVITE Completed on a non-2xx final, held for what is left of its Timer D. -/
def seedClientRejected (owner : Owner) (callRef : CallRef) (invite : SipRequest) (dest : SocketAddr)
    (boundMs : ℕ) : Bool × Owner :=
  match invite.topVia.namedBranch with
  | none => (false, owner)
  | some branch =>
    if (owner.clients.get branch).isSome then (false, owner)
    else
      (true, (owner.openTxn (clientHead branch callRef invite dest .invite .completed)).holdFor
        (.client branch) .timerD
        boundMs)

/-- A client non-INVITE, its request sent once now and then on Timer E. -/
def seedClientNonInvite (owner : Owner) (callRef : CallRef) (request : SipRequest) (dest : SocketAddr)
    (boundMs : ℕ) : Bool × Owner :=
  match request.topVia.namedBranch with
  | none => (false, owner)
  | some branch =>
    if (owner.clients.get branch).isSome then (false, owner)
    else
      let (timerF, timeoutKind) := owner.clientTimeout .nonInvite request
      let serial := owner.opened
      let owner := owner.openTxn (clientHead branch callRef request dest .nonInvite .trying)
      let owner := owner.startClientRetransmit branch request.image dest (min boundMs timerF) timeoutKind
      (true, owner.say (.request serial request.image dest))

/-! Server seeds -/

variable (wire : Wire) (owner : Owner) (callRef : CallRef)

/-- A server INVITE holding its request, with the provisional the record holds cached and sent once. -/
def seedServerInvite (request : SipRequest) (toTag : Option Tag)
    (provisional : Option SipResponse) (legId : Option String) : Bool × Owner :=
  match ServerTxnKey.ofRequest request with
  | none => (false, owner)
  | some key =>
    if (owner.servers.get key).isSome then (false, owner)
    else
      let destination := wire.responseDestination request.topVia
      let serial := owner.opened
      let owner := owner.openTxnWith
        { id := .server key
          kind := .invite
          method := .invite
          cseq := request.cseq
          callId := request.callId
          fromTag := request.fromTag.getD ""
          originalRequest := some request
          callRef := some callRef
          legId
          incarnationMark := none
          state := .proceeding
          destination }
        ({ · with uasToTag := toTag.filter (· ≠ ""), seeded := true })
      match provisional with
      | none => (true, owner)
      | some provisional =>
        let owner := owner.modifyServer key
          ({ · with lastResponse := some provisional.image, lastResponseStatus := some provisional.status })
        (true, match destination with
          | some dest => owner.say (.response serial provisional.status provisional.image dest)
          | none => owner)

/-- What a server transaction keeps of the final a seed carries. -/
def takeFinal (owner : Owner) (key : ServerTxnKey) (resp : SipResponse) (state : TxnState) : Owner :=
  match owner.servers.get key with
  | none => owner
  | some txn =>
    (owner.say (.answered txn.serial resp.status resp.image)).modifyServer key
      ({ · with
        state
        lastResponse := some resp.image
        lastResponseStatus := some resp.status
        originalRequest := none })

/-- A server INVITE Accepted on a 2xx, held for Timer L from now. -/
def accept (owner : Owner) (key : ServerTxnKey) (resp : SipResponse) : Owner :=
  ((owner.recordUasTag key resp).takeFinal key resp .accepted).hold (.server key) .timerL

/-- A server INVITE Accepted on a 2xx; an occupant with no final takes it, and sends it unless it was
    seeded. -/
def seedAccepted (resp : SipResponse) (legId : Option String) : Bool × Owner :=
  match ServerTxnKey.ofResponse resp with
  | none => (false, owner)
  | some key =>
    match owner.servers.get key with
    | some occupant =>
      if occupant.state.isActive then
        let owner := owner.accept key resp
        (true, match occupant.destination.filter (fun _ => !occupant.seeded) with
          | some dest => owner.say (.response occupant.serial resp.status resp.image dest)
          | none => owner)
      else (false, owner)
    | none =>
      let owner := owner.openTxn
        (answeredHead key callRef resp .invite legId .accepted (wire.responseDestination resp.topVia))
      (true, owner.accept key resp)

/-- A server INVITE Completed on a non-2xx; an occupant with no final takes it and sends it. -/
def seedRejected (resp : SipResponse) (dest : SocketAddr)
    (legId : Option String) (boundMs : Option ℕ) : Bool × Owner :=
  match ServerTxnKey.ofResponse resp with
  | none => (false, owner)
  | some key =>
    let occupant := owner.servers.get key
    if occupant.any (fun occupant => !occupant.state.isActive) then (false, owner)
    else
      let owner :=
        match occupant with
        | some _ => owner
        | none => owner.openTxn (answeredHead key callRef resp .invite legId .completed
            (some ((wire.responseDestination resp.topVia).getD dest)))
      let owner := (owner.recordUasTag key resp).takeFinal key resp .completed
      let owner :=
        match occupant with
        | some occupant =>
          owner.modifyServer key ({ · with destination := some (occupant.destination.getD dest) })
        | none => owner
      let owner := owner.armFinalHold key .invite resp.status
      let owner :=
        match boundMs with
        | some left => owner.holdFor (.server key) .timerH left
        | none => owner
      (true, match occupant with
        | some occupant =>
          owner.say (.response occupant.serial resp.status resp.image (occupant.destination.getD dest))
        | none => owner)

/-- A server non-INVITE holding no response. -/
def seedServerNonInvite (request : SipRequest) (legId : Option String) : Bool × Owner :=
  match ServerTxnKey.ofRequest request with
  | none => (false, owner)
  | some key =>
    if (owner.servers.get key).isSome then (false, owner)
    else
      (true, owner.openTxn
        { id := .server key
          kind := .nonInvite
          method := request.method
          cseq := request.cseq
          callId := request.callId
          fromTag := request.fromTag.getD ""
          originalRequest := none
          callRef := some callRef
          legId
          incarnationMark := none
          state := .trying
          destination := wire.responseDestination request.topVia })

/-- A server non-INVITE Completed on a final, sent once now; an occupant with no final takes it. -/
def seedAnsweredNonInvite (resp : SipResponse) (dest : SocketAddr)
    (boundMs : ℕ) (legId : Option String) : Bool × Owner :=
  if resp.cseqMethod = .invite ∨ resp.cseqMethod = .ack ∨ resp.cseqMethod = .cancel then (false, owner)
  else
    match ServerTxnKey.ofResponse resp with
    | none => (false, owner)
    | some key =>
      let occupant := owner.servers.get key
      if occupant.any (fun occupant => !occupant.state.isActive) then (false, owner)
      else
        let target :=
          match occupant with
          | some occupant => occupant.destination.getD dest
          | none => (wire.responseDestination resp.topVia).getD dest
        let serial := (occupant.map (·.serial)).getD owner.opened
        let owner :=
          match occupant with
          | some _ => owner
          | none => owner.openTxn (answeredHead key callRef resp .nonInvite legId .completed (some target))
        let owner := (owner.takeFinal key resp .completed).holdFor (.server key) .timerJ boundMs
        (true, owner.say (.response serial resp.status resp.image target))

/-! A list of seeds, and what was re-offered -/

/-- One seed; true when it went in. -/
def seedOne : TxnSeed → Bool × Owner
  | .clientInvite invite dest provisional cancel ackAhead =>
    let (wentIn, owner) := owner.seedClientInvite callRef invite dest provisional cancel
    (wentIn, match ackAhead with
      | some ack => if wentIn && !provisional then owner.say (.raw ack.1 ack.2) else owner
      | none => owner)
  | .clientRejected invite dest boundMs => owner.seedClientRejected callRef invite dest boundMs
  | .serverInvite request toTag provisional legId =>
    owner.seedServerInvite wire callRef request toTag (provisional.map (·.1)) legId
  | .serverAccepted response legId => owner.seedAccepted wire callRef response.1 legId
  | .serverRejected response dest legId boundMs =>
    owner.seedRejected wire callRef response.1 dest legId boundMs
  | .clientNonInvite request dest boundMs => owner.seedClientNonInvite callRef request dest boundMs
  | .serverNonInvite request legId => owner.seedServerNonInvite wire callRef request legId
  | .serverNonInviteAnswered response dest boundMs legId =>
    owner.seedAnsweredNonInvite wire callRef response.1 dest boundMs legId

/-- Put every seed in the map of its role; how many went in. -/
def doSeed (wire : Wire) (owner : Owner) (callRef : CallRef) : List TxnSeed → ℕ × Owner
  | [] => (0, owner)
  | seed :: seeds =>
    let (wentIn, owner) := owner.seedOne wire callRef seed
    let (seeded, owner) := doSeed wire owner callRef seeds
    (seeded + wentIn.toNat, owner)

/-- Process a datagram the consumer holds against the maps as they stand; true when a transaction took it. -/
def doReoffer (wire : Wire) (owner : Owner) (message : SipMessage) (src : SocketAddr) : Bool × Owner :=
  match message with
  | .response resp => owner.inboundResponse wire resp src true
  | .request req =>
    match req.method with
    | .cancel => owner.handleCancel wire req src none
    | _ => ((ServerTxnKey.ofRequest req).any (fun key => (owner.servers.get key).isSome), owner)

/-! Relinquishing -/

/-- Delete every transaction of a call, sending only what is held for a message already taken. -/
def relinquishCall (owner : Owner) (callRef : CallRef) : Owner :=
  let owner := { owner with selfReleaseWatch := owner.selfReleaseWatch.erase callRef }
  let txns := (owner.txnIndex.get callRef).getD .new
  let owner := txns.everyClient.foldl (fun owner branch => (owner.sendHeldAck branch).2) owner
  let owner := txns.server.foldl waiveHeldFinal owner
  let owner := txns.everyClient.foldl (fun owner branch => (owner.deleteTxn (.client branch)).2) owner
  txns.server.foldl (fun owner key => (owner.deleteTxn (.server key)).2) owner

/-- Delete the Accepted client transactions of a call. -/
def relinquishAcceptedOfCall (owner : Owner) (callRef : CallRef) : Owner :=
  (((owner.txnIndex.get callRef).map (·.accepted)).getD []).foldl
    (fun owner branch => (owner.deleteTxn (.client branch)).2) owner

/-- Delete one server transaction, owing only the 200 to a CANCEL it holds. -/
def relinquishServer (owner : Owner) (key : ServerTxnKey) : Owner :=
  ((owner.waiveHeldFinal key).deleteTxn (.server key)).2

/-- Delete one client transaction, owing only the ACK it holds. -/
def relinquishClient (owner : Owner) (branch : Branch) : Owner :=
  ((owner.sendHeldAck branch).2.deleteTxn (.client branch)).2

end Owner

end SipServer.Txn
