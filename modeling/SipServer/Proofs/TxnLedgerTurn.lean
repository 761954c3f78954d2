/-
Module: SipServer.Proofs.TxnLedgerTurn
Purpose: Seeds, relinquishing and whole turns of the owner keep to the ledger and to the wheel, and so does
  every run of the layer.
-/
import SipServer.Proofs.TxnLedgerClient
import SipServer.Proofs.TxnLedgerServer

namespace SipServer.Txn

open SipServer.Lib

namespace Owner

variable {leave : ClientStanding → Prop} {mayExpire : Prop} {owner : Owner} {branch : Branch}
    {key : ServerTxnKey} {txn : Transaction}

variable {resp : SipResponse} {after : Owner} {wire : Wire}

variable {callRef : CallRef} {legId : Option String} {dest : SocketAddr} {request : SipRequest} {state : TxnState}
  {boundMs : ℕ} {standing : ClientStanding} {id : TxnId} {sent : List Note}

/-! ### Client seeds -/

theorem mayLeave_of_absent (absent : owner.clients.get branch = none) : owner.MayLeave leave branch := by
  intro standing stands
  simp [ledger, absent] at stands

theorem seedHeldCancel_goes {cancel : SipRequest} :
    Goes leave mayExpire owner (owner.seedHeldCancel branch cancel dest) := by
  unfold seedHeldCancel
  split
  · exact .refl owner
  rename_i txn found
  have stands := ledger_client found
  have parked : Winds mayExpire owner (owner.modifyClient branch
      ({ · with heldCancel := some ⟨cancel.image, dest, .held, none⟩ })) := modifyClient_winds owner fun _ => rfl
  refine ⟨.client stands (.seedsCancel cancel.image dest) ?_, Winds.trans ?_ (releaseSeedResend_winds _)⟩
  · rw [ledger_releaseSeedResend, ledger_cancelsHeld, ledger_parkCancel stands, Ledger.say_nil]
  · exact parked

theorem seedClientInvite_goes {invite : SipRequest} {provisional : Bool} {cancel : Option SipRequest} :
    Goes leave mayExpire owner (owner.seedClientInvite callRef invite dest provisional cancel).2 := by
  unfold seedClientInvite
  split
  · exact .refl owner
  rename_i branch _
  split
  · exact .refl owner
  rename_i absent
  have free : owner.clients.get branch = none := by simpa using absent
  dsimp only
  generalize isOpened : openTxnWith _ _ _ = opened
  have opens : Goes leave mayExpire owner opened := by
    rw [← isOpened]
    refine ⟨(Moves.of_ledger (ledger_arm owner)).trans
      (openClientTxn_moves rfl (fun _ => rfl) ?_ (mayLeave_of_absent free)), openSeeded_winds free rfl ?_ ?_⟩
    · refine ⟨rfl, ?_, rfl, rfl, rfl, rfl, rfl, rfl⟩
      split <;> rintro ⟨⟩
    · exact fun _ => rfl
    · exact fun _ => rfl
  split
  · exact (opens.trans seedHeldCancel_goes).trans releaseSeedResend_goes
  · exact opens.trans releaseSeedResend_goes

/-- A hold for any other reason leaves a transaction that has not given up as it stands. -/
theorem ledger_holdFor_running (stands : owner.ledger.clients branch = some standing)
    (running : standing.gaveUp = false) {why : Hold} (other : why ≠ .gaveUp) {left : ℕ} :
    (owner.holdFor (.client branch) why left).ledger = owner.ledger := by
  obtain ⟨txn, found, rfl⟩ := Option.map_eq_some_iff.1 stands
  rw [ledger_holdFor_client, found, Option.map_some, decide_eq_false other, ← running]
  exact Ledger.setClient_self stands

theorem seedClientRejected_goes {invite : SipRequest} :
    Goes leave mayExpire owner (owner.seedClientRejected callRef invite dest boundMs).2 := by
  unfold seedClientRejected
  split
  · exact .refl owner
  rename_i branch _
  split
  · exact .refl owner
  rename_i absent
  generalize isHead : clientHead branch callRef invite dest .invite .completed = head
  have named : head.id = .client branch := by rw [← isHead]; rfl
  have opens : Goes leave mayExpire owner (owner.openTxn head) := by
    refine ⟨openClientTxn_moves named (fun _ => rfl) ⟨rfl, ?_, rfl, rfl, rfl, rfl, rfl, rfl⟩
      (mayLeave_of_absent (by simpa using absent)), openTxn_winds owner named⟩
    rw [← isHead]
    rintro ⟨⟩
  have stands : (owner.openTxn head).ledger.clients branch = some (owner.freshTxn head).clientStanding := by
    rw [ledger_openTxn_client owner named]
    exact Ledger.clients_setClient ..
  have other : Hold.timerD ≠ .gaveUp := by simp
  refine opens.trans ⟨.of_ledger (ledger_holdFor_running stands rfl other),
    .step (.holds (.client branch) .timerD boundMs ?_) (wheel_holdFor _ _ _ _)⟩
  intro _ hands _ stands owes
  -- just opened, it owes nothing
  rw [wheel_openTxn owner named, Wheel.txns_enter] at stands
  cases stands
  cases owes

theorem seedClientNonInvite_goes :
    Goes leave mayExpire owner (owner.seedClientNonInvite callRef request dest boundMs).2 := by
  unfold seedClientNonInvite
  split
  · exact .refl owner
  rename_i branch _
  split
  · exact .refl owner
  rename_i absent
  have opens : Goes leave mayExpire owner
    (owner.openTxn (clientHead branch callRef request dest .nonInvite .trying)) :=
    ⟨openClientTxn_moves rfl (fun _ => rfl) ⟨rfl, by rintro ⟨⟩, rfl, rfl, rfl, rfl, rfl, rfl⟩
      (mayLeave_of_absent (by simpa using absent)), openTxn_winds owner rfl⟩
  exact (opens.trans startClientRetransmit_goes).trans (.remarks trivial)

/-! ### Server seeds -/

theorem seedServerInvite_goes {toTag : Option Tag}
    {provisional : Option SipResponse} (below : ∀ resp ∈ provisional, resp.status < 200) :
    Goes leave mayExpire owner (owner.seedServerInvite wire callRef request toTag provisional legId).2 := by
  unfold seedServerInvite
  split
  · exact .refl owner
  rename_i key _
  split
  · exact .refl owner
  dsimp only
  generalize isOpened : openTxnWith _ _ _ = opened
  have opens : Goes leave mayExpire owner opened := by
    rw [← isOpened]
    refine ⟨openServerTxn_moves rfl (fun _ => rfl) (.active rfl),
      .step (.enters rfl (deadlineAfter_le _ _) ?_) (wheel_openTxnWith owner rfl (fun _ => rfl))⟩
    intro slot stored isStored
    cases slot <;> cases isStored
  have stands : opened.ledger.servers key = some ⟨owner.opened, .invite, .proceeding, none, none⟩ := by
    rw [← isOpened]
    exact servers_openTxnWith owner rfl fun _ => rfl
  cases provisional with
  | none => exact opens
  | some resp =>
    have cached : (opened.modifyServer key
        ({ · with lastResponse := some resp.image, lastResponseStatus := some resp.status })).ledger =
        opened.ledger.setServer key
          (some ⟨owner.opened, .invite, .proceeding, some (resp.image, resp.status), none⟩) :=
      ledger_modifyServer_of stands (fun standing =>
        { standing with cached := some (resp.image, resp.status) }) (fun _ => rfl)
    have wheel : (opened.modifyServer key
        ({ · with lastResponse := some resp.image, lastResponseStatus := some resp.status })).wheel = opened.wheel :=
      wheel_modifyServer_same opened (fun _ => rfl)
    refine opens.trans ?_
    dsimp only
    split
    · rename_i dest _
      refine ⟨.server stands (.provisional resp.image rfl (below resp rfl) (.inr ⟨dest, rfl⟩)) ?_, .of_wheel wheel⟩
      rw [ledger_say, cached]
    · refine ⟨.server stands (.provisional resp.image rfl (below resp rfl) (.inl rfl)) ?_, .of_wheel wheel⟩
      rw [cached, Ledger.say_nil]

theorem ledger_takeFinal {standing : ServerStanding} (stands : owner.ledger.servers key = some standing)
    (resp : SipResponse) (state : TxnState) :
    (owner.takeFinal key resp state).ledger =
      (owner.ledger.setServer key (some { standing with state, cached := some (resp.image, resp.status) })).say
        [.answered standing.serial resp.status resp.image] := by
  obtain ⟨txn, found, rfl⟩ := Option.map_eq_some_iff.1 stands
  have noted : (owner.say (.answered txn.serial resp.status resp.image)).ledger.servers key =
      some txn.serverStanding := stands
  unfold takeFinal
  rw [found]
  rw [ledger_modifyServer_of noted (fun standing =>
    { standing with state, cached := some (resp.image, resp.status) })]
  · rfl
  · exact fun _ => rfl

/-- An occupant without a final takes the one a seed carries, and may send it. -/
theorem occupantTakes_moves {standing : ServerStanding} (stands : owner.ledger.servers key = some standing)
    (active : standing.state.isActive) (final : 200 ≤ resp.status) (done : state.isActive = false)
    (once : sent = [] ∨ ∃ dest, sent = [.response standing.serial resp.status resp.image dest])
    (result : after.ledger = (owner.takeFinal key resp state).ledger.say sent) : Moves leave owner after := by
  refine .server stands (.answers resp.image active final done once) ?_
  rw [result, ledger_takeFinal stands, Ledger.say_say]
  rfl

/-- A transaction that enters the map with a final takes it at once, and may send it. -/
theorem seededTakes_moves {head : NewTransaction} (named : head.id = .server key) (final : 200 ≤ resp.status)
    (done : state.isActive = false)
    (once : sent = [] ∨ ∃ dest, sent = [.response owner.opened resp.status resp.image dest])
    (result : after.ledger = ((owner.openTxn head).takeFinal key resp state).ledger.say sent) :
    Moves leave owner after := by
  have stands : (owner.openTxn head).ledger.servers key = some (owner.freshTxn head).serverStanding :=
    servers_openTxnWith owner named (fun _ => rfl)
  have entered := ledger_takeFinal stands resp state
  rw [ledger_openTxn_server owner named] at entered
  have opened : ((owner.openTxn head).takeFinal key resp state).ledger =
      ((owner.ledger.setServer key (some ⟨owner.opened, head.kind, state, some (resp.image, resp.status),
        none⟩)).opens).say
        [.answered owner.opened resp.status resp.image] := by
    rw [entered]
    exact Ledger.ext rfl (Function.update_idem ..) rfl rfl rfl
  have step : Ledger.Step leave owner.ledger ((owner.openTxn head).takeFinal key resp state).ledger := by
    rw [opened]
    exact .serverOpens (.answered done final)
  have takes : Moves leave owner ((owner.openTxn head).takeFinal key resp state) := .single step
  refine takes.trans ?_
  obtain rfl | ⟨dest, rfl⟩ := once
  · exact .of_ledger (by rw [result, Ledger.say_nil])
  have standsThen : ((owner.openTxn head).takeFinal key resp state).ledger.servers key =
      some ⟨owner.opened, head.kind, state, some (resp.image, resp.status), none⟩ := by
    rw [opened]
    exact Ledger.servers_setServer ..
  exact .serverSpeaks standsThen (.replays dest rfl) result

/-- Recording the tag first changes nothing the ledger sees of a final taken. -/
theorem ledger_takeFinal_recorded :
    ((owner.recordUasTag key resp).takeFinal key resp state).ledger = (owner.takeFinal key resp state).ledger := by
  have same := ledger_recordUasTag owner key resp
  cases found : owner.servers.get key with
  | none =>
    have absent : (owner.recordUasTag key resp).servers.get key = none := by
      have unseen : (owner.recordUasTag key resp).ledger.servers key = none := by
        rw [same]
        simp [ledger, found]
      exact Option.map_eq_none_iff.1 unseen
    unfold takeFinal
    rw [absent, found]
    exact same
  | some txn =>
    have stands := ledger_server found
    rw [ledger_takeFinal stands, ledger_takeFinal (same ▸ stands), same]

@[simp] theorem ledger_accept :
    (owner.accept key resp).ledger = (owner.takeFinal key resp .accepted).ledger := by
  unfold accept
  rw [ledger_hold_server, ledger_takeFinal_recorded]

theorem seedAccepted_goes (success : resp.Is2xx) :
    Goes leave mayExpire owner (owner.seedAccepted wire callRef resp legId).2 := by
  unfold seedAccepted
  split
  · exact .refl owner
  rename_i key _
  split
  · rename_i occupant found
    split
    · rename_i active
      split
      · rename_i dest _
        exact ⟨occupantTakes_moves (ledger_server found) active success.1 rfl (.inr ⟨dest, rfl⟩)
          (by rw [ledger_say, ledger_accept]; rfl), (accept_winds owner).then_same (wheel_say _ _)⟩
      · exact ⟨occupantTakes_moves (ledger_server found) active success.1 rfl (.inl rfl)
          (by rw [ledger_accept, Ledger.say_nil]), accept_winds owner⟩
    · exact .refl owner
  · have named : (answeredHead key callRef resp .invite legId .accepted
        (wire.responseDestination resp.topVia)).id = .server key := rfl
    exact ⟨seededTakes_moves named success.1 rfl (.inl rfl) (by rw [ledger_accept, Ledger.say_nil]),
      (openTxn_winds owner named).trans (accept_winds _)⟩

theorem bounded_same (held : Owner) (key : ServerTxnKey) {boundMs : Option ℕ} :
    (match boundMs with
      | some left => held.holdFor (.server key) .timerH left
      | none => held).ledger = held.ledger ∧ Winds mayExpire held
    (match boundMs with
      | some left => held.holdFor (.server key) .timerH left
      | none => held) := by
  cases boundMs with
  | none => exact ⟨rfl, .refl held⟩
  | some left => exact ⟨ledger_holdFor_server held, holdServer_winds held⟩

theorem seedRejected_goes (failure : 300 ≤ resp.status) {boundMs : Option ℕ} :
    Goes leave mayExpire owner (owner.seedRejected wire callRef resp dest legId boundMs).2 := by
  have final : 200 ≤ resp.status := by omega
  have done : TxnState.completed.isActive = false := rfl
  unfold seedRejected
  split
  · exact .refl owner
  rename_i key _
  have bounded (held : Owner) := @bounded_same mayExpire held key boundMs
  cases found : owner.servers.get key with
  | none =>
    have named : (answeredHead key callRef resp .invite legId .completed
        (some ((wire.responseDestination resp.topVia).getD dest))).id = .server key := rfl
    refine ⟨seededTakes_moves named final done (.inl rfl) ?_, ?_⟩
    · rw [Ledger.say_nil]
      exact (bounded _).1.trans ((ledger_armFinalHold _ key .invite _).trans ledger_takeFinal_recorded)
    · refine Winds.trans (Winds.trans ?_ (armFinalHold_winds _)) (bounded _).2
      exact (openTxn_winds owner named).then_same (wheel_takeFinal_recorded _)
  | some occupant =>
    dsimp only [Option.any_some]
    split
    · exact .refl owner
    rename_i unfinished
    have active : occupant.state.isActive = true := by simpa using unfinished
    refine ⟨occupantTakes_moves (ledger_server found) active final done
      (.inr ⟨occupant.destination.getD dest, rfl⟩) ?_, ?_⟩
    · refine congrArg (fun ledger => Ledger.say ledger _) ((bounded _).1.trans
        ((ledger_armFinalHold _ key .invite _).trans ((ledger_modifyServer_same ?_).trans
          ledger_takeFinal_recorded)))
      exact fun _ _ => rfl
    · refine Winds.then_same (Winds.trans ?_ (bounded _).2) (wheel_say _ _)
      refine Winds.trans (.of_wheel ?_) (armFinalHold_winds _)
      refine (wheel_modifyServer_same _ ?_).trans (wheel_takeFinal_recorded owner)
      exact fun _ => rfl

theorem seedServerNonInvite_goes :
    Goes leave mayExpire owner (owner.seedServerNonInvite wire callRef request legId).2 := by
  unfold seedServerNonInvite
  split
  · exact .refl owner
  split
  · exact .refl owner
  · exact ⟨openServerTxn_moves rfl (fun _ => rfl) (.active rfl), openTxn_winds owner rfl⟩

theorem seedAnsweredNonInvite_goes (final : 200 ≤ resp.status) :
    Goes leave mayExpire owner (owner.seedAnsweredNonInvite wire callRef resp dest boundMs legId).2 := by
  have done : TxnState.completed.isActive = false := rfl
  have taken (owner : Owner) (key : ServerTxnKey) :
      Winds mayExpire owner ((owner.takeFinal key resp .completed).holdFor (.server key) .timerJ boundMs) :=
    (Winds.of_wheel (wheel_takeFinal owner)).trans (holdServer_winds _)
  unfold seedAnsweredNonInvite
  split
  · exact .refl owner
  split
  · exact .refl owner
  rename_i key _
  cases found : owner.servers.get key with
  | none =>
    generalize (wire.responseDestination resp.topVia).getD dest = target
    have named : (answeredHead key callRef resp .nonInvite legId .completed (some target)).id = .server key := rfl
    refine ⟨seededTakes_moves named final done (.inr ⟨target, rfl⟩) ?_,
      ((openTxn_winds owner named).trans (taken _ key)).then_same (wheel_say _ _)⟩
    exact congrArg (fun ledger => Ledger.say ledger _) (ledger_holdFor_server _)
  | some occupant =>
    dsimp only [Option.any_some]
    split
    · exact .refl owner
    rename_i unfinished
    have active : occupant.state.isActive = true := by simpa using unfinished
    refine ⟨occupantTakes_moves (ledger_server found) active final done
      (.inr ⟨occupant.destination.getD dest, rfl⟩) ?_,
      (taken owner key).then_same (wheel_say _ _)⟩
    exact congrArg (fun ledger => Ledger.say ledger _) (ledger_holdFor_server _)

theorem seedOne_goes {seed : TxnSeed} : Goes leave mayExpire owner (owner.seedOne wire callRef seed).2 := by
  cases seed with
  | clientInvite invite dest provisional cancel ackAhead =>
    have seeded : Goes leave mayExpire owner (owner.seedClientInvite callRef invite dest provisional cancel).2 :=
      seedClientInvite_goes
    unfold seedOne
    dsimp only
    split
    · split
      · exact seeded.trans (.remarks trivial)
      · exact seeded
    · exact seeded
  | clientRejected invite dest boundMs => exact seedClientRejected_goes
  | serverInvite request toTag provisional legId =>
    refine seedServerInvite_goes ?_
    intro resp isProvisional
    obtain ⟨held, _, rfl⟩ := Option.map_eq_some_iff.1 isProvisional
    exact held.2
  | serverAccepted response legId => exact seedAccepted_goes response.2
  | serverRejected response dest legId boundMs =>
    exact seedRejected_goes response.2
  | clientNonInvite request dest boundMs => exact seedClientNonInvite_goes
  | serverNonInvite request legId => exact seedServerNonInvite_goes
  | serverNonInviteAnswered response dest boundMs legId =>
    exact seedAnsweredNonInvite_goes response.2

theorem doSeed_goes {seeds : List TxnSeed} :
    Goes leave mayExpire owner (owner.doSeed wire callRef seeds).2 := by
  induction seeds generalizing owner with
  | nil => exact .refl owner
  | cons seed seeds ih =>
    exact seedOne_goes.trans ih

theorem doReoffer_goes (asks : AsksAck leave) (draws : owner.MayDraw wire leave) {message : SipMessage}
    {src : SocketAddr} : Goes leave mayExpire owner (owner.doReoffer wire message src).2 := by
  unfold doReoffer
  split
  · exact inboundResponse_goes asks draws
  split
  · exact handleCancel_goes
  · exact .refl owner

/-! ### Relinquishing -/

/-- A deletion leaves every client transaction that stays as it stood. -/
theorem clients_of_deleteTxn {other : Branch} (stands : (owner.deleteTxn id).2.ledger.clients other = some standing) :
    owner.ledger.clients other = some standing := by
  cases found : owner.txn id with
  | none =>
    rw [deleteTxn_none found] at stands
    exact stands
  | some txn =>
    cases id with
    | client branch =>
      rw [ledger_deleteTxn_client found] at stands
      by_cases same : other = branch
      · subst same
        cases (Ledger.clients_setClient).symm.trans stands
      · exact (Function.update_of_ne same _ _).symm.trans stands
    | server key =>
      rw [ledger_deleteTxn_server found] at stands
      exact stands

/-- Deleting client transactions that may all leave. -/
theorem deleteClients_moves {branches : List Branch} (may : ∀ branch ∈ branches, owner.MayLeave leave branch) :
    Moves leave owner (branches.foldl (fun owner branch => (owner.deleteTxn (.client branch)).2) owner) := by
  induction branches generalizing owner with
  | nil => exact .refl owner
  | cons branch branches ih =>
    refine (deleteClient_moves (may branch List.mem_cons_self)).trans (ih ?_)
    intro other isOther standing stands
    exact may other (List.mem_cons_of_mem _ isOther) standing (clients_of_deleteTxn stands)

/-- No transaction at a branch holds an ACK. -/
def Acked (owner : Owner) (branch : Branch) : Prop :=
  ∀ standing, owner.ledger.clients branch = some standing → standing.unsentAck = none

/-- The ACK of a branch leaves, and no other transaction comes to hold one. -/
theorem sendHeldAck_acked (owner : Owner) (branch other : Branch) (acked : other = branch ∨ owner.Acked other) :
    (owner.sendHeldAck branch).2.Acked other := by
  unfold sendHeldAck
  split
  · rename_i absent
    obtain rfl | acked := acked
    · intro standing stands
      simp [ledger, absent] at stands
    · exact acked
  · rename_i txn found
    split
    · rename_i none
      obtain rfl | acked := acked
      · intro standing stands
        cases (ledger_client found).symm.trans stands
        exact none
      · exact acked
    · intro standing stands
      rw [ledger_say, ledger_modifyClient_of (ledger_client found)
        (fun standing => { standing with unsentAck := none })
        (fun _ => rfl)] at stands
      by_cases same : other = branch
      · subst same
        cases (Ledger.clients_setClient ..).symm.trans stands
        rfl
      · exact acked.resolve_left same standing ((Function.update_of_ne same _ _).symm.trans stands)

/-- Once the ACKs of some branches were sent, none of them holds one. -/
theorem acked_of_sendHeldAcks (branches : List Branch) (owner : Owner) (branch : Branch)
    (acked : branch ∈ branches ∨ owner.Acked branch) :
    (branches.foldl (fun owner branch => (owner.sendHeldAck branch).2) owner).Acked branch := by
  induction branches generalizing owner with
  | nil => exact acked.resolve_left List.not_mem_nil
  | cons first branches ih =>
    refine ih _ ?_
    obtain listed | already := acked
    · obtain rfl | later := List.mem_cons.1 listed
      · exact .inr (sendHeldAck_acked owner _ _ (.inl rfl))
      · exact .inl later
    · exact .inr (sendHeldAck_acked owner first branch (.inr already))

/-- Waiving the finals of server transactions touches no client transaction. -/
theorem clients_waiveHeldFinals {keys : List ServerTxnKey} :
    (keys.foldl waiveHeldFinal owner).ledger.clients = owner.ledger.clients := by
  induction keys generalizing owner with
  | nil => rfl
  | cons key keys ih =>
    rw [List.foldl_cons, ih]
    unfold waiveHeldFinal
    rfl

theorem relinquishCall_moves (asks : AsksAck leave) : Moves leave owner (owner.relinquishCall callRef) := by
  unfold relinquishCall
  dsimp only
  generalize isUnwatched : ({ owner with selfReleaseWatch := owner.selfReleaseWatch.erase callRef } : Owner)
    = unwatched
  have same : unwatched.ledger = owner.ledger := by rw [← isUnwatched]; rfl
  generalize (owner.txnIndex.get callRef).getD .new = txns
  have acked := acked_of_sendHeldAcks txns.everyClient unwatched
  have acks : Moves leave unwatched
      (txns.everyClient.foldl (fun owner branch => (owner.sendHeldAck branch).2) unwatched) :=
    .foldl sendHeldAck_moves _ unwatched
  generalize txns.everyClient.foldl (fun owner branch => (owner.sendHeldAck branch).2) unwatched = sent at acked acks
  have waives : Moves leave sent (txns.server.foldl waiveHeldFinal sent) := .foldl waiveHeldFinal_moves _ sent
  have deletes : Moves leave (txns.server.foldl waiveHeldFinal sent)
      (txns.everyClient.foldl (fun owner branch => (owner.deleteTxn (.client branch)).2)
        (txns.server.foldl waiveHeldFinal sent)) := by
    refine deleteClients_moves fun branch listed standing stands => asks.acked standing ?_
    rw [clients_waiveHeldFinals] at stands
    exact acked branch (.inl listed) standing stands
  exact ((((Moves.of_ledger same).trans acks).trans waives).trans deletes).trans (.foldl deleteServer_moves _ _)

theorem relinquishServer_goes : Goes leave mayExpire owner (owner.relinquishServer key) :=
  ⟨(waiveHeldFinal_moves owner key).trans (deleteServer_moves _ key),
    (waiveHeldFinal_winds owner).trans (deleteTxn_winds _)⟩

theorem relinquishClient_goes (asks : AsksAck leave) :
    Goes leave mayExpire owner (owner.relinquishClient branch) := by
  refine ⟨(sendHeldAck_moves owner branch).trans (deleteClient_moves fun standing stands => asks.acked standing ?_),
    (sendHeldAck_winds owner).trans (deleteTxn_winds _)⟩
  exact sendHeldAck_acked owner branch branch (.inl rfl) standing stands

/-- The Accepted client transactions of a call. -/
def acceptedOf (owner : Owner) (callRef : CallRef) : List Branch :=
  ((owner.txnIndex.get callRef).map (·.accepted)).getD []

theorem relinquishAcceptedOfCall_goes (may : ∀ branch ∈ owner.acceptedOf callRef, owner.MayLeave leave branch) :
    Goes leave mayExpire owner (owner.relinquishAcceptedOfCall callRef) :=
  ⟨deleteClients_moves may, .foldl (fun owner _ => deleteTxn_winds owner) _ owner⟩

/-! ### A turn -/

theorem expire_moves (may : ∀ branch, id = .client branch → owner.MayLeave leave branch) :
    Moves leave owner (owner.expire id) := by
  have leaves : Moves leave owner (owner.deleteTxn id).2 := by
    cases id with
    | client branch => exact deleteClient_moves (may branch rfl)
    | server key => exact deleteServer_moves owner key
  unfold expire
  split
  · exact leaves.then_same rfl
  · exact leaves

theorem notifyQuiesced_goes : Goes leave mayExpire owner (owner.notifyQuiesced callRef) := by
  have said : (owner.notifyQuiesced callRef).ledger = owner.ledger.say [.event none (.callQuiesced callRef)] :=
    ledger_emitCritical _ none _
  refine ⟨?_, emitCritical_winds { owner with selfReleaseWatch := owner.selfReleaseWatch.erase callRef } none _⟩
  unfold Moves
  rw [said]
  exact .single (.aside _ trivial)

theorem flushPendingQuiesce_goes : Goes leave mayExpire owner owner.flushPendingQuiesce := by
  have emptied : Goes leave mayExpire owner { owner with pendingQuiesce := [] } := .of_same rfl rfl
  refine emptied.trans (.foldl (fun owner callRef => ?_) _ _)
  split
  · exact notifyQuiesced_goes
  · exact .refl owner

theorem flushPendingQuiesce_winds (owner : Owner) : Winds mayExpire owner owner.flushPendingQuiesce :=
  (@flushPendingQuiesce_goes (fun _ => True) mayExpire owner).winds

theorem flushOwedSends_goes : Goes leave mayExpire owner owner.flushOwedSends :=
  ⟨.single (.pays owner.ledger), .of_wheel rfl⟩

theorem watchSelfRelease_goes : Goes leave mayExpire owner (owner.watchSelfRelease callRef) := by
  have noted : Goes leave mayExpire owner (owner.say (.watched callRef)) := .remarks trivial
  unfold watchSelfRelease
  dsimp only
  split
  · exact noted.trans (.of_same rfl rfl)
  · exact noted.trans notifyQuiesced_goes

theorem ledger_expire : (owner.expire id).ledger = (owner.deleteTxn id).2.ledger := by
  unfold expire
  split <;> rfl

/-- Expiring transactions that may all leave. -/
theorem expires_moves {ids : List TxnId} (may : ∀ branch, .client branch ∈ ids → owner.MayLeave leave branch) :
    Moves leave owner (ids.foldl expire owner) := by
  induction ids generalizing owner with
  | nil => exact .refl owner
  | cons id ids ih =>
    refine (expire_moves fun branch isId => may branch (isId ▸ List.mem_cons_self)).trans (ih ?_)
    intro branch isOther standing stands
    rw [ledger_expire] at stands
    exact may branch (List.mem_cons_of_mem _ isOther) standing (clients_of_deleteTxn stands)

/-- The transactions a turn takes out of the map unasked may leave. -/
def Parts (wire : Wire) (leave : ClientStanding → Prop) (owner : Owner) : Work → Prop
  | .command (.sendRequest msg _ _) =>
    msg.method ≠ .cancel → msg.method ≠ .ack → owner.MayLeave leave (sentBranch wire owner msg)
  | .command (.relinquishAccepted callRef) => ∀ branch ∈ owner.acceptedOf callRef, owner.MayLeave leave branch
  | .command (.reoffer _ _) | .response _ _ => owner.MayDraw wire leave
  | .timer key =>
    ∀ due branch, owner.timers.get key = some (due, .cleanup (.client branch)) → owner.MayLeave leave branch
  | .sweep => ∀ branch, .client branch ∈ owner.overdue → owner.MayLeave leave branch
  | _ => True

theorem handleCommand_goes (asks : AsksAck leave) {command : Command}
    (parts : owner.Parts wire leave (.command command)) :
    Goes leave mayExpire owner (owner.handleCommand wire command) := by
  cases command with
  | sendRequest msg dest kind => exact doSendRequest_goes parts
  | sendResponse msg dest => exact doSendResponse_goes
  | sendRaw buf dest => exact .remarks trivial
  | seed callRef seeds => exact doSeed_goes
  | reoffer message src => exact doReoffer_goes asks parts
  | cancelTxnsForCall callRef => exact doCancelTxnsForCall_goes
  | relinquishCall callRef => exact ⟨relinquishCall_moves asks, relinquishCall_winds owner⟩
  | relinquishServer key => exact relinquishServer_goes
  | relinquishClient branch => exact relinquishClient_goes asks
  | relinquishAccepted callRef => exact relinquishAcceptedOfCall_goes parts
  | forgetUnansweredOfCall callRef => exact forgetUnansweredOfCall_goes
  | answerUnansweredInvitesOfCall callRef status reason =>
    exact answerUnansweredInvitesOfCall_goes
  | releaseCancel heldAs => exact releaseHeldCancel_goes
  | releaseAck branch => exact ⟨sendHeldAck_moves owner branch, sendHeldAck_winds owner⟩
  | releaseTrying key => exact sendFirstTrying_goes
  | watchSelfRelease callRef => exact watchSelfRelease_goes

/-- A stored entry fires: neither side sees more of its transaction than the key cleared. -/
theorem fires_goes {slot : Slot} {timer : Timer} {key : TimerKey} {due : ℕ}
    (filed : owner.timers.get key = some (due, timer))
    (own : timer.slot = some (slot, id)) {change : Transaction → Transaction}
    (acts : ∀ txn, (change txn).hands = txn.hands.setKey slot none)
    (client : ∀ txn, (change txn).clientStanding = txn.clientStanding)
    (server : ∀ txn, (change txn).serverStanding = txn.serverStanding) :
    Goes leave mayExpire owner ((owner.unarmed key).modifyTxn id change) :=
  ⟨.of_ledger ((ledger_modifyTxn_same client server).trans rfl), fires_winds filed own acts⟩

/-- A due entry is taken off the wheel and fired. -/
theorem fireTimer_goes (asks : AsksAck leave) {timer : Timer} {key : TimerKey} {due : ℕ}
    (may : ∀ branch, timer = .cleanup (.client branch) → owner.MayLeave leave branch)
    (expires : ∀ id, timer = .cleanup id → mayExpire) (filed : owner.timers.get key = some (due, timer)) :
    Goes leave mayExpire owner ((owner.unarmed key).fireTimer wire timer) := by
  have unarms : Moves leave owner (owner.unarmed key) := .of_ledger rfl
  have loose (none : timer.slot = none) (other : timer ≠ .eventRetry)
      (noBound : ∀ branch opened, timer ≠ .ackBound branch opened) : Goes leave mayExpire owner (owner.unarmed key) :=
    ⟨unarms, firesLoose_winds filed none other noBound⟩
  cases timer with
  | clientRetransmit branch =>
    refine (fires_goes filed rfl ?_ ?_ ?_).trans fireRetransmit_goes
    all_goals exact fun _ => rfl
  | serverRetransmit txn =>
    refine (fires_goes filed rfl ?_ ?_ ?_).trans fireServerRetransmit_goes
    all_goals exact fun _ => rfl
  | clientTimeout branch =>
    refine (fires_goes filed rfl ?_ ?_ ?_).trans ⟨fireTimeout_moves asks, fireTimeout_winds _⟩
    all_goals exact fun _ => rfl
  | firstResponse branch => exact (loose rfl nofun nofun).trans fireFirstResponse_goes
  | trying txn opened => exact (loose rfl nofun nofun).trans fireTrying_goes
  | cleanup id =>
    have cleared : ((owner.unarmed key).modifyTxn id ({ · with cleanupKey := none })).ledger = owner.ledger :=
      ledger_modifyTxn_same (fun _ => rfl) (fun _ => rfl)
    refine (fires_goes filed rfl ?_ ?_ ?_).trans ⟨expire_moves ?_, expire_winds _ (expires id rfl)⟩
    case refine_4 =>
      intro branch isClient standing stands
      rw [cleared] at stands
      exact may branch (isClient ▸ rfl) standing stands
    all_goals exact fun _ => rfl
  | ackBound branch opened => exact ⟨unarms.trans fireAckBound_moves, firesBound_winds filed⟩
  | cancelBound txn opened => exact (loose rfl nofun nofun).trans fireCancelBound_goes
  | cancelRetransmit branch =>
    refine (fires_goes filed rfl ?_ ?_ ?_).trans fireCancelRetransmit_goes
    all_goals exact fun _ => rfl
  | eventRetry => exact ⟨.of_ledger (ledger_flushDeferred _), .step (.ticks filed) (wheel_flushDeferred owner key)⟩

theorem work_goes (asks : AsksAck leave) {work : Work} (parts : owner.Parts wire leave work)
    (expires : owner.expiring (.turn work) ≠ [] → mayExpire) (worked : owner.work wire work = some after) :
    Goes leave mayExpire owner after := by
  cases work with
  | forget key callId fromTag =>
    cases worked
    exact forgetUnanswered_goes
  | command command =>
    cases worked
    exact handleCommand_goes asks parts
  | timer key =>
    dsimp only [work] at worked
    split at worked
    · cases worked
    rename_i due timer armed
    split at worked
    · cases worked
      refine fireTimer_goes asks ?_ (fun id isCleanup => expires ?_) armed
      · rintro branch rfl
        exact parts due branch armed
      · dsimp only [expiring]
        rw [armed, isCleanup]
        exact List.cons_ne_nil _ _
    · cases worked
  | sweep =>
    dsimp only [work] at worked
    split at worked
    · cases worked
      have reaped : Winds mayExpire owner owner.reapOverdue := by
        unfold reapOverdue
        by_cases none : owner.overdue = []
        · rw [none]
          exact .refl owner
        · exact .foldl (fun owner id => expire_winds owner (expires none)) _ owner
      have moved : Moves leave owner owner.reapOverdue := expires_moves parts
      exact ⟨moved.then_same rfl, reaped.then_same rfl⟩
    · cases worked
  | request req src judgement =>
    cases worked
    exact handleInboundRequest_goes
  | response resp src =>
    cases worked
    exact inboundResponse_goes asks parts

/-- A condition on the turn an event is. -/
def EventParts (wire : Wire) (leave : ClientStanding → Prop) (owner : Owner) : OwnerEvent → Prop
  | .turn work => owner.Parts wire leave work
  | .pass _ | .take => True

/-- Whatever happens to the layer keeps to the ledger, and to the steps of its wheel and its queue. -/
theorem step_goes (asks : AsksAck leave) {event : OwnerEvent} (parts : owner.EventParts wire leave event)
    (expires : owner.expiring event ≠ [] → mayExpire) (stepped : owner.step wire event = some after) :
    Goes leave mayExpire owner after := by
  cases event with
  | turn work =>
    obtain ⟨worked, isWorked, rfl⟩ := Option.map_eq_some_iff.1 stepped
    exact ((work_goes asks parts expires isWorked).trans flushOwedSends_goes).trans flushPendingQuiesce_goes
  | pass ms =>
    cases stepped
    exact ⟨.of_ledger rfl, .step (.passes ms) rfl⟩
  | take =>
    cases stepped
    unfold take
    split
    · rename_i queued
      exact ⟨.of_ledger rfl, .step (.takes queued) rfl⟩
    · exact .refl owner

/-- Whatever may leave. -/
theorem asksAck_true : AsksAck (fun _ => True) := ⟨fun _ _ => trivial, fun _ _ => trivial, fun _ _ _ _ _ => trivial⟩

theorem eventParts_true {owner : Owner} {event : OwnerEvent} :
    owner.EventParts wire (fun _ => True) event := by
  cases event with
  | pass ms => trivial
  | take => trivial
  | turn work =>
    cases work with
    | command command =>
      cases command with
      | sendRequest | relinquishAccepted | reoffer => exact fun _ _ _ _ => trivial
      | _ => trivial
    | timer key => exact fun _ _ _ _ _ => trivial
    | sweep | response => exact fun _ _ _ _ => trivial
    | _ => trivial

theorem step_winds {event : OwnerEvent} (expires : owner.expiring event ≠ [] → mayExpire)
    (stepped : owner.step wire event = some after) : Winds mayExpire owner after :=
  (step_goes asksAck_true eventParts_true expires stepped).winds

/-- So does every run. -/
theorem run_goes {events : List OwnerEvent} (ran : run (step wire) owner events = some after) :
    Goes (fun _ => True) True owner after := by
  refine run_invariant (Goes (fun _ => True) True owner) ?_ ran (.refl owner)
  intro state event next gone stepped
  exact gone.trans (step_goes asksAck_true eventParts_true (fun _ => trivial) stepped)

end Owner

end SipServer.Txn
