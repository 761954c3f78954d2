/-
Module: SipServer.Proofs.TxnLedgerClient
Purpose: The client transactions keep to the ledger and to the wheel: every function of the client side makes
  only moves the ledger allows, and steps of the wheel and the queue.
-/
import SipServer.Proofs.TxnWheelTurn

namespace SipServer.Txn

open SipServer.Retransmit

namespace Owner

variable {leave : ClientStanding → Prop} {mayExpire : Prop} {owner : Owner} {branch : Branch} {txn : Transaction}

variable {resp : SipResponse} {standing : ClientStanding} {dest : SocketAddr} {wire : Wire} {buf : Bytes}
  {msg invite : SipRequest} {src : SocketAddr} {toTag : Option Tag} {state : TxnState} {kind : TxnKind}
  {reoffer : Bool} {after : Owner}

/-! ### What the ledger does not see -/

@[simp] theorem ledger_releaseSeedResend : (owner.releaseSeedResend branch).ledger = owner.ledger := by
  unfold releaseSeedResend
  split
  · rfl
  split
  · rfl
  split
  · rfl
  rw [ledger_modifyClient_same, ledger_arm, ledger_modifyClient_same]
  all_goals exact fun _ _ => rfl

theorem releaseSeedResend_goes : Goes leave mayExpire owner (owner.releaseSeedResend branch) :=
  ⟨.of_ledger ledger_releaseSeedResend, releaseSeedResend_winds owner⟩

@[simp] theorem ledger_armCancelRetransmit : (owner.armCancelRetransmit branch).ledger = owner.ledger := by
  unfold armCancelRetransmit
  split
  · rfl
  rename_i txn found
  split
  · rename_i held ladder first _ parked _
    rw [ledger_modifyClient_same, ledger_arm]
    intro resident isResident
    obtain rfl : txn = resident := Option.mem_unique found isResident
    simp [Transaction.clientStanding, parked]
  · rfl

@[simp] theorem ledger_startClientRetransmit {maxMs : ℕ} {timeoutKind : TxnTimeoutKind} :
    (owner.startClientRetransmit branch buf dest maxMs timeoutKind).ledger = owner.ledger := by
  unfold startClientRetransmit
  split
  · rfl
  dsimp only
  split
  · rfl
  rw [ledger_modifyClient_same, ledger_arm, ledger_arm]
  exact fun _ _ => rfl

theorem startClientRetransmit_goes {maxMs : ℕ} {timeoutKind : TxnTimeoutKind} :
    Goes leave mayExpire owner (owner.startClientRetransmit branch buf dest maxMs timeoutKind) :=
  ⟨.of_ledger ledger_startClientRetransmit, startClientRetransmit_winds owner⟩

theorem clientStanding_noteDialog : (txn.noteDialog toTag).clientStanding = txn.clientStanding := by
  unfold Transaction.noteDialog
  split <;> rfl

theorem clientStanding_updateDialog {change : InviteDialog → InviteDialog} :
    (txn.updateDialog toTag change).clientStanding = txn.clientStanding :=
  clientStanding_noteDialog

@[simp] theorem ledger_noteDialogCseq {callRef : Option CallRef} {req : SipRequest} :
    (owner.noteDialogCseq callRef req).ledger = owner.ledger := by
  unfold noteDialogCseq
  split
  · rename_i toTag txns _ tracked
    clear tracked
    -- every round of the loop changes only dialogs
    induction txns.everyClient generalizing owner with
    | nil => rfl
    | cons branch branches ih =>
      rw [List.foldl_cons, ih, ledger_modifyClient_same]
      intro txn _
      split
      · exact clientStanding_updateDialog
      · rfl
  · rfl

@[simp] theorem ledger_noteTuAck {ack : SipRequest} : (owner.noteTuAck ack dest).ledger = owner.ledger := by
  unfold noteTuAck
  split
  · rfl
  dsimp only
  split
  · rfl
  rw [ledger_modifyClient_same]
  exact fun txn _ => clientStanding_updateDialog

@[simp] theorem ledger_rearmInviteBound : (owner.rearmInviteBound branch).ledger = owner.ledger := by
  unfold rearmInviteBound
  split
  · rfl
  split
  · rw [ledger_modifyClient_same, ledger_arm, ledger_cancelTimer, ledger_modifyClient_same]
    all_goals exact fun _ _ => rfl
  · rfl

@[simp] theorem ledger_noteReliableOffer : (owner.noteReliableOffer branch resp).ledger = owner.ledger := by
  unfold noteReliableOffer
  split
  · rfl
  split
  · rw [ledger_modifyClient_same]
    intro txn _
    split <;> rfl
  · rfl

/-! ### The CANCEL parked on its INVITE -/

/-- A given-up INVITE whose hold starts over is given up as before. -/
theorem ledger_renewHold {renewed : Prop} [Decidable renewed] (stands : owner.ledger.clients branch = some standing)
    (given : renewed → standing.gaveUp = true) :
    (if renewed then owner.hold (.client branch) .gaveUp else owner).ledger = owner.ledger := by
  split
  · rename_i isRenewed
    have gaveUp := given isRenewed
    rw [ledger_hold_client stands]
    refine Ledger.setClient_self (stands.trans ?_)
    cases standing
    cases gaveUp
    rfl
  · rfl

/-- The record after its CANCEL is parked anew. -/
theorem ledger_parkCancel (stands : owner.ledger.clients branch = some standing) (held : HeldCancel) :
    (owner.modifyClient branch ({ · with heldCancel := some held })).ledger =
      owner.ledger.setClient branch (some { standing with cancel := some (held.buf, held.dest, held.wire) }) :=
  ledger_modifyClient_of stands (fun standing => { standing with cancel := some (held.buf, held.dest, held.wire) })
    (fun _ => rfl)

/-- The flush sends the CANCEL its INVITE holds, or does nothing. -/
theorem flushCancelOnProvisional_cases (owner : Owner) :
    (owner.flushCancelOnProvisional branch).ledger = owner.ledger ∨
      ∃ standing buf dest, owner.ledger.clients branch = some standing ∧ standing.cancel = some (buf, dest, .held) ∧
        (owner.flushCancelOnProvisional branch).ledger =
          (owner.ledger.setClient branch (some { standing with cancel := some (buf, dest, .sent) })).say
            [.cancel standing.serial buf dest] := by
  unfold flushCancelOnProvisional
  cases found : owner.clients.get branch with
  | none => exact .inl rfl
  | some txn =>
    dsimp only
    cases parked : txn.heldCancel with
    | none => exact .inl rfl
    | some held =>
      dsimp only
      cases wire : held.wire with
      | sent => exact .inl rfl
      | held =>
        have stands := ledger_client found
        have marked := ledger_parkCancel stands { held with wire := .sent }
        refine .inr ⟨txn.clientStanding, held.buf, held.dest, stands, ?_, ?_⟩
        · simp [Transaction.clientStanding, parked, wire]
        rw [ledger_armCancelRetransmit, ledger_heldCancelsFlushed, ledger_say, ledger_renewHold, marked]
        · rfl
        · rw [marked]
          exact Ledger.clients_setClient ..
        · exact fun gaveUp => gaveUp

/-- The CANCEL on the wire is sent again while its INVITE is active. -/
theorem fireCancelRetransmit_goes : Goes leave mayExpire owner (owner.fireCancelRetransmit branch) := by
  unfold fireCancelRetransmit
  cases found : owner.clients.get branch with
  | none => exact .refl owner
  | some txn =>
    dsimp only
    split
    · rename_i active
      cases parked : txn.heldCancel with
      | none => exact .refl owner
      | some held =>
        dsimp only
        cases wire : held.wire with
        | held => exact .refl owner
        | sent =>
          have stands := ledger_client found
          have holds : txn.clientStanding.cancel = some (held.buf, held.dest, .sent) := by
            simp [Transaction.clientStanding, parked, wire]
          -- only the ladder of the parked CANCEL moves
          have climbed (ladder : Option Ladder) :
              (owner.modifyClient branch
                ({ · with heldCancel := some ⟨held.buf, held.dest, .sent, ladder⟩ })).ledger = owner.ledger := by
            rw [ledger_parkCancel stands]
            refine Ledger.setClient_self (stands.trans ?_)
            simp [Transaction.clientStanding, parked, wire]
          have rung (ladder : Option Ladder) : Goes leave mayExpire owner ((owner.modifyClient branch
              ({ · with heldCancel := some ⟨held.buf, held.dest, .sent, ladder⟩ })).say
                (.cancel txn.serial held.buf held.dest)) := by
            refine ⟨.speaks stands (.ringsCancel holds active) ?_, modifyClient_winds owner fun _ => rfl⟩
            rw [ledger_say, climbed]
            rfl
          dsimp only
          split
          · exact rung _
          refine (rung _).trans ⟨.of_ledger ?_, storesClient_winds _ .cancelRetransmit _ rfl (by simp) ?_⟩
          · rw [ledger_modifyClient_same, ledger_arm]
            exact fun _ _ => rfl
          · exact fun _ => rfl
    · exact .refl owner

section

variable (found : owner.clients.get branch = some txn)

include found

/-- A CANCEL before the provisional is held. -/
theorem holdCancel_moves (trying : txn.state = .trying) : Moves leave owner (owner.holdCancel branch buf dest) := by
  have stands := ledger_client found
  have handed : (owner.say (.cancelHanded txn.serial)).ledger.clients branch = some txn.clientStanding := stands
  refine .client stands (.parksCancel buf dest trying) ?_
  unfold holdCancel
  rw [found]
  rw [ledger_releaseSeedResend, ledger_cancelsHeld]
  split
  · rw [ledger_heldCancelsDropped, ledger_parkCancel handed]
    rfl
  · rw [ledger_parkCancel handed]
    rfl

/-- A CANCEL parked anew and sent. -/
theorem ledger_sendParked {parked : HeldCancel} :
    ((((owner.say (.cancelHanded txn.serial)).modifyClient branch ({ · with heldCancel := some parked })).say
      (.cancel txn.serial buf dest)).armCancelRetransmit branch).ledger =
      (owner.ledger.setClient branch
        (some { txn.clientStanding with cancel := some (parked.buf, parked.dest, parked.wire) })).say
          [.cancelHanded txn.serial, .cancel txn.serial buf dest] := by
  have handed : (owner.say (.cancelHanded txn.serial)).ledger.clients branch = some txn.clientStanding :=
    ledger_client found
  rw [ledger_armCancelRetransmit, ledger_say, ledger_parkCancel handed, ledger_say, Ledger.setClient_say,
    Ledger.say_say]
  rfl

/-- A CANCEL after it is sent. -/
theorem sendCancel_moves (active : txn.state.isActive) (past : txn.state ≠ .trying) :
    Moves leave owner (owner.sendCancel branch buf dest) := by
  refine .client (ledger_client found) (.sendsCancel buf dest active past) ?_
  unfold sendCancel
  rw [found]
  rw [ledger_renewHold, ledger_sendParked found]
  · -- the newest CANCEL takes the place of the one parked, its wire kept
    unfold Transaction.clientStanding
    cases txn.heldCancel <;> rfl
  · rw [ledger_sendParked found]
    exact Ledger.clients_setClient ..
  · exact fun first => (Bool.and_eq_true_iff.1 first).1

end

/-! ### The send of a request -/

/-- The branch a request that is neither an ACK nor a CANCEL leaves on. -/
def sentBranch (wire : Wire) (owner : Owner) (msg : SipRequest) : Branch :=
  msg.topVia.namedBranch.getD (wire.newBranch owner.ids)

/-- A client opens, in the place of one that may leave. -/
theorem openClient_goes (may : owner.MayLeave leave branch) :
    Goes leave mayExpire owner (owner.openClient branch msg dest kind) := by
  unfold openClient
  dsimp only
  have same := @ledger_noteDialogCseq owner msg.topVia.callRef msg
  have noted : Goes leave mayExpire owner (owner.noteDialogCseq msg.topVia.callRef msg) :=
    ⟨.of_ledger same, noteDialogCseq_winds owner _ msg⟩
  generalize owner.noteDialogCseq msg.topVia.callRef msg = before at noted same
  have sent : Goes leave mayExpire owner (before.say (.request before.opened msg.image dest)) :=
    noted.trans (.remarks trivial)
  generalize isOpened : openTxn _ _ = opened
  have opens : Goes leave mayExpire owner opened := by
    rw [← isOpened]
    refine sent.trans
      ⟨openClientTxn_moves rfl (fun _ => rfl) ⟨rfl, nofun, rfl, rfl, rfl, rfl, rfl, rfl⟩ ?_, openTxn_winds _ rfl⟩
    intro old stands
    rw [ledger_say, same] at stands
    exact may old stands
  split
  · exact (opens.trans startClientRetransmit_goes).trans ⟨.of_ledger (ledger_arm _), arms_winds _ rfl nofun⟩
  · exact opens.trans startClientRetransmit_goes

/-- What the gate answers for a CANCEL says where its INVITE stands. -/
theorem cancelGate_cases (owner : Owner) :
    owner.cancelGate msg = .suppress ∨
      ∃ branch txn, msg.topVia.branch = some branch ∧ owner.clients.get branch = some txn ∧
        txn.state.isActive = true ∧ ((owner.cancelGate msg = .hold ∧ txn.state = .trying) ∨
          (owner.cancelGate msg = .send ∧ txn.state ≠ .trying)) := by
  cases found : msg.topVia.branch.bind owner.clients.get with
  | none => exact .inl (by simp [cancelGate, found])
  | some txn =>
    obtain ⟨branch, named, resident⟩ := Option.bind_eq_some_iff.1 found
    by_cases waits : txn.kind = .invite ∧ txn.state.isActive
    · refine .inr ⟨branch, txn, named, resident, waits.2, ?_⟩
      cases state : txn.state with
      | trying => exact .inl ⟨by simp [cancelGate, found, waits.1, state, TxnState.isActive], rfl⟩
      | proceeding => exact .inr ⟨by simp [cancelGate, found, waits.1, state, TxnState.isActive], by simp⟩
      | completed | confirmed | accepted => simp [state, TxnState.isActive] at waits
    · exact .inl (by simp only [cancelGate, found, if_neg waits])

theorem doSendRequest_goes
    (may : msg.method ≠ .cancel → msg.method ≠ .ack → owner.MayLeave leave (sentBranch wire owner msg)) :
    Goes leave mayExpire owner (owner.doSendRequest wire msg dest kind) := by
  unfold doSendRequest
  cases method : msg.method with
  | cancel =>
    obtain suppressed | ⟨branch, txn, named, found, active, ⟨held, trying⟩ | ⟨sent, past⟩⟩ := owner.cancelGate_cases
    · rw [suppressed]
      exact .refl owner
    · rw [held, named]
      exact ⟨holdCancel_moves found trying, holdCancel_winds owner⟩
    · rw [sent, named]
      exact ⟨sendCancel_moves found active past, sendCancel_winds owner⟩
  | ack =>
    have sent : Goes leave mayExpire owner (owner.say (.raw msg.image dest)) := .remarks trivial
    exact sent.trans ⟨.of_ledger ledger_noteTuAck, noteTuAck_winds _⟩
  | invite | bye | options | other =>
    replace may := may (by simp [method]) (by simp [method])
    unfold sentBranch at may
    dsimp only
    split
    · rename_i branch named
      rw [named] at may
      exact openClient_goes may
    · rename_i named
      rw [named] at may
      have drawn : ({ owner with ids := owner.ids + 1 } : Owner).MayLeave leave (wire.newBranch owner.ids) := may
      have draws : Goes leave mayExpire owner { owner with ids := owner.ids + 1 } := .of_same rfl rfl
      exact draws.trans (openClient_goes drawn)

/-! ### The timers of a client transaction -/

/-- A request is retransmitted while its transaction is active. -/
theorem fireRetransmit_goes : Goes leave mayExpire owner (owner.fireRetransmit branch) := by
  unfold fireRetransmit
  split
  · exact .refl owner
  rename_i txn found
  split
  · rename_i buf dest _ _ _
    have sent : Goes leave mayExpire owner (owner.say (.request txn.serial buf dest)) := .remarks trivial
    dsimp only
    split
    · exact sent
    refine sent.trans ?_
    split
    · exact modifyClient_goes (fun _ => rfl) (fun _ => rfl)
    refine (modifyClient_goes ?_ ?_).trans ⟨.of_ledger ?_, storesClient_winds _ .retransmit _ rfl nofun ?_⟩
    · exact fun _ => rfl
    · exact fun _ => rfl
    · rw [ledger_modifyClient_same, ledger_arm]
      exact fun _ _ => rfl
    · exact fun _ => rfl
  · exact .refl owner

/-- A `Timeout` is reported by an active transaction that has not given up, and names its call. -/
theorem timeoutEvent_some {event : TransactionEvent} (found : owner.clients.get branch = some txn)
    (reports : owner.timeoutEvent branch = some event) :
    txn.state.isActive = true ∧ txn.lifetime.gaveUp = false ∧ event.IsTimeout txn.callRef := by
  unfold timeoutEvent at reports
  rw [found] at reports
  dsimp only at reports
  split at reports
  · rename_i waits
    cases reports
    exact ⟨waits.1, by simpa using waits.2, rfl⟩
  · cases reports

/-- A timeout gives the transaction up, and tells it. -/
theorem fireTimeout_moves (asks : AsksAck leave) : Moves leave owner (owner.fireTimeout branch) := by
  unfold fireTimeout
  split
  · rename_i event txn reports found
    obtain ⟨active, running, timeout⟩ := timeoutEvent_some found reports
    have stands := ledger_client found
    have told (gone : Owner) :
        (if txn.deadHopReported then gone else gone.emitCritical (some txn.serial) event).ledger =
          gone.ledger.say (if txn.clientStanding.reported then []
            else [.event (some txn.clientStanding.serial) event]) := by
      change _ = gone.ledger.say (if txn.deadHopReported then [] else _)
      split <;> simp [Transaction.clientStanding]
    unfold giveUp
    rw [found]
    dsimp only
    cases kind : txn.kind with
    | invite =>
      refine .client stands (.givesUp kind active running timeout) ?_
      rw [told]
      refine congrArg (fun ledger => Ledger.say ledger _) ?_
      have stopped : (owner.modifyClient branch ({ · with ladder := none, retransmitKey := none })).ledger =
          owner.ledger := ledger_modifyClient_same (fun _ _ => rfl)
      rw [ledger_hold_client, ledger_cancelTimer, stopped]
      · rfl
      rw [ledger_cancelTimer, stopped]
      exact stands
    | nonInvite =>
      refine .clientLeaves stands (.timesOut kind active running timeout (asks.nonInvite _ kind)) ?_
      rw [told, ledger_deleteTxn_client found]
      rfl
  · exact .refl owner

theorem fireFirstResponse_goes : Goes leave mayExpire owner (owner.fireFirstResponse branch) := by
  unfold fireFirstResponse
  split
  · exact .refl owner
  rename_i txn found
  have stands := ledger_client found
  split
  · rename_i waits
    obtain ⟨invite, active, running, unreported⟩ := waits
    rw [Bool.not_eq_true] at running unreported
    split
    · split
      · rename_i callRef legId _ named _
        refine ⟨.speaks stands (.hopAlive ?_ named) (ledger_emit owner _ _), emit_winds owner _ _⟩
        exact trivial
      · exact .refl owner
    · split
      · exact .refl owner
      rename_i event reports
      have timeout := (timeoutEvent_some found reports).2.2
      refine ⟨.client stands (.reportsDead invite active running unreported timeout) ?_,
        (modifyClient_winds owner ?_).trans (emitCritical_winds _ _ _)⟩
      · rw [ledger_emitCritical, ledger_modifyClient_of stands (fun standing => { standing with reported := true })]
        · rfl
        · exact fun _ => rfl
      · exact fun _ => rfl
  · exact .refl owner

/-! ### The hop ACK of a non-2xx final -/

theorem sendHeldAck_moves (owner : Owner) (branch : Branch) : Moves leave owner (owner.sendHeldAck branch).2 := by
  unfold sendHeldAck
  split
  · exact .refl owner
  rename_i txn found
  split
  · exact .refl owner
  rename_i ack held
  have stands := ledger_client found
  refine .client stands (.acks held) ?_
  rw [ledger_say, ledger_modifyClient_of stands (fun standing => { standing with unsentAck := none })]
  · rfl
  · exact fun _ => rfl

theorem fireAckBound_moves {opened : ℕ} : Moves leave owner (owner.fireAckBound branch opened) := by
  unfold fireAckBound
  split
  · exact sendHeldAck_moves owner branch
  · exact .refl owner

section

variable (stands : owner.ledger.clients branch = some standing)

include stands

/-- The standing of a client INVITE that took a final: what it ran stops, and its hold begins. -/
theorem ledger_takesFinal :
    (owner.stopOnFinal branch state).ledger =
      owner.ledger.setClient branch (some { standing with state, cancel := none }) := by
  obtain ⟨txn, found, rfl⟩ := Option.map_eq_some_iff.1 stands
  unfold stopOnFinal
  rw [found]
  rw [ledger_cancelTimer, ledger_cancelTimer, ledger_cancelTimer, ledger_countDroppedCancel,
    ledger_modifyClient_of stands (fun standing => { standing with state, cancel := none })]
  exact fun _ => rfl

theorem ledger_completeNon2xx :
    (owner.completeNon2xx branch).ledger =
      owner.ledger.setClient branch (some { standing with
        state := .completed, gaveUp := false, cancel := none }) := by
  unfold completeNon2xx
  rw [ledger_hold_set (ledger_takesFinal stands)]
  rfl

/-- The first ACK leaves or is held. -/
theorem ledger_ackFirstNon2xx (kept : standing.orphaned = false) {ack : Bytes × SocketAddr} :
    ∃ unsent acks, AckDisposal standing (some ack) unsent acks ∧
      (owner.ackFirstNon2xx branch ack).ledger =
        (owner.ledger.setClient branch (some { standing with unsentAck := unsent })).say acks := by
  obtain ⟨txn, found, rfl⟩ := Option.map_eq_some_iff.1 stands
  unfold ackFirstNon2xx
  rw [found]
  dsimp only
  split
  · refine ⟨some ack, [], .held ack kept, ?_⟩
    rw [ledger_armAt, Ledger.say_nil,
      ledger_modifyClient_of stands (fun standing => { standing with unsentAck := some ack })]
    exact fun _ => rfl
  · refine ⟨_, _, .sent ack, ?_⟩
    rw [ledger_say, Ledger.setClient_self stands]
    rfl

end

/-- A first non-2xx final is told, a copy of it acknowledged. -/
theorem takeNon2xxFinal_moves (found : owner.clients.get branch = some txn) (invite : txn.kind = .invite)
    (open_ : txn.state ≠ .accepted) (final : 300 ≤ resp.status) :
    Moves leave owner (owner.takeNon2xxFinal wire branch txn resp src) := by
  have stands := ledger_client found
  unfold takeNon2xxFinal
  dsimp only
  generalize non2xxAck wire txn resp = ack
  split
  · rename_i completed
    split
    · rename_i ack
      split
      · exact .refl owner
      · exact .speaks stands (.reacks ack.1 ack.2 completed) (ledger_say owner _)
    · exact .refl owner
  · rename_i uncompleted
    have event : (TransactionEvent.response resp src true).IsMatched (300 ≤ ·) := final
    have rejected : (owner.say (.rejected txn.serial ack)).ledger.clients branch = some txn.clientStanding := stands
    split
    · rename_i orphaned
      -- an orphan's ACK is never held, and its final is told to no one
      have silent : txn.clientStanding.orphaned = true := orphaned
      cases ack with
      | none =>
        refine .client stands (.rejects invite ⟨uncompleted, open_⟩ .unbuilt event) ?_
        rw [if_pos silent, ledger_completeNon2xx rejected]
        rfl
      | some ack =>
        refine .client stands (.rejects invite ⟨uncompleted, open_⟩ (.sent ack) event) ?_
        have acked : ((owner.say (.rejected txn.serial (some ack))).say (.ack txn.serial ack.1 ack.2)).ledger.clients
            branch = some txn.clientStanding := stands
        rw [if_pos silent, ledger_completeNon2xx acked]
        simp only [ledger_say, Ledger.setClient_say, Ledger.say_say]
        rfl
    · rename_i held
      have told : ¬ txn.clientStanding.orphaned = true := held
      cases ack with
      | none =>
        refine .client stands (.rejects invite ⟨uncompleted, open_⟩ .unbuilt event) ?_
        rw [if_neg told, ledger_emitCritical, ledger_completeNon2xx rejected]
        simp only [ledger_say, Ledger.setClient_say, Ledger.say_say]
        rfl
      | some ack =>
        obtain ⟨unsent, acks, disposal, acked⟩ := ledger_ackFirstNon2xx rejected (by simpa using told)
        refine .client stands (.rejects invite ⟨uncompleted, open_⟩ disposal event) ?_
        have standsThen : ((owner.say (.rejected txn.serial (some ack))).ackFirstNon2xx branch
            ack).ledger.clients branch =
            some { txn.clientStanding with unsentAck := unsent } := by
          rw [acked]
          exact Ledger.clients_setClient ..
        rw [if_neg told, ledger_emitCritical, ledger_completeNon2xx standsThen, acked]
        simp only [ledger_say, Ledger.setClient_say, Ledger.say_say, Ledger.setClient_setClient]
        rfl

/-! ### Provisionals -/

/-- A provisional is noted, and its transaction proceeds. -/
theorem ledger_proceed (found : owner.clients.get branch = some txn) :
    (owner.proceed branch txn).ledger =
      (owner.ledger.setClient branch (some { txn.clientStanding with state := .proceeding })).say
        [.provisional txn.serial] := by
  have noted : (owner.say (.provisional txn.serial)).ledger.clients branch = some txn.clientStanding :=
    ledger_client found
  unfold proceed
  split
  · rw [ledger_cancelTimer, ledger_modifyClient_of noted (fun standing => { standing with state := .proceeding })]
    · rfl
    · exact fun _ => rfl
  · rw [ledger_modifyClient_of noted (fun standing => { standing with state := .proceeding })]
    · rfl
    · exact fun _ => rfl

/-- A provisional taken: the transaction proceeds, and a CANCEL it holds leaves. It is the same transaction
    after. -/
theorem proceeded_moves (found : owner.clients.get branch = some txn) (active : txn.state.isActive)
    (same : after.ledger = (owner.proceed branch txn).ledger) :
    Moves leave owner (after.flushCancelOnProvisional branch) ∧
      ∃ standing, (after.flushCancelOnProvisional branch).ledger.clients branch = some standing ∧
        standing.serial = txn.serial := by
  have proceeded : Moves leave owner after :=
    .client (ledger_client found) (.proceeds active) (same.trans (ledger_proceed found))
  have stands : after.ledger.clients branch = some { txn.clientStanding with state := .proceeding } := by
    rw [same, ledger_proceed found]
    exact Ledger.clients_setClient ..
  obtain idle | ⟨standing, buf, dest, isStanding, parked, sent⟩ := after.flushCancelOnProvisional_cases
  · rw [idle]
    exact ⟨proceeded.then_same idle, _, stands, rfl⟩
  cases stands.symm.trans isStanding
  refine ⟨proceeded.trans (.client stands (.flushesCancel parked rfl) sent), ?_⟩
  rw [sent]
  exact ⟨_, Ledger.clients_setClient .., rfl⟩

theorem inboundTrying_goes : Goes leave mayExpire owner (owner.inboundTrying branch resp).2 := by
  unfold inboundTrying
  split
  · exact .refl owner
  rename_i txn found
  split
  · rename_i taken
    exact ⟨(proceeded_moves found taken.2.2 ledger_rearmInviteBound).1,
      ((proceed_winds found).trans (rearmInviteBound_winds _)).trans (flushCancelOnProvisional_winds _)⟩
  · exact .refl owner

theorem inboundProvisional_moves (found : owner.clients.get branch = some txn) :
    Moves leave owner (owner.inboundProvisional branch txn resp) ∧
      ∃ standing, (owner.inboundProvisional branch txn resp).ledger.clients branch = some standing ∧
        standing.serial = txn.serial := by
  unfold inboundProvisional
  split
  · rename_i active
    refine proceeded_moves found active ?_
    rw [ledger_rearmInviteBound]
    have past : ((owner.proceed branch txn).modifyClient branch ({ · with pastTrying := true })).ledger =
        (owner.proceed branch txn).ledger := ledger_modifyClient_same (fun _ _ => rfl)
    split
    · rw [ledger_noteReliableOffer, past]
    · exact past
  · exact ⟨.refl owner, _, ledger_client found, rfl⟩

theorem cancelAnswered_goes : Goes leave mayExpire owner (owner.cancelAnswered branch) := by
  unfold cancelAnswered
  split
  · exact .refl owner
  rename_i txn found
  split
  · rename_i onWire
    have stands := ledger_client found
    have isTxn : (owner.say (.cancelAnswered txn.serial)).txn (.client branch) = some txn := found
    refine ⟨?_, drops_winds isTxn .cancelRetransmit (fun _ => rfl)⟩
    cases parked : txn.heldCancel with
    | none => simp [parked] at onWire
    | some held =>
      have sent : held.wire = .sent := by simpa [parked] using onWire.2
      have holds : txn.clientStanding.cancel = some (held.buf, held.dest, .sent) := by
        simp [Transaction.clientStanding, parked, sent]
      refine .client stands (.cancelAnswered holds) ?_
      have noted : (owner.say (.cancelAnswered txn.serial)).ledger.clients branch = some txn.clientStanding := stands
      rw [ledger_cancelTimer, ledger_modifyClient_of noted (fun standing => { standing with cancel := none })]
      · rfl
      · exact fun _ => rfl
  · exact .refl owner

/-! ### A 2xx, and a released call -/

/-- The first 2xx accepts the INVITE and moots its CANCEL. -/
theorem ledger_accept2xx (found : owner.clients.get branch = some txn) (resp : SipResponse) :
    (owner.accept2xx branch resp).ledger =
      (owner.ledger.setClient branch
        (some { txn.clientStanding with state := .accepted, gaveUp := false, cancel := none })).say
          [.accepted txn.serial] := by
  have noted : (owner.say (.accepted txn.serial)).ledger.clients branch = some txn.clientStanding :=
    ledger_client found
  unfold accept2xx
  rw [found]
  rw [ledger_settleAccepted]
  refine (ledger_hold_set ((ledger_modifyClient_same ?_).trans (ledger_takesFinal noted))).trans rfl
  exact fun _ _ => clientStanding_noteDialog

theorem ledger_detachClient (stands : owner.ledger.clients branch = some standing) :
    (owner.detachFromCall (.client branch)).ledger =
      owner.ledger.setClient branch (some { standing with callRef := none }) := by
  obtain ⟨txn, found, rfl⟩ := Option.map_eq_some_iff.1 stands
  have isTxn : owner.txn (.client branch) = some txn := found
  unfold detachFromCall
  rw [isTxn, Option.bind_some]
  cases callRef : txn.callRef with
  | none =>
    refine (Ledger.setClient_self (stands.trans ?_)).symm
    simp [Transaction.clientStanding, callRef]
  | some callRef =>
    rw [ledger_quiesceIfLast, ledger_untrackCallRef]
    exact ledger_modifyClient_of stands (fun standing => { standing with callRef := none }) (fun _ => rfl)

/-- An orphan is off its call's books. -/
theorem orphan_goes (owner : Owner) (branch : Branch) : Goes leave mayExpire owner (owner.orphan branch) := by
  unfold orphan
  split
  · exact .refl owner
  rename_i txn found
  have stands := ledger_client found
  have noted : (owner.say (.released txn.serial)).ledger.clients branch = some txn.clientStanding := stands
  have marked : ((owner.say (.released txn.serial)).modifyClient branch ({ · with orphaned := true })).ledger =
      (owner.say (.released txn.serial)).ledger.setClient branch
        (some { txn.clientStanding with orphaned := true }) :=
    ledger_modifyClient_of noted (fun standing => { standing with orphaned := true }) (fun _ => rfl)
  have standsThen : ((owner.say (.released txn.serial)).modifyClient branch
      ({ · with orphaned := true })).ledger.clients branch = some { txn.clientStanding with orphaned := true } := by
    rw [marked]
    exact Ledger.clients_setClient ..
  refine ⟨.client stands .released ?_, .of_wheel ((wheel_detachFromCall _ _).trans (wheel_modifyClient_same _ ?_))⟩
  · rw [ledger_detachClient standsThen, marked, Ledger.setClient_setClient]
    rfl
  · exact fun _ => rfl

theorem doCancelTxnsForCall_goes {callRef : CallRef} :
    Goes leave mayExpire owner (owner.doCancelTxnsForCall callRef) := by
  unfold doCancelTxnsForCall
  split
  · exact .refl owner
  · exact .foldl orphan_goes _ owner

/-- The transactions at branches the owner may yet draw may leave. -/
def MayDraw (wire : Wire) (owner : Owner) (leave : ClientStanding → Prop) : Prop :=
  ∀ drawn, owner.ids ≤ drawn → owner.MayLeave leave (wire.newBranch drawn)

/-- What may be drawn may be drawn later, once more was. -/
theorem MayDraw.later (draws : owner.MayDraw wire leave) (clients : after.ledger.clients = owner.ledger.clients)
    (ids : owner.ids ≤ after.ids) : after.MayDraw wire leave := by
  intro drawn since standing stands
  rw [clients] at stands
  exact draws drawn (ids.trans since) standing stands

/-- The BYE of an orphan leaves on a branch the owner draws. -/
theorem orphanBye_branch {bye : SipRequest} (built : orphanBye wire owner txn invite resp = some (bye, dest)) :
    bye.topVia.branch = some (wire.newBranch owner.ids) := by
  unfold orphanBye at built
  split at built
  · cases built
  dsimp only at built
  split at built
  · cases built
  rename_i generated isGenerated
  obtain ⟨hop, _, pair⟩ := Option.map_eq_some_iff.1 built
  cases pair
  exact wire.bye_branch _ _ _ _ _ isGenerated

/-- A dialog nobody holds is ended with a BYE, on an orphan of its own. -/
theorem byeUnheldDialog_goes (draws : owner.MayDraw wire leave) :
    Goes leave mayExpire owner (owner.byeUnheldDialog wire branch invite resp) := by
  unfold byeUnheldDialog
  split
  · exact .refl owner
  dsimp only
  generalize isDrawn : (if invite.toTag.isNone then { owner with ids := owner.ids + 1 } else owner) = next
  have same : next.ledger = owner.ledger := by
    rw [← isDrawn]
    split <;> rfl
  have ids : owner.ids ≤ next.ids := by
    rw [← isDrawn]
    split
    · exact Nat.le_succ _
    · exact le_rfl
  have drawn : Goes leave mayExpire owner next := by
    refine .of_same same ?_
    rw [← isDrawn]
    split <;> rfl
  split
  · exact drawn
  rename_i bye dest built
  have may : next.MayLeave leave (sentBranch wire next bye) := by
    have drawable := draws.later (congrArg Ledger.clients same) ids
    unfold sentBranch Via.namedBranch
    rw [orphanBye_branch built]
    by_cases empty : wire.newBranch owner.ids = ""
    · simpa [Option.filter, empty] using drawable next.ids le_rfl
    intro standing stands
    rw [same] at stands
    exact draws owner.ids le_rfl standing (by simpa [Option.filter, empty] using stands)
  exact (drawn.trans (doSendRequest_goes (fun _ _ => may))).trans (orphan_goes _ _)

/-- A 2xx on an orphan draws its ACK, and a BYE. -/
theorem release2xx_goes (draws : owner.MayDraw wire leave) :
    Goes leave mayExpire owner (owner.release2xx wire branch resp) := by
  unfold release2xx
  split
  · exact .refl owner
  dsimp only
  generalize isNoted : owner.modifyClient branch (·.noteDialog resp.toTag) = noted
  have same : noted.ledger = owner.ledger := by
    rw [← isNoted, ledger_modifyClient_same]
    exact fun txn _ => clientStanding_noteDialog
  have ids : noted.ids = owner.ids := by rw [← isNoted]; rfl
  have notes : Goes leave mayExpire owner noted := by
    refine .of_same same ?_
    rw [← isNoted]
    exact wheel_modifyClient_same owner fun txn => hands_noteDialog
  split
  · exact notes
  split
  · exact notes.trans (.remarks trivial)
  · exact notes
  · split
    · exact notes.trans (.of_same rfl rfl)
    rename_i ack dest _
    have drawn : Goes leave mayExpire owner { noted with ids := noted.ids + 1 } := notes.trans (.of_same rfl rfl)
    have acked : Goes leave mayExpire owner (say { noted with ids := noted.ids + 1 } (.raw ack dest)) :=
      drawn.trans (.remarks trivial)
    split
    · exact acked
    have kept : (modifyClient (say { noted with ids := noted.ids + 1 } (.raw ack dest)) branch
        (·.updateDialog resp.toTag ({ · with ack := some (ack, dest) }))).ledger =
        (say { noted with ids := noted.ids + 1 } (.raw ack dest)).ledger :=
      ledger_modifyClient_same (fun txn _ => clientStanding_updateDialog)
    have keeps := acked.trans (.of_same kept (wheel_modifyClient_same _ fun txn => hands_updateDialog))
    split
    · exact keeps
    refine keeps.trans (byeUnheldDialog_goes (draws.later ?_ ?_))
    · rw [kept]
      change noted.ledger.clients = owner.ledger.clients
      rw [same]
    · change owner.ids ≤ noted.ids + 1
      omega

/-! ### An inbound response -/

@[simp] theorem ids_cancelTimer {key : Option TimerKey} : (owner.cancelTimer key).ids = owner.ids := by
  cases key <;> rfl

@[simp] theorem ids_countDroppedCancel : (owner.countDroppedCancel txn).ids = owner.ids := by
  unfold countDroppedCancel
  split <;> rfl

@[simp] theorem ids_stopOnFinal : (owner.stopOnFinal branch state).ids = owner.ids := by
  unfold stopOnFinal
  split
  · rfl
  · simp [modifyClient]

@[simp] theorem ids_hold_client {why : Hold} : (owner.hold (.client branch) why).ids = owner.ids := by
  unfold hold holdFor armDeadline
  dsimp only
  split
  · rfl
  · exact ids_cancelTimer

@[simp] theorem ids_settleAccepted : (owner.settleAccepted branch).ids = owner.ids := by
  unfold settleAccepted
  split
  · rfl
  split
  · rfl
  unfold quiesceIfLast
  split
  · split <;> rfl
  · rfl

/-- Accepting a 2xx draws no branch. -/
theorem ids_accept2xx (owner : Owner) (branch : Branch) (resp : SipResponse) :
    (owner.accept2xx branch resp).ids = owner.ids := by
  unfold accept2xx
  split
  · rfl
  rw [ids_settleAccepted, ids_hold_client]
  exact ids_stopOnFinal

section

variable (asks : AsksAck leave) (draws : owner.MayDraw wire leave)

include asks draws

/-- Accepting a 2xx changes no condition on leaving. -/
theorem MayDraw.accepted (found : owner.clients.get branch = some txn) (resp : SipResponse) :
    (owner.accept2xx branch resp).MayDraw wire leave := by
  have ids := ids_accept2xx owner branch resp
  intro drawn since standing stands
  rw [ledger_accept2xx found, Ledger.clients_say] at stands
  by_cases same : wire.newBranch drawn = branch
  · rw [same, Ledger.clients_setClient] at stands
    cases stands
    have before : owner.ledger.clients (wire.newBranch drawn) = some txn.clientStanding := same ▸ ledger_client found
    exact asks.steady _ _ (draws drawn (ids ▸ since) _ before) rfl rfl
  · exact draws drawn (ids ▸ since) standing ((Function.update_of_ne same _ _).symm.trans stands)

theorem matchedResponse_goes (found : owner.clients.get branch = some txn) :
    Goes leave mayExpire owner (owner.matchedResponse wire branch txn resp src reoffer) := by
  have stands := ledger_client found
  unfold matchedResponse
  split
  · split
    · exact release2xx_goes draws
    · exact .refl owner
  rename_i open_
  split
  · rename_i provisional
    obtain ⟨taken, standing, standsThen, serial⟩ := inboundProvisional_moves found
    have wound : Winds mayExpire _ _ := inboundProvisional_winds found resp
    split
    · rw [← serial]
      refine ⟨taken.trans (.speaks standsThen (.handsUp ?_) (ledger_emit _ _ _)), wound.trans (emit_winds _ _ _)⟩
      exact provisional
    · exact ⟨taken, wound⟩
  · rename_i final
    split
    · rename_i invite
      split
      · rename_i rejected
        exact ⟨takeNon2xxFinal_moves found invite open_ rejected, takeNon2xxFinal_winds owner⟩
      rename_i success
      have event : (TransactionEvent.response resp src true).IsMatched
          (fun status => 200 ≤ status ∧ status < 300) := ⟨not_lt.1 final, not_le.1 success⟩
      split
      · rename_i orphaned
        have silent : txn.clientStanding.orphaned = true := orphaned
        have accepted : Goes leave mayExpire owner (owner.accept2xx branch resp) :=
          ⟨.client stands (.accepts invite open_ event) (by rw [ledger_accept2xx found, if_pos silent]; rfl),
            accept2xx_winds owner⟩
        exact accepted.trans (release2xx_goes (draws.accepted asks found resp))
      · rename_i held
        have told : ¬ txn.clientStanding.orphaned = true := held
        refine ⟨.client stands (.accepts invite open_ event) ?_,
          (accept2xx_winds owner).trans (emitCritical_winds _ _ _)⟩
        rw [ledger_emitCritical, ledger_accept2xx found, if_neg told, Ledger.say_say]
        rfl
    · rename_i nonInvite
      have event : (TransactionEvent.response resp src true).IsMatched (200 ≤ ·) := not_lt.1 final
      refine ⟨.clientLeaves stands (.ends nonInvite open_ event (asks.nonInvite _ nonInvite)) ?_, ?_⟩
      swap
      · split
        · exact deleteTxn_winds owner
        · exact (deleteTxn_winds owner).trans (emitCritical_winds _ _ _)
      have gone : (owner.deleteTxn (.client branch)).2.ledger =
          (owner.ledger.setClient branch none).owe (owedBy txn.clientStanding.serial txn.clientStanding.answers) :=
        ledger_deleteTxn_client found
      by_cases orphaned : txn.orphaned = true
      · have silent : txn.clientStanding.orphaned = true := orphaned
        rw [if_pos orphaned, if_pos silent, gone, Ledger.say_nil]
      have told : ¬ txn.clientStanding.orphaned = true := orphaned
      rw [if_neg orphaned, if_neg told, ledger_emitCritical, gone]
      rfl

theorem inboundResponse_goes : Goes leave mayExpire owner (owner.inboundResponse wire resp src reoffer).2 := by
  have handedUp (owner : Owner) :
      Goes leave mayExpire owner (if reoffer then owner else (owner.emit none (.response resp src false)).2) := by
    split
    · exact .refl owner
    · exact emit_goes
  unfold inboundResponse
  dsimp only
  split
  · exact inboundTrying_goes
  split
  · exact handedUp owner
  split
  · exact cancelAnswered_goes.trans (handedUp _)
  split
  · exact handedUp owner
  rename_i txn isMatch
  exact matchedResponse_goes asks draws (Option.filter_eq_some_iff.1 isMatch).1

end

end Owner

end SipServer.Txn
