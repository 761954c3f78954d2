/-
Module: SipServer.Proofs.TxnWheelTurn
Purpose: Every function of the owner, and so every run of the layer, keeps to the steps of the wheel and the
  queue.
-/
import SipServer.Proofs.TxnWheel
import SipServer.Txn.Turn

namespace SipServer.Txn

open SipServer.Lib SipServer.Retransmit

namespace Owner

variable {mayExpire : Prop} (owner : Owner)

variable {branch : Branch} {key : TimerKey}

variable {wire : Wire} {callRef : CallRef} {resp : SipResponse} {dest src : SocketAddr} {txn : Transaction}
variable {req : SipRequest} {opened : ℕ} {id : TxnId} {toTag : Option Tag} {due status : ℕ} {timer : Timer}
    {buf : Bytes}
  {swept : SweptServer} {msg : SipResponse} {state : TxnState} {kind : TxnKind} {reoffer : Bool}

theorem hands_noteDialog : (txn.noteDialog toTag).hands = txn.hands := by
  unfold Transaction.noteDialog
  split <;> rfl

theorem hands_updateDialog {change : InviteDialog → InviteDialog} :
    (txn.updateDialog toTag change).hands = txn.hands :=
  hands_noteDialog

/-! ### The CANCEL of a client INVITE -/

/-- The resend of a seeded INVITE is filed. -/
theorem releaseSeedResend_winds : Winds mayExpire owner (owner.releaseSeedResend branch) := by
  unfold releaseSeedResend
  split
  · exact .refl owner
  split
  · exact .refl owner
  split
  · exact .refl owner
  refine (modifyClient_winds owner ?_).trans (storesClient_winds _ .retransmit 0 rfl nofun ?_)
  · exact fun _ => rfl
  · exact fun _ => rfl

theorem armCancelRetransmit_winds : Winds mayExpire owner (owner.armCancelRetransmit branch) := by
  unfold armCancelRetransmit
  split
  · exact .refl owner
  split
  · refine storesClient_winds owner .cancelRetransmit _ rfl nofun ?_
    exact fun _ => rfl
  · exact .refl owner

theorem holdGaveUp_winds : Winds mayExpire owner (owner.hold (.client branch) .gaveUp) :=
  hold_winds owner (by decide)

/-- A held CANCEL leaves, and its retransmit is filed. -/
theorem flushCancelOnProvisional_winds : Winds mayExpire owner (owner.flushCancelOnProvisional branch) := by
  unfold flushCancelOnProvisional
  split
  · exact .refl owner
  split
  · exact .refl owner
  split
  · exact .refl owner
  rename_i txn _ _ held _ _ _
  have parks : Winds mayExpire owner (owner.modifyClient branch
      ({ · with heldCancel := some { held with wire := .sent } })) := modifyClient_winds owner fun _ => rfl
  generalize owner.modifyClient branch _ = parked at parks ⊢
  have heldOn : Winds mayExpire owner (if txn.lifetime.gaveUp then parked.hold (.client branch) .gaveUp
      else parked) := by
    split
    · exact parks.trans (holdGaveUp_winds parked)
    · exact parks
  refine Winds.trans ?_ (armCancelRetransmit_winds _)
  exact heldOn.then_same rfl

/-- A CANCEL held may release the resend of its seed. -/
theorem holdCancel_winds : Winds mayExpire owner (owner.holdCancel branch buf dest) := by
  unfold holdCancel
  split
  · exact .refl owner
  rename_i txn _
  refine Winds.trans ?_ (releaseSeedResend_winds _)
  have parked : Winds mayExpire owner ((owner.say (.cancelHanded txn.serial)).modifyClient branch
      ({ · with heldCancel := some ⟨buf, dest, .held, none⟩ })) := modifyClient_winds (owner.say _) fun _ => rfl
  split
  · exact parked
  · exact parked

/-- A CANCEL sent files its retransmit. -/
theorem sendCancel_winds : Winds mayExpire owner (owner.sendCancel branch buf dest) := by
  unfold sendCancel
  split
  · exact .refl owner
  rename_i txn _
  dsimp only
  generalize isParked : modifyClient _ branch _ = parked
  have parks : Winds mayExpire owner parked := by
    rw [← isParked]
    exact modifyClient_winds _ fun _ => rfl
  have sent : Winds mayExpire owner ((parked.say (.cancel txn.serial buf dest)).armCancelRetransmit branch) :=
    parks.trans (armCancelRetransmit_winds (parked.say _))
  split
  · exact sent.trans (holdGaveUp_winds _)
  · exact sent

/-! ### The send of a request -/

/-- A request sent files its retransmit and its timeout. -/
theorem startClientRetransmit_winds {maxMs : ℕ}
    {timeoutKind : TxnTimeoutKind} : Winds mayExpire owner
      (owner.startClientRetransmit branch buf dest maxMs timeoutKind) := by
  unfold startClientRetransmit
  split
  · exact .refl owner
  dsimp only
  split
  · exact .refl owner
  refine storesBoth_winds owner .retransmit .timeout _ _ rfl rfl nofun nofun ?_
  exact fun _ => rfl

theorem noteDialogCseq_winds (callRef : Option CallRef) (req : SipRequest) :
    Winds mayExpire owner (owner.noteDialogCseq callRef req) := by
  unfold noteDialogCseq
  split
  · refine .foldl (fun owner branch => modifyClient_winds owner fun txn => ?_) _ owner
    split
    · exact hands_updateDialog
    · rfl
  · exact .refl owner

theorem noteTuAck_winds {ack : SipRequest} : Winds mayExpire owner (owner.noteTuAck ack dest) := by
  unfold noteTuAck
  split
  · exact .refl owner
  dsimp only
  split
  · exact .refl owner
  · exact modifyClient_winds owner fun txn => hands_updateDialog

/-! ### Timers of a client transaction -/

/-- An INVITE given up is held, any other request leaves. -/
theorem giveUp_winds : Winds mayExpire owner (owner.giveUp branch) := by
  unfold giveUp
  split
  · exact .refl owner
  rename_i txn found
  split
  · have isTxn : owner.txn (.client branch) = some txn := found
    exact (drops_winds isTxn .retransmit (fun _ => rfl)).trans (holdGaveUp_winds _)
  · exact deleteTxn_winds owner

theorem fireTimeout_winds : Winds mayExpire owner (owner.fireTimeout branch) := by
  unfold fireTimeout
  split
  · split
    · exact giveUp_winds owner
    · exact (giveUp_winds owner).trans (emitCritical_winds _ _ _)
  · exact .refl owner

theorem rearmInviteBound_winds : Winds mayExpire owner (owner.rearmInviteBound branch) := by
  unfold rearmInviteBound
  split
  · exact .refl owner
  rename_i txn found
  split
  · have isTxn : owner.txn (.client branch) = some txn := found
    refine (drops_winds isTxn .timeout (fun _ => rfl)).trans (storesClient_winds _ .timeout _ rfl nofun ?_)
    exact fun _ => rfl
  · exact .refl owner

/-! ### The hop ACK -/

theorem sendHeldAck_winds : Winds mayExpire owner (owner.sendHeldAck branch).2 := by
  unfold sendHeldAck
  split
  · exact .refl owner
  split
  · exact .refl owner
  refine .step (.acks branch) ?_
  exact @wheel_modifyTxn owner (.client branch) _ ({ · with owesAck := false }) (fun _ _ => rfl)

theorem wheel_stopOnFinal : (owner.stopOnFinal branch state).wheel = owner.wheel.stop branch := by
  unfold stopOnFinal
  cases found : owner.clients.get branch with
  | none =>
    have absent : owner.wheel.txns (.client branch) = none := wheel_txn_none found
    simp [Wheel.stop, Wheel.drop, absent]
  | some txn =>
    have stands : owner.wheel.txns (.client branch) = some txn.hands := wheel_txn found
    rw [Wheel.stop_eq stands, wheel_cancelTimer, wheel_cancelTimer, wheel_cancelTimer, wheel_countDroppedCancel]
    refine congrArg (fun wheel : Wheel => ((wheel.cancel _).cancel _).cancel _) ?_
    exact @wheel_modifyTxn owner (.client branch) _ (fun hands =>
      ((hands.setKey .retransmit none).setKey .timeout none).setKey .cancelRetransmit none) (fun _ _ => rfl)

/-- A final stops the retransmits, the timeout and the CANCEL. -/
theorem stopOnFinal_winds (branch : Branch) (state : TxnState) :
    Winds mayExpire owner (owner.stopOnFinal branch state) := by
  unfold Winds
  rw [wheel_stopOnFinal]
  exact .tail (.tail (.single (.drops _ _)) (.drops _ _)) (.drops _ _)

theorem completeNon2xx_winds : Winds mayExpire owner (owner.completeNon2xx branch) :=
  (stopOnFinal_winds owner branch .completed).trans (hold_winds _ (Nat.le_refl timerD))

/-- A first non-2xx final, its ACK sent or held. -/
theorem ackThenComplete_winds {ack : Bytes × SocketAddr} :
    Winds mayExpire owner ((owner.ackFirstNon2xx branch ack).completeNon2xx branch) := by
  unfold ackFirstNon2xx
  split
  · exact completeNon2xx_winds (owner.say _)
  rename_i txn found
  split
  · generalize isHolding : owner.modifyClient branch ({ · with unsentAck := some ack }) = holding
    have holds : holding.wheel = owner.wheel.modify (.client branch) ({ · with owesAck := true }) := by
      rw [← isHolding]
      exact @wheel_modifyTxn owner (.client branch) _ ({ · with owesAck := true }) (fun _ _ => rfl)
    have now : holding.now = owner.now := by rw [← isHolding]; rfl
    have config : holding.config = owner.config := by rw [← isHolding]; rfl
    generalize isDue : holding.wheel.cleanupDue (deadlineAfter holding.now holding.config.ackBoundMs) = due
    have soon : due ≤ owner.wheel.now + owner.wheel.ackBound := by
      have same : holding.wheel.now = owner.now := now
      rw [← isDue, now, config]
      unfold Wheel.cleanupDue deadlineAfter
      rw [same]
      change owner.now + _ ≤ owner.now + owner.config.ackBoundMs
      omega
    have owes : (holding.armAt (.ackBound branch txn.createdAt)
        (deadlineAfter holding.now holding.config.ackBoundMs)).2.wheel = owner.wheel.owe branch due := by
      rw [wheel_armAt, isDue, holds]
      unfold Wheel.owe
      rw [show owner.wheel.txns (.client branch) = some txn.hands from wheel_txn found]
      rfl
    refine .step (.rejects branch soon) ?_
    unfold completeNon2xx hold
    rw [wheel_holdFor, wheel_stopOnFinal, owes]
    rfl
  · exact completeNon2xx_winds (owner.say _)

/-- A non-2xx final completes the INVITE, and may owe its ACK. -/
theorem takeNon2xxFinal_winds : Winds mayExpire owner (takeNon2xxFinal wire owner branch txn resp src) := by
  unfold takeNon2xxFinal
  dsimp only
  split
  · split
    · split
      · exact .refl owner
      · exact .of_wheel (wheel_say owner _)
    · exact .refl owner
  · split
    · split
      · exact completeNon2xx_winds ((owner.say _).say _)
      · exact completeNon2xx_winds (owner.say _)
    · split
      · exact (ackThenComplete_winds (owner.say _)).trans (emitCritical_winds _ _ _)
      · exact (completeNon2xx_winds (owner.say _)).trans (emitCritical_winds _ _ _)

/-! ### Accepted and orphaned -/

theorem accept2xx_winds : Winds mayExpire owner (owner.accept2xx branch resp) := by
  unfold accept2xx
  split
  · exact .refl owner
  rename_i txn found
  have stopped : Winds mayExpire _ _ := stopOnFinal_winds (owner.say (.accepted txn.serial)) branch .accepted
  generalize (owner.say (.accepted txn.serial)).stopOnFinal branch .accepted = stopped at *
  refine Winds.then_same ?_ (wheel_settleAccepted _)
  refine Winds.trans ?_ (hold_winds _ (by decide))
  refine stopped.then_same (wheel_modifyClient_same _ fun txn => ?_)
  exact hands_noteDialog

theorem noteReliableOffer_winds : Winds mayExpire owner (owner.noteReliableOffer branch resp) := by
  unfold noteReliableOffer
  split
  · exact .refl owner
  split
  · refine modifyClient_winds owner fun txn => ?_
    split <;> rfl
  · exact .refl owner

theorem wheel_detachFromCall (id : TxnId) : (owner.detachFromCall id).wheel = owner.wheel := by
  unfold detachFromCall
  split
  · rfl
  rw [wheel_quiesceIfLast, wheel_untrackCallRef]
  exact wheel_modifyTxn_same owner fun _ _ => rfl

/-! ### An inbound response -/

theorem proceed_winds {owner : Owner} (found : owner.clients.get branch = some txn) :
    Winds mayExpire owner (owner.proceed branch txn) := by
  unfold proceed
  split
  · have isTxn : (owner.say (.provisional txn.serial)).txn (.client branch) = some txn := found
    exact drops_winds isTxn .retransmit fun _ => rfl
  · exact modifyClient_winds (owner.say _) fun _ => rfl

theorem inboundProvisional_winds {owner : Owner} (found : owner.clients.get branch = some txn) (resp : SipResponse) :
    Winds mayExpire owner (owner.inboundProvisional branch txn resp) := by
  unfold inboundProvisional
  split
  · generalize isPast : modifyClient _ branch _ = past
    have proceeded : Winds mayExpire owner past := by
      rw [← isPast]
      refine (proceed_winds found).then_same (wheel_modifyClient_same _ ?_)
      exact fun _ => rfl
    have noted : Winds mayExpire owner (if txn.kind = .invite then past.noteReliableOffer branch resp else past) := by
      split
      · exact proceeded.trans (noteReliableOffer_winds past)
      · exact proceeded
    exact (noted.trans (rearmInviteBound_winds _)).trans (flushCancelOnProvisional_winds _)
  · exact .refl owner

/-! ### Server transactions -/

theorem wheel_recordUasTag {key : ServerTxnKey} : (owner.recordUasTag key resp).wheel = owner.wheel := by
  unfold recordUasTag
  split
  · split
    · exact wheel_modifyServer_same owner fun _ => rfl
    · rfl
  · rfl

theorem wheel_uasToTagOf (wire : Wire) (key : ServerTxnKey) : (owner.uasToTagOf wire key).2.wheel = owner.wheel := by
  unfold uasToTagOf
  dsimp only
  split
  · rfl
  split
  · exact wheel_modifyServer_same owner fun _ => rfl
  · exact wheel_modifyServer_same { owner with ids := owner.ids + 1 } (fun _ => rfl)

/-- A final sent is held, and a non-2xx to an INVITE retransmitted. -/
theorem armFinalHold_winds {key : ServerTxnKey} :
    Winds mayExpire owner (owner.armFinalHold key kind status) := by
  unfold armFinalHold
  dsimp only
  generalize isHeld : hold _ _ _ = held
  have holds : Winds mayExpire owner held := by
    rw [← isHeld]
    exact holdServer_winds owner
  split
  · split
    · exact holds
    refine holds.trans (storesServer_winds _ .retransmit _ rfl nofun ?_)
    exact fun _ => rfl
  · exact holds

theorem cacheResponse_winds {key : ServerTxnKey} :
    Winds mayExpire owner (owner.cacheResponse key txn status msg) := by
  unfold cacheResponse
  dsimp only
  generalize isCached : modifyServer _ key _ = cached
  have same : cached.wheel = owner.wheel := by
    rw [← isCached]
    refine (wheel_modifyServer_same _ ?_).trans (wheel_recordUasTag owner)
    exact fun _ => rfl
  split
  · exact (Winds.of_wheel same).trans (armFinalHold_winds (cached.say _))
  · exact .of_wheel same

theorem holdForTimerI_winds {key : ServerTxnKey} : Winds mayExpire owner (owner.holdForTimerI key) := by
  unfold holdForTimerI
  split
  · exact .refl owner
  rename_i txn found
  have isTxn : owner.txn (.server key) = some txn := found
  refine Winds.then_same ?_ (wheel_detachFromCall _ _)
  exact (drops_winds isTxn .retransmit (fun _ => rfl)).trans (holdServer_winds _)

theorem waiveHeldFinal_winds {key : ServerTxnKey} : Winds mayExpire owner (owner.waiveHeldFinal key) :=
  modifyServer_winds owner fun _ => rfl

/-! ### An inbound request -/

theorem armTryingBound_winds (key : ServerTxnKey) (opened : ℕ) :
    Winds mayExpire owner (owner.armTryingBound key opened) := by
  have other : Timer.trying key opened ≠ .eventRetry := nofun
  exact arms_winds owner rfl other

/-! ### Seeds -/

/-- A client INVITE seeded with its bound already filed. -/
theorem openSeeded_winds {owner : Owner} (absent : owner.clients.get branch = none) {head : NewTransaction}
    (named : head.id = .client branch) {ms : ℕ} {finish : Transaction → Transaction}
    (keeps : ∀ txn, (finish txn).id = txn.id)
    (acts : ∀ txn, (finish txn).hands = txn.hands.setKey .timeout (some owner.timers.freshKey)) :
    Winds mayExpire owner ((owner.arm (.clientTimeout branch) ms).2.openTxnWith head finish) := by
  have free : owner.wheel.txns (.client branch) = none := wheel_txn_none absent
  have filed : Winds mayExpire owner (owner.arm (.clientTimeout branch) ms).2 := by
    have stores : Wheel.Step mayExpire owner.wheel
        (owner.wheel.store (.client branch) .timeout (.clientTimeout branch) (owner.now + min ms maxDelay)) :=
      .stores _ rfl nofun
    rw [Wheel.store_absent free] at stores
    exact .step stores rfl
  refine filed.trans (.step (.enters ?_ ?_ ?_) (wheel_openTxnWith _ named keeps))
  · rw [acts]
    rfl
  · rw [acts]
    exact deadlineAfter_le _ _
  · intro slot key stored
    rw [acts] at stored
    cases slot with
    | timeout =>
      cases stored
      exact ⟨free, _, _, (DelayQueue.get_insert ..).trans (if_pos rfl), rfl⟩
    | retransmit | cleanup | cancelRetransmit => cases stored

theorem wheel_takeFinal {key : ServerTxnKey} : (owner.takeFinal key resp state).wheel = owner.wheel := by
  unfold takeFinal
  split
  · rfl
  exact wheel_modifyServer_same (owner.say _) fun _ => rfl

theorem wheel_takeFinal_recorded {key : ServerTxnKey} :
    ((owner.recordUasTag key resp).takeFinal key resp state).wheel = owner.wheel :=
  (wheel_takeFinal _).trans (wheel_recordUasTag owner)

theorem accept_winds {key : ServerTxnKey} : Winds mayExpire owner (owner.accept key resp) :=
  (Winds.of_wheel (wheel_takeFinal_recorded owner)).trans (holdServer_winds _)

/-! ### Relinquishing -/

/-- A call relinquished takes its transactions with it. -/
theorem relinquishCall_winds : Winds mayExpire owner (owner.relinquishCall callRef) := by
  have unwatched : Winds mayExpire owner
      { owner with selfReleaseWatch := owner.selfReleaseWatch.erase callRef } := .of_wheel rfl
  refine Winds.trans ?_ (.foldl (fun owner key => deleteTxn_winds owner) _ _)
  refine Winds.trans ?_ (.foldl (fun owner branch => deleteTxn_winds owner) _ _)
  refine Winds.trans ?_ (.foldl (fun owner key => waiveHeldFinal_winds owner) _ _)
  exact unwatched.trans (.foldl (fun owner branch => sendHeldAck_winds owner) _ _)

/-! ### A turn -/

/-- The identity of a transaction that leaves unanswered is that of a server one still active. -/
theorem unanswered_cases {owner : Owner} (unanswered : owner.unanswered id = some swept) :
    ∃ key txn backstop, id = .server key ∧ owner.servers.get key = some txn ∧ txn.lifetime = .active backstop ∧
      swept = ⟨key, txn.callId, txn.fromTag⟩ := by
  unfold Owner.unanswered at unanswered
  split at unanswered
  · rename_i key txn found
    split at unanswered
    · rename_i backstop active
      exact ⟨key, txn, backstop, rfl, found, active, (Option.some.inj unanswered).symm⟩
    · cases unanswered
  · cases unanswered

/-- What expires unanswered leaves, and its events are swept. -/
theorem wheel_expire_unanswered {owner : Owner}
    (unanswered : owner.unanswered id = some swept) :
    (owner.expire id).wheel = (owner.wheel.leave id).sweep swept := by
  unfold expire
  rw [unanswered]
  exact congrArg (Wheel.sweep · swept) (wheel_deleteTxn owner)

/-- A transaction past its deadline goes, where one may. -/
theorem expire_winds (expires : mayExpire) : Winds mayExpire owner (owner.expire id) := by
  cases unanswered : owner.unanswered id with
  | none =>
    unfold expire
    rw [unanswered]
    exact deleteTxn_winds owner
  | some swept =>
    obtain ⟨key, txn, backstop, rfl, found, active, rfl⟩ := unanswered_cases unanswered
    have stands : owner.wheel.txns (.server key) = some txn.hands := wheel_txn found
    exact .step (.sweeps stands active expires) (wheel_expire_unanswered unanswered)

/-- The owner with one entry off its wheel. -/
def unarmed (key : TimerKey) : Owner := { owner with timers := owner.timers.remove key }

/-- A stored entry fires: it leaves the wheel and its slot is cleared. -/
theorem fires_winds {owner : Owner} {slot : Slot}
    (filed : owner.timers.get key = some (due, timer)) (own : timer.slot = some (slot, id))
    {change : Transaction → Transaction} (acts : ∀ txn, (change txn).hands = txn.hands.setKey slot none) :
    Winds mayExpire owner ((owner.unarmed key).modifyTxn id change) := by
  refine .step (.fires filed ?_ ?_) ?_
  · rintro rfl
    cases own
  · rintro branch opened rfl
    cases own
  · rw [wheel_modifyTxn _ (·.setKey slot none) (fun txn _ => acts txn)]
    unfold Wheel.fire
    rw [own]
    rfl

/-- A loose entry fires. -/
theorem firesLoose_winds {owner : Owner} (filed : owner.timers.get key = some (due, timer))
    (loose : timer.slot = none) (other : timer ≠ .eventRetry)
    (noBound : ∀ branch opened, timer ≠ .ackBound branch opened) : Winds mayExpire owner (owner.unarmed key) := by
  refine .step (.fires filed other noBound) ?_
  unfold Wheel.fire
  rw [loose]
  rfl

/-- The bound of an ACK, as the hands of the transaction it was armed for see it. -/
theorem wheel_fireAckBound :
    (owner.fireAckBound branch opened).wheel = owner.wheel.modify (.client branch)
      (fun hands => if hands.createdAt = opened then { hands with owesAck := false } else hands) := by
  unfold fireAckBound sendHeldAck
  cases found : owner.clients.get branch with
  | none =>
    have absent : owner.wheel.txns (.client branch) = none := wheel_txn_none found
    refine (Wheel.modify_self owner.wheel fun hands stands => ?_).symm
    cases absent.symm.trans stands
  | some txn =>
    have stands : owner.wheel.txns (.client branch) = some txn.hands := wheel_txn found
    by_cases isOpened : txn.createdAt = opened
    · simp only [Option.any_some, isOpened, decide_true, if_true]
      split
      · rename_i none
        refine (Wheel.modify_self owner.wheel fun hands standsToo => ?_).symm
        cases stands.symm.trans standsToo
        refine (if_pos isOpened).trans ?_
        simp [Transaction.hands, none]
      · refine @wheel_modifyTxn owner (.client branch) _ _ (fun same isTxn => ?_)
        cases found.symm.trans isTxn
        exact (if_pos isOpened).symm
    · simp only [Option.any_some, isOpened, decide_false, Bool.false_eq_true, if_false]
      refine (Wheel.modify_self owner.wheel fun hands standsToo => ?_).symm
      cases stands.symm.trans standsToo
      exact if_neg isOpened

/-- The bound of a held ACK fires, and the ACK of the transaction it was armed for leaves. -/
theorem firesBound_winds {owner : Owner} (filed : owner.timers.get key = some (due, .ackBound branch opened)) :
    Winds mayExpire owner ((owner.unarmed key).fireAckBound branch opened) :=
  .step (.firesBound filed) (wheel_fireAckBound (owner.unarmed key))

/-- The retry tick. -/
theorem wheel_flushDeferred (key : TimerKey) :
    { owner.unarmed key with eventRetryArmed := false }.flushDeferred.wheel = owner.wheel.tick key := by
  have flushes := wheel_reoffer { owner.unarmed key with eventRetryArmed := false } owner.deferredEvents
  change wheel (if (reoffer _ owner.deferredEvents).deferredEvents.isEmpty then
    { reoffer _ owner.deferredEvents with eventRetryArmed := false }
      else (reoffer _ owner.deferredEvents).armEventRetry) = _
  generalize reoffer _ owner.deferredEvents = flushed at flushes ⊢
  have deferred : flushed.deferredEvents = owner.deferredEvents.drop owner.wheel.room :=
    congrArg Wheel.deferred flushes
  rw [deferred]
  change _ = if (owner.deferredEvents.drop owner.wheel.room).isEmpty then _ else _
  split
  · exact congrArg (fun wheel : Wheel => { wheel with armed := false }) flushes
  · exact (wheel_armEventRetry flushed).trans (congrArg Wheel.armRetry flushes)

/-- The transactions that reach their deadline, or are reaped past it, as something happens. -/
def expiring (owner : Owner) : OwnerEvent → List TxnId
  | .turn (.timer key) =>
    match owner.timers.get key with
    | some (_, .cleanup id) => [id]
    | _ => []
  | .turn .sweep => owner.overdue
  | _ => []

end Owner

end SipServer.Txn
