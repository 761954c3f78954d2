/-
Module: SipServer.Proofs.TxnLedgerServer
Purpose: The server transactions keep to the ledger and to the wheel: every function of the server side makes
  only moves the ledger allows, and steps of the wheel and the queue.
-/
import SipServer.Proofs.TxnWheelTurn

namespace SipServer.Txn

open SipServer.Retransmit

namespace Owner

variable {leave : ClientStanding → Prop} {mayExpire : Prop} {owner : Owner} {key : ServerTxnKey} {txn : Transaction}

variable {wire : Wire} {req : SipRequest} {src : SocketAddr} {standing : ServerStanding} {judgement : Judgement}
  {dest : SocketAddr} {status : ℕ} {msg : SipResponse} {callRef : CallRef}

/-! ### What the ledger does not see -/

theorem ledger_modifyServer_of (stands : owner.ledger.servers key = some standing)
    {change : Transaction → Transaction}
    (acts : ServerStanding → ServerStanding) (same : ∀ txn, (change txn).serverStanding = acts txn.serverStanding) :
    (owner.modifyServer key change).ledger = owner.ledger.setServer key (some (acts standing)) := by
  obtain ⟨txn, found, rfl⟩ := Option.map_eq_some_iff.1 stands
  rw [ledger_modifyServer, found, Option.map_some, same]

@[simp] theorem ledger_recordUasTag (owner : Owner) (key : ServerTxnKey) (resp : SipResponse) :
    (owner.recordUasTag key resp).ledger = owner.ledger := by
  unfold recordUasTag
  split
  · split
    · rw [ledger_rememberUasTag, ledger_modifyServer_same]
      exact fun _ _ => rfl
    · rfl
  · rfl

@[simp] theorem ledger_uasToTagOf (wire : Wire) (owner : Owner) (key : ServerTxnKey) :
    (owner.uasToTagOf wire key).2.ledger = owner.ledger := by
  unfold uasToTagOf
  dsimp only
  split
  · rfl
  split
  · exact ledger_modifyServer_same fun _ _ => rfl
  refine (ledger_modifyServer_same ?_).trans (ledger_ids owner)
  exact fun _ _ => rfl

theorem uasToTagOf_goes : Goes leave mayExpire owner (owner.uasToTagOf wire key).2 :=
  .of_same (ledger_uasToTagOf wire owner key) (wheel_uasToTagOf owner wire key)

@[simp] theorem ledger_armFinalHold (owner : Owner) (key : ServerTxnKey) (kind : TxnKind) (status : ℕ) :
    (owner.armFinalHold key kind status).ledger = owner.ledger := by
  unfold armFinalHold
  dsimp only
  split
  · split
    · exact ledger_hold_server ..
    rw [ledger_modifyServer_same, ledger_arm, ledger_hold_server]
    exact fun _ _ => rfl
  · exact ledger_hold_server ..

@[simp] theorem ledger_detachServer : (owner.detachFromCall (.server key)).ledger = owner.ledger := by
  unfold detachFromCall
  split
  · rfl
  rw [ledger_quiesceIfLast, ledger_untrackCallRef]
  exact ledger_modifyServer_same fun _ _ => rfl

/-! ### Responses through a server transaction -/

/-- Timer G sends the cached final again. -/
theorem fireServerRetransmit_goes : Goes leave mayExpire owner (owner.fireServerRetransmit key) := by
  unfold fireServerRetransmit
  split
  · exact .refl owner
  rename_i txn found
  split
  · split
    · rename_i buf status dest cached _
      have sent : Goes leave mayExpire owner (owner.say (.response txn.serial status buf dest)) :=
        ⟨.serverSpeaks (ledger_server found) (.replays dest cached) (ledger_say owner _),
          .of_wheel (wheel_say owner _)⟩
      dsimp only
      split
      · exact sent
      refine sent.trans ?_
      split
      · exact modifyServer_goes (fun _ => rfl) (fun _ => rfl)
      refine (modifyServer_goes ?_ ?_).trans ⟨.of_ledger ?_, storesServer_winds _ .retransmit _ rfl nofun ?_⟩
      · exact fun _ => rfl
      · exact fun _ => rfl
      · rw [ledger_modifyServer_same, ledger_arm]
        exact fun _ _ => rfl
      · exact fun _ => rfl
    · exact .refl owner
  · exact .refl owner

/-- A final leaves no state active. -/
theorem isActive_stateAfter (kind : TxnKind) (final : 200 ≤ status) :
    (stateAfter kind status).isActive = false := by
  unfold stateAfter
  rw [if_neg (not_lt.2 final)]
  cases kind with
  | invite => dsimp only; split <;> rfl
  | nonInvite => rfl

/-- What a server transaction keeps of a response, as the ledger sees it. -/
theorem ledger_cacheResponse (found : owner.servers.get key = some txn) (status : ℕ) (msg : SipResponse) :
    (owner.cacheResponse key txn status msg).ledger =
      (owner.ledger.setServer key
        (some { txn.serverStanding with state := stateAfter txn.kind status, cached := some (msg.image,
          status) })).say
          (if 200 ≤ status then [.answered txn.serial status msg.image] else []) := by
  have tagged : (owner.recordUasTag key msg).ledger.servers key = some txn.serverStanding := by
    rw [ledger_recordUasTag]
    exact ledger_server found
  unfold cacheResponse
  dsimp only
  generalize isKept : (owner.recordUasTag key msg).modifyServer key _ = kept
  have same : kept.ledger = owner.ledger.setServer key
      (some { txn.serverStanding with state := stateAfter txn.kind status, cached := some (msg.image, status) }) := by
    rw [← isKept, ledger_modifyServer_of tagged (fun standing =>
      { standing with state := stateAfter standing.kind status, cached := some (msg.image, status) }),
        ledger_recordUasTag]
    · rfl
    · exact fun _ => rfl
  split
  · rw [ledger_armFinalHold, ledger_say, same]
  · rw [same, Ledger.say_nil]

/-- Binding a response to its tag keeps the transaction it names. -/
theorem ofResponse_bindToTag {resp : SipResponse} :
    ServerTxnKey.ofResponse (owner.bindToTag wire resp) = ServerTxnKey.ofResponse resp ∧
      (owner.bindToTag wire resp).cseqMethod = resp.cseqMethod := by
  have retagged (tag : Tag) :
      ServerTxnKey.ofResponse ((wire.retagResponse resp tag).getD resp) = ServerTxnKey.ofResponse resp ∧
        ((wire.retagResponse resp tag).getD resp).cseqMethod = resp.cseqMethod := by
    cases built : wire.retagResponse resp tag with
    | none => exact ⟨rfl, rfl⟩
    | some other =>
      obtain ⟨via, method⟩ := wire.retag_identity resp tag other built
      exact ⟨by simp [ServerTxnKey.ofResponse, via, method], method⟩
  unfold bindToTag
  split
  · exact ⟨rfl, rfl⟩
  dsimp only
  split
  · exact ⟨rfl, rfl⟩
  · exact ⟨rfl, rfl⟩
  · split
    · exact ⟨rfl, rfl⟩
    · exact retagged _
  · exact retagged _
  · exact retagged _

/-- A response through a server transaction still without a final. -/
theorem respond_moves (found : owner.servers.get key = some txn) (active : txn.state.isActive) :
    Moves leave owner ((owner.cacheResponse key txn status msg).say
      (.response txn.serial status msg.image dest)) := by
  have stands := ledger_server found
  by_cases final : 200 ≤ status
  · refine .server stands (.answers msg.image active final (isActive_stateAfter txn.kind final) (.inr ⟨dest, rfl⟩)) ?_
    rw [ledger_say, ledger_cacheResponse found, if_pos final, Ledger.say_say]
    rfl
  have below := not_le.1 final
  refine .server stands (.provisional msg.image active below (.inr ⟨dest, rfl⟩)) ?_
  have proceeding : stateAfter txn.kind status = .proceeding := if_pos below
  rw [ledger_say, ledger_cacheResponse found, if_neg final, Ledger.say_say, proceeding]
  rfl

/-- A response goes out unless its transaction sent its final. -/
theorem doSendResponse_goes : Goes leave mayExpire owner (owner.doSendResponse wire msg dest) := by
  obtain ⟨sameKey, sameMethod⟩ := ofResponse_bindToTag
  unfold doSendResponse
  dsimp only
  rw [sameKey, sameMethod]
  split
  · exact .refl owner
  rename_i open_
  split
  · exact .remarks trivial
  rename_i notCancel
  split
  · exact .remarks trivial
  rename_i key isKey
  split
  · rename_i txn found
    have active : txn.state.isActive = true := by
      by_contra done
      exact open_ ⟨notCancel, by simpa [isKey, found] using done⟩
    exact ⟨respond_moves found active, (cacheResponse_winds owner).then_same (wheel_say _ _)⟩
  · split
    · exact .refl owner
    · exact .remarks trivial

theorem holdForTimerI_moves (found : owner.servers.get key = some txn) (completed : txn.state = .completed) :
    Moves leave owner (owner.holdForTimerI key) := by
  have stands := ledger_server found
  refine .server stands (.confirms completed) ?_
  unfold holdForTimerI
  rw [found]
  rw [ledger_detachServer, ledger_hold_server, ledger_cancelTimer, Ledger.say_nil,
    ledger_modifyServer_of stands (fun standing => { standing with state := .confirmed })]
  exact fun _ => rfl

/-! ### The first provisional -/

/-- The first 100 goes out while nothing was sent. -/
theorem sendFirstTrying_goes : Goes leave mayExpire owner (owner.sendFirstTrying wire key).2 := by
  unfold sendFirstTrying
  split
  · exact .refl owner
  rename_i txn found
  split
  · rename_i request dest _ _
    split
    · rename_i waits
      dsimp only
      split
      · exact .refl owner
      rename_i trying _
      have active : txn.serverStanding.state.isActive = true := by
        change txn.state.isActive = true
        rw [waits.2]
        rfl
      have noted : (owner.say (.response txn.serial 100 trying.image dest)).ledger.servers key =
          some txn.serverStanding := ledger_server found
      refine ⟨.server (ledger_server found)
        (.provisional trying.image active (by decide : 100 < 200) (.inr ⟨dest, rfl⟩)) ?_,
        modifyServer_winds (owner.say _) fun _ => rfl⟩
      rw [ledger_modifyServer_of noted (fun standing =>
        { standing with state := .proceeding, cached := some (trying.image, 100) })]
      · rfl
      · exact fun _ => rfl
    · exact .refl owner
  · exact .refl owner

theorem fireTrying_goes {opened : ℕ} : Goes leave mayExpire owner (owner.fireTrying wire key opened) := by
  unfold fireTrying
  split
  · exact sendFirstTrying_goes
  · exact .refl owner

/-! ### A CANCEL and its answers -/

/-- The answers to a CANCEL are held on its INVITE. -/
theorem holdCancelAnswers_goes (owner : Owner) (key : ServerTxnKey) (heldAs : HeldAs)
    {cancelOk terminated : Option (Bytes × SocketAddr)}
    (taken : ∀ standing final, owner.ledger.servers key = some standing → terminated = some final →
      standing.cached = some (final.1, 487) ∧ standing.state.isActive = false) :
    Goes leave mayExpire owner (owner.holdCancelAnswers key heldAs cancelOk terminated) := by
  unfold holdCancelAnswers
  split
  · exact .refl owner
  rename_i txn found
  have stands := ledger_server found
  have noted : (owner.say (.answersHeld txn.serial ⟨cancelOk, terminated, heldAs⟩)).ledger.servers key =
      some txn.serverStanding := stands
  have held : Winds mayExpire owner ((owner.say
      (.answersHeld txn.serial ⟨cancelOk, terminated, heldAs⟩)).modifyServer key
      ({ · with unsentCancel := some ⟨cancelOk, terminated, heldAs⟩ })) := modifyServer_winds
        (owner.say _) fun _ => rfl
  refine ⟨.server stands (.holds ⟨cancelOk, terminated, heldAs⟩
    (fun final isFinal => taken _ final stands isFinal)) ?_,
    held.trans (arms_winds _ rfl nofun)⟩
  rw [ledger_armAt, ledger_heldCancels, ledger_modifyServer_of noted (fun standing =>
    { standing with answers := some ⟨cancelOk, terminated, heldAs⟩ })]
  · rfl
  · exact fun _ => rfl

/-- A held final may be left to another node. -/
theorem waiveHeldFinal_moves (owner : Owner) (key : ServerTxnKey) : Moves leave owner (owner.waiveHeldFinal key) := by
  unfold waiveHeldFinal
  cases found : owner.servers.get key with
  | none =>
    refine .of_ledger (ledger_modifyServer_same ?_)
    intro txn resident
    rw [found] at resident
    cases resident
  | some txn =>
    have stands := ledger_server found
    refine .server stands .waives ?_
    rw [Ledger.say_nil, ledger_modifyServer_of stands (fun standing =>
      { standing with answers := standing.answers.map ({ · with terminated := none }) })]
    exact fun _ => rfl

theorem sendHeldCancel_goes : Goes leave mayExpire owner (owner.sendHeldCancel key).2 := by
  unfold sendHeldCancel
  split
  · exact .refl owner
  rename_i txn found
  split
  · exact .refl owner
  rename_i held holding
  have stands := ledger_server found
  have dropped : (owner.modifyServer key ({ · with unsentCancel := none })).ledger =
      owner.ledger.setServer key (some { txn.serverStanding with answers := none }) :=
    ledger_modifyServer_of stands (fun standing => { standing with answers := none }) (fun _ => rfl)
  refine ⟨.server stands (.sendsHeld holding) ?_, ?_⟩
  · unfold UnsentCancel.sends
    cases held.cancelOk <;> cases held.terminated <;>
      simp only [ledger_armFinalHold, ledger_say, ledger_heldCancels, dropped, Ledger.say_say, Option.map_none,
        Option.map_some, Option.toList_none, Option.toList_some, List.append_nil, List.nil_append,
          Ledger.say_nil] <;> rfl
  have cleared : Winds mayExpire owner (owner.modifyServer key ({ · with unsentCancel := none })) :=
    modifyServer_winds owner fun _ => rfl
  cases held.cancelOk with
  | none | some =>
    dsimp only
    split
    · refine Winds.trans ?_ (armFinalHold_winds _)
      exact cleared
    · exact cleared

theorem fireCancelBound_goes {opened : ℕ} : Goes leave mayExpire owner (owner.fireCancelBound key opened) := by
  unfold fireCancelBound
  split
  · exact sendHeldCancel_goes
  · exact .refl owner

theorem releaseHeldCancel_goes {heldAs : HeldAs} : Goes leave mayExpire owner (owner.releaseHeldCancel heldAs).2 := by
  unfold releaseHeldCancel
  split
  · exact .refl owner
  · exact sendHeldCancel_goes

theorem replyToCancel_goes (owner : Owner) (hold : Bool) (serial : ℕ) (cancelOk : Option (Bytes × SocketAddr)) :
    Goes leave mayExpire owner (owner.replyToCancel hold serial cancelOk) ∧
      (owner.replyToCancel hold serial cancelOk).ledger.servers = owner.ledger.servers := by
  unfold replyToCancel
  split
  · split
    · exact ⟨.refl owner, rfl⟩
    · exact ⟨.remarks trivial, rfl⟩
  · exact ⟨.refl owner, rfl⟩

/-- The 487 is the INVITE's final. -/
theorem ledger_takeTerminated (stands : owner.ledger.servers key = some standing) {hold : Bool}
    {serial : ℕ} {final : SipResponse} :
    (owner.takeTerminated hold key serial dest (some final)).ledger =
      (owner.ledger.setServer key (some { standing with state := .completed, cached := some (final.image, 487) })).say
        (.answered serial 487 final.image :: if hold then [] else [.response serial 487 final.image dest]) := by
  have settled (said : Owner) (stood : said.ledger.servers key = some standing) :
      ((said.recordUasTag key final).modifyServer key
        ({ · with
          state := .completed
          lastResponse := some final.image
          lastResponseStatus := some 487
          originalRequest := none })).ledger =
        said.ledger.setServer key (some { standing with
          state := .completed, cached := some (final.image, 487) }) := by
    have tagged : (said.recordUasTag key final).ledger.servers key = some standing := by
      rw [ledger_recordUasTag]
      exact stood
    rw [ledger_modifyServer_of tagged (fun standing =>
      { standing with state := .completed, cached := some (final.image, 487) }), ledger_recordUasTag]
    exact fun _ => rfl
  cases hold with
  | true => exact settled (owner.say (.answered serial 487 final.image)) stands
  | false =>
    refine (ledger_armFinalHold _ key .invite 487).trans ((settled ((owner.say (.answered serial 487 final.image)).say
      (.response serial 487 final.image dest)) stands).trans ?_)
    rw [ledger_say, ledger_say, Ledger.say_say, Ledger.setServer_say]
    rfl

theorem takeTerminated_goes (stands : owner.ledger.servers key = some standing)
    (active : standing.state.isActive) (hold : Bool) (dest : SocketAddr) (terminated : Option SipResponse) :
    Goes leave mayExpire owner (owner.takeTerminated hold key standing.serial dest terminated) := by
  cases terminated with
  | none => exact .refl owner
  | some final =>
    have taken (said : Owner) : Winds mayExpire said ((said.recordUasTag key final).modifyServer key
        ({ · with
          state := .completed
          lastResponse := some final.image
          lastResponseStatus := some 487
          originalRequest := none })) := by
      refine .of_wheel ((wheel_modifyServer_same _ ?_).trans (wheel_recordUasTag said))
      exact fun _ => rfl
    refine ⟨.server stands (.answers final.image active (by decide : 200 ≤ 487) rfl ?_)
      (ledger_takeTerminated stands), ?_⟩
    · cases hold with
      | true => exact .inl rfl
      | false => exact .inr ⟨dest, rfl⟩
    cases hold with
    | true => exact taken (owner.say _)
    | false =>
      change Winds mayExpire owner (armFinalHold _ key .invite 487)
      refine Winds.trans ?_ (armFinalHold_winds _)
      exact taken ((owner.say _).say _)

/-- A CANCEL of an active INVITE is answered, and the INVITE with a 487. -/
theorem cancelActive_goes (found : owner.servers.get key = some txn) (active : txn.state.isActive)
    {cancelDest : SocketAddr} :
    Goes leave mayExpire owner (owner.cancelActive wire req cancelDest key txn) := by
  unfold cancelActive
  have same := ledger_uasToTagOf wire owner key
  have wheel := wheel_uasToTagOf owner wire key
  generalize owner.uasToTagOf wire key = tagged at same wheel
  obtain ⟨uasToTag, tagged⟩ := tagged
  dsimp only at same wheel ⊢
  generalize tagged.holdsCancelAnswers = hold
  generalize (wire.generateResponse req 200 "OK" uasToTag []).map (fun ok => (ok.image, cancelDest)) = cancelOk
  generalize txn.originalRequest.bind (wire.generateResponse · 487 "Request Terminated" uasToTag []) = terminated
  obtain ⟨replies, servers⟩ := @replyToCancel_goes leave mayExpire tagged hold txn.serial cancelOk
  generalize tagged.replyToCancel hold txn.serial cancelOk = replied at replies servers
  have stands : replied.ledger.servers key = some txn.serverStanding := by
    rw [servers, same]
    exact ledger_server found
  have took : Goes leave mayExpire owner
      (replied.takeTerminated hold key txn.serial (txn.destination.getD cancelDest) terminated) :=
    ((Goes.of_same same wheel).trans replies).trans (takeTerminated_goes stands active hold _ terminated)
  refine Goes.trans ?_ emitCritical_goes
  split
  · refine took.trans (holdCancelAnswers_goes _ _ _ ?_)
    intro standing held stood isHeld
    -- the 487 that is held is the one the transaction took
    cases terminated with
    | none => cases isHeld
    | some final =>
      cases isHeld
      rw [ledger_takeTerminated stands, Ledger.servers_say, Ledger.servers_setServer] at stood
      cases stood
      exact ⟨rfl, rfl⟩
  · exact took

/-- The transaction a CANCEL names is resident and passes the test. -/
theorem cancelledInvite_some {via : Via} {pick : Transaction → Bool}
    (isNamed : owner.cancelledInvite via pick = some (key, txn)) :
    owner.servers.get key = some txn ∧ pick txn = true := by
  unfold cancelledInvite at isNamed
  split at isNamed
  · cases isNamed
  obtain ⟨resident, isResident, pair⟩ := Option.map_eq_some_iff.1 isNamed
  cases pair
  exact Option.filter_eq_some_iff.1 isResident

theorem handleCancel_goes {datagram : Option Bytes} :
    Goes leave mayExpire owner (owner.handleCancel wire req src datagram).2 := by
  unfold handleCancel
  dsimp only
  split
  · rename_i key txn isNamed
    obtain ⟨found, picked⟩ := cancelledInvite_some isNamed
    exact cancelActive_goes found (Bool.and_eq_true_iff.1 picked).2
  split
  · exact .refl owner
  split
  · rename_i key txn _
    have tagged : Goes leave mayExpire owner (owner.uasToTagOf wire key).2 := uasToTagOf_goes
    split
    · exact tagged.trans (.remarks trivial)
    · exact tagged
  · split
    · exact emit_goes
    · exact .refl owner

/-! ### An inbound request -/

/-- A copy of a request draws what was sent for it. -/
theorem replayCached_goes : Goes leave mayExpire owner (owner.replayCached wire req src).2 := by
  unfold replayCached
  split
  · exact .refl owner
  rename_i key _
  split
  · exact .refl owner
  rename_i txn found
  have stands := ledger_server found
  split
  · exact .refl owner
  split
  · rename_i buf status cached
    exact ⟨.serverSpeaks stands (.replays _ cached) (ledger_say owner _), .of_wheel (wheel_say owner _)⟩
  split
  · rename_i uncached waits
    split
    · exact .refl owner
    rename_i trying _
    have active : txn.serverStanding.state.isActive = true := by
      change txn.state.isActive = true
      rw [waits.2]
      rfl
    generalize txn.destination.getD (wire.stampedDestination req.topVia src) = dest
    have noted : (owner.say (.response txn.serial 100 trying.image dest)).ledger.servers key =
        some txn.serverStanding := stands
    refine ⟨.server stands (.provisional trying.image active (by decide : 100 < 200) (.inr ⟨dest, rfl⟩)) ?_,
      modifyServer_winds (owner.say _) fun _ => rfl⟩
    rw [ledger_modifyServer_of noted (fun standing => { standing with cached := some (trying.image, 100) })]
    · have proceeding : txn.serverStanding.state = .proceeding := waits.2
      rw [← proceeding]
      rfl
    · exact fun _ => rfl
  · exact .refl owner

/-- An ACK is absorbed by its final's transaction, else passed up. -/
theorem handleAck_goes : Goes leave mayExpire owner (owner.handleAck wire key req src judgement) := by
  have stray : Goes leave mayExpire owner
      (if req.toTag.isNone ∨ judgement.acknowledgesRefusal then owner else owner.handUp wire req src) := by
    split
    · exact .refl owner
    · exact emit_goes
  unfold handleAck
  dsimp only
  split
  · exact stray
  rename_i txn found
  split
  · exact .refl owner
  · rename_i completed _
    split
    · exact ⟨holdForTimerI_moves found completed, holdForTimerI_winds owner⟩
    · exact stray
  · exact (Goes.of_same ledger_detachServer (wheel_detachFromCall owner _)).trans emit_goes
  · exact stray

/-- A new request opens a transaction and is handed up. -/
theorem admitRequest_goes {destination : SocketAddr} {datagram : Bytes} :
    Goes leave mayExpire owner (owner.admitRequest key req destination src datagram) := by
  unfold admitRequest
  dsimp only
  generalize (if req.method = .invite then TxnKind.invite else .nonInvite) = kind
  generalize isOpened : owner.openTxn _ = opened
  have opens : Goes leave mayExpire owner opened := by
    rw [← isOpened]
    exact ⟨openServerTxn_moves rfl (fun _ => rfl) (.active rfl), openTxn_winds owner rfl⟩
  split
  · have armed : Goes leave mayExpire opened (opened.armTryingBound key opened.now) :=
      ⟨.of_ledger (ledger_armAt opened _ _), armTryingBound_winds opened key opened.now⟩
    exact (opens.trans armed).trans emitCritical_goes
  have emitted : Goes leave mayExpire owner (opened.emit none (.message (.request req) src false datagram)).2 :=
    opens.trans emit_goes
  split
  · exact emitted
  · exact emitted.trans (deleteServer_goes _ key)

theorem admitNew_goes : Goes leave mayExpire owner (owner.admitNew wire req src judgement) := by
  unfold admitNew
  split
  · unfold emitKeepalive
    split
    · exact .refl owner
    · exact emit_goes
  dsimp only
  split
  · exact .refl owner
  split
  · split
    · exact .remarks trivial
    · exact .refl owner
  · exact admitRequest_goes

theorem handleInboundRequest_goes :
    Goes leave mayExpire owner (owner.handleInboundRequest wire req src judgement) := by
  have replayed : Goes leave mayExpire owner (owner.replayCached wire req src).2 := replayCached_goes
  unfold handleInboundRequest
  split
  · exact emit_goes
  cases method : req.method with
  | ack => exact handleAck_goes
  | cancel => exact handleCancel_goes
  | invite | bye | options | other =>
    dsimp only
    split
    · rename_i after isReplayed
      rw [isReplayed] at replayed
      exact replayed
    · rename_i after isReplayed
      rw [isReplayed] at replayed
      exact replayed.trans admitNew_goes

/-! ### Transactions nothing will answer -/

/-- A request nothing will answer is forgotten. -/
theorem forgetUnanswered_goes {callId fromTag : String} :
    Goes leave mayExpire owner (owner.forgetUnanswered key callId fromTag) := by
  unfold forgetUnanswered
  split
  · exact deleteServer_goes owner key
  · exact .refl owner

theorem forgetUnansweredOfCall_goes : Goes leave mayExpire owner (owner.forgetUnansweredOfCall callRef) :=
  .foldl deleteServer_goes _ owner

theorem answerUnansweredInvitesOfCall_goes {reason : String} :
    Goes leave mayExpire owner (owner.answerUnansweredInvitesOfCall wire callRef status reason) := by
  refine .foldl (fun owner entry => ?_) _ owner
  split
  · exact .refl owner
  have tagged : Goes leave mayExpire owner (owner.uasToTagOf wire entry.1).2 := uasToTagOf_goes
  dsimp only
  split
  · exact tagged
  · exact tagged.trans doSendResponse_goes

end Owner

end SipServer.Txn
