/-
Module: SipServer.Proofs.HeldAcks
Purpose: The ACK of a non-2xx final leaves before its transaction does: its bound is due before the
  transaction's deadline, and every other way out sends it first, but for a relinquish of the call's Accepted
  transactions and a branch used again.
-/
import SipServer.Proofs.ClientOutcomes
import SipServer.Proofs.TxnWheelKept

namespace SipServer.Txn

open SipServer.Lib SipServer.Retransmit

namespace Wheel

/-! ### The bound of a held ACK is due before its transaction leaves -/

/-- A client transaction that owes an ACK has its bound filed before its deadline. -/
def Guarded (wheel : Wheel) : Prop :=
  ∀ branch hands, wheel.txns (.client branch) = some hands → hands.owesAck = true →
    ∃ key due, wheel.timers.get key = some (due, .ackBound branch hands.createdAt) ∧ due < hands.lifetime.deadline ∧
      due < wheel.now + timerD

namespace Guarded

variable {mayExpire : Prop} {wheel after : Wheel} {id : TxnId} {due : ℕ} {timer : Timer} {key : ℕ}

section

variable (guarded : wheel.Guarded)

include guarded

section

variable (now : wheel.now ≤ after.now)
  (bounds : ∀ key due branch opened, wheel.timers.get key = some (due, .ackBound branch opened) →
    after.timers.get key = some (due, .ackBound branch opened))

include now bounds

/-- What leaves the bounds filed, and brings no debt and no deadline nearer than Timer D. -/
theorem frame (clients : ∀ branch later, after.txns (.client branch) = some later → later.owesAck = true →
      ∃ hands, wheel.txns (.client branch) = some hands ∧ hands.owesAck = true ∧ hands.createdAt = later.createdAt ∧
        (hands.lifetime.deadline ≤ later.lifetime.deadline ∨ wheel.now + timerD ≤ later.lifetime.deadline)) :
    after.Guarded := by
  intro branch later stands owes
  obtain ⟨hands, stood, owed, created, deadline⟩ := clients branch later stands owes
  obtain ⟨key, due, entry, before, soon⟩ := guarded branch hands stood owed
  refine ⟨key, due, created ▸ bounds key due branch _ entry, ?_, ?_⟩
  · obtain kept | long := deadline
    · exact Nat.lt_of_lt_of_le before kept
    · exact Nat.lt_of_lt_of_le soon long
  · exact Nat.lt_of_lt_of_le soon (Nat.add_le_add_right now timerD)

theorem of_same (txns : after.txns = wheel.txns) : after.Guarded :=
  guarded.frame now bounds fun _ later stands owes => ⟨later, txns ▸ stands, owes, rfl, .inl (Nat.le_refl _)⟩

end

/-- One transaction's change. -/
theorem own (changes : Own id wheel after)
    (debts : ∀ branch later, id = .client branch → after.txns id = some later → later.owesAck = true →
      ∃ hands, wheel.txns id = some hands ∧ hands.owesAck = true ∧ hands.createdAt = later.createdAt ∧
        (hands.lifetime.deadline ≤ later.lifetime.deadline ∨ wheel.now + timerD ≤ later.lifetime.deadline)) :
    after.Guarded := by
  refine guarded.frame changes.now.ge (fun key due branch opened entry => ?_) (fun branch later stands owes => ?_)
  · exact changes.stay key due _ entry fun slot own => by cases own
  by_cases same : .client branch = id
  · subst same
    exact debts branch later rfl stands owes
  · rw [changes.others _ same] at stands
    exact ⟨later, stands, owes, rfl, .inl (Nat.le_refl _)⟩

/-- A change of hands that leaves what the guard reads. -/
theorem own_keeping (changes : Own id wheel after)
    (keeps : ∀ later, after.txns id = some later → ∃ hands, wheel.txns id = some hands ∧
      later.owesAck = hands.owesAck ∧ later.createdAt = hands.createdAt ∧ later.lifetime = hands.lifetime) :
    after.Guarded := by
  refine guarded.own changes fun _ later _ stands owes => ?_
  obtain ⟨hands, stood, owed, created, lifetime⟩ := keeps later stands
  exact ⟨hands, stood, owed ▸ owes, created.symm, .inl (lifetime ▸ Nat.le_refl _)⟩

theorem insert (timer : Timer) (due : ℕ) : (wheel.insert timer due).Guarded := by
  refine guarded.of_same (Nat.le_refl _) (fun key later branch opened entry => ?_) rfl
  exact (get_insert wheel timer due key).trans ((if_neg (DelayQueue.ne_freshKey_of_get entry)).trans entry)

theorem remove (entry : wheel.timers.get key = some (due, timer))
    (noBound : ∀ branch opened, timer ≠ .ackBound branch opened) : (wheel.remove key).Guarded := by
  refine guarded.of_same (Nat.le_refl _) (fun other later branch opened found => ?_) rfl
  refine (get_remove wheel key other).trans ((if_neg ?_).trans found)
  rintro rfl
  cases entry.symm.trans found
  exact noBound branch opened rfl

theorem setKey (id : TxnId) (slot : Slot) (key : Option TimerKey) :
    (wheel.modify id (·.setKey slot key)).Guarded := by
  refine guarded.own_keeping (.modify wheel id _) fun later stands => ?_
  obtain ⟨hands, stood, rfl⟩ := of_txns_modify stands
  exact ⟨hands, stood, Hands.owesAck_setKey .., Hands.createdAt_setKey .., Hands.lifetime_setKey ..⟩

theorem drop (filed : wheel.Filed) (id : TxnId) (slot : Slot) : (wheel.drop id slot).Guarded := by
  refine guarded.own_keeping (filed.own_drop id slot) fun later standsThen => ?_
  cases stands : wheel.txns id with
  | none =>
    unfold Wheel.drop at standsThen
    rw [stands] at standsThen
    cases stands.symm.trans standsThen
  | some hands =>
    cases (txns_drop stands slot).symm.trans standsThen
    exact ⟨hands, rfl, Hands.owesAck_setKey .., Hands.createdAt_setKey .., Hands.lifetime_setKey ..⟩

theorem fire (entry : wheel.timers.get key = some (due, timer))
    (noBound : ∀ branch opened, timer ≠ .ackBound branch opened) : (wheel.fire key timer).Guarded := by
  unfold Wheel.fire
  split
  · exact (guarded.remove entry noBound).setKey _ _ none
  · exact guarded.remove entry noBound

theorem armRetry : wheel.armRetry.Guarded := by
  unfold Wheel.armRetry
  split
  · exact guarded
  · exact guarded.insert .eventRetry _

end

/-- A hold no shorter than Timer D leaves a deadline past every bound. -/
theorem le_deadline_of_hold {left : ℕ} (long : timerD ≤ left) {lifetime : Lifetime} {why : Hold} :
    wheel.now + timerD ≤ (lifetime.hold why (deadlineAfter wheel.now left)).deadline := by
  refine Nat.le_trans (Nat.add_le_add_left ?_ wheel.now) (lifetime.le_deadline_hold)
  exact Nat.le_min.2 ⟨long, by decide⟩

section

variable (guarded : wheel.Guarded)

include guarded

theorem holdFor (filed : wheel.Filed) {why : Hold} {left : ℕ}
    (long : ∀ branch hands, id = .client branch → wheel.txns id = some hands → hands.owesAck = true → timerD ≤ left) :
    (wheel.holdFor id why left).Guarded := by
  refine guarded.own (filed.own_holdFor id why left) fun branch later isClient standsThen owes => ?_
  cases stands : wheel.txns id with
  | none =>
    unfold Wheel.holdFor at standsThen
    rw [stands] at standsThen
    cases stands.symm.trans standsThen
  | some hands =>
    cases (Filed.txns_holdFor stands why left).symm.trans standsThen
    exact ⟨hands, rfl, owes, rfl, .inr (le_deadline_of_hold (long branch hands isClient stands owes))⟩

theorem leave (filed : wheel.Filed) (id : TxnId) : (wheel.leave id).Guarded := by
  refine guarded.own (filed.own_leave) fun _ later _ stands => ?_
  cases (Filed.txns_leave wheel id).symm.trans stands

theorem enter (filed : wheel.Filed) {hands : Hands} (acked : hands.owesAck = false) :
    (wheel.enter id hands).Guarded := by
  refine guarded.own (filed.own_enter) fun _ later _ stands owes => ?_
  cases (txns_enter wheel id hands).symm.trans stands
  cases acked.symm.trans owes

/-- A first non-2xx final whose ACK is held: its bound is due before Timer D is over. -/
theorem rejects (filed : wheel.Filed) (short : wheel.ackBound < timerD) (branch : Branch)
    (soon : due ≤ wheel.now + wheel.ackBound) :
    (((wheel.owe branch due).stop branch).holdFor (.client branch) .timerD timerD).Guarded := by
  cases stands : wheel.txns (.client branch) with
  | none =>
    have absent : wheel.owe branch due = wheel := by
      unfold owe
      rw [stands]
    have untouched (slot : Slot) : wheel.drop (.client branch) slot = wheel := by
      unfold Wheel.drop
      rw [stands]
    unfold stop Wheel.holdFor
    rw [absent, untouched, untouched, untouched, stands]
    exact guarded
  | some hands =>
    have owes : wheel.owe branch due = (wheel.modify (.client branch) ({ · with owesAck := true })).insert
        (.ackBound branch hands.createdAt) due := by
      unfold owe
      rw [stands]
    have filedOwing := filed.owe branch due
    have inserted (key : ℕ) : (wheel.owe branch due).timers.get key =
        if key = wheel.timers.freshKey then some (due, .ackBound branch hands.createdAt)
          else wheel.timers.get key := by
      rw [owes]
      exact get_insert _ _ _ key
    have standsOwing : (wheel.owe branch due).txns (.client branch) = some { hands with owesAck := true } := by
      rw [owes, txns_insert, txns_modify, if_pos rfl, stands]
      rfl
    have now : (wheel.owe branch due).now = wheel.now := by
      rw [owes]
      rfl
    have others {other : TxnId} (differ : other ≠ .client branch) :
        (wheel.owe branch due).txns other = wheel.txns other := by
      rw [owes, txns_insert, txns_modify, if_neg differ]
    generalize wheel.owe branch due = owing at *
    -- what follows changes no other transaction's entries, and no bound
    have stops : Own (.client branch) owing (owing.stop branch) :=
      ((filedOwing.own_drop _ _).trans ((filedOwing.drop _ _).own_drop _ _)).trans
        (((filedOwing.drop _ _).drop _ _).own_drop _ _)
    have changes := stops.trans ((filedOwing.stop branch).own_holdFor (.client branch) .timerD timerD)
    have stopped := txns_drop (txns_drop (txns_drop standsOwing .retransmit) .timeout) .cancelRetransmit
    have after := Filed.txns_holdFor stopped .timerD timerD
    have timely : due < wheel.now + timerD := by omega
    intro other later standsThen owesThen
    rw [changes.now, now]
    by_cases same : other = branch
    · subst same
      cases after.symm.trans standsThen
      refine ⟨wheel.timers.freshKey, due, changes.stay _ _ _ ((inserted _).trans (if_pos rfl)) nofun, ?_, timely⟩
      have sameNow : (owing.stop other).now = wheel.now := stops.now.trans now
      calc due < wheel.now + timerD := timely
        _ = (owing.stop other).now + timerD := by rw [sameNow]
        _ ≤ _ := le_deadline_of_hold (Nat.le_refl _)
    · have differ : TxnId.client other ≠ .client branch := fun isSame => same (TxnId.client.inj isSame)
      rw [changes.others _ differ, others differ] at standsThen
      obtain ⟨key, bound, entry, before, early⟩ := guarded other later standsThen owesThen
      refine ⟨key, bound, changes.stay _ _ _ ?_ nofun, before, early⟩
      exact (inserted key).trans ((if_neg (DelayQueue.ne_freshKey_of_get entry)).trans entry)

theorem tick (entry : wheel.timers.get key = some (due, .eventRetry)) : (wheel.tick key).Guarded := by
  have removed : (wheel.remove key).Guarded := guarded.remove entry nofun
  have flushed : ({ wheel.remove key with armed := false }.flush wheel.room).Guarded := removed
  unfold Wheel.tick
  dsimp only
  split
  · exact flushed
  · exact flushed.armRetry

/-- A bound that fires settles the debt of the transaction it was filed for, and is no other's. -/
theorem firesBound {opened : ℕ} {branch : Branch}
    (entry : wheel.timers.get key = some (due, .ackBound branch opened)) :
    ((wheel.remove key).modify (.client branch)
      (fun hands => if hands.createdAt = opened then { hands with owesAck := false } else hands)).Guarded := by
  intro other later stands owes
  rw [txns_modify] at stands
  have still : wheel.txns (.client other) = some later ∧ (other = branch → later.createdAt ≠ opened) := by
    split at stands
    next isBranch =>
      obtain ⟨hands, stood, became⟩ := Option.map_eq_some_iff.1 stands
      split at became
      next =>
        subst became
        cases owes
      next differs =>
        subst became
        exact ⟨isBranch ▸ stood, fun _ => differs⟩
    next otherBranch => exact ⟨stands, fun same => absurd (congrArg TxnId.client same) otherBranch⟩
  obtain ⟨stood, differs⟩ := still
  obtain ⟨bound, bounds, found, before, soon⟩ := guarded other later stood owes
  refine ⟨bound, bounds, (get_remove wheel key bound).trans ((if_neg ?_).trans found), before, soon⟩
  rintro rfl
  cases entry.symm.trans found
  exact differs rfl rfl

theorem step (filed : wheel.Filed) (short : wheel.ackBound < timerD) (stepped : Step mayExpire wheel after) :
    after.Guarded := by
  cases stepped with
  | passes ms => exact guarded.of_same (Nat.le_add_right _ _) (fun _ _ _ _ entry => entry) rfl
  | arms due isLoose other => exact guarded.insert _ due
  | stores due isOwn other => exact (guarded.insert _ due).setKey _ _ _
  | drops id slot => exact guarded.drop filed id slot
  | fires entry other noBound => exact guarded.fire entry noBound
  | firesBound entry => exact guarded.firesBound entry
  | holds id why left long => exact guarded.holdFor filed long
  | acks branch =>
    refine guarded.own (.modify wheel _ _) fun _ later _ stands owes => ?_
    obtain ⟨hands, _, rfl⟩ := of_txns_modify stands
    cases owes
  | rejects branch soon => exact guarded.rejects filed short branch soon
  | enters acked near preset => exact guarded.enter filed acked
  | leaves id => exact guarded.leave filed id
  | queues | loses | takes => exact guarded
  | defers number critical => exact armRetry guarded
  | ticks entry => exact guarded.tick entry
  | sweeps stands active expires => exact guarded.leave filed _

end

/-- The bound of the held ACKs is the configuration's. -/
theorem ackBound_step (filed : wheel.Filed) (stepped : Step mayExpire wheel after) :
    after.ackBound = wheel.ackBound := by
  have armRetry (wheel : Wheel) : wheel.armRetry.ackBound = wheel.ackBound := by
    unfold Wheel.armRetry
    split <;> rfl
  cases stepped with
  | passes | arms | stores | firesBound | acks | queues | loses | takes => rfl
  | drops id slot => exact (filed.own_drop id slot).ackBound
  | @fires key due timer entry other noBound =>
    unfold Wheel.fire
    split <;> rfl
  | holds id why left long => exact (filed.own_holdFor id why left).ackBound
  | @rejects branch due soon =>
    have owes : (wheel.owe branch due).ackBound = wheel.ackBound := by
      unfold owe
      split <;> rfl
    have owing := filed.owe branch due
    have stops := ((owing.own_drop (.client branch) .retransmit).trans ((owing.drop _ _).own_drop _ .timeout)).trans
      (((owing.drop _ _).drop _ _).own_drop _ .cancelRetransmit)
    exact (((owing.stop branch).own_holdFor (.client branch) .timerD timerD).ackBound.trans stops.ackBound).trans owes
  | enters acked near preset => exact (filed.own_enter).ackBound
  | leaves | sweeps => exact (filed.own_leave).ackBound
  | defers number critical => exact armRetry _
  | ticks entry =>
    unfold Wheel.tick
    dsimp only
    split
    · rfl
    · exact armRetry _

theorem ackBound_steps (filed : wheel.Filed) (wound : Steps mayExpire wheel after) :
    after.ackBound = wheel.ackBound := by
  induction wound with
  | refl => rfl
  | tail earlier stepped ih => exact (ackBound_step (filed.steps earlier) stepped).trans ih

theorem steps (guarded : wheel.Guarded) (filed : wheel.Filed) (short : wheel.ackBound < timerD)
    (wound : Steps mayExpire wheel after) : after.Guarded := by
  induction wound with
  | refl => exact guarded
  | tail earlier stepped ih =>
    exact ih.step (filed.steps earlier) (ackBound_steps filed earlier ▸ short) stepped

end Guarded

end Wheel

/-! ### The ACK of a rejection is sent or held -/

/-- A client INVITE leaves only once its ACK did. -/
def ClientStanding.Acked (standing : ClientStanding) : Prop := standing.kind = .invite → standing.unsentAck = none

theorem Owner.asksAck_acked : AsksAck ClientStanding.Acked where
  acked _ noAck _ := noAck
  nonInvite _ nonInvite invite := by cases nonInvite.symm.trans invite
  steady _ _ acked kind ack invite := ack.trans (acked (kind.symm.trans invite))

namespace ClientStanding

/-- Only an INVITE past its first final holds an ACK. -/
structure Holding (standing : ClientStanding) : Prop where
  invite : standing.kind = .invite
  answered : standing.state = .completed ∨ standing.state = .accepted

theorem Holding.inactive {standing : ClientStanding} (holding : standing.Holding) :
    standing.state.isActive = false := by
  obtain completed | accepted := holding.answered
  · rw [completed]
    rfl
  · rw [accepted]
    rfl

variable {leave : ClientStanding → Prop} {standing later : ClientStanding} {next : Option ClientStanding}
    {notes : List Note}
  {ack : Bytes × SocketAddr}

theorem holding_of_move (holding : ∀ ack, standing.unsentAck = some ack → standing.Holding)
    (move : ClientMove leave standing (some later) notes) (held : later.unsentAck = some ack) : later.Holding := by
  cases move with
  | proceeds active =>
    have inactive := (holding ack held).inactive
    cases inactive.symm.trans active
  | rejects invite open_ disposal final => exact ⟨invite, .inl rfl⟩
  | accepts invite open_ final => exact ⟨invite, .inr rfl⟩
  | acks noted => cases held
  | _ =>
    obtain ⟨invite, answered⟩ := holding ack held
    exact ⟨invite, answered⟩

/-- A transaction that holds an ACK sends it or goes on holding it. -/
theorem ack_of_move (holding : standing.Holding) (held : standing.unsentAck = some ack)
    (move : ClientMove Acked standing next notes) :
    .ack standing.serial ack.1 ack.2 ∈ notes ∨ ∃ later, next = some later ∧ later.unsentAck = some ack := by
  have stays (may : standing.Acked) : False := by cases (may holding.invite).symm.trans held
  cases move with
  | timesOut _ _ _ _ may | ends _ _ _ may | leaves may => exact (stays may).elim
  | rejects invite open_ disposal final => exact (holding.answered.elim open_.1 open_.2).elim
  | @acks sent noted =>
    cases noted.symm.trans held
    exact .inl List.mem_cons_self
  | _ => exact .inr ⟨_, rfl, held⟩

/-- The ACK of a first non-2xx final leaves with it or is held. -/
theorem ack_of_rejection {txn : ℕ} (move : ClientMove leave standing next notes)
    (rejected : .rejected txn (some ack) ∈ notes) :
    txn = standing.serial ∧ (.ack standing.serial ack.1 ack.2 ∈ notes ∨
      ∃ later, next = some later ∧ later.unsentAck = some ack) := by
  have told (silent : Bool) (event : TransactionEvent) :
      .rejected txn (some ack) ∉ (if silent then [] else [Note.event (some standing.serial) event]) := by
    cases silent <;> simp
  cases move with
  | givesUp | timesOut | ends => exact absurd rejected (told _ _)
  | @accepts event invite open_ final =>
    obtain other | later := List.mem_cons.1 rejected
    · cases other
    · exact absurd later (told _ _)
  | @rejects event built unsent acks invite open_ disposal final =>
    obtain here | later := List.mem_append.1 rejected
    · cases disposal with
      | unbuilt => simp at here
      | sent sent =>
        simp only [List.mem_cons, Note.rejected.injEq, Option.some.injEq] at here
        obtain ⟨rfl, rfl⟩ | other := here
        · exact ⟨rfl, .inl (by simp)⟩
        · simp at other
      | held built kept =>
        simp only [List.mem_singleton, Note.rejected.injEq, Option.some.injEq] at here
        obtain ⟨rfl, rfl⟩ := here
        exact ⟨rfl, .inr ⟨_, rfl, rfl⟩⟩
    · exact absurd later (told _ _)
  | _ => simp at rejected

end ClientStanding

namespace Ledger

/-- Every first non-2xx final whose ACK was built: the ACK was sent, or its transaction is there and holds
    it. -/
structure Acknowledges (ledger : Ledger) : Prop where
  rejected : ∀ txn ack, .rejected txn (some ack) ∈ ledger.journal → .ack txn ack.1 ack.2 ∈ ledger.journal ∨
    ∃ branch standing, ledger.clients branch = some standing ∧ standing.serial = txn ∧ standing.unsentAck = some ack
  holding : ∀ branch standing, ledger.clients branch = some standing →
    ∀ ack, standing.unsentAck = some ack → standing.Holding

/-- A step tells a rejection of a transaction already open. -/
theorem Step.rejected_lt {leave : ClientStanding → Prop} {ledger after : Ledger} (kept : ledger.Kept)
    (stepped : Step leave ledger after) {txn : ℕ} {ack : Option (Bytes × SocketAddr)}
    (rejected : .rejected txn ack ∈ after.journal) : txn < ledger.opened := by
  have old (said : .rejected txn ack ∈ ledger.journal) : txn < ledger.opened := kept.said_lt _ said txn rfl
  have after {notes : List Note} (said : .rejected txn ack ∈ ledger.journal ++ notes)
      (new : .rejected txn ack ∈ notes → txn < ledger.opened) : txn < ledger.opened :=
    (List.mem_append.1 said).elim old new
  cases stepped with
  | aside isAside =>
    refine after rejected fun new => ?_
    obtain rfl := List.mem_singleton.1 new
    exact isAside.elim
  | client stands move =>
    exact after rejected fun new => move.saidBy _ new txn rfl ▸ kept.client_lt _ _ stands
  | clientOpens fresh displaced => exact old rejected
  | server stands move => exact after rejected fun new => absurd rfl (move.unspoken txn _ new)
  | serverOpens fresh =>
    refine after rejected fun new => ?_
    cases fresh <;> simp at new
  | pays => exact after rejected fun new => kept.owed_lt _ new txn rfl

namespace Acknowledges

variable {ledger after : Ledger}

theorem step (acknowledges : ledger.Acknowledges) (kept : ledger.Kept)
    (stepped : Step ClientStanding.Acked ledger after) : after.Acknowledges where
  rejected txn ack isRejected := by
    cases stepped.seen kept (stepped.rejected_lt kept isRejected) with
    | @own branch standing next notes stands serial move said resident placed =>
      -- what its own transaction sends or goes on holding
      have passes (either : .ack standing.serial ack.1 ack.2 ∈ notes ∨ ∃ later, next = some later ∧
          later.unsentAck = some ack) :
          .ack txn ack.1 ack.2 ∈ after.journal ∨ ∃ branch standing, after.clients branch = some standing ∧
            standing.serial = txn ∧ standing.unsentAck = some ack := by
        obtain sent | ⟨later, rfl, held⟩ := either
        · rw [said, ← serial]
          exact .inl (List.mem_append_right _ sent)
        · exact .inr ⟨branch, later, placed, move.same.1.trans serial, held⟩
      rw [said] at isRejected
      obtain old | new := List.mem_append.1 isRejected
      · obtain sent | ⟨other, holder, stood, isTxn, held⟩ := acknowledges.rejected txn ack old
        · rw [said]
          exact .inl (List.mem_append_left _ sent)
        obtain rfl := kept.client_inj other branch holder standing stood stands (isTxn.trans serial.symm)
        obtain rfl := Option.mem_unique stood stands
        exact passes (ClientStanding.ack_of_move (acknowledges.holding other holder stood ack held) held move)
      · exact passes (ClientStanding.ack_of_rejection move new).2
    | frame unspoken said resident stays =>
      rw [said] at isRejected ⊢
      obtain old | new := List.mem_append.1 isRejected
      · obtain sent | ⟨branch, holder, stood, isTxn, held⟩ := acknowledges.rejected txn ack old
        · exact .inl (List.mem_append_left _ sent)
        obtain still | may := stays branch holder stood isTxn
        · exact .inr ⟨branch, holder, still, isTxn, held⟩
        have invite := (acknowledges.holding branch holder stood ack held).invite
        cases (may invite).symm.trans held
      · exact absurd rfl (unspoken _ new)
  holding branch later stands ack held := by
    obtain ⟨fresh, _⟩ | ⟨standing, stood, serial, _⟩ := stepped.resident stands
    · cases fresh.noAck.symm.trans held
    cases stepped.seen kept (kept.client_lt branch standing stood) with
    | own standsThen isTxn move _ resident _ =>
      obtain rfl := resident branch later stands serial
      exact ClientStanding.holding_of_move (acknowledges.holding _ _ standsThen) move held
    | frame _ _ resident _ => exact acknowledges.holding branch later (resident branch later stands serial) ack held

theorem steps (acknowledges : ledger.Acknowledges) (kept : ledger.Kept)
    (moved : Steps ClientStanding.Acked ledger after) : after.Acknowledges := by
  induction moved with
  | refl => exact acknowledges
  | tail earlier stepped ih => exact ih.step (kept.steps earlier) stepped

end Acknowledges

end Ledger

/-! ### Every way out -/

namespace Owner

/-- No transaction at a branch holds an ACK. -/
def HoldsNoAck (owner : Owner) (branch : Branch) : Prop :=
  ∀ txn, owner.clients.get branch = some txn → txn.unsentAck = none

/-- What happens neither relinquishes the Accepted transactions of a call while one of them holds an ACK, nor
    opens a client transaction at the branch of one that does. -/
def SparesHeldAcks (wire : Wire) (owner : Owner) : OwnerEvent → Prop
  | .turn (.command (.relinquishAccepted callRef)) => ∀ branch ∈ owner.acceptedOf callRef, owner.HoldsNoAck branch
  | .turn (.command (.sendRequest msg _ _)) =>
    msg.method ≠ .cancel → msg.method ≠ .ack → owner.HoldsNoAck (sentBranch wire owner msg)
  | .turn (.command (.reoffer _ _)) | .turn (.response _ _) =>
    ∀ drawn, owner.ids ≤ drawn → owner.HoldsNoAck (wire.newBranch drawn)
  | _ => True

variable {owner : Owner} {branch : Branch} {event : OwnerEvent} {after : Owner}

theorem HoldsNoAck.mayLeave (noAck : owner.HoldsNoAck branch) : owner.MayLeave ClientStanding.Acked branch := by
  intro standing stands _
  obtain ⟨txn, found, rfl⟩ := Option.map_eq_some_iff.1 stands
  exact noAck txn found

section

variable (guarded : owner.wheel.Guarded)

include guarded

/-- A transaction that holds an ACK has a bound to come before its deadline. -/
theorem mayLeave_of_bound (past : ∀ txn key due opened, owner.clients.get branch = some txn →
      owner.timers.get key = some (due, .ackBound branch opened) → txn.lifetime.deadline ≤ due) :
    owner.MayLeave ClientStanding.Acked branch := by
  refine HoldsNoAck.mayLeave fun txn found => ?_
  cases held : txn.unsentAck with
  | none => rfl
  | some ack =>
    have stands : owner.wheel.txns (.client branch) = some txn.hands := congrArg (Option.map _) found
    have owes : txn.hands.owesAck = true := congrArg Option.isSome held
    obtain ⟨key, due, entry, before, _⟩ := guarded branch _ stands owes
    exact absurd before (Nat.not_lt.2 (past txn key due _ found entry))

/-- A cleanup fires only once no bound is filed before it. -/
theorem mayLeave_of_cleanup (filed : owner.wheel.Filed) {key due : ℕ}
    (entry : owner.timers.get key = some (due, .cleanup (.client branch)))
    (expires : owner.timers.expires owner.now key = true) : owner.MayLeave ClientStanding.Acked branch := by
  refine mayLeave_of_bound guarded fun txn other bound opened found isBound => ?_
  have stands : owner.wheel.txns (.client branch) = some txn.hands := congrArg (Option.map _) found
  obtain ⟨hands, stood, _, deadline⟩ := filed.cleanup key due _ entry
  cases stands.symm.trans stood
  obtain ⟨_, _, isEntry, _, first⟩ := DelayQueue.expires_due expires
  cases entry.symm.trans isEntry
  exact Nat.le_trans deadline (first other bound _ isBound)

/-- The sweep runs only once every bound that is due has fired. -/
theorem mayLeave_of_sweep (idle : owner.timers.idle owner.now = true)
    (late : .client branch ∈ owner.overdue) : owner.MayLeave ClientStanding.Acked branch := by
  refine mayLeave_of_bound guarded fun txn key due opened found isBound => ?_
  have isLate : deadlineAfter txn.lifetime.deadline txnSweepInterval ≤ owner.now := by
    obtain client | server := List.mem_append.1 late
    · obtain ⟨⟨other, stored⟩, isStored, isBranch⟩ := List.mem_map.1 client
      obtain ⟨member, isLate⟩ := List.mem_filter.1 isStored
      obtain rfl := TxnId.client.inj isBranch
      have foundToo : owner.clients.get other = some stored := AList.mem_lookup_iff.2 member
      cases found.symm.trans foundToo
      exact of_decide_eq_true isLate
    · obtain ⟨_, _, isServer⟩ := List.mem_map.1 server
      cases isServer
  have ahead : owner.now < due := DelayQueue.lt_of_idle idle isBound
  calc txn.lifetime.deadline ≤ deadlineAfter txn.lifetime.deadline txnSweepInterval := Nat.le_add_right _ _
    _ ≤ owner.now := isLate
    _ ≤ due := ahead.le

theorem eventParts_of_spares {wire : Wire}
    (filed : owner.wheel.Filed) (spares : owner.SparesHeldAcks wire event)
    (stepped : owner.step wire event = some after) : owner.EventParts wire ClientStanding.Acked event := by
  cases event with
  | pass ms => trivial
  | take => trivial
  | turn work =>
    obtain ⟨worked, isWorked, _⟩ := Option.map_eq_some_iff.1 stepped
    cases work with
    | command command =>
      cases command with
      | sendRequest msg dest kind => exact fun notCancel notAck => (spares notCancel notAck).mayLeave
      | relinquishAccepted callRef => exact fun branch accepted => (spares branch accepted).mayLeave
      | reoffer message src => exact fun drawn since => (spares drawn since).mayLeave
      | _ => trivial
    | response resp src => exact fun drawn since => (spares drawn since).mayLeave
    | timer key =>
      intro due branch entry
      dsimp only [work] at isWorked
      rw [entry] at isWorked
      dsimp only at isWorked
      split at isWorked
      · rename_i expires
        exact mayLeave_of_cleanup guarded filed entry expires
      · cases isWorked
    | sweep =>
      intro branch late
      dsimp only [work] at isWorked
      split at isWorked
      · rename_i idle
        exact mayLeave_of_sweep guarded idle late
      · cases isWorked
    | forget | request => trivial

end

/-- What a run whose events spare the held ACKs keeps. -/
structure Acknowledging (owner : Owner) : Prop where
  filed : owner.wheel.Filed
  guarded : owner.wheel.Guarded
  short : owner.wheel.ackBound < timerD
  kept : owner.ledger.Kept
  acknowledges : owner.ledger.Acknowledges

theorem Acknowledging.new {config : Config} (short : config.ackBoundMs < timerD) : (new config).Acknowledging where
  filed := new_filed
  guarded branch hands stands := by simp [wheel, Owner.new, txn] at stands
  short := short
  kept := new_kept config
  acknowledges := by constructor <;> simp [ledger, Owner.new]

theorem Acknowledging.step {wire : Wire} (acknowledging : owner.Acknowledging)
    (spares : owner.SparesHeldAcks wire event) (stepped : owner.step wire event = some after) :
    after.Acknowledging := by
  obtain ⟨filed, guarded, short, kept, acknowledges⟩ := acknowledging
  obtain ⟨moved, wound⟩ := @step_goes _ True _ _ _ asksAck_acked _ (eventParts_of_spares guarded filed spares stepped)
    (fun _ => trivial) stepped
  exact ⟨filed.steps wound, guarded.steps filed short wound, Wheel.Guarded.ackBound_steps filed wound ▸ short,
    kept.steps moved, acknowledges.steps kept moved⟩

/-- In every run whose events spare the held ACKs, the ACK of a first non-2xx final, once built, is on the
    wire by the time its transaction is out of the map. -/
theorem rejected_is_acknowledged {wire : Wire} {config : Config} {events : List OwnerEvent} {final : Owner} {txn : ℕ}
    {ack : Bytes × SocketAddr} (short : config.ackBoundMs < timerD)
    (spares : AllSteps (step wire) (SparesHeldAcks wire) (.new config) events)
    (ran : run (step wire) (.new config) events = some final) (rejected : .rejected txn (some ack) ∈ final.journal)
    (left : ∀ branch resident, final.clients.get branch = some resident → resident.serial ≠ txn) :
    .ack txn ack.1 ack.2 ∈ final.journal := by
  have acknowledging : final.Acknowledging := by
    refine run_invariant_of_steps Acknowledging ?_ spares ran (.new short)
    exact fun state event next acknowledging spares stepped => acknowledging.step spares stepped
  obtain sent | ⟨branch, standing, stands, serial, _⟩ := acknowledging.acknowledges.rejected txn ack rejected
  · exact sent
  obtain ⟨resident, found, rfl⟩ := Option.map_eq_some_iff.1 stands
  exact absurd serial (left branch resident found)

/-- A configuration that holds an ACK until its consumer releases it. -/
def heldConfig : Config := { sampleConfig with ackBoundMs := 500 }

/-- The Via of an INVITE sent for a call. -/
def sentVia : Via := ⟨some "b", "host", some "c", none, none⟩

/-- An answer to it. -/
def sentAnswer (status : ℕ) (image : Bytes) : SipResponse :=
  ⟨status, sentVia, 1, .invite, "call", some "from", some "tag", false, false, image⟩

/-- The INVITE is sent and takes a non-2xx final. -/
def rejectedEvents : List OwnerEvent :=
  [.turn (.command (.sendRequest { sampleInvite with topVia := sentVia } 7 .invite)),
    .turn (.response (sentAnswer 486 "486") 7)]

/-- A call relinquished while its INVITE holds an ACK: the ACK leaves first. -/
theorem relinquished_call_is_acknowledged :
    ∃ final, run (step .plain) (.new heldConfig)
      (rejectedEvents ++ [.turn (.command (.relinquishCall "c"))]) = some final ∧
      final.clients.get "b" = none ∧ .rejected 0 (some ("ACK", 7)) ∈ final.journal ∧
        .ack 0 "ACK" 7 ∈ final.journal := by
  refine ⟨_, rfl, rfl, ?_, ?_⟩
  · exact List.mem_cons_of_mem _ List.mem_cons_self
  refine @rejected_is_acknowledged .plain heldConfig (rejectedEvents ++ [.turn (.command (.relinquishCall "c"))]) _ 0
    ("ACK", 7) (by decide) ?_ rfl (List.mem_cons_of_mem _ List.mem_cons_self) ?_
  · refine .cons ?_ rfl (.cons ?_ rfl (.cons trivial rfl trivial))
    · exact fun _ _ txn found => by cases found
    intro drawn _ txn found
    obtain ⟨_, same⟩ := Sigma.mk.inj (List.mem_singleton.1 (AList.mem_lookup_iff.1 found))
    rw [eq_of_heq same]
    rfl
  · exact fun branch resident found => by cases found

/-- The Accepted transactions of a call relinquished while one of them holds the ACK of a non-2xx final it
    took before the 2xx: it is gone, and its ACK never left. -/
theorem accepted_relinquished_with_its_ack :
    ∃ final, run (step .plain) (.new heldConfig) (rejectedEvents ++
        [.turn (.response (sentAnswer 200 "200") 7), .turn (.command (.relinquishAccepted "c"))]) = some final ∧
      heldConfig.ackBoundMs < timerD ∧ .rejected 0 (some ("ACK", 7)) ∈ final.journal ∧
      (∀ branch, final.clients.get branch = none) ∧ .ack 0 "ACK" 7 ∉ final.journal := by
  refine ⟨_, rfl, by decide, List.mem_cons_of_mem _ List.mem_cons_self, fun _ => rfl, ?_⟩
  decide

end Owner

end SipServer.Txn
