/-
Module: SipServer.Proofs.TxnWheel
Purpose: The owner's bookkeeping as steps of its wheel and queue: arming and cancelling, holds, entering and
  leaving the maps, and the events offered.
-/
import SipServer.Proofs.TxnLedger
import SipServer.Txn.Wheel

namespace SipServer.Txn

open SipServer.Lib SipServer.Retransmit

variable {txn : Transaction} {timer : Timer} {key : Option TimerKey} {branch : Branch} {hands : Hands} {slot : Slot}
  {head : NewTransaction} {callRef : Option CallRef} {id other : TxnId} {change : Hands → Hands}

/-- No deadline is set further off than the longest delay. -/
theorem deadlineAfter_le (start delay : ℕ) : deadlineAfter start delay ≤ start + maxDelay :=
  Nat.add_le_add_left (Nat.min_le_right delay maxDelay) start

namespace Wheel

variable (wheel : Wheel)

@[simp] theorem txns_modify :
    (wheel.modify id change).txns other = if other = id then (wheel.txns id).map change else wheel.txns other := by
  unfold modify
  by_cases same : other = id
  · subst same
    simp
  · simp [same]

/-- Hands after a change come from hands before it. -/
theorem of_txns_modify {wheel : Wheel} {later : Hands} (stands : (wheel.modify id change).txns id = some later) :
    ∃ hands, wheel.txns id = some hands ∧ change hands = later := by
  rw [txns_modify, if_pos rfl] at stands
  exact Option.map_eq_some_iff.1 stands

@[simp] theorem txns_insert {due : ℕ} : (wheel.insert timer due).txns = wheel.txns := rfl

@[simp] theorem txns_cancel : (wheel.cancel key).txns = wheel.txns := by
  cases key <;> rfl

@[simp] theorem txns_cancelAll : (wheel.cancelAll hands).txns = wheel.txns := by
  simp [cancelAll]

@[simp] theorem now_cancel : (wheel.cancel key).now = wheel.now := by
  cases key <;> rfl

/-- Changes of one transaction compose. -/
theorem modify_modify (id : TxnId) (first second : Hands → Hands) :
    (wheel.modify id first).modify id second = wheel.modify id (second ∘ first) := by
  unfold modify
  simp [Function.comp_def]

theorem modify_cancel : (wheel.cancel key).modify id change = (wheel.modify id change).cancel key := by
  cases key <;> rfl

/-- A change that changes nothing. -/
theorem modify_self (same : ∀ hands, wheel.txns id = some hands → change hands = hands) :
    wheel.modify id change = wheel := by
  unfold modify
  have unchanged : (wheel.txns id).map change = wheel.txns id := by
    cases stands : wheel.txns id with
    | none => rfl
    | some hands => simp [same hands stands]
  rw [unchanged, Function.update_eq_self]

/-- A hand is emptied, then its entry cancelled. -/
theorem drop_eq {wheel : Wheel} (stands : wheel.txns id = some hands) :
    wheel.drop id slot = (wheel.modify id (·.setKey slot none)).cancel (hands.key slot) := by
  unfold drop
  rw [stands]

theorem txns_drop {wheel : Wheel} (stands : wheel.txns id = some hands) (slot : Slot) :
    (wheel.drop id slot).txns id = some (hands.setKey slot none) := by
  rw [drop_eq stands, txns_cancel, txns_modify, if_pos rfl, stands, Option.map_some]

/-- The three keys are cleared at once, then their entries go. -/
theorem stop_eq {wheel : Wheel} (stands : wheel.txns (.client branch) = some hands) :
    wheel.stop branch =
      (((wheel.modify (.client branch) (fun hands =>
        ((hands.setKey .retransmit none).setKey .timeout none).setKey .cancelRetransmit none)).cancel
          hands.retransmit).cancel hands.timeout).cancel hands.cancelRetransmit := by
  have second := txns_drop stands .retransmit
  have third := txns_drop second .timeout
  unfold stop
  rw [drop_eq third, drop_eq second, drop_eq stands, modify_cancel, modify_cancel, modify_modify, modify_cancel,
    modify_modify]
  rfl

/-- Hands enter with the cleanup entry just filed. -/
theorem txns_enter (id : TxnId) (hands : Hands) :
    (wheel.enter id hands).txns id = some (hands.setKey .cleanup (some wheel.timers.freshKey)) := by
  unfold enter
  split <;> simp

/-- Storing a key for a transaction not there yet only files its entry. -/
theorem store_absent {wheel : Wheel} (absent : wheel.txns id = none) {due : ℕ} :
    wheel.store id slot timer due = wheel.insert timer due := by
  refine modify_self _ fun hands stands => ?_
  cases absent.symm.trans stands

end Wheel

namespace Owner

variable (owner : Owner) {id : TxnId} {change : Transaction → Transaction}

/-! ### What the wheel does not see -/

@[simp] theorem wheel_say (note : Note) : (owner.say note).wheel = owner.wheel := rfl

@[simp] theorem wheel_trackCallRef : (owner.trackCallRef callRef id).wheel = owner.wheel := by
  cases callRef <;> rfl

@[simp] theorem wheel_untrackCallRef : (owner.untrackCallRef callRef id).wheel = owner.wheel := by
  unfold untrackCallRef
  split
  · rfl
  split
  · rfl
  · split <;> rfl

@[simp] theorem wheel_quiesceIfLast {callRef : CallRef} : (owner.quiesceIfLast callRef).wheel = owner.wheel := by
  unfold quiesceIfLast
  split <;> rfl

@[simp] theorem wheel_settleAccepted : (owner.settleAccepted branch).wheel = owner.wheel := by
  unfold settleAccepted
  split
  · rfl
  split
  · rfl
  split
  · exact wheel_quiesceIfLast _
  · rfl

@[simp] theorem wheel_countDroppedCancel : (owner.countDroppedCancel txn).wheel = owner.wheel := by
  unfold countDroppedCancel
  split <;> rfl

@[simp] theorem wheel_settleLeaving : (owner.settleLeaving id txn).wheel = owner.wheel := by
  unfold settleLeaving
  split <;> split <;> rfl

/-! ### Entries -/

@[simp] theorem wheel_cancelTimer : (owner.cancelTimer key).wheel = owner.wheel.cancel key := by
  cases key <;> rfl

@[simp] theorem wheel_cancelTimers : (owner.cancelTimers txn).wheel = owner.wheel.cancelAll txn.hands := by
  simp [cancelTimers, Wheel.cancelAll, Transaction.hands]

/-! ### Records as hands -/

theorem txn_modifyTxn (id other : TxnId) (change : Transaction → Transaction) :
    (owner.modifyTxn id change).txn other = if other = id then (owner.txn other).map change else owner.txn other := by
  cases id with
  | client branch =>
    cases other with
    | client other => simp [modifyTxn, modifyClient, txn, KeyMap.get_modify]
    | server key => rfl
  | server key =>
    cases other with
    | client branch => rfl
    | server other => simp [modifyTxn, modifyServer, txn, KeyMap.get_modify]

/-- A change known by what it does to the hands. -/
theorem wheel_modifyTxn (acts : Hands → Hands)
    (same : ∀ txn, owner.txn id = some txn → (change txn).hands = acts txn.hands) :
    (owner.modifyTxn id change).wheel = owner.wheel.modify id acts := by
  have changed : (fun other => ((owner.modifyTxn id change).txn other).map Transaction.hands) =
      (owner.wheel.modify id acts).txns := by
    funext other
    rw [txn_modifyTxn, Wheel.txns_modify]
    by_cases isId : other = id
    · subst isId
      cases found : owner.txn other with
      | none => simp [wheel, found]
      | some txn => simp [wheel, found, same txn found]
    · rw [if_neg isId, if_neg isId]
      rfl
  cases id <;> exact Wheel.ext rfl rfl changed rfl rfl rfl rfl rfl rfl rfl rfl

/-- A change of the record that leaves its hands is not seen. -/
theorem wheel_modifyTxn_same (same : ∀ txn, owner.txn id = some txn → (change txn).hands = txn.hands) :
    (owner.modifyTxn id change).wheel = owner.wheel := by
  rw [wheel_modifyTxn owner (fun hands => hands) same]
  exact Wheel.modify_self owner.wheel fun _ _ => rfl

theorem wheel_modifyClient_same {change : Transaction → Transaction}
    (same : ∀ txn, (change txn).hands = txn.hands) : (owner.modifyClient branch change).wheel = owner.wheel :=
  @wheel_modifyTxn_same owner (.client branch) change (fun txn _ => same txn)

theorem wheel_modifyServer_same {key : ServerTxnKey} {change : Transaction → Transaction}
    (same : ∀ txn, (change txn).hands = txn.hands) : (owner.modifyServer key change).wheel = owner.wheel :=
  @wheel_modifyTxn_same owner (.server key) change (fun txn _ => same txn)

/-- A record's hands are on the wheel. -/
theorem wheel_txn {owner : Owner} (found : owner.txn id = some txn) :
    owner.wheel.txns id = some txn.hands := by
  simp [wheel, found]

theorem wheel_txn_none {owner : Owner} (absent : owner.txn id = none) : owner.wheel.txns id = none := by
  simp [wheel, absent]

/-- A record that empties a hand and cancels its entry drops the slot. -/
theorem wheel_drop {owner : Owner} (found : owner.txn id = some txn)
    (acts : ∀ txn, (change txn).hands = txn.hands.setKey slot none) :
    ((owner.modifyTxn id change).cancelTimer (txn.hands.key slot)).wheel = owner.wheel.drop id slot := by
  rw [wheel_cancelTimer, wheel_modifyTxn owner (·.setKey slot none) (fun txn _ => acts txn)]
  unfold Wheel.drop
  rw [wheel_txn found]

theorem wheel_armAt {deadline : ℕ} :
    (owner.armAt timer deadline).2.wheel = owner.wheel.insert timer (owner.wheel.cleanupDue deadline) := rfl

/-- The cleanup entry is filed anew at the record's deadline. -/
theorem wheel_armDeadline {owner : Owner} (found : owner.txn id = some txn) :
    (owner.armDeadline id).wheel =
      (owner.wheel.cancel txn.cleanupKey).store id .cleanup (.cleanup id)
        (owner.wheel.cleanupDue txn.lifetime.deadline) := by
  unfold armDeadline
  rw [found]
  rw [wheel_modifyTxn _ (·.setKey .cleanup (some _)) (fun _ _ => rfl), wheel_armAt]
  cases txn.cleanupKey <;> rfl

theorem armDeadline_none {owner : Owner} (absent : owner.txn id = none) : owner.armDeadline id = owner := by
  unfold armDeadline
  rw [absent]

/-- A hold of a record is one of its hands. -/
theorem wheel_holdFor (id : TxnId) (why : Hold) (left : ℕ) :
    (owner.holdFor id why left).wheel = owner.wheel.holdFor id why left := by
  have changed := txn_modifyTxn owner id id
    (fun txn => { txn with lifetime := txn.lifetime.hold why (deadlineAfter owner.now left) })
  rw [if_pos rfl] at changed
  unfold holdFor Wheel.holdFor
  cases found : owner.txn id with
  | none =>
    rw [found, Option.map_none] at changed
    rw [wheel_txn_none found]
    refine (congrArg wheel (armDeadline_none changed)).trans (wheel_modifyTxn_same owner fun txn isTxn => ?_)
    cases found.symm.trans isTxn
  | some txn =>
    rw [found, Option.map_some] at changed
    rw [wheel_txn found]
    refine (wheel_armDeadline changed).trans ?_
    rw [wheel_modifyTxn owner ({ · with lifetime := txn.lifetime.hold why (deadlineAfter owner.now left) })]
    · rw [← Wheel.modify_cancel]
      rfl
    intro same isTxn
    cases found.symm.trans isTxn
    rfl

/-! ### Entering and leaving -/

theorem txn_dropTxn : (owner.dropTxn id).txn other = if other = id then none else owner.txn other := by
  cases id with
  | client branch =>
    cases other with
    | client other => simp [dropTxn, txn]
    | server key => rfl
  | server key =>
    cases other with
    | client branch => rfl
    | server other => simp [dropTxn, txn]

theorem txn_putTxn :
    (owner.putTxn id txn).txn other = if other = id then some txn else owner.txn other := by
  cases id with
  | client branch =>
    cases other with
    | client other => simp [putTxn, Owner.txn]
    | server key => rfl
  | server key =>
    cases other with
    | client branch => rfl
    | server other => simp [putTxn, Owner.txn]

theorem wheel_dropTxn :
    (owner.dropTxn id).wheel = { owner.wheel with txns := Function.update owner.wheel.txns id none } := by
  have changed : (fun other => ((owner.dropTxn id).txn other).map Transaction.hands) =
      Function.update owner.wheel.txns id none := by
    funext other
    rw [txn_dropTxn]
    by_cases isId : other = id
    · subst isId
      simp
    · simp [isId, wheel]
  cases id <;> exact Wheel.ext rfl rfl changed rfl rfl rfl rfl rfl rfl rfl rfl

theorem wheel_putTxn :
    (owner.putTxn id txn).wheel = { owner.wheel with
      txns := Function.update owner.wheel.txns id (some txn.hands) } := by
  have changed : (fun other => ((owner.putTxn id txn).txn other).map Transaction.hands) =
      Function.update owner.wheel.txns id (some txn.hands) := by
    funext other
    rw [txn_putTxn]
    by_cases isId : other = id
    · subst isId
      simp
    · simp [isId, wheel]
  cases id <;> exact Wheel.ext rfl rfl changed rfl rfl rfl rfl rfl rfl rfl rfl

/-- A deleted transaction leaves with its entries. -/
theorem wheel_deleteTxn : (owner.deleteTxn id).2.wheel = owner.wheel.leave id := by
  unfold deleteTxn Wheel.leave
  cases found : owner.txn id with
  | none => rw [wheel_txn_none found]
  | some txn =>
    rw [wheel_txn found]
    dsimp only
    split <;> simp [wheel_dropTxn]

/-- A record put over another cancels what the other held. -/
theorem wheel_setTxn :
    (owner.setTxn txn).wheel =
      match owner.wheel.txns txn.id with
      | some old =>
        { owner.wheel with txns := Function.update owner.wheel.txns txn.id (some txn.hands) }.cancelAll old
      | none => { owner.wheel with txns := Function.update owner.wheel.txns txn.id (some txn.hands) } := by
  unfold setTxn
  rw [wheel_trackCallRef]
  cases found : owner.txn txn.id with
  | none => rw [wheel_txn_none found, wheel_putTxn]
  | some old => simp [wheel_txn found, wheel_putTxn]

/-- A transaction opened enters with its hands. -/
theorem wheel_openTxnWith (named : head.id = id) {finish : Transaction → Transaction}
    (keeps : ∀ txn, (finish txn).id = txn.id) :
    (owner.openTxnWith head finish).wheel = owner.wheel.enter id (finish (owner.freshTxn head)).hands := by
  have isId : (finish (owner.freshTxn head)).id = id := (keeps _).trans named
  subst isId
  unfold openTxnWith
  rw [wheel_setTxn]
  rfl

theorem wheel_openTxn (named : head.id = id) :
    (owner.openTxn head).wheel = owner.wheel.enter id (owner.freshTxn head).hands :=
  wheel_openTxnWith owner named (fun _ => rfl)

/-! ### The queue -/

theorem wheel_armEventRetry : owner.armEventRetry.wheel = owner.wheel.armRetry := by
  unfold armEventRetry Wheel.armRetry
  change (if owner.eventRetryArmed = true then owner else _).wheel = if owner.eventRetryArmed = true then _ else _
  split <;> rfl

theorem wheel_defer {emission : Emission} : (owner.defer emission).wheel = owner.wheel.defer emission :=
  wheel_armEventRetry _

/-- The re-offer moves what there is room for. -/
theorem wheel_reoffer (emissions : List Emission) :
    (owner.reoffer emissions).wheel =
      { owner.wheel with
        events := owner.events ++ emissions.take (owner.config.eventCapacity - owner.events.length)
        deferred := emissions.drop (owner.config.eventCapacity - owner.events.length) } := by
  induction emissions generalizing owner with
  | nil => simp [reoffer, wheel, txn]
  | cons emission rest ih =>
    unfold reoffer
    split
    · obtain ⟨left, isLeft⟩ : ∃ left, owner.config.eventCapacity - owner.events.length = left + 1 :=
        ⟨owner.config.eventCapacity - owner.events.length - 1, by omega⟩
      have less : owner.config.eventCapacity - (owner.events ++ [emission]).length = left := by
        rw [List.length_append, List.length_singleton]
        omega
      rw [ih]
      rw [less, isLeft, List.take_succ_cons, List.drop_succ_cons, List.append_assoc]
      rfl
    · have none : owner.config.eventCapacity - owner.events.length = 0 := by omega
      rw [none, List.take_zero, List.drop_zero, List.append_nil]
      rfl

/-- One state of the wheel and the queue leads to another. -/
def Winds (mayExpire : Prop) (before after : Owner) : Prop := Wheel.Steps mayExpire before.wheel after.wheel

variable {mayExpire : Prop}

namespace Winds

variable {before middle after : Owner}

theorem refl (owner : Owner) : Winds mayExpire owner owner := Relation.ReflTransGen.refl

theorem of_wheel (same : after.wheel = before.wheel) : Winds mayExpire before after := by
  unfold Winds
  rw [same]

theorem trans (first : Winds mayExpire before middle) (second : Winds mayExpire middle after) :
    Winds mayExpire before after :=
  Relation.ReflTransGen.trans first second

/-- What the wheel does not see may follow. -/
theorem then_same (first : Winds mayExpire before middle) (same : after.wheel = middle.wheel) :
    Winds mayExpire before after :=
  first.trans (of_wheel same)

/-- One step of the wheel. -/
theorem step {wheel : Wheel} (stepped : Wheel.Step mayExpire before.wheel wheel) (result : after.wheel = wheel) :
    Winds mayExpire before after := by
  unfold Winds
  rw [result]
  exact .single stepped

/-- A loop winds when each of its rounds does. -/
theorem foldl {Item : Type} {round : Owner → Item → Owner}
    (each : ∀ owner item, Winds mayExpire owner (round owner item))
    (items : List Item) (owner : Owner) : Winds mayExpire owner (items.foldl round owner) := by
  induction items generalizing owner with
  | nil => exact refl owner
  | cons item items ih => exact (each owner item).trans (ih _)

end Winds

/-- A stretch of the owner's work, as the ledger, the wheel and the queue see it. -/
structure Goes (leave : ClientStanding → Prop) (mayExpire : Prop) (before after : Owner) : Prop where
  moves : Moves leave before after
  winds : Winds mayExpire before after

namespace Goes

variable {leave : ClientStanding → Prop} {owner before middle after : Owner}

theorem refl (owner : Owner) : Goes leave mayExpire owner owner := ⟨.refl owner, .refl owner⟩

theorem trans (first : Goes leave mayExpire before middle) (second : Goes leave mayExpire middle after) :
    Goes leave mayExpire before after :=
  ⟨first.moves.trans second.moves, first.winds.trans second.winds⟩

theorem of_same (ledger : after.ledger = before.ledger) (wheel : after.wheel = before.wheel) :
    Goes leave mayExpire before after :=
  ⟨.of_ledger ledger, .of_wheel wheel⟩

/-- A note no transaction speaks for may be said. -/
theorem remarks {note : Note} (aside : note.Aside) : Goes leave mayExpire owner (owner.say note) :=
  ⟨.remarks aside, .of_wheel (wheel_say owner _)⟩

theorem foldl {Item : Type} {round : Owner → Item → Owner}
    (each : ∀ owner item, Goes leave mayExpire owner (round owner item))
    (items : List Item) (owner : Owner) : Goes leave mayExpire owner (items.foldl round owner) :=
  ⟨.foldl (fun owner item => (each owner item).moves) items owner,
    .foldl (fun owner item => (each owner item).winds) items owner⟩

end Goes

/-- An entry of no transaction may be filed. -/
theorem arms_winds {delay : ℕ} (loose : timer.slot = none) (other : timer ≠ .eventRetry) :
    Winds mayExpire owner (owner.arm timer delay).2 :=
  .step (.arms _ loose other) rfl

/-- An entry filed and its key stored. -/
theorem stores_winds {delay : ℕ} (own : timer.slot = some (slot, id)) (other : slot ≠ .cleanup)
    (acts : ∀ txn, (change txn).hands = txn.hands.setKey slot (some owner.timers.freshKey)) :
    Winds mayExpire owner ((owner.arm timer delay).2.modifyTxn id change) := by
  refine .step (.stores (owner.now + min delay maxDelay) own other) ?_
  rw [wheel_modifyTxn _ (·.setKey slot (some owner.timers.freshKey)) (fun txn _ => acts txn)]
  rfl

/-- A client files an entry and keeps its key. -/
theorem storesClient_winds (slot : Slot) (delay : ℕ) (own : timer.slot = some (slot, .client branch))
    (other : slot ≠ .cleanup) (acts : ∀ txn,
      (change txn).hands = txn.hands.setKey slot (some owner.timers.freshKey)) :
    Winds mayExpire owner ((owner.arm timer delay).2.modifyClient branch change) :=
  stores_winds owner own other acts

theorem storesServer_winds {key : ServerTxnKey} (slot : Slot) (delay : ℕ)
    (own : timer.slot = some (slot, .server key)) (other : slot ≠ .cleanup) (acts : ∀ txn,
      (change txn).hands = txn.hands.setKey slot (some owner.timers.freshKey)) :
    Winds mayExpire owner ((owner.arm timer delay).2.modifyServer key change) :=
  stores_winds owner own other acts

/-- Two entries of a client transaction filed, and their keys stored together. -/
theorem storesBoth_winds (first second : Slot) {firstTimer secondTimer : Timer} (delay later : ℕ)
    (ownFirst : firstTimer.slot = some (first, .client branch))
    (ownSecond : secondTimer.slot = some (second, .client branch)) (otherFirst : first ≠ .cleanup)
    (otherSecond : second ≠ .cleanup) {change : Transaction → Transaction}
    (acts : ∀ txn, (change txn).hands = (txn.hands.setKey first (some owner.timers.freshKey)).setKey second
      (some (owner.arm firstTimer delay).2.timers.freshKey)) :
    Winds mayExpire owner (((owner.arm firstTimer delay).2.arm secondTimer later).2.modifyClient branch change) := by
  let filed := owner.wheel.store (.client branch) first firstTimer (owner.now + min delay maxDelay)
  have one : Wheel.Step mayExpire owner.wheel filed := .stores _ ownFirst otherFirst
  have two : Wheel.Step mayExpire filed (filed.store (.client branch) second secondTimer
    (owner.now + min later maxDelay)) :=
    .stores _ ownSecond otherSecond
  have result : (((owner.arm firstTimer delay).2.arm secondTimer later).2.modifyClient branch change).wheel =
      filed.store (.client branch) second secondTimer (owner.now + min later maxDelay) := by
    refine (@wheel_modifyTxn _ (.client branch)
      change (fun hands => (hands.setKey first (some owner.timers.freshKey)).setKey
      second (some (owner.arm firstTimer delay).2.timers.freshKey)) (fun txn _ => acts txn)).trans ?_
    exact (Wheel.modify_modify ((owner.arm firstTimer delay).2.arm secondTimer later).2.wheel (.client branch)
      (·.setKey first (some owner.timers.freshKey))
      (·.setKey second (some (owner.arm firstTimer delay).2.timers.freshKey))).symm
  unfold Winds
  rw [result]
  exact .tail (.single one) two

/-- A hand may be emptied and its entry cancelled. -/
theorem drops_winds {owner : Owner} (found : owner.txn id = some txn) (slot : Slot)
    (acts : ∀ txn, (change txn).hands = txn.hands.setKey slot none) :
    Winds mayExpire owner ((owner.modifyTxn id change).cancelTimer (txn.hands.key slot)) :=
  .step (.drops id slot) (wheel_drop found acts)

theorem deleteTxn_winds : Winds mayExpire owner (owner.deleteTxn id).2 := .step (.leaves id) (wheel_deleteTxn owner)

/-- No hold of a client transaction is shorter than Timer D, but one given its own length. -/
theorem hold_winds {why : Hold} (long : timerD ≤ why.duration) : Winds mayExpire owner (owner.hold id why) :=
  .step (.holds id why why.duration fun _ _ _ _ _ => long) (wheel_holdFor owner id why why.duration)

/-- A server may be held for any time. -/
theorem holdServer_winds {key : ServerTxnKey} {why : Hold} {left : ℕ} :
    Winds mayExpire owner (owner.holdFor (.server key) why left) :=
  .step (.holds (.server key) why left nofun) (wheel_holdFor owner (.server key) why left)

/-- An event offered is queued, deferred or lost. -/
theorem offer_winds {about : Option ℕ} {event : TransactionEvent} {critical : Bool} :
    Winds mayExpire owner (owner.offer about event critical).2 := by
  unfold offer
  dsimp only
  generalize isEmission : (⟨owner.emissions.length, critical, event⟩ : Emission) = emission
  have number : emission.number = owner.wheel.emissions.length := by rw [← isEmission]; rfl
  have isCritical : emission.critical = critical := by rw [← isEmission]
  split
  · rename_i deferring
    refine .step (.defers number ?_) (wheel_defer _)
    exact isCritical.trans (Bool.and_eq_true_iff.1 deferring).1
  rename_i notDeferring
  split
  · rename_i hasRoom
    refine .step (.queues number hasRoom fun critical => ?_) rfl
    rw [isCritical] at critical
    subst critical
    have empty : owner.deferredEvents = [] := by simpa [say] using notDeferring
    exact empty
  · split
    · rename_i critical
      exact .step (.defers number (isCritical.trans critical)) (wheel_defer _)
    · rename_i ordinary
      exact .step (.loses number (isCritical.trans (Bool.eq_false_of_not_eq_true ordinary))) rfl

theorem emit_winds (about : Option ℕ) (event : TransactionEvent) : Winds mayExpire owner (owner.emit about event).2 :=
  offer_winds owner

theorem emitCritical_winds (about : Option ℕ) (event : TransactionEvent) :
    Winds mayExpire owner (owner.emitCritical about event) :=
  offer_winds owner

/-- A transaction just opened, with no key of its own but its cleanup's. -/
theorem openTxn_winds (named : head.id = id) : Winds mayExpire owner (owner.openTxn head) := by
  refine .step (.enters rfl ?_ ?_) (wheel_openTxn owner named)
  · exact deadlineAfter_le _ _
  intro slot key stored
  cases slot <;> cases stored

/-- A change of a client transaction that its timers do not see. -/
theorem modifyClient_winds (acts : ∀ txn, (change txn).hands = txn.hands) :
    Winds mayExpire owner (owner.modifyClient branch change) :=
  .of_wheel (wheel_modifyClient_same owner acts)

/-- A change of a server transaction that its timers do not see. -/
theorem modifyServer_winds {key : ServerTxnKey}
    (acts : ∀ txn, (change txn).hands = txn.hands) : Winds mayExpire owner (owner.modifyServer key change) :=
  .of_wheel (wheel_modifyServer_same owner acts)

/-! ### Both sides of the bookkeeping -/

section

variable {leave : ClientStanding → Prop} {owner : Owner} {event : TransactionEvent}

theorem emit_goes : Goes leave mayExpire owner (owner.emit none event).2 := ⟨emit_moves, emit_winds owner none event⟩

theorem emitCritical_goes : Goes leave mayExpire owner (owner.emitCritical none event) :=
  ⟨emitCritical_moves, emitCritical_winds owner none event⟩

theorem deleteServer_goes (owner : Owner) (key : ServerTxnKey) :
    Goes leave mayExpire owner (owner.deleteTxn (.server key)).2 :=
  ⟨deleteServer_moves owner key, deleteTxn_winds owner⟩

/-- A change of a client transaction that neither side sees. -/
theorem modifyClient_goes (stands : ∀ txn, (change txn).clientStanding = txn.clientStanding)
    (acts : ∀ txn, (change txn).hands = txn.hands) : Goes leave mayExpire owner (owner.modifyClient branch change) :=
  ⟨.of_ledger (ledger_modifyClient_same fun txn _ => stands txn), modifyClient_winds owner acts⟩

/-- A change of a server transaction that neither side sees. -/
theorem modifyServer_goes {key : ServerTxnKey} (stands : ∀ txn, (change txn).serverStanding = txn.serverStanding)
    (acts : ∀ txn, (change txn).hands = txn.hands) : Goes leave mayExpire owner (owner.modifyServer key change) :=
  ⟨.of_ledger (ledger_modifyServer_same fun txn _ => stands txn), modifyServer_winds owner acts⟩

end

end Owner

end SipServer.Txn
