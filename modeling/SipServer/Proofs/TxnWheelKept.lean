/-
Module: SipServer.Proofs.TxnWheelKept
Purpose: What every run keeps of the wheel: a stored key names an entry of its own transaction, a transaction
  has no cleanup entry but the one it stores, and a retry tick is pending, once, while events are deferred.
-/
import SipServer.Proofs.TxnLedgerTurn

namespace SipServer.Txn

open SipServer.Lib SipServer.Retransmit

variable {key : Option TimerKey} {hands : Hands} {wheel : Wheel}

namespace Hands

variable {timer : Timer} {slot : Slot} {due : ℕ}

@[simp] theorem key_setKey (hands : Hands) (slot other : Slot) (key : Option TimerKey) :
    (hands.setKey slot key).key other = if other = slot then key else hands.key other := by
  cases slot <;> cases other <;> rfl

@[simp] theorem owesAck_setKey : (hands.setKey slot key).owesAck = hands.owesAck := by
  cases slot <;> rfl

@[simp] theorem lifetime_setKey : (hands.setKey slot key).lifetime = hands.lifetime := by
  cases slot <;> rfl

@[simp] theorem createdAt_setKey : (hands.setKey slot key).createdAt = hands.createdAt := by
  cases slot <;> rfl

end Hands

namespace Lifetime

/-- A hold lasts till its end at least. -/
theorem le_deadline_hold (lifetime : Lifetime) {why : Hold} {till : ℕ} :
    till ≤ (lifetime.hold why till).deadline := by
  cases lifetime with
  | active backstop => exact Nat.le_refl till
  | held running old =>
    simp only [hold, deadline]
    split <;> omega

/-- A hold lasts till its end or the deadline before it. -/
theorem deadline_hold_le (lifetime : Lifetime) (why : Hold) (till : ℕ) :
    (lifetime.hold why till).deadline ≤ max till lifetime.deadline := by
  cases lifetime with
  | active backstop => exact Nat.le_max_left _ _
  | held running old =>
    simp only [hold, deadline]
    split <;> omega

end Lifetime

namespace Wheel

/-! ### Entries -/

theorem get_insert (wheel : Wheel) (timer : Timer) (due key : ℕ) :
    (wheel.insert timer due).timers.get key =
      if key = wheel.timers.freshKey then some (due, timer) else wheel.timers.get key :=
  DelayQueue.get_insert ..

theorem get_remove (wheel : Wheel) (key other : ℕ) :
    (wheel.remove key).timers.get other = if other = key then none else wheel.timers.get other :=
  DelayQueue.get_remove ..

@[simp] theorem ackBound_cancel : (wheel.cancel key).ackBound = wheel.ackBound := by
  cases key <;> rfl

@[simp] theorem armed_cancel : (wheel.cancel key).armed = wheel.armed := by
  cases key <;> rfl

@[simp] theorem deferred_cancel : (wheel.cancel key).deferred = wheel.deferred := by
  cases key <;> rfl

/-- What stands after a cancel stood, under another key. -/
theorem get_cancel_iff (wheel : Wheel) (key : Option TimerKey) {other : ℕ} {entry : ℕ × Timer} :
    (wheel.cancel key).timers.get other = some entry ↔ wheel.timers.get other = some entry ∧ key ≠ some other := by
  cases key with
  | none => simp [cancel]
  | some key =>
    rw [cancel, get_remove]
    by_cases same : other = key
    · simp [same]
    · simp [same, Ne.symm same]

/-- What stands after all hands are cancelled stood, under no key of theirs. -/
theorem get_cancelAll_iff {other : ℕ} {entry : ℕ × Timer} :
    (wheel.cancelAll hands).timers.get other = some entry ↔
      wheel.timers.get other = some entry ∧ ∀ slot, hands.key slot ≠ some other := by
  unfold cancelAll
  simp only [get_cancel_iff]
  constructor
  · rintro ⟨⟨⟨⟨found, retransmit⟩, timeout⟩, cleanup⟩, cancelRetransmit⟩
    refine ⟨found, fun slot => ?_⟩
    cases slot with
    | retransmit => exact retransmit
    | timeout => exact timeout
    | cleanup => exact cleanup
    | cancelRetransmit => exact cancelRetransmit
  · rintro ⟨found, apart⟩
    exact ⟨⟨⟨⟨found, apart .retransmit⟩, apart .timeout⟩, apart .cleanup⟩, apart .cancelRetransmit⟩

/-! ### What one transaction does to the wheel -/

/-- One transaction's hands and entries change, and nothing else on the wheel. -/
structure Own (id : TxnId) (before after : Wheel) : Prop where
  now : after.now = before.now
  ackBound : after.ackBound = before.ackBound
  armed : after.armed = before.armed
  deferred : after.deferred = before.deferred
  others : ∀ other, other ≠ id → after.txns other = before.txns other
  stay : ∀ key due timer, before.timers.get key = some (due, timer) → (∀ slot, timer.slot ≠ some (slot, id)) →
    after.timers.get key = some (due, timer)
  came : ∀ key due timer, after.timers.get key = some (due, timer) →
    before.timers.get key = some (due, timer) ∨ ∃ slot, timer.slot = some (slot, id)

namespace Own

variable {id : TxnId} {before middle after : Wheel}

theorem trans (first : Own id before middle) (second : Own id middle after) : Own id before after where
  now := second.now.trans first.now
  ackBound := second.ackBound.trans first.ackBound
  armed := second.armed.trans first.armed
  deferred := second.deferred.trans first.deferred
  others other differ := (second.others other differ).trans (first.others other differ)
  stay key due timer filed foreign := second.stay key due timer (first.stay key due timer filed foreign) foreign
  came key due timer filed := by
    obtain earlier | own := second.came key due timer filed
    · exact first.came key due timer earlier
    · exact .inr own

theorem refl (id : TxnId) (wheel : Wheel) : Own id wheel wheel :=
  ⟨rfl, rfl, rfl, rfl, fun _ _ => rfl, fun _ _ _ filed _ => filed, fun _ _ _ filed => .inl filed⟩

/-- Changing its own hands is a transaction's own doing. -/
theorem modify (wheel : Wheel) (id : TxnId) (change : Hands → Hands) : Own id wheel (wheel.modify id change) where
  now := rfl
  ackBound := rfl
  armed := rfl
  deferred := rfl
  others other differ := by rw [txns_modify, if_neg differ]
  stay _ _ _ filed _ := filed
  came _ _ _ filed := .inl filed

theorem put (wheel : Wheel) (id : TxnId) (hands : Option Hands) :
    Own id wheel { wheel with txns := Function.update wheel.txns id hands } where
  now := rfl
  ackBound := rfl
  armed := rfl
  deferred := rfl
  others _ differ := Function.update_of_ne differ _ _
  stay _ _ _ filed _ := filed
  came _ _ _ filed := .inl filed

theorem insert (wheel : Wheel) (due : ℕ) (own : timer.slot = some (slot, id)) :
    Own id wheel (wheel.insert timer due) where
  now := rfl
  ackBound := rfl
  armed := rfl
  deferred := rfl
  others _ _ := rfl
  stay key later _ filed _ := by
    rw [get_insert, if_neg (DelayQueue.ne_freshKey_of_get filed)]
    exact filed
  came key later other filed := by
    rcases KeyMap.of_get_insert filed with ⟨-, ⟨⟩⟩ | ⟨-, filed⟩
    · exact .inr ⟨slot, own⟩
    · exact .inl filed

/-- Its own entries may be taken off the wheel. -/
theorem cancel {wheel : Wheel} {key : Option TimerKey}
    (own : ∀ named due timer, key = some named → wheel.timers.get named = some (due, timer) →
      ∃ slot, timer.slot = some (slot, id)) : Own id wheel (wheel.cancel key) where
  now := now_cancel wheel
  ackBound := ackBound_cancel
  armed := armed_cancel
  deferred := deferred_cancel
  others _ _ := by rw [txns_cancel]
  stay other due timer filed foreign := by
    refine (get_cancel_iff wheel key).2 ⟨filed, fun isKey => ?_⟩
    obtain ⟨slot, own⟩ := own other due timer isKey filed
    exact foreign slot own
  came other due timer filed := .inl ((get_cancel_iff wheel key).1 filed).1

end Own

/-- What every run keeps of the entries of a wheel. -/
structure Entries (wheel : Wheel) : Prop where
  named : ∀ id hands slot key, wheel.txns id = some hands → hands.key slot = some key →
    ∃ due timer, wheel.timers.get key = some (due, timer) ∧ timer.slot = some (slot, id)
  cleanup : ∀ key due id, wheel.timers.get key = some (due, .cleanup id) →
    ∃ hands, wheel.txns id = some hands ∧ hands.cleanup = some key ∧ hands.lifetime.deadline ≤ due
  near : ∀ id hands, wheel.txns id = some hands → hands.lifetime.deadline ≤ wheel.now + maxDelay
  retry : ∀ key due, wheel.timers.get key = some (due, .eventRetry) → wheel.armed = true
  pending : wheel.armed = true → ∃ key due, wheel.timers.get key = some (due, .eventRetry)
  once : ∀ key other due later, wheel.timers.get key = some (due, .eventRetry) →
    wheel.timers.get other = some (later, .eventRetry) → key = other

/-- What every run keeps of a wheel: its entries, and a retry tick while events are deferred. -/
structure Filed (wheel : Wheel) : Prop extends Entries wheel where
  waiting : wheel.deferred ≠ [] → wheel.armed = true

namespace Filed

variable {mayExpire : Prop} {wheel after : Wheel} {id : TxnId} {hands : Hands}

/-- A stored key's entry is the transaction's own. -/
theorem own_entry (filed : wheel.Filed) (stands : wheel.txns id = some hands) (slot : Slot) {named : ℕ}
    (stored : hands.key slot = some named) (entry : wheel.timers.get named = some (due, timer)) :
    timer.slot = some (slot, id) := by
  obtain ⟨_, found, isFiled, own⟩ := filed.named id hands slot named stands stored
  cases isFiled.symm.trans entry
  exact own

/-- One transaction's change, given what it then stores. -/
theorem own (filed : wheel.Filed) (changes : Own id wheel after)
    (named : ∀ later slot key, after.txns id = some later → later.key slot = some key →
      ∃ due timer, after.timers.get key = some (due, timer) ∧ timer.slot = some (slot, id))
    (cleanup : ∀ key due, after.timers.get key = some (due, .cleanup id) →
      ∃ later, after.txns id = some later ∧ later.cleanup = some key ∧ later.lifetime.deadline ≤ due)
    (near : ∀ later, after.txns id = some later → later.lifetime.deadline ≤ wheel.now + maxDelay) : after.Filed := by
  -- a retry entry is no transaction's
  have foreign : ∀ slot, Timer.eventRetry.slot ≠ some (slot, id) := nofun
  have earlier {key due : ℕ} (entry : after.timers.get key = some (due, .eventRetry)) :
      wheel.timers.get key = some (due, .eventRetry) := by
    obtain old | ⟨slot, own⟩ := changes.came key due _ entry
    · exact old
    · cases own
  refine
    { named := ?_, cleanup := ?_, near := ?_, retry := ?_, pending := ?_, once := ?_, waiting := ?_ }
  · intro other later slot key stands stored
    by_cases same : other = id
    · subst same
      exact named later slot key stands stored
    rw [changes.others other same] at stands
    obtain ⟨due, timer, entry, own⟩ := filed.named other later slot key stands stored
    refine ⟨due, timer, changes.stay key due timer entry fun slot isId => ?_, own⟩
    exact same (Prod.mk.inj (Option.mem_unique own isId)).2
  · intro key due other entry
    by_cases same : other = id
    · subst same
      exact cleanup key due entry
    rw [changes.others other same]
    obtain old | ⟨slot, own⟩ := changes.came key due _ entry
    · exact filed.cleanup key due other old
    · exact absurd (Prod.mk.inj (Option.some.inj own)).2 same
  · intro other later stands
    rw [changes.now]
    by_cases same : other = id
    · subst same
      exact near later stands
    · rw [changes.others other same] at stands
      exact filed.near other later stands
  · intro key due entry
    rw [changes.armed]
    exact filed.retry key due (earlier entry)
  · intro armed
    rw [changes.armed] at armed
    obtain ⟨key, due, entry⟩ := filed.pending armed
    exact ⟨key, due, changes.stay key due _ entry foreign⟩
  · intro key other due later entry entryToo
    exact filed.once key other due later (earlier entry) (earlier entryToo)
  · intro deferred
    rw [changes.deferred] at deferred
    rw [changes.armed]
    exact filed.waiting deferred

theorem own_store (isOwn : timer.slot = some (slot, id)) : Own id wheel (wheel.store id slot timer due) :=
  (Own.insert wheel due isOwn).trans (.modify _ id _)

section

variable (filed : wheel.Filed)

include filed

/-- A transaction may file an entry into any hand but cleanup. -/
theorem store (due : ℕ) (isOwn : timer.slot = some (slot, id))
    (other : slot ≠ .cleanup) : (wheel.store id slot timer due).Filed := by
  refine filed.own (own_store isOwn) ?_ ?_ ?_
  · intro later name key stands stored
    obtain ⟨hands, stood, rfl⟩ := of_txns_modify stands
    rw [Hands.key_setKey] at stored
    split at stored
    · rename_i isSlot
      subst isSlot
      cases stored
      exact ⟨due, timer, (get_insert wheel timer due _).trans (if_pos rfl), isOwn⟩
    · obtain ⟨later, held, entry, own⟩ := filed.named id hands name key stood stored
      exact ⟨later, held, (get_insert wheel timer due key).trans
        ((if_neg (DelayQueue.ne_freshKey_of_get entry)).trans entry), own⟩
  · intro key later entry
    have inserted : (wheel.insert timer due).timers.get key = some (later, .cleanup id) := entry
    rcases KeyMap.of_get_insert inserted with ⟨-, ⟨⟩⟩ | ⟨-, inserted⟩
    · exact absurd (Prod.mk.inj (Option.some.inj isOwn)).1.symm other
    obtain ⟨hands, stood, stored, deadline⟩ := filed.cleanup key later id inserted
    refine ⟨hands.setKey slot (some wheel.timers.freshKey), ?_, ?_, ?_⟩
    · unfold Wheel.store
      rw [txns_modify, if_pos rfl]
      exact congrArg (Option.map _) stood
    · exact (Hands.key_setKey hands slot .cleanup _).trans ((if_neg (Ne.symm other)).trans stored)
    · rw [Hands.lifetime_setKey]
      exact deadline
  · intro later stands
    obtain ⟨hands, stood, rfl⟩ := of_txns_modify stands
    rw [Hands.lifetime_setKey]
    exact filed.near id hands stood

theorem own_drop (id : TxnId) (slot : Slot) : Own id wheel (wheel.drop id slot) := by
  unfold drop
  split
  · rename_i hands stands
    refine (Own.modify wheel id _).trans (.cancel ?_)
    exact fun named due timer stored entry => ⟨slot, filed.own_entry stands slot stored entry⟩
  · exact .refl id wheel

/-- A hand may be emptied. -/
theorem drop (id : TxnId) (slot : Slot) : (wheel.drop id slot).Filed := by
  cases stands : wheel.txns id with
  | none =>
    unfold Wheel.drop
    rw [stands]
    exact filed
  | some hands =>
    have cleared := txns_drop stands slot
    have entry_iff {key : ℕ} {entry : ℕ × Timer} : (wheel.drop id slot).timers.get key = some entry ↔
        wheel.timers.get key = some entry ∧ hands.key slot ≠ some key := by
      rw [drop_eq stands]
      exact get_cancel_iff _ _
    refine filed.own (filed.own_drop id slot) ?_ ?_ ?_
    · intro later name key standsThen stored
      cases cleared.symm.trans standsThen
      rw [Hands.key_setKey] at stored
      split at stored
      · cases stored
      rename_i differ
      obtain ⟨due, timer, entry, own⟩ := filed.named id hands name key stands stored
      refine ⟨due, timer, entry_iff.2 ⟨entry, fun isStored => ?_⟩, own⟩
      have isSlot := filed.own_entry stands slot isStored entry
      exact differ (Prod.mk.inj (Option.mem_unique own isSlot)).1
    · intro key due entry
      obtain ⟨old, kept⟩ := entry_iff.1 entry
      obtain ⟨same, stood, stored, deadline⟩ := filed.cleanup key due id old
      cases stands.symm.trans stood
      refine ⟨_, cleared, ?_, ?_⟩
      · refine (Hands.key_setKey hands slot .cleanup none).trans ((if_neg ?_).trans stored)
        rintro rfl
        exact kept stored
      · rw [Hands.lifetime_setKey]
        exact deadline
    · intro later standsThen
      cases cleared.symm.trans standsThen
      rw [Hands.lifetime_setKey]
      exact filed.near id hands stands

/-- A change of hands that leaves the keys and the lifetime. -/
theorem modify (id : TxnId) {change : Hands → Hands} (keys : ∀ hands slot, (change hands).key slot = hands.key slot)
    (lifetime : ∀ hands, (change hands).lifetime = hands.lifetime) : (wheel.modify id change).Filed := by
  refine filed.own (.modify wheel id change) ?_ ?_ ?_
  · intro later slot key stands stored
    obtain ⟨hands, stood, rfl⟩ := of_txns_modify stands
    rw [keys] at stored
    exact filed.named id hands slot key stood stored
  · intro key due entry
    obtain ⟨hands, stood, stored, deadline⟩ := filed.cleanup key due id entry
    refine ⟨change hands, ?_, (keys hands .cleanup).trans stored, ?_⟩
    · rw [txns_modify, if_pos rfl, stood, Option.map_some]
    rw [lifetime]
    exact deadline
  · intro later stands
    obtain ⟨hands, stood, rfl⟩ := of_txns_modify stands
    rw [lifetime]
    exact filed.near id hands stood

/-- Entries that are neither a transaction's nor the retry tick may come and go. -/
theorem loose {timers : DelayQueue Timer}
    (same : ∀ key due timer, (timer.slot ≠ none ∨ timer = .eventRetry) →
      (timers.get key = some (due, timer) ↔ wheel.timers.get key = some (due, timer))) :
    { wheel with timers }.Filed where
  named other hands slot key stands stored := by
    obtain ⟨due, timer, entry, own⟩ := filed.named other hands slot key stands stored
    refine ⟨due, timer, (same key due timer (.inl fun none => ?_)).2 entry, own⟩
    cases none.symm.trans own
  cleanup key due other entry := by
    have own : (Timer.cleanup other).slot ≠ none := nofun
    exact filed.cleanup key due other ((same key due _ (.inl own)).1 entry)
  near := filed.near
  retry key due entry := filed.retry key due ((same key due _ (.inr rfl)).1 entry)
  pending armed := by
    obtain ⟨key, due, entry⟩ := filed.pending armed
    exact ⟨key, due, (same key due _ (.inr rfl)).2 entry⟩
  once key other due later entry entryToo :=
    filed.once key other due later ((same key due _ (.inr rfl)).1 entry) ((same other later _ (.inr rfl)).1 entryToo)
  waiting := filed.waiting

theorem arms (due : ℕ) (isLoose : timer.slot = none) (other : timer ≠ .eventRetry) :
    (wheel.insert timer due).Filed := by
  refine filed.loose fun key later held kind => ?_
  have inserted := get_insert wheel timer due key
  constructor
  · intro entry
    rw [show (wheel.timers.insert timer due).2.get key = _ from inserted] at entry
    split at entry
    · cases entry
      exact absurd isLoose (kind.resolve_right other)
    · exact entry
  · intro entry
    exact inserted.trans ((if_neg (DelayQueue.ne_freshKey_of_get entry)).trans entry)

theorem removes {key : ℕ} (entry : wheel.timers.get key = some (due, timer))
    (isLoose : timer.slot = none) (other : timer ≠ .eventRetry) : (wheel.remove key).Filed := by
  refine filed.loose fun otherKey later held kind => ?_
  have removed := get_remove wheel key otherKey
  rw [show (wheel.timers.remove key).get otherKey = _ from removed]
  by_cases same : otherKey = key
  · subst same
    rw [if_pos rfl]
    refine ⟨nofun, fun found => ?_⟩
    cases entry.symm.trans found
    exact absurd isLoose (kind.resolve_right other)
  · rw [if_neg same]

end

/-- An entry of a transaction's own leaves the wheel. -/
theorem own_remove {key : ℕ} (entry : wheel.timers.get key = some (due, timer))
    (isOwn : timer.slot = some (slot, id)) : Own id wheel (wheel.remove key) := by
  refine @Own.cancel id wheel (some key) fun named later held isKey found => ⟨slot, ?_⟩
  cases isKey
  cases entry.symm.trans found
  exact isOwn

theorem fire (filed : wheel.Filed) {key : ℕ} (entry : wheel.timers.get key = some (due, timer))
    (other : timer ≠ .eventRetry) : (wheel.fire key timer).Filed := by
  unfold Wheel.fire
  split
  · rename_i slot id isOwn
    have removed {held : ℕ × Timer} {otherKey : ℕ} : (wheel.remove key).timers.get otherKey = some held ↔
        wheel.timers.get otherKey = some held ∧ otherKey ≠ key := by
      rw [get_remove]
      split <;> simp_all
    refine filed.own ((own_remove entry isOwn).trans (.modify _ id _)) ?_ ?_ ?_
    · intro later name stored stands isStored
      obtain ⟨hands, stood, rfl⟩ := of_txns_modify stands
      rw [Hands.key_setKey] at isStored
      split at isStored
      · cases isStored
      rename_i differ
      obtain ⟨dueThen, held, found, own⟩ := filed.named id hands name stored stood isStored
      refine ⟨dueThen, held, removed.2 ⟨found, ?_⟩, own⟩
      rintro rfl
      cases entry.symm.trans found
      exact differ (Prod.mk.inj (Option.mem_unique own isOwn)).1
    · intro stored dueThen found
      obtain ⟨old, apart⟩ := removed.1 found
      obtain ⟨hands, stood, isStored, deadline⟩ := filed.cleanup stored dueThen id old
      refine ⟨hands.setKey slot none, ?_, ?_, ?_⟩
      · rw [txns_modify, if_pos rfl]
        exact congrArg (Option.map _) stood
      · refine (Hands.key_setKey hands slot .cleanup none).trans ((if_neg ?_).trans isStored)
        rintro rfl
        -- a cleanup entry that fires is the one the transaction stores
        have isCleanup : timer = .cleanup id := by
          cases timer <;> cases isOwn
          rfl
        subst isCleanup
        obtain ⟨same, stoodToo, storedToo, _⟩ := filed.cleanup key due id entry
        cases stood.symm.trans stoodToo
        exact apart (Option.mem_unique isStored storedToo)
      · rw [Hands.lifetime_setKey]
        exact deadline
    · intro later stands
      obtain ⟨hands, stood, rfl⟩ := of_txns_modify stands
      rw [Hands.lifetime_setKey]
      exact filed.near id hands stood
  · rename_i isLoose
    exact filed.removes entry isLoose other

/-- A cleanup entry is filed no earlier than its deadline. -/
theorem le_cleanupDue {deadline : ℕ} (near : deadline ≤ wheel.now + maxDelay) :
    deadline ≤ wheel.cleanupDue deadline := by
  unfold cleanupDue
  omega

theorem own_holdFor (filed : wheel.Filed) (id : TxnId) (why : Hold) (left : ℕ) :
    Own id wheel (wheel.holdFor id why left) := by
  unfold holdFor
  split
  · rename_i hands stands
    have cancels : Own id wheel (wheel.cancel hands.cleanup) :=
      .cancel fun named due timer stored entry => ⟨.cleanup, filed.own_entry stands .cleanup stored entry⟩
    exact (cancels.trans (.modify _ id _)).trans (own_store rfl)
  · exact .refl id wheel

theorem txns_holdFor (stands : wheel.txns id = some hands) (why : Hold) (left : ℕ) :
    (wheel.holdFor id why left).txns id =
      some ({ hands with lifetime := hands.lifetime.hold why (deadlineAfter wheel.now left) }.setKey .cleanup
        (some (wheel.cancel hands.cleanup).timers.freshKey)) := by
  unfold holdFor
  rw [stands]
  unfold Wheel.store
  rw [txns_modify, if_pos rfl, txns_insert, txns_modify, if_pos rfl, txns_cancel, stands]
  rfl

/-- A hold files the cleanup entry at the new deadline. -/
theorem holdFor (filed : wheel.Filed) (id : TxnId) (why : Hold) (left : ℕ) : (wheel.holdFor id why left).Filed := by
  cases stands : wheel.txns id with
  | none =>
    unfold Wheel.holdFor
    rw [stands]
    exact filed
  | some hands =>
    generalize isLifetime : hands.lifetime.hold why (deadlineAfter wheel.now left) = lifetime
    generalize isDue : wheel.cleanupDue lifetime.deadline = due
    have held : wheel.holdFor id why left =
        ((wheel.cancel hands.cleanup).modify id ({ · with lifetime })).store id .cleanup (.cleanup id) due := by
      unfold Wheel.holdFor
      rw [stands]
      dsimp only
      rw [isLifetime, isDue]
    have near : lifetime.deadline ≤ wheel.now + maxDelay := by
      have longer := hands.lifetime.deadline_hold_le why (deadlineAfter wheel.now left)
      rw [isLifetime] at longer
      refine longer.trans (max_le ?_ (filed.near id hands stands))
      exact deadlineAfter_le _ _
    have after := txns_holdFor stands why left
    generalize isFresh : (wheel.cancel hands.cleanup).timers.freshKey = fresh at *
    rw [isLifetime] at after
    have entries (key : ℕ) : (wheel.holdFor id why left).timers.get key =
        if key = fresh then some (due, .cleanup id) else (wheel.cancel hands.cleanup).timers.get key := by
      rw [held, ← isFresh]
      exact get_insert _ _ _ key
    refine filed.own (filed.own_holdFor id why left) ?_ ?_ ?_
    · intro later slot key standsThen stored
      cases after.symm.trans standsThen
      rw [Hands.key_setKey] at stored
      split at stored
      · rename_i isCleanup
        subst isCleanup
        cases stored
        exact ⟨due, .cleanup id, (entries fresh).trans (if_pos rfl), rfl⟩
      rename_i differ
      have storedBefore : hands.key slot = some key := by
        cases slot <;> exact stored
      obtain ⟨later, timer, entry, own⟩ := filed.named id hands slot key stands storedBefore
      have kept : (wheel.cancel hands.cleanup).timers.get key = some (later, timer) := by
        refine (get_cancel_iff wheel hands.cleanup).2 ⟨entry, fun isCleanup => differ ?_⟩
        have cleanup := filed.own_entry stands .cleanup isCleanup entry
        exact (Prod.mk.inj (Option.mem_unique own cleanup)).1
      refine ⟨later, timer, (entries key).trans ((if_neg ?_).trans kept), own⟩
      rw [← isFresh]
      exact DelayQueue.ne_freshKey_of_get kept
    · intro key later entry
      rw [entries] at entry
      split at entry
      · rename_i isKey
        cases entry
        refine ⟨_, after, congrArg some isKey.symm, ?_⟩
        rw [← isDue]
        exact le_cleanupDue near
      · obtain ⟨old, apart⟩ := (get_cancel_iff wheel hands.cleanup).1 entry
        obtain ⟨same, stood, stored, _⟩ := filed.cleanup key later id old
        cases stands.symm.trans stood
        exact absurd stored apart
    · intro later standsThen
      cases after.symm.trans standsThen
      exact near

/-- A transaction's stored entries go with it. -/
theorem cancelAll_own (filed : wheel.Filed) (stands : wheel.txns id = some hands) {next : Wheel}
    (timers : ∀ key due timer, next.timers.get key = some (due, timer) → wheel.timers.get key = some (due, timer) ∨
      ∃ slot, timer.slot = some (slot, id)) : Own id next (next.cancelAll hands) where
  now := by simp [cancelAll]
  ackBound := by simp [cancelAll]
  armed := by simp [cancelAll]
  deferred := by simp [cancelAll]
  others _ _ := by rw [txns_cancelAll]
  stay key due timer found foreign := by
    refine (get_cancelAll_iff).2 ⟨found, fun slot stored => ?_⟩
    obtain old | ⟨slot, own⟩ := timers key due timer found
    · exact foreign slot (filed.own_entry stands slot stored old)
    · exact foreign slot own
  came key due timer found := .inl ((get_cancelAll_iff).1 found).1

theorem own_leave (filed : wheel.Filed) : Own id wheel (wheel.leave id) := by
  unfold leave
  split
  · rename_i hands stands
    exact (Own.put wheel id none).trans (filed.cancelAll_own stands fun _ _ _ found => .inl found)
  · exact .refl id wheel

theorem txns_leave (wheel : Wheel) (id : TxnId) : (wheel.leave id).txns id = none := by
  unfold leave
  split
  · rw [txns_cancelAll]
    exact Function.update_self ..
  · assumption

/-- A transaction leaves with every entry it holds. -/
theorem leave (filed : wheel.Filed) (id : TxnId) : (wheel.leave id).Filed := by
  cases stands : wheel.txns id with
  | none =>
    unfold Wheel.leave
    rw [stands]
    exact filed
  | some hands =>
    have left : wheel.leave id = { wheel with txns := Function.update wheel.txns id none }.cancelAll hands := by
      unfold Wheel.leave
      rw [stands]
    have gone := txns_leave wheel id
    refine filed.own (filed.own_leave) ?_ ?_ ?_
    · intro later slot key standsThen
      cases gone.symm.trans standsThen
    · intro key due entry
      rw [left] at entry
      obtain ⟨old, apart⟩ := (get_cancelAll_iff).1 entry
      obtain ⟨same, stood, stored, _⟩ := filed.cleanup key due id old
      cases stands.symm.trans stood
      exact absurd stored (apart .cleanup)
    · intro later standsThen
      cases gone.symm.trans standsThen

/-- The entries after a transaction entered: its cleanup's, and those it did not displace. -/
theorem get_enter (wheel : Wheel) (id : TxnId) (hands : Hands) {key : ℕ} {entry : ℕ × Timer} :
    (wheel.enter id hands).timers.get key = some entry ↔
      (wheel.insert (.cleanup id) (wheel.cleanupDue hands.lifetime.deadline)).timers.get key = some entry ∧
        ∀ old slot, wheel.txns id = some old → old.key slot ≠ some key := by
  unfold enter
  cases stands : wheel.txns id with
  | none =>
    refine ⟨fun found => ⟨found, fun old slot isOld => ?_⟩, fun found => found.1⟩
    cases isOld
  | some old =>
    refine (get_cancelAll_iff).trans ⟨fun found => ⟨found.1, ?_⟩, fun found => ⟨found.1, ?_⟩⟩
    · intro same slot isOld
      cases isOld
      exact found.2 slot
    · exact fun slot => found.2 old slot rfl

theorem own_enter (filed : wheel.Filed) : Own id wheel (wheel.enter id hands) := by
  unfold enter
  generalize wheel.cleanupDue hands.lifetime.deadline = due
  have isOwn : (Timer.cleanup id).slot = some (.cleanup, id) := rfl
  have put : Own id wheel { wheel.insert (.cleanup id) due with
      txns := Function.update wheel.txns id (some (hands.setKey .cleanup (some wheel.timers.freshKey))) } :=
    (Own.insert wheel due isOwn).trans (.put _ id _)
  split
  · rename_i old stands
    exact put.trans (filed.cancelAll_own stands fun key later timer found => put.came key later timer found)
  · exact put

/-- A transaction enters with its cleanup entry. -/
theorem enter (filed : wheel.Filed) (near : hands.lifetime.deadline ≤ wheel.now + maxDelay)
    (preset : ∀ slot key, hands.key slot = some key → wheel.txns id = none ∧
      ∃ due timer, wheel.timers.get key = some (due, timer) ∧ timer.slot = some (slot, id)) :
    (wheel.enter id hands).Filed := by
  have after := txns_enter wheel id hands
  generalize isDue : wheel.cleanupDue hands.lifetime.deadline = due at *
  have entered := @get_enter wheel id hands
  rw [isDue] at entered
  refine filed.own (filed.own_enter) ?_ ?_ ?_
  · intro later slot key standsThen stored
    cases after.symm.trans standsThen
    rw [Hands.key_setKey] at stored
    split at stored
    · rename_i isCleanup
      subst isCleanup
      cases stored
      refine ⟨due, .cleanup id, entered.2
        ⟨(get_insert ..).trans (if_pos rfl), fun old slot stands isStored => ?_⟩, rfl⟩
      -- what is stored is filed, so it is not the slot just taken
      obtain ⟨_, _, found, _⟩ := filed.named id old slot _ stands isStored
      exact DelayQueue.ne_freshKey_of_get found rfl
    · obtain ⟨absent, later, timer, found, own⟩ := preset slot key stored
      refine ⟨later, timer, entered.2 ⟨(get_insert ..).trans
        ((if_neg (DelayQueue.ne_freshKey_of_get found)).trans found),
        fun old slot stands => ?_⟩, own⟩
      cases absent.symm.trans stands
  · intro key later entry
    obtain ⟨found, apart⟩ := entered.1 entry
    rcases KeyMap.of_get_insert found with ⟨isKey, ⟨⟩⟩ | ⟨-, found⟩
    · refine ⟨_, after, congrArg some isKey.symm, ?_⟩
      rw [← isDue]
      exact le_cleanupDue near
    · obtain ⟨old, stood, stored, _⟩ := filed.cleanup key later id found
      exact absurd stored (apart old .cleanup stood)
  · intro later standsThen
    cases after.symm.trans standsThen
    exact near

/-! ### The retry tick -/

/-- With a retry tick armed, any events may be deferred. -/
theorem armRetry (entries : wheel.Entries) : wheel.armRetry.Filed := by
  unfold Wheel.armRetry
  split
  · rename_i armed
    exact { entries with waiting := fun _ => armed }
  rename_i unarmed
  have inserted (key : ℕ) := get_insert wheel .eventRetry (wheel.now + Owner.eventRetryMs) key
  -- no retry entry was there, so the new one is the only one
  have isFresh {key due : ℕ} (entry : (wheel.insert .eventRetry (wheel.now + Owner.eventRetryMs)).timers.get key =
      some (due, .eventRetry)) : key = wheel.timers.freshKey := by
    rw [inserted] at entry
    split at entry
    · assumption
    · exact absurd (entries.retry key due entry) unarmed
  refine
    { named := ?_, cleanup := ?_, near := entries.near, retry := fun _ _ _ => rfl,
      pending := fun _ => ⟨_, _, (inserted _).trans (if_pos rfl)⟩, once := ?_, waiting := fun _ => rfl }
  · intro id hands slot key stands stored
    obtain ⟨due, timer, entry, own⟩ := entries.named id hands slot key stands stored
    exact ⟨due, timer, (inserted key).trans ((if_neg (DelayQueue.ne_freshKey_of_get entry)).trans entry), own⟩
  · intro key due id entry
    have found := (inserted key).symm.trans entry
    split at found
    · cases found
    · exact entries.cleanup key due id found
  · intro key other due later entry entryToo
    exact (isFresh entry).trans (isFresh entryToo).symm

section

variable (filed : wheel.Filed)

include filed

/-- The retry entry fires, and is filed again while events wait. -/
theorem tick {key : ℕ} (entry : wheel.timers.get key = some (due, .eventRetry)) :
    (wheel.tick key).Filed := by
  have removed {held : ℕ × Timer} {other : ℕ} : (wheel.remove key).timers.get other = some held ↔
      wheel.timers.get other = some held ∧ other ≠ key := by
    rw [get_remove]
    split <;> simp_all
  have entries : Entries ({ wheel.remove key with armed := false }.flush wheel.room) := by
    refine
      { named := ?_, cleanup := ?_, near := filed.near, retry := ?_, pending := nofun, once := ?_ }
    · intro id hands slot stored stands isStored
      obtain ⟨later, timer, found, own⟩ := filed.named id hands slot stored stands isStored
      refine ⟨later, timer, removed.2 ⟨found, ?_⟩, own⟩
      rintro rfl
      cases entry.symm.trans found
      cases own
    · exact fun other later id found => filed.cleanup other later id (removed.1 found).1
    · intro other later found
      obtain ⟨old, apart⟩ := removed.1 found
      exact absurd (filed.once other key later due old entry) apart
    · exact fun one other first second found foundToo =>
        filed.once one other first second (removed.1 found).1 (removed.1 foundToo).1
  unfold Wheel.tick
  dsimp only
  split
  · rename_i none
    exact { entries with waiting := fun some => absurd (List.isEmpty_iff.1 none) some }
  · exact armRetry entries

theorem owe (branch : Branch) (due : ℕ) : (wheel.owe branch due).Filed := by
  unfold Wheel.owe
  split
  · rename_i hands _
    have other : Timer.ackBound branch hands.createdAt ≠ .eventRetry := nofun
    refine (filed.modify (.client branch) (fun _ slot => ?_) (fun _ => ?_)).arms due rfl other
    · cases slot <;> rfl
    · rfl
  · exact filed

theorem stop (branch : Branch) : (wheel.stop branch).Filed :=
  ((filed.drop _ _).drop _ _).drop _ _

/-- Every step of the wheel keeps the keys and the entries in agreement. -/
theorem step (stepped : Step mayExpire wheel after) : after.Filed := by
  cases stepped with
  | passes ms =>
    refine { filed with near := fun id hands stands => ?_ }
    have near := filed.near id hands stands
    change _ ≤ wheel.now + ms + maxDelay
    omega
  | arms due isLoose other => exact filed.arms due isLoose other
  | stores due isOwn other => exact filed.store due isOwn other
  | drops id slot => exact filed.drop id slot
  | fires entry other noBound => exact filed.fire entry other
  | firesBound entry =>
    refine (filed.removes entry rfl nofun).modify _ (fun hands slot => ?_) (fun hands => ?_)
    · split
      · cases slot <;> rfl
      · rfl
    · split <;> rfl
  | holds id why left long => exact filed.holdFor id why left
  | acks branch => exact filed.modify _ (fun _ slot => by cases slot <;> rfl) (fun _ => rfl)
  | rejects branch soon => exact ((filed.owe branch _).stop branch).holdFor (.client branch) .timerD timerD
  | enters acked near preset => exact filed.enter near preset
  | leaves id => exact filed.leave id
  | queues | loses | takes => exact { filed with }
  | defers number critical => exact armRetry { filed with }
  | ticks entry => exact filed.tick entry
  | @sweeps key hands backstop stands active expires =>
    have left := filed.leave (.server key)
    refine { left with waiting := fun some => left.waiting fun none => some ?_ }
    change List.filter _ (wheel.leave (.server key)).deferred = []
    rw [none]
    rfl

theorem steps (wound : Steps mayExpire wheel after) : after.Filed := by
  induction wound with
  | refl => exact filed
  | tail _ stepped ih => exact ih.step stepped

end

end Filed

end Wheel

namespace Owner

theorem new_filed {config : Config} : (new config).wheel.Filed := by
  have absent (id : TxnId) : (new config).wheel.txns id = none := by
    cases id <;> simp [wheel, new, txn]
  have empty (key : ℕ) : (new config).wheel.timers.get key = none := DelayQueue.get_empty config.slots key
  refine
    { named := ?_, cleanup := ?_, near := ?_, retry := ?_, pending := by simp [wheel,
      new], once := ?_, waiting := fun some => absurd rfl some }
  · intro id hands slot key stands
    cases (absent id).symm.trans stands
  · intro key due id entry
    cases (empty key).symm.trans entry
  · intro id hands stands
    cases (absent id).symm.trans stands
  · intro key due entry
    cases (empty key).symm.trans entry
  · intro key other due later entry
    cases (empty key).symm.trans entry

theorem filed_of_run {wire : Wire} {config : Config} {final : Owner} {events : List OwnerEvent}
    (ran : run (step wire) (.new config) events = some final) : final.wheel.Filed :=
  (new_filed).steps (run_goes ran).winds

/-- At every step of every run the wheel is filed and no key is stored twice, so that to take one off the
    wheel takes no other timer. -/
theorem stored_keys_are_own (wire : Wire) (config : Config) (events : List OwnerEvent) :
    AllSteps (step wire) (fun owner _ => owner.wheel.Filed ∧
      ∀ id other hands held slot place key, owner.wheel.txns id = some hands → owner.wheel.txns other = some held →
        hands.key slot = some key → held.key place = some key → id = other ∧ slot = place) (.new config) events := by
  refine allSteps_of_invariant (·.wheel.Filed) ?_ ?_ (allSteps_of_mem (fun _ _ _ => trivial) _) new_filed
  · intro owner event next filed _ stepped
    exact filed.steps (step_winds (fun _ => trivial) stepped)
  · refine fun owner _ filed _ => ⟨filed, fun id other hands held slot place key stands stood stored isStored => ?_⟩
    obtain ⟨due, timer, entry, own⟩ := filed.named id hands slot key stands stored
    cases own.symm.trans (filed.own_entry stood place isStored entry)
    exact ⟨rfl, rfl⟩

end Owner

end SipServer.Txn
