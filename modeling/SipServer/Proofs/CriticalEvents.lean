/-
Module: SipServer.Proofs.CriticalEvents
Purpose: Critical events reach the consumer once and in the order of their emission, but for a deferred
  request whose server transaction left unanswered; and while one is deferred a retry tick is pending.
-/
import SipServer.Proofs.ServerFinals
import SipServer.Proofs.TxnWheelKept

namespace SipServer.Txn

open SipServer.Lib

/-- The queue to the consumer: what waits in it and behind it, and what became of the rest. -/
@[ext] structure Queue where
  capacity : ℕ
  events : List Emission
  deferred : List Emission
  delivered : List Emission
  swept : List Emission
  emissions : List Emission

namespace Queue

/-- One thing that happens to the queue. -/
inductive Step (mayExpire : Prop) (queue : Queue) : Queue → Prop where
  | queues {emission : Emission} (number : emission.number = queue.emissions.length)
      (first : emission.critical = true → queue.deferred = []) :
      Step mayExpire queue { queue with
        events := queue.events ++ [emission], emissions := queue.emissions ++ [emission] }
  | loses {emission : Emission} (number : emission.number = queue.emissions.length)
      (ordinary : emission.critical = false) :
      Step mayExpire queue { queue with emissions := queue.emissions ++ [emission] }
  | defers {emission : Emission} (number : emission.number = queue.emissions.length)
      (critical : emission.critical = true) :
      Step mayExpire queue
        { queue with deferred := queue.deferred ++ [emission], emissions := queue.emissions ++ [emission] }
  | flushes (count : ℕ) :
      Step mayExpire queue
        { queue with events := queue.events ++ queue.deferred.take count, deferred := queue.deferred.drop count }
  | takes {emission : Emission} {rest : List Emission} (queued : queue.events = emission :: rest) :
      Step mayExpire queue { queue with events := rest, delivered := queue.delivered ++ [emission] }
  | sweeps (swept : SweptServer) (expires : mayExpire) :
      Step mayExpire queue
        { queue with
          deferred := queue.deferred.filter (fun emission => !swept.admitted emission.event)
          swept := queue.swept ++ queue.deferred.filter (fun emission => swept.admitted emission.event) }

abbrev Steps (mayExpire : Prop) : Queue → Queue → Prop := Relation.ReflTransGen (Step mayExpire)

variable {mayExpire : Prop} {queue after : Queue} {emission : Emission}

/-- What was delivered or queued stays so, in its place. -/
theorem Step.line_grows (stepped : Step mayExpire queue after) :
    queue.delivered ++ queue.events <+: after.delivered ++ after.events := by
  cases stepped with
  | @queues emission number first => exact ⟨[emission], List.append_assoc ..⟩
  | loses | defers | sweeps => exact List.prefix_rfl
  | flushes count => exact ⟨queue.deferred.take count, List.append_assoc ..⟩
  | takes queued =>
    rw [queued, List.append_assoc]
    exact List.prefix_rfl

/-- What was delivered or queued stays a front of it. -/
theorem line_grows_of_steps (moved : Steps mayExpire queue after) :
    queue.delivered ++ queue.events <+: after.delivered ++ after.events := by
  induction moved with
  | refl => exact List.prefix_rfl
  | tail _ stepped ih => exact ih.trans stepped.line_grows

/-- Where no transaction expires nothing is swept. -/
theorem swept_of_steps (moved : Steps False queue after) : after.swept = queue.swept := by
  induction moved with
  | refl => rfl
  | tail _ stepped ih =>
    refine Eq.trans ?_ ih
    cases stepped with
    | sweeps swept expires => exact expires.elim
    | _ => rfl

/-- Every critical event emitted and not swept is delivered, queued or deferred, once and in the order of
    emission. -/
structure Lined (queue : Queue) : Prop where
  line : (queue.delivered ++ queue.events).filter (·.critical) ++ queue.deferred =
    queue.emissions.filter (fun emission => emission.critical && emission ∉ queue.swept)
  critical : ∀ emission ∈ queue.deferred, emission.critical = true
  numbered : queue.emissions.map (·.number) = List.range queue.emissions.length
  known : ∀ emission ∈ queue.swept, emission ∈ queue.emissions ∧ emission.critical = true

namespace Lined

section

variable (lined : queue.Lined)

include lined

/-- No emission is there twice. -/
theorem nodup : queue.emissions.Nodup := by
  refine List.Nodup.of_map (·.number) ?_
  rw [lined.numbered]
  exact List.nodup_range

/-- The next emission is a new one. -/
theorem fresh (number : emission.number = queue.emissions.length) : emission ∉ queue.emissions := by
  intro member
  have numbered := List.mem_map_of_mem (f := (·.number)) member
  rw [lined.numbered, number, List.mem_range] at numbered
  exact Nat.lt_irrefl _ numbered

/-- One more emission, of which the line tells as it should. -/
theorem emits (number : emission.number = queue.emissions.length)
    (emissions : after.emissions = queue.emissions ++ [emission]) (swept : after.swept = queue.swept)
    (line : (after.delivered ++ after.events).filter (·.critical) ++ after.deferred =
      (queue.delivered ++ queue.events).filter (·.critical) ++ queue.deferred ++ [emission].filter (·.critical))
    (critical : ∀ emission ∈ after.deferred, emission.critical = true) : after.Lined where
  line := by
    have unswept : emission ∉ queue.swept := fun isSwept => lined.fresh number (lined.known emission isSwept).1
    rw [line, lined.line, emissions, swept, List.filter_append]
    congr 1
    simp [List.filter_cons, unswept]
  critical := critical
  numbered := by
    rw [emissions, List.map_append, lined.numbered, List.length_append]
    change _ ++ [emission.number] = List.range (queue.emissions.length + 1)
    rw [number, List.range_succ]
  known other isSwept := by
    rw [swept] at isSwept
    rw [emissions]
    exact ⟨List.mem_append_left _ (lined.known other isSwept).1, (lined.known other isSwept).2⟩

/-- What is deferred is not yet delivered or queued. -/
theorem disjoint
    (early : emission ∈ (queue.delivered ++ queue.events).filter (·.critical)) : emission ∉ queue.deferred := by
  have nodup : ((queue.delivered ++ queue.events).filter (·.critical) ++ queue.deferred).Nodup := by
    rw [lined.line]
    exact lined.nodup.filter _
  exact fun late => (List.disjoint_of_nodup_append nodup) early late

/-- A sweep takes deferred emissions only. -/
theorem sweeps (admitted : Emission → Bool)
    (deferred : after.deferred = queue.deferred.filter (fun emission => !admitted emission))
    (swept : after.swept = queue.swept ++ queue.deferred.filter admitted) (events : after.events = queue.events)
    (delivered : after.delivered = queue.delivered) (emissions : after.emissions = queue.emissions) :
    after.Lined where
  line := by
    have split : queue.emissions.filter (fun emission => emission.critical && emission ∉ after.swept) =
        (queue.emissions.filter (fun emission => emission.critical && emission ∉ queue.swept)).filter
          (fun emission => emission ∉ queue.deferred.filter admitted) := by
      rw [List.filter_filter, swept]
      refine List.filter_congr fun emission _ => ?_
      cases emission.critical <;> simp [Bool.and_comm]
    rw [delivered, events, deferred, emissions, split, ← lined.line]
    refine Eq.symm ((List.filter_append ..).trans ?_)
    congr 1
    · refine List.filter_eq_self.2 fun emission early => ?_
      exact decide_eq_true fun dropped => lined.disjoint early (List.mem_of_mem_filter dropped)
    · refine List.filter_congr fun emission isDeferred => ?_
      simp [List.mem_filter, isDeferred]
  critical emission isDeferred := by
    rw [deferred] at isDeferred
    exact lined.critical emission (List.mem_of_mem_filter isDeferred)
  numbered := by
    rw [emissions]
    exact lined.numbered
  known emission isSwept := by
    rw [swept] at isSwept
    rw [emissions]
    obtain old | new := List.mem_append.1 isSwept
    · exact lined.known emission old
    have waited := List.mem_of_mem_filter new
    have member : emission ∈ queue.emissions.filter
        (fun emission => emission.critical && emission ∉ queue.swept) := by
      rw [← lined.line]
      exact List.mem_append_right _ waited
    exact ⟨List.mem_of_mem_filter member, lined.critical emission waited⟩

/-- Every step keeps the line. -/
theorem step (stepped : Step mayExpire queue after) : after.Lined := by
  cases stepped with
  | @queues emission number first =>
    refine lined.emits number rfl rfl ?_ lined.critical
    rw [← List.append_assoc, List.filter_append]
    cases critical : emission.critical with
    | true => rw [first critical, List.append_nil, List.append_nil]
    | false => simp [critical]
  | loses number ordinary =>
    refine lined.emits number rfl rfl ?_ lined.critical
    simp [ordinary]
  | @defers emission number critical =>
    refine lined.emits number rfl rfl ?_ fun other member => ?_
    · simp [critical]
    obtain old | new := List.mem_append.1 member
    · exact lined.critical other old
    · exact List.mem_singleton.1 new ▸ critical
  | flushes count =>
    refine
      { lined with
        line := ?_, critical := fun emission late => lined.critical emission (List.mem_of_mem_drop late) }
    refine Eq.trans ?_ lined.line
    have flushed : (queue.deferred.take count).filter (·.critical) = queue.deferred.take count :=
      List.filter_eq_self.2 fun emission early => lined.critical emission (List.mem_of_mem_take early)
    rw [← List.append_assoc, List.filter_append, flushed, List.append_assoc, List.take_append_drop]
  | takes queued =>
    refine { lined with line := ?_ }
    rw [← lined.line, queued, List.append_assoc]
    rfl
  | sweeps swept expires => exact lined.sweeps (fun emission => swept.admitted emission.event) rfl rfl rfl rfl rfl

theorem steps (moved : Steps mayExpire queue after) : after.Lined := by
  induction moved with
  | refl => exact lined
  | tail _ stepped ih => exact ih.step stepped

end

end Lined

end Queue

namespace Wheel

/-! ### The queue of a wheel -/

def queue (wheel : Wheel) : Queue where
  capacity := wheel.capacity
  events := wheel.events
  deferred := wheel.deferred
  delivered := wheel.delivered
  swept := wheel.swept
  emissions := wheel.emissions

variable {mayExpire : Prop} {wheel after : Wheel} {id : TxnId} {slot : Slot} {key : Option TimerKey}
    {ids : List TxnId}
  {hands : Hands} {emission : Emission} {other : TxnId}

@[simp] theorem queue_cancel : (wheel.cancel key).queue = wheel.queue := by
  cases key <;> rfl

@[simp] theorem queue_cancelAll : (wheel.cancelAll hands).queue = wheel.queue := by
  simp [cancelAll]

@[simp] theorem queue_modify {change : Hands → Hands} : (wheel.modify id change).queue = wheel.queue := rfl

@[simp] theorem queue_store {timer : Timer} {due : ℕ} :
    (wheel.store id slot timer due).queue = wheel.queue := rfl

@[simp] theorem queue_drop : (wheel.drop id slot).queue = wheel.queue := by
  unfold drop
  split <;> simp

@[simp] theorem queue_leave (id : TxnId) : (wheel.leave id).queue = wheel.queue := by
  unfold leave
  split
  · exact queue_cancelAll
  · rfl

@[simp] theorem queue_enter : (wheel.enter id hands).queue = wheel.queue := by
  unfold enter
  split
  · exact queue_cancelAll
  · rfl

@[simp] theorem queue_holdFor {why : Hold} {left : ℕ} : (wheel.holdFor id why left).queue = wheel.queue := by
  unfold holdFor
  split <;> simp

@[simp] theorem queue_owe {branch : Branch} {due : ℕ} : (wheel.owe branch due).queue = wheel.queue := by
  unfold owe
  split <;> rfl

@[simp] theorem queue_armRetry (wheel : Wheel) : wheel.armRetry.queue = wheel.queue := by
  unfold armRetry
  split <;> rfl

/-- The retry tick moves to the queue what it has room for. -/
theorem queue_tick (wheel : Wheel) (key : TimerKey) : (wheel.tick key).queue =
    { wheel.queue with
      events := wheel.events ++ wheel.deferred.take wheel.room
      deferred := wheel.deferred.drop wheel.room } := by
  unfold tick
  dsimp only
  split
  · rfl
  · exact queue_armRetry _

/-- What a step of the wheel is to its queue. -/
theorem Step.queue_cases (stepped : Step mayExpire wheel after) :
    after.queue = wheel.queue ∨ Queue.Step mayExpire wheel.queue after.queue := by
  cases stepped with
  | passes | arms | stores | firesBound | acks => exact .inl rfl
  | drops id slot => exact .inl queue_drop
  | fires entry other noBound =>
    unfold fire
    split <;> exact .inl rfl
  | holds id why left long => exact .inl queue_holdFor
  | rejects branch soon =>
    refine .inl ?_
    simp [stop]
  | enters acked near preset => exact .inl queue_enter
  | leaves id => exact .inl (queue_leave id)
  | queues number room first => exact .inr (.queues number first)
  | loses number ordinary => exact .inr (.loses number ordinary)
  | @defers emission number critical =>
    refine .inr ?_
    have queued := queue_armRetry { wheel.emits emission with deferred := wheel.deferred ++ [emission] }
    exact queued ▸ .defers number critical
  | @ticks key due entry =>
    rw [queue_tick]
    exact .inr (.flushes wheel.room)
  | takes queued => exact .inr (.takes queued)
  | @sweeps key hands backstop stands active expires =>
    have left := @queue_leave wheel (.server key)
    have sweeps := @Queue.Step.sweeps mayExpire wheel.queue ⟨key, hands.callId, hands.fromTag⟩ expires
    exact .inr (left ▸ sweeps)

/-- The wheel's steps are the queue's. -/
theorem Steps.queue (wound : Steps mayExpire wheel after) : Queue.Steps mayExpire wheel.queue after.queue := by
  induction wound with
  | refl => exact .refl
  | tail _ stepped ih =>
    obtain same | moved := stepped.queue_cases
    · rw [same]
      exact ih
    · exact ih.tail moved

/-! ### Transactions that leave unanswered -/

/-- The identity of a server transaction that would leave unanswered. -/
def unanswered (wheel : Wheel) : TxnId → Option SweptServer
  | .client _ => none
  | .server key =>
    (wheel.txns (.server key)).bind fun hands =>
      match hands.lifetime with
      | .active _ => some ⟨key, hands.callId, hands.fromTag⟩
      | .held _ _ => none

/-- A transaction leaves, a server one that is still active with its deferred request. -/
def expire (wheel : Wheel) (id : TxnId) : Wheel :=
  match wheel.unanswered id with
  | some swept => (wheel.leave id).sweep swept
  | none => wheel.leave id

theorem txns_leave_of_ne (differ : other ≠ id) : (wheel.leave id).txns other = wheel.txns other := by
  unfold leave
  split
  · rw [txns_cancelAll]
    exact Function.update_of_ne differ _ _
  · rfl

theorem txns_expire : (wheel.expire id).txns = (wheel.leave id).txns := by
  unfold expire
  split <;> rfl

theorem unanswered_congr {other : Wheel} (same : other.txns id = wheel.txns id) :
    other.unanswered id = wheel.unanswered id := by
  cases id with
  | client branch => rfl
  | server key =>
    dsimp only [unanswered]
    rw [same]

theorem unanswered_expire_self : (wheel.expire id).unanswered id = none := by
  cases id with
  | client branch => rfl
  | server key =>
    dsimp only [unanswered]
    rw [txns_expire, Filed.txns_leave]
    rfl

theorem unanswered_expire_of_ne (differ : other ≠ id) :
    (wheel.expire id).unanswered other = wheel.unanswered other :=
  unanswered_congr ((congrFun txns_expire other).trans (txns_leave_of_ne differ))

theorem unanswered_setKey :
    (wheel.modify id (·.setKey slot key)).unanswered other = wheel.unanswered other := by
  cases other with
  | client branch => rfl
  | server named =>
    dsimp only [unanswered]
    rw [txns_modify]
    split
    · rename_i same
      rw [same]
      cases wheel.txns id with
      | none => rfl
      | some hands => cases slot <;> rfl
    · rfl

/-- An emission is the request of a transaction of a list that leaves unanswered. -/
def Drops (wheel : Wheel) (ids : List TxnId) (emission : Emission) : Prop :=
  ∃ id ∈ ids, ∃ swept, wheel.unanswered id = some swept ∧ swept.admitted emission.event = true

/-- An expiry sweeps what was deferred for it. -/
theorem mem_swept_expire :
    emission ∈ (wheel.expire id).swept ↔ emission ∈ wheel.swept ∨ emission ∈ wheel.deferred ∧
      wheel.Drops [id] emission := by
  have swept : (wheel.leave id).swept = wheel.swept := congrArg Queue.swept (queue_leave id)
  have deferred : (wheel.leave id).deferred = wheel.deferred := congrArg Queue.deferred (queue_leave id)
  unfold expire Drops
  split
  · rename_i isSwept
    simp [sweep, swept, deferred, isSwept]
  · rename_i answered
    simp [swept, answered]

theorem mem_deferred_expire :
    emission ∈ (wheel.expire id).deferred ↔ emission ∈ wheel.deferred ∧ ¬ wheel.Drops [id] emission := by
  have deferred : (wheel.leave id).deferred = wheel.deferred := congrArg Queue.deferred (queue_leave id)
  unfold expire Drops
  split
  · rename_i isSwept
    simp [sweep, deferred, isSwept]
  · rename_i answered
    simp [deferred, answered]

/-- A list of expiries drops what each one does. -/
theorem drops_cons :
    wheel.Drops (id :: ids) emission ↔ wheel.Drops [id] emission ∨ (wheel.expire id).Drops ids emission := by
  constructor
  · rintro ⟨other, member, swept, unanswered, admitted⟩
    by_cases same : other = id
    · exact .inl ⟨id, List.mem_singleton_self id, swept, same ▸ unanswered, admitted⟩
    refine .inr ⟨other, (List.mem_cons.1 member).resolve_left same, swept, ?_, admitted⟩
    rw [unanswered_expire_of_ne same, unanswered]
  · rintro (⟨other, member, found⟩ | ⟨other, member, swept, unanswered, admitted⟩)
    · exact ⟨other, List.mem_cons.2 (.inl (List.mem_singleton.1 member)), found⟩
    · by_cases same : other = id
      · rw [same, unanswered_expire_self] at unanswered
        cases unanswered
      · rw [unanswered_expire_of_ne same] at unanswered
        exact ⟨other, List.mem_cons_of_mem id member, swept, unanswered, admitted⟩

/-- Transactions expire one after the other: what is swept are the deferred requests of those still
    active. -/
theorem mem_swept_expires {ids : List TxnId} :
    emission ∈ (ids.foldl expire wheel).swept ↔
      emission ∈ wheel.swept ∨ emission ∈ wheel.deferred ∧ wheel.Drops ids emission := by
  induction ids generalizing wheel with
  | nil => simp [Drops]
  | cons id ids ih =>
    rw [List.foldl_cons, ih, mem_swept_expire, mem_deferred_expire, @drops_cons wheel id ids emission]
    tauto

theorem txns_expires_of_none (ids : List TxnId) (absent : wheel.txns id = none) :
    (ids.foldl expire wheel).txns id = none := by
  induction ids generalizing wheel with
  | nil => exact absent
  | cons first ids ih =>
    refine ih ?_
    rw [txns_expire]
    by_cases same : id = first
    · rw [same, Filed.txns_leave]
    · rw [txns_leave_of_ne same, absent]

theorem txns_expires (wheel : Wheel) (member : id ∈ ids) : (ids.foldl expire wheel).txns id = none := by
  induction ids generalizing wheel with
  | nil => cases member
  | cons first ids ih =>
    obtain rfl | later := List.mem_cons.1 member
    · exact txns_expires_of_none ids ((congrFun txns_expire id).trans (Filed.txns_leave wheel id))
    · exact ih _ later

end Wheel

namespace Owner

variable {owner after : Owner} {wire : Wire} {event : OwnerEvent}

theorem unanswered_eq {id : TxnId} : owner.unanswered id = owner.wheel.unanswered id := by
  cases id with
  | client branch =>
    unfold unanswered
    split
    · rename_i isServer _
      cases isServer
    · rfl
  | server key =>
    dsimp only [Wheel.unanswered, wheel]
    unfold unanswered
    cases owner.txn (.server key) with
    | none => rfl
    | some txn => rfl

/-- An owner's expiry is the wheel's. -/
theorem wheel_expire {id : TxnId} : (owner.expire id).wheel = owner.wheel.expire id := by
  unfold Wheel.expire
  rw [← unanswered_eq]
  cases unanswered : owner.unanswered id with
  | none =>
    unfold expire
    rw [unanswered]
    exact wheel_deleteTxn owner
  | some swept => exact wheel_expire_unanswered unanswered

theorem wheel_expires {ids : List TxnId} :
    (ids.foldl expire owner).wheel = ids.foldl Wheel.expire owner.wheel := by
  induction ids generalizing owner with
  | nil => rfl
  | cons id ids ih => rw [List.foldl_cons, List.foldl_cons, ih, wheel_expire]

theorem txns_emitCritical {about : Option ℕ} {event : TransactionEvent} :
    (owner.emitCritical about event).wheel.txns = owner.wheel.txns := by
  have deferred (owner : Owner) (emission : Emission) : (owner.defer emission).wheel.txns = owner.wheel.txns := by
    unfold defer armEventRetry
    split <;> rfl
  unfold emitCritical offer
  dsimp only
  split
  · exact deferred _ _
  split
  · rfl
  · exact deferred _ _

/-- Telling that calls are quiet moves no transaction. -/
theorem txns_flushPendingQuiesce : owner.flushPendingQuiesce.wheel.txns = owner.wheel.txns := by
  have tells (calls : List CallRef) (owner : Owner) : (calls.foldl (fun owner callRef =>
      if callRef ∈ owner.selfReleaseWatch ∧ ¬ owner.hasTxnsFor callRef then owner.notifyQuiesced callRef else owner)
      owner).wheel.txns = owner.wheel.txns := by
    induction calls generalizing owner with
    | nil => rfl
    | cons callRef calls ih =>
      rw [List.foldl_cons, ih]
      split
      · exact txns_emitCritical
      · rfl
  exact tells owner.pendingQuiesce { owner with pendingQuiesce := [] }

section

variable (stepped : owner.step wire event = some after)

include stepped

/-- What happens as transactions expire: they do so one after the other, from a wheel like the one before,
    and nothing later in the turn sweeps an event or moves a transaction. -/
theorem expires_of_step (expires : owner.expiring event ≠ []) :
    ∃ base : Wheel, base.queue = owner.wheel.queue ∧ (∀ id, base.unanswered id = owner.unanswered id) ∧
      Queue.Steps False ((owner.expiring event).foldl Wheel.expire base).queue after.wheel.queue ∧
      after.wheel.txns = ((owner.expiring event).foldl Wheel.expire base).txns := by
  -- the end of the turn, after its work
  have ends {worked : Owner} {base : Wheel}
      (isWorked : worked.wheel = (owner.expiring event).foldl Wheel.expire base) :
      Queue.Steps False ((owner.expiring event).foldl Wheel.expire base).queue
          worked.flushOwedSends.flushPendingQuiesce.wheel.queue ∧
        worked.flushOwedSends.flushPendingQuiesce.wheel.txns =
          ((owner.expiring event).foldl Wheel.expire base).txns := by
    have told : Winds False worked.flushOwedSends worked.flushOwedSends.flushPendingQuiesce :=
      flushPendingQuiesce_winds _
    have same : worked.flushOwedSends.wheel = worked.wheel := rfl
    rw [← isWorked, txns_flushPendingQuiesce, same]
    exact ⟨told.queue, rfl⟩
  cases event with
  | pass | take => exact absurd rfl expires
  | turn work =>
    obtain ⟨worked, isWorked, rfl⟩ := Option.map_eq_some_iff.1 stepped
    cases work with
    | timer key =>
      dsimp only [work] at isWorked
      dsimp only [expiring] at expires ends ⊢
      cases filed : owner.timers.get key with
      | none =>
        rw [filed] at isWorked
        cases isWorked
      | some entry =>
        obtain ⟨due, timer⟩ := entry
        rw [filed] at isWorked expires ends
        cases timer with
        | cleanup id =>
          dsimp only at isWorked
          split at isWorked
          · cases isWorked
            have cleared : ((owner.unarmed key).modifyTxn id ({ · with cleanupKey := none })).wheel =
                (owner.unarmed key).wheel.modify id (·.setKey .cleanup none) := wheel_modifyTxn _ _ fun _ _ => rfl
            refine ⟨(owner.unarmed key).wheel.modify id (·.setKey .cleanup none), rfl, fun other => ?_, ?_⟩
            · rw [Wheel.unanswered_setKey, unanswered_eq]
              exact Wheel.unanswered_congr rfl
            · exact ends ((wheel_expire).trans (congrArg (Wheel.expire · id) cleared))
          · cases isWorked
        | _ => exact absurd rfl expires
    | sweep =>
      dsimp only [work] at isWorked
      split at isWorked
      · cases isWorked
        exact ⟨owner.wheel, rfl, fun id => (unanswered_eq).symm, ends wheel_expires⟩
      · cases isWorked
    | forget | command | request | response => exact absurd rfl expires

/-- What is swept as something happens: the deferred requests of the server transactions that then leave
    unanswered. -/
theorem mem_swept_of_step (emission : Emission) :
    emission ∈ after.swept ↔ emission ∈ owner.swept ∨ emission ∈ owner.deferredEvents ∧
      ∃ id ∈ owner.expiring event, ∃ server, owner.unanswered id = some server ∧
        server.admitted emission.event = true := by
  by_cases none : owner.expiring event = []
  · have wound : Winds False owner after := step_winds (fun expires => expires none) stepped
    have same : after.swept = owner.swept := Queue.swept_of_steps wound.queue
    simp [same, none]
  obtain ⟨base, queue, unanswered, moved, _⟩ := expires_of_step stepped none
  have same : after.swept = ((owner.expiring event).foldl Wheel.expire base).swept := Queue.swept_of_steps moved
  have swept : base.swept = owner.swept := congrArg Queue.swept queue
  have deferred : base.deferred = owner.deferredEvents := congrArg Queue.deferred queue
  rw [same, Wheel.mem_swept_expires, swept, deferred]
  simp only [Wheel.Drops, unanswered]

/-- Transactions that expire are gone. -/
theorem left_of_step {key : ServerTxnKey}
    (expires : .server key ∈ owner.expiring event) : after.servers.get key = none := by
  obtain ⟨base, _, _, _, txns⟩ := expires_of_step stepped (List.ne_nil_of_mem expires)
  have gone : after.wheel.txns (.server key) = none := by
    rw [txns]
    exact Wheel.txns_expires base expires
  exact Option.map_eq_none_iff.1 gone

end

/-- How the owner serves its consumer. -/
structure Delivers (wire : Wire) (owner : Owner) : Prop where
  /-- Every critical event emitted and not swept is delivered, queued or deferred: once, and in the order of
      emission. -/
  line : (owner.delivered ++ owner.events ++ owner.deferredEvents).filter (·.critical) =
    owner.emissions.filter (fun emission => emission.critical && emission ∉ owner.swept)
  once : (owner.emissions.map (·.number)).Nodup
  /-- What was swept is never delivered. -/
  gone : ∀ emission ∈ owner.swept, emission ∉ owner.delivered ++ owner.events ++ owner.deferredEvents
  /-- Swept are the deferred requests of server transactions that leave the map unanswered, and no others. -/
  sweeps : ∀ event after, owner.step wire event = some after → ∀ emission, emission ∈ after.swept ↔
    emission ∈ owner.swept ∨ emission ∈ owner.deferredEvents ∧ ∃ id ∈ owner.expiring event, ∃ server,
      owner.unanswered id = some server ∧ server.admitted emission.event = true
  leaves : ∀ event after key, owner.step wire event = some after → .server key ∈ owner.expiring event →
    after.servers.get key = none
  pending : owner.deferredEvents ≠ [] → ∃! key, ∃ due, owner.timers.get key = some (due, .eventRetry)
  /-- What was delivered or queued keeps its place, the retry tick queues what there is room for, and a take
      delivers. -/
  keeps : ∀ event after, owner.step wire event = some after →
    owner.delivered ++ owner.events <+: after.delivered ++ after.events
  ticks : ∀ key due after, owner.timers.get key = some (due, .eventRetry) →
    owner.step wire (.turn (.timer key)) = some after →
    owner.delivered ++ owner.events ++ owner.deferredEvents.take
      (owner.config.eventCapacity - owner.events.length) <+:
      after.delivered ++ after.events
  takes : ∀ emission rest, owner.events = emission :: rest → ∃ after, owner.step wire .take = some after ∧
    after.events = rest ∧ after.delivered = owner.delivered ++ [emission]

theorem lined_of_run {config : Config} {final : Owner} {events : List OwnerEvent}
    (ran : run (step wire) (.new config) events = some final) : final.wheel.queue.Lined := by
  refine Queue.Lined.steps ?_ (run_goes ran).winds.queue
  exact ⟨rfl, List.forall_mem_nil _, rfl, List.forall_mem_nil _⟩

/-- A tick sends as much as there is room for, in order. -/
theorem ticks_of_step {key due : ℕ} (filed : owner.timers.get key = some (due, .eventRetry))
    (stepped : owner.step wire (.turn (.timer key)) = some after) :
    owner.delivered ++ owner.events ++ owner.deferredEvents.take
      (owner.config.eventCapacity - owner.events.length) <+: after.delivered ++ after.events := by
  obtain ⟨worked, isWorked, rfl⟩ := Option.map_eq_some_iff.1 stepped
  dsimp only [work] at isWorked
  rw [filed] at isWorked
  dsimp only at isWorked
  split at isWorked
  · cases isWorked
    have ticked := congrArg Wheel.queue (wheel_flushDeferred owner key)
    rw [Wheel.queue_tick] at ticked
    have told : Winds False _ _ :=
      flushPendingQuiesce_winds (({ owner.unarmed key with eventRetryArmed := false }).flushDeferred.flushOwedSends)
    have grown := Queue.line_grows_of_steps told.queue
    have same : ({ owner.unarmed key with
        eventRetryArmed := false }).flushDeferred.flushOwedSends.wheel.queue = _ := ticked
    rw [same] at grown
    rw [List.append_assoc]
    exact grown
  · cases isWorked

/-- Over every run of the owner: critical events reach the consumer once, in the order of their emission, but
    for deferred requests whose server transaction left unanswered, which never do; and while any is deferred
    one retry tick is pending. -/
theorem critical_events_once_in_order {config : Config} {final : Owner} {events : List OwnerEvent}
    (ran : run (step wire) (.new config) events = some final) : final.Delivers wire := by
  have lined := lined_of_run ran
  have filed := filed_of_run ran
  have line : (final.delivered ++ final.events ++ final.deferredEvents).filter (·.critical) =
      final.emissions.filter (fun emission => emission.critical && emission ∉ final.swept) := by
    have critical : final.deferredEvents.filter (·.critical) = final.deferredEvents :=
      List.filter_eq_self.2 lined.critical
    rw [List.filter_append, critical]
    exact lined.line
  refine
    { line
      once := lined.numbered ▸ List.nodup_range
      gone := fun emission isSwept there => ?_
      sweeps := fun event after stepped => mem_swept_of_step stepped
      leaves := fun event after key stepped expires => left_of_step stepped expires
      pending := fun some => ?_
      keeps := fun event after stepped => ?_
      ticks := fun key due after isFiled stepped => ticks_of_step isFiled stepped
      takes := fun emission rest queued => ⟨_, rfl, ?_⟩ }
  · have member := List.mem_filter.2 ⟨there, (lined.known emission isSwept).2⟩
    rw [line] at member
    have unswept := (Bool.and_eq_true_iff.1 (List.mem_filter.1 member).2).2
    exact of_decide_eq_true unswept isSwept
  · obtain ⟨key, due, isFiled⟩ := filed.pending (filed.waiting some)
    refine ⟨key, ⟨due, isFiled⟩, ?_⟩
    rintro other ⟨later, isFiledToo⟩
    exact filed.once other key later due isFiledToo isFiled
  · have wound : Winds True final after := step_winds (fun _ => trivial) stepped
    exact Queue.line_grows_of_steps wound.queue
  · unfold take
    rw [queued]
    exact ⟨rfl, rfl⟩

/-- Two INVITEs arrive at a queue of one place. -/
def crowdedEvents : List OwnerEvent :=
  [.turn (.request sampleInvite 7 ⟨.admitted, false⟩),
    .turn (.request { sampleInvite with topVia := ⟨some "other", "host", none, none, none⟩, callId := "other" } 7
      ⟨.admitted, false⟩)]

/-- The second waits behind the first, with the retry tick pending. -/
theorem crowded_invites_wait_in_order :
    ∃ final, run (step .plain) (.new { sampleConfig with eventCapacity := 1, capacity_pos := Nat.one_pos })
      crowdedEvents =
        some final ∧ final.deferredEvents ≠ [] ∧ final.events ≠ [] ∧ final.Delivers .plain := by
  refine ⟨_, rfl, List.cons_ne_nil _ _, List.cons_ne_nil _ _, ?_⟩
  exact @critical_events_once_in_order .plain { sampleConfig with eventCapacity := 1, capacity_pos := Nat.one_pos } _
    crowdedEvents rfl

end Owner

end SipServer.Txn
