/-
Module: SipServer.Proofs.ChangelogStates
Purpose: What a drain's snapshot holds, and what an operation can do to the state of one call: nothing, move
  it above the node's counter, or drop it for a reason.
-/
import SipServer.Proofs.ChangelogIndex

namespace SipServer.Repl

open SipServer.Lib

variable {callRef : String} {operation : Operation} {sub : SubLog} {counter : ℕ} {stated : Stated} {op : Op}
  {written : String} {state next : RefState} {prev : Option RefState} {gen : ℕ} {since : Watermark}

/-! ### What a snapshot holds -/

/-- A snapshot holds the pairs it reads, in their order. -/
theorem snapshot_pairs (pairs : List (ℕ × String)) (byRef : KeyMap String RefState)
    (present : ∀ pair ∈ pairs, ∃ state, byRef.get pair.2 = some state) :
    (SubLog.snapshot byRef pairs).2.map (fun due => (due.counter, due.callRef)) = pairs := by
  induction pairs generalizing byRef with
  | nil => rfl
  | cons pair pairs hypothesis =>
    obtain ⟨state, found⟩ := present pair List.mem_cons_self
    have later : ∀ other ∈ pairs, ∃ moved,
        (byRef.insert pair.2 (SubLog.markSent pair.1 state)).get other.2 = some moved := by
      intro other member
      obtain ⟨otherState, otherFound⟩ := present other (List.mem_cons_of_mem _ member)
      obtain ⟨moved, movedFound, -⟩ := (sameStates_insert_markSent found pair.1).get otherFound
      exact ⟨moved, movedFound⟩
    simp only [SubLog.snapshot, found, List.map_cons, hypothesis _ later]

/-- A snapshotted entry states what its call's state holds. -/
theorem snapshot_states (pairs : List (ℕ × String)) (byRef : KeyMap String RefState) {due : Due}
    (member : due ∈ (SubLog.snapshot byRef pairs).2) :
    ∃ state, byRef.get due.callRef = some state ∧ state.op = due.op ∧ state.answered = due.answered := by
  induction pairs generalizing byRef with
  | nil => cases member
  | cons pair pairs hypothesis =>
    unfold SubLog.snapshot at member
    split at member
    · exact hypothesis byRef member
    rename_i state found
    cases member with
    | head => exact ⟨state, found, rfl, rfl⟩
    | tail _ inTail =>
      obtain ⟨moved, movedFound, op, answered⟩ := hypothesis _ inTail
      obtain ⟨original, originalFound, same⟩ := (sameStates_insert_markSent found pair.1).symm.get movedFound
      have ops : original.unsent.op = moved.unsent.op := by rw [same]
      have answers : original.unsent.answered = moved.unsent.answered := by rw [same]
      exact ⟨original, originalFound, ops.trans op, answers.trans answered⟩

namespace SubLog

/-- A drain's snapshot holds the first entries above the position it starts from. -/
theorem due_pairs (indexed : sub.Indexed counter) (since : ℕ) (cold : Bool) (limit : ℕ) :
    (sub.due since cold limit).2.map (fun due => (due.counter, due.callRef)) =
      (sub.entries.above (if cold then none else some since)).take limit := by
  apply snapshot_pairs
  intro pair member
  have entry := (SortedMap.mem_above _ _ _).mp (List.mem_of_mem_take member)
  obtain ⟨state, found, -⟩ := (indexed.inverse pair.1 pair.2).mp entry.1
  exact ⟨state, found⟩

/-- A drain yields every entry above its position, up to its limit. -/
theorem length_due (indexed : sub.Indexed counter) (since limit : ℕ) (cold : Bool) :
    (sub.due since cold limit).2.length =
      min limit (sub.entries.above (if cold then none else some since)).length := by
  have pairs := congrArg List.length (due_pairs indexed since cold limit)
  rw [List.length_map, List.length_take] at pairs
  exact pairs

theorem nextState_counter : (sub.nextState prev counter op stated).counter = counter := by
  unfold nextState
  split <;> rfl

theorem nextState_op : (sub.nextState prev counter op stated).op = op := by
  unfold nextState
  split <;> rfl

theorem get_put :
    (sub.put counter written op stated).byRef.get callRef =
      if callRef = written then some (sub.nextState (sub.byRef.get written) counter op stated)
      else sub.byRef.get callRef :=
  KeyMap.get_insert _ _ _ _

theorem get_forget {forgotten : String} :
    (sub.forget forgotten).byRef.get callRef = if callRef = forgotten then none else sub.byRef.get callRef := by
  unfold forget
  split
  · exact KeyMap.get_remove _ _ _
  rename_i absent
  split
  · rename_i same
    exact same ▸ absent
  · rfl

theorem positions_forget (sub : SubLog) :
    (sub.forget callRef).acked = sub.acked ∧ (sub.forget callRef).unbound = sub.unbound := by
  unfold forget
  split <;> exact ⟨rfl, rfl⟩

theorem positions_reap (sub : SubLog) : (sub.reap gen).acked = sub.acked ∧ (sub.reap gen).unbound = sub.unbound := by
  have each : ∀ (refs : List String) (start : SubLog),
      (refs.foldl reapRef start).acked = start.acked ∧ (refs.foldl reapRef start).unbound = start.unbound := by
    intro refs
    induction refs with
    | nil => exact fun _ => ⟨rfl, rfl⟩
    | cons callRef refs hypothesis =>
      intro start
      have next : (reapRef start callRef).acked = start.acked ∧ (reapRef start callRef).unbound = start.unbound := by
        unfold reapRef
        split <;> exact ⟨rfl, rfl⟩
      exact ⟨(hypothesis _).1.trans next.1, (hypothesis _).2.trans next.2⟩
  unfold reap
  split
  · exact ⟨rfl, rfl⟩
  · exact each _ sub

/-- Reaping leaves a call's state alone, or drops a tombstone the peer reported applying. -/
theorem reap_states (indexed : sub.Indexed counter) :
    (sub.reap gen).byRef.get callRef = sub.byRef.get callRef ∨
      (sub.reap gen).byRef.get callRef = none ∧ sub.acked.gen = gen ∧
        ∀ state, sub.byRef.get callRef = some state → state.counter ≤ sub.acked.counter := by
  have each : ∀ (refs : List String) (start : SubLog),
      (refs.foldl reapRef start).byRef.get callRef = start.byRef.get callRef ∨
        (refs.foldl reapRef start).byRef.get callRef = none ∧ callRef ∈ refs := by
    intro refs
    induction refs with
    | nil => exact fun _ => .inl rfl
    | cons reaped refs hypothesis =>
      intro start
      have one : (start.reapRef reaped).byRef.get callRef = start.byRef.get callRef ∨
          (start.reapRef reaped).byRef.get callRef = none ∧ callRef = reaped := by
        unfold reapRef
        split
        · rw [KeyMap.get_remove]
          split
          · rename_i same
            exact .inr ⟨rfl, same⟩
          · exact .inl rfl
        · exact .inl rfl
      rcases hypothesis (start.reapRef reaped) with kept | ⟨gone, member⟩
      · rcases one with same | ⟨gone, rfl⟩
        · exact .inl (kept.trans same)
        · exact .inr ⟨kept.trans gone, List.mem_cons_self⟩
      · exact .inr ⟨gone, List.mem_cons_of_mem _ member⟩
  unfold reap
  split
  · exact .inl rfl
  rename_i incarnation
  rcases each sub.appliedTombstones sub with kept | ⟨gone, member⟩
  · exact .inl kept
  refine .inr ⟨gone, not_not.mp incarnation, ?_⟩
  intro state found
  obtain ⟨⟨entry, ref⟩, inLog, rfl⟩ := List.mem_map.mp member
  obtain ⟨isEntry, due⟩ := List.mem_filter.mp inLog
  obtain ⟨other, otherFound, at_⟩ := (indexed.inverse entry ref).mp isEntry
  cases otherFound.symm.trans found
  rw [Bool.and_eq_true, decide_eq_true_eq] at due
  exact at_ ▸ due.1

end SubLog

/-! ### The state of one call -/

namespace Changelog

variable {log : Changelog} {peer : String} {partition : Partition}

/-- The state of a call's entry toward a peer. -/
def stateOf (log : Changelog) (peer : String) (partition : Partition) (callRef : String) : Option RefState :=
  (log.sub peer partition).bind fun sub => sub.byRef.get callRef

theorem positionOf_eq :
    log.positionOf peer partition callRef =
      (log.stateOf peer partition callRef).map fun state => ⟨log.gen, state.counter⟩ := by
  unfold positionOf stateOf
  cases log.sub peer partition <;> rfl

theorem current_eq :
    log.current peer partition callRef =
      (log.stateOf peer partition callRef).map fun state => (state.op, state.answered) := by
  unfold current stateOf
  cases log.sub peer partition <;> rfl

theorem Indexed.state_le (indexed : log.Indexed)
    (found : log.stateOf peer partition callRef = some state) : state.counter ≤ log.counter := by
  obtain ⟨sub, subFound, stateFound⟩ := Option.bind_eq_some_iff.mp found
  have entries := indexed peer partition sub subFound
  exact entries.bounded _ _ (entries.entry stateFound)

/-- Everything an operation can do to the state of one call's entry. -/
inductive StateMove (log : Changelog) (peer : String) (partition : Partition) (callRef : String)
    (operation : Operation) : Option RefState → Option RefState → Prop
  | same (before : Option RefState) : StateMove log peer partition callRef operation before before
  | marked (state : RefState) (counter : ℕ) (le : state.counter ≤ counter)
      (at_ : counter = state.counter ∨ ∃ w, operation = .scan peer partition w ∧ counter = w.counter) :
      StateMove log peer partition callRef operation (some state) (some (SubLog.markSent counter state))
  | put (nowMs : ℤ) (sub : SubLog) (before : Option RefState)
      (isPut : operation = .put nowMs peer callRef partition) :
      StateMove log peer partition callRef operation before
        (some (sub.nextState before (log.counter + 1) .put .nothing))
  | delete (nowMs : ℤ) (answered : Bool) (incarnation : Option String) (sub : SubLog) (before : Option RefState)
      (isDelete : operation = .delete nowMs peer callRef partition answered incarnation) :
      StateMove log peer partition callRef operation before
        (some (sub.nextState before (log.counter + 1) .delete ⟨answered, incarnation⟩))
  | forgotten (before : Option RefState) (isForget : operation = .forget peer partition callRef) :
      StateMove log peer partition callRef operation before none
  | reaped (nowMs : ℤ) (before : Option RefState) (isReap : operation = .reap nowMs)
      (why : (log.step operation).sub peer partition = none ∨ ∀ state, before = some state →
        ∃ sub, log.sub peer partition = some sub ∧ sub.acked.gen = log.gen ∧ state.counter ≤ sub.acked.counter) :
      StateMove log peer partition callRef operation before none

/-- Every operation moves the state of every call in one of the ways `StateMove` lists. -/
theorem step_stateMove (indexed : log.Indexed) (operation : Operation) (peer : String) (partition : Partition)
    (callRef : String) :
    StateMove log peer partition callRef operation (log.stateOf peer partition callRef)
      ((log.step operation).stateOf peer partition callRef) := by
  have move := step_subMove log operation peer partition
  have before := indexed peer partition
  unfold stateOf
  generalize found : log.sub peer partition = sub at move before ⊢
  generalize reached : (log.step operation).sub peer partition = next at move ⊢
  have opened : ((sub.getD (SubLog.new log.counter)).byRef.get callRef) = sub.bind fun sub =>
      sub.byRef.get callRef := by
    cases sub <;> rfl
  have place : ∀ {sub : SubLog} {entry : ℕ} {state : RefState}, sub.Indexed log.counter →
      (entry, callRef) ∈ sub.entries →
      sub.byRef.get callRef = some state → state.counter = entry := by
    intro sub entry state indexed member isState
    obtain ⟨other, otherFound, at_⟩ := (indexed.inverse entry callRef).mp member
    cases otherFound.symm.trans isState
    exact at_
  cases move with
  | keep => exact .same _
  | create _ same acked unbound =>
    rw [Option.bind_some, same.byRef]
    exact .same _
  | put nowMs written =>
    rw [Option.bind_some, SubLog.get_put, opened]
    split
    · rename_i same
      subst same
      rw [opened]
      exact .put nowMs _ _ rfl
    · exact .same _
  | delete nowMs written answered incarnation =>
    rw [Option.bind_some, SubLog.get_put, opened]
    split
    · rename_i same
      subst same
      rw [opened]
      exact .delete nowMs answered incarnation _ _ rfl
    · exact .same _
  | forget forgotten sub =>
    rw [Option.bind_some, Option.bind_some, SubLog.get_forget]
    split
    · rename_i same
      subst same
      exact .forgotten _ rfl
    · exact .same _
  | drain since limit sub =>
    obtain same | ⟨counter, state, member, isState, isMarked⟩ :=
      snapshot_marks ((sub.entries.above _).take limit) sub.byRef callRef
    · rw [Option.bind_some, Option.bind_some, SubLog.due, same]
      exact .same _
    · rw [Option.bind_some, Option.bind_some, SubLog.due, isMarked, isState]
      have at_ := place (before sub rfl) ((SortedMap.mem_above _ _ _).mp (List.mem_of_mem_take member)).1 isState
      exact .marked state counter at_.le (.inl at_.symm)
  | scan w sub =>
    obtain same | ⟨counter, state, ⟨rfl, entry, le, member⟩, isState, isMarked⟩ := scanned_marks sub w.counter callRef
    · rw [Option.bind_some, Option.bind_some, same]
      exact .same _
    · rw [Option.bind_some, Option.bind_some, isMarked, isState]
      exact .marked state _ ((place (before sub rfl) member isState).trans_le le) (.inr ⟨w, rfl, rfl⟩)
  | progress same progress =>
    rw [Option.bind_some, Option.bind_some, same.byRef]
    exact .same _
  | reap nowMs sub =>
    obtain same | ⟨gone, incarnation, applied⟩ := SubLog.reap_states (before sub rfl)
    · rw [Option.bind_some, Option.bind_some, same]
      exact .same _
    · rw [Option.bind_some, Option.bind_some, gone]
      exact .reaped nowMs _ rfl (.inr fun state isState => ⟨sub, found, incarnation, applied state isState⟩)
  | drop nowMs sub => exact .reaped nowMs _ rfl (.inl reached)

/-- The state `next` of a call is the state it had, or one written since. -/
def SameOrAbove (counter : ℕ) (before : Option RefState) (next : RefState) : Prop :=
  (∃ state, before = some state ∧ state.counter = next.counter ∧ state.op = next.op) ∨ counter < next.counter

/-- An operation leaves a call's state alone, drops it, or moves it above the node's counter. -/
theorem step_states (indexed : log.Indexed)
    (found : (log.step operation).stateOf peer partition callRef = some next) :
    SameOrAbove log.counter (log.stateOf peer partition callRef) next := by
  have move := step_stateMove indexed operation peer partition callRef
  rw [found] at move
  generalize log.stateOf peer partition callRef = before at move
  cases move with
  | same => exact .inl ⟨next, rfl, rfl, rfl⟩
  | marked state counter => exact .inl ⟨state, rfl, rfl, rfl⟩
  | put | delete =>
    right
    rw [SubLog.nextState_counter]
    exact Nat.lt_succ_self _

/-- An operation drops a call's state only by forgetting the call, by reaping a tombstone the peer reported
    applying, or with the whole sub-log. -/
theorem step_survives (indexed : log.Indexed) (found : log.stateOf peer partition callRef = some state) :
    (∃ next, (log.step operation).stateOf peer partition callRef = some next ∧ state.counter ≤ next.counter) ∨
      operation = .forget peer partition callRef ∨ (log.step operation).sub peer partition = none ∨
        ∃ sub, log.sub peer partition = some sub ∧ sub.acked.gen = log.gen ∧ state.counter ≤ sub.acked.counter := by
  have bounded := indexed.state_le found
  have move := step_stateMove indexed operation peer partition callRef
  rw [found] at move
  generalize (log.step operation).stateOf peer partition callRef = after at move
  cases move with
  | same => exact .inl ⟨state, rfl, Nat.le_refl _⟩
  | marked => exact .inl ⟨_, rfl, Nat.le_refl _⟩
  | put | delete =>
    refine .inl ⟨_, rfl, ?_⟩
    rw [SubLog.nextState_counter]
    exact bounded.trans (Nat.le_succ _)
  | forgotten _ isForget => exact .inr (.inl isForget)
  | reaped nowMs _ isReap why =>
    obtain dropped | applied := why
    · exact .inr (.inr (.inl dropped))
    · exact .inr (.inr (.inr (applied state rfl)))

/-! ### The mark of one call -/

/-- The counter and the op of a call's entry. -/
def markOf (log : Changelog) (peer : String) (partition : Partition) (callRef : String) : Option (ℕ × Op) :=
  (log.stateOf peer partition callRef).map fun state => (state.counter, state.op)

/-- An operation that may change the counter or the op of an entry of the flow. -/
def Operation.Remarks (peer : String) (partition : Partition) : Operation → Prop
  | .put _ written _ flow => written = peer ∧ flow = partition
  | .delete _ written _ flow _ _ => written = peer ∧ flow = partition
  | .forget forgotten flow _ => forgotten = peer ∧ flow = partition
  | .reap _ => True
  | _ => False

theorem markOf_sameStates {byRef moved : KeyMap String RefState} (same : SameStates byRef moved) :
    (moved.get callRef).map (fun state => (state.counter, state.op)) =
      (byRef.get callRef).map fun state => (state.counter, state.op) := by
  have unsent := congrArg (Option.map fun state : RefState => (state.counter, state.op)) (same callRef)
  rw [Option.map_map, Option.map_map] at unsent
  exact unsent

theorem markOf_step (quiet : ¬ operation.Remarks peer partition) (callRef : String) :
    (log.step operation).markOf peer partition callRef = log.markOf peer partition callRef := by
  have move := step_subMove log operation peer partition
  unfold markOf stateOf
  generalize log.sub peer partition = before at move ⊢
  generalize (log.step operation).sub peer partition = next at move ⊢
  cases move with
  | keep => rfl
  | create _ same | progress same =>
    rw [Option.bind_some, same.byRef]
    rfl
  | put | delete | forget => exact absurd ⟨rfl, rfl⟩ quiet
  | drain since limit sub => exact markOf_sameStates (sameStates_snapshot _ sub.byRef)
  | scan w sub => exact markOf_sameStates (sameStates_scanned sub w.counter)
  | reap | drop => exact absurd trivial quiet

/-- A write leaves its call the next state of its sub-log, and the other calls theirs. -/
theorem stateOf_bump {nowMs : ℤ} :
    (log.bump nowMs peer written op partition stated).1.stateOf peer partition callRef =
      if callRef = written then
        some (((log.sub peer partition).getD (SubLog.new log.counter)).nextState
          (log.stateOf peer partition written) (log.counter + 1) op stated)
      else log.stateOf peer partition callRef := by
  unfold stateOf
  rw [sub_bump, if_pos rfl, if_pos rfl, Option.bind_some, SubLog.get_put]
  cases log.sub peer partition <;> rfl

/-- A write marks its call at the counter it takes. -/
theorem markOf_bump {nowMs : ℤ} :
    (log.bump nowMs peer written op partition stated).1.markOf peer partition callRef =
      if callRef = written then some (log.counter + 1, op) else log.markOf peer partition callRef := by
  unfold markOf
  rw [stateOf_bump]
  split
  · rw [Option.map_some, SubLog.nextState_counter, SubLog.nextState_op]
  · rfl

/-! ### The acknowledged position -/

theorem acked_noteUnbound {identity : Option String} {reported : Watermark} :
    (noteUnbound gen identity reported sub).acked = sub.acked := by
  unfold noteUnbound
  cases identity with
  | none => rfl
  | some identity =>
    dsimp only
    split <;> rfl

/-- An operation that takes an acknowledged position back. -/
def Operation.Rewinds : Operation → Prop
  | .coldPull _ _ => True
  | .bind _ _ => True
  | _ => False

/-- An operation that drops no entry and moves no acknowledged position. -/
def Operation.Plain : Operation → Prop
  | .put _ _ _ _ => True
  | .delete _ _ _ _ _ _ => True
  | .drain _ _ _ _ => True
  | .scan _ _ _ => True
  | .serve _ _ _ => True
  | .unserve _ _ => True
  | _ => False

/-- An operation opens a sub-log with nothing reported, or makes progress with what its peer reported. -/
theorem step_progress {next : SubLog} (found : (log.step operation).sub peer partition = some next) :
    (log.sub peer partition = none ∧ next.acked = .origin ∧ next.unbound = none) ∨
      ∃ sub, log.sub peer partition = some sub ∧ Progress log peer partition operation sub next := by
  have move := step_subMove log operation peer partition
  rw [found] at move
  generalize log.sub peer partition = sub at move ⊢
  generalize reached : some next = result at move
  have written : ∀ (op : Op) (callRef : String) (stated : Stated),
      next = (sub.getD (SubLog.new log.counter)).put (log.counter + 1) callRef op stated →
        (sub = none ∧ next.acked = .origin ∧ next.unbound = none) ∨
          ∃ before, sub = some before ∧ Progress log peer partition operation before next := by
    rintro op callRef stated rfl
    cases sub with
    | none => exact .inl ⟨rfl, rfl, rfl⟩
    | some sub => exact .inr ⟨sub, rfl, .kept _ rfl rfl⟩
  cases move with
  | keep =>
    subst reached
    exact .inr ⟨next, rfl, .kept _ rfl rfl⟩
  | create _ same acked unbound =>
    cases reached
    exact .inl ⟨rfl, acked, unbound⟩
  | put nowMs callRef => exact written .put callRef .nothing (Option.some.inj reached)
  | delete nowMs callRef answered incarnation =>
    exact written .delete callRef ⟨answered, incarnation⟩ (Option.some.inj reached)
  | forget callRef sub =>
    cases reached
    exact .inr ⟨sub, rfl, .kept _ sub.positions_forget.1 sub.positions_forget.2⟩
  | drain _ _ sub | scan _ sub =>
    cases reached
    exact .inr ⟨sub, rfl, .kept _ rfl rfl⟩
  | progress same progress =>
    cases reached
    exact .inr ⟨_, rfl, progress⟩
  | reap nowMs sub =>
    cases reached
    exact .inr ⟨sub, rfl, .kept _ sub.positions_reap.1 sub.positions_reap.2⟩
  | drop => cases reached

/-- An operation that rewinds nothing leaves the acknowledged position of a sub-log alone or raise it to the
    position reported. -/
theorem step_acked (forward : ¬ operation.Rewinds) {next : SubLog}
    (found : (log.step operation).sub peer partition = some next) :
    (log.sub peer partition = none ∧ next.acked = .origin) ∨
      ∃ sub, log.sub peer partition = some sub ∧
        (next.acked = sub.acked ∨
          sub.acked < next.acked ∧ next.acked.gen = log.gen ∧
            ∃ nowMs identity, operation = .report nowMs peer identity partition next.acked) := by
  obtain ⟨absent, acked, -⟩ | ⟨sub, subFound, progress⟩ := step_progress found
  · exact .inl ⟨absent, acked⟩
  refine .inr ⟨sub, subFound, ?_⟩
  cases progress with
  | kept _ acked unbound => exact .inl acked
  | aside nowMs identity reported _ isUnbound => exact .inl acked_noteUnbound
  | report nowMs identity reported _ isBound =>
    unfold noteReport
    split
    · rename_i raised
      exact .inr ⟨raised.2, raised.1, nowMs, identity, rfl⟩
    · exact .inl rfl
  | coldPull | bind => exact absurd trivial forward

/-- Only a reap drops a sub-log. -/
theorem sub_isSome_step (notReap : ∀ nowMs, operation ≠ .reap nowMs)
    (isSome : (log.sub peer partition).isSome) : ((log.step operation).sub peer partition).isSome := by
  have move := step_subMove log operation peer partition
  generalize log.sub peer partition = before at move isSome
  generalize (log.step operation).sub peer partition = next at move ⊢
  cases move with
  | keep => exact isSome
  | drop nowMs => exact absurd rfl (notReap nowMs)
  | create | put | delete | forget | drain | scan | progress | reap => rfl

/-! ### What a drain yields -/

/-- The entries `dues` a drain from `since` snapshots: ascending, all above `since`, each as its call's state
    says, and none left out below the last of them. -/
structure Drained (log : Changelog) (peer : String) (partition : Partition) (since : ℕ) (dues : List Due) : Prop where
  ascending : dues.Pairwise fun earlier later => earlier.counter < later.counter
  above : ∀ due ∈ dues, since < due.counter
  states : ∀ due ∈ dues, ∃ state, log.stateOf peer partition due.callRef = some state ∧
    state.counter = due.counter ∧ state.op = due.op
  complete : ∀ callRef state, log.stateOf peer partition callRef = some state → since < state.counter →
    ∀ due ∈ dues, state.counter ≤ due.counter →
      ∃ source ∈ dues, source.counter = state.counter ∧ source.callRef = callRef

theorem Indexed.drained (indexed : log.Indexed) (warm : since.gen = log.gen) (limit : ℕ) :
    log.Drained peer partition since.counter (log.drain peer partition since limit).2 := by
  have incarnation : decide (since.gen < log.gen) = false := by
    rw [warm]
    exact decide_eq_false (Nat.lt_irrefl _)
  unfold drain
  cases found : log.sub peer partition with
  | none =>
    exact ⟨.nil, fun _ member => (nomatch member), fun _ member => (nomatch member),
      fun _ _ _ _ _ member => (nomatch member)⟩
  | some sub =>
    have entries := indexed peer partition sub found
    have pairs := SubLog.due_pairs entries since.counter false limit
    have ascending := sub.entries.above_ascending (some since.counter)
    rw [if_neg Bool.false_ne_true] at pairs
    have stateOf_eq : ∀ callRef, log.stateOf peer partition callRef = sub.byRef.get callRef := by
      intro callRef
      rw [stateOf, found, Option.bind_some]
    simp only [incarnation]
    have pairOf : ∀ due ∈ (sub.due since.counter false limit).2,
        (due.counter, due.callRef) ∈ (sub.entries.above (some since.counter)).take limit := by
      intro due member
      rw [← pairs]
      exact List.mem_map_of_mem member
    constructor
    case ascending =>
      have taken := ascending.sublist (List.take_sublist limit _)
      rw [← pairs, List.pairwise_map] at taken
      exact taken
    case above =>
      intro due member
      exact ((SortedMap.mem_above _ _ _).mp (List.mem_of_mem_take (pairOf due member))).2 since.counter rfl
    case states =>
      intro due member
      have entry := (SortedMap.mem_above _ _ _).mp (List.mem_of_mem_take (pairOf due member))
      obtain ⟨state, stateFound, at_⟩ := (entries.inverse _ _).mp entry.1
      obtain ⟨other, otherFound, op, -⟩ := snapshot_states _ sub.byRef member
      cases stateFound.symm.trans otherFound
      exact ⟨state, (stateOf_eq _).trans stateFound, at_, op⟩
    case complete =>
      intro callRef state stateFound above due member le
      rw [stateOf_eq] at stateFound
      have isAbove : (state.counter, callRef) ∈ sub.entries.above (some since.counter) := by
        rw [SortedMap.mem_above]
        refine ⟨entries.entry stateFound, ?_⟩
        rintro key ⟨⟩
        exact above
      rcases mem_take_or_lt ascending limit isAbove with taken | ⟨-, beyond⟩
      · rw [← pairs] at taken
        obtain ⟨source, sourceMember, same⟩ := List.mem_map.mp taken
        exact ⟨source, sourceMember, (Prod.mk.inj same).1, (Prod.mk.inj same).2⟩
      · exact absurd (beyond _ (pairOf due member)) (Nat.not_lt.mpr le)

/-- A drain that finds nothing leaves no entry above the position it starts from. -/
theorem Indexed.exhausted (indexed : log.Indexed) (warm : since.gen = log.gen) {limit : ℕ}
    (positive : 0 < limit) (empty : (log.drain peer partition since limit).2 = [])
    (found : log.stateOf peer partition callRef = some state) : state.counter ≤ since.counter := by
  obtain ⟨sub, subFound, stateFound⟩ := Option.bind_eq_some_iff.mp found
  have entries := indexed peer partition sub subFound
  have incarnation : decide (since.gen < log.gen) = false := decide_eq_false (Nat.not_lt.mpr warm.ge)
  unfold drain at empty
  rw [subFound, incarnation] at empty
  have pairs := SubLog.due_pairs entries since.counter false limit
  have nothing : (sub.due since.counter false limit).2 = [] := empty
  rw [nothing, List.map_nil, if_neg Bool.false_ne_true] at pairs
  have above : sub.entries.above (some since.counter) = [] :=
    (List.take_eq_nil_iff.mp pairs.symm).resolve_left (Nat.ne_of_gt positive)
  by_contra beyond
  have member : (state.counter, callRef) ∈ sub.entries.above (some since.counter) := by
    rw [SortedMap.mem_above]
    refine ⟨entries.entry stateFound, ?_⟩
    rintro key ⟨⟩
    exact Nat.lt_of_not_le beyond
  rw [above] at member
  cases member

end Changelog

end SipServer.Repl
