/-
Module: SipServer.Proofs.NewestStatement
Purpose: The limiter's statements and a call's held set: the counters of the call only grow, and an answered
  admit is never undone by a statement under a lower number, except an answer from behind a release fence,
  which empties the held set and keeps the number it stood under.
-/
import SipServer.Limiter.Answers
import SipServer.Proofs.ChangeNumbers
import SipServer.Store.Containment

namespace SipServer.Call

open SipServer.Lib (run)
open SipServer.Limiter (AdmitResult HeldSet LimiterConfig readAdmit readRefresh toWire fromWire)
open SipServer.Store (LimiterWrite)

variable {state : CallLimiterState} {answer : Learning} {held : Option LimiterHeld}

/-! ### What the store answers -/

section Store

open SipServer.Limiter

variable {inner : Inner} {key : String} {change : ℕ} {held : HeldSet} {entries : List AdmitEntry}
  {releaseOnRefusal : Bool} {leaseEnd : ℤ}

/-- A refusal is stated under its own number. -/
theorem knownChange_refuse {lapses : ℤ} :
    (inner.refuse key change releaseOnRefusal lapses).knownChange key = some change := by
  cases releaseOnRefusal with
  | true =>
    have gone : (inner.dropSet key).1.calls.get key = none := by
      unfold Inner.dropSet
      split
      next absent => exact absent
      next => simp
    simp [Inner.refuse, Inner.knownChange, Inner.fence, Inner.dropMarker, gone]
  | false =>
    simp only [Inner.refuse, Bool.false_eq_true, if_false, Inner.recordChange]
    split
    next set found => simp [Inner.knownChange]
    next absent =>
      split
      next known lapses fenced => simp [Inner.knownChange, absent]
      next => simp [Inner.knownChange, absent]

/-- Every set an answer to an admit states stands under the admit's number or a later one. -/
theorem le_stated_change {stated : HeldSet}
    (answer : (∃ limiterId, (inner.admitSet key change held entries releaseOnRefusal leaseEnd).2 =
        .rejected limiterId stated) ∨
      (inner.admitSet key change held entries releaseOnRefusal leaseEnd).2 = .superseded stated) :
    change ≤ stated.change := by
  unfold Inner.admitSet at answer
  split at answer
  · rcases answer with ⟨_, answer⟩ | answer <;> cases answer
  split at answer
  next known =>
    rcases answer with ⟨_, answer⟩ | answer
    · cases answer
    obtain ⟨number, found, le⟩ := (Option.any_eq_true _ _).mp known
    obtain rfl := AdmitResult.superseded.inj answer
    simp only [Inner.heldSet, found, Option.getD_some]
    exact of_decide_eq_true le
  next =>
    dsimp only at answer
    split at answer
    · rcases answer with ⟨_, answer⟩ | answer
      · obtain ⟨-, rfl⟩ := AdmitResult.rejected.inj answer
        simp [Inner.heldSet, knownChange_refuse]
      · cases answer
    · rcases answer with ⟨_, answer⟩ | answer <;> cases answer

end Store

/-! ### Reports and answers the store produced -/

/-- The report of an admit of `key`: unanswered, or answered by a store reached in some run. -/
def AdmitReport.Produced (key : String) (report : AdmitReport) : Prop :=
  report.key = key ∧
    (report.outcome = .unavailable ∨ report.outcome = .notSent ∨
      ∃ (cfg : LimiterConfig) (requests : List Limiter.CallStore.Request) (store : Limiter.CallStore) (nowMs : ℤ)
        (held : HeldSet) (releaseOnRefusal : Bool),
        run Limiter.CallStore.step (.new cfg) requests = some store ∧
        report.outcome = readAdmit (store.admitCarrying nowMs key report.change held (toWire report.entries)
          releaseOnRefusal).2)

/-- The reply to a refresh of `key`, by a store reached in some run. -/
def StatedByRefresh (key : String) (held : Option LimiterHeld) : Prop :=
  ∃ (cfg : LimiterConfig) (requests : List Limiter.CallStore.Request) (store : Limiter.CallStore) (nowMs : ℤ)
    (calls : List (String × ℕ × List Limiter.AdmitEntry)) (place : ℕ) (reply : Limiter.Refreshed),
    run Limiter.CallStore.step (.new cfg) requests = some store ∧
    (calls[place]?).map Prod.fst = some key ∧
    (store.refreshAll nowMs calls).2[place]? = some reply ∧
    held = readRefresh reply

namespace Learning

/-- The report an answer carries. -/
def report : Learning → Option AdmitReport
  | .applyAdmit report => some report
  | .applyFold report _ => some report
  | .applyUnawaitedFold report => some report
  | .applyRefresh _ _ => none

/-- The set an answer states. -/
def stated : Learning → Option LimiterHeld
  | .applyAdmit report => report.held
  | .applyFold report _ => report.held
  | .applyUnawaitedFold report => report.held
  | .applyRefresh _ held => held

/-- The answer is one the store produced: a report for the call's `key`, a refresh reply for the key it
    names. -/
def Produced (key : String) : Learning → Prop
  | .applyAdmit report => report.Produced key
  | .applyFold report _ => report.Produced key
  | .applyUnawaitedFold report => report.Produced key
  | .applyRefresh named held => StatedByRefresh named held

end Learning

/-- A write of the call whose answer, if it applies one, the store produced. -/
def WriteProduced (key : String) : LimiterWrite → Prop
  | .number _ => True
  | .learn answer => answer.Produced key

/-- The limiter answered the admit. -/
def AdmitReport.Answered (report : AdmitReport) : Prop :=
  report.outcome ≠ .unavailable ∧ report.outcome ≠ .notSent

/-! ### The counters of a call -/

namespace CallLimiterState

variable {report : AdmitReport} {held : LimiterHeld}

/-- The call's own number is past every number it has heard. -/
structure Ordered (state : CallLimiterState) : Prop where
  held : state.heldChange ≤ state.change
  target : state.targetChange ≤ state.change

/-- What an operation never takes back. -/
structure Advances (before after : CallLimiterState) : Prop where
  key : after.key = before.key
  heldChange : before.heldChange ≤ after.heldChange
  change : before.change ≤ after.change
  ordered : before.Ordered → after.Ordered

theorem Advances.refl (state : CallLimiterState) : Advances state state := ⟨rfl, le_refl _, le_refl _, id⟩

theorem Advances.trans {first second third : CallLimiterState} (one : Advances first second)
    (other : Advances second third) : Advances first third where
  key := other.key.trans one.key
  heldChange := one.heldChange.trans other.heldChange
  change := one.change.trans other.change
  ordered before := other.ordered (one.ordered before)

theorem applyHeld_advances (state : CallLimiterState) : Advances state (state.applyHeld held) := by
  unfold applyHeld
  dsimp only
  split
  next older =>
    refine ⟨rfl, le_refl _, le_max_left _ _, fun ordered => ⟨?_, ?_⟩⟩
    · exact ordered.held.trans (le_max_left _ _)
    · exact ordered.target.trans (le_max_left _ _)
  next notOlder =>
    refine ⟨rfl, not_lt.mp notOlder, le_max_left _ _, fun ordered => ⟨le_max_right _ _, ?_⟩⟩
    exact ordered.target.trans (le_max_left _ _)

/-- A statement not older than held's is taken, whatever it states. -/
theorem le_heldChange_applyHeld : held.change ≤ (state.applyHeld held).heldChange := by
  unfold applyHeld
  dsimp only
  split
  next older => exact older.le
  next => exact le_refl _

/-- A statement under a lower number than held's changes no set. -/
theorem held_applyHeld_of_older
    (older : held.change < state.heldChange) : (state.applyHeld held).held = state.held := by
  simp [applyHeld, older]

/-- The call once it knows of an admit. -/
def raised (state : CallLimiterState) (report : AdmitReport) : CallLimiterState :=
  { state with
    releaseOwed := state.releaseOwed || report.owedRelease.isSome
    admitSent := state.admitSent || report.owedRelease.isSome
    change := max state.change report.change }

/-- And of the set its answer states. -/
def told (state : CallLimiterState) (report : AdmitReport) : CallLimiterState :=
  match report.held with
  | some held => (state.raised report).applyHeld held
  | none => state.raised report

/-- An admit's report is told; then a fence empties held, and the target moves unless a newer admit set
    it. -/
theorem applyAdmit_told (state : CallLimiterState) :
    (state.applyAdmit report).key = (state.told report).key ∧
    (state.applyAdmit report).change = (state.told report).change ∧
    (state.applyAdmit report).heldChange = (state.told report).heldChange ∧
    (state.applyAdmit report).targetChange = max (state.told report).targetChange report.change ∧
    (state.applyAdmit report).held = if report.outcome = .released then [] else (state.told report).held := by
  obtain ⟨target, unfolded⟩ : ∃ target, state.applyAdmit report =
      let cleared := if report.outcome = .released then { state.told report with held := [] } else state.told report
      if report.change < cleared.targetChange then cleared
      else { cleared with target := target, targetChange := report.change } := ⟨_, rfl⟩
  rw [unfolded]
  dsimp only
  split <;> split
  case isTrue.isTrue older | isFalse.isTrue older => exact ⟨rfl, rfl, rfl, (max_eq_left older.le).symm, rfl⟩
  case isTrue.isFalse newer | isFalse.isFalse newer =>
    exact ⟨rfl, rfl, rfl, (max_eq_right (not_lt.mp newer)).symm, rfl⟩

theorem raised_advances (state : CallLimiterState) : Advances state (state.raised report) where
  key := rfl
  heldChange := le_refl _
  change := le_max_left _ _
  ordered ordered := ⟨ordered.held.trans (le_max_left _ _), ordered.target.trans (le_max_left _ _)⟩

theorem raised_told (state : CallLimiterState) (report : AdmitReport) :
    Advances (state.raised report) (state.told report) := by
  unfold told
  split
  · exact applyHeld_advances _
  · exact .refl _

theorem told_advances (state : CallLimiterState) (report : AdmitReport) : Advances state (state.told report) :=
  (state.raised_advances).trans (state.raised_told report)

theorem applyAdmit_advances (state : CallLimiterState) : Advances state (state.applyAdmit report) := by
  obtain ⟨key, change, heldChange, targetChange, -⟩ := state.applyAdmit_told
  have advances := state.told_advances report
  have known : report.change ≤ (state.told report).change :=
    (le_max_right _ _).trans (state.raised_told report).change
  refine ⟨key.trans advances.key, heldChange ▸ advances.heldChange, change ▸ advances.change, fun ordered => ⟨?_, ?_⟩⟩
  · rw [heldChange, change]
    exact (advances.ordered ordered).held
  · rw [targetChange, change]
    exact max_le (advances.ordered ordered).target known

/-- A statement under a number below held's leaves held as it is. -/
theorem held_applyAdmit_of_older (stated : report.held = some held) (older : held.change < state.heldChange) :
    (state.applyAdmit report).held = state.held := by
  obtain ⟨-, -, -, -, kept⟩ := state.applyAdmit_told
  have notReleased : report.outcome ≠ .released := by
    intro released
    simp [AdmitReport.held, released] at stated
  rw [kept, if_neg notReleased]
  simp only [told, stated]
  exact held_applyHeld_of_older older

end CallLimiterState

/-! ### Every write of a call -/

section Writes

variable {key : String}

open CallLimiterState

theorem applyRefresh_advances : Advances state (state.applyRefresh key held).1 := by
  unfold applyRefresh
  split
  · exact .refl state
  cases held with
  | none => exact .refl state
  | some held => exact state.applyHeld_advances

/-- A refresh reply for the call that is not older than held's statement becomes held. -/
theorem held_applyRefresh {held : LimiterHeld} (same : key = state.key)
    (notOlder : state.heldChange ≤ held.change) : (state.applyRefresh key (some held)).1.held = held.entries := by
  simp [CallLimiterState.applyRefresh, applyHeld, same, not_lt.mpr notOlder]

/-- Two states alike in everything but what a call runs on and which consults it awaits. -/
structure SameCounts (left right : CallLimiterState) : Prop where
  key : left.key = right.key
  held : left.held = right.held
  heldChange : left.heldChange = right.heldChange
  targetChange : left.targetChange = right.targetChange
  change : left.change = right.change

theorem CallLimiterState.Ordered.of_same {left right : CallLimiterState} (ordered : right.Ordered)
    (same : SameCounts left right) : left.Ordered where
  held := by rw [same.heldChange, same.change]; exact ordered.held
  target := by rw [same.targetChange, same.change]; exact ordered.target

theorem CallLimiterState.Advances.of_same {before after first last : CallLimiterState}
    (advances : Advances first last) (start : SameCounts first before) (finish : SameCounts after last) :
    Advances before after where
  key := by rw [finish.key, ← start.key]; exact advances.key
  heldChange := by rw [finish.heldChange, ← start.heldChange]; exact advances.heldChange
  change := by rw [finish.change, ← start.change]; exact advances.change
  ordered ordered := (advances.ordered (ordered.of_same start)).of_same finish

/-- Whichever way a report arrives it is applied as an admit, with the consult it answers closed first. -/
theorem Learning.apply_report {report : AdmitReport} (carried : answer.report = some report)
    (state : CallLimiterState) :
    ∃ before, SameCounts before state ∧ SameCounts (answer.apply state) (before.applyAdmit report) := by
  cases answer with
  | applyAdmit report =>
    cases carried
    exact ⟨state, ⟨rfl, rfl, rfl, rfl, rfl⟩, ⟨rfl, rfl, rfl, rfl, rfl⟩⟩
  | applyFold | applyUnawaitedFold =>
    cases carried
    exact ⟨{ state with consultsOpen := state.consultsOpen - 1 }, ⟨rfl, rfl, rfl, rfl, rfl⟩,
      ⟨rfl, rfl, rfl, rfl, rfl⟩⟩
  | applyRefresh key held => cases carried

/-- An answer that is no report is a refresh reply. -/
theorem Learning.eq_refresh (plain : answer.report = none) :
    ∃ key held, answer = .applyRefresh key held := by
  cases answer with
  | applyRefresh key held => exact ⟨key, held, rfl⟩
  | applyAdmit | applyFold | applyUnawaitedFold => cases plain

theorem Learning.apply_advances (answer : Learning) : Advances state (answer.apply state) := by
  cases carried : answer.report with
  | none =>
    obtain ⟨key, held, rfl⟩ := eq_refresh carried
    exact applyRefresh_advances
  | some report =>
    obtain ⟨before, same, applied⟩ := apply_report carried state
    exact (before.applyAdmit_advances).of_same same applied

theorem ask_keeps (state : CallLimiterState) (change : ℕ) (entries : List LimiterEntry) :
    (state.ask change entries).key = state.key ∧ (state.ask change entries).heldChange = state.heldChange ∧
      (state.ask change entries).targetChange = max state.targetChange change := by
  unfold ask
  split
  next older => exact ⟨rfl, rfl, (max_eq_left older.le).symm⟩
  next newer => exact ⟨rfl, rfl, (max_eq_right (not_lt.mp newer)).symm⟩

/-- A turn that numbers admits keeps what the call has heard, and aims no further than it numbers. -/
theorem Numbering.apply_keeps (turn : Numbering) (state : CallLimiterState) :
    (turn.apply state).key = state.key ∧ (turn.apply state).heldChange = state.heldChange ∧
      (turn.apply state).targetChange ≤ max state.targetChange (state.change + 1) := by
  cases turn with
  | oweConsult | renumberConsult | numberAdmit => exact ⟨rfl, rfl, le_max_left _ _⟩
  | replaceSet entries movesCall =>
    have moved : (if movesCall then { state with runsOn := some entries } else state).key = state.key ∧
        (if movesCall then { state with runsOn := some entries } else state).heldChange = state.heldChange ∧
        (if movesCall then { state with runsOn := some entries } else state).targetChange = state.targetChange ∧
        (if movesCall then { state with runsOn := some entries } else state).change = state.change := by
      split <;> exact ⟨rfl, rfl, rfl, rfl⟩
    simp only [apply, CallLimiterState.replaceSet]
    generalize (if movesCall then { state with runsOn := some entries } else state) = start at moved
    obtain ⟨sameKey, heldChange, targetChange, change⟩ := moved
    obtain ⟨key, heldKept, target⟩ := ask_keeps start.nextChange.1 start.nextChange.2 entries
    rw [← heldChange, ← targetChange, ← change, ← sameKey]
    split <;> exact ⟨key, heldKept, target.le⟩
  | renumberReplacement entries =>
    have asked := ask_keeps state.nextChange.1 state.nextChange.2 entries
    exact ⟨asked.1, asked.2.1, asked.2.2.le⟩

theorem Numbering.one_le_count (turn : Numbering) : 1 ≤ turn.count := by
  cases turn with
  | oweConsult | renumberConsult => exact le_max_right _ _
  | replaceSet | renumberReplacement | numberAdmit => exact le_refl _

/-- No write of a call takes back a number it has heard or given. -/
theorem write_advances (state : CallLimiterState) (write : LimiterWrite) : Advances state (write.apply state) := by
  cases write with
  | number turn =>
    obtain ⟨key, heldChange, targetChange⟩ := turn.apply_keeps state
    have change : (turn.apply state).change = state.change + turn.count := turn.apply_change state
    have counted := turn.one_le_count
    dsimp only [LimiterWrite.apply]
    refine ⟨key, heldChange.ge, by omega, fun ⟨heldLe, targetLe⟩ => ⟨?_, ?_⟩⟩
    · omega
    · omega
  | learn answer => exact answer.apply_advances

theorem writes_advance (state : CallLimiterState) (writes : List LimiterWrite) :
    Advances state (writes.foldl LimiterWrite.apply state) := by
  induction writes generalizing state with
  | nil => exact .refl state
  | cons write writes hypothesis => exact (write_advances state write).trans (hypothesis _)

/-! ### What stands against a late statement -/

/-- A statement under a number below held's changes nothing held, whichever way it arrives. -/
theorem Learning.held_of_older {held : LimiterHeld} (stated : answer.stated = some held)
    (older : held.change < state.heldChange) :
    (answer.apply state).held = state.held := by
  cases carried : answer.report with
  | none =>
    obtain ⟨key, held, rfl⟩ := eq_refresh carried
    obtain rfl : held = some _ := stated
    simp [Learning.apply, CallLimiterState.applyRefresh, older]
  | some report =>
    obtain ⟨before, same, applied⟩ := apply_report carried state
    have stated : report.held = some held := by
      cases answer <;> cases carried <;> exact stated
    rw [applied.held, ← same.held]
    exact held_applyAdmit_of_older stated (same.heldChange ▸ older)

/-- The set an answered admit states stands under the admit's number or a later one. -/
theorem AdmitReport.Produced.le_held {report : AdmitReport} (produced : report.Produced key)
    (answered : report.Answered) (notReleased : report.outcome ≠ .released) :
    ∃ held, report.held = some held ∧ report.change ≤ held.change := by
  obtain ⟨-, lost | unsent | ⟨cfg, requests, store, nowMs, carried, releaseOnRefusal, -, outcome⟩⟩ := produced
  · exact absurd lost answered.1
  · exact absurd unsent answered.2
  · generalize answer : (store.admitCarrying nowMs key report.change carried (toWire report.entries)
      releaseOnRefusal).2 = result at outcome
    cases result with
    | admitted => exact ⟨⟨report.change, report.entries⟩, by simp [AdmitReport.held, outcome, readAdmit], le_refl _⟩
    | rejected limiterId held =>
      exact ⟨fromWire held, by simp [AdmitReport.held, outcome, readAdmit],
        le_stated_change (.inl ⟨limiterId, answer⟩)⟩
    | superseded held =>
      exact ⟨fromWire held, by simp [AdmitReport.held, outcome, readAdmit], le_stated_change (.inr answer)⟩
    | released => exact absurd outcome notReleased

theorem Learning.produced_report {key : String} {report : AdmitReport} (carried : answer.report = some report)
    (produced : answer.Produced key) : report.Produced key := by
  cases answer <;> cases carried <;> exact produced

/-- An answer that states a set raises held's number to the admit's; a release fence's leaves it. -/
theorem le_heldChange_of_answered {key : String} {report : AdmitReport} (carried : answer.report = some report)
    (produced : answer.Produced key) (answered : report.Answered)
    (fenced : report.outcome = .released → report.change ≤ state.heldChange) :
    report.change ≤ (answer.apply state).heldChange := by
  obtain ⟨before, same, applied⟩ := Learning.apply_report carried state
  obtain ⟨-, -, heldChange, -, -⟩ := before.applyAdmit_told
  rw [applied.heldChange, heldChange]
  by_cases released : report.outcome = .released
  · have advances := before.told_advances report
    exact (fenced released).trans (same.heldChange ▸ advances.heldChange)
  obtain ⟨held, stated, le⟩ := (Learning.produced_report carried produced).le_held answered released
  simp only [told, stated]
  exact le.trans le_heldChange_applyHeld

/-- An answer from behind a release fence states no set: held is emptied under the number it had. -/
theorem apply_released {report : AdmitReport} (carried : answer.report = some report)
    (released : report.outcome = .released) (state : CallLimiterState) :
    (answer.apply state).heldChange = state.heldChange ∧ (answer.apply state).held = [] := by
  obtain ⟨before, same, applied⟩ := Learning.apply_report carried state
  obtain ⟨-, -, heldChange, -, emptied⟩ := before.applyAdmit_told
  have unstated : report.held = none := by simp [AdmitReport.held, released]
  constructor
  · rw [applied.heldChange, heldChange, ← same.heldChange]
    simp only [told, unstated, raised]
  · rw [applied.held, emptied, if_pos released]

theorem fromWire_toWire {held : LimiterHeld} : fromWire ⟨held.change, toWire held.entries⟩ = held := by
  have entries : (toWire held.entries).map (fun entry => (⟨entry.id, entry.limit⟩ : LimiterEntry)) =
      held.entries := by
    rw [toWire, List.map_map]
    exact List.map_id _
  rw [fromWire, entries]

/-- A new store re-creates the set a refresh carries, under the number it carries. -/
theorem statedByRefresh_carried (key : String) (held : LimiterHeld) (named : held.entries ≠ []) :
    StatedByRefresh key (some held) := by
  have swept : Limiter.Inner.new.sweep 0 = Limiter.Inner.new := rfl
  have wired : (toWire held.entries).isEmpty = false := by
    cases entries : held.entries with
    | nil => exact absurd entries named
    | cons entry entries => rfl
  have reply : ((Limiter.CallStore.new ⟨1, by decide, by decide⟩).refreshAll 0
      [(key, held.change, toWire held.entries)]).2[0]? =
        some ⟨.reregistered, some ⟨held.change, toWire held.entries⟩⟩ := by
    simp only [Limiter.CallStore.refreshAll, Limiter.CallStore.new, swept]
    simp [Limiter.Inner.refreshEach, Limiter.Inner.refresh, Limiter.Inner.new, Limiter.Inner.reregisters,
      Limiter.Inner.reregister,
      Limiter.Inner.heldSet, Limiter.Inner.knownChange, Limiter.Inner.ownEntries, Limiter.Inner.insertSet,
      Limiter.Inner.dropMarker, wired]
  refine ⟨⟨1, by decide, by decide⟩, [], .new _, 0, [(key, held.change, toWire held.entries)], 0, _, rfl, rfl,
    reply, ?_⟩
  simp [readRefresh, fromWire_toWire]

/-- No later statement under a number below `number` changes what the call holds once `answer` is applied. -/
def StandsAfter (key : String) (state : CallLimiterState) (answer : Learning) (number : ℕ) : Prop :=
  ∀ (writes : List LimiterWrite) (late : Learning) (held : LimiterHeld),
    (∀ write ∈ writes, WriteProduced key write) → late.Produced key → late.stated = some held →
    held.change < number →
    let later := writes.foldl LimiterWrite.apply (answer.apply state)
    (late.apply later).held = later.held

/-- Over any run of a call's limiter state: its own number is at least every number it has heard or asked
    under, and neither it nor held's number ever decreases. An answered admit stands against every later
    statement under a lower number, unless a release fence answered it above held's number. -/
theorem newest_statement_stands_iff (key : String) (writes : List LimiterWrite) :
    let state := writes.foldl LimiterWrite.apply (.uncounted key)
    (state.heldChange ≤ state.change ∧ state.targetChange ≤ state.change) ∧
    (∀ write : LimiterWrite,
      state.heldChange ≤ (write.apply state).heldChange ∧ state.change ≤ (write.apply state).change) ∧
    ∀ (answer : Learning) (report : AdmitReport), answer.report = some report → answer.Produced key →
      report.Answered →
      (StandsAfter key state answer report.change ↔
        (report.outcome = .released → report.change ≤ state.heldChange)) := by
  intro state
  have ordered : state.Ordered := (writes_advance (uncounted key) writes).ordered ⟨le_refl _, le_refl _⟩
  refine ⟨⟨ordered.held, ordered.target⟩, ?_, ?_⟩
  · intro write
    have advances := write_advances state write
    exact ⟨advances.heldChange, advances.change⟩
  intro answer report carried answerProduced answered
  constructor
  · -- a set stated under held's own number, which the fence's answer left standing, comes back
    intro stands released
    by_contra above
    have emptied := apply_released carried released state
    have late := stands [] (.applyRefresh key (some ⟨state.heldChange, [default]⟩)) ⟨state.heldChange, [default]⟩
      (by simp) (statedByRefresh_carried key _ (by simp)) rfl (not_le.mp above)
    have sameKey : (answer.apply state).key = key :=
      (answer.apply_advances).key.trans (writes_advance (uncounted key) writes).key
    have restored : (Learning.apply (answer.apply state)
        (.applyRefresh key (some ⟨state.heldChange, [default]⟩))).held = [default] :=
      held_applyRefresh sameKey.symm emptied.1.le
    have unchanged : [default] = ([] : List LimiterEntry) := restored.symm.trans (late.trans emptied.2)
    cases unchanged
  · intro fenced between late held _ _ stated older
    have raised := le_heldChange_of_answered carried answerProduced answered fenced
    have kept := (writes_advance (answer.apply state) between).heldChange
    exact late.held_of_older stated (older.trans_le (raised.trans kept))

/-! ### A fence's answer, and the late report of an earlier admit -/

/-- The trunk the two admits ask for. -/
def trunk : LimiterEntry := ⟨"trunk", 10⟩

/-- The call numbers two admits; the store admits the first, the key is released, and the store refuses the
    second. The second report empties held, and the late first one fills it again. -/
theorem released_answer_overridden_by_late_report :
    let first : AdmitReport := ⟨"call", 1, [trunk], .admitted⟩
    let second : AdmitReport := ⟨"call", 2, [], .released⟩
    let admitted := Limiter.CallStore.admitCarrying (.new ⟨1, by decide, by decide⟩) 0 "call" 1 default
      (toWire [trunk]) false
    let refused := (admitted.1.release 1 ["call"]).admitCarrying 2 "call" 2 default (toWire []) false
    let numbered := [LimiterWrite.number (.replaceSet [trunk] true), .number (.replaceSet [] true)]
    let state := numbered.foldl LimiterWrite.apply (.uncounted "call")
    readAdmit admitted.2 = first.outcome ∧ readAdmit refused.2 = second.outcome ∧
      (Learning.apply state (.applyAdmit second)).held = [] ∧
      first.held = some ⟨1, [trunk]⟩ ∧
      (Learning.apply (Learning.apply state (.applyAdmit second)) (.applyAdmit first)).held = [trunk] := by
  decide

/-- A refused admit stands against the late report of the one before it. -/
theorem newest_statement_stands_refusal :
    let refusal : AdmitReport := ⟨"call", 2, [], .superseded ⟨2, []⟩⟩
    let state := [LimiterWrite.number .numberAdmit, .number .numberAdmit].foldl LimiterWrite.apply (.uncounted "call")
    StandsAfter "call" state (.applyAdmit refusal) 2 := by
  intro refusal state
  have stored : run Limiter.CallStore.step (.new ⟨1, by decide, by decide⟩)
      [⟨0, .admitCarrying "call" 2 default [] false⟩] =
        some (Limiter.CallStore.admitCarrying (.new ⟨1, by decide, by decide⟩) 0 "call" 2 default [] false).1 := rfl
  have produced : refusal.Produced "call" := ⟨rfl, .inr (.inr ⟨_, _, _, 1, default, false, stored, by decide⟩)⟩
  have writes := newest_statement_stands_iff "call" [.number .numberAdmit, .number .numberAdmit]
  exact (writes.2.2 (.applyAdmit refusal) refusal rfl produced ⟨by decide, by decide⟩).mpr nofun

end Writes

end SipServer.Call
