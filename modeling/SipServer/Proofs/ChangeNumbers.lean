/-
Module: SipServer.Proofs.ChangeNumbers
Purpose: Change numbers reserved by the copies of one call: no number is reserved twice as long as the
  copies' epochs stay apart; a meeting that shares one counter between two copies breaks it.
-/
import SipServer.Call.Copies

namespace SipServer.Call

open SipServer.Lib

variable {state : CallLimiterState} {copies : Copies} {node : String} {turn : Numbering} {entries : List LimiterEntry}
  {next : Copies} {event : Event}

/-! ### What a numbering turn does to the counter -/

namespace CallLimiterState

@[simp] theorem ask_change {change : ℕ} : (state.ask change entries).change = state.change := by
  unfold ask
  split <;> rfl

/-- A replacement takes the number after the counter and moves the counter to it. -/
theorem replaceSet_number (state : CallLimiterState) {movesCall : Bool} :
    (state.replaceSet entries movesCall).2.number = state.change + 1 ∧
      (state.replaceSet entries movesCall).1.change = state.change + 1 := by
  have moved : (if movesCall then { state with runsOn := some entries } else state).change =
      state.change := by
    split <;> rfl
  unfold replaceSet
  generalize (if movesCall then { state with runsOn := some entries } else state) = start at moved
  dsimp only
  split
  · simp [Replacement.number, nextChange, reserveChanges, moved]
  · simp [Replacement.number, nextChange, reserveChanges, moved]

end CallLimiterState

namespace Numbering

/-- Every numbering turn answers the number after the counter. -/
theorem first_eq : turn.first state = state.change + 1 := by
  cases turn with
  | oweConsult | renumberConsult | renumberReplacement | numberAdmit => rfl
  | replaceSet entries movesCall => exact (state.replaceSet_number).1

/-- Every numbering turn moves the counter past the numbers it reserves. -/
theorem apply_change (turn : Numbering) (state : CallLimiterState) :
    (turn.apply state).change = state.change + turn.count := by
  cases turn with
  | oweConsult n => rfl
  | replaceSet entries movesCall => exact (state.replaceSet_number).2
  | renumberConsult n => rfl
  | renumberReplacement entries =>
    simp [apply, CallLimiterState.renumberReplacement, CallLimiterState.nextChange,
      CallLimiterState.reserveChanges, count]
  | numberAdmit => rfl

end Numbering

namespace Copies

/-! ### Reservations of one epoch -/

/-- The epoch of a counter or a change number. -/
def epoch (number : ℕ) : ℕ := number / changeEpoch

/-- No number is in both reservations. -/
def Disjoint (one other : Reservation) : Prop :=
  ∀ number, one.Covers number → ¬ other.Covers number

theorem epoch_mono {low high : ℕ} (le : low ≤ high) : epoch low ≤ epoch high :=
  Nat.div_le_div_right le

theorem epoch_enterEpoch : epoch state.enterEpoch.change = epoch state.change + 1 := by
  exact Nat.mul_div_cancel _ (by decide)

/-- The numbers a turn reserves lie above the counter, up to where it moves it, and in its epoch when the
    turn does not leave it. -/
theorem covers_first (within : epoch (state.change + turn.count) = epoch state.change) {number : ℕ}
    (covers : (⟨node, turn.first state, turn.count⟩ : Reservation).Covers number) :
    state.change < number ∧ number ≤ state.change + turn.count ∧ epoch number = epoch state.change := by
  obtain ⟨above, below⟩ := covers
  simp only [Numbering.first_eq] at above below
  have low : epoch state.change ≤ epoch number := epoch_mono (by omega)
  have high : epoch number ≤ epoch (state.change + turn.count) := epoch_mono (by omega)
  omega

/-! ### Epochs kept apart

The design behind the condition: a restored copy moves to an epoch of its own, so numbers are taken once as
long as no other event brings two copies into one epoch.
-/

/-- A node may take the counter: no other copy is in its epoch, and no copy has written a higher counter of
    that epoch. -/
def Free (copies : Copies) (node : String) (counter : ℕ) : Prop :=
  (∀ other held, other ≠ node → copies.held.get other = some held → epoch held.change ≠ epoch counter) ∧
    ∀ written ∈ copies.bodies, epoch written.change = epoch counter → written.change ≤ counter

/-- The event brings no two copies into one epoch: a turn numbers within its epoch, a limiter answer, a
    replacement or a meeting moves a copy to a counter it may take, and a restore starts from a body of the
    newest epoch. -/
def EpochsApart (copies : Copies) : Event → Prop
  | .number node turn => ∀ state, copies.held.get node = some state →
      epoch (state.change + turn.count) = epoch state.change
  | .learn node answer => ∀ state, copies.held.get node = some state → (answer.apply state).change ≠ state.change →
      copies.Free node (answer.apply state).change
  | .replace node body => copies.Free node body.change
  | .restore _ body => ∀ written ∈ copies.bodies, epoch written.change ≤ epoch body.change
  | .meet node body => ∀ state, copies.held.get node = some state → state.change < body.change →
      copies.Free node body.change
  | .leave _ => True

/-- Every copy is alone in its epoch with the highest counter written there, and the numbers reserved in an
    epoch are below a counter written there; so no number was reserved twice. -/
structure Apart (copies : Copies) : Prop where
  alone : ∀ node other state held, copies.held.get node = some state →
    copies.held.get other = some held → epoch state.change = epoch held.change → node = other
  highest : copies.held.Each fun _ state => ∀ written ∈ copies.bodies, epoch written.change = epoch state.change →
    written.change ≤ state.change
  written : copies.held.Each fun _ state => state ∈ copies.bodies
  below : ∀ reservation ∈ copies.reserved, ∀ number, reservation.Covers number →
    ∃ written ∈ copies.bodies, epoch number = epoch written.change ∧ number ≤ written.change
  disjoint : copies.reserved.Pairwise Disjoint

namespace Apart

/-- A copy may stay at its counter. -/
theorem free (apart : copies.Apart) (found : copies.held.get node = some state) : copies.Free node state.change := by
  refine ⟨fun other held ne foundOther same => ?_, apart.highest node state found⟩
  exact ne (apart.alone other node held state foundOther found same)

theorem write (apart : copies.Apart) (free : copies.Free node state.change) : (copies.write node state).Apart where
  alone one other oneState otherState foundOne foundOther same := by
    rcases KeyMap.of_get_insert foundOne with ⟨oneEq, rfl⟩ | ⟨oneNe, foundOne⟩
    · rcases KeyMap.of_get_insert foundOther with ⟨otherEq, -⟩ | ⟨otherNe, foundOther⟩
      · rw [oneEq, otherEq]
      · exact absurd same.symm (free.1 other otherState otherNe foundOther)
    · rcases KeyMap.of_get_insert foundOther with ⟨-, rfl⟩ | ⟨-, foundOther⟩
      · exact absurd same (free.1 one oneState oneNe foundOne)
      · exact apart.alone one other oneState otherState foundOne foundOther same
  highest other held found := by
    rintro written (_ | ⟨_, earlier⟩) same
    · rcases KeyMap.of_get_insert found with ⟨-, rfl⟩ | ⟨ne, found⟩
      · exact le_rfl
      · exact absurd same.symm (free.1 other held ne found)
    · rcases KeyMap.of_get_insert found with ⟨-, rfl⟩ | ⟨-, found⟩
      · exact free.2 written earlier same
      · exact apart.highest other held found written earlier same
  written := by
    refine KeyMap.Each.insert (fun other held found => ?_) List.mem_cons_self
    exact List.mem_cons_of_mem _ (apart.written other held found)
  below reservation member number covered := by
    obtain ⟨written, earlier, bounds⟩ := apart.below reservation member number covered
    exact ⟨written, List.mem_cons_of_mem _ earlier, bounds⟩
  disjoint := apart.disjoint

/-- A copy restored from the newest epoch is alone in the next one. -/
theorem free_enterEpoch (apart : copies.Apart) {body : CallLimiterState}
    (newest : EpochsApart copies (.restore node body)) : copies.Free node body.enterEpoch.change := by
  rw [Free, epoch_enterEpoch]
  refine ⟨fun other held _ found same => ?_, fun written member same => ?_⟩
  · have le := newest held (apart.written other held found)
    omega
  · have le := newest written member
    omega

/-- A meeting leaves a copy at its counter, or moves it to the other's. -/
theorem free_mergeChange (apart : copies.Apart) {body : CallLimiterState} (found : copies.held.get node = some state)
    (met : EpochsApart copies (.meet node body)) : copies.Free node (state.mergeChange body).change := by
  have merged : (state.mergeChange body).change = max state.change body.change := rfl
  rw [merged]
  rcases le_or_gt body.change state.change with lower | higher
  · rw [max_eq_left lower]
    exact apart.free found
  · rw [max_eq_right higher.le]
    exact met state found higher

/-- A numbering turn within its epoch takes numbers above every one reserved there. -/
theorem number (apart : copies.Apart) (found : copies.held.get node = some state)
    (within : epoch (state.change + turn.count) = epoch state.change) :
    ({ copies.write node (turn.apply state) with
        reserved := ⟨node, turn.first state, turn.count⟩ :: copies.reserved } : Copies).Apart := by
  have after : (turn.apply state).change = state.change + turn.count := turn.apply_change state
  have free : copies.Free node (turn.apply state).change := by
    rw [Free, after, within]
    refine ⟨(apart.free found).1, fun written member same => ?_⟩
    have le := apart.highest node state found written member same
    omega
  have wrote := apart.write free
  refine ⟨wrote.alone, wrote.highest, wrote.written, ?_, List.pairwise_cons.2 ⟨?_, apart.disjoint⟩⟩
  · rintro reservation (_ | ⟨_, earlier⟩) number covered
    · obtain ⟨-, most, same⟩ := covers_first within covered
      refine ⟨turn.apply state, List.mem_cons_self, ?_, ?_⟩ <;> rw [after]
      · rw [same, within]
      · exact most
    · exact wrote.below reservation earlier number covered
  · intro earlier member number covered earlierCovers
    obtain ⟨above, -, same⟩ := covers_first within covered
    obtain ⟨written, wasWritten, inEpoch, le⟩ := apart.below earlier member number earlierCovers
    have highest := apart.highest node state found written wasWritten (inEpoch.symm.trans same)
    omega

theorem step (apart : copies.Apart) (kept : copies.EpochsApart event)
    (stepped : copies.step event = some next) : next.Apart := by
  cases event with
  | number node turn =>
    simp only [Copies.step, Option.map_eq_some_iff] at stepped
    obtain ⟨state, found, rfl⟩ := stepped
    exact apart.number found (kept state found)
  | learn node answer =>
    simp only [Copies.step, Option.map_eq_some_iff] at stepped
    obtain ⟨state, found, rfl⟩ := stepped
    by_cases same : (answer.apply state).change = state.change
    · exact apart.write (same ▸ apart.free found)
    · exact apart.write (kept state found same)
  | replace node body =>
    simp only [Copies.step] at stepped
    split at stepped
    · cases stepped
      exact apart.write kept
    · cases stepped
  | restore node body =>
    simp only [Copies.step] at stepped
    split at stepped
    · cases stepped
      exact apart.write (apart.free_enterEpoch kept)
    · cases stepped
  | meet node body =>
    simp only [Copies.step] at stepped
    split at stepped
    · simp only [Option.map_eq_some_iff] at stepped
      obtain ⟨state, found, rfl⟩ := stepped
      exact apart.write (apart.free_mergeChange found kept)
    · cases stepped
  | leave node =>
    cases stepped
    refine ⟨?_, KeyMap.Each.remove apart.highest node, KeyMap.Each.remove apart.written node, apart.below,
      apart.disjoint⟩
    intro one other oneState otherState foundOne foundOther same
    exact apart.alone one other oneState otherState (KeyMap.of_get_remove foundOne).2
      (KeyMap.of_get_remove foundOther).2 same

end Apart

theorem created_apart (node key : String) : (created node key).Apart := by
  have only {other : String} {held : CallLimiterState} (found : (created node key).held.get other = some held) :
      other = node ∧ held = .uncounted key := by
    simpa [created, eq_comm] using found
  refine ⟨?_, ?_, ?_, by simp [created], .nil⟩
  · intro one other oneState otherState foundOne foundOther _
    rw [(only foundOne).1, (only foundOther).1]
  · rintro other held found written member -
    rw [(only found).2, List.mem_singleton.1 member]
  · intro other held found
    rw [(only found).2]
    exact List.mem_singleton.2 rfl

/-- In every run that keeps the epochs of the copies apart, no two reservations share a number. -/
theorem reservations_disjoint_of_epochsApart (node key : String) (events : List Event) (final : Copies)
    (kept : AllSteps step EpochsApart (created node key) events)
    (ran : run step (created node key) events = some final) :
    final.reserved.Pairwise Disjoint := by
  have apart : final.Apart := by
    refine run_invariant_of_steps Apart ?_ kept ran (created_apart node key)
    exact fun copies event next apart here stepped => apart.step here stepped
  exact apart.disjoint

/-- The body the first holder wrote when it numbered its initial admit. -/
def firstBody : CallLimiterState := (CallLimiterState.uncounted "key").numberAdmit.1

/-- The second node restores the call and both holders go on in their own epochs; the second meets the
    first's copy, leaves, and the first goes on from the second's body. -/
theorem restored_copy_reserves_apart :
    (⟨"a", 4294967298, 1⟩ :: ⟨"b", 4294967297, 1⟩ :: ⟨"a", 2, 1⟩ :: ⟨"a", 1, 1⟩ :: [] : List Reservation).Pairwise
      Disjoint := by
  refine reservations_disjoint_of_epochsApart "a" "key"
    [.number "a" .numberAdmit, .restore "b" firstBody, .number "a" .numberAdmit, .number "b" .numberAdmit,
      .meet "b" firstBody.numberAdmit.1, .leave "b", .replace "a" firstBody.enterEpoch.numberAdmit.1,
      .number "a" .numberAdmit] _ ?_ rfl
  refine .cons ?_ rfl (.cons ?_ rfl (.cons ?_ rfl (.cons ?_ rfl (.cons ?_ rfl (.cons trivial rfl
    (.cons ⟨?_, by decide⟩ rfl (.cons ?_ rfl trivial)))))))
  case refine_2 =>
    unfold EpochsApart
    decide
  case refine_5 =>
    intro state found higher
    cases found
    exact absurd higher (by decide)
  case refine_6 =>
    -- Only the first holder has a copy left.
    intro other held ne found
    simp only [write, created, KeyMap.get_insert, KeyMap.get_remove, ne, if_false] at found
    split at found <;> simp at found
  all_goals
    intro state found
    cases found
    decide

/-- The first holder meets the restored copy, takes its counter, and both number their next admit. -/
def sharedCounter : List Event :=
  [.number "a" .numberAdmit, .restore "b" firstBody, .meet "a" firstBody.enterEpoch,
    .number "a" .numberAdmit, .number "b" .numberAdmit]

/-- After the meeting both copies reserve the number after the shared counter, although three numbers are
    reserved in all. -/
theorem meeting_reuses_change_number :
    ∃ final, run step (created "a" "key") sharedCounter = some final ∧
      (final.reserved.map Reservation.count).sum < changeEpoch ∧
      ¬ final.reserved.Pairwise Disjoint := by
  refine ⟨_, rfl, by decide, ?_⟩
  intro disjoint
  have same := (List.pairwise_cons.1 disjoint).1 ⟨"a", 4294967297, 1⟩ (by decide) 4294967297 (by decide)
  exact same (by decide)

end Copies

end SipServer.Call
