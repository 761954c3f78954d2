/-
Module: SipServer.Proofs.OutboxOrder
Purpose: A call's effects leave in order, once. While no push starts beside another push or a release of its
  call, and no push stops between its queueing and its count, the effects begin in the order they were queued
  or run and one at a time, an outbox in the map has its drainer, the depth counts what is queued or running,
  and everything queued gets to run.
-/
import SipServer.Proofs.OutboxLane

namespace SipServer.Router

open SipServer.Lib KeyMap

variable {Effect : Type} {drainer : Drainer Effect}

/-! ### The send lock and what runs -/

/-- The drainer holds the send lock. -/
def Drainer.holds : Drainer Effect → ℕ
  | .taking _ _ | .sending _ => 1
  | _ => 0

/-- The drainer runs an entry's effects. -/
def Drainer.sends : Drainer Effect → ℕ
  | .sending _ => 1
  | _ => 0

/-- A release holds the send lock. -/
def Turn.holds : Turn Effect → ℕ
  | .taking _ | .sending _ _ => 1
  | _ => 0

/-- A push or a release runs effects. -/
def Turn.runs : Turn Effect → ℕ
  | .running _ | .sending _ _ => 1
  | _ => 0

theorem Drainer.sends_le_holds (drainer : Drainer Effect) : drainer.sends ≤ drainer.holds := by
  cases drainer <;> simp [sends, holds]

theorem Turn.runs_le_holds {turn : Turn Effect} {number : ℕ} (released : turn.outbox = some number) :
    turn.runs ≤ turn.holds := by
  cases turn with
  | ready => cases released
  | running => cases released
  | _ => simp [runs, holds]

namespace Lane

variable {lane next : Lane Effect} {change : ℤ} {starting : Bool}

/-- What holds of a lane between any two steps. -/
structure Orderly (lane : Lane Effect) : Prop where
  drained : lane.mapped = true → lane.drainer ≠ .ended
  unmapped : lane.mapped = false → lane.drainer = .ended ∧ lane.entries = []
  pushing : ∀ turn held, lane.turns.get turn = some held → held.outbox = none →
    lane.mapped = false ∧ ∀ other, other ≠ turn → lane.turns.get other = none
  lock : lane.drainer.holds + lane.turns.total Turn.holds = lane.sending.toNat
  order : lane.ran ++ lane.entries.map Entry.effects = lane.pushed

/-- The effects running. -/
def running (lane : Lane Effect) : ℕ := lane.drainer.sends + lane.turns.total Turn.runs

/-- The entries queued or running. -/
def held (lane : Lane Effect) : ℕ := lane.entries.length + lane.running

/-- At most one effect runs: the only push under way, or whoever holds the send lock. -/
theorem Orderly.running_le_one (orderly : Orderly lane) : lane.running ≤ 1 := by
  by_cases pushing : ∃ turn held, lane.turns.get turn = some held ∧ held.outbox = none
  · obtain ⟨turn, held, isTurn, isPush⟩ := pushing
    obtain ⟨unmapped, alone⟩ := orderly.pushing turn held isTurn isPush
    have drainer : lane.drainer.sends = 0 := by
      rw [(orderly.unmapped unmapped).1]
      rfl
    have others : (lane.turns.remove turn).total Turn.runs = 0 := by
      refine total_eq_zero _ fun other => ?_
      rw [get_remove]
      split
      · rfl
      rename_i apart
      exact alone other apart
    have one : held.runs ≤ 1 := by
      cases held <;> simp [Turn.runs]
    rw [running, drainer, total_remove_of_get_eq_some _ isTurn, others]
    omega
  · have releases : lane.turns.total Turn.runs ≤ lane.turns.total Turn.holds := by
      refine total_le_total fun turn held isTurn => ?_
      cases isRelease : held.outbox with
      | none => exact absurd ⟨turn, held, isTurn, isRelease⟩ pushing
      | some number => exact Turn.runs_le_holds isRelease
    have holder := orderly.lock
    have drainer := lane.drainer.sends_le_holds
    have lock := Bool.toNat_le lane.sending
    rw [running]
    omega

/-! ### One step of a lane -/

section

variable (orderly : Orderly lane)

include orderly

/-- The send lock and the drainer move; nothing else does. -/
theorem Orderly.drain (mapped : lane.mapped = true) {sending kick : Bool} (live : drainer ≠ .ended)
    (lock : drainer.holds + lane.turns.total Turn.holds = sending.toNat) :
    Orderly { lane with sending := sending, kick := kick, drainer := drainer } where
  drained := fun _ => live
  unmapped := fun unmapped => absurd (mapped.symm.trans unmapped) nofun
  pushing := orderly.pushing
  lock := lock
  order := orderly.order

theorem Orderly.mapped_of_drainer (live : lane.drainer ≠ .ended) : lane.mapped = true := by
  cases mapped : lane.mapped with
  | true => rfl
  | false => exact absurd (orderly.unmapped mapped).1 live

/-- The drainer moves on without the lock. -/
theorem Orderly.moved (wasLive : lane.drainer ≠ .ended) {kick : Bool}
    (live : drainer ≠ .ended) (same : drainer.holds = lane.drainer.holds) :
    Orderly { lane with kick := kick, drainer := drainer } :=
  orderly.drain (orderly.mapped_of_drainer wasLive) live (by rw [same]; exact orderly.lock)

/-- A release moves to another of its states, the lock and the entries with it. -/
theorem Orderly.release {turn number : ℕ} {held after : Turn Effect}
    (isTurn : lane.turns.get turn = some held) (stays : after.outbox = some number)
    {entries : List (Entry Effect)} {sending : Bool} {ran : List Effect}
    (unmapped : lane.mapped = false → entries = [])
    (lock : lane.drainer.holds + lane.turns.total Turn.holds + after.holds = sending.toNat + held.holds)
    (order : ran ++ entries.map Entry.effects = lane.pushed) :
    Orderly { lane with
      entries := entries
      sending := sending
      turns := lane.turns.insert turn after
      ran := ran } where
  drained := orderly.drained
  unmapped := fun isUnmapped => ⟨(orderly.unmapped isUnmapped).1, unmapped isUnmapped⟩
  pushing := by
    intro pusher pushed found isPush
    rcases of_get_insert found with ⟨-, rfl⟩ | ⟨apart, found⟩
    · cases stays.symm.trans isPush
    obtain ⟨-, alone⟩ := orderly.pushing pusher pushed found isPush
    cases isTurn.symm.trans (alone turn (Ne.symm apart))
  lock := by
    have moved := total_replace Turn.holds isTurn after
    dsimp only
    omega
  order := order

theorem Orderly.alone {turn : ℕ} {held : Turn Effect} (isTurn : lane.turns.get turn = some held)
    (isPush : held.outbox = none) :
    lane.mapped = false ∧ ∀ other, other ≠ turn → lane.turns.get other = none :=
  orderly.pushing turn held isTurn isPush

theorem Orderly.step (stepped : LaneStep lane next change starting) : Orderly next := by
  cases stepped with
  | idle => exact orderly
  | queued entry alone mapped =>
    refine ⟨orderly.drained, fun unmapped => absurd (mapped.symm.trans unmapped) (by simp), orderly.pushing,
      orderly.lock, ?_⟩
    rw [← orderly.order]
    simp
  | opened entry alone unmapped =>
    refine ⟨by simp, by simp, fun turn held found => ?_, ?_, ?_⟩
    · cases (alone turn).symm.trans found
    · rw [total_eq_zero _ alone]
      rfl
    · rw [← orderly.order, (orderly.unmapped unmapped).2]
      simp
  | readied turn effects released alone unmapped =>
    refine ⟨orderly.drained, orderly.unmapped, fun pusher held found isPush => ⟨unmapped, fun other apart => ?_⟩, ?_,
      orderly.order⟩
    · rw [get_insert] at found ⊢
      split at found
      · rename_i same
        rw [if_neg (same ▸ apart)]
        exact alone other
      · cases (alone pusher).symm.trans found
    · rw [total_insert_of_none _ (alone turn)]
      simpa [Turn.holds] using orderly.lock
  | @begun turn effects released isTurn =>
    obtain ⟨unmapped, alone⟩ := orderly.alone isTurn rfl
    have moved := total_replace Turn.holds isTurn (.running effects)
    refine ⟨orderly.drained, orderly.unmapped,
      fun pusher held found isPush => ⟨unmapped, fun other apart => ?_⟩, ?_, ?_⟩
    · rw [get_insert] at found ⊢
      split at found
      · rename_i same
        rw [if_neg (same ▸ apart)]
        exact alone other (same ▸ apart)
      · rename_i elsewhere
        cases (alone pusher elsewhere).symm.trans found
    · have lock := orderly.lock
      simp only [Turn.holds, Nat.add_zero] at moved
      dsimp only
      omega
    · have nothing : lane.entries = [] := (orderly.unmapped unmapped).2
      have order := orderly.order
      rw [nothing] at order ⊢
      rw [← order]
      simp
  | @finished turn effects isTurn =>
    obtain ⟨unmapped, alone⟩ := orderly.alone isTurn rfl
    have moved := total_remove_of_get_eq_some Turn.holds isTurn
    refine ⟨orderly.drained, orderly.unmapped, fun pusher held found => ?_, ?_, orderly.order⟩
    · obtain ⟨elsewhere, found⟩ := of_get_remove found
      cases (alone pusher elsewhere).symm.trans found
    · have lock := orderly.lock
      simp only [Turn.holds, Nat.zero_add] at moved
      rw [← moved]
      exact lock
  | @found turn number fresh mapped =>
    refine ⟨orderly.drained, orderly.unmapped, fun pusher held found isPush => ?_, ?_, orderly.order⟩
    · rcases of_get_insert found with ⟨-, rfl⟩ | ⟨-, found⟩
      · cases isPush
      · cases mapped.symm.trans (orderly.alone found isPush).1
    · rw [total_insert_of_none _ fresh]
      simpa [Turn.holds] using orderly.lock
  | locked isTurn free =>
    have lock := orderly.lock
    refine orderly.release isTurn rfl (fun unmapped => (orderly.unmapped unmapped).2) ?_ orderly.order
    rw [lock, free]
    rfl
  | took isTurn entries =>
    have lock := orderly.lock
    refine orderly.release isTurn rfl (fun unmapped => ?_) ?_ ?_
    · cases entries.symm.trans (orderly.unmapped unmapped).2
    · rw [lock]
      rfl
    · rw [← orderly.order, entries]
      simp
  | @kicked turn number isTurn entries =>
    have moved := total_remove_of_get_eq_some Turn.holds isTurn
    refine ⟨orderly.drained, orderly.unmapped, fun pusher held found isPush => ?_, ?_, orderly.order⟩
    · obtain ⟨apart, found⟩ := of_get_remove found
      cases isTurn.symm.trans ((orderly.alone found isPush).2 turn (Ne.symm apart))
    · have lock := orderly.lock
      have atMost := Bool.toNat_le lane.sending
      simp only [Turn.holds] at moved
      simp only [Bool.toNat_false]
      omega
  | sent isTurn =>
    refine orderly.release isTurn rfl (fun unmapped => (orderly.unmapped unmapped).2) ?_ orderly.order
    rw [orderly.lock]
    rfl
  | readNone phase | stayed phase | waited _ phase | woken phase =>
    exact orderly.moved (by simp [phase]) (by simp) (by rw [phase]; rfl)
  | readHead drainer reading entries toEntry =>
    rcases toEntry with rfl | rfl
    · exact orderly.moved (by simp [reading]) (by simp) (by rw [reading]; rfl)
    · exact orderly.moved (by simp [reading]) (by simp) (by rw [reading]; rfl)
  | left leaving entries =>
    have lock := orderly.lock
    rw [leaving] at lock
    refine ⟨by simp, fun _ => ⟨rfl, entries⟩, fun pusher held found isPush => ?_, lock, orderly.order⟩
    exact ⟨rfl, (orderly.alone found isPush).2⟩
  | drainerLocked locking free =>
    have mapped := orderly.mapped_of_drainer (by simp [locking])
    have lock := orderly.lock
    rw [locking, free] at lock
    refine orderly.drain mapped (by simp) ?_
    simp only [Drainer.holds, Nat.zero_add, Bool.toNat_false] at lock
    rw [lock]
    rfl
  | drainerTook taking entries =>
    have mapped := orderly.mapped_of_drainer (by simp [taking])
    refine ⟨by simp, fun unmapped => absurd (mapped.symm.trans unmapped) (by simp), orderly.pushing, ?_, ?_⟩
    · have lock := orderly.lock
      rw [taking] at lock
      exact lock
    · rw [← orderly.order, entries]
      simp
  | missed phase | drainerSent phase =>
    have mapped := orderly.mapped_of_drainer (by simp [phase])
    have lock := orderly.lock
    have atMost := Bool.toNat_le lane.sending
    rw [phase] at lock
    refine orderly.drain mapped (by simp) ?_
    simp only [Drainer.holds, Bool.toNat_false] at lock ⊢
    omega

/-- A step adds to what is queued or running what it adds to the depth. -/
theorem Orderly.held_step (stepped : LaneStep lane next change starting) :
    (next.held : ℤ) = lane.held + change := by
  cases stepped with
  | idle => simp
  | queued => simp only [held, running, List.length_append, List.length_singleton]; omega
  | opened entry alone unmapped =>
    obtain ⟨drainer, entries⟩ := orderly.unmapped unmapped
    simp only [held, running, drainer, entries, Drainer.sends, List.length_singleton, List.length_nil]
    omega
  | readied turn effects released alone =>
    simp only [held, running, total_insert_of_none _ (alone turn), Turn.runs]
    omega
  | @begun turn effects released isTurn =>
    have moved := total_replace Turn.runs isTurn (.running effects)
    simp only [held, running, Turn.runs] at moved ⊢
    omega
  | finished isTurn | kicked isTurn =>
    have moved := total_remove_of_get_eq_some Turn.runs isTurn
    simp only [held, running, Turn.runs] at moved ⊢
    omega
  | found turn number fresh =>
    simp only [held, running, total_insert_of_none _ fresh, Turn.runs]
    omega
  | @locked _ number isTurn | @sent _ number _ isTurn =>
    have moved := total_replace Turn.runs isTurn (.taking number)
    simp only [held, running, Turn.runs] at moved ⊢
    omega
  | @took turn number entry rest isTurn entries =>
    have moved := total_replace Turn.runs isTurn (.sending number entry.effects)
    simp only [held, running, Turn.runs, entries, List.length_cons] at moved ⊢
    omega
  | readHead drainer reading entries toEntry =>
    rcases toEntry with rfl | rfl <;> simp [held, running, reading, Drainer.sends]
  | drainerTook taking entries =>
    simp only [held, running, taking, entries, Drainer.sends, List.length_cons]
    omega
  | drainerSent sending =>
    simp only [held, running, sending, Drainer.sends]
    omega
  | readNone phase | left phase | stayed phase | waited _ phase | woken phase | drainerLocked phase | missed phase =>
    simp [held, running, phase, Drainer.sends]

end

end Lane

/-! ### What a lane still has to do -/

/-- What a drainer pays for an entry a release took from under it. -/
def staleness (entries : List (Entry Effect)) (id : ℕ) : ℕ :=
  match entries with
  | entry :: _ => if entry.id = id then 0 else 4
  | [] => 4

/-- The steps a drainer may take before its next entry, given what is queued. -/
def Drainer.effort (entries : List (Entry Effect)) : Drainer Effect → ℕ
  | .reading => 5
  | .leaving =>
    match entries with
    | [] => 1
    | _ :: _ => 6
  | .waiting id => 4 + staleness entries id
  | .locking id _ => 3 + staleness entries id
  | .taking id _ => 2 + staleness entries id
  | .sending _ => 6
  | .ended => 0

/-- The steps a push or a release under way may take, entries apart; a release leaves a kick behind. -/
def Turn.effort : Turn Effect → ℕ
  | .running _ => 1
  | .ready _ _ => 2
  | .taking _ => 3
  | .found _ | .sending _ _ => 4

theorem staleness_le (entries : List (Entry Effect)) (id : ℕ) : staleness entries id ≤ 4 := by
  unfold staleness
  split
  · split <;> decide
  · decide

theorem Drainer.effort_tail (drainer : Drainer Effect) (entry : Entry Effect) (rest : List (Entry Effect)) :
    drainer.effort rest ≤ drainer.effort (entry :: rest) + 4 := by
  cases drainer with
  | leaving => cases rest <;> simp [effort]
  | waiting id | locking id | taking id => have := staleness_le rest id; simp only [effort]; omega
  | _ => simp [effort]

theorem Drainer.effort_append (drainer : Drainer Effect) (entries : List (Entry Effect)) (entry : Entry Effect) :
    drainer.effort (entries ++ [entry]) ≤ drainer.effort entries + 5 := by
  have stale (id : ℕ) : staleness (entries ++ [entry]) id ≤ staleness entries id := by
    cases entries with
    | nil => exact staleness_le _ _
    | cons head tail => exact le_rfl
  cases drainer with
  | leaving => cases entries <;> simp [effort]
  | waiting id | locking id | taking id => have := stale id; simp only [effort]; omega
  | _ => simp [effort]

namespace Lane

variable {lane next : Lane Effect} {change : ℤ} {starting : Bool}

/-- A bound on the steps the lane takes if nothing more is pushed and no release starts. -/
def effort (lane : Lane Effect) : ℕ :=
  8 * lane.entries.length + lane.drainer.effort lane.entries + 2 * lane.kick.toNat + lane.turns.total Turn.effort

/-- A push or a release adds at most thirteen steps, and every other step is one of them. -/
theorem effort_step (stepped : LaneStep lane next change starting) :
    next.effort + (if starting then 0 else 1) ≤ lane.effort + (if starting then 13 else 0) := by
  cases stepped with
  | idle => simp
  | queued entry =>
    have drainer := lane.drainer.effort_append lane.entries entry
    simp only [effort, List.length_append, List.length_singleton, if_true]
    omega
  | opened entry alone unmapped =>
    simp only [effort, Drainer.effort, List.length_singleton, if_true, Bool.toNat_false]
    omega
  | readied turn effects released alone =>
    simp only [effort, total_insert_of_none _ (alone turn), Turn.effort, if_true]
    omega
  | @begun turn effects released isTurn =>
    have moved := total_replace Turn.effort isTurn (.running effects)
    simp only [effort, Turn.effort, Bool.false_eq_true, if_false] at moved ⊢
    omega
  | finished isTurn =>
    have moved := total_remove_of_get_eq_some Turn.effort isTurn
    simp only [effort, Turn.effort, Bool.false_eq_true, if_false] at moved ⊢
    omega
  | found turn number fresh =>
    simp only [effort, total_insert_of_none _ fresh, Turn.effort, if_true]
    omega
  | @locked _ number isTurn | @sent _ number _ isTurn =>
    have moved := total_replace Turn.effort isTurn (.taking number)
    simp only [effort, Turn.effort, Bool.false_eq_true, if_false] at moved ⊢
    omega
  | @took turn number entry rest isTurn entries =>
    have moved := total_replace Turn.effort isTurn (.sending number entry.effects)
    have drainer := lane.drainer.effort_tail entry rest
    simp only [effort, Turn.effort, entries, List.length_cons, Bool.false_eq_true, if_false] at moved ⊢
    omega
  | kicked isTurn =>
    have moved := total_remove_of_get_eq_some Turn.effort isTurn
    simp only [effort, Turn.effort, Bool.toNat_true, Bool.false_eq_true, if_false] at moved ⊢
    omega
  | readNone phase entries | left phase entries =>
    simp only [effort, phase, entries, Drainer.effort, Bool.false_eq_true, if_false]
    omega
  | readHead drainer reading entries toEntry =>
    rcases toEntry with rfl | rfl <;>
      simp only [effort, reading, entries, Drainer.effort, staleness, Bool.false_eq_true, if_false, if_true] <;> omega
  | stayed leaving entries =>
    cases isEntries : lane.entries with
    | nil => exact absurd isEntries entries
    | cons head tail =>
      simp only [effort, leaving, isEntries, Drainer.effort, Bool.false_eq_true, if_false]
      omega
  | waited _ phase | drainerLocked phase | drainerSent phase =>
    simp only [effort, phase, Drainer.effort, Bool.false_eq_true, if_false]
    omega
  | woken waiting kick =>
    simp only [effort, waiting, kick, Drainer.effort, Bool.false_eq_true, if_false, Bool.toNat_true, Bool.toNat_false]
    omega
  | drainerTook taking entries =>
    simp only [effort, taking, entries, Drainer.effort, List.length_cons, Bool.false_eq_true, if_false]
    omega
  | @missed id released taking gone =>
    have stale : staleness lane.entries id = 4 := by
      cases entries : lane.entries with
      | nil => rfl
      | cons head tail =>
        rw [entries] at gone
        simp [staleness, gone head rfl]
    simp only [effort, taking, stale, Drainer.effort, Bool.false_eq_true, if_false]
    omega

end Lane

end SipServer.Router
