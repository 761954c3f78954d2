/-
Module: SipServer.Proofs.Ladder
Purpose: A ladder is its rung: what `armed` and then `advance` walk is what `atRung` rebuilds from the rung
  alone, up to the first rung that lands at or past the bound.
-/
import Mathlib.Algebra.BigOperators.Group.List.Basic
import Mathlib.Data.Nat.Find
import Mathlib.Order.WellFounded
import SipServer.Retransmit.Ladder

namespace SipServer.Retransmit

theorem Class.interval_pos (cls : Class) (n : ℕ) : 0 < cls.interval n := by
  have doubled : 0 < t1 * 2 ^ min (n - 1) maxDoublings := Nat.mul_pos (by decide) (Nat.pow_pos (by decide))
  have capped : 0 < min (t1 * 2 ^ min (n - 1) maxDoublings) t2 := lt_min doubled (by decide)
  cases cls with
  | inviteClient | reliableProvisional => exact doubled
  | nonInviteProceeding => exact (by decide : 0 < t2)
  | nonInviteClient | cancelClient | inviteServerFinal | final2xx => exact capped

namespace Schedule

variable (schedule : Schedule)

theorem interval_succ (n : ℕ) : schedule.interval (n + 1) = some (schedule.pacing.interval (n + 1)) :=
  if_neg n.succ_ne_zero

theorem elapsedAt_succ (n : ℕ) :
    schedule.elapsedAt (n + 1) = schedule.elapsedAt n + schedule.pacing.interval (n + 1) := by
  simp [elapsedAt, List.range_succ]

theorem elapsedAt_strictMono : StrictMono schedule.elapsedAt := by
  apply strictMono_nat_of_lt_succ
  intro n
  rw [elapsedAt_succ]
  exact Nat.lt_add_of_pos_right (schedule.pacing.interval_pos (n + 1))

/-- Some rung lands at or past the bound, however late it is. -/
theorem exists_past : ∃ n, schedule.giveUp ≤ schedule.elapsedAt (n + 1) :=
  ⟨schedule.giveUp, (Nat.le_succ _).trans (StrictMono.le_apply schedule.elapsedAt_strictMono)⟩

end Schedule

namespace Ladder

/-- What `n` calls of `advance` answer, and the ladder they leave. -/
def walk (ladder : Ladder) : ℕ → List (Option ℕ) × Ladder
  | 0 => ([], ladder)
  | n + 1 =>
    let rest := ladder.advance.2.walk n
    (ladder.advance.1 :: rest.1, rest.2)

variable {schedule : Schedule} {rung : ℕ}

theorem armed_eq (schedule : Schedule) : armed schedule = some (atRung schedule 1, schedule.pacing.interval 1) := by
  simp [armed, atRung, Schedule.interval, Schedule.elapsedAt]

theorem advance_atRung (within : schedule.elapsedAt (rung + 1) < schedule.giveUp) :
    (atRung schedule rung).advance = (some (schedule.pacing.interval (rung + 1)), atRung schedule (rung + 1)) := by
  rw [Schedule.elapsedAt_succ] at within
  simp [advance, atRung, Schedule.interval_succ, Schedule.elapsedAt_succ, Nat.not_le.mpr within]

theorem advance_atRung_past (past : schedule.giveUp ≤ schedule.elapsedAt (rung + 1)) :
    (atRung schedule rung).advance = (none, atRung schedule rung) := by
  rw [Schedule.elapsedAt_succ] at past
  simp [advance, atRung, Schedule.interval_succ, past]

/-- The walk from a rung, as far as it stays below the bound. -/
theorem walk_atRung (n : ℕ) (within : schedule.elapsedAt (rung + n) < schedule.giveUp) :
    (atRung schedule rung).walk n =
      ((List.range n).map (fun k => some (schedule.pacing.interval (rung + 1 + k))), atRung schedule (rung + n)) := by
  induction n generalizing rung with
  | zero => rfl
  | succ n ih =>
    have next : schedule.elapsedAt (rung + 1) ≤ schedule.elapsedAt (rung + (n + 1)) :=
      schedule.elapsedAt_strictMono.monotone (by omega)
    have onward : rung + (n + 1) = rung + 1 + n := by omega
    rw [onward] at within
    rw [walk, advance_atRung (by rw [← onward] at within; exact next.trans_lt within), ih within, onward]
    have shifted : ∀ k, rung + 1 + 1 + k = rung + 1 + (k + 1) := by omega
    simp [List.range_succ_eq_map, shifted]

/-- The walk past the last rung: every further call is refused. -/
theorem walk_atRung_past (past : schedule.giveUp ≤ schedule.elapsedAt (rung + 1)) (n : ℕ) :
    (atRung schedule rung).walk n = (List.replicate n none, atRung schedule rung) := by
  induction n with
  | zero => rfl
  | succ n ih => rw [walk, advance_atRung_past past, ih, List.replicate_succ]

/-- Every class under every bound above its first interval: the ladder walks rungs 1 to `last`, `last + 1`
    being the first that lands at or past the bound, by the class's intervals; each ladder it passes is the
    one rebuilt from its rung, and re-pacing a ladder moves neither its elapsed total nor its bound. -/
theorem ladder_is_its_rung (cls : Class) (giveUp : ℕ) (above : cls.interval 1 < giveUp) :
    ∃ first last, armed ((Schedule.rfc cls).withGiveUp giveUp) = some (first, cls.interval 1) ∧ 1 ≤ last ∧
      (∀ n, 1 + n ≤ last →
        (first.walk n).1 = (List.range n).map (fun k => some (cls.interval (k + 2))) ∧
        (first.walk n).2 = atRung ((Schedule.rfc cls).withGiveUp giveUp) (1 + n) ∧
        (first.walk n).2.elapsed < giveUp ∧
        (∀ earlier < n, (first.walk earlier).2.elapsed < (first.walk n).2.elapsed) ∧
        (∀ more, (first.walk n).2.walk more = (atRung ((Schedule.rfc cls).withGiveUp giveUp) (1 + n)).walk more)) ∧
      (∀ more, (first.walk (last - 1)).2.walk more = (List.replicate more none, (first.walk (last - 1)).2)) ∧
      (∀ rung, giveUp ≤ ((Schedule.rfc cls).withGiveUp giveUp).elapsedAt rung ↔ last < rung) ∧
      ∀ (ladder : Ladder) other, (ladder.retarget other).elapsed = ladder.elapsed ∧
        (ladder.retarget other).schedule.giveUp = ladder.schedule.giveUp := by
  let schedule := (Schedule.rfc cls).withGiveUp giveUp
  have grows : StrictMono schedule.elapsedAt := schedule.elapsedAt_strictMono
  -- the last rung is the one before the first that lands at or past the bound
  let last := Nat.find schedule.exists_past
  have past : giveUp ≤ schedule.elapsedAt (last + 1) := Nat.find_spec schedule.exists_past
  have start : schedule.elapsedAt 1 < giveUp := above
  have one : 1 ≤ last := by
    by_contra none
    rw [Nat.lt_one_iff.mp (Nat.not_le.mp none)] at past
    exact absurd past (Nat.not_le.mpr start)
  have within : ∀ rung, rung ≤ last → schedule.elapsedAt rung < giveUp := by
    intro rung le
    have before := Nat.find_min schedule.exists_past (m := last - 1) (Nat.sub_lt one Nat.one_pos)
    rw [Nat.sub_add_cancel one] at before
    exact (grows.monotone le).trans_lt (Nat.not_le.mp before)
  have walked : ∀ n, 1 + n ≤ last → (atRung schedule 1).walk n =
      ((List.range n).map (fun k => some (cls.interval (1 + 1 + k))), atRung schedule (1 + n)) :=
    fun n le => walk_atRung n (within _ le)
  refine ⟨atRung schedule 1, last, armed_eq schedule, one, ?_, ?_, ?_, ?_⟩
  · intro n le
    refine ⟨?_, ?_, ?_, ?_, ?_⟩
    · rw [walked n le]
      simp [Nat.add_comm]
    · rw [walked n le]
    · rw [walked n le]
      exact within _ le
    · intro earlier before
      rw [walked n le, walked earlier (by omega)]
      exact grows (by omega)
    · intro more
      rw [walked n le]
  · intro more
    rw [walked (last - 1) (by omega), Nat.add_sub_cancel' one]
    exact walk_atRung_past past more
  · intro rung
    constructor
    · intro reached
      by_contra le
      exact absurd reached (Nat.not_le.mpr (within rung (Nat.not_lt.mp le)))
    · exact fun later => past.trans (grows.monotone later)
  · exact fun _ _ => ⟨rfl, rfl⟩

/-- Timer B's ladder: rungs at 0.5 to 31.5 s, the sixth the last. -/
theorem inviteClient_is_its_rung :
    ∃ first, armed ((Schedule.rfc .inviteClient).withGiveUp timerB) = some (first, 500) ∧
      (first.walk 5).1 = [some 1000, some 2000, some 4000, some 8000, some 16000] ∧
      (first.walk 5).2.elapsed = 31500 ∧
      ∀ more, (first.walk 5).2.walk more = (List.replicate more none, (first.walk 5).2) := by
  obtain ⟨first, last, isArmed, -, walks, stops, bound, -⟩ := ladder_is_its_rung .inviteClient timerB (by decide)
  have notPast : ¬ last < 6 := mt (bound 6).2 (by decide)
  have past : last < 7 := (bound 7).1 (by decide)
  obtain rfl : last = 6 := by omega
  obtain ⟨intervals, isRung, -⟩ := walks 5 (by decide)
  exact ⟨first, isArmed, intervals, by rw [isRung]; rfl, stops⟩

end Ladder

end SipServer.Retransmit
