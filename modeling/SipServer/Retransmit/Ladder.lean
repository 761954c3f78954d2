/-
Module: SipServer.Retransmit.Ladder
Purpose: The pacing of re-sent messages (`sip-retransmit/src/lib.rs`) and the RFC 3261 timers it runs on
  (`sip-retransmit/src/timers.rs`), every duration in milliseconds.
Trusted boundary: translated from the source
-/
import Mathlib.Algebra.GroupWithZero.Nat
import Mathlib.Order.Basic

namespace SipServer.Retransmit

/-!
The schedules behind the `authored` feature are left out: no crate of the server enables it, so every pacing
is an RFC class.
-/

/-- RTT estimate. -/
def t1 : ℕ := 500
/-- The longest retransmit interval of a non-INVITE. -/
def t2 : ℕ := 4000
/-- The longest a message stays in the network. -/
def t4 : ℕ := 5000
def timerB : ℕ := 64 * t1
def timerF : ℕ := 64 * t1
def timerH : ℕ := 64 * t1
def timerJ : ℕ := 64 * t1
def timerI : ℕ := t4
def timerD : ℕ := 64 * t1
def timerL : ℕ := 64 * t1
def timerM : ℕ := 64 * t1
def txnSweepInterval : ℕ := 10000
def txnMaxAge : ℕ := 35000

def maxDoublings : ℕ := 20

/-- The retransmission class of a message. -/
inductive Class where
  | inviteClient
  | nonInviteClient
  | nonInviteProceeding
  | cancelClient
  | inviteServerFinal
  | final2xx
  | reliableProvisional
deriving Repr, DecidableEq

namespace Class

/-- The ceiling on a rung's interval, where the class has one. -/
def cap : Class → Option ℕ
  | inviteClient | reliableProvisional => none
  | nonInviteClient | nonInviteProceeding | cancelClient | inviteServerFinal | final2xx => some t2

/-- How long the ladder runs before the class gives up, from the original send. -/
def giveUp : Class → ℕ
  | inviteClient => timerB
  | nonInviteClient | nonInviteProceeding => timerF
  | cancelClient | final2xx | reliableProvisional => 64 * t1
  | inviteServerFinal => timerH

/-- The wait before rung `n`, counting from 1. -/
def interval (cls : Class) (n : ℕ) : ℕ :=
  match cls with
  | nonInviteProceeding => t2
  | _ =>
    let doubled := t1 * 2 ^ min (n - 1) maxDoublings
    match cls.cap with
    | some cap => min doubled cap
    | none => doubled

end Class

/-- What a ladder waits before each rung, and when it gives up. -/
structure Schedule where
  pacing : Class
  giveUp : ℕ
deriving Repr, DecidableEq

namespace Schedule

/-- The schedule an RFC prescribes for a class. -/
def rfc (cls : Class) : Schedule := ⟨cls, cls.giveUp⟩

def withGiveUp (schedule : Schedule) (giveUp : ℕ) : Schedule := { schedule with giveUp }

/-- The wait before rung `n`; none before rung 0, the original send. -/
def interval (schedule : Schedule) (n : ℕ) : Option ℕ :=
  if n = 0 then none else some (schedule.pacing.interval n)

/-- The elapsed time at rung `n`: every wait up to it. -/
def elapsedAt (schedule : Schedule) (n : ℕ) : ℕ :=
  ((List.range n).map (fun k => schedule.pacing.interval (k + 1))).sum

end Schedule

/-- A cursor on a schedule: the rung the ladder stands on and how long it has run. -/
structure Ladder where
  schedule : Schedule
  rung : ℕ
  elapsed : ℕ
deriving Repr, DecidableEq

namespace Ladder

/-- Arm the first rung: the ladder and the wait before it. -/
def armed (schedule : Schedule) : Option (Ladder × ℕ) :=
  (schedule.interval 1).map (fun first => (⟨schedule, 1, first⟩, first))

/-- The ladder standing on a rung, its elapsed time read off the schedule. -/
def atRung (schedule : Schedule) (rung : ℕ) : Ladder := ⟨schedule, rung, schedule.elapsedAt rung⟩

/-- Step to the next rung and answer the wait before it, or stay and answer none when that rung lands at or
    past the give-up. -/
def advance (ladder : Ladder) : Option ℕ × Ladder :=
  match ladder.schedule.interval (ladder.rung + 1) with
  | none => (none, ladder)
  | some next =>
    if ladder.schedule.giveUp ≤ ladder.elapsed + next then (none, ladder)
    else (some next, { ladder with rung := ladder.rung + 1, elapsed := ladder.elapsed + next })

/-- Re-pace onto a class, keeping the elapsed total and the bound. -/
def retarget (ladder : Ladder) (cls : Class) : Ladder :=
  { ladder with schedule := (Schedule.rfc cls).withGiveUp ladder.schedule.giveUp }

end Ladder

end SipServer.Retransmit
