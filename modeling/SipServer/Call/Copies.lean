/-
Module: SipServer.Call.Copies
Purpose: Copies of one call on several nodes, as far as the limiter's change numbers go: turns that number
  admits, replicated bodies that replace a copy or are restored on a node without one
  (`b2bua/src/store/materialise.rs`), and meetings that merge two counters (`call/src/helpers/compared.rs`).
Trusted boundary: translated from the source
-/
import SipServer.Lib.KeyMap
import SipServer.Lib.Runs
import SipServer.Call.Limiter

namespace SipServer.Call

open SipServer.Lib

/-- The turns that reserve change numbers. -/
inductive Numbering where
  | oweConsult (n : ℕ)
  | replaceSet (entries : List LimiterEntry) (movesCall : Bool)
  | renumberConsult (n : ℕ)
  | renumberReplacement (entries : List LimiterEntry)
  | numberAdmit
deriving Repr, DecidableEq

namespace Numbering

/-- The state after the turn. -/
def apply (state : CallLimiterState) : Numbering → CallLimiterState
  | .oweConsult n => (state.oweConsult n).1
  | .replaceSet entries movesCall => (state.replaceSet entries movesCall).1
  | .renumberConsult n => (state.renumberConsult n).1
  | .renumberReplacement entries => (state.renumberReplacement entries).1
  | .numberAdmit => state.numberAdmit.1

/-- The first number the turn answers. -/
def first (state : CallLimiterState) : Numbering → ℕ
  | .oweConsult n => (state.oweConsult n).2.firstChange
  | .replaceSet entries movesCall => (state.replaceSet entries movesCall).2.number
  | .renumberConsult n => (state.renumberConsult n).2.firstChange
  | .renumberReplacement entries => (state.renumberReplacement entries).2.1
  | .numberAdmit => state.numberAdmit.2.1

/-- How many numbers the turn reserves. -/
def count : Numbering → ℕ
  | .oweConsult n => max n 1
  | .renumberConsult n => max n 1
  | _ => 1

end Numbering

/-- The answers of the limiter a copy applies. -/
inductive Learning where
  | applyAdmit (report : AdmitReport)
  | applyFold (report : AdmitReport) (runsRoute : Bool)
  | applyUnawaitedFold (report : AdmitReport)
  | applyRefresh (key : String) (held : Option LimiterHeld)
deriving Repr, DecidableEq

/-- The state after an answer. -/
def Learning.apply (state : CallLimiterState) : Learning → CallLimiterState
  | .applyAdmit report => state.applyAdmit report
  | .applyFold report runsRoute => state.applyFold report runsRoute
  | .applyUnawaitedFold report => state.applyUnawaitedFold report
  | .applyRefresh key held => (state.applyRefresh key held).1

/-- Numbers a copy reserved: `count` of them from `first` on. -/
structure Reservation where
  node : String
  first : ℕ
  count : ℕ
deriving Repr, DecidableEq

/-- The number is one of the reservation's. -/
def Reservation.Covers (reservation : Reservation) (number : ℕ) : Prop :=
  reservation.first ≤ number ∧ number < reservation.first + reservation.count

instance (reservation : Reservation) (number : ℕ) : Decidable (reservation.Covers number) :=
  inferInstanceAs (Decidable (_ ∧ _))

/-- The copies of one call, every body a copy ever wrote, and every reservation made, latest first. -/
structure Copies where
  held : KeyMap String CallLimiterState
  bodies : List CallLimiterState
  reserved : List Reservation
deriving DecidableEq

namespace Copies

/-- What happens to the copies of a call. A replicated body is any state a copy once wrote: writes are
    buffered, so it need not be the last one. -/
inductive Event where
  | number (node : String) (turn : Numbering)
  | learn (node : String) (answer : Learning)
  | replace (node : String) (body : CallLimiterState)
  | restore (node : String) (body : CallLimiterState)
  | meet (node : String) (body : CallLimiterState)
  | leave (node : String)
deriving Repr, DecidableEq

/-- A call created on one node. -/
def created (node key : String) : Copies where
  held := KeyMap.insert ∅ node (.uncounted key)
  bodies := [.uncounted key]
  reserved := []

/-- A copy takes a new state, which it may replicate. -/
def write (copies : Copies) (node : String) (state : CallLimiterState) : Copies :=
  { copies with held := copies.held.insert node state, bodies := state :: copies.bodies }

/-- One event, when it can happen. -/
def step (copies : Copies) : Event → Option Copies
  | .number node turn =>
    (copies.held.get node).map fun state =>
      { copies.write node (turn.apply state) with
        reserved := ⟨node, turn.first state, turn.count⟩ :: copies.reserved }
  | .learn node answer =>
    (copies.held.get node).map fun state => copies.write node (answer.apply state)
  | .replace node body =>
    if (copies.held.get node).isSome ∧ body ∈ copies.bodies then some (copies.write node body)
    else none
  | .restore node body =>
    if (copies.held.get node).isNone ∧ body ∈ copies.bodies then
      some (copies.write node body.enterEpoch)
    else none
  | .meet node body =>
    if body ∈ copies.bodies then
      (copies.held.get node).map fun state => copies.write node (state.mergeChange body)
    else none
  | .leave node => some { copies with held := copies.held.remove node }

end Copies

end SipServer.Call
