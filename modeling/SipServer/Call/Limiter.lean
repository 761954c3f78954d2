/-
Module: SipServer.Call.Limiter
Purpose: A call's admission state on the call limiter (`call/src/model/limiter.rs` and its `admit.rs`): the
  held and target sets, the change numbers that order the call's admits, and every operation on them.
Trusted boundary: translated from the source
-/
import Mathlib.Algebra.Group.Nat.Defs
import Mathlib.Algebra.Group.Int.Defs
import Mathlib.Order.Lattice

namespace SipServer.Call

/-!
Every write of the state is one of the operations below. Change numbers are `u64` in the source and count a
few admits a turn from epochs of 2^32, so they are unbounded here; `consults_open` saturates at `u32::MAX`.
-/

/-- One limiter entry: an id and the cap it is admitted under. -/
structure LimiterEntry where
  id : String
  limit : ℤ
deriving Repr, DecidableEq, Inhabited

/-- The set the limiter states it holds for a key, under its change number. -/
structure LimiterHeld where
  change : ℕ
  entries : List LimiterEntry
deriving Repr, DecidableEq, Inhabited

/-- The honest outcome of one admit. -/
inductive AdmitOutcome where
  | admitted
  | rejected (limiterId : String) (held : LimiterHeld)
  | superseded (held : LimiterHeld)
  | released
  | unavailable
  | notSent
deriving Repr, DecidableEq, Inhabited

/-- One admit of a call's key as the call applies it. -/
structure AdmitReport where
  key : String
  change : ℕ
  entries : List LimiterEntry
  outcome : AdmitOutcome
deriving Repr, DecidableEq, Inhabited

namespace AdmitReport

/-- The key whose release this admit owes: a request left, and it may have landed. -/
def owedRelease (report : AdmitReport) : Option String :=
  if report.outcome = .notSent then none else some report.key

/-- The set the limiter stated it holds for the key. -/
def held (report : AdmitReport) : Option LimiterHeld :=
  match report.outcome with
  | .admitted => some ⟨report.change, report.entries⟩
  | .rejected _ held => some held
  | .superseded held => some held
  | _ => none

end AdmitReport

/-- The call's admission state on the call limiter. -/
structure CallLimiterState where
  key : String
  releaseOwed : Bool
  held : List LimiterEntry
  heldChange : ℕ
  target : List LimiterEntry
  targetChange : ℕ
  change : ℕ
  runsOn : Option (List LimiterEntry)
  admitSent : Bool
  consultsOpen : ℕ
deriving Repr, DecidableEq, Inhabited

/-- The change numbers of one epoch. -/
def changeEpoch : ℕ := 2 ^ 32

/-- `u32::MAX`, where `consults_open` saturates. -/
def u32Max : ℕ := 2 ^ 32 - 1

/-- What a service's replacement of the call's admission set sends. -/
inductive Replacement where
  | send (change : ℕ) (held : LimiterHeld)
  | nothingToSend (change : ℕ)
deriving Repr, DecidableEq, Inhabited

/-- The replacement's change number. -/
def Replacement.number : Replacement → ℕ
  | .send change _ => change
  | .nothingToSend change => change

/-- The admits a consult dispatched on a call's turn may send. -/
structure ConsultAdmits where
  firstChange : ℕ
  mayHold : Bool
deriving Repr, DecidableEq, Inhabited

/-- How a refresh answer met the call's state. -/
inductive RefreshApplied where
  | stale
  | unchanged
  | changed
deriving Repr, DecidableEq, Inhabited

namespace CallLimiterState

/-! ### Reading the state -/

variable (state : CallLimiterState)

/-- Whether the limiter confirmed a non-empty set for the call. -/
def counted : Bool := !state.held.isEmpty

/-- Whether `set` names an id, with its multiplicity, that `held` lacks. -/
def lacksAny (held : List String) : List LimiterEntry → Bool
  | [] => false
  | entry :: set => if entry.id ∈ held then lacksAny (held.erase entry.id) set else true

/-- Whether the call runs on a target the limiter does not hold for it. -/
def failOpen : Bool := lacksAny (state.held.map (·.id)) state.target

/-- Whether the call runs on an id the limiter does not hold for it. -/
def runsUncounted : Bool :=
  state.failOpen || state.runsOn.any (lacksAny (state.held.map (·.id)))

/-- Whether the limiter may hold a set for the key, whatever held states. -/
def mayHold : Bool :=
  state.admitSent || decide (0 < state.consultsOpen) || state.counted

/-- The set held as a statement under its change number. -/
def heldSet : LimiterHeld := ⟨state.heldChange, state.held⟩

/-- Whether two states agree on everything but the change counter. -/
def sameButChange (state other : CallLimiterState) : Bool :=
  decide ({ state with change := other.change } = other)

/-! ### Numbering admits -/

/-- Reserve `n` change numbers for admits sent in order; answers the first one. -/
def reserveChanges (n : ℕ) : CallLimiterState × ℕ :=
  ({ state with change := state.change + max n 1 }, state.change + 1)

def nextChange : CallLimiterState × ℕ := state.reserveChanges 1

/-- The turn sends a change numbered `change` asking for `entries`. -/
def ask (change : ℕ) (entries : List LimiterEntry) : CallLimiterState :=
  if change < state.targetChange then state
  else { state with target := entries, targetChange := change }

/-- The turn dispatches a consult whose answer may admit a route: `n` numbers are reserved. -/
def oweConsult (n : ℕ) : CallLimiterState × ConsultAdmits :=
  let owing := { state with
    releaseOwed := true
    consultsOpen := min (state.consultsOpen + 1) u32Max }
  let reserved := owing.reserveChanges n
  (reserved.1, ⟨reserved.2, state.mayHold⟩)

/-- A service replaces the call's admission set with `entries`. -/
def replaceSet (entries : List LimiterEntry) (movesCall : Bool) : CallLimiterState × Replacement :=
  let moved := if movesCall then { state with runsOn := some entries } else state
  let numbered := moved.nextChange
  let asked := numbered.1.ask numbered.2 entries
  if entries.isEmpty && !asked.mayHold then (asked, .nothingToSend numbered.2)
  else
    let sending := { asked with releaseOwed := true, admitSent := true }
    (sending, .send numbered.2 sending.heldSet)

/-- A consult the call awaits is sent again by a node that did not send it. -/
def renumberConsult (n : ℕ) : CallLimiterState × ConsultAdmits :=
  let reserved := state.reserveChanges n
  (reserved.1, ⟨reserved.2, reserved.1.mayHold⟩)

/-- A service's replacement is sent again by a node that did not send it. -/
def renumberReplacement (entries : List LimiterEntry) : CallLimiterState × (ℕ × LimiterHeld) :=
  let numbered := state.nextChange
  let asked := numbered.1.ask numbered.2 entries
  (asked, (numbered.2, asked.heldSet))

/-- The number and held set of the initial route's admit. -/
def numberAdmit : CallLimiterState × (ℕ × LimiterHeld) :=
  let numbered := state.nextChange
  (numbered.1, (numbered.2, numbered.1.heldSet))

/-! ### Counters of other copies -/

/-- Take the higher of the two change counters, and the release `other` owes. -/
def mergeChange (state other : CallLimiterState) : CallLimiterState :=
  { state with
    change := max state.change other.change
    releaseOwed := state.releaseOwed || other.releaseOwed }

/-- Move the change counter to the start of its next epoch. -/
def enterEpoch : CallLimiterState :=
  { state with change := (state.change / changeEpoch + 1) * changeEpoch }

/-! ### Applying the limiter's answers -/

/-- Apply the limiter's statement of the set it holds, unless it is older than held's. -/
def applyHeld (held : LimiterHeld) : CallLimiterState :=
  let raised := { state with change := max state.change held.change }
  if held.change < raised.heldChange then raised
  else { raised with heldChange := held.change, held := held.entries }

/-- Apply an admit of the call's key. -/
def applyAdmit (report : AdmitReport) : CallLimiterState :=
  let sent := report.owedRelease.isSome
  let raised := { state with
    releaseOwed := state.releaseOwed || sent
    admitSent := state.admitSent || sent
    change := max state.change report.change }
  let stated := match report.held with
    | some held => raised.applyHeld held
    | none => raised
  let cleared := if report.outcome = .released then { stated with held := [] } else stated
  if report.change < cleared.targetChange then cleared
  else
    { cleared with
      target := match report.outcome with
        | .rejected _ _ => cleared.held
        | .superseded _ => cleared.held
        | _ => report.entries
      targetChange := report.change }

/-- Apply a route fold no consult awaits any more. -/
def applyUnawaitedFold (report : AdmitReport) : CallLimiterState :=
  applyAdmit { state with consultsOpen := state.consultsOpen - 1 } report

/-- Apply a route fold's admit, which closes the consult it answers. -/
def applyFold (report : AdmitReport) (runsRoute : Bool) : CallLimiterState :=
  { state.applyUnawaitedFold report with runsOn := if runsRoute then some report.entries else none }

/-- Apply a refresh answer for `key` stating `held`, if it states one. -/
def applyRefresh (key : String) (held : Option LimiterHeld) : CallLimiterState × RefreshApplied :=
  if key ≠ state.key ∨ held.any (fun held => held.change < state.heldChange) then (state, .stale)
  else
    match held with
    | none => (state, .unchanged)
    | some held =>
      let changed := decide (state.change < held.change) ||
        decide (state.heldChange ≠ held.change) || decide (state.held ≠ held.entries)
      (state.applyHeld held, if changed then .changed else .unchanged)

/-- The state of a call under `key` that sent no admit request. -/
def uncounted (key : String) : CallLimiterState where
  key := key
  releaseOwed := false
  held := []
  heldChange := 0
  target := []
  targetChange := 0
  change := 0
  runsOn := none
  admitSent := false
  consultsOpen := 0

end CallLimiterState

end SipServer.Call
