/-
Module: SipServer.Call.Instants
Purpose: The absolute instants a call record holds, moved together from the clock that wrote them into
  another node's clock frame (`call/src/helpers/instants.rs`).
Trusted boundary: translated from the source
-/
import SipServer.Call.Compared

namespace SipServer.Call

variable {Data : Type}

/-- The part of a body's offset from this node's clock a re-anchor applies: all of it, or none below the dead
    band. -/
def reanchorOffset (skewOffsetMs : ℤ) : ℤ :=
  if skewOffsetMs.natAbs < reanchorDeadbandMs then 0 else skewOffsetMs

/-- `i64::saturating_add`. -/
def saturatingAdd (left right : ℤ) : ℤ := max (-2 ^ 63) (min (2 ^ 63 - 1) (left + right))

def Timed.mapInstant (shift : ℤ → ℤ) (timed : Timed Data) : Timed Data :=
  { timed with atMs := shift timed.atMs }

def OffTurnRequest.mapInstant (shift : ℤ → ℤ) : OffTurnRequest Data → OffTurnRequest Data
  | .refer sentAtMs rest => .refer (shift sentAtMs) rest
  | .other rest => .other rest

/-- The INVITE a leg dialled, reached as `outbound_invite_mut` reaches it. -/
def RequestRecord.mapDialled (shift : ℤ → ℤ) (record : RequestRecord Data) : RequestRecord Data :=
  { record with
    invite := record.invite.map fun exchange =>
      { exchange with
        dialled := exchange.dialled.map fun invite =>
          { invite with sentAtMs := shift invite.sentAtMs, finalAtMs := invite.finalAtMs.map shift } } }

/-- `shift_deadline`. -/
def RequestRecord.mapDeadline (shift : ℤ → ℤ) (record : RequestRecord Data) : RequestRecord Data :=
  { record with deadlineMs := record.deadlineMs.map shift }

def Dialog.mapInstants (shift : ℤ → ℤ) (dialog : Dialog Data) : Dialog Data :=
  { dialog with
    subscriptions := dialog.subscriptions.map fun subscription =>
      { subscription with notify := subscription.notify.map (·.mapInstant shift) }
    requests := dialog.requests.map (·.mapDeadline shift) }

/-- `shift_leg`: the instants of a leg's INVITE, of its message ring and of its dialogs. -/
def Leg.mapInstants (shift : ℤ → ℤ) (leg : Leg Data) : Leg Data :=
  { leg with
    invite := leg.invite.map (·.mapDialled shift)
    messages := { leg.messages with
      entries := leg.messages.entries.map fun entry => { entry with atMs := shift entry.atMs } }
    dialogs := leg.dialogs.map (·.mapInstants shift) }

namespace Record

/-- Every absolute instant of a call. Durations, counters and the opaque service data are left as they
    are. -/
def mapInstants (shift : ℤ → ℤ) (call : Record Data) : Record Data :=
  { call with
    timers := call.timers.map fun timer => { timer with fireAt := shift timer.fireAt }
    createdAt := shift call.createdAt
    cdrEvents := call.cdrEvents.map (·.mapInstant shift)
    decisionLog := call.decisionLog.map (·.mapInstant shift)
    termination := call.termination.map (·.mapInstant shift)
    transfer := call.transfer.map (·.mapInstant shift)
    reroute := call.reroute.map (·.mapInstant shift)
    answered := call.answered.map (·.mapInstant shift)
    awaited := call.awaited.map (·.mapInstant shift)
    aLeg := call.aLeg.mapInstants shift
    bLegs := call.bLegs.map (·.mapInstants shift) }

/-- Move every absolute instant by `offsetMs`, the reading clock minus the writing clock. -/
def shiftInstants (call : Record Data) (offsetMs : ℤ) : Record Data :=
  if offsetMs = 0 then call else call.mapInstants (saturatingAdd · offsetMs)

end Record

end SipServer.Call
