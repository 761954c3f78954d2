/-
Module: SipServer.Limiter.Answers
Purpose: The worker's end of the limiter's wire (`b2bua/src/limiter/http.rs`): what a call asks of the store,
  and how the store's answers read as the outcomes and statements the call applies.
Trusted boundary: translated from the source
-/
import SipServer.Call.Limiter
import SipServer.Limiter.Store

namespace SipServer.Limiter

open SipServer.Call (LimiterEntry LimiterHeld AdmitOutcome)

/-- The entries of a call as the store takes them. -/
def toWire (entries : List LimiterEntry) : List AdmitEntry :=
  entries.map fun entry => ⟨entry.id, entry.limit⟩

/-- The set a wire answer states. -/
def fromWire (held : HeldSet) : LimiterHeld where
  change := held.change
  entries := held.entries.map fun entry => ⟨entry.id, entry.limit⟩

/-- The outcome a valid admit answer states; a bad answer reads as no answer. -/
def readAdmit : AdmitResult → AdmitOutcome
  | .admitted => .admitted
  | .rejected limiterId held => .rejected limiterId (fromWire held)
  | .superseded held => .superseded (fromWire held)
  | .released => .released

/-- The set a valid refresh reply states. -/
def readRefresh (reply : Refreshed) : Option LimiterHeld := reply.held.map fromWire

end SipServer.Limiter
