/-
Module: SipServer.Repl.HeldMeetings
Purpose: What a puller hands the router: the command of each frame (`b2bua/src/repl/puller/apply.rs`), the
  refused copies a batch holds back (`puller/held_meetings.rs`) and where a batch ends (`Puller::run_once` in
  `puller.rs`).
Trusted boundary: translated from the source
-/
import SipServer.Store.ApplyGate

namespace SipServer.Repl

open SipServer.Store

/-!
What the store does with a frame is its `outcome`, and whether the node serves a live takeover copy of the
call is `servesTakeover`, both as the frame found them. A puller without a router sends and holds nothing and
is left out, and so is a cancelled one: it hands over nothing more.
-/

/-- What a `Data` frame wrote. -/
inductive PrimaryWrite (Body : Type) where
  | put (body : Body)
  | delete (incarnation : Option String)
deriving Repr, DecidableEq

/-- The commands a puller hands the router. -/
inductive ReplCommand (Body : Type) where
  | reclaimAll
  | reclaimCall (callRef : String)
  | reverseFlushRefused (callRef : String) (body : Body) (originNowMs : ℤ)
  | forwardFlushRefused (callRef : String) (body : Body) (originNowMs : ℤ)
  | forwardFlushApplied (callRef : String) (write : PrimaryWrite Body)
  | reverseDeleteApplied (callRef : String) (incarnation : Option String)
deriving Repr, DecidableEq

variable {Body : Type}

namespace ReplCommand

/-- The call a command is about. -/
def callRef : ReplCommand Body → Option String
  | reclaimAll => none
  | reclaimCall callRef | reverseFlushRefused callRef _ _ | forwardFlushRefused callRef _ _
  | forwardFlushApplied callRef _ | reverseDeleteApplied callRef _ => some callRef

/-- A refused copy on its way to the live one. -/
def isRefused : ReplCommand Body → Bool
  | reverseFlushRefused _ _ _ | forwardFlushRefused _ _ _ => true
  | _ => false

end ReplCommand

/-- A `Data` frame as `signal` takes it. -/
structure Signalled (Body : Type) where
  outcome : ApplyOutcome
  callRef : String
  write : PrimaryWrite Body
  originNowMs : ℤ
  servesTakeover : Bool
deriving Repr, DecidableEq

/-- The command a frame's outcome hands the router, or none. -/
def command (mode : ApplyMode) (bootstrapped : Bool) (frame : Signalled Body) : Option (ReplCommand Body) :=
  if mode = .forward ∧ frame.outcome = .applied then
    if frame.servesTakeover then some (.forwardFlushApplied frame.callRef frame.write) else none
  else
    match frame.write with
    | .delete incarnation =>
      if mode ≠ .forward ∧ frame.outcome = .applied
        then some (.reverseDeleteApplied frame.callRef incarnation)
      else none
    | .put body =>
      if mode = .forward ∧ !bootstrapped then none
      else
        match mode, frame.outcome with
        | .reverse, .applied => some (.reclaimCall frame.callRef)
        | .reverse, .dominated | .reverse, .refused =>
          some (.reverseFlushRefused frame.callRef body frame.originNowMs)
        | .forward, .refused => some (.forwardFlushRefused frame.callRef body frame.originNowMs)
        | _, _ => none

/-- The latest refused copy of each call the batch carried, in the order of each call's latest refusal. -/
abbrev HeldMeetings (Body : Type) := List (String × ReplCommand Body)

namespace HeldMeetings

/-- Hold a refused copy in place of any earlier one of its call. -/
def hold (held : HeldMeetings Body) (callRef : String) (cmd : ReplCommand Body) : HeldMeetings Body :=
  held.filter (fun entry => entry.1 ≠ callRef) ++ [(callRef, cmd)]

/-- The copy held for a call, taken out: the first entry of its callRef. -/
def take (held : HeldMeetings Body) (callRef : String) : Option (ReplCommand Body) × HeldMeetings Body :=
  match held with
  | [] => (none, [])
  | entry :: rest =>
    if entry.1 = callRef then (some entry.2, rest)
    else ((take rest callRef).1, entry :: (take rest callRef).2)

end HeldMeetings

/-- A puller toward its router: the flow it reads, whether its bootstrap is over, the copies it holds back
    and every command it sent, in order. -/
structure Handing (Body : Type) where
  reclaim : Bool
  bootstrapped : Bool
  held : HeldMeetings Body
  sent : List (ReplCommand Body)
deriving Repr, DecidableEq

namespace Handing

def send (handing : Handing Body) (cmd : ReplCommand Body) : Handing Body :=
  { handing with sent := handing.sent ++ [cmd] }

/-- The rule a frame is applied under. -/
def mode (handing : Handing Body) : ApplyMode :=
  if handing.reclaim then (if handing.bootstrapped then .reverse else .bootstrap) else .forward

/-- Hand a frame's outcome up: a refused copy is held, any other frame of the call rides up after it. -/
def signal (handing : Handing Body) (frame : Signalled Body) : Handing Body :=
  match command handing.mode handing.bootstrapped frame with
  | some cmd =>
    if cmd.isRefused then { handing with held := handing.held.hold frame.callRef cmd }
    else
      let (held, rest) := HeldMeetings.take handing.held frame.callRef
      ({ handing with held := rest, sent := handing.sent ++ held.toList }).send cmd
  | none =>
    let (held, rest) := HeldMeetings.take handing.held frame.callRef
    { handing with held := rest, sent := handing.sent ++ held.toList }

/-- Hand over every refused copy the batch held. -/
def releaseMeetings (handing : Handing Body) : Handing Body :=
  { handing with held := [], sent := handing.sent ++ handing.held.map (·.2) }

/-- What a stream brings its puller. -/
inductive Event (Body : Type) where
  | data (frame : Signalled Body)
  | noop
  /-- The stream stayed quiet while copies were held. -/
  | quiet
  /-- The first `Noop` took too long. -/
  | hardTimeout
  /-- The stream ended and the next one was pulled, warm or cold. -/
  | ended (warm : Bool)
deriving Repr, DecidableEq

/-- Whether an event ends the batch. -/
def Event.endsBatch : Event Body → Bool
  | noop | quiet | ended _ => true
  | data _ | hardTimeout => false

def step (handing : Handing Body) : Event Body → Handing Body
  | .data frame => handing.signal frame
  | .noop =>
    let first := !handing.bootstrapped
    let handing : Handing Body := { handing with bootstrapped := true }
    (if first && handing.reclaim then handing.send .reclaimAll else handing).releaseMeetings
  | .quiet => handing.releaseMeetings
  | .hardTimeout => if !handing.bootstrapped && handing.reclaim then handing.send .reclaimAll else handing
  | .ended warm => { handing.releaseMeetings with bootstrapped := warm }

def run (handing : Handing Body) (events : List (Event Body)) : Handing Body := events.foldl step handing

/-- A puller before its first frame. -/
def new (reclaim warm : Bool) : Handing Body := ⟨reclaim, warm, [], []⟩

end Handing

end SipServer.Repl
