/-
Module: SipServer.Call.Record
Purpose: The call record two copies of a call are compared and merged by (`call/src/model/record.rs`,
  `leg.rs`, `dialog.rs`, `request_record.rs`, `invite_exchange.rs`, `provisional.rs`, `emission.rs`,
  `message_ring.rs`, `timer.rs`, `cdr.rs`).
Trusted boundary: translated from the source
-/
import SipServer.Call.Limiter

namespace SipServer.Call

/-!
A record has well over a hundred fields. The ones a function here reads apart from the others stand under
their own names: counters, sequences, instants, rungs, the keys a leg or a dialog is found by. What is left
of a struct is only ever compared whole with `==` or carried along, so it is one value `rest` of a type
`Data` the development leaves open.
-/

/-- Something the record keeps with the instant it happened or is due at. -/
structure Timed (Data : Type) where
  atMs : ℤ
  rest : Data
deriving Repr, DecidableEq, Inhabited

/-- How a retained emission is repeated: paced by its class, at a rung of the ladder, or when provoked. -/
inductive Repeat (Data : Type) where
  | paced (ladderClass : Data) (rung : ℕ)
  | onTrigger
deriving Repr, DecidableEq, Inhabited

/-- A message retained to be sent again. -/
structure RetainedEmission (Data : Type) where
  repeats : Repeat Data
  rest : Data
deriving Repr, DecidableEq, Inhabited

/-- A 2xx sent and not yet acknowledged. -/
structure Unacked2xx (Data : Type) where
  emission : RetainedEmission Data
  rest : Data
deriving Repr, DecidableEq, Inhabited

/-- The INVITE a leg dialled. -/
structure OutboundInvite (Data : Type) where
  sentAtMs : ℤ
  finalAtMs : Option ℤ
  rest : Data
deriving Repr, DecidableEq, Inhabited

/-- What an INVITE's record keeps beyond any request's. -/
structure InviteExchange (Data : Type) where
  answered2xx : Option (Unacked2xx Data)
  dialled : Option (OutboundInvite Data)
  rest : Data
deriving Repr, DecidableEq, Inhabited

/-- Who a recorded request comes from. -/
inductive RequestOrigin where
  | relayed
  | own
  | held
  | received
deriving Repr, DecidableEq, Inhabited

/-- One in-dialog request the call keeps a record of. -/
structure RequestRecord (Data : Type) where
  method : String
  origin : RequestOrigin
  author : Option String
  deadlineMs : Option ℤ
  invite : Option (InviteExchange Data)
  rest : Data
deriving Repr, DecidableEq, Inhabited

/-- `KEEPALIVE_AUTHOR`. -/
def keepaliveAuthor : String := "keepalive"

/-- Whether the record is the stack's own keepalive request. -/
def RequestRecord.isKeepalive {Data : Type} (record : RequestRecord Data) : Bool :=
  decide (record.origin = .own) && decide (record.method = "OPTIONS") &&
    decide (record.author = some keepaliveAuthor)

/-- A subscription on a dialog, with the NOTIFY in flight. -/
structure Subscription (Data : Type) where
  notify : Option (Timed Data)
  rest : Data
deriving Repr, DecidableEq, Inhabited

/-- One dialog of a leg, named by its two tags. -/
structure Dialog (Data : Type) where
  ourTag : String
  peerTag : String
  ourCseq : ℤ
  peerCseq : Option ℤ
  requests : List (RequestRecord Data)
  sentInvite : Option (RequestRecord Data)
  answeredInvite : Option (RequestRecord Data)
  subscriptions : List (Subscription Data)
  rest : Data
deriving Repr, DecidableEq, Inhabited

/-- The dialog named by `ourTag` and `peerTag`. -/
def Dialogs.byTags {Data : Type} (dialogs : List (Dialog Data)) (ourTag peerTag : String) :
    Option (Dialog Data) :=
  dialogs.find? fun dialog => decide (dialog.ourTag = ourTag) && decide (dialog.peerTag = peerTag)

/-- One message a leg's ring remembers. -/
structure MessageEntry (Data : Type) where
  seq : ℕ
  atMs : ℤ
  rest : Data
deriving Repr, DecidableEq, Inhabited

/-- The last messages of a leg, and how many were evicted. -/
structure MessageRing (Data : Type) where
  entries : List (MessageEntry Data)
  dropped : ℕ
deriving Repr, DecidableEq, Inhabited

structure Leg (Data : Type) where
  legId : String
  dialogs : List (Dialog Data)
  invite : Option (RequestRecord Data)
  messages : MessageRing Data
  rest : Data
deriving Repr, DecidableEq, Inhabited

/-- The timer types the comparison tells apart; every other one is compared. -/
inductive TimerType where
  | limiterRefresh
  | keepalive
  | rung
  | other
deriving Repr, DecidableEq, Inhabited

/-- One entry of the timer ledger. -/
structure TimerEntry (Data : Type) where
  timerType : TimerType
  fireAt : ℤ
  rest : Data
deriving Repr, DecidableEq, Inhabited

/-- How far a shown provisional's repetition has come. -/
inductive Ladder (Data : Type) where
  | unsent
  | repeating (emission : RetainedEmission Data)
  | acknowledged
  | ceased (cause : Data)
deriving Repr, DecidableEq, Inhabited

/-- A provisional as it was shown to the caller. -/
structure Shown (Data : Type) where
  ladder : Ladder Data
  rest : Data
deriving Repr, DecidableEq, Inhabited

/-- A reliable provisional. -/
structure Provisional (Data : Type) where
  shown : Option (Shown Data)
  rest : Data
deriving Repr, DecidableEq, Inhabited

/-- A request sent off the call's turn; a REFER authorization carries its send time. -/
inductive OffTurnRequest (Data : Type) where
  | refer (sentAtMs : ℤ) (rest : Data)
  | other (rest : Data)
deriving Repr, DecidableEq, Inhabited

/-- One call record. -/
structure Record (Data : Type) where
  aLeg : Leg Data
  bLegs : List (Leg Data)
  limiter : CallLimiterState
  timers : List (TimerEntry Data)
  timerGeneration : ℕ
  cdrEvents : List (Timed Data)
  createdAt : ℤ
  /-- The trace id, the root span and the sampling flag. -/
  trace : Data
  messageCount : Option ℤ
  transfer : Option (Timed Data)
  reroute : Option (Timed Data)
  provisionals : List (Provisional Data)
  messageSeq : ℕ
  decisionLog : List (Timed Data)
  termination : Option (Timed Data)
  messageTurn : ℕ
  legSpace : Data
  answered : List (Timed Data)
  awaited : List (OffTurnRequest Data)
  rest : Data
deriving Repr, DecidableEq, Inhabited

namespace Record

variable {Data : Type}

/-- Find any leg (a-leg or b-leg) by its id. -/
def findLeg (call : Record Data) (legId : String) : Option (Leg Data) :=
  if call.aLeg.legId = legId then some call.aLeg
  else call.bLegs.find? fun leg => decide (leg.legId = legId)

end Record

end SipServer.Call
