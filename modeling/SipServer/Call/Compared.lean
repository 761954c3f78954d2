/-
Module: SipServer.Call.Compared
Purpose: The compared fields of a call record, the exempt ones, and the merge of the exempt ones
  (`call/src/helpers/compared.rs`, `call/src/helpers/sequence.rs`, `call/src/helpers/instants.rs`).
Trusted boundary: translated from the source
-/
import SipServer.Call.Record

namespace SipServer.Call

variable {Data : Type} [DecidableEq Data]

/-! ### The comparison -/

/-- Whether two lists hold as many items, pairwise `same`. -/
def allPairs {Item : Type} (left right : List Item) (same : Item → Item → Bool) : Bool :=
  decide (left.length = right.length) && (left.zip right).all fun pair => same pair.1 pair.2

/-- Whether two options are both absent, or both present and `same`. -/
def sameOption {Item : Type} (left right : Option Item) (same : Item → Item → Bool) : Bool :=
  match left, right with
  | none, none => true
  | some x, some y => same x y
  | _, _ => false

/-- Whether two emissions are one at any rung of its ladder. -/
def RetainedEmission.sameAtRest (emission other : RetainedEmission Data) : Bool :=
  decide (emission.rest = other.rest) &&
    match emission.repeats, other.repeats with
    | .paced ladderClass _, .paced otherClass _ => decide (ladderClass = otherClass)
    | repeats, otherRepeats => decide (repeats = otherRepeats)

def same2xx (left right : Unacked2xx Data) : Bool :=
  decide (left.rest = right.rest) && left.emission.sameAtRest right.emission

def sameExchange (left right : InviteExchange Data) : Bool :=
  sameOption left.answered2xx right.answered2xx same2xx && decide (left.dialled = right.dialled) &&
    decide (left.rest = right.rest)

/-- A request record, the rung of the 2xx ladder it holds left out. -/
def sameRecord (left right : RequestRecord Data) : Bool :=
  decide (left.method = right.method) && decide (left.origin = right.origin) &&
    decide (left.author = right.author) && decide (left.deadlineMs = right.deadlineMs) &&
    decide (left.rest = right.rest) && sameOption left.invite right.invite sameExchange

/-- A dialog, its two sequences and the keepalive records left out. -/
def sameDialog (left right : Dialog Data) : Bool :=
  let compared := fun record : RequestRecord Data => !record.isKeepalive
  decide (left.ourTag = right.ourTag) && decide (left.peerTag = right.peerTag) &&
    allPairs (left.requests.filter compared) (right.requests.filter compared) sameRecord &&
    sameOption left.sentInvite right.sentInvite sameRecord &&
    sameOption left.answeredInvite right.answeredInvite sameRecord &&
    decide (left.subscriptions = right.subscriptions) && decide (left.rest = right.rest)

/-- A leg, its message ring left out. -/
def sameLeg (left right : Leg Data) : Bool :=
  decide (left.legId = right.legId) && allPairs left.dialogs right.dialogs sameDialog &&
    sameOption left.invite right.invite sameRecord && decide (left.rest = right.rest)

def sameShown (left right : Shown Data) : Bool :=
  let sameLadder := match left.ladder, right.ladder with
    | .repeating emission, .repeating other => emission.sameAtRest other
    | ladder, other => decide (ladder = other)
  decide (left.rest = right.rest) && sameLadder

/-- A reliable provisional, the rung of its shown ladder left out. -/
def sameProvisional (left right : Provisional Data) : Bool :=
  decide (left.rest = right.rest) && sameOption left.shown right.shown sameShown

/-- Whether a ledger entry is exempt: the keepalive, the limiter refresh, a ladder rung. -/
def exemptTimer (timer : TimerEntry Data) : Bool :=
  match timer.timerType with
  | .keepalive | .limiterRefresh | .rung => true
  | .other => false

/-- Whether two records agree on every compared field. -/
def Record.sameState (left right : Record Data) : Bool :=
  sameLeg left.aLeg right.aLeg && allPairs left.bLegs right.bLegs sameLeg &&
    left.limiter.sameButChange right.limiter &&
    decide ((left.timers.filter fun timer => !exemptTimer timer) =
      right.timers.filter fun timer => !exemptTimer timer) &&
    decide (left.createdAt = right.createdAt) && decide (left.transfer = right.transfer) &&
    decide (left.reroute = right.reroute) &&
    allPairs left.provisionals right.provisionals sameProvisional &&
    decide (left.decisionLog = right.decisionLog) && decide (left.termination = right.termination) &&
    decide (left.awaited = right.awaited) && decide (left.rest = right.rest)

/-! ### The union of two copies' lists -/

/-- `REANCHOR_DEADBAND_MS`. -/
def reanchorDeadbandMs : ℕ := 1000

/-- The item with the least instant, the first of several at one instant (`min_by_key`). -/
def earliest {Item : Type} (instant : Item → ℤ) : List Item → Option Item
  | [] => none
  | item :: items =>
    match earliest instant items with
    | none => some item
    | some least => if instant least < instant item then some least else some item

/-- The earliest unpaired item of ours that may stand for `item`, with its place in the list. -/
def partner {Item : Type} (ours : List Item) (same : Item → Item → Bool) (instant : Item → ℤ)
    (paired : List ℕ) (item : Item) : Option (Item × ℕ) :=
  earliest (fun candidate => instant candidate.1) (ours.zipIdx.filter fun candidate =>
    !paired.contains candidate.2 && same candidate.1 item &&
      decide ((instant candidate.1 - instant item).natAbs ≤ 2 * reanchorDeadbandMs))

/-- The loop over their items in instant order: what is paired, and the union so far. -/
def unionLoop {Item : Type} (ours : List Item) (same : Item → Item → Bool) (instant : Item → ℤ)
    (paired : List ℕ) (union : List Item) : List Item → List Item
  | [] => union
  | item :: items =>
    match partner ours same instant paired item with
    | some found => unionLoop ours same instant (found.2 :: paired) union items
    | none => unionLoop ours same instant paired (union ++ [item]) items

/-- `ours`, then each item of `theirs` no item of `ours` stands for, one for one. -/
def unionOneForOne {Item : Type} (ours theirs : List Item) (same : Item → Item → Bool)
    (instant : Item → ℤ) : List Item :=
  unionLoop ours same instant [] ours
    (theirs.mergeSort fun left right => decide (instant left ≤ instant right))

/-- Whether two CDR events are one, their instants set aside. -/
def sameEvent (left right : Timed Data) : Bool := decide (left.rest = right.rest)

/-- Whether two ring entries are one, their instants set aside. -/
def sameEntry (left right : MessageEntry Data) : Bool :=
  decide (left.seq = right.seq) && decide (left.rest = right.rest)

/-- The union of two rings by the call-wide sequence, with the higher eviction count. -/
def unionRing (ours : MessageRing Data) (theirs : Option (MessageRing Data)) : MessageRing Data :=
  match theirs with
  | none => ours
  | some theirs =>
    let union := unionOneForOne ours.entries theirs.entries sameEntry (·.atMs)
    { entries := union.mergeSort fun left right =>
        decide (left.seq < right.seq ∨ left.seq = right.seq ∧ left.atMs ≤ right.atMs)
      dropped := max ours.dropped theirs.dropped }

/-! ### The merge -/

/-- `Option<i64>`'s maximum: an absent value is below every present one. -/
def maxOption (left right : Option ℤ) : Option ℤ :=
  match left, right with
  | some x, some y => some (max x y)
  | some x, none => some x
  | none, right => right

/-- One dialog with the higher of the two own and of the two remote sequences. -/
def raiseDialog (theirs : List (Dialog Data)) (dialog : Dialog Data) : Dialog Data :=
  match Dialogs.byTags theirs dialog.ourTag dialog.peerTag with
  | some other =>
    { dialog with
      ourCseq := max dialog.ourCseq other.ourCseq
      peerCseq := maxOption dialog.peerCseq other.peerCseq }
  | none => dialog

def raiseLeg (leg : Leg Data) (incoming : Record Data) : Leg Data :=
  match incoming.findLeg leg.legId with
  | none => leg
  | some theirs => { leg with dialogs := leg.dialogs.map (raiseDialog theirs.dialogs) }

namespace Record

/-- `held` with the higher sequences on every dialog both hold. -/
def raiseSequences (held incoming : Record Data) : Record Data :=
  { held with
    aLeg := raiseLeg held.aLeg incoming
    bLegs := held.bLegs.map fun leg => raiseLeg leg incoming }

/-- A leg with its ring joined with the ring the other record keeps for it. -/
def mergeRing (other : Record Data) (leg : Leg Data) : Leg Data :=
  { leg with messages := unionRing leg.messages ((other.findLeg leg.legId).map (·.messages)) }

/-- `container` with the exempt fields of `other` merged in. -/
def mergeExempt (container other : Record Data) : Record Data :=
  let raised := container.raiseSequences other
  { raised with
    timerGeneration := max raised.timerGeneration other.timerGeneration
    limiter := raised.limiter.mergeChange other.limiter
    messageSeq := max raised.messageSeq other.messageSeq
    messageTurn := max raised.messageTurn other.messageTurn
    messageCount := maxOption raised.messageCount other.messageCount
    cdrEvents := unionOneForOne raised.cdrEvents other.cdrEvents sameEvent (·.atMs)
    aLeg := mergeRing other raised.aLeg
    bLegs := raised.bLegs.map (mergeRing other) }

end Record

end SipServer.Call
