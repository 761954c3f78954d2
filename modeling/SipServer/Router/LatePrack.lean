/-
Module: SipServer.Router.LatePrack
Purpose: What a PRACK draws from a call (`call/src/helpers/prack_disposition.rs`, `reliable.rs`, `leg.rs`)
  and the book of the PRACKs a released call still answers (`b2bua/src/router/late_prack.rs`), with its runs
  as an observer follows them.
Trusted boundary: translated from the source
-/
import SipServer.Lib.KeyMap
import SipServer.Lib.Runs
import SipServer.Retransmit.Ladder

namespace SipServer.Prack

open SipServer.Lib

/-! The call as a PRACK reads it -/

inductive EndingBy where
  | bye
  | cancel
deriving Repr, DecidableEq

/-- How a dialog ended makes no difference here. -/
inductive DialogState where
  | early
  | confirmed
  | ending (by_ : EndingBy)
  | ended
  | retired
deriving Repr, DecidableEq

structure Dialog where
  ourTag : String
  peerTag : String
  state : DialogState

namespace Dialog

def isLive (dialog : Dialog) : Bool :=
  match dialog.state with
  | .early | .confirmed | .ending _ => true
  | _ => false

def carriesRequests (dialog : Dialog) : Bool := dialog.isLive && dialog.state ≠ .ending .cancel

def isConfirmed (dialog : Dialog) : Bool := dialog.state = .confirmed || dialog.state = .ending .bye

end Dialog

structure Leg where
  legId : String
  callId : String
  /-- This stack's tag in the INVITE it dialled the leg with. -/
  outboundInvite : Option String
  dialogs : List Dialog

inductive ResponderAck where
  | pending
  | relayedPrack
  | ownPrack
  | deferredToAck
  | waived
deriving Repr, DecidableEq

inductive Ladder where
  | unsent
  | repeating
  | acknowledged
  | ceased
deriving Repr, DecidableEq

/-- An RSeq and the CSeq of the INVITE it answers. -/
abbrev Rack := ℕ × ℕ

structure Shown where
  tag : String
  rack : Rack
  ladder : Ladder

structure Provisional where
  leg : String
  responderTag : String
  responder : ResponderAck
  shown : Option Shown

structure Call where
  aLeg : Leg
  bLegs : List Leg
  provisionals : List Provisional

/-- The Call-ID and this stack's tag of a dialog. -/
abbrev DialogKey := String × String

inductive PrackDisposition where
  | relay
  | answer200
  | refuse481
deriving Repr, DecidableEq

/-- The dialog of a leg whose peer tag is `peerTag`. -/
def Leg.dialogWithPeer (leg : Leg) (peerTag : String) : Option Dialog :=
  match leg.outboundInvite with
  | some ours => leg.dialogs.find? fun dialog => dialog.ourTag = ours && dialog.peerTag = peerTag
  | none =>
    let carrying := (leg.dialogs.find? Dialog.isConfirmed).or <|
      match leg.dialogs.filter Dialog.carriesRequests with
      | [only] => some only
      | _ => none
    carrying.filter (·.peerTag = peerTag)

namespace Call

variable (call : Call)

def findLeg (legId : String) : Option Leg :=
  if call.aLeg.legId = legId then some call.aLeg else call.bLegs.find? (·.legId = legId)

/-- The leg whose dialog carries a tag as this stack's own. -/
def legShown (shownTag : String) : Option String :=
  ((call.aLeg :: call.bLegs).find? (·.dialogs.any (·.ourTag = shownTag))).map (·.legId)

def responderDialogCarriesPrack (provisional : Provisional) : Bool :=
  ((call.findLeg provisional.leg).bind (·.dialogWithPeer provisional.responderTag)).any
    Dialog.carriesRequests

def owedByResponder (provisional : Provisional) : PrackDisposition :=
  let isOwed := provisional.responder = .pending ∨ provisional.responder = .deferredToAck
  if isOwed ∧ call.responderDialogCarriesPrack provisional then .relay else .answer200

/-- The shown provisional a PRACK in the `tag` dialog matches; `namesInvite` is whether its method token is
    INVITE. -/
def namedBy (tag : String) (rack : Rack) (namesInvite : Bool) : Option Provisional :=
  if !namesInvite then none
  else call.provisionals.find? (·.shown.any fun shown => shown.tag = tag && shown.rack = rack)

/-- What a PRACK draws; `discharged` is the ladder, of a tag and an RSeq, retired for this very PRACK. -/
def prackDisposition (tag : String) (rack : Rack) (namesInvite : Bool) (discharged : Option (String × ℕ)) :
    PrackDisposition :=
  match call.namedBy tag rack namesInvite with
  | none => .refuse481
  | some provisional =>
    if provisional.shown.any (·.ladder = .acknowledged) ∧ discharged ≠ some (tag, rack.1) then .refuse481
    else call.owedByResponder provisional

/-- The Call-ID of the dialog a provisional was shown in: of the leg that shows the tag, else of the
    a-leg. -/
def shownCallId (tag : String) : String := (((call.legShown tag).bind call.findLeg).getD call.aLeg).callId

/-- The dialog and the numbers of a provisional a first PRACK draws 200 for. -/
def answerable (provisional : Provisional) : Option (DialogKey × Rack) :=
  match provisional.shown with
  | none => none
  | some shown =>
    if shown.ladder = .acknowledged ∨ call.owedByResponder provisional ≠ .answer200 then none
    else some ((call.shownCallId shown.tag, shown.tag), shown.rack)

/-- The shown provisionals a first PRACK draws 200 for, grouped per shown dialog. -/
def answerableShown : KeyMap DialogKey (List Rack) :=
  (call.provisionals.filterMap call.answerable).foldl
    (fun out entry => out.insert entry.1 ((out.get entry.1).getD [] ++ [entry.2])) ∅

end Call

/-! The book -/

def windowMs : ℕ := 64 * Retransmit.t1

/-- Each dialog's numbers under the instant they stop being answerable, and the expiries in the order they
    fall. -/
structure Book where
  racks : KeyMap DialogKey (ℕ × List Rack)
  expiry : List (ℕ × DialogKey)

namespace Book

def new : Book := ⟨∅, []⟩

/-- The loop of `prune` over the expiries. -/
def pruneFrom (now : ℕ) : List (ℕ × DialogKey) → KeyMap DialogKey (ℕ × List Rack) → Book
  | [], racks => ⟨racks, []⟩
  | (until_, key) :: rest, racks =>
    if until_ ≤ now then
      pruneFrom now rest (if (racks.get key).any (·.1 = until_) then racks.remove key else racks)
    else ⟨racks, (until_, key) :: rest⟩

def prune (book : Book) (now : ℕ) : Book := pruneFrom now book.expiry book.racks

def keep (book : Book) (shown : KeyMap DialogKey (List Rack)) (now : ℕ) : Book :=
  if shown.keys.isEmpty then book
  else
    let book := book.prune now
    { racks := shown.entries.foldl
        (fun racks entry => racks.insert entry.1 (now + windowMs, entry.2)) book.racks
      expiry := book.expiry ++ shown.keys.map (now + windowMs, ·) }

/-- Keep what a PRACK to a call draws 200 for. -/
def remember (book : Book) (call : Call) (now : ℕ) : Book := book.keep call.answerableShown now

/-- Whether the numbers are answerable in the dialog, taking them off when they are; the order of those left
    is not read. -/
def take (book : Book) (key : DialogKey) (rack : Rack) (now : ℕ) : Bool × Book :=
  let book := book.prune now
  match book.racks.get key with
  | none => (false, book)
  | some (until_, racks) =>
    if rack ∈ racks then (true, { book with racks := book.racks.insert key (until_, racks.erase rack) })
    else (false, book)

/-- The answer to a PRACK naming a dialog, numbers and a method that is INVITE or another. -/
def answers (book : Book) (key : DialogKey) (rack : Rack) (namesInvite : Bool) (now : ℕ) : Bool × Book :=
  if namesInvite then book.take key rack now else (false, book)

end Book

/-! Runs -/

inductive Event where
  | release (call : Call)
  | prack (key : DialogKey) (rack : Rack) (namesInvite : Bool)

/-- A release, and the PRACKs the book answered since. -/
structure Release where
  call : Call
  atMs : ℕ
  answered : List (DialogKey × Rack)

structure Watch where
  book : Book
  clock : ℕ
  releases : List Release

namespace Watch

def new : Watch := ⟨.new, 0, []⟩

def step (watch : Watch) (event : ℕ × Event) : Option Watch :=
  if event.1 < watch.clock then none
  else match event.2 with
    | .release call =>
      some ⟨watch.book.remember call event.1, event.1, ⟨call, event.1, []⟩ :: watch.releases⟩
    | .prack key rack namesInvite =>
      let (answered, book) := watch.book.answers key rack namesInvite event.1
      some ⟨book, event.1, if answered then
        watch.releases.map (fun release => { release with answered := (key, rack) :: release.answered })
        else watch.releases⟩

end Watch

end SipServer.Prack
