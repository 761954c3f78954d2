/-
Module: SipServer.Txn.Ledger
Purpose: What the transactions of the layer may say: each transaction as where it stands, the journal of what
  was said, and the moves that take one standing to the next with the notes they leave.
-/
import SipServer.Txn.Owner

namespace SipServer.Txn

/-!
The ledger forgets how the layer works (timers, ladders, books, queues) and keeps who may speak. It states
the purpose of the layer in its own terms; the owner's functions are shown to keep to it.
-/

/-- Where a client transaction stands. -/
structure ClientStanding where
  serial : ℕ
  kind : TxnKind
  state : TxnState
  gaveUp : Bool
  /-- The TU was told its hop is dead. -/
  reported : Bool
  orphaned : Bool
  callRef : Option CallRef
  unsentAck : Option (Bytes × SocketAddr)
  /-- The CANCEL parked on it. -/
  cancel : Option (Bytes × SocketAddr × CancelWire)
  /-- The answers to a CANCEL it holds: the record has room for them in either role. -/
  answers : Option UnsentCancel
deriving DecidableEq

/-- Where a server transaction stands. -/
structure ServerStanding where
  serial : ℕ
  kind : TxnKind
  state : TxnState
  cached : Option (Bytes × ℕ)
  /-- The answers to a CANCEL it holds. -/
  answers : Option UnsentCancel
deriving DecidableEq

def Transaction.clientStanding (txn : Transaction) : ClientStanding where
  serial := txn.serial
  kind := txn.kind
  state := txn.state
  gaveUp := txn.lifetime.gaveUp
  reported := txn.deadHopReported
  orphaned := txn.orphaned
  callRef := txn.callRef
  unsentAck := txn.unsentAck
  cancel := txn.heldCancel.map (fun held => (held.buf, held.dest, held.wire))
  answers := txn.unsentCancel

def Transaction.serverStanding (txn : Transaction) : ServerStanding where
  serial := txn.serial
  kind := txn.kind
  state := txn.state
  cached := txn.cached
  answers := txn.unsentCancel

/-- What the answers to a CANCEL a transaction holds put on the wire as they leave. -/
def UnsentCancel.sends (txn : ℕ) (held : UnsentCancel) : List Note :=
  (held.cancelOk.map (fun ok => Note.cancelOk txn ok.1 ok.2)).toList ++
    (held.terminated.map (fun final => Note.response txn 487 final.1 final.2)).toList

/-- What a transaction leaving the map owes. -/
def owedBy (txn : ℕ) (answers : Option UnsentCancel) : List Note := (answers.map (·.sends txn)).getD []

namespace TransactionEvent

/-- A `Timeout` naming this call. -/
def IsTimeout (callRef : Option CallRef) : TransactionEvent → Prop
  | .timeout _ named _ _ _ _ _ _ => named = callRef
  | _ => False

/-- A response its client transaction matched, of a status a test admits. -/
def IsMatched (status : ℕ → Prop) : TransactionEvent → Prop
  | .message (.response resp) _ true _ => status resp.status
  | _ => False

def IsHopAlive : TransactionEvent → Prop
  | .hopAlive _ _ _ _ => True
  | _ => False

end TransactionEvent

/-- What becomes of the ACK of a first non-2xx final: what the transaction then holds, and what left. -/
inductive AckDisposal (standing : ClientStanding) :
    Option (Bytes × SocketAddr) → Option (Bytes × SocketAddr) → List Note → Prop where
  | unbuilt : AckDisposal standing none standing.unsentAck []
  | sent (ack : Bytes × SocketAddr) :
      AckDisposal standing (some ack) standing.unsentAck [.ack standing.serial ack.1 ack.2]
  | held (ack : Bytes × SocketAddr) (kept : standing.orphaned = false) :
      AckDisposal standing (some ack) (some ack) []

/-- A move of a client transaction, to its next standing or out of the map. `leave` says which may go. -/
inductive ClientMove (leave : ClientStanding → Prop) (standing : ClientStanding) :
    Option ClientStanding → List Note → Prop where
  | proceeds (active : standing.state.isActive) :
      ClientMove leave standing (some { standing with state := .proceeding }) [.provisional standing.serial]
  | handsUp {event : TransactionEvent} (provisional : event.IsMatched (· < 200)) :
      ClientMove leave standing (some standing) [.event (some standing.serial) event]
  | hopAlive {event : TransactionEvent} {callRef : CallRef} (alive : event.IsHopAlive)
      (named : standing.callRef = some callRef) :
      ClientMove leave standing (some standing) [.event (some standing.serial) event]
  | reportsDead {event : TransactionEvent} (invite : standing.kind = .invite)
      (active : standing.state.isActive)
      (running : standing.gaveUp = false) (unreported : standing.reported = false)
      (timeout : event.IsTimeout standing.callRef) :
      ClientMove leave standing (some { standing with reported := true })
        [.event (some standing.serial) event]
  | givesUp {event : TransactionEvent} (invite : standing.kind = .invite) (active : standing.state.isActive)
      (running : standing.gaveUp = false) (timeout : event.IsTimeout standing.callRef) :
      ClientMove leave standing (some { standing with gaveUp := true })
        (if standing.reported then [] else [.event (some standing.serial) event])
  | timesOut {event : TransactionEvent} (nonInvite : standing.kind = .nonInvite)
      (active : standing.state.isActive) (running : standing.gaveUp = false)
      (timeout : event.IsTimeout standing.callRef) (may : leave standing) :
      ClientMove leave standing none (if standing.reported then []
        else [.event (some standing.serial) event])
  | rejects {event : TransactionEvent} {ack unsent : Option (Bytes × SocketAddr)} {acks : List Note}
      (invite : standing.kind = .invite) (open_ : standing.state ≠ .completed ∧ standing.state ≠ .accepted)
      (disposal : AckDisposal standing ack unsent acks) (final : event.IsMatched (300 ≤ ·)) :
      ClientMove leave standing
        (some { standing with state := .completed, gaveUp := false, unsentAck := unsent, cancel := none })
        (.rejected standing.serial ack :: acks ++
          if standing.orphaned then [] else [.event (some standing.serial) event])
  | reacks (buf : Bytes) (dest : SocketAddr) (completed : standing.state = .completed) :
      ClientMove leave standing (some standing) [.ack standing.serial buf dest]
  | acks {ack : Bytes × SocketAddr} (held : standing.unsentAck = some ack) :
      ClientMove leave standing (some { standing with unsentAck := none }) [.ack standing.serial ack.1 ack.2]
  | accepts {event : TransactionEvent} (invite : standing.kind = .invite)
      (open_ : standing.state ≠ .accepted)
      (final : event.IsMatched (fun status => 200 ≤ status ∧ status < 300)) :
      ClientMove leave standing (some { standing with state := .accepted, gaveUp := false, cancel := none })
        (.accepted standing.serial :: if standing.orphaned then []
          else [.event (some standing.serial) event])
  | ends {event : TransactionEvent} (nonInvite : standing.kind = .nonInvite)
      (open_ : standing.state ≠ .accepted)
      (final : event.IsMatched (200 ≤ ·)) (may : leave standing) :
      ClientMove leave standing none (if standing.orphaned then []
        else [.event (some standing.serial) event])
  | released :
      ClientMove leave standing (some { standing with orphaned := true, callRef := none })
        [.released standing.serial]
  | leaves (may : leave standing) : ClientMove leave standing none []
  | parksCancel (buf : Bytes) (dest : SocketAddr) (trying : standing.state = .trying) :
      ClientMove leave standing (some { standing with cancel := some (buf, dest, .held) })
        [.cancelHanded standing.serial]
  | seedsCancel (buf : Bytes) (dest : SocketAddr) :
      ClientMove leave standing (some { standing with cancel := some (buf, dest, .held) }) []
  | sendsCancel (buf : Bytes) (dest : SocketAddr) (active : standing.state.isActive)
      (past : standing.state ≠ .trying) :
      ClientMove leave standing
        (some { standing with cancel := some (buf, dest, (standing.cancel.map (·.2.2)).getD .sent) })
        [.cancelHanded standing.serial, .cancel standing.serial buf dest]
  | flushesCancel {buf : Bytes} {dest : SocketAddr} (parked : standing.cancel = some (buf, dest, .held))
      (proceeding : standing.state = .proceeding) :
      ClientMove leave standing (some { standing with cancel := some (buf, dest, .sent) })
        [.cancel standing.serial buf dest]
  | ringsCancel {buf : Bytes} {dest : SocketAddr} (parked : standing.cancel = some (buf, dest, .sent))
      (active : standing.state.isActive) :
      ClientMove leave standing (some standing) [.cancel standing.serial buf dest]
  | cancelAnswered {buf : Bytes} {dest : SocketAddr} (parked : standing.cancel = some (buf, dest, .sent)) :
      ClientMove leave standing (some { standing with cancel := none }) [.cancelAnswered standing.serial]

/-- A move of a server transaction, to its next standing or out of the map. -/
inductive ServerMove (standing : ServerStanding) : Option ServerStanding → List Note → Prop where
  | provisional (buf : Bytes) {status : ℕ} {sent : List Note} (active : standing.state.isActive)
      (below : status < 200)
      (once : sent = [] ∨ ∃ dest, sent = [.response standing.serial status buf dest]) :
      ServerMove standing (some { standing with state := .proceeding, cached := some (buf, status) }) sent
  | answers (buf : Bytes) {status : ℕ} {state : TxnState} {sent : List Note}
      (active : standing.state.isActive)
      (final : 200 ≤ status) (done : state.isActive = false)
      (once : sent = [] ∨ ∃ dest, sent = [.response standing.serial status buf dest]) :
      ServerMove standing (some { standing with state, cached := some (buf, status) })
        (.answered standing.serial status buf :: sent)
  | replays {buf : Bytes} {status : ℕ} (dest : SocketAddr) (cached : standing.cached = some (buf, status)) :
      ServerMove standing (some standing) [.response standing.serial status buf dest]
  | confirms (completed : standing.state = .completed) :
      ServerMove standing (some { standing with state := .confirmed }) []
  | holds (held : UnsentCancel)
      (taken : ∀ final, held.terminated = some final →
        standing.cached = some (final.1, 487) ∧ standing.state.isActive = false) :
      ServerMove standing (some { standing with answers := some held }) [.answersHeld standing.serial held]
  | sendsHeld {held : UnsentCancel} (holding : standing.answers = some held) :
      ServerMove standing (some { standing with answers := none }) (held.sends standing.serial)
  | waives :
      ServerMove standing (some { standing with
        answers := standing.answers.map ({ · with terminated := none }) }) []
  | leaves : ServerMove standing none []

/-- A note no transaction's standing speaks for. -/
def Note.Aside : Note → Prop
  | .cancelOk _ _ _ | .request _ _ _ | .event none _ | .watched _ | .raw _ _ => True
  | _ => False

/-- Where every transaction stands, what was said, and what those gone still owe. -/
@[ext] structure Ledger where
  clients : Branch → Option ClientStanding
  servers : ServerTxnKey → Option ServerStanding
  owed : List Note
  opened : ℕ
  journal : List Note

namespace Ledger

def say (ledger : Ledger) (notes : List Note) : Ledger := { ledger with journal := ledger.journal ++ notes }

def owe (ledger : Ledger) (notes : List Note) : Ledger := { ledger with owed := ledger.owed ++ notes }

def setClient (ledger : Ledger) (branch : Branch) (standing : Option ClientStanding) : Ledger :=
  { ledger with clients := Function.update ledger.clients branch standing }

def setServer (ledger : Ledger) (key : ServerTxnKey) (standing : Option ServerStanding) : Ledger :=
  { ledger with servers := Function.update ledger.servers key standing }

/-- One more transaction opened. -/
def opens (ledger : Ledger) : Ledger := { ledger with opened := ledger.opened + 1 }

/-- A client transaction as it enters the map. -/
structure ClientFresh (ledger : Ledger) (standing : ClientStanding) : Prop where
  serial : standing.serial = ledger.opened
  state : standing.state ≠ .accepted
  running : standing.gaveUp = false
  unreported : standing.reported = false
  held : standing.orphaned = false
  noAck : standing.unsentAck = none
  noCancel : standing.cancel = none
  noAnswers : standing.answers = none

/-- A server transaction as it enters the map: active with nothing said, or with the final of the node it
    comes from. -/
inductive ServerFresh (ledger : Ledger) : ServerStanding → List Note → Prop where
  | active {kind : TxnKind} {state : TxnState} (active : state.isActive) :
      ServerFresh ledger ⟨ledger.opened, kind, state, none, none⟩ []
  | answered {kind : TxnKind} {state : TxnState} {buf : Bytes} {status : ℕ} (done : state.isActive = false)
      (final : 200 ≤ status) :
      ServerFresh ledger ⟨ledger.opened, kind, state, some (buf, status), none⟩
        [.answered ledger.opened status buf]

/-- What a move owes: a transaction that stays owes nothing. -/
def leaving {Standing : Type} (next : Option Standing) (serial : ℕ) (answers : Option UnsentCancel) :
    List Note :=
  match next with
  | some _ => []
  | none => owedBy serial answers

/-- One thing that happens to the ledger. -/
inductive Step (leave : ClientStanding → Prop) : Ledger → Ledger → Prop where
  | aside (ledger : Ledger) {note : Note} (aside : note.Aside) : Step leave ledger (ledger.say [note])
  | client {ledger : Ledger} {branch : Branch} {standing : ClientStanding} {next : Option ClientStanding}
      {notes : List Note} (stands : ledger.clients branch = some standing)
        (move : ClientMove leave standing next notes) :
      Step leave ledger (((ledger.setClient branch next).owe
        (leaving next standing.serial standing.answers)).say notes)
  | clientOpens {ledger : Ledger} {branch : Branch} {standing : ClientStanding}
      (fresh : ledger.ClientFresh standing)
      (displaced : ∀ old, ledger.clients branch = some old → leave old) :
      Step leave ledger (ledger.setClient branch (some standing)).opens
  | server {ledger : Ledger} {key : ServerTxnKey} {standing : ServerStanding} {next : Option ServerStanding}
      {notes : List Note} (stands : ledger.servers key = some standing)
      (move : ServerMove standing next notes) :
      Step leave ledger (((ledger.setServer key next).owe
        (leaving next standing.serial standing.answers)).say notes)
  | serverOpens {ledger : Ledger} {key : ServerTxnKey} {standing : ServerStanding} {notes : List Note}
      (fresh : ledger.ServerFresh standing notes) :
      Step leave ledger ((ledger.setServer key (some standing)).opens.say notes)
  | pays (ledger : Ledger) : Step leave ledger { ledger.say ledger.owed with owed := [] }

/-- Any number of things that happen. -/
abbrev Steps (leave : ClientStanding → Prop) : Ledger → Ledger → Prop := Relation.ReflTransGen (Step leave)

end Ledger

/-- The owner's state, as where its transactions stand. -/
def Owner.ledger (owner : Owner) : Ledger where
  clients branch := (owner.clients.get branch).map Transaction.clientStanding
  servers key := (owner.servers.get key).map Transaction.serverStanding
  owed := owner.owedSends
  opened := owner.opened
  journal := owner.journal

end SipServer.Txn
