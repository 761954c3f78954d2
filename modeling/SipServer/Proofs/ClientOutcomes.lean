/-
Module: SipServer.Proofs.ClientOutcomes
Purpose: A client transaction tells each outcome once: an INVITE at most one Timeout, one non-2xx final and
  one 2xx, a non-INVITE at most one of them all; and what one says after its call released it.
-/
import SipServer.Proofs.ServerFinals

namespace SipServer.Txn

open SipServer.Lib

variable {notes : List Note} {leave : ClientStanding → Prop} {standing : ClientStanding} {start : List Note} {txn : ℕ}
  {next : Option ClientStanding} {event : TransactionEvent}

/-- What a client transaction comes to, as its TU is told. -/
inductive Outcome where
  | timeout
  | rejected
  | accepted
deriving Repr, DecidableEq

/-- The outcome an event tells of its client transaction. -/
def TransactionEvent.outcome : TransactionEvent → Option Outcome
  | .timeout _ _ _ _ _ _ _ _ => some .timeout
  | .message (.response resp) _ true _ =>
    if 300 ≤ resp.status then some .rejected else if 200 ≤ resp.status then some .accepted else none
  | _ => none

/-- The outcome a note tells of a transaction. -/
def Note.outcome (txn : ℕ) : Note → Option Outcome
  | .event (some other) told => if other = txn then told.outcome else none
  | _ => none

/-- The outcomes a journal tells of a transaction, in order. -/
def outcomes (txn : ℕ) (journal : List Note) : List Outcome := journal.filterMap (Note.outcome txn)

@[simp] theorem outcomes_nil : outcomes txn [] = [] := rfl

@[simp] theorem outcomes_append (txn : ℕ) (first second : List Note) :
    outcomes txn (first ++ second) = outcomes txn first ++ outcomes txn second :=
  List.filterMap_append ..

namespace TransactionEvent

variable {event : TransactionEvent}

theorem IsTimeout.outcome {callRef : Option CallRef} (timeout : event.IsTimeout callRef) :
    event.outcome = some .timeout := by
  cases event with
  | timeout => rfl
  | _ => exact timeout.elim

theorem IsHopAlive.outcome (alive : event.IsHopAlive) : event.outcome = none := by
  cases event with
  | hopAlive => rfl
  | _ => exact alive.elim

/-- A matched response, by its status. -/
theorem IsMatched.cases {status : ℕ → Prop} (isMatched : event.IsMatched status) :
    ∃ resp src datagram, event = .message (.response resp) src true datagram ∧ status resp.status := by
  unfold IsMatched at isMatched
  split at isMatched
  · rename_i resp src datagram
    exact ⟨resp, src, datagram, rfl, isMatched⟩
  · exact isMatched.elim

theorem outcome_of_provisional (isMatched : event.IsMatched (· < 200)) : event.outcome = none := by
  obtain ⟨resp, src, datagram, rfl, below⟩ := isMatched.cases
  have notRejected : ¬ 300 ≤ resp.status := by omega
  have notFinal : ¬ 200 ≤ resp.status := by omega
  simp [outcome, notRejected, notFinal]

theorem outcome_of_rejection (isMatched : event.IsMatched (300 ≤ ·)) : event.outcome = some .rejected := by
  obtain ⟨resp, src, datagram, rfl, failure⟩ := isMatched.cases
  simp [outcome, failure]

theorem outcome_of_acceptance (isMatched : event.IsMatched (fun status => 200 ≤ status ∧ status < 300)) :
    event.outcome = some .accepted := by
  obtain ⟨resp, src, datagram, rfl, success, below⟩ := isMatched.cases
  simp [outcome, success, not_le.2 below]

end TransactionEvent

theorem outcomes_event : outcomes txn [.event (some txn) event] = event.outcome.toList := by
  simp only [outcomes, List.filterMap_cons, Note.outcome, if_true, List.filterMap_nil]
  cases event.outcome <;> rfl

theorem outcomes_of_unspoken (unspoken : Unspoken txn notes) : outcomes txn notes = [] := by
  refine List.filterMap_eq_nil_iff.2 fun note member => ?_
  cases note with
  | event about event =>
    cases about with
    | none => rfl
    | some serial =>
      have differ : serial ≠ txn := fun same => unspoken _ member (congrArg some same)
      simp [Note.outcome, differ]
  | _ => rfl

/-! ### What a client transaction has told so far -/

/-- How often a kind of transaction may tell its outcomes. -/
def Bounded : TxnKind → List Outcome → Prop
  | .invite, told => told.Nodup
  | .nonInvite, told => told.length ≤ 1

/-- What a resident client transaction has told, by where it stands. -/
def Detail (standing : ClientStanding) (told : List Outcome) : Prop :=
  match standing.kind with
  | .invite => told.Nodup ∧
      (.timeout ∈ told → standing.reported = true ∨ standing.gaveUp = true ∨ standing.state.isActive = false) ∧
      (.rejected ∈ told → standing.state = .completed ∨ standing.state = .accepted) ∧
      (.accepted ∈ told → standing.state = .accepted)
  | .nonInvite => told = []

namespace Detail

variable {standing next : ClientStanding} {told : List Outcome}

theorem bounded (detail : Detail standing told) : Bounded standing.kind told := by
  unfold Detail at detail
  cases kind : standing.kind with
  | invite =>
    rw [kind] at detail
    exact detail.1
  | nonInvite =>
    rw [kind] at detail
    exact detail ▸ Nat.zero_le 1

theorem of_nil : Detail standing [] := by
  unfold Detail
  split
  · exact ⟨List.nodup_nil, nofun, nofun, nofun⟩
  · rfl

theorem invite_iff (invite : standing.kind = .invite) : Detail standing told ↔ told.Nodup ∧
    (.timeout ∈ told → standing.reported = true ∨ standing.gaveUp = true ∨ standing.state.isActive = false) ∧
    (.rejected ∈ told → standing.state = .completed ∨ standing.state = .accepted) ∧
    (.accepted ∈ told → standing.state = .accepted) := by
  unfold Detail
  rw [invite]

theorem nonInvite_iff (nonInvite : standing.kind = .nonInvite) : Detail standing told ↔ told = [] := by
  unfold Detail
  rw [nonInvite]

/-- A standing that only gets further along has told no less. -/
theorem mono (detail : Detail standing told) (kind : next.kind = standing.kind)
    (timeout : standing.reported = true ∨ standing.gaveUp = true ∨ standing.state.isActive = false →
      next.reported = true ∨ next.gaveUp = true ∨ next.state.isActive = false)
    (rejected : standing.state = .completed ∨ standing.state = .accepted →
      next.state = .completed ∨ next.state = .accepted)
    (accepted : standing.state = .accepted → next.state = .accepted) : Detail next told := by
  cases isKind : standing.kind with
  | invite =>
    obtain ⟨nodup, toldTimeout, toldRejected, toldAccepted⟩ := (invite_iff isKind).1 detail
    exact (invite_iff (kind.trans isKind)).2 ⟨nodup, timeout ∘ toldTimeout, rejected ∘ toldRejected,
      accepted ∘ toldAccepted⟩
  | nonInvite => exact (nonInvite_iff (kind.trans isKind)).2 ((nonInvite_iff isKind).1 detail)

/-- A move that tells no outcome. -/
theorem untold (detail : Detail next told) (none : outcomes standing.serial notes = []) :
    Detail next (told ++ outcomes standing.serial notes) := by
  rw [none, List.append_nil]
  exact detail

/-- One outcome more, told for the first time. -/
theorem tells {outcome : Outcome} (invite : next.kind = .invite) (detail : Detail standing told)
    (kind : standing.kind = .invite) (first : outcome ∉ told)
    (timeout : .timeout ∈ told ∨ outcome = .timeout →
      next.reported = true ∨ next.gaveUp = true ∨ next.state.isActive = false)
    (rejected : .rejected ∈ told ∨ outcome = .rejected → next.state = .completed ∨ next.state = .accepted)
    (accepted : .accepted ∈ told ∨ outcome = .accepted → next.state = .accepted) :
    Detail next (told ++ [outcome]) := by
  obtain ⟨nodup, _⟩ := (invite_iff kind).1 detail
  have either {other : Outcome} (member : other ∈ told ++ [outcome]) : other ∈ told ∨ outcome = other :=
    (List.mem_append.1 member).imp_right fun single => (List.mem_singleton.1 single).symm
  refine (invite_iff invite).2 ⟨?_, timeout ∘ either, rejected ∘ either, accepted ∘ either⟩
  exact nodup.append (List.nodup_singleton outcome) (List.disjoint_singleton.2 first)

end Detail

/-- The outcomes of a notice a transaction gives unless it is silent. -/
theorem outcomes_told {silent : Bool} {outcome : Outcome} (tells : event.outcome = some outcome) :
    outcomes txn (if silent then [] else [.event (some txn) event]) = if silent then [] else [outcome] := by
  cases silent with
  | true => rfl
  | false =>
    refine (outcomes_event).trans ?_
    rw [tells]
    rfl

theorem AckDisposal.outcomes {standing : ClientStanding} {ack unsent : Option (Bytes × SocketAddr)} {acks : List Note}
    (disposal : AckDisposal standing ack unsent acks) (txn : ℕ) : outcomes txn acks = [] := by
  cases disposal <;> rfl

/-- Every move keeps what a client transaction told within its bounds. -/
theorem Detail.move {leave : ClientStanding → Prop} {standing : ClientStanding}
    {told : List Outcome} (detail : Detail standing told) (move : ClientMove leave standing next notes) :
    Bounded standing.kind (told ++ outcomes standing.serial notes) ∧
      ∀ after, next = some after → Detail after (told ++ outcomes standing.serial notes) := by
  -- a move that stays: the bound follows from the detail after it
  have stays {after : ClientStanding} (kind : after.kind = standing.kind)
      (detailed : Detail after (told ++ outcomes standing.serial notes)) :
      Bounded standing.kind (told ++ outcomes standing.serial notes) ∧
        ∀ later, some after = some later → Detail later (told ++ outcomes standing.serial notes) := by
    refine ⟨kind ▸ detailed.bounded, fun later same => ?_⟩
    cases same
    exact detailed
  cases move with
  | proceeds active =>
    refine stays rfl (.untold ?_ rfl)
    refine detail.mono rfl ?_ ?_ ?_
    · rintro (reported | gaveUp | inactive)
      · exact .inl reported
      · exact .inr (.inl gaveUp)
      · cases inactive.symm.trans active
    · rintro (completed | accepted)
      · rw [completed] at active
        cases active
      · rw [accepted] at active
        cases active
    · intro accepted
      rw [accepted] at active
      cases active
  | handsUp provisional =>
    refine stays rfl (.untold detail ?_)
    rw [outcomes_event, TransactionEvent.outcome_of_provisional provisional]
    rfl
  | hopAlive alive named =>
    refine stays rfl (.untold detail ?_)
    rw [outcomes_event, alive.outcome]
    rfl
  | reportsDead invite active running unreported timeout =>
    obtain ⟨_, toldTimeout, toldRejected, toldAccepted⟩ := (Detail.invite_iff invite).1 detail
    refine stays rfl ?_
    rw [outcomes_event, timeout.outcome]
    refine Detail.tells invite detail invite ?_ (fun _ => .inl rfl) ?_ ?_
    · intro already
      obtain reported | gaveUp | inactive := toldTimeout already
      · cases unreported.symm.trans reported
      · cases running.symm.trans gaveUp
      · cases inactive.symm.trans active
    · rintro (already | other)
      · exact toldRejected already
      · cases other
    · rintro (already | other)
      · exact toldAccepted already
      · cases other
  | givesUp invite active running timeout =>
    obtain ⟨_, toldTimeout, toldRejected, toldAccepted⟩ := (Detail.invite_iff invite).1 detail
    refine stays rfl ?_
    rw [outcomes_told timeout.outcome]
    split
    · rw [List.append_nil]
      exact detail.mono rfl (fun _ => .inr (.inl rfl)) id id
    rename_i unreported
    refine Detail.tells invite detail invite ?_ (fun _ => .inr (.inl rfl)) ?_ ?_
    · intro already
      obtain reported | gaveUp | inactive := toldTimeout already
      · exact unreported reported
      · cases running.symm.trans gaveUp
      · cases inactive.symm.trans active
    · rintro (already | other)
      · exact toldRejected already
      · cases other
    · rintro (already | other)
      · exact toldAccepted already
      · cases other
  | timesOut nonInvite active running timeout may =>
    obtain rfl := (Detail.nonInvite_iff nonInvite).1 detail
    refine ⟨?_, fun after gone => by cases gone⟩
    rw [nonInvite, outcomes_told timeout.outcome]
    split
    · exact Nat.zero_le 1
    · exact Nat.le_refl 1
  | rejects invite open_ disposal final =>
    obtain ⟨_, toldTimeout, toldRejected, toldAccepted⟩ := (Detail.invite_iff invite).1 detail
    refine stays rfl ?_
    rw [outcomes_append, outcomes_told (TransactionEvent.outcome_of_rejection final)]
    have quiet : ∀ ack acks, outcomes standing.serial acks = [] →
        outcomes standing.serial (.rejected standing.serial ack :: acks) = [] := fun ack acks none => none
    rw [quiet _ _ (disposal.outcomes _), List.nil_append]
    split
    · rw [List.append_nil]
      refine detail.mono rfl (fun _ => .inr (.inr rfl)) (fun _ => .inl rfl) (fun accepted => absurd accepted open_.2)
    refine Detail.tells invite detail invite ?_ (fun _ => .inr (.inr rfl)) (fun _ => .inl rfl) ?_
    · intro already
      exact (toldRejected already).elim open_.1 open_.2
    rintro (already | other)
    · exact absurd (toldAccepted already) open_.2
    · cases other
  | accepts invite open_ final =>
    obtain ⟨_, toldTimeout, toldRejected, toldAccepted⟩ := (Detail.invite_iff invite).1 detail
    refine stays rfl ?_
    change Detail _ (told ++ outcomes standing.serial (if standing.orphaned then [] else _))
    rw [outcomes_told (TransactionEvent.outcome_of_acceptance final)]
    split
    · rw [List.append_nil]
      exact detail.mono rfl (fun _ => .inr (.inr rfl)) (fun _ => .inr rfl) (fun _ => rfl)
    · exact Detail.tells invite detail invite (fun already => open_ (toldAccepted already)) (fun _ => .inr (.inr rfl))
        (fun _ => .inr rfl) (fun _ => rfl)
  | @ends event nonInvite open_ final may =>
    obtain rfl := (Detail.nonInvite_iff nonInvite).1 detail
    refine ⟨?_, fun after gone => by cases gone⟩
    rw [nonInvite, List.nil_append]
    split
    · exact Nat.zero_le 1
    rw [outcomes_event]
    cases event.outcome with
    | none => exact Nat.zero_le 1
    | some _ => exact Nat.le_refl 1
  | leaves may =>
    refine ⟨?_, fun after gone => by cases gone⟩
    rw [outcomes_nil, List.append_nil]
    exact detail.bounded
  | reacks | ringsCancel => exact stays rfl (.untold detail rfl)
  | acks | released | parksCancel | seedsCancel | sendsCancel | flushesCancel | cancelAnswered =>
    exact stays rfl (.untold (detail.mono rfl id id id) rfl)

namespace Ledger

/-- What a client transaction of a kind has told so far, resident or gone. -/
structure Tells (kind : TxnKind) (txn : ℕ) (ledger : Ledger) : Prop where
  opened : txn < ledger.opened
  resident : ∀ branch standing, ledger.clients branch = some standing → standing.serial = txn →
    standing.kind = kind ∧ Detail standing (outcomes txn ledger.journal)
  bounded : Bounded kind (outcomes txn ledger.journal)

namespace Tells

variable {leave : ClientStanding → Prop} {ledger after : Ledger} {kind : TxnKind} {txn : ℕ}

theorem step (tells : Tells kind txn ledger) (kept : ledger.Kept) (stepped : Step leave ledger after) :
    Tells kind txn after := by
  have opened := Nat.lt_of_lt_of_le tells.opened stepped.opened_le
  cases stepped.seen kept tells.opened with
  | @own branch standing next notes stands serial move said resident placed =>
    subst serial
    obtain ⟨rfl, detail⟩ := tells.resident branch standing stands rfl
    obtain ⟨bounded, detailed⟩ := detail.move move
    refine ⟨opened, fun other later standsThen isTxn => ?_, ?_⟩
    · obtain rfl := resident other later standsThen isTxn
      rw [said, outcomes_append]
      exact ⟨move.same.2.1, detailed later rfl⟩
    · rw [said, outcomes_append]
      exact bounded
  | frame unspoken said resident stays =>
    have same : outcomes txn after.journal = outcomes txn ledger.journal := by
      rw [said, outcomes_append, outcomes_of_unspoken unspoken, List.append_nil]
    refine ⟨opened, fun other later standsThen isTxn => ?_, same ▸ tells.bounded⟩
    rw [same]
    exact tells.resident other later (resident other later standsThen isTxn) isTxn

theorem steps (tells : Tells kind txn ledger) (kept : ledger.Kept) (moved : Steps leave ledger after) :
    Tells kind txn after := by
  induction moved with
  | refl => exact tells
  | tail earlier stepped ih => exact ih.step (kept.steps earlier) stepped

/-- A client transaction opens with nothing told. -/
theorem of_fresh {branch : Branch} (kept : ledger.Kept) (keptThen : after.Kept)
    (fresh : ledger.ClientFresh standing) (journal : after.journal = ledger.journal)
    (stands : after.clients branch = some standing) : Tells standing.kind standing.serial after := by
  have untold : outcomes standing.serial after.journal = [] := by
    refine outcomes_of_unspoken fun note member told => ?_
    rw [journal] at member
    have earlier := kept.said_lt note member _ (Note.about_of_ofClient told)
    exact absurd fresh.serial earlier.ne
  refine ⟨keptThen.client_lt branch standing stands, fun other later standsThen serial => ?_, ?_⟩
  · obtain rfl := keptThen.client_inj other branch later standing standsThen stands serial
    cases standsThen.symm.trans stands
    exact ⟨rfl, untold ▸ .of_nil⟩
  · exact untold ▸ (Detail.of_nil).bounded

end Tells

/-- What every run keeps of its client transactions: what each told, and that one released names no call. -/
structure Detailed (ledger : Ledger) : Prop where
  tells : ∀ branch standing, ledger.clients branch = some standing → Tells standing.kind standing.serial ledger
  unnamed : ∀ branch standing, ledger.clients branch = some standing → standing.orphaned = true →
    standing.callRef = none

/-- A move of a released transaction leaves it released, and one that releases takes its call away. -/
theorem unnamed_move {later : ClientStanding} (move : ClientMove leave standing (some later) notes)
    (unnamed : standing.orphaned = true → standing.callRef = none) :
    later.orphaned = true → later.callRef = none := by
  cases move with
  | released => exact fun _ => rfl
  | _ => exact unnamed

theorem Detailed.step {ledger after : Ledger} (detailed : ledger.Detailed)
    (kept : ledger.Kept) (stepped : Step leave ledger after) : after.Detailed where
  tells branch later stands := by
    obtain ⟨fresh, journal⟩ | ⟨standing, stood, serial, kind⟩ := stepped.resident stands
    · exact .of_fresh kept (kept.step stepped) fresh journal stands
    rw [serial, kind]
    exact (detailed.tells branch standing stood).step kept stepped
  unnamed branch later stands := by
    obtain ⟨fresh, _⟩ | ⟨standing, stood, serial, _⟩ := stepped.resident stands
    · intro orphaned
      cases fresh.held.symm.trans orphaned
    cases stepped.seen kept (kept.client_lt branch standing stood) with
    | own standsThen isTxn move _ resident _ =>
      obtain rfl := resident branch later stands serial
      exact unnamed_move move (detailed.unnamed _ _ standsThen)
    | frame _ _ resident _ => exact detailed.unnamed branch later (resident branch later stands serial)

theorem Detailed.steps {ledger after : Ledger} (detailed : ledger.Detailed)
    (kept : ledger.Kept) (moved : Steps leave ledger after) : after.Detailed := by
  induction moved with
  | refl => exact detailed
  | tail earlier stepped ih => exact ih.step (kept.steps earlier) stepped

/-! ### After the release -/

/-- Events of a released transaction: no final, no hop-alive notice, and a `Timeout` names no call. -/
def Muted (txn : ℕ) (notes : List Note) : Prop :=
  ∀ event, .event (some txn) event ∈ notes → ¬ event.IsMatched (200 ≤ ·) ∧ ¬ event.IsHopAlive ∧
    ∀ callRef, event.IsTimeout callRef → callRef = none

namespace Muted

variable {txn : ℕ} {first second : List Note} {event : TransactionEvent}

theorem append (left : Muted txn first) (right : Muted txn second) : Muted txn (first ++ second) :=
  fun event member => (List.mem_append.1 member).elim (left event) (right event)

/-- Notes that are no events. -/
theorem of_quiet (quiet : ∀ event, .event (some txn) event ∉ first) : Muted txn first :=
  fun event member => absurd member (quiet event)

theorem of_unspoken (unspoken : Unspoken txn first) :
    Muted txn first := of_quiet fun _ member => unspoken _ member rfl

theorem provisional (below : event.IsMatched (· < 200)) : Muted txn [.event (some txn) event] := by
  intro other member
  cases List.mem_singleton.1 member
  obtain ⟨resp, src, datagram, rfl, isBelow⟩ := below.cases
  exact ⟨Nat.not_le.2 isBelow, not_false, fun _ timeout => timeout.elim⟩

theorem timeout (isTimeout : event.IsTimeout none) (silent : Bool) :
    Muted txn (if silent then [] else [.event (some txn) event]) := by
  cases silent with
  | true => exact of_quiet fun _ => List.not_mem_nil
  | false =>
    intro other member
    cases List.mem_singleton.1 member
    cases event with
    | timeout => exact ⟨not_false, not_false, fun callRef named => named.symm.trans isTimeout⟩
    | _ => exact isTimeout.elim

end Muted

/-- A released transaction is muted, and stays released. -/
theorem muted_move (orphaned : standing.orphaned = true)
    (unnamed : standing.callRef = none) (move : ClientMove leave standing next notes) :
    Muted standing.serial notes ∧ ∀ later, next = some later → later.orphaned = true := by
  refine ⟨?_, fun later isNext => ?_⟩
  · cases move with
    | handsUp provisional => exact .provisional provisional
    | hopAlive alive named => cases unnamed.symm.trans named
    | reportsDead _ _ _ _ timeout => exact .timeout (unnamed ▸ timeout) false
    | givesUp _ _ _ timeout | timesOut _ _ _ timeout => exact .timeout (unnamed ▸ timeout) _
    | rejects invite open_ disposal final =>
      rw [orphaned]
      refine .append (.of_quiet fun event member => ?_) (.of_quiet fun _ => List.not_mem_nil)
      cases disposal <;> simp at member
    | accepts | ends =>
      rw [orphaned]
      exact .of_quiet fun event member => by simp at member
    | _ => exact .of_quiet fun event member => by simp at member
  · subst isNext
    cases move with
    | released => rfl
    | _ => exact orphaned

/-- A client transaction released, with the journal of that instant. -/
structure Freed (txn : ℕ) (start : List Note) (ledger : Ledger) : Prop where
  opened : txn < ledger.opened
  orphaned : ∀ branch standing, ledger.clients branch = some standing → standing.serial = txn →
    standing.orphaned = true
  muted : ∃ said, ledger.journal = start ++ said ∧ Muted txn said

theorem Freed.step {ledger after : Ledger}
    (freed : Freed txn start ledger) (kept : ledger.Kept) (detailed : ledger.Detailed)
    (stepped : Step leave ledger after) : Freed txn start after := by
  have opened := Nat.lt_of_lt_of_le freed.opened stepped.opened_le
  obtain ⟨said, extends_, muted⟩ := freed.muted
  have further {notes : List Note} (journal : after.journal = ledger.journal ++ notes) (mutedToo : Muted txn notes) :
      ∃ said, after.journal = start ++ said ∧ Muted txn said :=
    ⟨said ++ notes, by rw [journal, extends_, List.append_assoc], muted.append mutedToo⟩
  cases stepped.seen kept freed.opened with
  | @own branch standing next notes stands serial move journal resident placed =>
    subst serial
    have orphaned := freed.orphaned branch standing stands rfl
    obtain ⟨mutedToo, stays⟩ := muted_move orphaned (detailed.unnamed branch standing stands orphaned) move
    exact ⟨opened, fun other later standsThen isTxn => stays later (resident other later standsThen isTxn),
      further journal mutedToo⟩
  | frame unspoken journal resident stays =>
    exact ⟨opened, fun other later standsThen isTxn => freed.orphaned other later
      (resident other later standsThen isTxn) isTxn,
      further journal (.of_unspoken unspoken)⟩

theorem Freed.steps {ledger after : Ledger}
    (freed : Freed txn start ledger) (kept : ledger.Kept) (detailed : ledger.Detailed)
    (moved : Steps leave ledger after) : Freed txn start after := by
  induction moved with
  | refl => exact freed
  | tail earlier stepped ih =>
    exact ih.step (kept.steps earlier) (detailed.steps kept earlier) stepped

end Ledger

namespace Owner

theorem detailed_of_run {wire : Wire} {config : Config} {final : Owner} {events : List OwnerEvent}
    (ran : run (step wire) (.new config) events = some final) : final.ledger.Detailed := by
  refine Ledger.Detailed.steps ?_ (new_kept config) (run_goes ran).moves
  constructor <;> simp [ledger, new]

/-- A client INVITE tells its TU at most one Timeout, one non-2xx final and one 2xx final, a client
    non-INVITE at most one of them all; and once its call released it, it tells no final and no hop that came
    alive, and a Timeout of it names no call. -/
theorem client_speaks_once_per_outcome {wire : Wire} {config : Config} {before later : List OwnerEvent}
    {middle final : Owner} {branch : Branch} {txn : Transaction}
    (reached : run (step wire) (.new config) before = some middle)
    (resident : middle.clients.get branch = some txn) (ran : run (step wire) middle later = some final) :
    (txn.kind = .invite → (outcomes txn.serial final.journal).Nodup) ∧
    (txn.kind = .nonInvite → (outcomes txn.serial final.journal).length ≤ 1) ∧
    (txn.orphaned = true → ∃ said, final.journal = middle.journal ++ said ∧
      ∀ event, .event (some txn.serial) event ∈ said → ¬ event.IsMatched (200 ≤ ·) ∧ ¬ event.IsHopAlive ∧
        ∀ callRef, event.IsTimeout callRef → callRef = none) := by
  have kept := kept_of_run reached
  have detailed := detailed_of_run reached
  have stands := ledger_client resident
  have bounded : Bounded txn.kind (outcomes txn.serial final.journal) :=
    ((detailed.tells branch _ stands).steps kept (run_goes ran).moves).bounded
  refine ⟨fun invite => ?_, fun nonInvite => ?_, fun orphaned => ?_⟩
  · rw [invite] at bounded
    exact bounded
  · rw [nonInvite] at bounded
    exact bounded
  · have freed : middle.ledger.Freed txn.serial middle.journal := by
      refine ⟨kept.client_lt branch _ stands, fun other standing standsToo serial => ?_, [],
        (List.append_nil _).symm, ?_⟩
      · obtain rfl := kept.client_inj other branch standing _ standsToo stands serial
        cases standsToo.symm.trans stands
        exact orphaned
      · exact .of_unspoken (.nil _)
    exact (freed.steps kept detailed (run_goes ran).moves).muted

/-- A configuration whose INVITEs give up before the first-response bound would ring. -/
def shortConfig : Config := { sampleConfig with inviteInitialTimeoutMs := 100 }

/-- An INVITE sent for a call, and the release of that call. -/
def releasedEvents : List OwnerEvent :=
  [.turn (.command (.sendRequest { sampleInvite with topVia := ⟨some "b", "host", some "c", none, none⟩ } 7 .invite)),
    .turn (.command (.cancelTxnsForCall "c"))]

/-- The INVITE of a released call gives up: its Timeout is told after the release, and names no call. -/
theorem timeout_of_released_invite :
    ∃ middle final txn, run (step .plain) (.new shortConfig) releasedEvents = some middle ∧
      middle.clients.get "b" = some txn ∧ run (step .plain) middle [.pass 100, .turn (.timer 2)] = some final ∧
      (outcomes txn.serial final.journal).Nodup ∧ txn.orphaned = true ∧
      ∃ said, final.journal = middle.journal ++ said ∧
        ∀ event, .event (some txn.serial) event ∈ said → ¬ event.IsMatched (200 ≤ ·) ∧ ¬ event.IsHopAlive ∧
          ∀ callRef, event.IsTimeout callRef → callRef = none := by
  refine ⟨_, _, _, rfl, rfl, rfl, ?_⟩
  have once := @client_speaks_once_per_outcome .plain shortConfig releasedEvents
    [.pass 100, .turn (.timer 2)] _ _ "b" _
    rfl rfl rfl
  exact ⟨once.1 rfl, rfl, once.2.2 rfl⟩

/-- An event is told of a client transaction after its call released it. -/
theorem released_invite_still_speaks :
    ∃ middle final txn said event, run (step .plain) (.new shortConfig) releasedEvents = some middle ∧
      middle.clients.get "b" = some txn ∧ txn.orphaned = true ∧ .released txn.serial ∈ middle.journal ∧
      run (step .plain) middle [.pass 100, .turn (.timer 2)] = some final ∧ final.journal = middle.journal ++ said ∧
      .event (some txn.serial) event ∈ said := by
  refine ⟨_, _, _, [_], _, rfl, rfl, rfl, ?_, rfl, rfl, List.mem_singleton_self _⟩
  exact List.mem_cons_of_mem _ (List.mem_singleton_self _)

end Owner

end SipServer.Txn
