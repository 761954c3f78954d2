/-
Module: SipServer.Proofs.TxnLedgerKept
Purpose: What every run keeps of the ledger: no two transactions share a serial, and only the transaction a
  note is about said it.
-/
import SipServer.Proofs.TxnLedgerTurn

namespace SipServer.Txn

open SipServer.Lib

variable {after : Ledger} {note : Note} {branch : Branch} {leave : ClientStanding → Prop} {notes : List Note}
  {standing : ServerStanding} {txn : ℕ} {ledger : Ledger} {next : Option ServerStanding}
  {answers : Option UnsentCancel} {wire : Wire} {events : List OwnerEvent} {key : ServerTxnKey}

/-- The transaction a note is about. -/
def Note.about : Note → Option ℕ
  | .response txn _ _ _ | .answered txn _ _ | .answersHeld txn _ | .cancelHanded txn | .cancel txn _ _
  | .cancelAnswered txn | .provisional txn | .rejected txn _ | .ack txn _ _ | .accepted txn
  | .released txn =>
    some txn
  | .event txn _ => txn
  | .cancelOk _ _ _ | .request _ _ _ | .watched _ | .raw _ _ => none

theorem Note.Aside.about (aside : note.Aside) : note.about = none := by
  cases note with
  | event txn event =>
    cases txn with
    | none => rfl
    | some serial => exact aside.elim
  | cancelOk | request | watched | raw => rfl
  | _ => exact aside.elim

/-- Notes about at most one transaction. -/
def SaidBy (txn : ℕ) (notes : List Note) : Prop := ∀ note ∈ notes, ∀ other, note.about = some other → other = txn

namespace SaidBy

theorem nil (txn : ℕ) : SaidBy txn [] := List.forall_mem_nil _

theorem cons (first : ∀ other, note.about = some other → other = txn)
    (rest : SaidBy txn notes) : SaidBy txn (note :: notes) := by
  intro member isMember
  obtain rfl | later := List.mem_cons.1 isMember
  · exact first
  · exact rest member later

theorem append {first second : List Note} (left : SaidBy txn first) (right : SaidBy txn second) :
    SaidBy txn (first ++ second) := by
  intro note isMember
  obtain early | late := List.mem_append.1 isMember
  · exact left note early
  · exact right note late

theorem single (isAbout : note.about = some txn) : SaidBy txn [note] :=
  cons (fun _ about => Option.mem_unique about isAbout) (nil txn)

end SaidBy

theorem UnsentCancel.saidBy_sends (held : UnsentCancel) : SaidBy txn (held.sends txn) := by
  unfold UnsentCancel.sends
  refine .append ?_ ?_
  · cases held.cancelOk with
    | none => exact .nil txn
    | some ok =>
      refine .cons (fun other about => ?_) (.nil txn)
      cases about
  · cases held.terminated with
    | none => exact .nil txn
    | some final => exact .single rfl

theorem saidBy_owedBy : SaidBy txn (owedBy txn answers) := by
  cases answers with
  | none => exact .nil txn
  | some held => exact held.saidBy_sends

theorem AckDisposal.saidBy {standing : ClientStanding} {ack unsent : Option (Bytes × SocketAddr)} {acks : List Note}
    (disposal : AckDisposal standing ack unsent acks) : SaidBy standing.serial acks := by
  cases disposal with
  | unbuilt | held => exact .nil _
  | sent ack => exact .single rfl

namespace ClientMove

variable {leave : ClientStanding → Prop} {standing : ClientStanding} {next : Option ClientStanding}
    {notes : List Note}

/-- A client transaction speaks for itself alone. -/
theorem saidBy (move : ClientMove leave standing next notes) : SaidBy standing.serial notes := by
  have told (silent : Bool) (event : TransactionEvent) :
      SaidBy standing.serial (if silent then [] else [.event (some standing.serial) event]) := by
    cases silent with
    | true => exact .nil _
    | false => exact .single rfl
  cases move with
  | givesUp | timesOut | ends => exact told _ _
  | rejects invite open_ disposal final =>
    exact .append (.cons (fun _ about => (Option.some.inj about).symm) disposal.saidBy) (told _ _)
  | accepts => exact .cons (fun _ about => (Option.some.inj about).symm) (told _ _)
  | leaves => exact .nil _
  | seedsCancel => exact .nil _
  | sendsCancel => exact .cons (fun _ about => (Option.some.inj about).symm) (.single rfl)
  | _ => exact .single rfl

/-- It stays the transaction it is. -/
theorem same {after : ClientStanding} (move : ClientMove leave standing (some after) notes) :
    after.serial = standing.serial ∧ after.kind = standing.kind ∧ after.answers = standing.answers := by
  cases move <;> exact ⟨rfl, rfl, rfl⟩

end ClientMove

namespace ServerMove

variable {standing : ServerStanding} {next : Option ServerStanding} {notes : List Note}

/-- A server transaction speaks for itself alone. -/
theorem saidBy (move : ServerMove standing next notes) : SaidBy standing.serial notes := by
  have once {status : ℕ} {buf : Bytes} {sent : List Note}
      (sends : sent = [] ∨ ∃ dest, sent = [.response standing.serial status buf dest]) :
        SaidBy standing.serial sent := by
    obtain rfl | ⟨dest, rfl⟩ := sends
    · exact .nil _
    · exact .single rfl
  cases move with
  | provisional buf active below sends => exact once sends
  | answers buf active final done sends => exact .cons (fun _ about => (Option.some.inj about).symm) (once sends)
  | sendsHeld holding => exact UnsentCancel.saidBy_sends _
  | replays | holds => exact .single rfl
  | confirms | waives | leaves => exact .nil _

theorem same {after : ServerStanding} (move : ServerMove standing (some after) notes) :
    after.serial = standing.serial ∧ after.kind = standing.kind := by
  cases move <;> exact ⟨rfl, rfl⟩

end ServerMove

namespace Ledger

/-- What every run keeps of a ledger. -/
structure Kept (ledger : Ledger) : Prop where
  client_lt : ∀ branch standing, ledger.clients branch = some standing → standing.serial < ledger.opened
  server_lt : ∀ key standing, ledger.servers key = some standing → standing.serial < ledger.opened
  client_inj : ∀ branch other standing next, ledger.clients branch = some standing →
    ledger.clients other = some next →
    standing.serial = next.serial → branch = other
  server_inj : ∀ key other standing next, ledger.servers key = some standing → ledger.servers other = some next →
    standing.serial = next.serial → key = other
  apart : ∀ branch key standing next, ledger.clients branch = some standing → ledger.servers key = some next →
    standing.serial ≠ next.serial
  said_lt : ∀ note ∈ ledger.journal, ∀ txn, note.about = some txn → txn < ledger.opened
  owed_lt : ∀ note ∈ ledger.owed, ∀ txn, note.about = some txn → txn < ledger.opened
  /-- Only a server transaction holds answers to a CANCEL. -/
  no_answers : ∀ branch standing, ledger.clients branch = some standing → standing.answers = none
  /-- What is owed are datagrams: the 200 to a CANCEL, the 487 to its INVITE. -/
  owed_sends : ∀ note ∈ ledger.owed, (∃ txn buf dest, note = .cancelOk txn buf dest) ∨
    ∃ txn buf dest, note = .response txn 487 buf dest

/-- What changed of the ledger at one client branch or one server key, with what was said and is owed. -/
theorem clients_of_setClient {other : Branch} {next : Option ClientStanding}
    {standing : ClientStanding} (stands : (ledger.setClient branch next).clients other = some standing) :
    (other = branch ∧ next = some standing) ∨ (other ≠ branch ∧ ledger.clients other = some standing) := by
  by_cases same : other = branch
  · subst same
    exact .inl ⟨rfl, (clients_setClient).symm.trans stands⟩
  · exact .inr ⟨same, (Function.update_of_ne same _ _).symm.trans stands⟩

theorem servers_of_setServer {other : ServerTxnKey}
    (stands : (ledger.setServer key next).servers other = some standing) :
    (other = key ∧ next = some standing) ∨ (other ≠ key ∧ ledger.servers other = some standing) := by
  by_cases same : other = key
  · subst same
    exact .inl ⟨rfl, (servers_setServer ledger other next).symm.trans stands⟩
  · exact .inr ⟨same, (Function.update_of_ne same _ _).symm.trans stands⟩

theorem owed_sends_owedBy :
    ∀ note ∈ owedBy txn answers, (∃ txn buf dest, note = .cancelOk txn buf dest) ∨
      ∃ txn buf dest, note = .response txn 487 buf dest := by
  intro note isOwed
  cases answers with
  | none => cases isOwed
  | some held =>
    obtain ok | final := List.mem_append.1 isOwed
    · obtain ⟨sent, _, rfl⟩ := Option.map_eq_some_iff.1 (Option.mem_toList.1 ok)
      exact .inl ⟨_, _, _, rfl⟩
    · obtain ⟨sent, _, rfl⟩ := Option.map_eq_some_iff.1 (Option.mem_toList.1 final)
      exact .inr ⟨_, _, _, rfl⟩

namespace Kept

variable {ledger : Ledger}

/-- Notes of a resident transaction may be said. -/
theorem said (kept : ledger.Kept) (opened : txn < ledger.opened) (saidBy : SaidBy txn notes) :
    (ledger.say notes).Kept := by
  refine { kept with said_lt := ?_ }
  intro note isSaid other about
  obtain old | new := List.mem_append.1 isSaid
  · exact kept.said_lt note old other about
  · exact saidBy note new other about ▸ opened

/-- One more number is given out. -/
theorem opens (kept : ledger.Kept) : ledger.opens.Kept :=
  { kept with
    client_lt := fun branch standing stands => Nat.lt_succ_of_lt (kept.client_lt branch standing stands)
    server_lt := fun key standing stands => Nat.lt_succ_of_lt (kept.server_lt key standing stands)
    said_lt := fun note isSaid txn about => Nat.lt_succ_of_lt (kept.said_lt note isSaid txn about)
    owed_lt := fun note isOwed txn about => Nat.lt_succ_of_lt (kept.owed_lt note isOwed txn about) }

/-- A client branch takes a standing under a number no other transaction has. -/
theorem setClient (kept : ledger.Kept) {next : Option ClientStanding}
    (own : ∀ standing, next = some standing → standing.serial < ledger.opened ∧ standing.answers = none ∧
      (∀ other before, other ≠ branch → ledger.clients other = some before → before.serial ≠ standing.serial) ∧
      ∀ key server, ledger.servers key = some server → standing.serial ≠ server.serial) :
    (ledger.setClient branch next).Kept := by
  refine { kept with client_lt := ?_, client_inj := ?_, apart := ?_, no_answers := ?_ }
  · intro other after stands
    obtain ⟨_, isNext⟩ | ⟨_, stood⟩ := clients_of_setClient stands
    · exact (own after isNext).1
    · exact kept.client_lt other after stood
  · intro one other after afterOther standsOne standsOther same
    obtain ⟨rfl, isOne⟩ | ⟨apart, stoodOne⟩ := clients_of_setClient standsOne <;>
      obtain ⟨rfl, isOther⟩ | ⟨apartOther, stoodOther⟩ := clients_of_setClient standsOther
    · rfl
    · exact absurd same.symm ((own after isOne).2.2.1 other afterOther apartOther stoodOther)
    · exact absurd same ((own afterOther isOther).2.2.1 one after apart stoodOne)
    · exact kept.client_inj one other after afterOther stoodOne stoodOther same
  · intro other key after server stands standsServer
    obtain ⟨_, isNext⟩ | ⟨_, stood⟩ := clients_of_setClient stands
    · exact (own after isNext).2.2.2 key server standsServer
    · exact kept.apart other key after server stood standsServer
  · intro other after stands
    obtain ⟨_, isNext⟩ | ⟨_, stood⟩ := clients_of_setClient stands
    · exact (own after isNext).2.1
    · exact kept.no_answers other after stood

/-- A server key takes a standing under a number no other transaction has. -/
theorem setServer (kept : ledger.Kept)
    (own : ∀ standing, next = some standing → standing.serial < ledger.opened ∧
      (∀ other before, other ≠ key → ledger.servers other = some before → before.serial ≠ standing.serial) ∧
      ∀ branch client, ledger.clients branch = some client → client.serial ≠ standing.serial) :
    (ledger.setServer key next).Kept := by
  refine { kept with server_lt := ?_, server_inj := ?_, apart := ?_ }
  · intro other after stands
    obtain ⟨_, isNext⟩ | ⟨_, stood⟩ := servers_of_setServer stands
    · exact (own after isNext).1
    · exact kept.server_lt other after stood
  · intro one other after afterOther standsOne standsOther same
    obtain ⟨rfl, isOne⟩ | ⟨apart, stoodOne⟩ := servers_of_setServer standsOne <;>
      obtain ⟨rfl, isOther⟩ | ⟨apartOther, stoodOther⟩ := servers_of_setServer standsOther
    · rfl
    · exact absurd same.symm ((own after isOne).2.1 other afterOther apartOther stoodOther)
    · exact absurd same ((own afterOther isOther).2.1 one after apart stoodOne)
    · exact kept.server_inj one other after afterOther stoodOne stoodOther same
  · intro branch other client after standsClient stands
    obtain ⟨_, isNext⟩ | ⟨_, stood⟩ := servers_of_setServer stands
    · exact (own after isNext).2.2 branch client standsClient
    · exact kept.apart branch other client after standsClient stood

theorem client (kept : ledger.Kept) {standing : ClientStanding}
    {next : Option ClientStanding} (stands : ledger.clients branch = some standing)
    (move : ClientMove leave standing next notes) :
    (((ledger.setClient branch next).owe (leaving next standing.serial standing.answers)).say notes).Kept := by
  have opened := kept.client_lt branch standing stands
  have owesNone : leaving next standing.serial standing.answers = [] := by
    rw [kept.no_answers branch standing stands]
    cases next <;> rfl
  have changed : (ledger.setClient branch next).Kept := by
    refine kept.setClient ?_
    rintro after rfl
    obtain ⟨serial, _, answers⟩ := move.same
    rw [serial, answers]
    exact ⟨opened, kept.no_answers branch standing stands,
      fun other before apart stood same => apart (kept.client_inj other branch before standing stood stands same),
      fun key server => kept.apart branch key standing server stands⟩
  rw [owesNone, owe_nil]
  exact changed.said opened move.saidBy

theorem server (kept : ledger.Kept)
    (stands : ledger.servers key = some standing) (move : ServerMove standing next notes) :
    (((ledger.setServer key next).owe (leaving next standing.serial standing.answers)).say notes).Kept := by
  have opened := kept.server_lt key standing stands
  have owes : ∀ note ∈ leaving next standing.serial standing.answers,
      note ∈ owedBy standing.serial standing.answers := by
    intro note isOwed
    cases next with
    | none => exact isOwed
    | some after => cases isOwed
  have changed : (ledger.setServer key next).Kept := by
    refine kept.setServer ?_
    rintro after rfl
    rw [move.same.1]
    exact ⟨opened,
      fun other before apart stood same => apart (kept.server_inj other key before standing stood stands same),
      fun branch client standsClient => kept.apart branch key client standing standsClient stands⟩
  have owing : ((ledger.setServer key next).owe (leaving next standing.serial standing.answers)).Kept :=
    { changed with
      owed_lt := by
        intro note isOwed txn about
        obtain old | new := List.mem_append.1 isOwed
        · exact kept.owed_lt note old txn about
        · exact saidBy_owedBy note (owes note new) txn about ▸ opened
      owed_sends := by
        intro note isOwed
        obtain old | new := List.mem_append.1 isOwed
        · exact kept.owed_sends note old
        · exact owed_sends_owedBy note (owes note new) }
  exact owing.said opened move.saidBy

theorem clientOpens (kept : ledger.Kept) {standing : ClientStanding}
    (fresh : ledger.ClientFresh standing) : (ledger.setClient branch (some standing)).opens.Kept := by
  refine kept.opens.setClient ?_
  rintro _ ⟨⟩
  rw [fresh.serial]
  exact ⟨Nat.lt_succ_self _, fresh.noAnswers,
    fun other before _ stood => Nat.ne_of_lt (kept.client_lt other before stood),
    fun key server stood => Nat.ne_of_gt (kept.server_lt key server stood)⟩

theorem freshServer_serial
    (fresh : ledger.ServerFresh standing notes) : standing.serial = ledger.opened ∧ SaidBy standing.serial notes := by
  cases fresh with
  | active active => exact ⟨rfl, .nil _⟩
  | answered done final => exact ⟨rfl, .single rfl⟩

theorem serverOpens (kept : ledger.Kept)
    (fresh : ledger.ServerFresh standing notes) : ((ledger.setServer key (some standing)).opens.say notes).Kept := by
  obtain ⟨serial, saidBy⟩ := freshServer_serial fresh
  have changed : (ledger.opens.setServer key (some standing)).Kept := by
    refine kept.opens.setServer ?_
    rintro _ ⟨⟩
    rw [serial]
    exact ⟨Nat.lt_succ_self _, fun other before _ stood => Nat.ne_of_lt (kept.server_lt other before stood),
      fun branch client stood => Nat.ne_of_lt (kept.client_lt branch client stood)⟩
  exact changed.said (serial ▸ Nat.lt_succ_self _) saidBy

theorem step (kept : ledger.Kept) (stepped : Step leave ledger after) : after.Kept := by
  cases stepped with
  | aside isAside =>
    refine { kept with said_lt := ?_ }
    intro note isSaid txn about
    obtain old | new := List.mem_append.1 isSaid
    · exact kept.said_lt note old txn about
    obtain rfl := List.mem_singleton.1 new
    cases isAside.about.symm.trans about
  | client stands move => exact kept.client stands move
  | clientOpens fresh displaced => exact kept.clientOpens fresh
  | server stands move => exact kept.server stands move
  | serverOpens fresh => exact kept.serverOpens fresh
  | pays =>
    refine { kept with said_lt := ?_, owed_lt := ?_, owed_sends := ?_ }
    · intro note isSaid txn about
      obtain old | new := List.mem_append.1 isSaid
      · exact kept.said_lt note old txn about
      · exact kept.owed_lt note new txn about
    · exact List.forall_mem_nil _
    · exact List.forall_mem_nil _

theorem steps (kept : ledger.Kept) (moved : Steps leave ledger after) : after.Kept := by
  induction moved with
  | refl => exact kept
  | tail _ stepped ih => exact ih.step stepped

end Kept

end Ledger

/-! ### What one step is to one client transaction -/

/-- The client transaction a note tells of. -/
def Note.ofClient : Note → Option ℕ
  | .cancelHanded txn | .cancel txn _ _ | .cancelAnswered txn | .provisional txn | .rejected txn _ | .ack txn _ _
  | .accepted txn | .released txn => some txn
  | .event txn _ => txn
  | _ => none

theorem Note.about_of_ofClient (told : note.ofClient = some txn) : note.about = some txn := by
  cases note with
  | response | answered | answersHeld | cancelOk | request | watched | raw => cases told
  | _ => exact told

/-- Notes that tell nothing of a client transaction. -/
def Unspoken (txn : ℕ) (notes : List Note) : Prop := ∀ note ∈ notes, note.ofClient ≠ some txn

namespace Unspoken

variable {txn : ℕ} {notes : List Note}

theorem nil (txn : ℕ) : Unspoken txn [] := List.forall_mem_nil _

theorem single (untold : note.ofClient ≠ some txn) : Unspoken txn [note] := by
  intro other member
  obtain rfl := List.mem_singleton.1 member
  exact untold

/-- Another transaction's notes. -/
theorem of_saidBy {other : ℕ} (saidBy : SaidBy other notes) (differ : other ≠ txn) : Unspoken txn notes :=
  fun note member told => differ (saidBy note member txn (Note.about_of_ofClient told)).symm

end Unspoken

/-- A server transaction tells nothing of a client one. -/
theorem ServerMove.unspoken (move : ServerMove standing next notes) (txn : ℕ) : Unspoken txn notes := by
  have once {status : ℕ} {buf : Bytes} {sent : List Note}
      (sends : sent = [] ∨ ∃ dest, sent = [.response standing.serial status buf dest]) : Unspoken txn sent := by
    obtain rfl | ⟨dest, rfl⟩ := sends
    · exact .nil txn
    · exact .single nofun
  cases move with
  | provisional buf active below sends => exact once sends
  | answers buf active final done sends =>
    intro note member
    obtain rfl | later := List.mem_cons.1 member
    · nofun
    · exact once sends note later
  | @sendsHeld held holding =>
    intro note member
    obtain ok | final := List.mem_append.1 member
    · obtain ⟨sent, _, rfl⟩ := Option.map_eq_some_iff.1 (Option.mem_toList.1 ok)
      nofun
    · obtain ⟨sent, _, rfl⟩ := Option.map_eq_some_iff.1 (Option.mem_toList.1 final)
      nofun
  | replays | holds => exact .single nofun
  | confirms | waives | leaves => exact .nil txn

namespace Ledger

/-- A step as a client transaction sees it: its own move, or one that neither speaks of it nor touches it. -/
inductive Step.Seen (leave : ClientStanding → Prop) (txn : ℕ) (ledger after : Ledger) : Prop where
  | own {branch : Branch} {standing : ClientStanding} {next : Option ClientStanding} {notes : List Note}
      (stands : ledger.clients branch = some standing) (serial : standing.serial = txn)
      (move : ClientMove leave standing next notes) (said : after.journal = ledger.journal ++ notes)
      (resident : ∀ other later, after.clients other = some later → later.serial = txn → next = some later)
      (placed : after.clients branch = next)
  | frame {notes : List Note} (unspoken : Unspoken txn notes) (said : after.journal = ledger.journal ++ notes)
      (resident : ∀ other later, after.clients other = some later → later.serial = txn →
        ledger.clients other = some later)
      (stays : ∀ other standing, ledger.clients other = some standing → standing.serial = txn →
        after.clients other = some standing ∨ leave standing)

theorem Step.seen (kept : ledger.Kept) (stepped : Step leave ledger after) (opened : txn < ledger.opened) :
    Step.Seen leave txn ledger after := by
  cases stepped with
  | @aside note isAside =>
    refine .frame (.single fun told => ?_) rfl (fun _ _ stands _ => stands) (fun _ _ stands _ => .inl stands)
    cases isAside.about.symm.trans (Note.about_of_ofClient told)
  | @client branch standing next notes stands move =>
    by_cases own : standing.serial = txn
    · refine .own stands own move rfl ?_ clients_setClient
      intro other later standsThen serial
      obtain ⟨_, isNext⟩ | ⟨differ, stood⟩ := clients_of_setClient standsThen
      · exact isNext
      · exact absurd (kept.client_inj other branch later standing stood stands (serial.trans own.symm)) differ
    · refine .frame (.of_saidBy move.saidBy own) rfl ?_ ?_
      · intro other later standsThen serial
        obtain ⟨_, rfl⟩ | ⟨_, stood⟩ := clients_of_setClient standsThen
        · exact absurd (move.same.1.symm.trans serial) own
        · exact stood
      · intro other before stood serial
        by_cases same : other = branch
        · subst same
          cases stands.symm.trans stood
          exact absurd serial own
        · exact .inl ((Function.update_of_ne same _ _).trans stood)
  | @clientOpens branch standing fresh displaced =>
    refine .frame (.nil txn) (List.append_nil _).symm ?_ ?_
    · intro other later standsThen serial
      obtain ⟨_, isNext⟩ | ⟨_, stood⟩ := clients_of_setClient standsThen
      · cases isNext
        exact absurd (serial.symm.trans fresh.serial) opened.ne
      · exact stood
    · intro other before stood serial
      by_cases same : other = branch
      · subst same
        exact .inr (displaced before stood)
      · exact .inl ((Function.update_of_ne same _ _).trans stood)
  | server stands move =>
    exact .frame (move.unspoken txn) rfl (fun _ _ stands _ => stands) (fun _ _ stands _ => .inl stands)
  | serverOpens fresh =>
    refine .frame ?_ rfl (fun _ _ stands _ => stands) (fun _ _ stands _ => .inl stands)
    cases fresh with
    | active active => exact .nil txn
    | answered done final => exact .single nofun
  | pays =>
    refine .frame (fun note isOwed => ?_) rfl (fun _ _ stands _ => stands) (fun _ _ stands _ => .inl stands)
    obtain ⟨_, _, _, rfl⟩ | ⟨_, _, _, rfl⟩ := kept.owed_sends note isOwed
    · nofun
    · nofun

/-- A client transaction resident after a step was opened by it, or stood before it. -/
theorem Step.resident (stepped : Step leave ledger after)
    {later : ClientStanding} (stands : after.clients branch = some later) :
    ledger.ClientFresh later ∧ after.journal = ledger.journal ∨
      ∃ standing, ledger.clients branch = some standing ∧ later.serial = standing.serial ∧
        later.kind = standing.kind := by
  cases stepped with
  | client stood move =>
    obtain ⟨rfl, rfl⟩ | ⟨_, stood⟩ := clients_of_setClient stands
    · exact .inr ⟨_, stood, move.same.1, move.same.2.1⟩
    · exact .inr ⟨later, stood, rfl, rfl⟩
  | clientOpens fresh displaced =>
    obtain ⟨_, isNext⟩ | ⟨_, stood⟩ := clients_of_setClient stands
    · cases isNext
      exact .inl ⟨fresh, rfl⟩
    · exact .inr ⟨later, stood, rfl, rfl⟩
  | aside | server | serverOpens | pays => exact .inr ⟨later, stands, rfl, rfl⟩

theorem Step.opened_le (stepped : Step leave ledger after) : ledger.opened ≤ after.opened := by
  cases stepped with
  | clientOpens | serverOpens => exact Nat.le_succ _
  | _ => exact Nat.le_refl _

end Ledger

namespace Owner

theorem new_kept (config : Config) : (new config).ledger.Kept := by
  constructor <;> simp [ledger, new]

theorem kept_of_run {config : Config} {final : Owner}
    (ran : run (step wire) (.new config) events = some final) : final.ledger.Kept :=
  (new_kept config).steps (run_goes ran).moves

end Owner

end SipServer.Txn
