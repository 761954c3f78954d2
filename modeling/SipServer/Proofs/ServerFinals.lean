/-
Module: SipServer.Proofs.ServerFinals
Purpose: A server transaction sends one final: once it took one, all it sends is that final again, byte for
  byte.
-/
import SipServer.Proofs.TxnLedgerKept

namespace SipServer.Txn

open SipServer.Lib

variable {leave : ClientStanding → Prop} {txn status other : ℕ} {notes sent : List Note} {ledger : Ledger}
    {buf : Bytes}
  {next : Option ServerStanding} {held : UnsentCancel} {owed : List Note} {after : Ledger} {image : Bytes}

/-- The server transaction whose response, or whose final, a note tells of. -/
def Note.ofServer : Note → Option ℕ
  | .response txn _ _ _ | .answered txn _ _ => some txn
  | _ => none

theorem Note.about_of_ofServer {note : Note} (told : note.ofServer = some txn) : note.about = some txn := by
  cases note with
  | response => exact told
  | answered => exact told
  | _ => cases told

/-- Notes that tell nothing of a server transaction. -/
def Silent (txn : ℕ) (notes : List Note) : Prop := ∀ note ∈ notes, note.ofServer ≠ some txn

namespace Silent

variable {txn : ℕ} {notes : List Note}

theorem nil (txn : ℕ) : Silent txn [] := List.forall_mem_nil _

/-- Another transaction's notes. -/
theorem of_saidBy (saidBy : SaidBy other notes) (differ : other ≠ txn) : Silent txn notes := by
  intro note member told
  exact differ (saidBy note member txn (Note.about_of_ofServer told)).symm

theorem no_response (silent : Silent txn notes) (status : ℕ) (buf : Bytes) (dest : SocketAddr) :
    .response txn status buf dest ∉ notes :=
  fun member => silent _ member rfl

theorem no_answer (silent : Silent txn notes) (status : ℕ) (buf : Bytes) : .answered txn status buf ∉ notes :=
  fun member => silent _ member rfl

end Silent

/-- A client transaction tells nothing of a server one. -/
theorem ClientMove.silent {standing : ClientStanding} {next : Option ClientStanding}
    (move : ClientMove leave standing next notes) (txn : ℕ) : Silent txn notes := by
  have told (hushed : Bool) (event : TransactionEvent) :
      ∀ note ∈ (if hushed then [] else [Note.event (some standing.serial) event]), note.ofServer = none := by
    intro note member
    cases hushed with
    | true => cases member
    | false =>
      obtain rfl := List.mem_singleton.1 member
      rfl
  suffices none : ∀ note ∈ notes, note.ofServer = none by
    intro note member isTold
    cases (none note member).symm.trans isTold
  cases move with
  | givesUp | timesOut | ends => exact told _ _
  | accepts =>
    intro note member
    obtain rfl | later := List.mem_cons.1 member
    · rfl
    · exact told _ _ note later
  | rejects invite open_ disposal final =>
    intro note member
    obtain early | late := List.mem_append.1 member
    · obtain rfl | acked := List.mem_cons.1 early
      · rfl
      cases disposal with
      | sent ack =>
        obtain rfl := List.mem_singleton.1 acked
        rfl
      | unbuilt | held => cases acked
    · exact told _ _ note late
  | sendsCancel buf dest active past =>
    intro note member
    obtain rfl | later := List.mem_cons.1 member
    · rfl
    obtain rfl := List.mem_singleton.1 later
    rfl
  | leaves | seedsCancel => exact List.forall_mem_nil _
  | _ =>
    intro note member
    obtain rfl := List.mem_singleton.1 member
    rfl

namespace Ledger

/-- A server transaction that took no final: what it sent are provisionals. -/
structure Unsettled (txn : ℕ) (ledger : Ledger) : Prop where
  unanswered : ∀ status buf, .answered txn status buf ∉ ledger.journal
  below : ∀ status buf dest, .response txn status buf dest ∈ ledger.journal → status < 200
  owes_none : ∀ status buf dest, .response txn status buf dest ∉ ledger.owed
  active : ∀ key standing, ledger.servers key = some standing → standing.serial = txn → standing.state.isActive = true
  cached : ∀ key standing, ledger.servers key = some standing → standing.serial = txn →
    ∀ buf status, standing.cached = some (buf, status) → status < 200
  held : ∀ key standing, ledger.servers key = some standing → standing.serial = txn →
    ∀ answers, standing.answers = some answers → answers.terminated = none

/-- Notes that tell of an unsettled transaction provisionals alone. -/
def Provisionals (txn : ℕ) (notes : List Note) : Prop :=
  (∀ status buf, .answered txn status buf ∉ notes) ∧
    ∀ status buf dest, .response txn status buf dest ∈ notes → status < 200

/-- Notes that tell of a settled transaction nothing but its final sent again. -/
def Repeats (txn status : ℕ) (buf : Bytes) (notes : List Note) : Prop :=
  (∀ other image, .answered txn other image ∉ notes) ∧
    ∀ other image dest, .response txn other image dest ∈ notes → other = status ∧ image = buf

/-- A server transaction that took its final: provisionals before, that final after. -/
structure Settled (txn status : ℕ) (buf : Bytes) (ledger : Ledger) : Prop where
  final : 200 ≤ status
  split : ∃ before after, ledger.journal = before ++ .answered txn status buf :: after ∧
    (∀ other image, .answered txn other image ∉ before) ∧
    (∀ other image dest, .response txn other image dest ∈ before → other < 200) ∧ Repeats txn status buf after
  owes : Repeats txn status buf ledger.owed
  done : ∀ key standing, ledger.servers key = some standing → standing.serial = txn → standing.state.isActive = false
  cached : ∀ key standing, ledger.servers key = some standing → standing.serial = txn →
    standing.cached = some (buf, status)
  held : ∀ key standing, ledger.servers key = some standing → standing.serial = txn →
    ∀ answers final, standing.answers = some answers → answers.terminated = some final → final.1 = buf ∧ status = 487

/-- A server transaction is unsettled, or settled by one final. -/
def Settles (txn : ℕ) (ledger : Ledger) : Prop := Unsettled txn ledger ∨ ∃ status buf, Settled txn status buf ledger

namespace Repeats

variable {txn status : ℕ} {buf : Bytes} {first second : List Note}

theorem append (left : Repeats txn status buf first) (right : Repeats txn status buf second) :
    Repeats txn status buf (first ++ second) := by
  refine ⟨fun other image member => ?_, fun other image dest member => ?_⟩
  · exact (List.mem_append.1 member).elim (left.1 other image) (right.1 other image)
  · exact (List.mem_append.1 member).elim (left.2 other image dest) (right.2 other image dest)

theorem of_silent (silent : Silent txn first) : Repeats txn status buf first :=
  ⟨silent.no_answer, fun other image dest member => absurd member (silent.no_response other image dest)⟩

theorem response (dest : SocketAddr) : Repeats txn status buf [.response txn status buf dest] := by
  refine ⟨fun other image member => ?_, fun other image dest member => ?_⟩
  · cases List.mem_singleton.1 member
  cases List.mem_singleton.1 member
  exact ⟨rfl, rfl⟩

end Repeats

/-- A settled transaction stays settled while all that is said of it is its final. -/
theorem Settled.extend {next : Ledger} (settled : Settled txn status buf ledger)
    (journal : next.journal = ledger.journal ++ notes) (isOwed : next.owed = owed)
    (said : Repeats txn status buf notes) (owes : Repeats txn status buf owed)
    (resident : ∀ key standing, next.servers key = some standing → standing.serial = txn →
      standing.state.isActive = false ∧ standing.cached = some (buf, status) ∧
        ∀ answers final, standing.answers = some answers → answers.terminated = some final → final.1 = buf ∧
          status = 487) :
    Settled txn status buf next where
  final := settled.final
  split := by
    obtain ⟨before, after, split, unanswered, below, repeats⟩ := settled.split
    refine ⟨before, after ++ notes, ?_, unanswered, below, repeats.append said⟩
    rw [journal, split, List.append_assoc, List.cons_append]
  owes := isOwed ▸ owes
  done key standing stands serial := (resident key standing stands serial).1
  cached key standing stands serial := (resident key standing stands serial).2.1
  held key standing stands serial := (resident key standing stands serial).2.2

theorem Provisionals.of_silent (silent : Silent txn notes) : Provisionals txn notes :=
  ⟨silent.no_answer, fun status buf dest member => absurd member (silent.no_response status buf dest)⟩

/-- An unsettled transaction stays unsettled while all that is said of it are provisionals. -/
theorem Unsettled.extend {next : Ledger} (unsettled : Unsettled txn ledger)
    (journal : next.journal = ledger.journal ++ notes) (isOwed : next.owed = ledger.owed ++ owed)
    (said : Provisionals txn notes) (owes : Silent txn owed)
    (resident : ∀ key standing, next.servers key = some standing → standing.serial = txn →
      standing.state.isActive = true ∧ (∀ buf status, standing.cached = some (buf, status) → status < 200) ∧
        ∀ answers, standing.answers = some answers → answers.terminated = none) :
    Unsettled txn next where
  unanswered status buf member := by
    rw [journal] at member
    exact (List.mem_append.1 member).elim (unsettled.unanswered status buf) (said.1 status buf)
  below status buf dest member := by
    rw [journal] at member
    exact (List.mem_append.1 member).elim (unsettled.below status buf dest) (said.2 status buf dest)
  owes_none status buf dest member := by
    rw [isOwed] at member
    exact (List.mem_append.1 member).elim (unsettled.owes_none status buf dest) (owes.no_response status buf dest)
  active key standing stands serial := (resident key standing stands serial).1
  cached key standing stands serial := (resident key standing stands serial).2.1
  held key standing stands serial := (resident key standing stands serial).2.2

/-- What says nothing of a transaction and leaves it as it stands does not settle or unsettle it. -/
theorem Settles.frame {next : Ledger} (settles : Settles txn ledger)
    (journal : next.journal = ledger.journal ++ notes) (isOwed : next.owed = ledger.owed ++ owed)
    (silent : Silent txn notes) (silentOwed : Silent txn owed)
    (resident : ∀ key standing, next.servers key = some standing → standing.serial = txn →
      ledger.servers key = some standing) : Settles txn next := by
  obtain unsettled | ⟨status, buf, settled⟩ := settles
  · refine .inl (unsettled.extend journal isOwed (.of_silent silent) silentOwed ?_)
    intro key standing stands serial
    have stood := resident key standing stands serial
    exact ⟨unsettled.active key standing stood serial, unsettled.cached key standing stood serial,
      unsettled.held key standing stood serial⟩
  · refine .inr ⟨status, buf, settled.extend journal isOwed (.of_silent silent)
      (settled.owes.append (.of_silent silentOwed)) ?_⟩
    intro key standing stands serial
    have stood := resident key standing stands serial
    exact ⟨settled.done key standing stood serial, settled.cached key standing stood serial,
      settled.held key standing stood serial⟩

/-! ### A move of the transaction itself -/

/-- Held answers without a 487 put nothing of the transaction on the wire. -/
theorem silent_sends (none : held.terminated = none) : Silent txn (held.sends txn) := by
  intro note member
  unfold UnsentCancel.sends at member
  rw [none] at member
  obtain ok | final := List.mem_append.1 member
  · obtain ⟨sent, _, rfl⟩ := Option.map_eq_some_iff.1 (Option.mem_toList.1 ok)
    nofun
  · cases final

theorem repeats_sends (taken : ∀ final, held.terminated = some final → final.1 = buf ∧ status = 487) :
    Repeats txn status buf (held.sends txn) := by
  unfold UnsentCancel.sends
  refine .append (.of_silent fun note member => ?_) ?_
  · obtain ⟨sent, _, rfl⟩ := Option.map_eq_some_iff.1 (Option.mem_toList.1 member)
    nofun
  cases terminated : held.terminated with
  | none => exact .of_silent (.nil txn)
  | some final =>
    obtain ⟨rfl, rfl⟩ := taken final terminated
    exact .response final.2

section Own

variable {ledger : Ledger} {key : ServerTxnKey} {standing : ServerStanding}

/-- The ledger after a move that keeps the transaction. -/
theorem resident_own (kept : ledger.Kept) (stands : ledger.servers key = some standing)
    {other : ServerTxnKey} {after : ServerStanding}
    (standsThen : (ledger.setServer key next).servers other = some after) (serial : after.serial = standing.serial) :
    next = some after := by
  obtain ⟨_, isNext⟩ | ⟨differ, stood⟩ := servers_of_setServer standsThen
  · exact isNext
  · exact absurd (kept.server_inj other key after standing stood stands serial) differ

theorem resident_each {holds : ServerStanding → Prop} (kept : ledger.Kept)
    (stands : ledger.servers key = some standing)
    (each : ∀ after, next = some after → holds after) (other : ServerTxnKey) (after : ServerStanding)
    (standsThen : (ledger.setServer key next).servers other = some after) (serial : after.serial = standing.serial) :
    holds after :=
  each after (resident_own kept stands standsThen serial)

/-- The notes of one response. -/
theorem Provisionals.once (below : status < 200)
    (sends : sent = [] ∨ ∃ dest, sent = [.response txn status buf dest]) : Provisionals txn sent := by
  obtain rfl | ⟨dest, rfl⟩ := sends
  · exact .of_silent (.nil txn)
  refine ⟨fun other image member => ?_, fun other image target member => ?_⟩
  · cases List.mem_singleton.1 member
  cases List.mem_singleton.1 member
  exact below

theorem Repeats.once
    (sends : sent = [] ∨ ∃ dest, sent = [.response txn status buf dest]) : Repeats txn status buf sent := by
  obtain rfl | ⟨dest, rfl⟩ := sends
  · exact .of_silent (.nil txn)
  · exact .response dest

/-- What is owed to others says no final of a transaction that sent none. -/
theorem Kept.owed_repeats (kept : ledger.Kept)
    (none : ∀ status buf dest, .response txn status buf dest ∉ ledger.owed) : Repeats txn status buf ledger.owed := by
  refine ⟨fun other image member => ?_, fun other image dest member => absurd member (none other image dest)⟩
  obtain ⟨_, _, _, isOk⟩ | ⟨_, _, _, isFinal⟩ := kept.owed_sends _ member
  · cases isOk
  · cases isFinal

theorem Unsettled.own (kept : ledger.Kept) (unsettled : Unsettled standing.serial ledger)
    (stands : ledger.servers key = some standing) (move : ServerMove standing next notes) :
    Settles standing.serial
      (((ledger.setServer key next).owe (leaving next standing.serial standing.answers)).say notes) := by
  have active := unsettled.active key standing stands rfl
  have cached := unsettled.cached key standing stands rfl
  have held := unsettled.held key standing stands rfl
  cases move with
  | provisional buf _ below sends =>
    refine .inl (unsettled.extend rfl rfl (.once below sends) (.nil _) (resident_each kept stands ?_))
    rintro _ ⟨⟩
    refine ⟨rfl, ?_, held⟩
    rintro image status isCached
    cases isCached
    exact below
  | @answers buf status state sent _ final done sends =>
    refine .inr ⟨status, buf, ?_⟩
    have resident {other : ServerTxnKey} {after : ServerStanding}
        (standsThen : (ledger.setServer key
          (some { standing with state, cached := some (buf, status) })).servers other =
          some after) (serial : after.serial = standing.serial) :
        after = { standing with state, cached := some (buf, status) } :=
      (Option.some.inj (resident_own kept stands standsThen serial)).symm
    exact
      { final := final
        split := ⟨ledger.journal, sent, rfl, unsettled.unanswered, unsettled.below, .once sends⟩
        owes := (kept.owed_repeats unsettled.owes_none).append (.of_silent (.nil _))
        done := fun other after standsThen serial => resident standsThen serial ▸ done
        cached := fun other after standsThen serial => resident standsThen serial ▸ rfl
        held := fun other after standsThen serial => by
          obtain rfl := resident standsThen serial
          intro answers taken isHeld isTaken
          cases (held answers isHeld).symm.trans isTaken }
  | @replays buf status dest isCached =>
    refine .inl (unsettled.extend rfl rfl (.once (cached buf status isCached) (.inr ⟨dest, rfl⟩)) (.nil _)
      (resident_each kept stands ?_))
    rintro _ ⟨⟩
    exact ⟨active, cached, held⟩
  | confirms completed =>
    rw [completed] at active
    cases active
  | holds answers taken =>
    refine .inl (unsettled.extend rfl rfl (.of_silent ?_) (.nil _) (resident_each kept stands ?_))
    · intro note member
      obtain rfl := List.mem_singleton.1 member
      nofun
    rintro _ ⟨⟩
    refine ⟨active, cached, fun heldNow isHeld => ?_⟩
    cases isHeld
    -- a 487 is held only by a transaction that took it
    cases terminated : answers.terminated with
    | none => rfl
    | some final => cases (taken final terminated).2.symm.trans active
  | sendsHeld holding =>
    refine .inl (unsettled.extend rfl rfl (.of_silent (silent_sends (held _ holding))) (.nil _)
      (resident_each kept stands ?_))
    rintro _ ⟨⟩
    exact ⟨active, cached, fun answers isHeld => by cases isHeld⟩
  | waives =>
    refine .inl (unsettled.extend rfl rfl (.of_silent (.nil _)) (.nil _) (resident_each kept stands ?_))
    rintro _ ⟨⟩
    refine ⟨active, cached, fun answers isHeld => ?_⟩
    obtain ⟨before, _, rfl⟩ := Option.map_eq_some_iff.1 isHeld
    rfl
  | leaves =>
    have owes : Silent standing.serial (owedBy standing.serial standing.answers) := by
      cases answers : standing.answers with
      | none => exact .nil _
      | some sent => exact silent_sends (held sent answers)
    refine .inl (unsettled.extend rfl rfl (.of_silent (.nil _)) owes (resident_each kept stands ?_))
    rintro _ ⟨⟩

theorem Settled.own (kept : ledger.Kept) (settled : Settled standing.serial status buf ledger)
    (stands : ledger.servers key = some standing) (move : ServerMove standing next notes) :
    Settled standing.serial status buf
      (((ledger.setServer key next).owe (leaving next standing.serial standing.answers)).say notes) := by
  have done := settled.done key standing stands rfl
  have cached := settled.cached key standing stands rfl
  have held := settled.held key standing stands rfl
  have owes : Repeats standing.serial status buf (ledger.owed ++ []) := settled.owes.append (.of_silent (.nil _))
  cases move with
  | provisional _ active | answers _ active => cases done.symm.trans active
  | @replays image other dest isCached =>
    cases isCached.symm.trans cached
    refine settled.extend rfl rfl (.response dest) owes (resident_each kept stands ?_)
    rintro _ ⟨⟩
    exact ⟨done, cached, held⟩
  | confirms completed =>
    refine settled.extend rfl rfl (.of_silent (.nil _)) owes (resident_each kept stands ?_)
    rintro _ ⟨⟩
    exact ⟨rfl, cached, held⟩
  | holds answers taken =>
    refine settled.extend rfl rfl (.of_silent ?_) owes (resident_each kept stands ?_)
    · intro note member
      obtain rfl := List.mem_singleton.1 member
      nofun
    rintro _ ⟨⟩
    refine ⟨done, cached, fun heldNow final isHeld terminated => ?_⟩
    cases isHeld
    obtain ⟨isBuf, isStatus⟩ := Prod.mk.inj (Option.some.inj ((taken final terminated).1.symm.trans cached))
    exact ⟨isBuf, isStatus.symm⟩
  | sendsHeld holding =>
    refine settled.extend rfl rfl (repeats_sends fun final terminated => held _ final holding terminated)
      owes (resident_each kept stands ?_)
    rintro _ ⟨⟩
    exact ⟨done, cached, fun answers final isHeld => by cases isHeld⟩
  | waives =>
    refine settled.extend rfl rfl (.of_silent (.nil _)) owes (resident_each kept stands ?_)
    rintro _ ⟨⟩
    refine ⟨done, cached, fun answers final isHeld terminated => ?_⟩
    obtain ⟨before, _, rfl⟩ := Option.map_eq_some_iff.1 isHeld
    cases terminated
  | leaves =>
    refine settled.extend rfl rfl (.of_silent (.nil _)) (settled.owes.append ?_) (resident_each kept stands ?_)
    · cases answers : standing.answers with
      | none => exact .of_silent (.nil _)
      | some sent => exact repeats_sends fun final terminated => held sent final answers terminated
    · rintro _ ⟨⟩

end Own

/-! ### Every step -/

/-- Nothing was said of a transaction not opened yet. -/
theorem Kept.unsaid (kept : ledger.Kept) :
    Silent ledger.opened ledger.journal ∧ Silent ledger.opened ledger.owed :=
  ⟨fun note member told => (kept.said_lt note member _ (Note.about_of_ofServer told)).false,
    fun note member told => (kept.owed_lt note member _ (Note.about_of_ofServer told)).false⟩

theorem ServerFresh.settles {standing : ServerStanding} (kept : ledger.Kept)
    (fresh : ledger.ServerFresh standing notes) (key : ServerTxnKey) :
    Settles standing.serial ((ledger.setServer key (some standing)).opens.say notes) := by
  obtain ⟨serial, _⟩ := Kept.freshServer_serial fresh
  obtain ⟨unsaid, unowed⟩ := kept.unsaid
  -- the fresh transaction is the only one of its serial
  have resident {other : ServerTxnKey} {after : ServerStanding}
      (standsThen : (ledger.setServer key (some standing)).servers other = some after)
      (same : after.serial = standing.serial) : after = standing := by
    obtain ⟨_, isNext⟩ | ⟨_, stood⟩ := servers_of_setServer standsThen
    · exact (Option.some.inj isNext).symm
    have earlier := kept.server_lt other after stood
    omega
  cases fresh with
  | active active =>
    rw [say_nil]
    refine .inl
      { unanswered := unsaid.no_answer
        below := fun status buf dest member => absurd member (unsaid.no_response status buf dest)
        owes_none := unowed.no_response
        active := fun other after standsThen same => resident standsThen same ▸ active
        cached := fun other after standsThen same => ?_
        held := fun other after standsThen same => ?_ }
    · obtain rfl := resident standsThen same
      exact fun buf status isCached => by cases isCached
    · obtain rfl := resident standsThen same
      exact fun answers isHeld => by cases isHeld
  | @answered kind state buf status done final =>
    refine .inr ⟨status, buf,
      { final := final
        split := ⟨ledger.journal, [], rfl, unsaid.no_answer,
          fun other image dest member => absurd member (unsaid.no_response other image dest), .of_silent (.nil _)⟩
        owes := .of_silent unowed
        done := fun other after standsThen same => resident standsThen same ▸ done
        cached := fun other after standsThen same => resident standsThen same ▸ rfl
        held := fun other after standsThen same => ?_ }⟩
    obtain rfl := resident standsThen same
    exact fun answers taken isHeld => by cases isHeld

theorem Settles.step (kept : ledger.Kept) (settles : Settles txn ledger)
    (stepped : Step leave ledger after) : Settles txn after := by
  cases stepped with
  | @aside note isAside =>
    refine settles.frame rfl (List.append_nil _).symm (fun other member told => ?_) (.nil txn)
      (fun _ _ stands _ => stands)
    obtain rfl := List.mem_singleton.1 member
    cases isAside.about.symm.trans (Note.about_of_ofServer told)
  | @client branch standing next notes stands move =>
    have owesNone : leaving next standing.serial standing.answers = [] := by
      rw [kept.no_answers branch standing stands]
      cases next <;> rfl
    rw [owesNone]
    exact settles.frame rfl rfl (move.silent txn) (.nil txn) (fun _ _ stands _ => stands)
  | clientOpens fresh displaced =>
    exact settles.frame (List.append_nil _).symm (List.append_nil _).symm (.nil txn) (.nil txn)
      (fun _ _ stands _ => stands)
  | @server key standing next notes stands move =>
    by_cases own : standing.serial = txn
    · subst own
      obtain unsettled | ⟨status, buf, settled⟩ := settles
      · exact unsettled.own kept stands move
      · exact .inr ⟨status, buf, settled.own kept stands move⟩
    refine settles.frame rfl rfl (.of_saidBy move.saidBy own) ?_ ?_
    · intro note isOwed
      cases next with
      | none => exact Silent.of_saidBy saidBy_owedBy own note isOwed
      | some later => cases isOwed
    · intro other later standsThen serial
      obtain ⟨_, rfl⟩ | ⟨_, stood⟩ := servers_of_setServer standsThen
      · exact absurd (move.same.1.symm.trans serial) own
      · exact stood
  | @serverOpens key standing notes fresh =>
    by_cases own : standing.serial = txn
    · subst own
      exact fresh.settles kept key
    refine settles.frame rfl (List.append_nil _).symm (.of_saidBy (Kept.freshServer_serial fresh).2 own) (.nil txn) ?_
    intro other later standsThen serial
    obtain ⟨_, isNext⟩ | ⟨_, stood⟩ := servers_of_setServer standsThen
    · cases isNext
      exact absurd serial own
    · exact stood
  | pays =>
    obtain unsettled | ⟨status, buf, settled⟩ := settles
    · have owed : Repeats txn 0 "" ledger.owed := kept.owed_repeats unsettled.owes_none
      refine .inl { unsettled with unanswered := ?_, below := ?_, owes_none := ?_ }
      · intro status buf member
        exact (List.mem_append.1 member).elim (unsettled.unanswered status buf) (owed.1 status buf)
      · intro status buf dest member
        exact (List.mem_append.1 member).elim (unsettled.below status buf dest)
          (fun isOwed => absurd isOwed (unsettled.owes_none status buf dest))
      · exact fun status buf dest member => absurd member List.not_mem_nil
    · refine .inr ⟨status, buf, settled.extend rfl rfl settled.owes (.of_silent (.nil txn)) ?_⟩
      intro key standing stands serial
      exact ⟨settled.done key standing stands serial, settled.cached key standing stands serial,
        settled.held key standing stands serial⟩

theorem Settles.steps (kept : ledger.Kept) (settles : Settles txn ledger)
    (moved : Steps leave ledger after) : Settles txn after := by
  induction moved with
  | refl => exact settles
  | tail earlier stepped ih => exact ih.step (kept.steps earlier) stepped

/-- The taking of a final splits the journal in one way. -/
theorem Settled.split_eq (settled : Settled txn status buf ledger)
    {said rest : List Note} (isSplit : ledger.journal = said ++ .answered txn other image :: rest) :
    other = status ∧ image = buf ∧ Repeats txn status buf rest := by
  obtain ⟨before, after, split, unanswered, _, repeats⟩ := settled.split
  rw [split] at isSplit
  obtain ⟨_, isAnswer, rfl⟩ :=
    (List.append_cons_inj_of_notMem (unanswered other image) (repeats.1 other image)).1 isSplit
  cases isAnswer
  exact ⟨rfl, rfl, repeats⟩

/-- Notes are only ever added. -/
theorem journal_extends (moved : Steps leave ledger after) :
    ∃ said, after.journal = ledger.journal ++ said := by
  induction moved with
  | refl => exact ⟨[], (List.append_nil _).symm⟩
  | @tail middle next _ stepped ih =>
    obtain ⟨said, extends_⟩ := ih
    have further {notes : List Note} : ∃ more, middle.journal ++ notes = ledger.journal ++ more :=
      ⟨said ++ notes, by rw [extends_, List.append_assoc]⟩
    cases stepped with
    | aside | client | server | serverOpens | pays => exact further
    | clientOpens fresh displaced => exact ⟨said, extends_⟩

/-- The finals a settled or unsettled transaction sent are one. -/
theorem Settles.finals_eq (settles : Settles txn ledger)
    {dest target : SocketAddr} (sent : .response txn status buf dest ∈ ledger.journal)
    (sentToo : .response txn other image target ∈ ledger.journal) (final : 200 ≤ status) (finalToo : 200 ≤ other) :
    status = other ∧ buf = image := by
  obtain unsettled | ⟨taken, kept, settled⟩ := settles
  · have below := unsettled.below status buf dest sent
    omega
  obtain ⟨before, after, split, _, below, repeats⟩ := settled.split
  -- a final is no provisional, so it was sent after one was taken
  have late {status : ℕ} {buf : Bytes} {dest : SocketAddr} (sent : .response txn status buf dest ∈ ledger.journal)
      (final : 200 ≤ status) : status = taken ∧ buf = kept := by
    rw [split] at sent
    obtain early | sent := List.mem_append.1 sent
    · have provisional := below status buf dest early
      omega
    obtain isAnswer | sent := List.mem_cons.1 sent
    · cases isAnswer
    · exact repeats.2 status buf dest sent
  obtain ⟨rfl, rfl⟩ := late sent final
  obtain ⟨rfl, rfl⟩ := late sentToo finalToo
  exact ⟨rfl, rfl⟩

end Ledger

namespace Owner

theorem settles_of_run {wire : Wire} {config : Config} {final : Owner} {events : List OwnerEvent}
    (ran : run (step wire) (.new config) events = some final) (txn : ℕ) : final.ledger.Settles txn := by
  refine Ledger.Settles.steps (new_kept config) ?_ (run_goes ran).moves
  refine .inl ?_
  constructor <;> simp [ledger, new]

/-- One final per server INVITE: all finals sent for it are the same datagram; what is sent after it took its
    final is that final; and once it stands in a state without a request, all it sends is the final it
    holds. -/
theorem one_final_per_server_invite {wire : Wire} {config : Config} {before later : List OwnerEvent}
    {middle final : Owner}
    {key : ServerTxnKey} {txn : Transaction} (reached : run (step wire) (.new config) before = some middle)
    (resident : middle.servers.get key = some txn) (ran : run (step wire) middle later = some final) :
    (∀ status buf dest other image target, .response txn.serial status buf dest ∈ final.journal →
      .response txn.serial other image target ∈ final.journal → 200 ≤ status → 200 ≤ other →
        status = other ∧ buf = image) ∧
    (∀ said status buf rest, final.journal = said ++ .answered txn.serial status buf :: rest →
      ∀ other image dest, .response txn.serial other image dest ∈ rest → 200 ≤ other ∧ other = status ∧ image = buf) ∧
    (txn.state.isActive = false → ∃ said, final.journal = middle.journal ++ said ∧
      ∀ status buf dest, .response txn.serial status buf dest ∈ said → 200 ≤ status ∧
        txn.cached = some (buf, status)) := by
  have settles : final.ledger.Settles txn.serial := settles_of_run ((run_append reached).trans ran) txn.serial
  refine ⟨fun status buf dest other image target sent sentToo => settles.finals_eq sent sentToo, ?_, ?_⟩
  · intro said status buf rest isSplit other image dest sent
    obtain unsettled | ⟨taken, kept, settled⟩ := settles
    · refine absurd ?_ (unsettled.unanswered status buf)
      change _ ∈ final.journal
      rw [isSplit]
      exact List.mem_append_right _ List.mem_cons_self
    · obtain ⟨rfl, rfl, repeats⟩ := settled.split_eq isSplit
      obtain ⟨rfl, rfl⟩ := repeats.2 other image dest sent
      exact ⟨settled.final, rfl, rfl⟩
  · intro done
    have stands := ledger_server resident
    obtain unsettled | ⟨status, buf, settled⟩ := settles_of_run reached txn.serial
    · cases done.symm.trans (unsettled.active key _ stands rfl)
    have cached : txn.cached = some (buf, status) := settled.cached key _ stands rfl
    obtain ⟨said, extends_⟩ := Ledger.journal_extends (run_goes ran).moves
    refine ⟨said, extends_, ?_⟩
    obtain ⟨early, after, split, _⟩ := settled.split
    have isSplit : final.ledger.journal = early ++ .answered txn.serial status buf :: (after ++ said) := by
      rw [extends_, split, List.append_assoc, List.cons_append]
    intro other image dest sent
    obtain unsettled | ⟨taken, kept, settledThen⟩ := settles
    · refine absurd ?_ (unsettled.unanswered status buf)
      rw [isSplit]
      exact List.mem_append_right _ List.mem_cons_self
    · obtain ⟨rfl, rfl, repeats⟩ := settledThen.split_eq isSplit
      obtain ⟨rfl, rfl⟩ := repeats.2 other image dest (List.mem_append_right _ sent)
      exact ⟨settled.final, cached⟩

/-- An INVITE as it comes from the network. -/
def sampleInvite : SipRequest :=
  ⟨.invite, ⟨some "b", "host", none, none, none⟩, 1, "call", some "from", none, none, [], false, "INVITE"⟩

def sampleConfig : Config := ⟨4, by decide, 180000, 4000, 200, 0, 0, false, false, .slab⟩

/-- It arrives and is cancelled. -/
def cancelledEvents : List OwnerEvent :=
  [.turn (.request sampleInvite 7 ⟨.admitted, false⟩),
    .turn (.request { sampleInvite with method := .cancel, image := "CANCEL" } 7 ⟨.admitted, false⟩)]

/-- An INVITE cancelled, then a copy of it: what leaves is the 487 it took. -/
theorem one_final_of_cancelled_invite :
    ∃ middle final txn, run (step .plain) (.new sampleConfig) cancelledEvents = some middle ∧
      middle.servers.get ⟨"b", "host", .invite⟩ = some txn ∧
      run (step .plain) middle [.turn (.request sampleInvite 7 ⟨.admitted, false⟩)] = some final ∧
      .response txn.serial 487 "Request Terminated" 7 ∈ final.journal ∧ txn.state.isActive = false ∧
      ∃ said, final.journal = middle.journal ++ said ∧
        ∀ status buf dest, .response txn.serial status buf dest ∈ said → 200 ≤ status ∧
          txn.cached = some (buf, status) := by
  refine ⟨_, _, _, rfl, rfl, rfl, ?_, rfl, ?_⟩
  · decide
  exact (@one_final_per_server_invite .plain sampleConfig cancelledEvents
    [.turn (.request sampleInvite 7 ⟨.admitted, false⟩)] _ _ ⟨"b", "host", .invite⟩ _ rfl rfl rfl).2.2 rfl

end Owner

end SipServer.Txn
