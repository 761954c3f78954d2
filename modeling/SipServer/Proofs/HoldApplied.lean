/-
Module: SipServer.Proofs.HoldApplied
Purpose: A held message is released as applied only once the peer applied, or refused, a frame of its call
  that stands for the write that recorded it, or the call's entry was forgotten.
-/
import SipServer.Proofs.HoldStream

namespace SipServer.Repl

open SipServer.Lib Watermark

variable {position : Watermark}

namespace Watermark

variable {operation : Changelog.Operation} {connection : Connection Body} {callRef : String}

theorem le_iff {left right : Watermark} :
    left ≤ right ↔ left.gen < right.gen ∨ left.gen = right.gen ∧ left.counter ≤ right.counter := Iff.rfl

theorem lt_iff {left right : Watermark} :
    left < right ↔ left.gen < right.gen ∨ left.gen = right.gen ∧ left.counter < right.counter := Iff.rfl

theorem le_trans {first second third : Watermark} (left : first ≤ second) (right : second ≤ third) :
    first ≤ third := by
  rw [le_iff] at *
  omega

theorem le_of_lt {left right : Watermark} (lt : left < right) : left ≤ right := by
  rw [lt_iff] at lt
  rw [le_iff]
  omega

theorem origin_le : origin ≤ position := by
  show 0 < position.gen ∨ 0 = position.gen ∧ 0 ≤ position.counter
  omega

/-- A position of an incarnation grows with its counter. -/
theorem le_of_counter_le {gen low high : ℕ} (below : position ≤ ⟨gen, low⟩) (le : low ≤ high) :
    position ≤ ⟨gen, high⟩ := le_trans below (.inr ⟨rfl, le⟩)

end Watermark

namespace Link

variable {Body : Type} {base reached : ℕ} {link : Link Body} {log : Changelog} {partition : Partition} {peer : String}
  {sent : Sent Body} {waiter : Waiter} {id counter : ℕ} {wire : List (Sent Body)} {next : Link Body}

/-! ### The invariant -/

/-- A frame standing for the entry reached the peer, or the entry was forgotten. -/
def Known (link : Link Body) (entry : ℕ × String) : Prop :=
  ∃ outcome ∈ link.outcomes, outcome.callRef = entry.2 ∧ entry.1 ≤ outcome.covers

/-- The entries toward the peer above `base`. -/
abbrev Owes (base : ℕ) (link : Link Body) : ℕ × String → Prop := Owed base link.log link.peer link.partition

/-- `reached` is the highest position the peer ever held: it knows every owed entry at or below it, and
    nothing was reported past it. -/
structure Sound (base reached : ℕ) (link : Link Body) : Prop where
  indexed : link.log.Indexed
  base_le : base ≤ reached
  reached_le : reached ≤ link.log.counter
  delivered : ∀ entry, link.Owes base entry → entry.1 ≤ reached → link.Known entry
  acked : ∀ sub, link.sub = some sub → sub.acked ≤ ⟨link.log.gen, reached⟩
  reports : ∀ id connection, link.connections.get id = some connection →
    ∀ report ∈ connection.reports, report ≤ ⟨link.log.gen, reached⟩
  position : link.position.gen = link.log.gen ∧ link.position.counter ≤ reached
  live : ∀ id connection, link.live = some id → link.connections.get id = some connection →
    Streams base link.log link.peer link.partition link.Known connection
  written : ∀ write ∈ link.writes, base < write.2 ∧ (link.Known (write.2, write.1) ∨
    ∃ state, link.log.stateOf link.peer link.partition write.1 = some state ∧ write.2 ≤ state.counter)
  waiter : ∀ waiter, link.waiter = some waiter → waiter.position.gen = link.log.gen ∧
    (waiter.callRef, waiter.target.counter) ∈ link.writes ∧
      (waiter.phase = .reached → link.log.hasApplied link.peer link.partition waiter.position = true)

namespace Sound

/-! ### What an operation on the log keeps -/

/-- An operation the link allows: it takes no acknowledgement back, reports only what the peer reached,
    forgets only what is noted as forgotten, and keeps the peer's log. -/
structure Allows (reached : ℕ) (link : Link Body) (operation : Changelog.Operation) : Prop where
  forward : ¬ operation.Rewinds
  reports : ∀ nowMs identity reported, operation = .report nowMs link.peer identity link.partition reported →
    reported ≤ ⟨link.log.gen, reached⟩
  forgets : ∀ callRef, operation = .forget link.peer link.partition callRef →
    ∀ state, link.log.stateOf link.peer link.partition callRef = some state → link.Known (state.counter, callRef)
  keeps : link.sub.isSome → ((link.log.step operation).sub link.peer link.partition).isSome

theorem Known.of_le {low high : ℕ} (known : link.Known (high, callRef)) (le : low ≤ high) :
    link.Known (low, callRef) := by
  obtain ⟨outcome, member, same, covered⟩ := known
  exact ⟨outcome, member, same, le.trans covered⟩

/-- An acknowledged position stays acknowledged. -/
theorem hasApplied_step (allows : Allows reached link operation)
    (applied : link.log.hasApplied link.peer link.partition position = true) :
    (link.log.step operation).hasApplied link.peer link.partition position = true := by
  unfold Changelog.hasApplied at applied ⊢
  rw [Option.any_eq_true] at applied ⊢
  obtain ⟨sub, found, le⟩ := applied
  obtain ⟨next, nextFound⟩ := Option.isSome_iff_exists.mp (allows.keeps (by rw [Link.sub, found]; rfl))
  refine ⟨next, nextFound, ?_⟩
  rw [decide_eq_true_eq] at le ⊢
  rcases Changelog.step_acked allows.forward nextFound with ⟨absent, -⟩ | ⟨before, beforeFound, same | raised⟩
  · cases absent.symm.trans found
  · cases found.symm.trans beforeFound
    exact same ▸ le
  · cases found.symm.trans beforeFound
    exact le_trans le (le_of_lt raised.1)

/-- An operation the link allows keeps the invariant. -/
theorem operated (sound : link.Sound base reached) (allows : Allows reached link operation) :
    Sound base reached { link with log := link.log.step operation } := by
  have gen := Changelog.step_gen link.log operation
  have grown := Changelog.step_counter link.log operation
  constructor
  case indexed => exact sound.indexed.step operation
  case base_le => exact sound.base_le
  case reached_le => exact sound.reached_le.trans grown
  case delivered =>
    intro entry owed le
    exact sound.delivered entry (owed.of_step sound.indexed (le.trans sound.reached_le)) le
  case acked =>
    intro next found
    rw [gen]
    rcases Changelog.step_acked allows.forward found with ⟨-, acked⟩ | ⟨sub, subFound, same | raised⟩
    · exact acked ▸ origin_le
    · exact same ▸ sound.acked sub subFound
    · obtain ⟨-, -, nowMs, identity, isReport⟩ := raised
      exact allows.reports nowMs identity _ isReport
  case reports =>
    rw [gen]
    exact sound.reports
  case position => exact ⟨sound.position.1.trans gen.symm, sound.position.2⟩
  case live =>
    exact fun id connection isLive found => (sound.live id connection isLive found).logged sound.indexed
      operation
  case written =>
    intro write member
    obtain ⟨above, known | ⟨state, found, le⟩⟩ := sound.written write member
    · exact ⟨above, .inl known⟩
    refine ⟨above, ?_⟩
    rcases Changelog.step_survives sound.indexed found with
      ⟨next, nextFound, moved⟩ | forgotten | dropped | ⟨sub, subFound, incarnation, applied⟩
    · exact .inr ⟨next, nextFound, le.trans moved⟩
    · exact .inl (Known.of_le (allows.forgets write.1 forgotten state found) le)
    · obtain ⟨sub, subFound, -⟩ := Option.bind_eq_some_iff.mp found
      have kept := allows.keeps (by rw [Link.sub, subFound]; rfl)
      rw [dropped] at kept
      cases kept
    · -- A reaped tombstone was acknowledged, so the peer had reached it.
      have below := le_iff.mp (sound.acked sub subFound)
      have atMost : state.counter ≤ reached := by
        dsimp only at below
        omega
      exact .inl (Known.of_le (sound.delivered (state.counter, write.1)
        ⟨above.trans_le le, state, found, rfl⟩ atMost) le)
  case waiter =>
    intro waiter found
    obtain ⟨incarnation, member, applied⟩ := sound.waiter waiter found
    exact ⟨incarnation.trans gen.symm, member, fun phase => hasApplied_step allows (applied phase)⟩

theorem allows_plain (plain : operation.Plain) : Allows reached link operation := by
  constructor
  case forward => cases operation <;> first | exact id | exact plain.elim
  case reports =>
    rintro nowMs identity reported rfl
    exact plain.elim
  case forgets =>
    rintro callRef rfl
    exact plain.elim
  case keeps =>
    apply Changelog.sub_isSome_step
    rintro nowMs rfl
    exact plain.elim

/-- An operation on another flow. -/
theorem allows_elsewhere
    (elsewhere : (operation.flowOf.any fun flow => decide (flow ≠ (link.peer, link.partition))) = true) :
    Allows reached link operation := by
  rw [Option.any_eq_true] at elsewhere
  obtain ⟨flow, isFlow, other⟩ := elsewhere
  rw [decide_eq_true_eq] at other
  constructor
  case forward =>
    cases operation with
    | coldPull | bind => cases isFlow
    | _ => exact id
  case reports =>
    rintro nowMs identity reported rfl
    exact absurd (Option.some.inj isFlow).symm other
  case forgets =>
    rintro callRef rfl
    exact absurd (Option.some.inj isFlow).symm other
  case keeps =>
    apply Changelog.sub_isSome_step
    rintro nowMs rfl
    cases isFlow

/-! ### What the other parts of a step keep -/

section

variable (sound : link.Sound base reached)

include sound

/-- More outcomes are noted. -/
theorem noted (outcome : Outcome) :
    Sound base reached { link with outcomes := outcome :: link.outcomes } := by
  have knowing : ∀ entry, link.Known entry → Known { link with outcomes := outcome :: link.outcomes } entry := by
    rintro entry ⟨known, member, covers⟩
    exact ⟨known, List.mem_cons_of_mem _ member, covers⟩
  exact { sound with
    delivered := fun entry owed le => knowing entry (sound.delivered entry owed le)
    live := fun id connection isLive found => (sound.live id connection isLive found).mono knowing
    written := fun write member => (sound.written write member).imp_right (Or.imp_left (knowing _)) }

/-- A write is noted that the log shows. -/
theorem wrote {state : RefState} (above : base < counter)
    (found : link.log.stateOf link.peer link.partition callRef = some state) (le : counter ≤ state.counter) :
    Sound base reached { link with writes := (callRef, counter) :: link.writes } :=
  { sound with
    written := List.forall_mem_cons.2 ⟨⟨above, .inr ⟨state, found, le⟩⟩, sound.written⟩
    waiter := fun waiter found => by
      obtain ⟨incarnation, member, applied⟩ := sound.waiter waiter found
      exact ⟨incarnation, List.mem_cons_of_mem _ member, applied⟩ }

/-- A connection changes: its reports stay at or below what the peer reached, and the one the peer reads
    streams. -/
theorem connected (reports : ∀ report ∈ connection.reports, report ≤ ⟨link.log.gen, reached⟩)
    (streams : link.live = some id → Streams base link.log link.peer link.partition link.Known connection) :
    Sound base reached { link with connections := link.connections.insert id connection } := by
  refine { sound with reports := fun other changed found => ?_, live := fun other changed isLive found => ?_ }
  · rcases KeyMap.of_get_insert found with ⟨-, rfl⟩ | ⟨-, found⟩
    · exact reports
    · exact sound.reports other changed found
  · rcases KeyMap.of_get_insert found with ⟨same, rfl⟩ | ⟨-, found⟩
    · exact streams (same ▸ isLive)
    · exact sound.live other changed isLive found

/-- The waiter changes. -/
theorem awaiting {waiter : Option Waiter}
    (sane : ∀ next, waiter = some next → next.position.gen = link.log.gen ∧
      (next.callRef, next.target.counter) ∈ link.writes ∧
        (next.phase = .reached → link.log.hasApplied link.peer link.partition next.position = true)) :
    Sound base reached { link with waiter := waiter } :=
  { sound with waiter := sane }

end

/-! ### One step -/

/-- A write toward the peer. -/
theorem write (sound : link.Sound base reached) (nowMs : ℤ) (callRef : String) (op : Op) (stated : Stated)
    (plain : Allows reached link operation)
    (bumps : link.log.step operation = (link.log.bump nowMs link.peer callRef op link.partition stated).1) :
    Sound base reached (link.write nowMs callRef op stated) := by
  have operated := sound.operated plain
  have found : ∃ state, (link.log.step operation).stateOf link.peer link.partition callRef = some state ∧
      link.log.counter + 1 ≤ state.counter := by
    rw [bumps, Changelog.stateOf, Changelog.sub_bump, if_pos rfl, if_pos rfl, Option.bind_some, SubLog.get_put,
      if_pos rfl]
    refine ⟨_, rfl, ?_⟩
    rw [SubLog.nextState_counter]
  obtain ⟨state, stateFound, le⟩ := found
  have above : base < link.log.counter + 1 := Nat.lt_succ_of_le (sound.base_le.trans sound.reached_le)
  have wrote := operated.wrote above stateFound le
  unfold Link.write
  dsimp only
  rw [← bumps]
  exact wrote

theorem allows_forget (known : ∀ state, link.log.stateOf link.peer link.partition callRef = some state →
      link.Known (state.counter, callRef)) :
    Allows reached link (.forget link.peer link.partition callRef) where
  forward rewinds := rewinds
  reports _ _ _ isReport := nomatch isReport
  forgets other isForget state found := by
    cases isForget
    exact known state found
  keeps := Changelog.sub_isSome_step nofun

/-- The entry of a call is noted as forgotten, then dropped. -/
theorem forget (sound : link.Sound base reached) (callRef : String) : Sound base reached (link.forget callRef) := by
  unfold Link.forget
  rw [Changelog.positionOf_eq]
  cases found : link.log.stateOf link.peer link.partition callRef with
  | none => exact sound.operated (allows_forget fun state present => nomatch found.symm.trans present)
  | some state =>
    have noted := sound.noted ⟨.forgotten, callRef, state.counter⟩
    apply noted.operated (allows_forget _)
    intro present presentFound
    cases found.symm.trans presentFound
    exact ⟨_, List.mem_cons_self, rfl, Nat.le_refl _⟩

/-- The peer opens a flow from the position it holds. -/
theorem pull (sound : link.Sound base reached) (nowMs : ℤ) (batch : ℕ) (warm : link.position ≠ .origin) :
    Sound base reached { link with
      log := link.log.pull nowMs link.peer link.identity link.partition link.position
      connections := link.connections.insert link.opened
        ⟨.opened link.peer link.partition batch link.position, [], [], true⟩
      opened := link.opened + 1
      live := some link.opened } := by
  let served := link.log.step (.serve nowMs link.peer link.partition)
  have isServed : link.log.pull nowMs link.peer link.identity link.partition link.position = served := by
    unfold Changelog.pull
    rw [if_neg warm]
    rfl
  have operated : Sound base reached { link with log := served } := sound.operated (allows_plain trivial)
  rw [isServed]
  refine { operated with reports := ?_, live := ?_ }
  · intro id connection found
    rcases KeyMap.of_get_insert found with ⟨-, rfl⟩ | ⟨-, found⟩
    · simp
    · exact operated.reports id connection found
  · rintro id connection ⟨⟩ found
    rw [KeyMap.get_insert, if_pos rfl] at found
    cases found
    apply Streams.opened batch warm
    · exact ⟨operated.position.1, operated.position.2.trans operated.reached_le⟩
    · exact fun entry owed le => operated.delivered entry owed (le.trans operated.position.2)

/-- What a frame brings, the peer knows once it took it. -/
theorem known_take {refused : Bool} {entry : ℕ × String} (known : link.Known entry ∨ (Item.sent sent).brings entry) :
    Known (link.take id connection sent wire refused) entry := by
  rcases known with ⟨outcome, member, covers⟩ | brought
  · exact ⟨outcome, List.mem_append_right _ member, covers⟩
  cases sent with
  | data built => exact ⟨_, List.mem_append_left _ List.mem_cons_self, brought⟩
  | noop | reset => exact brought.elim

/-- What the peer reports and where it stands after a frame is at or below the position the frame states, or
    where it stood. -/
theorem position_take {before : Watermark} (placed : (Item.sent sent).Placed log peer partition) :
    (∀ report ∈ reportOf sent, report ≤ ⟨log.gen, (Item.sent sent).counter⟩) ∧
      (positionAfter before sent = before ∨
        log.Places (positionAfter before sent) ∧ (positionAfter before sent).counter = (Item.sent sent).counter) := by
  cases sent with
  | data built =>
    refine ⟨?_, .inr ⟨placed, rfl⟩⟩
    intro report member
    obtain rfl := List.mem_singleton.mp member
    exact .inr ⟨placed.1, Nat.le_refl _⟩
  | noop position =>
    constructor
    · intro report member
      obtain rfl := List.mem_singleton.mp member
      exact .inr ⟨placed.1, Nat.le_refl _⟩
    · unfold positionAfter highest
      dsimp only
      split
      · exact .inr ⟨placed, rfl⟩
      · exact .inl rfl
  | reset => exact ⟨fun _ member => (nomatch member), .inl rfl⟩

/-- The peer takes a frame: what it announces was brought, by it or before. -/
theorem take (sound : link.Sound base reached) (refused : Bool) (isLive : link.live = some id)
    (found : link.connections.get id = some connection) (next : connection.wire = sent :: wire) :
    Sound base (max reached (Item.sent sent).counter) (link.take id connection sent wire refused) := by
  have raised : reached ≤ max reached (Item.sent sent).counter := le_max_left _ _
  obtain ⟨streams, announced, placed⟩ := (sound.live id connection isLive found).delivered next
  obtain ⟨reports, position⟩ := position_take placed
  constructor
  case indexed => exact sound.indexed
  case base_le => exact sound.base_le.trans raised
  case reached_le => exact max_le sound.reached_le placed.counter_le
  case delivered =>
    intro entry owed le
    apply known_take
    rcases le_max_iff.mp le with before | now
    · exact .inl (sound.delivered entry owed before)
    · exact announced entry owed now
  case acked => exact fun sub subFound => le_of_counter_le (sound.acked sub subFound) raised
  case reports =>
    intro other changed changedFound report member
    have earlier : ∀ kept : Connection Body, link.connections.get other = some kept →
        ∀ report ∈ kept.reports, report ≤ ⟨link.log.gen, max reached (Item.sent sent).counter⟩ :=
      fun kept keptFound report member =>
        le_of_counter_le (sound.reports other kept keptFound report member) raised
    change (link.connections.insert id _).get other = _ at changedFound
    rcases KeyMap.of_get_insert changedFound with ⟨same, rfl⟩ | ⟨-, changedFound⟩
    · rcases List.mem_append.mp member with old | new
      · exact earlier connection (same ▸ found) report old
      · exact le_of_counter_le (reports report new) (le_max_right _ _)
    · exact earlier changed changedFound report member
  case position =>
    show (positionAfter link.position sent).gen = _ ∧ (positionAfter link.position sent).counter ≤ _
    rcases position with same | ⟨places, counter⟩
    · rw [same]
      exact ⟨sound.position.1, sound.position.2.trans raised⟩
    · exact ⟨places.1, counter.le.trans (le_max_right _ _)⟩
  case live =>
    intro other changed otherLive changedFound
    cases isLive.symm.trans otherLive
    change (link.connections.insert id _).get id = _ at changedFound
    rw [KeyMap.get_insert, if_pos rfl] at changedFound
    cases changedFound
    exact streams.mono fun entry => known_take
  case written =>
    exact fun write member => (sound.written write member).imp_right
      (Or.imp_left fun known => known_take (.inl known))
  case waiter => exact sound.waiter

/-- The wait looks at the acknowledged position. -/
theorem check (sound : link.Sound base reached) (waiting : link.waiter = some waiter)
    (phase : waiter.phase = .waiting) :
    Sound base reached { link with waiter := some (waiter.check link.log link.peer link.partition) } := by
  obtain ⟨incarnation, member, -⟩ := sound.waiter waiter waiting
  apply sound.awaiting
  rintro next ⟨⟩
  unfold Waiter.check
  split
  · rename_i applied
    exact ⟨incarnation, member, fun _ => applied⟩
  split
  · exact ⟨incarnation, member, fun isReached => nomatch phase.symm.trans isReached⟩
  · exact ⟨incarnation, member, nofun⟩

theorem awaited_gen (incarnation : position.gen = log.gen) :
    (log.awaited peer partition callRef position).gen = log.gen := by
  unfold Changelog.awaited
  rw [Changelog.positionOf_eq]
  cases log.stateOf peer partition callRef with
  | none => exact incarnation
  | some state =>
    show (position.highest ⟨log.gen, state.counter⟩).gen = log.gen
    unfold highest
    split
    · rfl
    · exact incarnation

/-- The position was reached: the wait ends, or goes on to where the entry moved. -/
theorem recheck (sound : link.Sound base reached) (waiting : link.waiter = some waiter) :
    Sound base reached { link with waiter := some (waiter.recheck link.log link.peer link.partition) } := by
  obtain ⟨incarnation, member, -⟩ := sound.waiter waiter waiting
  apply sound.awaiting
  rintro next ⟨⟩
  unfold Waiter.recheck
  dsimp only
  split
  · exact ⟨incarnation, member, nofun⟩
  · exact ⟨awaited_gen incarnation, member, nofun⟩

/-- A message is held for a write toward the peer. -/
theorem hold (sound : link.Sound base reached) (written : (callRef, counter) ∈ link.writes) :
    Sound base reached { link with
      waiter := some (.start link.log link.peer link.partition callRef ⟨link.log.gen, counter⟩) } := by
  apply sound.awaiting
  rintro next ⟨⟩
  exact ⟨awaited_gen rfl, written, nofun⟩

/-- A reap that keeps the peer's log. -/
theorem allows_reap {nowMs : ℤ} (keeps : link.keepsPeer nowMs = true) : Allows reached link (.reap nowMs) where
  forward rewinds := rewinds
  reports _ _ _ isReport := nomatch isReport
  forgets _ isForget := nomatch isForget
  keeps isSome := by
    unfold sub Changelog.sub at isSome
    unfold keepsPeer at keeps
    rw [Bool.or_eq_true, Option.isNone_iff_eq_none] at keeps
    show (Option.map _ ((link.log.reap nowMs).peers.get link.peer)).isSome
    rw [Option.isSome_map]
    rcases keeps with absent | kept
    · rw [absent] at isSome
      cases isSome
    · exact kept

/-- A report of a position the peer reached. -/
theorem allows_report (nowMs : ℤ) (identity : Option String) {report : Watermark}
    (le : report ≤ ⟨link.log.gen, reached⟩) :
    Allows reached link (.report nowMs link.peer identity link.partition report) where
  forward rewinds := rewinds
  reports _ _ _ isReport := by
    cases isReport
    exact le
  forgets _ isForget := nomatch isForget
  keeps := Changelog.sub_isSome_step nofun

theorem leave (sound : link.Sound base reached) : Sound base reached { link with live := none } :=
  { sound with live := nofun }

/-- A step of a flow the node serves. -/
theorem flow (sound : link.Sound base reached) {event : FlowEvent Body}
    {moved : ServeFlow Body} {sent : List (Sent Body)} (found : link.connections.get id = some connection)
    (moves : ServeFlow.Moves link.log connection.flow event log moved sent) :
    Sound base reached { link with
      log := log
      connections := link.connections.insert id
        { connection with flow := moved, wire := connection.wire ++ sent } } := by
  have operated : Sound base reached { link with log := log } := by
    rcases moves.operation with rfl | ⟨operation, plain, rfl⟩
    · exact sound
    · exact sound.operated (allows_plain plain)
  apply operated.connected
  · exact operated.reports id connection found
  · exact fun isLive => (sound.live id connection isLive found).flowed sound.indexed moves

/-- Every step keeps the invariant; a frame the peer takes may raise what it reached. -/
theorem step (sound : link.Sound base reached) {event : Event Body}
    (stepped : link.step event = some next) : ∃ raised, next.Sound base raised := by
  cases event with
  | put nowMs callRef =>
    cases stepped
    have plain : Allows reached link (.put nowMs link.peer callRef link.partition) := allows_plain trivial
    exact ⟨reached, sound.write nowMs callRef .put .nothing plain rfl⟩
  | delete nowMs callRef answered incarnation =>
    cases stepped
    have plain : Allows reached link (.delete nowMs link.peer callRef link.partition answered incarnation) :=
      allows_plain trivial
    exact ⟨reached, sound.write nowMs callRef .delete ⟨answered, incarnation⟩ plain rfl⟩
  | elsewhere operation =>
    simp only [Link.step] at stepped
    split at stepped
    · rename_i elsewhere
      cases stepped
      exact ⟨reached, sound.operated (allows_elsewhere elsewhere)⟩
    · cases stepped
  | forget callRef =>
    cases stepped
    exact ⟨reached, sound.forget callRef⟩
  | reap nowMs =>
    simp only [Link.step] at stepped
    split at stepped
    · rename_i keeps
      cases stepped
      exact ⟨reached, sound.operated (allows_reap keeps)⟩
    · cases stepped
  | pull nowMs batch =>
    simp only [Link.step] at stepped
    split at stepped
    · cases stepped
    rename_i warm
    cases stepped
    exact ⟨reached, sound.pull nowMs batch warm⟩
  | flow id event =>
    simp only [Link.step] at stepped
    split at stepped
    · cases stepped
    rename_i connection found
    split at stepped
    · obtain ⟨⟨log, moved, sent⟩, flowed, rfl⟩ := Option.map_eq_some_iff.mp stepped
      exact ⟨reached, sound.flow found (ServeFlow.moves_of_step flowed)⟩
    · cases stepped
  | close id =>
    simp only [Link.step] at stepped
    split at stepped
    · cases stepped
    rename_i connection found
    split at stepped
    · cases stepped
      have plain : Allows reached link (.unserve link.peer link.partition) := allows_plain trivial
      have operated := sound.operated plain
      refine ⟨reached, operated.connected (operated.reports id connection found) ?_⟩
      exact fun isLive => (operated.live id connection isLive found).congr rfl rfl
    · cases stepped
  | leave =>
    cases stepped
    exact ⟨reached, sound.leave⟩
  | deliver refused =>
    simp only [Link.step] at stepped
    split at stepped
    · cases stepped
    rename_i id isLive
    split at stepped
    · cases stepped
    rename_i connection found
    split at stepped
    · cases stepped
    · cases stepped
    · rename_i sent wire _ onWire
      cases stepped
      exact ⟨_, sound.take refused isLive found onWire⟩
  | receive nowMs id =>
    simp only [Link.step] at stepped
    split at stepped
    · cases stepped
    rename_i connection found
    split at stepped
    · rename_i report reports _ pending
      cases stepped
      have reported := sound.reports id connection found
      rw [pending] at reported
      have operated := sound.operated (allows_report nowMs link.identity (reported report List.mem_cons_self))
      refine ⟨reached, operated.connected ?_ ?_⟩
      · intro later member
        have gen := Changelog.step_gen link.log (.report nowMs link.peer link.identity link.partition report)
        exact gen ▸ reported later (List.mem_cons_of_mem _ member)
      · exact fun isLive => (operated.live id connection isLive found).congr rfl rfl
    · cases stepped
  | hold callRef counter =>
    simp only [Link.step] at stepped
    split at stepped
    · rename_i written
      cases stepped
      exact ⟨reached, sound.hold written⟩
    · cases stepped
  | check =>
    simp only [Link.step] at stepped
    split at stepped
    · rename_i waiting
      cases stepped
      exact ⟨reached, sound.check waiting rfl⟩
    · cases stepped
  | recheck =>
    simp only [Link.step] at stepped
    split at stepped
    · rename_i waiting
      cases stepped
      exact ⟨reached, sound.recheck waiting⟩
    · cases stepped
  | giveUp =>
    cases stepped
    exact ⟨reached, sound.awaiting (by simp)⟩

end Sound

/-! ### The result -/

theorem start_sound {identity : Option String} (indexed : log.Indexed) (retained : counter ≤ log.counter)
    (acked : ∀ sub, log.sub peer partition = some sub → sub.acked ≤ log.head) :
    Sound log.counter log.counter (start log peer identity partition counter : Link Body) where
  indexed := indexed
  base_le := Nat.le_refl _
  reached_le := Nat.le_refl _
  delivered _ owed le := absurd owed.1 (Nat.not_lt.mpr le)
  acked := acked
  reports _ _ found := nomatch found
  position := ⟨rfl, retained⟩
  live _ _ isLive := nomatch isLive
  written _ member := nomatch member
  waiter _ found := nomatch found

/-- A wait that ends finds the call's entry, if there is one, at or below the position it waited for. -/
theorem le_of_awaited_eq {now : Watermark} (still : log.awaited peer partition callRef position = position)
    (found : log.positionOf peer partition callRef = some now) : now ≤ position := by
  simp only [Changelog.awaited, found, highest] at still
  split at still
  · exact still ▸ .inr ⟨rfl, Nat.le_refl _⟩
  rename_i notBelow
  rw [le_iff] at notBelow ⊢
  omega

/-- What a release stands on: the write's entry is known to the peer, and nothing of the call lies past what
    the peer reported. -/
theorem Sound.released (sound : link.Sound base reached) (stepped : link.step .recheck = some next)
    (found : next.waiter = some waiter) (released : waiter.phase = .released) :
    link.Known (waiter.target.counter, waiter.callRef) ∧
      ∀ now, link.log.positionOf link.peer link.partition waiter.callRef = some now →
        link.log.hasApplied link.peer link.partition now = true := by
  simp only [Link.step] at stepped
  split at stepped
  · rename_i callRef target position waiting
    cases stepped
    cases found
    obtain ⟨incarnation, member, applied⟩ := sound.waiter _ waiting
    unfold Waiter.recheck at released ⊢
    dsimp only at released incarnation applied member ⊢
    split at released
    · rename_i still
      rw [if_pos still]
      have acknowledged := applied rfl
      unfold Changelog.hasApplied at acknowledged ⊢
      simp only [Option.any_eq_true, decide_eq_true_eq] at acknowledged ⊢
      obtain ⟨sub, subFound, le⟩ := acknowledged
      have reachedAll := le_iff.mp (le_trans le (sound.acked sub subFound))
      constructor
      · obtain ⟨above, known | ⟨state, stateFound, atLeast⟩⟩ := sound.written _ member
        · exact known
        have position := (Changelog.positionOf_eq).trans (congrArg _ stateFound)
        have below := le_iff.mp (le_of_awaited_eq still position)
        have delivered := sound.delivered (state.counter, callRef) ⟨above.trans_le atLeast, state, stateFound, rfl⟩
        dsimp only at below reachedAll delivered
        exact Sound.Known.of_le (delivered (by omega)) atLeast
      · intro now isNow
        exact ⟨sub, subFound, le_trans (le_of_awaited_eq still isNow) le⟩
    · cases released
  · cases stepped

/-- Over any writes, deletes, drains, deliveries, reports, broken flows and warm reconnections: a held
    message of a call is released as applied only once a frame of the call that stands for the write that
    recorded it, or for a later one, was applied or refused by the peer, or the entry was forgotten; and then
    the call's entry, wherever compaction moved it, is not past the position the peer acknowledged. -/
theorem released_once_applied (gen : ℕ) (deadPeerTtlMs : ℤ) (history : List Changelog.Operation) (peer : String)
    (identity : Option String) (partition : Partition) (counter : ℕ) (events : List (Event Body))
    {next : Link Body} {waiter : Waiter} :
    let log := history.foldl Changelog.step (.new gen deadPeerTtlMs)
    counter ≤ log.counter →
    (∀ sub, log.sub peer partition = some sub → sub.acked ≤ log.head) →
    run step (start log peer identity partition counter) events = some link →
    link.step .recheck = some next →
    next.waiter = some waiter →
    waiter.phase = .released →
    (∃ outcome ∈ link.outcomes, outcome.callRef = waiter.callRef ∧ waiter.target.counter ≤ outcome.covers) ∧
      ∀ now, link.log.positionOf link.peer link.partition waiter.callRef = some now →
        link.log.hasApplied link.peer link.partition now = true := by
  intro log retained acked ran stepped found released
  have indexed : log.Indexed := Changelog.Indexed.foldl history Changelog.new_indexed
  have invariant : ∃ reached, link.Sound log.counter reached := by
    apply run_invariant (fun link : Link Body => ∃ reached, link.Sound log.counter reached) _ ran
    · exact ⟨log.counter, start_sound indexed retained acked⟩
    rintro state event after ⟨reached, sound⟩ stepEq
    exact sound.step stepEq
  obtain ⟨reached, sound⟩ := invariant
  exact sound.released stepped found released

/-- A message held for the first write is released after the peer applied its frame and reported. -/
theorem release_after_first_frame :
    ∃ link next waiter, run Link.step (start (.new 7 60000) "w1" none .bak 0)
        [.put 0 "call", .pull 0 500, .flow 0 .start, .flow 0 .snapshot, .flow 0 (.read (some ⟨(), none⟩)),
          .flow 0 .send, .hold "call" 1, .deliver false, .receive 0 0, .check] = some link ∧
      link.step .recheck = some next ∧ next.waiter = some waiter ∧ waiter.phase = .released ∧
      (∃ outcome ∈ link.outcomes, outcome.callRef = waiter.callRef ∧ waiter.target.counter ≤ outcome.covers) := by
  refine ⟨_, _, _, rfl, rfl, rfl, rfl, ?_⟩
  exact (released_once_applied 7 60000 [] "w1" none .bak 0
    [.put 0 "call", .pull 0 500, .flow 0 .start, .flow 0 .snapshot, .flow 0 (.read (some ⟨(), none⟩)),
      .flow 0 .send, .hold "call" 1, .deliver false, .receive 0 0, .check]
    (by decide) (by rintro _ ⟨⟩) rfl rfl rfl rfl).1

end Link

end SipServer.Repl
