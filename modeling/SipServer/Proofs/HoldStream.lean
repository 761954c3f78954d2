/-
Module: SipServer.Proofs.HoldStream
Purpose: What a warm connection carries: no frame on its way to the peer, and no entry still to be read,
  claims a position below which an entry is owed that neither it nor anything before it brings.
-/
import SipServer.Lib.Pipeline
import SipServer.Proofs.FlowMoves
import SipServer.Repl.Hold

namespace SipServer.Repl

open SipServer.Lib

variable {Body : Type}

/-! ### Operations on another flow -/

section Elsewhere

variable {operation : Changelog.Operation} {peer : String} {partition : Partition}

theorem Changelog.Operation.apart
    (elsewhere : (operation.flowOf.any fun flow => decide (flow ≠ (peer, partition))) = true) :
    operation.flowOf ≠ some (peer, partition) := by
  intro isFlow
  rw [isFlow, Option.any_some, decide_eq_true_eq] at elsewhere
  exact elsewhere rfl

/-- An operation on another flow writes and drops no entry of this one. -/
theorem Changelog.Operation.not_remarks
    (elsewhere : (operation.flowOf.any fun flow => decide (flow ≠ (peer, partition))) = true) :
    ¬ operation.Remarks peer partition := by
  have apart := operation.apart elsewhere
  intro remarks
  cases operation with
  | put | delete | forget =>
    obtain ⟨rfl, rfl⟩ := remarks
    exact apart rfl
  | reap => cases elsewhere
  | drain | scan | coldPull | report | bind | serve | unserve => exact remarks

end Elsewhere

/-! ### Items on their way to the peer -/

/-- What is on its way to the peer: something sent, a frame built, or an entry whose body is still to be
    read. -/
inductive Item (Body : Type) where
  | sent (sent : Sent Body)
  | unread (due : Due)

/-- The counter of the position an item states; a reset states none. -/
def Item.counter : Item Body → ℕ
  | .sent (.data built) => built.frame.position.counter
  | .sent (.noop position) => position.counter
  | .sent .reset => 0
  | .unread due => due.counter

/-- The entry of call `.2` at counter `.1` lies at or below the position the item states. -/
def Item.announces (item : Item Body) (entry : ℕ × String) : Prop := entry.1 ≤ item.counter

/-- The item's contents stand for the entry. -/
def Item.brings : Item Body → ℕ × String → Prop
  | .sent (.data built), entry => built.frame.callRef = entry.2 ∧ entry.1 ≤ built.covers
  | .sent (.noop _), _ => False
  | .sent .reset, _ => False
  | .unread due, entry => due.callRef = entry.2 ∧ entry.1 ≤ due.counter

/-- What a phase of the tail still has to send. -/
def Phase.items : Phase Body → List (Item Body)
  | .read due built => built.map (fun built => .sent (.data built)) ++ due.map .unread
  | .vanished due _ rest built => built.map (fun built => .sent (.data built)) ++ .unread due :: rest.map .unread
  | .send frames _ => frames.map fun built => .sent (.data built)
  | _ => []

theorem Phase.items_reading (due : List Due) (built : List (Built Body)) :
    (Phase.reading due built).items = built.map (fun built => .sent (.data built)) ++ due.map .unread := by
  cases due with
  | nil => exact (List.append_nil _).symm
  | cons next rest => rfl

/-- A phase of a flow opened warm, whose cursor stands at `cursor`. -/
def Phase.Warm (cursor : Watermark) : Phase Body → Prop
  | .starting since => since = cursor ∧ since ≠ .origin
  | .vanished due readAt _ _ => due.op = .put ∧ due.counter ≤ readAt
  | .drain => True
  | .read _ _ => True
  | .send _ _ => True
  | .idle => True
  | .ended => True
  | _ => False

theorem Phase.warm_reading (cursor : Watermark) (due : List Due) (built : List (Built Body)) :
    (Phase.reading due built).Warm cursor := by
  cases due <;> trivial

/-! ### What the log owes the peer -/

/-- An entry the sub-log holds above counter `base`. -/
def Owed (base : ℕ) (log : Changelog) (peer : String) (partition : Partition) (entry : ℕ × String) : Prop :=
  base < entry.1 ∧ ∃ state, log.stateOf peer partition entry.2 = some state ∧ state.counter = entry.1

/-- A position of the log's incarnation that is not past its head. -/
def Changelog.Places (log : Changelog) (position : Watermark) : Prop :=
  position.gen = log.gen ∧ position.counter ≤ log.counter

/-- The item states a position the log has reached; an entry still to be read is its call's, or was replaced
    by a later one. -/
def Item.Placed (log : Changelog) (peer : String) (partition : Partition) : Item Body → Prop
  | .sent (.data built) => log.Places built.frame.position
  | .sent (.noop position) => log.Places position
  | .sent .reset => True
  | .unread due => due.counter ≤ log.counter ∧
      ∀ state, log.stateOf peer partition due.callRef = some state →
        due.counter < state.counter ∨ state.counter = due.counter ∧ state.op = due.op

section Logged

variable {base : ℕ} {log : Changelog} {peer : String} {partition : Partition} {item : Item Body}

/-- No operation brings an entry below the head back. -/
theorem Owed.of_step (indexed : log.Indexed) {operation : Changelog.Operation} {entry : ℕ × String}
    (owed : Owed base (log.step operation) peer partition entry) (le : entry.1 ≤ log.counter) :
    Owed base log peer partition entry := by
  obtain ⟨above, next, found, at_⟩ := owed
  rcases Changelog.step_states indexed found with ⟨state, stateFound, same, -⟩ | later
  · exact ⟨above, state, stateFound, same.trans at_⟩
  · omega

theorem Changelog.Places.step {position : Watermark} (places : log.Places position)
    (operation : Changelog.Operation) : (log.step operation).Places position :=
  ⟨places.1.trans (Changelog.step_gen log operation).symm, places.2.trans (Changelog.step_counter log operation)⟩

theorem Item.Placed.step (indexed : log.Indexed) (placed : item.Placed log peer partition)
    (operation : Changelog.Operation) : item.Placed (log.step operation) peer partition := by
  match item with
  | .sent (.data built) => exact Changelog.Places.step placed operation
  | .sent (.noop position) => exact Changelog.Places.step placed operation
  | .sent .reset => trivial
  | .unread due =>
    refine ⟨placed.1.trans (Changelog.step_counter log operation), ?_⟩
    intro next found
    rcases Changelog.step_states indexed found with ⟨state, stateFound, counters, ops⟩ | later
    · rw [← counters, ← ops]
      exact placed.2 state stateFound
    · exact .inl (placed.1.trans_lt later)

theorem Item.Placed.counter_le (placed : item.Placed log peer partition) : item.counter ≤ log.counter := by
  match item with
  | .sent (.data built) => exact placed.2
  | .sent (.noop position) => exact placed.2
  | .sent .reset => exact Nat.zero_le _
  | .unread due => exact placed.1

end Logged

/-- The first test of a flow opened warm resets the peer or starts the tail where the peer stands. -/
theorem ServeFlow.start_warm (flow : ServeFlow Body) {log : Changelog} {since : Watermark}
    (notOrigin : since ≠ .origin) (incarnation : since.gen = log.gen) :
    flow.start log since = ({ flow with phase := .ended }, [.reset]) ∨
      flow.start log since = ({ flow with cursor := since, phase := .drain }, []) := by
  unfold start
  split
  · exact .inl rfl
  right
  rw [if_neg (Nat.not_lt.mpr incarnation.ge)]

/-! ### The invariant of the connection the peer reads -/

/-- Everything still on its way on this connection. -/
def Connection.items (connection : Connection Body) : List (Item Body) :=
  connection.wire.map .sent ++ connection.flow.phase.items

/-- The connection of a warm flow, toward a peer that knows `known`. -/
structure Streams (base : ℕ) (log : Changelog) (peer : String) (partition : Partition)
    (known : ℕ × String → Prop) (connection : Connection Body) : Prop where
  flow : connection.flow.peer = peer ∧ connection.flow.partition = partition
  warm : connection.flow.phase.Warm connection.flow.cursor
  cursor : log.Places connection.flow.cursor
  behind : ∀ entry, Owed base log peer partition entry → entry.1 ≤ connection.flow.cursor.counter →
    known entry ∨ Brought Item.brings (connection.wire.map .sent) entry
  covers : Covers Item.announces Item.brings (Owed base log peer partition) known connection.items
  placed : ∀ item ∈ connection.items, item.Placed log peer partition

namespace Streams

variable {base : ℕ} {log : Changelog} {peer : String} {partition : Partition} {known : ℕ × String → Prop}
  {connection : Connection Body} {since : Watermark}

/-- No operation on the log disturbs what is on its way. -/
theorem logged (indexed : log.Indexed) (streams : Streams base log peer partition known connection)
    (operation : Changelog.Operation) : Streams base (log.step operation) peer partition known connection where
  flow := streams.flow
  warm := streams.warm
  cursor := streams.cursor.step operation
  behind entry owed le := streams.behind entry (owed.of_step indexed (le.trans streams.cursor.2)) le
  covers := by
    apply streams.covers.mono
    · intro item member entry owed announced
      exact owed.of_step indexed (le_trans announced (streams.placed item member).counter_le)
    · exact fun _ _ before => before
  placed item member := (streams.placed item member).step indexed operation

/-- A peer that knows more may read on. -/
theorem mono {known' : ℕ × String → Prop} (streams : Streams base log peer partition known connection)
    (knowing : ∀ entry, known entry → known' entry) : Streams base log peer partition known' connection where
  flow := streams.flow
  warm := streams.warm
  cursor := streams.cursor
  behind entry owed le := (streams.behind entry owed le).imp_left (knowing entry)
  covers := streams.covers.mono (fun _ _ _ owed _ => owed) (fun entry _ => knowing entry)
  placed := streams.placed

/-- A connection just opened from a position below which the peer knows everything. -/
theorem opened (batch : ℕ) (warm : since ≠ .origin) (places : log.Places since)
    (knows : ∀ entry, Owed base log peer partition entry → entry.1 ≤ since.counter → known entry) :
    Streams base log peer partition known (⟨.opened peer partition batch since, [], [], true⟩ : Connection Body) where
  flow := ⟨rfl, rfl⟩
  warm := ⟨rfl, warm⟩
  cursor := places
  behind entry owed le := .inl (knows entry owed le)
  covers := trivial
  placed _ member := nomatch member

/-- A tail just entered at the position `w` every frame on the wire states: every entry above it is still to
    be drained. -/
theorem scanned {w : Watermark} (toward : connection.flow.peer = peer ∧ connection.flow.partition = partition)
    (places : log.Places w) (phase : connection.flow.phase = .drain) (cursor : connection.flow.cursor = w)
    (wireAt : ∀ sent ∈ connection.wire, ∃ built, sent = .data built ∧ built.frame.position = w) :
    Streams w.counter log peer partition known connection := by
  have items : connection.items = connection.wire.map .sent := by
    unfold Connection.items
    rw [phase]
    exact List.append_nil _
  constructor
  case flow => exact toward
  case warm =>
    rw [phase]
    trivial
  case cursor => exact cursor ▸ places
  case behind =>
    intro entry owed le
    rw [cursor] at le
    exact absurd owed.1 (Nat.not_lt.mpr le)
  case covers =>
    rw [items]
    apply covers_of_silent
    intro item member entry owed announced
    obtain ⟨sent, isSent, rfl⟩ := List.mem_map.mp member
    obtain ⟨built, rfl, position⟩ := wireAt sent isSent
    rw [Item.announces, Item.counter, position] at announced
    exact absurd owed.1 (Nat.not_lt.mpr announced)
  case placed =>
    rw [items]
    intro item member
    obtain ⟨sent, isSent, rfl⟩ := List.mem_map.mp member
    obtain ⟨built, rfl, position⟩ := wireAt sent isSent
    show log.Places built.frame.position
    exact position ▸ places

section

variable (streams : Streams base log peer partition known connection)

include streams

/-- Only the flow and the wire matter. -/
theorem congr {next : Connection Body} (flow : next.flow = connection.flow) (wire : next.wire = connection.wire) :
    Streams base log peer partition known next := by
  have items : next.items = connection.items := by rw [Connection.items, Connection.items, flow, wire]
  constructor
  case flow => exact flow ▸ streams.flow
  case warm => exact flow ▸ streams.warm
  case cursor => exact flow ▸ streams.cursor
  case behind => exact flow ▸ wire ▸ streams.behind
  case covers => exact items ▸ streams.covers
  case placed => exact items ▸ streams.placed

/-- The peer takes the next frame: it knows what the frame stands for, and every entry at or below the
    position the frame states. -/
theorem delivered {sent : Sent Body} {wire : List (Sent Body)} {reports : List Watermark}
    (next : connection.wire = sent :: wire) :
    Streams base log peer partition (fun entry => known entry ∨ (Item.sent sent).brings entry)
        { connection with wire := wire, reports := reports } ∧
      (∀ entry, Owed base log peer partition entry → (Item.sent sent).announces entry →
        known entry ∨ (Item.sent sent).brings entry) ∧
      (Item.sent sent).Placed log peer partition := by
  have items : connection.items =
      .sent sent :: ({ connection with wire := wire, reports := reports } : Connection Body).items := by
    rw [Connection.items, next]
    rfl
  have covers := items ▸ streams.covers
  have placed := items ▸ streams.placed
  refine ⟨⟨streams.flow, streams.warm, streams.cursor, ?_, covers.2, ?_⟩, covers.1, ?_⟩
  · intro entry owed le
    have behind := streams.behind entry owed le
    rw [next] at behind
    simpa [Brought, or_assoc] using behind
  · exact fun item member => placed item (List.mem_cons_of_mem _ member)
  · exact placed _ List.mem_cons_self

end

/-! ### The flow moves on -/

/-- The connection after its flow moved to `flow` and sent `sent`. -/
def carried (connection : Connection Body) (flow : ServeFlow Body) (sent : List (Sent Body)) : Connection Body :=
  { connection with flow := flow, wire := connection.wire ++ sent }

theorem items_carried (connection : Connection Body) (flow : ServeFlow Body) (sent : List (Sent Body)) :
    (carried connection flow sent).items = connection.wire.map .sent ++ (sent.map .sent ++ flow.phase.items) := by
  unfold carried Connection.items
  rw [List.map_append, List.append_assoc]

/-- The flow `flow` differs from the connection's at most in its phase and its flags. -/
def SameFlow (connection : Connection Body) (flow : ServeFlow Body) : Prop :=
  flow.peer = connection.flow.peer ∧ flow.partition = connection.flow.partition ∧
    flow.cursor = connection.flow.cursor

section

variable (streams : Streams base log peer partition known connection) {flow : ServeFlow Body}

include streams

/-- The flow sends nothing and moves to a phase whose items cover the same entries. -/
theorem rephased (same : SameFlow connection flow) (warm : flow.phase.Warm flow.cursor)
    (covers : Covers Item.announces Item.brings (Owed base log peer partition) known
      (connection.wire.map .sent ++ flow.phase.items))
    (placed : ∀ item ∈ flow.phase.items, item.Placed log peer partition) :
    Streams base log peer partition known (carried connection flow []) := by
  have items := items_carried connection flow []
  constructor
  case flow => exact ⟨same.1.trans streams.flow.1, same.2.1.trans streams.flow.2⟩
  case warm => exact warm
  case cursor => exact same.2.2 ▸ streams.cursor
  case behind =>
    have wire : (carried connection flow []).wire = connection.wire := List.append_nil _
    rw [wire]
    exact same.2.2 ▸ streams.behind
  case covers => exact items ▸ covers
  case placed =>
    rw [items]
    intro item member
    rcases List.mem_append.mp member with onWire | inPhase
    · exact streams.placed item (List.mem_append_left _ onWire)
    · exact placed item inPhase

/-- A phase with nothing to send. -/
theorem emptied (same : SameFlow connection flow) (warm : flow.phase.Warm flow.cursor)
    (empty : flow.phase.items = []) :
    Streams base log peer partition known (carried connection flow []) := by
  apply streams.rephased same warm
  · rw [empty, List.append_nil]
    exact (covers_append.mp streams.covers).1
  · rw [empty]
    exact nofun

/-- The flow sends an item that brings nothing and announces only what lies behind the cursor. -/
theorem announced {sent : Sent Body} (same : SameFlow connection flow) (warm : flow.phase.Warm flow.cursor)
    (empty : flow.phase.items = [])
    (behind : ∀ entry, (Item.sent sent).announces entry → entry.1 ≤ connection.flow.cursor.counter)
    (placed : (Item.sent sent).Placed log peer partition) :
    Streams base log peer partition known (carried connection flow [sent]) := by
  have items := items_carried connection flow [sent]
  rw [empty, List.append_nil] at items
  constructor
  case flow => exact ⟨same.1.trans streams.flow.1, same.2.1.trans streams.flow.2⟩
  case warm => exact warm
  case cursor => exact same.2.2 ▸ streams.cursor
  case behind =>
    intro entry owed le
    rcases streams.behind entry owed (same.2.2 ▸ le) with before | ⟨item, member, brought⟩
    · exact .inl before
    refine .inr ⟨item, ?_, brought⟩
    show item ∈ (connection.wire ++ [sent]).map _
    rw [List.map_append]
    exact List.mem_append_left _ member
  case covers =>
    rw [items, covers_append]
    refine ⟨(covers_append.mp streams.covers).1, ?_, trivial⟩
    intro entry owed isAnnounced
    exact .inl (streams.behind entry owed (behind entry isAnnounced))
  case placed =>
    rw [items]
    intro item member
    rcases List.mem_append.mp member with onWire | isSent
    · exact streams.placed item (List.mem_append_left _ onWire)
    obtain rfl := List.mem_singleton.mp isSent
    exact placed

/-- The first test of a warm flow resets the peer or starts the tail at the cursor. -/
theorem started (phase : connection.flow.phase = .starting since) :
    Streams base log peer partition known
      (carried connection (connection.flow.start log since).1 (connection.flow.start log since).2) := by
  have warm := streams.warm
  rw [phase] at warm
  obtain ⟨rfl, notOrigin⟩ := warm
  rcases connection.flow.start_warm notOrigin streams.cursor.1 with reset | drains
  · rw [reset]
    exact streams.announced ⟨rfl, rfl, rfl⟩ trivial rfl (fun _ none => le_trans none (Nat.zero_le _)) trivial
  · rw [drains]
    exact streams.emptied ⟨rfl, rfl, rfl⟩ trivial rfl

end

/-- A drain's snapshot covers what it announces: the entries behind the cursor, and those it snapshotted. -/
theorem snapshotted (indexed : log.Indexed) (streams : Streams base log peer partition known connection) (limit : ℕ) :
    Streams base log peer partition known
      (carried connection { connection.flow with
        phase := .reading (log.drain peer partition connection.flow.cursor limit).2 [] } []) := by
  have drained : log.Drained peer partition connection.flow.cursor.counter _ := indexed.drained streams.cursor.1 limit
  generalize (log.drain peer partition connection.flow.cursor limit).2 = dues at drained ⊢
  have items : (Phase.reading dues ([] : List (Built Body))).items = dues.map .unread := Phase.items_reading dues []
  refine streams.rephased ⟨rfl, rfl, rfl⟩ (Phase.warm_reading _ _ _) ?_ ?_
  · rw [items, covers_append]
    refine ⟨(covers_append.mp streams.covers).1, ?_⟩
    apply covers_of_ascending Item.counter
    · rw [List.pairwise_map]
      exact drained.ascending
    intro item member entry owed isAnnounced
    obtain ⟨due, dueMember, rfl⟩ := List.mem_map.mp member
    by_cases passed : entry.1 ≤ connection.flow.cursor.counter
    · exact .inl (streams.behind entry owed passed)
    obtain ⟨-, state, found, at_⟩ := owed
    obtain ⟨source, sourceMember, counter, callRef⟩ := drained.complete entry.2 state found
      (at_ ▸ Nat.lt_of_not_le passed) due dueMember (at_ ▸ isAnnounced)
    have same : source.counter = entry.1 := counter.trans at_
    refine .inr ⟨.unread source, List.mem_map_of_mem sourceMember, ⟨callRef, same.ge⟩, ?_⟩
    exact same.le.trans isAnnounced
  · rw [items]
    intro item member
    obtain ⟨due, dueMember, rfl⟩ := List.mem_map.mp member
    obtain ⟨state, found, at_, op⟩ := drained.states due dueMember
    refine ⟨at_ ▸ indexed.state_le found, ?_⟩
    intro other otherFound
    cases found.symm.trans otherFound
    exact .inr ⟨at_, op⟩

section Reading

variable {due : Due} {rest : List Due} {built : List (Built Body)}

/-- The items of a phase that comes to `due` next, after the frames `built`. -/
def comesTo (due : Due) (rest : List Due) (built : List (Built Body)) : List (Item Body) :=
  built.map (fun built => .sent (.data built)) ++ .unread due :: rest.map .unread

section

variable (streams : Streams base log peer partition known connection)

include streams

section

variable (phase : connection.flow.phase.items = comesTo due rest built)

include phase

/-- A frame of its call at its position takes the place of the entry. -/
theorem replaced {frame : DataFrame Body} {covers : ℕ}
    (position : frame.position = ⟨log.gen, due.counter⟩) (callRef : frame.callRef = due.callRef)
    (le : due.counter ≤ covers) :
    Streams base log peer partition known (carried connection
      { connection.flow with phase := .reading rest (built ++ [⟨frame, covers⟩]) } []) := by
  have before := streams.covers
  have placed := streams.placed
  rw [Connection.items, phase, comesTo, ← List.append_assoc] at before placed
  have items : (Phase.reading rest (built ++ [⟨frame, covers⟩])).items =
      built.map (fun built => .sent (.data built)) ++ .sent (.data ⟨frame, covers⟩) :: rest.map .unread := by
    rw [Phase.items_reading, List.map_append, List.append_assoc]
    rfl
  refine streams.rephased ⟨rfl, rfl, rfl⟩ (Phase.warm_reading _ _ _) ?_ ?_
  · rw [items, ← List.append_assoc]
    apply before.replace
    · intro entry isAnnounced
      rw [Item.announces, Item.counter, position] at isAnnounced
      exact isAnnounced
    · intro entry owed brought
      exact ⟨callRef.trans brought.1, brought.2.trans le⟩
  · rw [items]
    intro item member
    rcases List.mem_append.mp member with sent | next
    · exact placed item (List.mem_append_left _ (List.mem_append_right _ sent))
    cases next with
    | head =>
      have due := placed (.unread due) (List.mem_append_right _ List.mem_cons_self)
      show log.Places frame.position
      rw [position]
      exact ⟨rfl, due.1⟩
    | tail _ later => exact placed item (List.mem_append_right _ (List.mem_cons_of_mem _ later))

/-- An entry that brings nothing owed is left out. -/
theorem skipped
    (useless : ∀ entry, Owed base log peer partition entry → ¬ (Item.unread due : Item Body).brings entry) :
    Streams base log peer partition known (carried connection
      { connection.flow with phase := .reading rest built } []) := by
  have before := streams.covers
  have placed := streams.placed
  rw [Connection.items, phase, comesTo, ← List.append_assoc] at before placed
  refine streams.rephased ⟨rfl, rfl, rfl⟩ (Phase.warm_reading _ _ _) ?_ ?_
  · rw [Phase.items_reading, ← List.append_assoc]
    exact before.remove useless
  rw [Phase.items_reading]
  intro item member
  rcases List.mem_append.mp member with sent | later
  · exact placed item (List.mem_append_left _ (List.mem_append_right _ sent))
  · exact placed item (List.mem_append_right _ (List.mem_cons_of_mem _ later))

/-- The entry the flow comes to next is placed. -/
theorem unread_placed : (Item.unread due : Item Body).Placed log peer partition := by
  apply streams.placed
  rw [Connection.items, phase, comesTo]
  exact List.mem_append_right _ (List.mem_append_right _ List.mem_cons_self)

end

theorem read (phase : connection.flow.phase = .read (due :: rest) built) (stored : Option (StoredEntry Body)) :
    Streams base log peer partition known (carried connection
      { connection.flow with phase := connection.flow.read log due rest built stored } []) := by
  have items : connection.flow.phase.items = comesTo due rest built := by
    rw [phase]
    rfl
  have placed := streams.unread_placed items
  unfold ServeFlow.read
  split
  · exact streams.replaced items rfl rfl (Nat.le_refl _)
  · exact streams.replaced items rfl rfl placed.1
  · rename_i op
    refine streams.rephased ⟨rfl, rfl, rfl⟩ ⟨op, placed.1⟩ ?_ ?_
    · have covers := streams.covers
      rw [Connection.items, items] at covers
      exact covers
    intro item member
    apply streams.placed
    rw [Connection.items, items]
    exact List.mem_append_right _ member

/-- A body that was gone: the call's delete has an entry of its own above, or a delete frame goes out. -/
theorem lookedUp {readAt : ℕ} (phase : connection.flow.phase = .vanished due readAt rest built) :
    Streams base log peer partition known (carried connection
      { connection.flow with phase := connection.flow.lookUp log due readAt rest built } []) := by
  have items : connection.flow.phase.items = comesTo due rest built := by
    rw [phase]
    rfl
  have warm := streams.warm
  rw [phase] at warm
  obtain ⟨op, le⟩ := warm
  have placed := streams.unread_placed items
  unfold ServeFlow.lookUp
  split
  · rename_i answered current
    apply streams.skipped items
    -- The call's state is a delete and the entry a put, so the state was written since.
    rintro entry ⟨-, state, found, at_⟩ ⟨callRef, below⟩
    rw [streams.flow.1, streams.flow.2, Changelog.current_eq, callRef, found, Option.map_some,
      Option.some.injEq, Prod.mk.injEq] at current
    rcases placed.2 state (callRef ▸ found) with later | ⟨-, same⟩
    · omega
    rw [current.1, op] at same
    cases same
  · exact streams.replaced items rfl rfl le

end

end Reading

/-- The next frame goes on the wire and the cursor moves to it. -/
theorem sent (streams : Streams base log peer partition known connection) {next : Built Body}
    {frames : List (Built Body)} {count : ℕ} (phase : connection.flow.phase = .send (next :: frames) count) :
    Streams base log peer partition known (carried connection
      { connection.flow with cursor := next.frame.position, phase := .send frames count } [.data next]) := by
  have before := streams.covers
  have placed := streams.placed
  have items := items_carried connection
    { connection.flow with cursor := next.frame.position, phase := .send frames count } [.data next]
  rw [Connection.items, phase] at before placed
  constructor
  case flow => exact streams.flow
  case warm => trivial
  case cursor => exact placed (.sent (.data next)) (List.mem_append_right _ List.mem_cons_self)
  case behind =>
    intro entry owed le
    have wire : (carried connection { connection.flow with
        cursor := next.frame.position, phase := .send frames count } [.data next]).wire.map Item.sent =
        connection.wire.map .sent ++ [.sent (.data next)] := List.map_append
    rw [wire]
    rcases (covers_append.mp before).2.1 entry owed le with (known | ⟨item, member, brought⟩) | brought
    · exact .inl known
    · exact .inr ⟨item, List.mem_append_left _ member, brought⟩
    · exact .inr ⟨_, List.mem_append_right _ List.mem_cons_self, brought⟩
  case covers => exact items ▸ before
  case placed => exact items ▸ placed

/-- After a drain the flow goes on, or waits, and may say where its cursor stands. -/
theorem settled (streams : Streams base log peer partition known connection) (count : ℕ) (noopDue : Bool) :
    Streams base log peer partition known
      (carried connection (connection.flow.settle count noopDue).1 (connection.flow.settle count noopDue).2) := by
  unfold ServeFlow.settle
  split
  · exact streams.emptied ⟨rfl, rfl, rfl⟩ trivial rfl
  split
  · exact streams.announced ⟨rfl, rfl, rfl⟩ trivial rfl (fun _ behind => behind) streams.cursor
  · exact streams.emptied ⟨rfl, rfl, rfl⟩ trivial rfl

/-- No step of the flow announces an entry before it is brought. -/
theorem flowed (indexed : log.Indexed) (streams : Streams base log peer partition known connection)
    {event : FlowEvent Body} {next : Changelog} {moved : ServeFlow Body} {sent : List (Sent Body)}
    (moves : ServeFlow.Moves log connection.flow event next moved sent) :
    Streams base next peer partition known (carried connection moved sent) := by
  have warm := streams.warm
  obtain ⟨rfl, rfl⟩ := streams.flow
  cases moves with
  | start phase => exact streams.started phase
  | scanHead phase | scanMark phase | scanKeys _ phase | scanRead _ phase | scanSend phase =>
    rw [phase] at warm
    exact warm.elim
  | snapshot phase =>
    have snapshotted := streams.snapshotted indexed connection.flow.batch
    exact snapshotted.logged indexed (.drain _ _ connection.flow.cursor connection.flow.batch)
  | read stored phase => exact streams.read phase stored
  | lookUp phase => exact streams.lookedUp phase
  | send phase => exact streams.sent phase
  | settle noopDue phase => exact streams.settled _ noopDue
  | wake phase => exact streams.emptied ⟨rfl, rfl, rfl⟩ trivial rfl

end Streams

end SipServer.Repl
