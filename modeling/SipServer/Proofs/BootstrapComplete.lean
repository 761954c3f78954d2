/-
Module: SipServer.Proofs.BootstrapComplete
Purpose: A cold flow loses no write: once its scan was sent and a drain of its tail found nothing above the
  cursor, every call the caller backs up was sent in its last logged version or a later one, and no put is
  the last frame of a call that was deleted.
-/
import SipServer.Proofs.BootstrapFrames

namespace SipServer.Repl

open SipServer.Lib
open SipServer.Store

section Phases

variable {Body : Type}

variable {rest due : List Due} {w : Watermark}

/-- The frames a phase built and has not sent. -/
def Phase.built : Phase Body → List (Built Body)
  | .scan _ _ _ frames => frames
  | .read _ built => built
  | .vanished _ _ _ built => built
  | .send frames _ => frames
  | _ => []

/-- The entries a phase has still to read. -/
def Phase.dues : Phase Body → List Due
  | .read due _ => due
  | .vanished due _ rest _ => due :: rest
  | _ => []

/-- A phase of the tail. -/
def Phase.InTail : Phase Body → Prop
  | .drain => True
  | .read _ _ => True
  | .vanished _ _ _ _ => True
  | .send _ _ => True
  | .idle => True
  | _ => False

@[simp] theorem Phase.built_reading {built : List (Built Body)} :
    (Phase.reading due built).built = built := by
  cases due <;> rfl

@[simp] theorem Phase.dues_reading {built : List (Built Body)} : (Phase.reading due built).dues = due := by
  cases due <;> rfl

theorem Phase.inTail_reading {built : List (Built Body)} : (Phase.reading due built).InTail := by
  cases due <;> trivial

theorem Phase.reading_ne_vanished {built : List (Built Body)} {gone : Due} {readAt : ℕ}
    {before : List (Built Body)} : Phase.reading due built ≠ .vanished gone readAt rest before := by
  cases due <;> exact nofun

end Phases

namespace Serving

variable {serving next : Serving} {base head : ℕ} {built : Built ℕ} {frames : List (Built ℕ)} {callRef : String}
  {event : Event}

/-! ### The tail -/

/-- The tail of a flow whose scan started at `head`: what it sent, where its cursor stands and its phase. -/
structure TailPhase (head : ℕ) (serving : Serving) (sent : List (Built ℕ)) (cursor : Watermark)
    (phase : Phase ℕ) : Prop where
  inTail : phase.InTail
  framed : Framed head serving (sent ++ phase.built)
  scanned : Scanned head serving [] (sent ++ phase.built)
  cursor : head ≤ cursor.counter
  positions : ∀ built ∈ phase.built, head ≤ built.frame.position.counter
  unread : ∀ due ∈ phase.dues, serving.Unread head due
  gone : ∀ due readAt rest built, phase = .vanished due readAt rest built →
    readAt ≤ serving.store.changelog.counter ∧ serving.Gone due.callRef readAt

namespace TailPhase

variable {sent : List (Built ℕ)} {cursor : Watermark} {phase moved : Phase ℕ}

section

variable (tail : TailPhase head serving sent cursor phase)

include tail

theorem persists (reached : head ≤ serving.store.changelog.counter)
    (persists : Persists serving next) : TailPhase head next sent cursor phase where
  inTail := tail.inTail
  framed := tail.framed.persists persists
  scanned := tail.scanned.persists reached persists
  cursor := tail.cursor
  positions := tail.positions
  unread due member := (tail.unread due member).persists persists
  gone due readAt rest built isVanished :=
    have before := tail.gone due readAt rest built isVanished
    ⟨before.1.trans persists.counter, before.2.persists before.1 persists⟩

/-- The phase moves on without building a frame. -/
theorem rephased (inTail : moved.InTail)
    (built : moved.built = phase.built) (unread : ∀ due ∈ moved.dues, serving.Unread head due)
    (gone : ∀ due readAt rest built, moved = .vanished due readAt rest built →
      readAt ≤ serving.store.changelog.counter ∧ serving.Gone due.callRef readAt) :
    TailPhase head serving sent cursor moved where
  inTail := inTail
  framed := built ▸ tail.framed
  scanned := built ▸ tail.scanned
  cursor := tail.cursor
  positions := built ▸ tail.positions
  unread := unread
  gone := gone

/-- The phase reads on, past the entries read. -/
theorem readOn (subset : ∀ due ∈ rest, due ∈ phase.dues) :
    TailPhase head serving sent cursor (.reading rest phase.built) := by
  apply tail.rephased Phase.inTail_reading Phase.built_reading
  · rw [Phase.dues_reading]
    exact fun due member => tail.unread due (subset due member)
  · exact fun due readAt rest built isVanished => absurd isVanished Phase.reading_ne_vanished

/-- The phase reads on after building a frame. -/
theorem builds (reached : head ≤ serving.store.changelog.counter) (subset : ∀ due ∈ rest, due ∈ phase.dues)
    (position : head ≤ built.frame.position.counter) (covered : built.covers ≤ serving.store.changelog.counter)
    (put : built.frame.op = .put → built.covers = serving.store.changelog.counter) (agrees : serving.Agrees built) :
    TailPhase head serving sent cursor (.reading rest (phase.built ++ [built])) := by
  have frames : sent ++ (Phase.reading rest (phase.built ++ [built])).built = (sent ++ phase.built) ++ [built] := by
    rw [Phase.built_reading, List.append_assoc]
  constructor
  case inTail => exact Phase.inTail_reading
  case framed => exact frames ▸ tail.framed.snoc reached covered put agrees
  case scanned => exact frames ▸ tail.scanned.mono fun other member => List.mem_append_left _ member
  case cursor => exact tail.cursor
  case positions =>
    rw [Phase.built_reading]
    intro other member
    rcases List.mem_append.mp member with before | isLast
    · exact tail.positions other before
    · exact List.mem_singleton.mp isLast ▸ position
  case unread =>
    rw [Phase.dues_reading]
    exact fun due member => tail.unread due (subset due member)
  case gone =>
    exact fun due readAt rest built isVanished => absurd isVanished Phase.reading_ne_vanished

end

section Steps

variable (tracked : serving.Tracked base) (le : base ≤ head) (reached : head ≤ serving.store.changelog.counter)

include tracked le reached

/-- The next entry is read: a delete or a body builds a frame, a body that is gone is looked up. -/
theorem read {due : Due} {built : List (Built ℕ)}
    (tail : TailPhase head serving sent cursor (.read (due :: rest) built)) (flow : ServeFlow ℕ) :
    TailPhase head serving sent cursor
      (flow.read serving.store.changelog due rest built (serving.read due.callRef)) := by
  have unread := tail.unread due List.mem_cons_self
  have later : ∀ other ∈ rest, other ∈ (Phase.read (due :: rest) built).dues :=
    fun other member => List.mem_cons_of_mem _ member
  unfold ServeFlow.read
  split
  · rename_i isDelete
    apply tail.builds reached later
    · exact unread.above.le
    · exact unread.reached
    · exact nofun
    · exact tracked.agrees_delete unread le isDelete rfl rfl rfl
  · rename_i entry _ isRead
    apply tail.builds reached later
    · exact unread.above.le
    · exact le_refl _
    · exact fun _ => rfl
    · exact tracked.agrees_put isRead
  · rename_i _ isGone
    refine tail.rephased trivial rfl (fun other member => tail.unread other member) ?_
    rintro _ _ _ _ ⟨⟩
    exact ⟨le_refl _, tracked.gone isGone _⟩

end Steps

/-- The body was gone: nothing more is sent for the entry, or a delete is. -/
theorem lookUp (reached : head ≤ serving.store.changelog.counter) {due : Due} {readAt : ℕ} {built : List (Built ℕ)}
    (tail : TailPhase head serving sent cursor (.vanished due readAt rest built)) (flow : ServeFlow ℕ) :
    TailPhase head serving sent cursor (flow.lookUp serving.store.changelog due readAt rest built) := by
  have unread := tail.unread due List.mem_cons_self
  obtain ⟨covered, gone⟩ := tail.gone due readAt rest built rfl
  have later : ∀ other ∈ rest, other ∈ (Phase.vanished due readAt rest built).dues :=
    fun other member => List.mem_cons_of_mem _ member
  unfold ServeFlow.lookUp
  split
  · exact tail.readOn later
  apply tail.builds reached later
  · exact unread.above.le
  · exact covered
  · exact nofun
  · exact gone.agrees rfl

/-- A phase with nothing built and nothing to read. -/
theorem emptied (tail : TailPhase head serving sent cursor phase) (nothing : phase.built = []) (inTail : moved.InTail)
    (built : moved.built = []) (dues : moved.dues = []) : TailPhase head serving sent cursor moved := by
  apply tail.rephased inTail (built.trans nothing.symm)
  · rw [dues]
    exact nofun
  · rintro due readAt rest before rfl
    cases dues

/-- A drain's snapshot is of entries above the cursor. -/
theorem snapshot (tail : TailPhase head serving sent cursor .drain) (indexed : serving.store.changelog.Indexed)
    (warm : cursor.gen = serving.store.changelog.gen) (limit : ℕ) :
    TailPhase head serving sent cursor
      (.reading (serving.store.changelog.drain serving.caller .bak cursor limit).2 []) := by
  have drained : serving.store.changelog.Drained serving.caller .bak cursor.counter _ := indexed.drained warm limit
  apply tail.rephased Phase.inTail_reading Phase.built_reading
  · rw [Phase.dues_reading]
    intro due member
    obtain ⟨state, found, counter, op⟩ := drained.states due member
    refine ⟨tail.cursor.trans_lt (drained.above due member), counter ▸ indexed.state_le found, ?_⟩
    refine ⟨state.counter, state.op, ?_, .inr ⟨counter, op⟩⟩
    unfold mark Changelog.markOf
    rw [found]
    rfl
  · exact fun due readAt rest built isVanished => absurd isVanished Phase.reading_ne_vanished

theorem send {count : ℕ} (tail : TailPhase head serving sent cursor (.send (built :: frames) count)) :
    TailPhase head serving (sent ++ [built]) built.frame.position (.send frames count) := by
  have same : (sent ++ [built]) ++ (Phase.send frames count).built =
      sent ++ (Phase.send (built :: frames) count).built := by
    rw [List.append_assoc]
    rfl
  constructor
  case inTail => trivial
  case framed => exact same ▸ tail.framed
  case scanned => exact same ▸ tail.scanned
  case cursor => exact tail.positions built List.mem_cons_self
  case positions => exact fun other member => tail.positions other (List.mem_cons_of_mem _ member)
  case unread => exact nofun
  case gone => exact nofun

end TailPhase

/-! ### The whole flow -/

/-- A scan's head: a position of the node's incarnation, reached since the flow was opened. -/
structure Headed (base : ℕ) (serving : Serving) (w : Watermark) : Prop where
  places : serving.store.changelog.Places w
  base : base ≤ w.counter

theorem Headed.moved (headed : Headed base serving w) (moves : Moves serving next) : Headed base next w :=
  ⟨⟨headed.places.1.trans moves.gen.symm, headed.places.2.trans moves.counter⟩, headed.base⟩

/-- The connection the flow's caller reads, with all that was ever sent on it. -/
def connection (serving : Serving) : Connection ℕ := ⟨serving.flow, serving.sent, [], true⟩

/-- How far a cold flow came: before its scan, in it, or in its tail. -/
inductive Stage (base : ℕ) (serving : Serving) : Prop where
  | opening (phase : serving.flow.phase = .starting .origin ∨ serving.flow.phase = .scanHead)
      (unsent : serving.sent = [])
  | marking {w : Watermark} (phase : serving.flow.phase = .scanMark w ∨ serving.flow.phase = .scanKeys w)
      (headed : Headed base serving w) (unsent : serving.sent = [])
  | scanning {w : Watermark} {group later : List String} {frames : List (Built ℕ)}
      (phase : serving.flow.phase = .scan w group later frames) (headed : Headed base serving w)
      (cursor : serving.flow.cursor = w)
      (sentAt : ∀ sent ∈ serving.sent, ∃ built, sent = .data built ∧ built.frame.position = w)
      (builtAt : ∀ built ∈ frames, built.frame.position = w)
      (framed : Framed w.counter serving (serving.sentFrames ++ frames))
      (scanned : Scanned w.counter serving (group ++ later) (serving.sentFrames ++ frames))
  | tailing {w : Watermark} (headed : Headed base serving w)
      (streams : Streams w.counter serving.store.changelog serving.caller .bak (fun _ => False) serving.connection)
      (tail : TailPhase w.counter serving serving.sentFrames serving.flow.cursor serving.flow.phase)
  | ended (phase : serving.flow.phase = .ended)

/-- A step that leaves the flow alone leaves its stage. -/
theorem Stage.moved (stage : Stage base serving) (indexed : serving.store.changelog.Indexed)
    (moves : Moves serving next) (flow : next.flow = serving.flow) (sent : next.sent = serving.sent) :
    Stage base next := by
  have persists := moves.persists
  have frames : next.sentFrames = serving.sentFrames := congrArg (List.filterMap Sent.built) sent
  cases stage with
  | opening phase unsent => exact .opening (flow ▸ phase) (sent.trans unsent)
  | marking phase headed unsent => exact .marking (flow ▸ phase) (headed.moved moves) (sent.trans unsent)
  | scanning phase headed cursor sentAt builtAt framed scanned =>
    refine .scanning (flow ▸ phase) (headed.moved moves) (flow ▸ cursor) (sent ▸ sentAt) builtAt ?_ ?_
    · exact frames ▸ framed.persists persists
    · exact frames ▸ scanned.persists headed.places.2 persists
  | tailing headed streams tail =>
    refine .tailing (headed.moved moves) ?_ ?_
    · have connection : next.connection = serving.connection := by
        unfold connection
        rw [flow, sent]
      rw [connection, moves.caller]
      rcases moves.changelog with same | ⟨operation, stepped⟩
      · exact same ▸ streams
      · exact stepped ▸ streams.logged indexed operation
    · rw [frames, flow]
      exact tail.persists headed.places.2 persists
  | ended phase => exact .ended (flow ▸ phase)

/-- The flow steps to `flow` over the changelog `changelog`, sending `sent`. -/
def flowed (serving : Serving) (changelog : Changelog) (flow : ServeFlow ℕ) (sent : List (Sent ℕ)) : Serving :=
  { serving with
    store := { serving.store with changelog := changelog }
    flow := flow
    sent := serving.sent ++ sent }

theorem sentFrames_flowed (serving : Serving) (changelog : Changelog) (flow : ServeFlow ℕ) (sent : List (Sent ℕ)) :
    (serving.flowed changelog flow sent).sentFrames = serving.sentFrames ++ sent.filterMap Sent.built :=
  List.filterMap_append

theorem flowed_moves {changelog : Changelog} {flow : ServeFlow ℕ} {event : FlowEvent ℕ} {sent : List (Sent ℕ)}
    (moves : ServeFlow.Moves serving.store.changelog serving.flow event changelog flow sent) :
    Moves serving (serving.flowed changelog flow sent) :=
  relogged_moves (moves.operation.imp_right fun ⟨operation, _, stepped⟩ => ⟨operation, stepped⟩) moves.marks

/-- The flow is the caller's, on the partition of the calls it backs up. -/
def TowardCaller (serving : Serving) : Prop := serving.flow.peer = serving.caller ∧ serving.flow.partition = .bak

/-- Between two groups of keys, with everything built sent. -/
theorem stage_of_scanning {later : List String} (toward : serving.TowardCaller) (headed : Headed base serving w)
    (phase : serving.flow.phase = .scanning w bootstrapChunk later) (cursor : serving.flow.cursor = w)
    (sentAt : ∀ sent ∈ serving.sent, ∃ built, sent = .data built ∧ built.frame.position = w)
    (framed : Framed w.counter serving serving.sentFrames)
    (scanned : Scanned w.counter serving later serving.sentFrames) : Stage base serving := by
  have sent : serving.sentFrames ++ [] = serving.sentFrames := List.append_nil _
  cases later with
  | nil =>
    have inTail : serving.flow.phase = .drain := phase
    refine .tailing headed (Streams.scanned toward headed.places inTail cursor sentAt) ?_
    rw [inTail]
    constructor
    case inTail => trivial
    case framed => exact sent.symm ▸ framed
    case scanned => exact sent.symm ▸ scanned
    case cursor => exact cursor ▸ le_refl _
    case positions => exact nofun
    case unread => exact nofun
    case gone => exact nofun
  | cons key keys =>
    refine .scanning phase headed cursor sentAt nofun (sent.symm ▸ framed) ?_
    rw [List.take_append_drop]
    exact sent.symm ▸ scanned

section Flowed

variable {changelog : Changelog} {flow : ServeFlow ℕ} {event : FlowEvent ℕ} {sent : List (Sent ℕ)} {noopDue : Bool}

/-- What the flow's next step leaves and sends. -/
def advanced (serving : Serving) (noopDue : Bool) : Option (Changelog × ServeFlow ℕ × List (Sent ℕ)) :=
  (serving.nextEvent noopDue).bind (ServeFlow.step serving.store.changelog serving.flow)

/-- Nothing is sent before the scan. -/
theorem Stage.flowed_opening (reached : base ≤ serving.store.changelog.counter)
    (phase : serving.flow.phase = .starting .origin ∨ serving.flow.phase = .scanHead) (unsent : serving.sent = [])
    (stepped : serving.advanced noopDue = some (changelog, flow, sent)) :
    Stage base (serving.flowed changelog flow sent) := by
  have nothing : serving.sent ++ [] = [] := (List.append_nil _).trans unsent
  rcases phase with phase | phase
  · simp only [advanced, nextEvent, phase, Option.bind_some, ServeFlow.step] at stepped
    cases stepped
    unfold ServeFlow.start
    split
    · exact .ended rfl
    exact .opening (.inr rfl) nothing
  · simp only [advanced, nextEvent, phase, Option.bind_some, ServeFlow.step] at stepped
    cases stepped
    exact .marking (.inl rfl) ⟨⟨rfl, le_refl _⟩, reached⟩ nothing

section

variable (tracked : serving.Tracked base)

include tracked

/-- The scan's mark is noted, then the keys are snapshotted. -/
theorem Stage.flowed_marking (toward : serving.TowardCaller)
    (phase : serving.flow.phase = .scanMark w ∨ serving.flow.phase = .scanKeys w) (headed : Headed base serving w)
    (unsent : serving.sent = []) (stepped : serving.advanced noopDue = some (changelog, flow, sent))
    (moves : Moves serving (serving.flowed changelog flow sent)) :
    Stage base (serving.flowed changelog flow sent) := by
  have nothing : serving.sent ++ [] = [] := (List.append_nil _).trans unsent
  have noFrames : (serving.sent ++ []).filterMap Sent.built = [] := by
    rw [nothing]
    rfl
  rcases phase with phase | phase
  · simp only [advanced, nextEvent, phase, Option.bind_some, ServeFlow.step] at stepped
    cases stepped
    exact .marking (.inr rfl) (headed.moved moves) nothing
  simp only [advanced, nextEvent, phase, Option.bind_some, ServeFlow.step] at stepped
  cases stepped
  refine stage_of_scanning toward (headed.moved moves) rfl rfl ?_ ?_ ?_
  · intro other member
    have isSent : other ∈ serving.sent ++ [] := member
    rw [nothing] at isSent
    cases isSent
  · unfold sentFrames flowed
    rw [noFrames]
    exact framed_nil
  · exact (tracked.scanned_keys).persists headed.places.2 moves.persists

/-- The scan reads the next key, or sends the group it read. -/
theorem Stage.flowed_scanning (toward : serving.TowardCaller)
    {group later : List String} (phase : serving.flow.phase = .scan w group later frames)
    (headed : Headed base serving w) (cursor : serving.flow.cursor = w)
    (sentAt : ∀ sent ∈ serving.sent, ∃ built, sent = .data built ∧ built.frame.position = w)
    (builtAt : ∀ built ∈ frames, built.frame.position = w)
    (framed : Framed w.counter serving (serving.sentFrames ++ frames))
    (scanned : Scanned w.counter serving (group ++ later) (serving.sentFrames ++ frames))
    (stepped : serving.advanced noopDue = some (changelog, flow, sent))
    (moves : Moves serving (serving.flowed changelog flow sent)) :
    Stage base (serving.flowed changelog flow sent) := by
  have reached := headed.places.2
  cases group with
  | cons key group =>
    simp only [advanced, nextEvent, phase, Option.bind_some, ServeFlow.step] at stepped
    cases stepped
    have sentNow : serving.sent ++ [] = serving.sent := List.append_nil _
    have framesNow := sentFrames_flowed serving serving.store.changelog { serving.flow with
      phase := .scan w group later (frames ++ serving.flow.scanRead serving.store.changelog w key
        (serving.read key)) } []
    rw [List.filterMap_nil, List.append_nil] at framesNow
    refine .scanning rfl (headed.moved moves) cursor ?_ ?_ ?_ ?_
    · intro other member
      exact sentAt other (sentNow ▸ member)
    · intro built member
      rcases List.mem_append.mp member with before | isRead
      · exact builtAt built before
      unfold ServeFlow.scanRead at isRead
      split at isRead
      · exact List.mem_singleton.mp isRead ▸ rfl
      · cases isRead
    · rw [framesNow, ← List.append_assoc]
      apply Framed.persists _ moves.persists
      cases isRead : serving.read key with
      | none => exact (List.append_nil _).symm ▸ framed
      | some entry =>
        exact framed.snoc reached (le_refl _) (fun _ => rfl) (tracked.agrees_put isRead)
    · rw [framesNow, ← List.append_assoc]
      exact (tracked.scanned_read scanned reached).persists reached moves.persists
  | nil =>
    simp only [advanced, nextEvent, phase, Option.bind_some, ServeFlow.step] at stepped
    cases stepped
    have framesNow := sentFrames_flowed serving serving.store.changelog { serving.flow with
      phase := .scanning w bootstrapChunk later } (frames.map .data)
    have built : (frames.map Sent.data).filterMap Sent.built = frames := by
      rw [List.filterMap_map]
      exact List.filterMap_some
    rw [built] at framesNow
    refine stage_of_scanning toward (headed.moved moves) rfl cursor ?_ ?_ ?_
    · intro other member
      rcases List.mem_append.mp member with before | isFrame
      · exact sentAt other before
      obtain ⟨frame, isBuilt, rfl⟩ := List.mem_map.mp isFrame
      exact ⟨frame, rfl, builtAt frame isBuilt⟩
    · exact framesNow ▸ framed.persists moves.persists
    · exact framesNow ▸ scanned.persists reached moves.persists

/-- A step of the tail. -/
theorem TailPhase.flowed (indexed : serving.store.changelog.Indexed) (toward : serving.TowardCaller)
    (le : base ≤ head)
    (reached : head ≤ serving.store.changelog.counter) (warm : serving.flow.cursor.gen = serving.store.changelog.gen)
    (tail : TailPhase head serving serving.sentFrames serving.flow.cursor serving.flow.phase)
    (stepped : serving.advanced noopDue = some (changelog, flow, sent)) :
    TailPhase head serving (serving.sentFrames ++ sent.filterMap Sent.built) flow.cursor flow.phase := by
  have silent : serving.sentFrames ++ ([] : List (Sent ℕ)).filterMap Sent.built = serving.sentFrames :=
    List.append_nil _
  have inTail := tail.inTail
  cases phase : serving.flow.phase with
  | drain =>
    rw [phase] at tail
    simp only [advanced, nextEvent, phase, Option.bind_some, ServeFlow.step, toward.1, toward.2] at stepped
    cases stepped
    exact silent.symm ▸ tail.snapshot indexed warm serving.flow.batch
  | read dues built =>
    rw [phase] at tail
    cases dues with
    | nil => simp only [advanced, nextEvent, phase, Option.bind_none, reduceCtorEq] at stepped
    | cons due rest =>
      simp only [advanced, nextEvent, phase, Option.bind_some, ServeFlow.step] at stepped
      cases stepped
      exact silent.symm ▸ tail.read tracked le reached serving.flow
  | vanished due readAt rest built =>
    rw [phase] at tail
    simp only [advanced, nextEvent, phase, Option.bind_some, ServeFlow.step] at stepped
    cases stepped
    exact silent.symm ▸ tail.lookUp reached serving.flow
  | send frames count =>
    rw [phase] at tail
    cases frames with
    | cons built frames =>
      simp only [advanced, nextEvent, phase, Option.bind_some, ServeFlow.step] at stepped
      cases stepped
      exact tail.send
    | nil =>
      simp only [advanced, nextEvent, phase, Option.bind_some, ServeFlow.step] at stepped
      cases stepped
      unfold ServeFlow.settle
      split
      · exact silent.symm ▸ tail.emptied rfl trivial rfl rfl
      split
      · exact silent.symm ▸ tail.emptied rfl trivial rfl rfl
      · exact silent.symm ▸ tail.emptied rfl trivial rfl rfl
  | idle =>
    rw [phase] at tail
    simp only [advanced, nextEvent, phase, Option.bind_some, ServeFlow.step] at stepped
    cases stepped
    exact silent.symm ▸ tail.emptied rfl trivial rfl rfl
  | starting | scanHead | scanMark | scanKeys | scan | ended =>
    rw [phase] at inTail
    exact inTail.elim

/-- The flow's next step keeps a stage. -/
theorem Stage.flowed (indexed : serving.store.changelog.Indexed)
    (toward : serving.TowardCaller) (reached : base ≤ serving.store.changelog.counter) (stage : Stage base serving)
    (stepped : serving.advanced noopDue = some (changelog, flow, sent)) :
    Stage base (serving.flowed changelog flow sent) := by
  obtain ⟨event, -, flowStepped⟩ := Option.bind_eq_some_iff.mp stepped
  have flowMoves := ServeFlow.moves_of_step flowStepped
  have moves := flowed_moves flowMoves
  cases stage with
  | opening phase unsent => exact .flowed_opening reached phase unsent stepped
  | marking phase headed unsent => exact .flowed_marking tracked toward phase headed unsent stepped moves
  | scanning phase headed cursor sentAt builtAt framed scanned =>
    exact .flowed_scanning tracked toward phase headed cursor sentAt builtAt framed scanned stepped moves
  | tailing headed streams tail =>
    refine .tailing (headed.moved moves) (streams.flowed indexed flowMoves) ?_
    rw [sentFrames_flowed]
    exact (tail.flowed tracked indexed toward headed.base headed.places.2 streams.cursor.1 stepped).persists
      headed.places.2 moves.persists
  | ended phase => simp only [advanced, nextEvent, phase, Option.bind_none, reduceCtorEq] at stepped

end

end Flowed

/-! ### Runs -/

/-- What holds of a node serving a cold flow, whose counter stood at `base` when the flow was opened. -/
structure Sound (base : ℕ) (serving : Serving) : Prop where
  tracked : serving.Tracked base
  indexed : serving.store.changelog.Indexed
  toward : serving.TowardCaller
  reached : base ≤ serving.store.changelog.counter
  stage : Stage base serving
  batch : 0 < serving.flow.batch

/-- A step is the flow's next, or leaves the flow alone. -/
theorem step_flow (stepped : serving.step event = some next) :
    (∃ noopDue changelog flow sent, serving.advanced noopDue = some (changelog, flow, sent) ∧
      next = serving.flowed changelog flow sent) ∨ next.flow = serving.flow ∧ next.sent = serving.sent := by
  unfold step at stepped
  split at stepped
  · split at stepped
    · cases stepped
      exact .inr ⟨rfl, rfl⟩
    · cases stepped
  · split at stepped
    · cases stepped
      exact .inr ⟨rfl, rfl⟩
    · cases stepped
  · obtain ⟨writing, found, rfl⟩ := Option.map_eq_some_iff.mp stepped
    exact .inr ⟨rfl, rfl⟩
  · split at stepped
    · cases stepped
      exact .inr ⟨rfl, rfl⟩
    · cases stepped
  · split at stepped
    · cases stepped
      exact .inr ⟨rfl, rfl⟩
    · cases stepped
  · rename_i noopDue
    obtain ⟨⟨changelog, flow, sent⟩, isNext, rfl⟩ := Option.map_eq_some_iff.mp stepped
    exact .inl ⟨noopDue, changelog, flow, sent, isNext, rfl⟩

theorem Sound.step (sound : Sound base serving) (stepped : serving.step event = some next) :
    Sound base next := by
  have moves := moves_of_step sound.tracked stepped
  have tracked := sound.tracked.moved moves
  have indexed := moves.indexed sound.indexed
  have reached := sound.reached.trans moves.counter
  rcases step_flow stepped with ⟨noopDue, changelog, flow, sent, isNext, rfl⟩ | ⟨flow, sent⟩
  · obtain ⟨event, -, flowStepped⟩ := Option.bind_eq_some_iff.mp isNext
    obtain ⟨peer, partition, batch⟩ := (ServeFlow.moves_of_step flowStepped).fixed
    have toward : (serving.flowed changelog flow sent).TowardCaller :=
      ⟨peer.trans sound.toward.1, partition.trans sound.toward.2⟩
    refine ⟨tracked, indexed, toward, reached, ?_, sound.batch.trans_eq batch.symm⟩
    exact sound.stage.flowed sound.tracked sound.indexed sound.toward sound.reached isNext
  · refine ⟨tracked, indexed, ?_, reached, sound.stage.moved sound.indexed moves flow sent, flow ▸ sound.batch⟩
    unfold TowardCaller
    rw [flow, moves.caller]
    exact sound.toward

theorem start_sound {store : ReplicatingCallStore ℕ} (indexed : store.changelog.Indexed) {stamp batch : ℕ}
    (stamped : ∀ place stored, store.inner.bodies.get place = some stored → stored.body ≤ stamp)
    (positive : 0 < batch) (self caller : String) (identity : Option String) (nowMs : ℤ) :
    ∃ base, Sound base (start store self caller identity nowMs stamp batch) := by
  have opened : (store.changelog.pull nowMs caller identity .bak .origin).Indexed :=
    indexed.pull nowMs caller identity .bak .origin
  have offered : ∀ callRef version, (start store self caller identity nowMs stamp batch).logged callRef =
      some (.put version) → (start store self caller identity nowMs stamp batch).offered callRef = some version := by
    intro callRef version isLogged
    obtain ⟨other, isOffered, ⟨⟩⟩ := Option.map_eq_some_iff.mp isLogged
    exact isOffered
  have notDeleted : ∀ callRef, (start store self caller identity nowMs stamp batch).logged callRef ≠
      some .delete := by
    intro callRef isLogged
    obtain ⟨other, -, ⟨⟩⟩ := Option.map_eq_some_iff.mp isLogged
  refine ⟨(start store self caller identity nowMs stamp batch).store.changelog.counter, ?_⟩
  constructor
  case indexed => exact opened
  case toward => exact ⟨rfl, rfl⟩
  case reached => exact le_refl _
  case stage => exact .opening (.inl rfl) rfl
  case batch => exact positive
  case tracked =>
    constructor
    case stamped =>
      intro callRef version isLogged
      have isOffered := offered callRef version isLogged
      unfold Serving.offered at isOffered
      split at isOffered
      · obtain ⟨stored, found, rfl⟩ := Option.map_eq_some_iff.mp isOffered
        exact stamped _ stored found
      · cases isOffered
    case inFlight => rintro _ _ ⟨⟩
    case loggedPut =>
      exact fun callRef version isLogged => .inr ⟨version, le_refl _, offered callRef version isLogged⟩
    case loggedDelete => exact fun callRef isLogged => absurd isLogged (notDeleted callRef)
    case marked =>
      intro callRef counter isMarked above
      obtain ⟨state, found, same⟩ := Option.map_eq_some_iff.mp isMarked
      have bounded := opened.state_le found
      rw [(Prod.mk.inj same).1] at bounded
      exact absurd above (Nat.not_lt.mpr bounded)
    case deleted => exact fun callRef isLogged => absurd isLogged (notDeleted callRef)

/-! ### What a caught-up flow has sent -/

/-- A caught-up flow is in its tail, and its cursor is past every entry. -/
theorem Sound.caughtUp (sound : Sound base serving) (caughtUp : serving.caughtUp = true) :
    ∃ head, Framed head serving serving.sentFrames ∧ Scanned head serving [] serving.sentFrames ∧
      ∀ callRef counter op, serving.mark callRef = some (counter, op) → head < counter →
        ∃ built ∈ serving.sentFrames, built.frame.callRef = callRef ∧ counter ≤ built.covers := by
  unfold Serving.caughtUp at caughtUp
  rw [Bool.and_eq_true, decide_eq_true_eq, List.isEmpty_iff, sound.toward.1, sound.toward.2] at caughtUp
  obtain ⟨inDrain, empty⟩ := caughtUp
  cases sound.stage with
  | tailing headed streams tail =>
    rename_i w
    rw [inDrain] at tail
    have sent : serving.sentFrames ++ (Phase.drain : Phase ℕ).built = serving.sentFrames := List.append_nil _
    refine ⟨w.counter, sent ▸ tail.framed, sent ▸ tail.scanned, ?_⟩
    intro callRef counter op isMarked above
    obtain ⟨state, found, same⟩ := Option.map_eq_some_iff.mp isMarked
    cases same
    have behind : state.counter ≤ serving.flow.cursor.counter :=
      sound.indexed.exhausted streams.cursor.1 sound.batch empty found
    have owed : Owed w.counter serving.store.changelog serving.caller .bak (state.counter, callRef) :=
      ⟨above, state, found, rfl⟩
    rcases streams.behind _ owed behind with known | ⟨item, member, brings⟩
    · exact known.elim
    obtain ⟨other, isSent, rfl⟩ := List.mem_map.mp member
    cases other with
    | data built => exact ⟨built, List.mem_filterMap.mpr ⟨_, isSent, rfl⟩, brings⟩
    | noop | reset => exact brings.elim
  | opening phase | marking phase => rcases phase with phase | phase <;> cases phase.symm.trans inDrain
  | scanning phase | ended phase => cases phase.symm.trans inDrain

/-- A stored call the caller backs up was sent in its last logged version or a later one. -/
theorem Sound.sent_of_offered (sound : Sound base serving) (caughtUp : serving.caughtUp = true) {version stamp : ℕ}
    (isOffered : serving.offered callRef = some version) (isLogged : serving.logged callRef = some (.put stamp)) :
    ∃ built ∈ serving.sentFrames, built.frame.callRef = callRef ∧ built.frame.op = .put ∧
      ∃ sent, stamp ≤ sent ∧ built.frame.body = some sent := by
  obtain ⟨head, framed, scanned, brought⟩ := sound.caughtUp caughtUp
  have notDeleting : ¬ serving.Deleting callRef := by
    intro deleting
    obtain ⟨incarnation, isRead⟩ := read_of_offered isOffered
    cases isRead.symm.trans (sound.tracked.read_of_deleting deleting)
  have agreed : ∃ built ∈ serving.sentFrames, built.frame.callRef = callRef ∧
      serving.written callRef ≤ built.covers := by
    by_cases scannedPast : serving.written callRef ≤ head
    · rcases scanned callRef stamp isLogged scannedPast with deleting | isUnread | ⟨built, member, isOf, covers⟩
      · exact absurd deleting notDeleting
      · cases isUnread
      · exact ⟨built, member, isOf, scannedPast.trans covers⟩
    have drained : ∃ counter op, serving.mark callRef = some (counter, op) := by
      cases isMarked : serving.mark callRef with
      | some mark => exact ⟨mark.1, mark.2, rfl⟩
      | none =>
        unfold written at scannedPast
        rw [isMarked] at scannedPast
        exact absurd (Nat.zero_le head) scannedPast
    obtain ⟨counter, op, isMarked⟩ := drained
    rw [written_of_mark isMarked] at scannedPast ⊢
    exact brought callRef counter op isMarked (Nat.lt_of_not_le scannedPast)
  obtain ⟨built, member, rfl, covers⟩ := agreed
  rcases (framed.agrees built member covers).1 stamp isLogged with deleting | ⟨op, sent, le, body⟩
  · exact absurd deleting notDeleting
  · exact ⟨built, member, rfl, op, sent, le, body⟩

/-- No put is the last frame of a call whose delete was logged and that is not stored again. -/
theorem Sound.last_of_deleted (sound : Sound base serving) (caughtUp : serving.caughtUp = true)
    (isLogged : serving.logged callRef = some .delete) (gone : serving.read callRef = none) {last : Built ℕ}
    (isLast : serving.lastFrame callRef = some last) : last.frame.op ≠ .put := by
  obtain ⟨head, framed, -, brought⟩ := sound.caughtUp caughtUp
  obtain ⟨counter, isMarked⟩ := sound.tracked.deleted callRef isLogged
  have notPutting : ¬ serving.Putting callRef := by
    intro putting
    obtain ⟨stamp, isOffered⟩ := sound.tracked.offered_of_putting putting
    obtain ⟨incarnation, isRead⟩ := read_of_offered isOffered
    cases isRead.symm.trans gone
  unfold lastFrame at isLast
  have ofCall := List.mem_filter.mp (List.mem_of_getLast? isLast)
  obtain rfl := of_decide_eq_true ofCall.2
  intro isPut
  -- A put that stands for the delete, or for anything later, would not agree with it.
  have behind : last.covers < counter := by
    by_contra beyond
    have covers : serving.written last.frame.callRef ≤ last.covers := by
      rw [written_of_mark isMarked]
      exact Nat.le_of_not_lt beyond
    rcases (framed.agrees last ofCall.1 covers).2 isLogged with putting | isDelete
    · exact notPutting putting
    · cases isPut.symm.trans isDelete
  have above : head < counter := (framed.puts last ofCall.1 isPut).trans_lt behind
  -- So the delete was drained, and its frame was sent before the put, which then was read later.
  obtain ⟨built, member, isOf, covers⟩ := brought _ counter _ isMarked above
  have inCall : built ∈ serving.sentFrames.filter fun built => decide (built.frame.callRef = last.frame.callRef) :=
    List.mem_filter.mpr ⟨member, decide_eq_true isOf⟩
  obtain ⟨earlier, split⟩ := List.getLast?_eq_some_iff.mp isLast
  have ordered := framed.ordered.filter fun built => decide (built.frame.callRef = last.frame.callRef)
  rw [split, List.pairwise_append] at ordered
  rw [split] at inCall
  rcases List.mem_append.mp inCall with isEarlier | isLastFrame
  · have le := ordered.2.2 built isEarlier last List.mem_cons_self isPut
    omega
  · obtain rfl := List.mem_singleton.mp isLastFrame
    omega

/-- Bootstrap plus tail loses no write: in every interleaving of a cold flow with puts and deletes, once the
    flow is caught up, every stored call the caller backs up was sent in a version at least as new as its
    last logged write, and no put is the last frame of a call deleted meanwhile. -/
theorem bootstrap_loses_no_write (store : ReplicatingCallStore ℕ) (gen : ℕ) (deadPeerTtlMs : ℤ)
    (operations : List Changelog.Operation) (self caller : String) (identity : Option String) (nowMs : ℤ)
    (stamp batch : ℕ) (events : List Event)
    (reached : store.changelog = operations.foldl Changelog.step (.new gen deadPeerTtlMs))
    (stamped : ∀ place stored, store.inner.bodies.get place = some stored → stored.body ≤ stamp)
    (positive : 0 < batch)
    (ran : run step (start store self caller identity nowMs stamp batch) events = some serving)
    (caughtUp : serving.caughtUp = true) :
    (∀ callRef version written, serving.offered callRef = some version →
      serving.logged callRef = some (.put written) →
        ∃ built ∈ serving.sentFrames, built.frame.callRef = callRef ∧ built.frame.op = .put ∧
          ∃ sent, written ≤ sent ∧ built.frame.body = some sent) ∧
    (∀ callRef, serving.logged callRef = some .delete → serving.read callRef = none →
      ∀ built, serving.lastFrame callRef = some built → built.frame.op ≠ .put) := by
  have indexed : store.changelog.Indexed := reached ▸ (Changelog.new_indexed).foldl operations
  obtain ⟨base, started⟩ := start_sound indexed stamped positive self caller identity nowMs
  have sound : Sound base serving :=
    run_invariant (Sound base) (fun _ _ _ sound stepped => sound.step stepped) ran started
  constructor
  · intro callRef version written isOffered isLogged
    exact sound.sent_of_offered caughtUp isOffered isLogged
  · intro callRef isLogged gone built isLast
    exact sound.last_of_deleted caughtUp isLogged gone isLast

/-- Two calls are put, the scan runs, one of them is deleted and the tail drained. -/
def putsScanDelete : List Event :=
  [.beginPut "kept" [] 0 0 0 none none, .log "kept", .beginPut "gone" [] 0 0 0 none none, .log "gone",
    .advance false, .advance false, .advance false, .advance false, .advance false, .advance false, .advance false,
    .beginDelete "gone" [] false none, .log "gone",
    .advance false, .advance false, .advance false, .advance false, .advance false]

/-- The call that is kept was sent, and the last frame of the other one is its delete. -/
theorem bootstrap_sends_put_then_delete :
    ∃ serving, run step (start (.new 7 60000 0) "w0" "w1" none 0 0 500) putsScanDelete = some serving ∧
      serving.caughtUp = true ∧
      (∃ built ∈ serving.sentFrames, built.frame.callRef = "kept" ∧ built.frame.op = .put ∧
        ∃ sent, 1 ≤ sent ∧ built.frame.body = some sent) ∧
      (serving.lastFrame "gone").isSome = true ∧
      ∀ built, serving.lastFrame "gone" = some built → built.frame.op ≠ .put := by
  refine ⟨_, rfl, rfl, ?_⟩
  have complete := bootstrap_loses_no_write (.new 7 60000 0) 7 60000 [] "w0" "w1" none 0 0 500 putsScanDelete rfl
    nofun (by decide) rfl rfl
  exact ⟨complete.1 "kept" 1 1 rfl rfl, rfl, complete.2 "gone" rfl rfl⟩

end Serving

end SipServer.Repl
