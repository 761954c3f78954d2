/-
Module: SipServer.Proofs.CatchUpNoop
Purpose: What a flow's catch-up `Noop` says: it is sent after a drain that left no entry out, unless a drain
  that did leave entries out skipped a call deleted between its snapshot and its body read.
-/
import SipServer.Lib.Runs
import SipServer.Proofs.FlowMoves
import Mathlib.Data.List.Induction

namespace SipServer.Repl

open SipServer.Lib

variable {log : Changelog} {batch : ℕ} {sub : SubLog} {rest : List Due} {counter : ℕ}

/-! ### A flow under observation -/

/-- A `Noop` a flow sent: whether it was one of the catch-up edge, and whether the drain just done left
    entries out. -/
structure CatchUp where
  edge : Bool
  leftOut : Bool
deriving Repr, DecidableEq

/-- A flow, the changelog it drains, and what an observer notes: whether the last snapshot left out an entry
    above the cursor, and every `Noop` sent. -/
structure Tail (Body : Type) where
  log : Changelog
  flow : ServeFlow Body
  leftOut : Bool
  noops : List CatchUp

namespace Tail

variable {Body : Type}

inductive Event (Body : Type) where
  | operation (operation : Changelog.Operation)
  | flow (event : FlowEvent Body)
deriving Repr, DecidableEq

/-- The entries the sub-log holds above the flow's cursor. -/
def aboveCursor (tail : Tail Body) : List (ℕ × String) :=
  match tail.log.sub tail.flow.peer tail.flow.partition with
  | none => []
  | some sub =>
    sub.entries.above
      (if decide (tail.flow.cursor.gen < tail.log.gen) then none else some tail.flow.cursor.counter)

/-- Whether a drain left entries out, after the flow's `event`: a snapshot decides it anew. -/
def leftOutAfter (tail : Tail Body) (event : FlowEvent Body) : Bool :=
  match event with
  | .snapshot => decide (tail.flow.batch < tail.aboveCursor.length)
  | _ => tail.leftOut

/-- The `Noop`s among what was sent, as the observer notes them. -/
def noted (tail : Tail Body) (sent : List (Sent Body)) : List CatchUp :=
  sent.filterMap fun
    | .noop _ => some ⟨tail.flow.edge, tail.leftOut⟩
    | _ => none

def step (tail : Tail Body) : Event Body → Option (Tail Body)
  | .operation operation => some { tail with log := tail.log.step operation }
  | .flow event =>
    (ServeFlow.step tail.log tail.flow event).map fun stepped =>
      { log := stepped.1
        flow := stepped.2.1
        leftOut := tail.leftOutAfter event
        noops := tail.noops ++ tail.noted stepped.2.2 }

/-- A flow just opened by a pull from `since`, draining `batch` entries at a time. -/
def opened (log : Changelog) (nowMs : ℤ) (peer : String) (identity : Option String) (partition : Partition)
    (since : Watermark) (batch : ℕ) : Tail Body where
  log := log.pull nowMs peer identity partition since
  flow := .opened peer partition batch since
  leftOut := false
  noops := []

/-- The event looks up a call whose body was gone, in a drain that left entries out, and finds it deleted. -/
def skipsDeleted (tail : Tail Body) (event : Event Body) : Bool :=
  match event, tail.flow.phase with
  | .flow .lookUp, .vanished due _ _ _ =>
    tail.leftOut &&
      (tail.log.current tail.flow.peer tail.flow.partition due.callRef).any
        fun current => decide (current.1 = .delete)
  | _, _ => false

/-- Only looking up a call whose body was gone can skip it. -/
theorem skipsDeleted_of_ne {tail : Tail Body} {event : Event Body} (other : event ≠ .flow .lookUp) :
    tail.skipsDeleted event = false := by
  unfold skipsDeleted
  split
  · exact absurd rfl other
  · rfl

end Tail

/-! ### A drain that left entries out is a full batch -/

namespace Tail

variable {Body : Type} {flow : ServeFlow Body} {refs : List String} {tail : Tail Body} {peer : String}
  {built : List (Built Body)} {sent : List (Sent Body)} {event : FlowEvent Body}

/-- A flow that drains what an observed drain left entries out of still has as many frames as the batch
    limit. -/
def Full (batch : ℕ) : Phase Body → Prop
  | .read due built => built.length + due.length = batch
  | .vanished _ _ rest built => built.length + rest.length + 1 = batch
  | .send _ count => count = batch
  | _ => True

theorem full_reading {due : List Due}
    (total : built.length + due.length = batch) : Full batch (Phase.reading due built) := by
  unfold Phase.reading
  split
  · exact total
  · exact total

/-- What holds over a run that skips no deleted call of a drain that left entries out. -/
structure Whole (tail : Tail Body) : Prop where
  indexed : tail.log.Indexed
  full : tail.leftOut = true → Full tail.flow.batch tail.flow.phase
  truthful : ∀ noop ∈ tail.noops, noop.leftOut = false

theorem full_start {since : Watermark} :
    Full (flow.start log since).1.batch (flow.start log since).1.phase := by
  unfold ServeFlow.start
  split
  · trivial
  split
  · trivial
  · split <;> trivial

theorem full_scanning {w : Watermark} {chunk : ℕ} {later : List String} :
    Full batch (Phase.scanning w chunk later : Phase Body) := by
  unfold Phase.scanning
  split <;> trivial

theorem full_read {flow : ServeFlow Body} {due : Due} {built : List (Built Body)}
    {stored : Option (StoredEntry Body)} (total : built.length + (due :: rest).length = batch) :
    Full batch (flow.read log due rest built stored) := by
  have framed : ∀ frame : Built Body, (built ++ [frame]).length + rest.length = batch := by
    intro frame
    simp only [List.length_append, List.length_cons, List.length_nil] at total ⊢
    omega
  unfold ServeFlow.read
  split
  · exact full_reading (framed _)
  · exact full_reading (framed _)
  · exact total

/-- A call found gone goes out as a delete frame, unless it was deleted. -/
theorem full_lookUp {readAt : ℕ} {due : Due}
    (total : built.length + rest.length + 1 = batch)
    (notDeleted : (log.current flow.peer flow.partition due.callRef).any
      (fun current => decide (current.1 = .delete)) = false) :
    Full batch (flow.lookUp log due readAt rest built) := by
  unfold ServeFlow.lookUp
  split
  · rename_i current
    rw [current] at notDeleted
    cases notDeleted
  · apply full_reading
    simp only [List.length_append, List.length_cons, List.length_nil]
    omega

/-- A snapshot that leaves entries out takes as many as the batch limit. -/
theorem full_snapshot (indexed : tail.log.Indexed) (partially : tail.flow.batch < tail.aboveCursor.length) :
    Full tail.flow.batch (Phase.reading
      (tail.log.drain tail.flow.peer tail.flow.partition tail.flow.cursor tail.flow.batch).2 [] :
        Phase Body) := by
  apply full_reading
  unfold aboveCursor at partially
  unfold Changelog.drain
  cases found : tail.log.sub tail.flow.peer tail.flow.partition with
  | none =>
    rw [found] at partially
    exact absurd partially (Nat.not_lt_zero _)
  | some sub =>
    rw [found] at partially
    rw [SubLog.length_due (indexed _ _ sub found), List.length_nil, Nat.zero_add]
    exact Nat.min_eq_left partially.le

theorem Whole.full_flow (whole : tail.Whole) (notSkipped : tail.skipsDeleted (.flow event) = false)
    (moves : ServeFlow.Moves tail.log tail.flow event log flow sent) (leftOut : tail.leftOutAfter event = true) :
    Full flow.batch flow.phase := by
  have full := whole.full
  cases moves with
  | start phase => exact full_start
  | scanHead | scanMark | scanRead | wake => trivial
  | scanKeys | scanSend => exact full_scanning
  | snapshot phase => exact full_snapshot whole.indexed (of_decide_eq_true leftOut)
  | read stored phase =>
    have total := full leftOut
    rw [phase] at total
    exact full_read total
  | lookUp phase =>
    have total := full leftOut
    rw [phase] at total
    apply full_lookUp total
    have left : tail.leftOut = true := leftOut
    simpa [skipsDeleted, phase, left] using notSkipped
  | send phase =>
    have total := full leftOut
    rw [phase] at total
    exact total
  | settle noopDue phase =>
    unfold ServeFlow.settle
    split
    · trivial
    · split <;> trivial

/-- Only settling sends a `Noop`, and it sends none after a full batch. -/
theorem Whole.truthful_flow (whole : tail.Whole) (moves : ServeFlow.Moves tail.log tail.flow event log flow sent) :
    ∀ noop ∈ tail.noted sent, noop.leftOut = false := by
  intro noop member
  cases moves with
  | start phase =>
    unfold ServeFlow.start at member
    split at member
    · cases member
    split at member
    · cases member
    · split at member <;> cases member
  | scanSend phase =>
    rename_i frames
    have none : tail.noted (frames.map Sent.data) = [] := by
      simp [noted, List.filterMap_map]
    rw [none] at member
    cases member
  | settle noopDue phase =>
    cases leftOut : tail.leftOut with
    | true =>
      rename_i count
      have total := whole.full leftOut
      rw [phase] at total
      have full : count = tail.flow.batch := total
      unfold ServeFlow.settle at member
      rw [if_pos full] at member
      cases member
    | false =>
      unfold noted at member
      rw [List.mem_filterMap] at member
      obtain ⟨frame, -, noted⟩ := member
      cases frame with
      | noop position =>
        cases noted
        exact leftOut
      | data | reset => cases noted
  | _ => cases member

theorem Whole.step {tail next : Tail Body} {event : Event Body} (whole : tail.Whole)
    (notSkipped : tail.skipsDeleted event = false) (stepped : tail.step event = some next) :
    next.Whole := by
  cases event with
  | operation operation =>
    cases stepped
    exact ⟨whole.indexed.step operation, whole.full, whole.truthful⟩
  | flow event =>
    simp only [Tail.step, Option.map_eq_some_iff] at stepped
    obtain ⟨⟨log, flow, sent⟩, flowStep, rfl⟩ := stepped
    have moves := ServeFlow.moves_of_step flowStep
    constructor
    · exact moves.indexed whole.indexed
    · exact whole.full_flow notSkipped moves
    · intro noop member
      cases List.mem_append.mp member with
      | inl earlier => exact whole.truthful noop earlier
      | inr latest => exact whole.truthful_flow moves noop latest

/-- In every run of a flow in which no drain that left entries out skips a call deleted since its snapshot,
    every `Noop` of the catch-up edge follows a drain that snapshotted every entry above the cursor. -/
theorem noop_after_whole_drain (gen : ℕ) (deadPeerTtlMs : ℤ) (operations : List Changelog.Operation) (nowMs : ℤ)
    (peer : String) (identity : Option String) (partition : Partition) (since : Watermark) (batch : ℕ)
    (events : List (Event Body)) (final : Tail Body)
    (notSkipped : AllSteps step (fun tail event => tail.skipsDeleted event = false)
      (opened (operations.foldl Changelog.step (.new gen deadPeerTtlMs)) nowMs peer identity partition since batch)
      events)
    (ran : run step
      (opened (operations.foldl Changelog.step (.new gen deadPeerTtlMs)) nowMs peer identity partition since batch)
      events = some final) :
    ∀ noop ∈ final.noops, noop.edge = true → noop.leftOut = false := by
  intro noop member _
  have start : (opened (operations.foldl Changelog.step (.new gen deadPeerTtlMs)) nowMs peer identity partition
      since batch : Tail Body).Whole := by
    constructor
    · exact (Changelog.Indexed.foldl operations Changelog.new_indexed).pull _ _ _ _ _
    · intro leftOut
      cases leftOut
    · intro noop member
      cases member
  have whole : final.Whole :=
    run_invariant_of_steps Whole (fun _ _ _ whole met stepped => whole.step met stepped) notSkipped ran start
  exact whole.truthful noop member

/-- A backlog of one call, drained one entry at a time: the `Noop` follows the empty drain after the full
    one. -/
theorem noop_after_backlog_of_one :
    ∃ final, run step (opened ([Changelog.Operation.put 0 "w1" "call" .bak].foldl Changelog.step
      (.new 1 60000)) 0 "w1"
        none .bak ⟨1, 0⟩ 1)
        [.flow .start, .flow .snapshot, .flow (.read (some ⟨(), none⟩)), .flow .send, .flow (.settle false),
          .flow .snapshot, .flow (.settle false)] = some final ∧
      final.noops = [⟨true, false⟩] ∧ ∀ noop ∈ final.noops, noop.edge = true → noop.leftOut = false := by
  refine ⟨_, rfl, rfl, ?_⟩
  apply noop_after_whole_drain 1 60000 [.put 0 "w1" "call" .bak] 0 "w1" none .bak ⟨1, 0⟩ 1
    [.flow .start, .flow .snapshot, .flow (.read (some ⟨(), none⟩)), .flow .send, .flow (.settle false),
      .flow .snapshot, .flow (.settle false)]
  · apply allSteps_of_mem
    intro event member tail
    apply skipsDeleted_of_ne
    exact (by decide : ∀ event ∈ ([.flow .start, .flow .snapshot, .flow (.read (some ⟨(), none⟩)), .flow .send,
      .flow (.settle false), .flow .snapshot, .flow (.settle false)] : List (Event Unit)),
      event ≠ .flow .lookUp) event member
  · rfl

/-! ### A drain that skips a deleted call -/

/-- The changelog of a node that logged one put of each call toward the peer, in order. -/
structure Loaded (peer : String) (refs : List String) (log : Changelog) : Prop where
  gen : log.gen = 1
  counter : log.counter = refs.length
  sub : refs ≠ [] → ∃ sub, log.sub peer .bak = some sub ∧ sub.entries.pairs = (refs.zipIdx 1).map Prod.swap ∧
    sub.retainedFloor = 0 ∧ (∀ callRef ∈ refs, ∃ state, sub.byRef.get callRef = some state ∧ state.op = .put) ∧
    ∀ callRef ∉ refs, sub.byRef.get callRef = none
  unopened : refs = [] → log.sub peer .bak = none

theorem loaded_new {deadPeerTtlMs : ℤ} : Loaded peer [] (.new 1 deadPeerTtlMs) where
  gen := rfl
  counter := rfl
  sub nonempty := absurd rfl nonempty
  unopened _ := rfl

/-- What a peer with that log reads back, opened or not. -/
theorem Loaded.getD (loaded : Loaded peer refs log) :
    let sub := (log.sub peer .bak).getD (SubLog.new log.counter)
    sub.entries.pairs = (refs.zipIdx 1).map Prod.swap ∧ sub.retainedFloor = 0 ∧
      (∀ callRef ∈ refs, ∃ state, sub.byRef.get callRef = some state ∧ state.op = .put) ∧
      ∀ callRef ∉ refs, sub.byRef.get callRef = none := by
  by_cases nonempty : refs = []
  · subst nonempty
    rw [loaded.unopened rfl, loaded.counter]
    refine ⟨rfl, rfl, ?_, fun _ _ => rfl⟩
    intro callRef member
    cases member
  · obtain ⟨sub, found, rest⟩ := loaded.sub nonempty
    rw [found]
    exact rest

theorem Loaded.put (loaded : Loaded peer refs log) {callRef : String} (fresh : callRef ∉ refs) :
    Loaded peer (refs ++ [callRef]) (log.step (.put 0 peer callRef .bak)) where
  gen := loaded.gen
  counter := by
    rw [List.length_append, ← loaded.counter]
    rfl
  sub _ := by
    obtain ⟨pairs, floor, present, absent⟩ := loaded.getD
    have found := Changelog.sub_bump log peer peer .bak .bak 0 callRef .put .nothing
    rw [if_pos rfl, if_pos rfl] at found
    refine ⟨_, found, ?_, floor, ?_, ?_⟩
    · simp only [SubLog.put, absent callRef fresh]
      show SortedMap.insertPairs _ _ _ = _
      rw [SortedMap.insertPairs_of_above, pairs, List.zipIdx_append, List.map_append, loaded.counter]
      · simp [Nat.add_comm]
      intro pair member
      rw [pairs, List.mem_map] at member
      obtain ⟨⟨ref, index⟩, inRefs, rfl⟩ := member
      have bound := (List.mem_zipIdx inRefs).2.1
      rw [loaded.counter]
      simp only [Prod.fst_swap]
      omega
    · intro other member
      simp only [SubLog.put, KeyMap.get_insert]
      split
      · refine ⟨_, rfl, ?_⟩
        rw [absent callRef fresh]
        rfl
      rename_i apart
      rcases List.mem_append.mp member with earlier | latest
      · exact present other earlier
      · exact absurd (List.mem_singleton.mp latest) apart
    · intro other notMember
      rw [List.mem_append, List.mem_singleton, not_or] at notMember
      simp only [SubLog.put, KeyMap.get_insert, if_neg notMember.2]
      exact absent other notMember.1
  unopened empty := by simp at empty

theorem loaded_puts (peer : String) (deadPeerTtlMs : ℤ) (distinct : refs.Nodup) :
    Loaded peer refs
      ((refs.map fun callRef => Changelog.Operation.put 0 peer callRef .bak).foldl Changelog.step
        (.new 1 deadPeerTtlMs)) := by
  induction refs using List.reverseRecOn with
  | nil => exact loaded_new
  | append_singleton refs callRef hypothesis =>
    rw [List.nodup_append] at distinct
    rw [List.map_append, List.foldl_append]
    apply (hypothesis distinct.1).put
    intro member
    exact distinct.2.2 callRef member callRef List.mem_cons_self rfl

/-- Reading a body for each entry left builds as many frames. -/
theorem run_reads (entry : StoredEntry Body) (due : List Due) {tail : Tail Body} {built : List (Built Body)}
    (phase : tail.flow.phase = .reading due built) :
    ∃ frames : List (Built Body), frames.length = built.length + due.length ∧
      run step tail (List.replicate due.length (.flow (.read (some entry)))) =
        some { tail with flow := { tail.flow with phase := .send frames frames.length } } := by
  induction due generalizing tail built with
  | nil =>
    refine ⟨built, rfl, ?_⟩
    rw [Phase.reading] at phase
    rw [← phase]
    rfl
  | cons first due hypothesis =>
    obtain ⟨frame, framed⟩ : ∃ frame, tail.flow.read tail.log first due built (some entry) =
        .reading due (built ++ [frame]) := by
      unfold ServeFlow.read
      cases first.op with
      | put | delete => exact ⟨_, rfl⟩
    have stepped : tail.step (.flow (.read (some entry))) =
        some { tail with flow := { tail.flow with phase := .reading due (built ++ [frame]) } } := by
      rw [Phase.reading] at phase
      simp only [step, ServeFlow.step, phase, framed, Option.map_some, leftOutAfter, noted,
        List.filterMap_nil, List.append_nil]
    let moved : Tail Body := { tail with flow := { tail.flow with phase := .reading due (built ++ [frame]) } }
    have movedPhase : moved.flow.phase = .reading due (built ++ [frame]) := rfl
    obtain ⟨frames, length, ran⟩ := hypothesis movedPhase
    refine ⟨frames, ?_, ?_⟩
    · simp only [List.length_append, List.length_cons, List.length_nil] at length ⊢
      omega
    · exact run_cons.2 ⟨_, stepped, ran⟩

/-- Sending every frame leaves what an observer notes as it was. -/
theorem run_sends (frames : List (Built Body)) {tail : Tail Body} {count : ℕ}
    (phase : tail.flow.phase = .send frames count) :
    ∃ cursor, run step tail (List.replicate frames.length (.flow .send)) =
      some { tail with flow := { tail.flow with cursor := cursor, phase := .send [] count } } := by
  induction frames generalizing tail with
  | nil =>
    refine ⟨tail.flow.cursor, ?_⟩
    rw [← phase]
    rfl
  | cons built frames hypothesis =>
    have stepped : tail.step (.flow .send) =
        some { tail with
          flow := { tail.flow with cursor := built.frame.position, phase := .send frames count } } := by
      simp only [step, ServeFlow.step, phase, Option.map_some, leftOutAfter, noted,
        List.filterMap_cons, List.filterMap_nil, List.append_nil]
    let moved : Tail Body := { tail with
      flow := { tail.flow with cursor := built.frame.position, phase := .send frames count } }
    have movedPhase : moved.flow.phase = .send frames count := rfl
    obtain ⟨cursor, ran⟩ := hypothesis movedPhase
    exact ⟨cursor, run_cons.2 ⟨_, stepped, ran⟩⟩

/-- The name of the `i`th call of the run below. -/
def callName (i : ℕ) : String := String.ofList (List.replicate i 'c')

theorem callName_injective : Function.Injective callName := by
  intro i j same
  have lists := congrArg (fun name => name.toList.length) same
  simpa [callName] using lists

/-- One more call than a drain of `batch` entries takes. -/
def oneTooMany (batch : ℕ) : List String := (List.range (batch + 1)).map callName

/-- A changelog with one put of each of them toward `w1`. -/
def backlog (batch : ℕ) : Changelog :=
  ((oneTooMany batch).map fun callRef => Changelog.Operation.put 0 "w1" callRef .bak).foldl Changelog.step
    (.new 1 60000)

/-- A drain of that log during which the first call is deleted between the snapshot and its body read. -/
def partialDrain (batch : ℕ) : List (Event Unit) :=
  [.flow .start, .flow .snapshot, .operation (.delete 0 "w1" (callName 0) .bak false none), .flow (.read none),
    .flow .lookUp] ++
  (List.replicate (batch - 1) (.flow (.read (some ⟨(), none⟩))) ++
    (List.replicate (batch - 1) (.flow .send) ++ [.flow (.settle false)]))

/-- What the pulled log holds: an entry for each call, the first one's at counter 1. -/
theorem backlog_sub (batch : ℕ) :
    ∃ sub, ((backlog batch).serving 0 "w1" .bak).sub "w1" .bak = some sub ∧ sub.retainedFloor = 0 ∧
      sub.entries.pairs = (1, callName 0) :: (((oneTooMany batch).tail.zipIdx 2).map Prod.swap) ∧
      ∃ state, sub.byRef.get (callName 0) = some state ∧ state.op = .put := by
  have distinct : (oneTooMany batch).Nodup := List.nodup_range.map callName_injective
  have first : oneTooMany batch = callName 0 :: (oneTooMany batch).tail := by
    rw [oneTooMany, List.range_succ_eq_map]
    rfl
  have loaded := loaded_puts "w1" 60000 distinct
  obtain ⟨pairs, floor, present, -⟩ := loaded.getD
  refine ⟨_, (Changelog.sub_serving (backlog batch) 0 "w1" "w1" .bak .bak).trans (if_pos rfl), floor, ?_, ?_⟩
  · refine Eq.trans pairs ?_
    rw [first]
    rfl
  · apply present (callName 0)
    rw [first]
    exact List.mem_cons_self

/-- Every entry of that log is above the position 0. -/
theorem backlog_above
    (pairs : sub.entries.pairs = (1, callName 0) :: (((oneTooMany batch).tail.zipIdx 2).map Prod.swap)) :
    sub.entries.above (some 0) = sub.entries.pairs := by
  unfold SortedMap.above
  rw [List.filter_eq_self]
  intro pair member
  rw [pairs] at member
  cases member with
  | head => rfl
  | tail _ later =>
    obtain ⟨⟨callRef, index⟩, inTail, rfl⟩ := List.mem_map.mp later
    have bound := (List.mem_zipIdx inTail).1
    simp only [Prod.fst_swap, Option.all_some, decide_eq_true_eq]
    omega

/-- A drain of that log starts with the first call's put. -/
theorem backlog_due (positive : 0 < batch) {state : RefState} (indexed : sub.Indexed counter)
    (pairs : sub.entries.pairs = (1, callName 0) :: (((oneTooMany batch).tail.zipIdx 2).map Prod.swap))
    (found : sub.byRef.get (callName 0) = some state) (put : state.op = .put) :
    ∃ due rest, (sub.due 0 false batch).2 = due :: rest ∧ due.callRef = callName 0 ∧ due.op = .put ∧
      rest.length = batch - 1 := by
  have length := SubLog.length_due indexed 0 batch false
  have above : sub.entries.above (if false then none else some 0) = sub.entries.pairs := backlog_above pairs
  obtain ⟨limit, rfl⟩ : ∃ limit, batch = limit + 1 := ⟨batch - 1, by omega⟩
  have total : sub.entries.pairs.length = limit + 1 + 1 := by
    rw [pairs]
    simp [oneTooMany]
  rw [above, total] at length
  simp only [SubLog.due] at length ⊢
  rw [above, pairs, List.take_succ_cons] at length ⊢
  simp only [SubLog.snapshot, found] at length ⊢
  refine ⟨_, _, rfl, rfl, put, ?_⟩
  rw [List.length_cons] at length
  omega

/-- Run on that log, the drain sends a `Noop` of the catch-up edge after a snapshot that left an entry
    out. -/
theorem partialDrain_run (batch : ℕ) (positive : 0 < batch) :
    ∃ final, run step (opened (backlog batch) 0 "w1" none .bak ⟨1, 0⟩ batch) (partialDrain batch) = some final ∧
      (⟨true, true⟩ : CatchUp) ∈ final.noops := by
  obtain ⟨sub, found, floor, pairs, state, stateFound, put⟩ := backlog_sub batch
  have gen : (backlog batch).gen = 1 := Changelog.foldl_gen _ _
  have indexed : ((backlog batch).serving 0 "w1" .bak).Indexed :=
    (Changelog.Indexed.foldl _ Changelog.new_indexed).step (.serve 0 "w1" .bak)
  generalize backlogEq : (backlog batch).serving 0 "w1" .bak = log at found indexed
  have logGen : log.gen = 1 := by
    rw [← backlogEq]
    exact gen
  have started : (opened (backlog batch) 0 "w1" none .bak ⟨1, 0⟩ batch : Tail Unit) =
      ⟨log, .opened "w1" .bak batch ⟨1, 0⟩, false, []⟩ := by
    rw [← backlogEq]
    rfl
  have notReset : log.needsReset "w1" .bak ⟨1, 0⟩ = false := by
    simp [Changelog.needsReset, logGen, found, floor]
  have first : step ⟨log, .opened "w1" .bak batch ⟨1, 0⟩, false, []⟩ (.flow .start) =
      some (⟨log, ⟨"w1", .bak, batch, ⟨1, 0⟩, false, false, .drain⟩, false, []⟩ : Tail Unit) := by
    simp [step, ServeFlow.step, ServeFlow.opened, ServeFlow.start, notReset, logGen, leftOutAfter, noted,
      Watermark.origin]
  obtain ⟨due, rest, dues, dueRef, dueOp, restLength⟩ :=
    backlog_due positive (indexed _ _ sub found) pairs stateFound put
  have drained : (log.drain "w1" .bak ⟨1, 0⟩ batch).2 = due :: rest := by
    simp [Changelog.drain, found, logGen, dues]
  have leftOut : decide (batch < (sub.entries.above (some 0)).length) = true := by
    rw [backlog_above pairs, pairs]
    simp [oneTooMany]
  -- The first call is deleted once the drain has taken its snapshot.
  let snapshotted := (log.drain "w1" .bak ⟨1, 0⟩ batch).1
  let deleted := snapshotted.step (.delete 0 "w1" (callName 0) .bak false none)
  let flow : ServeFlow Unit := ⟨"w1", .bak, batch, ⟨1, 0⟩, false, false, .drain⟩
  have second : step ⟨log, flow, false, []⟩ (.flow .snapshot) =
      some (⟨snapshotted, { flow with phase := .read (due :: rest) [] }, true, []⟩ : Tail Unit) := by
    simp [flow, snapshotted, step, ServeFlow.step, drained, Phase.reading, leftOutAfter, aboveCursor, found,
      logGen, noted]
    simpa using leftOut
  have third : step ⟨snapshotted, { flow with phase := .read (due :: rest) [] }, true, []⟩
      (.operation (.delete 0 "w1" (callName 0) .bak false none)) =
      some (⟨deleted, { flow with phase := .read (due :: rest) [] }, true, []⟩ : Tail Unit) := rfl
  have fourth : step ⟨deleted, { flow with phase := .read (due :: rest) [] }, true, []⟩ (.flow (.read none)) =
      some (⟨deleted, { flow with phase := .vanished due deleted.counter rest [] }, true, []⟩ : Tail Unit) := by
    simp [step, ServeFlow.step, ServeFlow.read, dueOp, leftOutAfter, noted]
  have current : ∃ answered, deleted.current "w1" .bak due.callRef = some (.delete, answered) := by
    rw [dueRef]
    exact Changelog.current_delete snapshotted 0 "w1" (callName 0) .bak false none
  have fifth : step ⟨deleted, { flow with phase := .vanished due deleted.counter rest [] }, true, []⟩
      (.flow .lookUp) =
      some (⟨deleted, { flow with phase := .reading rest [] }, true, []⟩ : Tail Unit) := by
    obtain ⟨answered, isDelete⟩ := current
    simp [flow, step, ServeFlow.step, ServeFlow.lookUp, isDelete, leftOutAfter, noted]
  -- The other entries are read and sent; there is one frame less than the limit.
  have reading : (⟨deleted, { flow with phase := .reading rest [] }, true, []⟩ : Tail Unit).flow.phase =
      .reading rest [] := rfl
  obtain ⟨frames, framesLength, reads⟩ := run_reads ⟨(), none⟩ rest reading
  have sending : (⟨deleted, { flow with phase := .send frames frames.length }, true, []⟩ : Tail Unit).flow.phase =
      .send frames frames.length := rfl
  obtain ⟨cursor, sends⟩ := run_sends frames sending
  have count : frames.length = batch - 1 := by
    rw [framesLength, restLength, List.length_nil, Nat.zero_add]
  have short : ¬ frames.length = batch := by omega
  rw [started]
  refine ⟨⟨deleted, ⟨"w1", .bak, batch, cursor, true, false, .idle⟩, true, [⟨true, true⟩]⟩, ?_, List.mem_cons_self⟩
  have prelude : run step ⟨log, .opened "w1" .bak batch ⟨1, 0⟩, false, []⟩
      [.flow .start, .flow .snapshot, .operation (.delete 0 "w1" (callName 0) .bak false none), .flow (.read none),
        .flow .lookUp] =
      some (⟨deleted, { flow with phase := .reading rest [] }, true, []⟩ : Tail Unit) :=
    run_cons.2 ⟨_, first, run_cons.2 ⟨_, second, run_cons.2 ⟨_, third, run_cons.2 ⟨_, fourth,
      run_cons.2 ⟨_, fifth, rfl⟩⟩⟩⟩⟩
  rw [restLength] at reads
  rw [show List.replicate frames.length (Event.flow (FlowEvent.send : FlowEvent Unit)) =
    List.replicate (batch - 1) (.flow .send) by rw [count]] at sends
  refine (run_append prelude).trans ((run_append reads).trans ((run_append sends).trans ?_))
  simp [run, flow, step, ServeFlow.step, ServeFlow.settle, ServeFlow.edge, short, leftOutAfter, noted]

/-- With a limit of 500, a drain that took 500 of 501 entries and skips a call deleted meanwhile sends 499
    frames and announces that it caught up. -/
theorem noop_after_partial_drain :
    ∃ final, run step (opened (backlog batchLimit) 0 "w1" none .bak ⟨1, 0⟩ batchLimit) (partialDrain batchLimit) =
        some final ∧ ∃ noop ∈ final.noops, noop.edge = true ∧ noop.leftOut = true := by
  obtain ⟨final, ran, noted⟩ := partialDrain_run batchLimit (by decide)
  exact ⟨final, ran, _, noted, rfl, rfl⟩

end Tail

end SipServer.Repl
