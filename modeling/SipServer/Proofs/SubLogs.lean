/-
Module: SipServer.Proofs.SubLogs
Purpose: What every sub-log of a changelog keeps over a whole run: its two indexes inverse and its counters
  in order, and the answer a delete states, latched from one delete of a call to the next.
-/
import SipServer.Proofs.ChangelogStates
import SipServer.Repl.Flow

namespace SipServer.Repl

open SipServer.Lib

variable {log : Changelog} {operation : Operation} {sub next : SubLog} {counter later : ℕ} {peer callRef : String}
  {partition : Partition} {state : RefState}

/-! ### The counters of a sub-log -/

namespace SubLog

/-- A write keeps only a mark the peer's applied position covers, and none of a call deleted before. -/
theorem nextState_firstSent {prev : Option RefState} {op : Op} {stated : Stated} {sent : ℕ}
    (marked : (sub.nextState prev counter op stated).firstSent = some sent) :
    ∃ before, prev = some before ∧ before.firstSent = some sent ∧ sent ≤ sub.acked.counter ∧
      (op = .delete ∨ before.op = .put) := by
  unfold nextState at marked
  split at marked
  · cases marked
  rename_i before
  split at marked
  · rename_i kept
    rw [Option.filter_eq_some_iff, decide_eq_true_eq] at marked
    exact ⟨before, rfl, marked.1, marked.2, kept⟩
  · cases marked

/-- The entries lie above the opening counter and at or below the head, and nothing lies above the node's
    counter. -/
structure Numbered (counter : ℕ) (sub : SubLog) : Prop where
  opened : sub.opened ≤ counter
  placed : ∀ entry callRef, (entry, callRef) ∈ sub.entries → sub.opened < entry ∧ entry ≤ sub.head
  head : sub.head ≤ counter
  floor : sub.retainedFloor ≤ counter

namespace Numbered

theorem new (counter : ℕ) : (new counter).Numbered counter :=
  ⟨le_rfl, fun _ _ member => absurd member (SortedMap.not_mem_empty _), Nat.zero_le _, le_rfl⟩

variable (numbered : sub.Numbered counter)

include numbered

theorem mono (le : counter ≤ later) : sub.Numbered later :=
  ⟨numbered.opened.trans le, numbered.placed, numbered.head.trans le, numbered.floor.trans le⟩

/-- Entries may go, and the floor rise up to the node's counter. -/
theorem fewer (entries : ∀ pair, pair ∈ next.entries → pair ∈ sub.entries) (opened : next.opened = sub.opened)
    (head : next.head = sub.head) (floor : next.retainedFloor ≤ counter) : next.Numbered counter where
  opened := opened ▸ numbered.opened
  placed entry callRef member := by
    rw [opened, head]
    exact numbered.placed entry callRef (entries _ member)
  head := head ▸ numbered.head
  floor := floor

theorem put (callRef : String) (op : Op) (stated : Stated) :
    (sub.put (counter + 1) callRef op stated).Numbered (counter + 1) where
  opened := numbered.opened.trans (Nat.le_succ _)
  placed entry other member := by
    unfold SubLog.put at member ⊢
    rw [SortedMap.mem_insert] at member
    obtain isNew | ⟨old, -⟩ := member
    · cases isNew
      exact ⟨Nat.lt_succ_of_le numbered.opened, le_max_right _ _⟩
    · have isEntry : (entry, other) ∈ sub.entries := by
        split at old
        · exact ((SortedMap.mem_remove _ _ _).1 old).1
        · exact old
      obtain ⟨above, below⟩ := numbered.placed entry other isEntry
      exact ⟨above, below.trans (le_max_left _ _)⟩
  head := max_le (numbered.head.trans (Nat.le_succ _)) le_rfl
  floor := numbered.floor.trans (Nat.le_succ _)

theorem forget (callRef : String) : (sub.forget callRef).Numbered counter := by
  unfold SubLog.forget
  split
  · exact numbered.fewer (fun pair member => ((SortedMap.mem_remove _ _ _).1 member).1) rfl rfl numbered.floor
  · exact numbered

theorem reap (indexed : sub.Indexed counter) (gen : ℕ) : (sub.reap gen).Numbered counter := by
  unfold SubLog.reap
  split
  · exact numbered
  rename_i known
  clear known
  generalize sub.appliedTombstones = refs
  induction refs generalizing sub with
  | nil => exact numbered
  | cons callRef refs hypothesis =>
    refine hypothesis ?_ (indexed.reapRef callRef)
    unfold reapRef
    split
    · rename_i state found
      refine numbered.fewer (fun pair member => ((SortedMap.mem_remove _ _ _).1 member).1) rfl rfl ?_
      exact max_le numbered.floor (indexed.bounded _ _ (indexed.entry found))
    · exact numbered

end Numbered

end SubLog

namespace Changelog

/-- Every sub-log is indexed, with its counters in order. -/
def Represented (log : Changelog) : Prop :=
  ∀ peer partition sub, log.sub peer partition = some sub → sub.Indexed log.counter ∧ sub.Numbered log.counter

theorem Represented.indexed (represented : log.Represented) : log.Indexed :=
  fun peer partition sub found => (represented peer partition sub found).1

theorem Represented.step (represented : log.Represented) (operation : Operation) :
    (log.step operation).Represented := by
  intro peer partition next found
  refine ⟨represented.indexed.step operation peer partition next found, ?_⟩
  have move := step_subMove log operation peer partition
  have grown := step_counter log operation
  have before := represented peer partition
  rw [found] at move
  generalize log.sub peer partition = start at move before
  generalize reached : some next = result at move
  have opened : (start.getD (SubLog.new log.counter)).Numbered log.counter := by
    cases start with
    | none => exact .new _
    | some sub => exact (before sub rfl).2
  cases move with
  | keep =>
    subst reached
    exact (before next rfl).2.mono grown
  | create _ same =>
    cases reached
    refine ((SubLog.Numbered.new log.counter).fewer ?_ same.opened same.head same.retainedFloor.le).mono grown
    exact fun pair member => same.entries ▸ member
  | put | delete =>
    cases reached
    exact opened.put ..
  | forget callRef sub =>
    cases reached
    exact ((before sub rfl).2.forget callRef).mono grown
  | drain _ _ sub | scan _ sub =>
    cases reached
    obtain ⟨-, opened, placed, head, floor⟩ := before sub rfl
    exact SubLog.Numbered.mono ⟨opened, placed, head, floor⟩ grown
  | progress same =>
    cases reached
    have numbered := (before _ rfl).2
    refine (numbered.fewer ?_ same.opened same.head (same.retainedFloor ▸ numbered.floor)).mono grown
    exact fun pair member => same.entries ▸ member
  | reap nowMs sub =>
    cases reached
    obtain ⟨indexed, numbered⟩ := before sub rfl
    exact (numbered.reap indexed log.gen).mono grown
  | drop => cases reached

/-- No call is marked sent above the node's counter. -/
def SentBelow (log : Changelog) : Prop :=
  ∀ peer partition callRef state sent, log.stateOf peer partition callRef = some state →
    state.firstSent = some sent → sent ≤ log.counter

/-- A scan is marked at a position the changelog has reached. -/
def Operation.Reached (log : Changelog) (operation : Operation) : Prop :=
  ∀ peer partition w, operation = .scan peer partition w → w.counter ≤ log.counter

theorem SentBelow.step (below : log.SentBelow) (indexed : log.Indexed) (reached : operation.Reached log) :
    (log.step operation).SentBelow := by
  intro peer partition callRef state sent found isSent
  refine le_trans ?_ (step_counter log operation)
  have move := step_stateMove indexed operation peer partition callRef
  have before := below peer partition callRef
  have bounded : ∀ state, log.stateOf peer partition callRef = some state → state.counter ≤ log.counter :=
    fun state => indexed.state_le
  rw [found] at move
  generalize log.stateOf peer partition callRef = start at move before bounded
  cases move with
  | same => exact before state sent rfl isSent
  | marked state counter le at_ =>
    cases isFirst : state.firstSent with
    | some first =>
      rw [SubLog.markSent, isFirst] at isSent
      exact before state sent rfl (isFirst.trans isSent)
    | none =>
      rw [SubLog.markSent, isFirst] at isSent
      cases isSent
      obtain same | ⟨w, isScan, same⟩ := at_
      · exact same.trans_le (bounded state rfl)
      · exact same.trans_le (reached peer partition w isScan)
  | put | delete =>
    obtain ⟨prev, isPrev, marked, -⟩ := SubLog.nextState_firstSent isSent
    exact before prev sent isPrev marked

/-- Every scan of a run is marked at a position the changelog has reached by then. -/
def ScansReached : Changelog → List Operation → Prop
  | _, [] => True
  | log, operation :: operations => operation.Reached log ∧ ScansReached (log.step operation) operations

/-- Over every run of the changelog, each sub-log's entries and states are inverse, every entry lies above
    the opening counter and at or below the head, and neither head nor floor lies above the node's counter. A
    call's first-sent counter does not either, as long as every scan is marked at a position the changelog
    has reached. -/
theorem sublogs_represented (gen : ℕ) (deadPeerTtlMs : ℤ) (operations : List Operation) :
    (operations.foldl step (new gen deadPeerTtlMs)).Represented ∧
      (ScansReached (new gen deadPeerTtlMs) operations →
        (operations.foldl step (new gen deadPeerTtlMs)).SentBelow) := by
  have run : ∀ (operations : List Operation) (log : Changelog), log.Represented →
      (operations.foldl step log).Represented ∧
        (log.SentBelow → ScansReached log operations → (operations.foldl step log).SentBelow) := by
    intro operations
    induction operations with
    | nil => exact fun log represented => ⟨represented, fun below _ => below⟩
    | cons operation operations hypothesis =>
      intro log represented
      obtain ⟨kept, sent⟩ := hypothesis (log.step operation) (represented.step operation)
      exact ⟨kept, fun below scans => sent (below.step represented.indexed scans.1) scans.2⟩
  obtain ⟨represented, below⟩ := run operations (new gen deadPeerTtlMs) (by rintro _ _ _ ⟨⟩)
  exact ⟨represented, below (by rintro _ _ _ _ _ ⟨⟩)⟩

/-- A call put, scanned at the head and drained is marked where it was scanned. -/
theorem scanned_at_head_represented :
    ([Operation.put 0 "w1" "call" .bak, .scan "w1" .bak ⟨7, 1⟩, .drain "w1" .bak ⟨7, 0⟩ 500].foldl step
      (new 7 60000)).SentBelow := by
  apply (sublogs_represented 7 60000 [.put 0 "w1" "call" .bak, .scan "w1" .bak ⟨7, 1⟩, .drain "w1" .bak ⟨7, 0⟩ 500]).2
  refine ⟨nofun, ?_, nofun, trivial⟩
  rintro peer partition w ⟨⟩
  exact le_rfl

/-- A scan marked at a position the changelog never reached marks a call above the node's counter. -/
theorem scan_past_head_marks_above :
    let log := [Operation.put 0 "w1" "call" .bak, .scan "w1" .bak ⟨7, 9⟩].foldl step (new 7 60000)
    (log.stateOf "w1" .bak "call").bind (·.firstSent) = some 9 ∧ log.counter = 1 := by
  decide

/-! ### The answered latch -/

/-- The changelog after a history, its newest operation first. -/
def after (gen : ℕ) (deadPeerTtlMs : ℤ) : List Operation → Changelog
  | [] => new gen deadPeerTtlMs
  | operation :: history => (after gen deadPeerTtlMs history).step operation

/-- Some delete of the call stated it answered, and since then the call was not put again nor its entry
    removed. -/
inductive StatedAnswer (gen : ℕ) (deadPeerTtlMs : ℤ) (peer : String) (partition : Partition) (callRef : String) :
    List Operation → Prop
  | stated (history : List Operation) (nowMs : ℤ) (incarnation : Option String) :
      StatedAnswer gen deadPeerTtlMs peer partition callRef
        (.delete nowMs peer callRef partition true incarnation :: history)
  | since (operation : Operation) (history : List Operation)
      (earlier : StatedAnswer gen deadPeerTtlMs peer partition callRef history)
      (notPut : ∀ nowMs, operation ≠ .put nowMs peer callRef partition)
      (present : ((after gen deadPeerTtlMs (operation :: history)).stateOf peer partition callRef).isSome) :
      StatedAnswer gen deadPeerTtlMs peer partition callRef (operation :: history)

variable {gen : ℕ} {deadPeerTtlMs : ℤ}

theorem after_indexed (history : List Operation) : (after gen deadPeerTtlMs history).Indexed := by
  induction history with
  | nil => exact new_indexed
  | cons operation history ih => exact ih.step operation

theorem after_move (operation : Operation) (history : List Operation) :
    StateMove (after gen deadPeerTtlMs history) peer partition callRef operation
      ((after gen deadPeerTtlMs history).stateOf peer partition callRef)
      ((after gen deadPeerTtlMs (operation :: history)).stateOf peer partition callRef) :=
  step_stateMove (after_indexed history) operation peer partition callRef

/-- A write states what it is told, and a delete what the delete it replaces stated. -/
theorem nextState_answered {prev : Option RefState} {op : Op} {stated : Stated} :
    (sub.nextState prev counter op stated).answered = (stated.answered ||
      (decide (op = .delete) && prev.any fun prev => decide (prev.op = .delete) && prev.answered)) := by
  cases prev <;> simp [SubLog.nextState, Bool.and_assoc]

/-- An entry that states an answer is a delete's, and some delete stated it. -/
theorem stated_of_answered {history : List Operation}
    (found : (after gen deadPeerTtlMs history).stateOf peer partition callRef = some state)
    (answered : state.answered = true) :
    state.op = .delete ∧ StatedAnswer gen deadPeerTtlMs peer partition callRef history := by
  induction history generalizing state with
  | nil => cases found
  | cons operation history ih =>
    have move := @after_move peer callRef partition gen deadPeerTtlMs operation history
    have present : ((after gen deadPeerTtlMs (operation :: history)).stateOf peer partition callRef).isSome := by
      rw [found]
      rfl
    have notPut : ∀ nowMs, operation ≠ .put nowMs peer callRef partition := by
      rintro nowMs rfl
      have written := found
      rw [after, step, bumpPut, stateOf_bump, if_pos rfl] at written
      cases written
      rw [nextState_answered] at answered
      cases answered
    rw [found] at move
    generalize (after gen deadPeerTtlMs history).stateOf peer partition callRef = before at move ih
    cases move with
    | same | marked =>
      obtain ⟨op, earlier⟩ := ih rfl answered
      exact ⟨op, .since operation history earlier notPut present⟩
    | put nowMs _ _ isPut => exact absurd isPut (notPut nowMs)
    | delete nowMs told incarnation _ _ isDelete =>
      subst isDelete
      refine ⟨SubLog.nextState_op, ?_⟩
      cases told with
      | true => exact .stated history nowMs incarnation
      | false =>
        rw [nextState_answered] at answered
        cases before with
        | none => cases answered
        | some prev =>
          obtain ⟨-, earlier⟩ := ih rfl (Bool.and_eq_true_iff.1 answered).2
          exact .since _ history earlier notPut present

/-- What a delete stated stands in the entry until a put or a removal. -/
theorem StatedAnswer.answered {history : List Operation}
    (stated : StatedAnswer gen deadPeerTtlMs peer partition callRef history) :
    ∃ state, (after gen deadPeerTtlMs history).stateOf peer partition callRef = some state ∧ state.op = .delete ∧
      state.answered = true := by
  induction stated with
  | stated history nowMs incarnation =>
    rw [after, step, bumpDelete, stateOf_bump, if_pos rfl]
    refine ⟨_, rfl, SubLog.nextState_op, ?_⟩
    rw [nextState_answered]
    rfl
  | since operation history earlier notPut present ih =>
    obtain ⟨prev, found, isDelete, answered⟩ := ih
    have move := @after_move peer callRef partition gen deadPeerTtlMs operation history
    rw [found] at move
    generalize (after gen deadPeerTtlMs (operation :: history)).stateOf peer partition callRef = next at move present
    cases move with
    | same | marked => exact ⟨_, rfl, isDelete, answered⟩
    | put nowMs _ _ isPut => exact absurd isPut (notPut nowMs)
    | delete =>
      refine ⟨_, rfl, SubLog.nextState_op, ?_⟩
      simp [nextState_answered, isDelete, answered]
    | forgotten | reaped => cases present

theorem answered_iff {history : List Operation}
    (found : (after gen deadPeerTtlMs history).stateOf peer partition callRef = some state) :
    state.answered = true ↔ StatedAnswer gen deadPeerTtlMs peer partition callRef history := by
  constructor
  · exact fun answered => (stated_of_answered found answered).2
  · intro stated
    obtain ⟨other, otherFound, -, answered⟩ := stated.answered
    cases found.symm.trans otherFound
    exact answered

/-- Over every history of a changelog: a delete a drain snapshots goes out stating an answer exactly when
    some delete of its call stated one since the call's last put and its entry's last removal, whenever its
    frame is built; and so does, by the history up to its lookup, a put whose body was gone. -/
theorem drained_delete_states_answer {Body : Type} (gen : ℕ) (deadPeerTtlMs : ℤ) (history : List Operation)
    (flow : ServeFlow Body) (due : Due) (rest : List Due) (built : List (Built Body)) :
    let log := after gen deadPeerTtlMs history
    let Answered := StatedAnswer gen deadPeerTtlMs flow.peer flow.partition due.callRef history
    (∀ since limit, due ∈ (log.drain flow.peer flow.partition since limit).2 → due.op = .delete → ∀ later stored,
      ∃ frame, flow.read later due rest built stored = .reading rest (built ++ [frame]) ∧
        frame.frame.op = .delete ∧ frame.frame.callRef = due.callRef ∧ (frame.frame.answered = true ↔ Answered)) ∧
    ∀ readAt, flow.lookUp log due readAt rest built = .reading rest built ∨
      ∃ frame, flow.lookUp log due readAt rest built = .reading rest (built ++ [frame]) ∧
        frame.frame.op = .delete ∧ frame.frame.callRef = due.callRef ∧ (frame.frame.answered = true ↔ Answered) := by
  intro log Answered
  constructor
  · intro since limit member isDelete later stored
    refine ⟨⟨deleteFrame ⟨later.gen, due.counter⟩ flow.partition due.callRef due.answered due.incarnation,
      due.counter⟩,
      by simp only [ServeFlow.read, isDelete], rfl, rfl, ?_⟩
    obtain ⟨state, found, -, answered⟩ : ∃ state, log.stateOf flow.peer flow.partition due.callRef = some state ∧
        state.op = due.op ∧ state.answered = due.answered := by
      unfold drain at member
      unfold stateOf
      split at member
      · cases member
      · rename_i sub found
        rw [found]
        exact snapshot_states _ sub.byRef member
    show due.answered = true ↔ _
    rw [← answered]
    exact answered_iff found
  · intro readAt
    unfold ServeFlow.lookUp
    rw [current_eq]
    cases found : log.stateOf flow.peer flow.partition due.callRef with
    | none =>
      refine .inr ⟨_, rfl, rfl, rfl, by rintro ⟨⟩, ?_⟩
      intro stated
      obtain ⟨state, isState, -⟩ := stated.answered
      cases found.symm.trans isState
    | some state =>
      rw [Option.map_some]
      cases isOp : state.op with
      | delete => exact .inl rfl
      | put => exact .inr ⟨_, rfl, rfl, rfl, answered_iff found⟩

/-- After any history, a drain from a counter of the incarnation yields a call once at most, in counter order
    and as the call's state says, leaves no entry out below the last it yields, and yields every entry above
    that counter, up to its limit. -/
theorem drain_yields_in_order (history : List Operation) (counter limit : ℕ) :
    let log := after gen deadPeerTtlMs history
    let dues := (log.drain peer partition ⟨log.gen, counter⟩ limit).2
    log.Drained peer partition counter dues ∧ (dues.map (·.callRef)).Nodup ∧
      dues.length = min limit
        ((log.sub peer partition).elim 0 fun sub => (sub.entries.above (some counter)).length) := by
  intro log dues
  have indexed : log.Indexed := after_indexed history
  have drained : log.Drained peer partition (Watermark.mk log.gen counter).counter dues := indexed.drained rfl limit
  refine ⟨drained, List.pairwise_map.2 (drained.ascending.imp_of_mem fun isEarlier isLater below same => ?_), ?_⟩
  · -- a call has one state, and it one counter
    obtain ⟨state, found, counted, -⟩ := drained.states _ isEarlier
    obtain ⟨other, otherFound, otherCounted, -⟩ := drained.states _ isLater
    cases found.symm.trans (same ▸ otherFound)
    exact below.ne (counted.symm.trans otherCounted)
  · have warm : decide (log.gen < log.gen) = false := decide_eq_false (lt_irrefl _)
    simp only [dues, drain, warm]
    cases found : log.sub peer partition with
    | none => exact (Nat.min_zero limit).symm
    | some sub => exact SubLog.length_due (indexed peer partition sub found) counter limit false

end Changelog

end SipServer.Repl
