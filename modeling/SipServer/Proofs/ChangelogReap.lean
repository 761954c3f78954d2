/-
Module: SipServer.Proofs.ChangelogReap
Purpose: No delete is lost across reaping: a warm pull that is not reset still finds an entry of every call
  deleted after the position it resumes from.
-/
import SipServer.Proofs.ChangelogStates

namespace SipServer.Repl

open SipServer.Lib

variable {callRef : String} {log : Changelog} {counter : ℕ}

namespace SubLog

variable {partition : Partition} {peer : String}

/-- A drain that can take every entry yields each call with an entry above the position it starts from. -/
theorem due_complete {sub : SubLog} {since limit : ℕ} (indexed : sub.Indexed counter)
    (enough : sub.entries.pairs.length ≤ limit) {state : RefState}
    (found : sub.byRef.get callRef = some state) (above : since < state.counter) :
    ∃ due ∈ (sub.due since false limit).2, due.callRef = callRef ∧ since < due.counter := by
  have due : (state.counter, callRef) ∈ sub.entries.above (some since) := by
    rw [SortedMap.mem_above]
    refine ⟨indexed.entry found, ?_⟩
    rintro key ⟨⟩
    exact above
  have whole : (sub.entries.above (some since)).take limit = sub.entries.above (some since) :=
    List.take_of_length_le ((List.length_filter_le _ _).trans enough)
  rw [← whole] at due
  have pairs := due_pairs indexed since false limit
  rw [if_neg Bool.false_ne_true] at pairs
  rw [← pairs] at due
  obtain ⟨yielded, member, same⟩ := List.mem_map.mp due
  obtain ⟨counter, ref⟩ := Prod.mk.injEq _ _ _ _ ▸ same
  exact ⟨yielded, member, ref, counter ▸ above⟩

/-! ### A delete stays visible -/

/-- A sub-log still shows the write of `callRef` at `counter`: by an entry of the call at or above it, or by
    a floor that no warm pull below it passes. -/
def Keeps (callRef : String) (counter : ℕ) (sub : SubLog) : Prop :=
  counter ≤ sub.retainedFloor ∨ ∃ state, sub.byRef.get callRef = some state ∧ counter ≤ state.counter

namespace Keeps

variable {callRef : String} {counter : ℕ} {sub next : SubLog}

theorem congr (keeps : sub.Keeps callRef counter) (floor : next.retainedFloor = sub.retainedFloor)
    (states : SameStates sub.byRef next.byRef) : next.Keeps callRef counter := by
  cases keeps with
  | inl below => exact .inl (floor ▸ below)
  | inr present =>
    obtain ⟨state, found, le⟩ := present
    obtain ⟨moved, movedFound, same⟩ := states.get found
    exact .inr ⟨moved, movedFound, RefState.counter_of_unsent same ▸ le⟩

/-- A later write of the call takes the entry's place, one of another call leaves it. -/
theorem put (keeps : sub.Keeps callRef counter) {entry : ℕ} (le : counter ≤ entry) (written : String) (op : Op)
    (stated : Stated) : (sub.put entry written op stated).Keeps callRef counter := by
  cases keeps with
  | inl below => exact .inl below
  | inr present =>
    obtain ⟨state, found, kept⟩ := present
    right
    show ∃ moved, (sub.byRef.insert written _).get callRef = some moved ∧ _
    rw [KeyMap.get_insert]
    split
    · refine ⟨_, rfl, ?_⟩
      rw [nextState_counter]
      exact le
    · exact ⟨state, found, kept⟩

theorem written (sub : SubLog) (callRef : String) (entry : ℕ) (op : Op) (stated : Stated) :
    (sub.put entry callRef op stated).Keeps callRef entry := by
  right
  refine ⟨_, (KeyMap.get_insert _ _ _ _).trans (if_pos rfl), ?_⟩
  rw [nextState_counter]

theorem forget (keeps : sub.Keeps callRef counter) {other : String} (apart : callRef ≠ other) :
    (sub.forget other).Keeps callRef counter := by
  unfold SubLog.forget
  split
  · cases keeps with
    | inl below => exact .inl below
    | inr present =>
      obtain ⟨state, found, kept⟩ := present
      right
      refine ⟨state, ?_, kept⟩
      rw [KeyMap.get_remove, if_neg apart]
      exact found
  · exact keeps

/-- Reaping a tombstone raises the floor to it. -/
theorem reapRef (keeps : sub.Keeps callRef counter) (other : String) :
    (sub.reapRef other).Keeps callRef counter := by
  unfold SubLog.reapRef
  split
  · rename_i reaped reapedFound
    cases keeps with
    | inl below => exact .inl (below.trans (le_max_left _ _))
    | inr present =>
      obtain ⟨state, found, kept⟩ := present
      by_cases same : callRef = other
      · left
        rw [same, reapedFound] at found
        cases found
        exact kept.trans (le_max_right _ _)
      · right
        refine ⟨state, ?_, kept⟩
        rw [KeyMap.get_remove, if_neg same]
        exact found
  · exact keeps

theorem reap (keeps : sub.Keeps callRef counter) (gen : ℕ) : (sub.reap gen).Keeps callRef counter := by
  unfold SubLog.reap
  split
  · exact keeps
  rename_i known
  clear known
  generalize sub.appliedTombstones = refs
  induction refs generalizing sub with
  | nil => exact keeps
  | cons reaped refs hypothesis => exact hypothesis (keeps.reapRef reaped)

end Keeps

end SubLog

namespace Changelog

/-- An operation that drops the call's entry toward the peer, whatever it is. -/
def Operation.Forgets (peer : String) (partition : Partition) (callRef : String) (operation : Operation) : Prop :=
  operation = .forget peer partition callRef

instance (peer : String) (partition : Partition) (callRef : String) (operation : Operation) :
    Decidable (operation.Forgets peer partition callRef) :=
  inferInstanceAs (Decidable (_ = _))

/-- The node counted the write, and the sub-log shows it while there is one. -/
structure Keeps (peer : String) (partition : Partition) (callRef : String) (counter : ℕ)
    (log : Changelog) : Prop where
  counted : counter ≤ log.counter
  shown : ∀ sub, log.sub peer partition = some sub → sub.Keeps callRef counter

theorem Keeps.step (keeps : log.Keeps peer partition callRef counter)
    (operation : Operation) (notForgotten : ¬ operation.Forgets peer partition callRef) :
    (log.step operation).Keeps peer partition callRef counter where
  counted := keeps.counted.trans (step_counter log operation)
  shown := by
    intro next found
    have move := step_subMove log operation peer partition
    have before := keeps.shown
    have counted := keeps.counted
    rw [found] at move
    generalize log.sub peer partition = sub at move before
    generalize reached : some next = result at move
    -- A log opened or re-opened starts with the node's counter as its floor.
    have opened : (sub.getD (SubLog.new log.counter)).Keeps callRef counter := by
      cases sub with
      | none => exact .inl counted
      | some sub => exact before sub rfl
    cases move with
    | keep =>
      subst reached
      exact before next rfl
    | create _ same acked unbound =>
      cases reached
      left
      rw [same.retainedFloor]
      exact counted
    | put nowMs written =>
      cases reached
      exact opened.put (counted.trans (Nat.le_succ _)) written .put .nothing
    | delete nowMs written answered incarnation =>
      cases reached
      exact opened.put (counted.trans (Nat.le_succ _)) written .delete ⟨answered, incarnation⟩
    | forget other sub =>
      cases reached
      apply (before sub rfl).forget
      rintro rfl
      exact notForgotten rfl
    | drain since limit sub =>
      cases reached
      exact (before sub rfl).congr rfl (sameStates_snapshot _ sub.byRef)
    | scan w sub =>
      cases reached
      exact (before sub rfl).congr rfl (sameStates_scanned sub w.counter)
    | progress same progress =>
      cases reached
      apply (before _ rfl).congr same.retainedFloor
      rw [same.byRef]
      exact SameStates.refl _
    | reap nowMs sub =>
      cases reached
      exact (before sub rfl).reap log.gen
    | drop nowMs sub => cases reached

theorem Keeps.foldl (operations : List Operation) (keeps : log.Keeps peer partition callRef counter)
    (notForgotten : ∀ operation ∈ operations, ¬ operation.Forgets peer partition callRef) :
    (operations.foldl Changelog.step log).Keeps peer partition callRef counter := by
  induction operations generalizing log with
  | nil => exact keeps
  | cons operation operations hypothesis =>
    apply hypothesis
    · exact keeps.step operation (notForgotten operation List.mem_cons_self)
    intro later member
    exact notForgotten later (List.mem_cons_of_mem _ member)

/-- A log that shows a write above `since` and does not reset a pull at `since` yields the write's call. -/
theorem Keeps.drain {limit : ℕ} {sub : SubLog} {since : Watermark}
    (keeps : log.Keeps peer partition callRef counter) (indexed : log.Indexed)
    (found : log.sub peer partition = some sub) (incarnation : since.gen = log.gen) (above : since.counter < counter)
    (notReset : log.needsReset peer partition since = false) (enough : sub.entries.pairs.length ≤ limit) :
    ∃ due ∈ (log.drain peer partition since limit).2,
      due.callRef = callRef ∧ since.counter < due.counter := by
  have within : ¬ log.counter < since.counter := by
    have counted := keeps.counted
    omega
  have warm : decide (since.gen < log.gen) = false := by
    rw [incarnation]
    exact decide_eq_false (Nat.lt_irrefl _)
  have passed : ¬ since.counter < sub.retainedFloor := by
    simpa [needsReset, incarnation, within, found] using notReset
  have drained : (log.drain peer partition since limit).2 = (sub.due since.counter false limit).2 := by
    simp only [Changelog.drain, found, warm]
  rw [drained]
  cases keeps.shown sub found with
  | inl below => omega
  | inr present =>
    obtain ⟨state, stateFound, kept⟩ := present
    exact SubLog.due_complete (indexed peer partition sub found) enough stateFound (above.trans_le kept)

/-- A pull opens the peer's log when there is none. -/
theorem sub_served {nowMs : ℤ} :
    ∃ sub, (log.serving nowMs peer partition).sub peer partition = some sub := by
  rw [sub_serving, if_pos rfl]
  exact ⟨_, rfl⟩

/-- Whatever was written, reported, rebound, reaped, dropped and opened again after a delete was logged
    toward a peer, a warm pull at a position below it that is not reset finds an entry of the deleted call
    above that position, unless the call's entry was forgotten. -/
theorem no_delete_lost_across_reaping (gen : ℕ) (deadPeerTtlMs : ℤ) (before after : List Operation)
    (peer callRef : String) (partition : Partition) (deletedMs pulledMs : ℤ) (answered : Bool)
    (incarnation : Option String) (since : Watermark) (limit : ℕ) :
    let logged := (before.foldl step (new gen deadPeerTtlMs)).bumpDelete deletedMs peer callRef partition
      answered incarnation
    let pulled := (after.foldl step logged.1).serving pulledMs peer partition
    (∀ operation ∈ after, ¬ operation.Forgets peer partition callRef) →
    since.gen = gen →
    since.counter < logged.2.counter →
    pulled.needsReset peer partition since = false →
    (∀ sub, pulled.sub peer partition = some sub → sub.entries.pairs.length ≤ limit) →
    ∃ due ∈ (pulled.drain peer partition since limit).2,
      due.callRef = callRef ∧ since.counter < due.counter := by
  intro logged pulled notForgotten sameIncarnation above notReset enough
  let start := before.foldl step (new gen deadPeerTtlMs)
  let deletion := Operation.delete deletedMs peer callRef partition answered incarnation
  have written : logged.1.Keeps peer partition callRef logged.2.counter := by
    constructor
    · exact Nat.le_refl _
    · intro sub found
      have moved := sub_bump start peer peer partition partition deletedMs callRef .delete ⟨answered, incarnation⟩
      rw [if_pos rfl, if_pos rfl] at moved
      cases moved.symm.trans found
      exact SubLog.Keeps.written _ callRef _ .delete ⟨answered, incarnation⟩
  have kept : pulled.Keeps peer partition callRef logged.2.counter := by
    have served : ¬ (Operation.serve pulledMs peer partition).Forgets peer partition callRef := by
      intro forgets
      cases forgets
    exact (written.foldl after notForgotten).step (.serve pulledMs peer partition) served
  have indexed : pulled.Indexed := by
    have first : start.Indexed := Indexed.foldl before new_indexed
    have second : logged.1.Indexed := first.step deletion
    exact (Indexed.foldl after second).step (.serve pulledMs peer partition)
  have incarnations : pulled.gen = gen := by
    have first : start.gen = gen := foldl_gen before _
    have second : (after.foldl step logged.1).gen = start.gen := foldl_gen after _
    exact second.trans first
  obtain ⟨sub, found⟩ := sub_served
  exact kept.drain indexed found (sameIncarnation.trans incarnations.symm) above notReset (enough sub found)

/-- A delete the peer has not applied is drained after a reap. -/
theorem unapplied_delete_drained :
    ∃ due ∈ (((([Operation.reap 1].foldl step
      (([Operation.put 0 "w1" "call" .bak].foldl step (new 7 60000)).bumpDelete 1 "w1" "call" .bak true
        none).1).serving
        2 "w1" .bak).drain "w1" .bak ⟨7, 1⟩ 500).2), due.callRef = "call" ∧ 1 < due.counter := by
  apply no_delete_lost_across_reaping 7 60000 [.put 0 "w1" "call" .bak] [.reap 1] "w1" "call" .bak 1 2 true none
    ⟨7, 1⟩ 500
  · decide
  · rfl
  · decide
  · rfl
  · intro sub found
    cases found
    decide

end Changelog

end SipServer.Repl
