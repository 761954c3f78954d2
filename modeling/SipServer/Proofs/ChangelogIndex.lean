/-
Module: SipServer.Proofs.ChangelogIndex
Purpose: What each operation of the changelog does to one sub-log, and that in every sub-log the ordered
  entries and the per-call states are inverse to each other.
-/
import SipServer.Repl.Changelog

namespace SipServer.Repl

open SipServer.Lib

variable {state : RefState} {callRef : String} {change : SubLog → SubLog} {log : Changelog}
  {byRef : KeyMap String RefState} {other : String} {partition : Partition} {operation : Operation} {counter : ℕ}
  {next : KeyMap String RefState} {peer : String}

/-! ### Reading one sub-log after an operation -/

namespace PeerLog

theorem sub_changeSub (log : PeerLog) (partition other : Partition) (change : SubLog → SubLog) :
    (log.changeSub partition change).sub other =
      if other = partition then change (log.sub other) else log.sub other := by
  cases partition <;> cases other <;> rfl

end PeerLog

namespace Changelog

variable (log : Changelog) (peer other : String) (partition flow : Partition)

theorem sub_changeSub (change : SubLog → SubLog) :
    (log.changeSub peer partition change).sub other flow =
      if other = peer ∧ flow = partition then (log.sub other flow).map change else log.sub other flow := by
  unfold sub changeSub
  rw [KeyMap.get_modify]
  by_cases samePeer : other = peer
  · rw [if_pos samePeer, Option.map_map]
    by_cases sameFlow : flow = partition
    · rw [if_pos ⟨samePeer, sameFlow⟩, Option.map_map]
      congr 1
      funext peerLog
      exact (peerLog.sub_changeSub partition flow change).trans (if_pos sameFlow)
    · rw [if_neg fun both => sameFlow both.2]
      congr 1
      funext peerLog
      exact (peerLog.sub_changeSub partition flow change).trans (if_neg sameFlow)
  · rw [if_neg samePeer, if_neg fun both => samePeer both.1]

/-- A peer with no log is read as one just opened. -/
theorem sub_peerLogOrNew {nowMs : ℤ} :
    (log.peerLogOrNew nowMs peer counter).sub partition =
      (log.sub peer partition).getD (SubLog.new counter) := by
  unfold peerLogOrNew sub
  cases log.peers.get peer with
  | none => cases partition <;> rfl
  | some peerLog => rfl

theorem sub_bump (nowMs : ℤ) (callRef : String) (op : Op) (stated : Stated) :
    (log.bump nowMs peer callRef op partition stated).1.sub other flow =
      if other = peer then
        if flow = partition then
          some (((log.sub other flow).getD (SubLog.new log.counter)).put (log.counter + 1) callRef op stated)
        else some ((log.sub other flow).getD (SubLog.new log.counter))
      else log.sub other flow := by
  by_cases samePeer : other = peer
  · subst samePeer
    simp only [bump, sub, KeyMap.get_insert, if_true, Option.map_some]
    rw [PeerLog.sub_changeSub, sub_peerLogOrNew]
    split <;> rfl
  · simp only [bump, sub, KeyMap.get_insert, if_neg samePeer]

theorem sub_reap {nowMs : ℤ} :
    (log.reap nowMs).sub peer partition = none ∨
      (log.reap nowMs).sub peer partition = (log.sub peer partition).map fun sub => sub.reap log.gen := by
  unfold sub reap
  rw [KeyMap.get_filterMap]
  cases log.peers.get peer with
  | none => exact .inl rfl
  | some peerLog =>
    rw [Option.bind_some]
    split
    · right
      cases partition <;> rfl
    · exact .inl rfl

theorem sub_drain {since : Watermark} {limit : ℕ} :
    (log.drain peer partition since limit).1.sub other flow =
      if other = peer ∧ flow = partition then
        (log.sub other flow).map fun sub => (sub.due since.counter (decide (since.gen < log.gen)) limit).1
      else log.sub other flow := by
  unfold drain
  cases found : log.sub peer partition with
  | some sub => exact sub_changeSub log peer other partition flow _
  | none =>
    dsimp only
    split
    · rename_i same
      rw [same.1, same.2, found]
      rfl
    · rfl

end Changelog

/-! ### What one operation can do to one sub-log -/

/-- Two sub-logs with the same entries; the flow's progress may differ. -/
structure SubLog.SameLog (sub next : SubLog) : Prop where
  entries : next.entries = sub.entries
  byRef : next.byRef = sub.byRef
  retainedFloor : next.retainedFloor = sub.retainedFloor
  opened : next.opened = sub.opened
  head : next.head = sub.head

namespace Changelog

/-- What an operation can do to a flow's progress while it leaves the entries alone. -/
inductive Progress (log : Changelog) (peer : String) (partition : Partition) :
    Operation → SubLog → SubLog → Prop
  | kept (operation : Operation) {sub next : SubLog} (acked : next.acked = sub.acked)
      (unbound : next.unbound = sub.unbound) : Progress log peer partition operation sub next
  | aside (nowMs : ℤ) (identity : Option String) (reported : Watermark) (sub : SubLog)
      (isUnbound : log.isUnbound peer identity = true) :
      Progress log peer partition (.report nowMs peer identity partition reported) sub
        (noteUnbound log.gen identity reported sub)
  | report (nowMs : ℤ) (identity : Option String) (reported : Watermark) (sub : SubLog)
      (isBound : log.isUnbound peer identity = false) :
      Progress log peer partition (.report nowMs peer identity partition reported) sub
        (noteReport log.gen reported sub)
  | coldPull (identity : Option String) (sub : SubLog) (isBound : log.isUnbound peer identity = false) :
      Progress log peer partition (.coldPull peer identity) sub { sub with acked := Watermark.origin }
  | bind (identity : String) (sub : SubLog) (other : log.bound.get peer ≠ some identity) :
      Progress log peer partition (.bind peer (some identity)) sub (rebind identity sub)

/-- Everything an operation can do to the sub-log of `peer` and `partition`. -/
inductive SubMove (log : Changelog) (peer : String) (partition : Partition) :
    Operation → Option SubLog → Option SubLog → Prop
  | keep (operation : Operation) (sub : Option SubLog) : SubMove log peer partition operation sub sub
  | create (operation : Operation) {next : SubLog} (same : (SubLog.new log.counter).SameLog next)
      (acked : next.acked = .origin) (unbound : next.unbound = none) :
      SubMove log peer partition operation none (some next)
  | put (nowMs : ℤ) (callRef : String) (sub : Option SubLog) :
      SubMove log peer partition (.put nowMs peer callRef partition) sub
        (some ((sub.getD (SubLog.new log.counter)).put (log.counter + 1) callRef .put .nothing))
  | delete (nowMs : ℤ) (callRef : String) (answered : Bool) (incarnation : Option String)
      (sub : Option SubLog) :
      SubMove log peer partition (.delete nowMs peer callRef partition answered incarnation) sub
        (some ((sub.getD (SubLog.new log.counter)).put (log.counter + 1) callRef .delete
          ⟨answered, incarnation⟩))
  | forget (callRef : String) (sub : SubLog) :
      SubMove log peer partition (.forget peer partition callRef) (some sub) (some (sub.forget callRef))
  | drain (since : Watermark) (limit : ℕ) (sub : SubLog) :
      SubMove log peer partition (.drain peer partition since limit) (some sub)
        (some (sub.due since.counter (decide (since.gen < log.gen)) limit).1)
  | scan (w : Watermark) (sub : SubLog) :
      SubMove log peer partition (.scan peer partition w) (some sub) (some (sub.scanned w.counter))
  | progress {operation : Operation} {sub next : SubLog} (same : sub.SameLog next)
      (progress : Progress log peer partition operation sub next) :
      SubMove log peer partition operation (some sub) (some next)
  | reap (nowMs : ℤ) (sub : SubLog) :
      SubMove log peer partition (.reap nowMs) (some sub) (some (sub.reap log.gen))
  | drop (nowMs : ℤ) (sub : SubLog) : SubMove log peer partition (.reap nowMs) (some sub) none

section Moves

variable {log : Changelog} {peer : String} {partition : Partition} {operation : Operation}

theorem SubMove.opened (sub : Option SubLog) :
    SubMove log peer partition operation sub (some (sub.getD (SubLog.new log.counter))) := by
  cases sub with
  | none => exact .create operation ⟨rfl, rfl, rfl, rfl, rfl⟩ rfl rfl
  | some sub => exact .keep operation (some sub)

theorem SubMove.map (moves : ∀ sub, SubMove log peer partition operation (some sub) (some (change sub)))
    (sub : Option SubLog) : SubMove log peer partition operation sub (sub.map change) := by
  cases sub with
  | none => exact .keep operation none
  | some sub => exact moves sub

/-- An operation that changes one sub-log in place. -/
theorem SubMove.changeSub {changed : String} {flow : Partition}
    (moves : ∀ sub, changed = peer → flow = partition →
      SubMove log peer partition operation (some sub) (some (change sub))) :
    SubMove log peer partition operation (log.sub peer partition)
      ((log.changeSub changed flow change).sub peer partition) := by
  rw [sub_changeSub]
  split
  · rename_i same
    exact SubMove.map (fun sub => moves sub same.1.symm same.2.symm) _
  · exact .keep operation _

end Moves

theorem SameLog.noteUnbound (gen : ℕ) (identity : Option String) (reported : Watermark) (sub : SubLog) :
    sub.SameLog (noteUnbound gen identity reported sub) := by
  unfold Changelog.noteUnbound
  cases identity with
  | none => exact ⟨rfl, rfl, rfl, rfl, rfl⟩
  | some identity =>
    dsimp only
    split <;> exact ⟨rfl, rfl, rfl, rfl, rfl⟩

/-- A change of the two sub-logs of one peer that only moves the flow's progress. -/
theorem SubMove.progressBoth {changed : Changelog} (same : ∀ sub : SubLog, sub.SameLog (change sub))
    (progress : ∀ sub : SubLog, other = peer → Progress log peer partition operation sub (change sub))
    (subs : changed.sub peer partition = log.sub peer partition) :
    SubMove log peer partition operation (log.sub peer partition)
      (((changed.changeSub other .pri change).changeSub other .bak change).sub peer partition) := by
  have once : ((changed.changeSub other .pri change).changeSub other .bak change).sub peer partition =
      if peer = other then (log.sub peer partition).map change else log.sub peer partition := by
    rw [sub_changeSub, sub_changeSub, subs]
    cases partition <;> simp
  rw [once]
  split
  · rename_i samePeer
    exact SubMove.map (fun sub => .progress (same sub) (progress sub samePeer.symm)) _
  · exact .keep operation _

theorem sub_serving (log : Changelog) (nowMs : ℤ) (peer other : String) (partition flow : Partition) :
    (log.serving nowMs peer partition).sub other flow =
      if other = peer then
        let sub := (log.sub other flow).getD (SubLog.new log.counter)
        some (if flow = partition then { sub with streams := sub.streams + 1, applied := none } else sub)
      else log.sub other flow := by
  by_cases samePeer : other = peer
  · subst samePeer
    rw [if_pos rfl, ← sub_peerLogOrNew log other flow]
    simp only [serving, sub, KeyMap.get_insert, if_true, Option.map_some]
    cases partition <;> cases flow <;> rfl
  · simp only [serving, sub, KeyMap.get_insert, if_neg samePeer]

/-- A change of one peer's log that changes each of its sub-logs at most in its flow's progress. -/
theorem SubMove.modify {change : PeerLog → PeerLog}
    (same : ∀ peerLog : PeerLog, (peerLog.sub partition).SameLog ((change peerLog).sub partition))
    (progress : ∀ peerLog : PeerLog, other = peer →
      Progress log peer partition operation (peerLog.sub partition) ((change peerLog).sub partition)) :
    SubMove log peer partition operation (log.sub peer partition)
      ({ log with peers := log.peers.modify other change }.sub peer partition) := by
  simp only [sub, KeyMap.get_modify]
  split
  · rename_i samePeer
    cases log.peers.get peer with
    | none => exact .keep operation none
    | some peerLog => exact .progress (same peerLog) (progress peerLog samePeer.symm)
  · exact .keep operation _

variable (log : Changelog) (operation : Operation)

/-- Every operation moves every sub-log in one of the ways `SubMove` lists. -/
theorem step_subMove (peer : String) (partition : Partition) :
    SubMove log peer partition operation (log.sub peer partition)
      ((log.step operation).sub peer partition) := by
  cases operation with
  | put nowMs written callRef flow =>
    simp only [step, bumpPut, sub_bump]
    split
    · rename_i samePeer
      split
      · rename_i sameFlow
        subst samePeer sameFlow
        exact .put nowMs callRef _
      · exact SubMove.opened _
    · exact .keep _ _
  | delete nowMs written callRef flow answered incarnation =>
    simp only [step, bumpDelete, sub_bump]
    split
    · rename_i samePeer
      split
      · rename_i sameFlow
        subst samePeer sameFlow
        exact .delete nowMs callRef answered incarnation _
      · exact SubMove.opened _
    · exact .keep _ _
  | forget forgotten flow callRef =>
    apply SubMove.changeSub
    rintro sub rfl rfl
    exact .forget callRef sub
  | drain drained flow since limit =>
    simp only [step, sub_drain]
    split
    · rename_i same
      obtain ⟨rfl, rfl⟩ := same
      exact SubMove.map (fun sub => .drain since limit sub) _
    · exact .keep _ _
  | scan scannedPeer flow w =>
    apply SubMove.changeSub
    rintro sub rfl rfl
    exact .scan w sub
  | coldPull pulling identity =>
    simp only [step, noteColdPull]
    split
    · exact .keep _ _
    rename_i isBound
    refine SubMove.progressBoth (fun sub => ⟨rfl, rfl, rfl, rfl, rfl⟩) ?_ rfl
    rintro sub rfl
    exact .coldPull identity sub (Bool.eq_false_of_not_eq_true isBound)
  | report nowMs reporting identity flow reported =>
    simp only [step, noteApplied]
    split
    · rename_i isUnbound
      apply SubMove.changeSub
      rintro sub rfl rfl
      exact .progress (SameLog.noteUnbound _ _ _ sub) (.aside nowMs identity reported sub isUnbound)
    rename_i isBound
    apply SubMove.modify
    · intro peerLog
      cases flow <;> cases partition <;> exact ⟨rfl, rfl, rfl, rfl, rfl⟩
    rintro peerLog rfl
    rw [PeerLog.sub_changeSub]
    split
    · rename_i sameFlow
      subst sameFlow
      exact .report nowMs identity reported _ (Bool.eq_false_of_not_eq_true isBound)
    · exact .kept _ rfl rfl
  | bind bound identity =>
    cases identity with
    | none => exact .keep _ _
    | some identity =>
      simp only [step, bindIdentity]
      split
      · exact .keep _ _
      rename_i other
      refine SubMove.progressBoth (fun sub => ⟨rfl, rfl, rfl, rfl, rfl⟩) ?_ rfl
      rintro sub rfl
      exact .bind identity sub other
  | serve nowMs served flow =>
    simp only [step, sub_serving]
    split
    · cases log.sub peer partition with
      | none =>
        split
        · exact .create _ ⟨rfl, rfl, rfl, rfl, rfl⟩ rfl rfl
        · exact .create _ ⟨rfl, rfl, rfl, rfl, rfl⟩ rfl rfl
      | some sub =>
        split
        · exact .progress ⟨rfl, rfl, rfl, rfl, rfl⟩ (.kept _ rfl rfl)
        · exact .keep _ _
    · exact .keep _ _
  | unserve served flow =>
    apply SubMove.modify
    · intro peerLog
      cases flow <;> cases partition <;> exact ⟨rfl, rfl, rfl, rfl, rfl⟩
    · rintro peerLog rfl
      cases flow <;> cases partition <;> exact .kept _ rfl rfl
  | reap nowMs =>
    simp only [step]
    cases found : log.sub peer partition with
    | none =>
      have none : (log.reap nowMs).sub peer partition = none := by
        cases sub_reap log peer partition with
        | inl dropped => exact dropped
        | inr kept => rw [kept, found]; rfl
      rw [none]
      exact .keep _ _
    | some sub =>
      cases sub_reap log peer partition with
      | inl dropped => rw [dropped]; exact .drop nowMs sub
      | inr kept => rw [kept, found]; exact .reap nowMs sub

/-- No operation moves the generation or takes the counter back, and only a bind moves the identity bound to
    a peer. -/
theorem step_frame :
    (log.step operation).gen = log.gen ∧ log.counter ≤ (log.step operation).counter ∧
      ((∀ peer identity, operation ≠ .bind peer identity) → (log.step operation).bound = log.bound) := by
  cases operation with
  | put | delete => exact ⟨rfl, Nat.le_succ _, fun _ => rfl⟩
  | drain peer partition since limit =>
    simp only [step, drain]
    split <;> exact ⟨rfl, Nat.le_refl _, fun _ => rfl⟩
  | coldPull peer identity =>
    simp only [step, noteColdPull]
    split <;> exact ⟨rfl, Nat.le_refl _, fun _ => rfl⟩
  | report nowMs peer identity partition reported =>
    simp only [step, noteApplied]
    split <;> exact ⟨rfl, Nat.le_refl _, fun _ => rfl⟩
  | bind peer identity =>
    cases identity with
    | none => exact ⟨rfl, Nat.le_refl _, fun notBind => absurd rfl (notBind peer _)⟩
    | some identity =>
      simp only [step, bindIdentity]
      split <;> exact ⟨rfl, Nat.le_refl _, fun notBind => absurd rfl (notBind peer _)⟩
  | _ => exact ⟨rfl, Nat.le_refl _, fun _ => rfl⟩

theorem step_gen : (log.step operation).gen = log.gen :=
  (step_frame log operation).1

theorem foldl_gen (operations : List Operation) (log : Changelog) :
    (operations.foldl step log).gen = log.gen := by
  induction operations generalizing log with
  | nil => rfl
  | cons operation operations hypothesis => exact (hypothesis _).trans (step_gen log operation)

theorem step_counter : log.counter ≤ (log.step operation).counter :=
  (step_frame log operation).2.1

end Changelog

/-! ### The two maps of a sub-log -/

/-- What a state holds apart from where it was first sent. -/
def RefState.unsent (state : RefState) : RefState := { state with firstSent := none }

theorem RefState.counter_of_unsent {moved : RefState} (same : moved.unsent = state.unsent) :
    moved.counter = state.counter := by
  have counters : moved.unsent.counter = state.unsent.counter := by rw [same]
  exact counters

/-- Two state maps that differ at most in where the entries were first sent. -/
def SameStates (byRef next : KeyMap String RefState) : Prop :=
  ∀ callRef, (next.get callRef).map RefState.unsent = (byRef.get callRef).map RefState.unsent

theorem SameStates.refl (byRef : KeyMap String RefState) : SameStates byRef byRef := fun _ => rfl

theorem SameStates.symm (same : SameStates byRef next) :
    SameStates next byRef := fun callRef => (same callRef).symm

/-- A state of one map is one of the other, up to where it was first sent. -/
theorem SameStates.get (same : SameStates byRef next) (found : byRef.get callRef = some state) :
    ∃ moved, next.get callRef = some moved ∧ moved.unsent = state.unsent := by
  have states := same callRef
  rw [found, Option.map_some, Option.map_eq_some_iff] at states
  exact states

/-- Marking an entry sent moves nothing else. -/
theorem sameStates_insert_markSent (found : byRef.get callRef = some state) (counter : ℕ) :
    SameStates byRef (byRef.insert callRef (SubLog.markSent counter state)) := by
  intro other
  rw [KeyMap.get_insert]
  split
  · rename_i same
    rw [same, found]
    rfl
  · rfl

/-- A call's state is left alone, or marked sent at a counter that may mark it. -/
def SubLog.Marks (marks : ℕ → Prop) (before after : Option RefState) : Prop :=
  after = before ∨ ∃ counter state, marks counter ∧ before = some state ∧ after = some (markSent counter state)

theorem SubLog.Marks.mono {marks allowed : ℕ → Prop} {before after : Option RefState}
    (marked : Marks marks before after)
    (sub : ∀ counter, marks counter → allowed counter) : Marks allowed before after := by
  obtain same | ⟨counter, state, at_, isState, isMarked⟩ := marked
  · exact .inl same
  · exact .inr ⟨counter, state, sub counter at_, isState, isMarked⟩

/-- The first mark stands. -/
theorem SubLog.Marks.trans {marks : ℕ → Prop} {first second third : Option RefState}
    (before : Marks marks first second) (after : Marks marks second third) : Marks marks first third := by
  obtain rfl | ⟨counter, state, at_, rfl, rfl⟩ := before
  · exact after
  · obtain rfl | ⟨later, marked, -, isMarked, rfl⟩ := after
    · exact .inr ⟨counter, state, at_, rfl, rfl⟩
    · cases isMarked
      exact .inr ⟨counter, state, at_, rfl, rfl⟩

theorem sameStates_of_marks {marks : String → ℕ → Prop}
    (marked : ∀ callRef, SubLog.Marks (marks callRef) (byRef.get callRef) (next.get callRef)) :
    SameStates byRef next := by
  intro callRef
  obtain same | ⟨counter, state, -, isState, isMarked⟩ := marked callRef
  · rw [same]
  · rw [isMarked, isState]
    rfl

/-- A snapshot marks its calls at their entries. -/
theorem snapshot_marks (pairs : List (ℕ × String)) (byRef : KeyMap String RefState) (callRef : String) :
    SubLog.Marks (fun counter => (counter, callRef) ∈ pairs) (byRef.get callRef)
      ((SubLog.snapshot byRef pairs).1.get callRef) := by
  induction pairs generalizing byRef with
  | nil => exact .inl rfl
  | cons pair pairs hypothesis =>
    unfold SubLog.snapshot
    split
    · exact (hypothesis byRef).mono fun _ => List.mem_cons_of_mem _
    rename_i state found
    refine SubLog.Marks.trans ?_ ((hypothesis _).mono fun _ => List.mem_cons_of_mem _)
    rw [KeyMap.get_insert]
    split
    · rename_i same
      subst same
      exact .inr ⟨pair.1, state, List.mem_cons_self, found, rfl⟩
    · exact .inl rfl

/-- A scan marks the calls at or below its position. -/
theorem scanned_marks (sub : SubLog) (w : ℕ) (callRef : String) :
    SubLog.Marks (fun counter => counter = w ∧ ∃ entry ≤ w, (entry, callRef) ∈ sub.entries) (sub.byRef.get callRef)
      ((sub.scanned w).byRef.get callRef) := by
  have each : ∀ (pairs : List (ℕ × String)) (byRef : KeyMap String RefState),
      SubLog.Marks (fun counter => counter = w ∧ ∃ entry, (entry, callRef) ∈ pairs) (byRef.get callRef)
        ((pairs.foldl (fun byRef pair => byRef.modify pair.2 (SubLog.markSent w)) byRef).get callRef) := by
    intro pairs
    induction pairs with
    | nil => exact fun _ => .inl rfl
    | cons pair pairs hypothesis =>
      intro byRef
      have later : ∀ counter, (counter = w ∧ ∃ entry, (entry, callRef) ∈ pairs) →
          counter = w ∧ ∃ entry, (entry, callRef) ∈ pair :: pairs :=
        fun _ ⟨same, entry, member⟩ => ⟨same, entry, List.mem_cons_of_mem _ member⟩
      refine SubLog.Marks.trans ?_ ((hypothesis _).mono later)
      rw [KeyMap.get_modify]
      split
      · rename_i same
        subst same
        cases found : byRef.get pair.2 with
        | none => exact .inl rfl
        | some state => exact .inr ⟨w, state, ⟨rfl, pair.1, List.mem_cons_self⟩, rfl, rfl⟩
      · exact .inl rfl
  refine (each _ sub.byRef).mono ?_
  rintro _ ⟨rfl, entry, member⟩
  obtain ⟨isEntry, below⟩ := List.mem_filter.mp member
  exact ⟨rfl, entry, of_decide_eq_true below, isEntry⟩

theorem sameStates_snapshot (pairs : List (ℕ × String)) (byRef : KeyMap String RefState) :
    SameStates byRef (SubLog.snapshot byRef pairs).1 := sameStates_of_marks (snapshot_marks pairs byRef)

theorem sameStates_scanned (sub : SubLog) (w : ℕ) : SameStates sub.byRef (sub.scanned w).byRef :=
  sameStates_of_marks (scanned_marks sub w)

namespace SubLog

/-- The ordered entries and the per-call states name the same counters, none above the node's. -/
structure Indexed (counter : ℕ) (sub : SubLog) : Prop where
  inverse : ∀ entry callRef, (entry, callRef) ∈ sub.entries ↔
    ∃ state, sub.byRef.get callRef = some state ∧ state.counter = entry
  bounded : ∀ entry callRef, (entry, callRef) ∈ sub.entries → entry ≤ counter

namespace Indexed

variable {counter later : ℕ} {sub next : SubLog}

theorem new (counter floor : ℕ) : (new floor).Indexed counter where
  inverse entry callRef := by
    constructor
    · intro member
      exact absurd member (SortedMap.not_mem_empty _)
    · rintro ⟨state, found, -⟩
      cases found
  bounded entry callRef member := absurd member (SortedMap.not_mem_empty _)

section

variable (indexed : sub.Indexed counter)

include indexed

theorem mono (le : counter ≤ later) : sub.Indexed later where
  inverse := indexed.inverse
  bounded entry callRef member := (indexed.bounded entry callRef member).trans le

/-- Neither the flow's progress nor where an entry was first sent matters. -/
theorem congr (entries : next.entries = sub.entries)
    (states : SameStates sub.byRef next.byRef) : next.Indexed counter where
  inverse entry callRef := by
    rw [entries, indexed.inverse]
    constructor
    · rintro ⟨state, found, at_⟩
      obtain ⟨moved, movedFound, same⟩ := states.get found
      exact ⟨moved, movedFound, (RefState.counter_of_unsent same).trans at_⟩
    · rintro ⟨state, found, at_⟩
      obtain ⟨moved, movedFound, same⟩ := states.symm.get found
      exact ⟨moved, movedFound, (RefState.counter_of_unsent same).trans at_⟩
  bounded entry callRef member := by
    rw [entries] at member
    exact indexed.bounded entry callRef member

section

variable (found : sub.byRef.get callRef = some state)

include found

/-- The entry of a call's state. -/
theorem entry : (state.counter, callRef) ∈ sub.entries :=
  (indexed.inverse state.counter callRef).mpr ⟨state, found, rfl⟩

/-- Two calls with one counter are one call. -/
theorem ref_unique {otherState : RefState}
    (otherFound : sub.byRef.get other = some otherState)
    (same : state.counter = otherState.counter) : callRef = other := by
  have first := indexed.entry found
  rw [same] at first
  exact SortedMap.value_unique first (indexed.entry otherFound)

/-- Dropping a call's slot leaves the entries of the other calls. -/
theorem mem_remove_iff {entry : ℕ} :
    (entry, other) ∈ sub.entries.remove state.counter ↔ (entry, other) ∈ sub.entries ∧ other ≠ callRef := by
  rw [SortedMap.mem_remove]
  apply and_congr_right
  intro member
  obtain ⟨otherState, otherFound, rfl⟩ := (indexed.inverse entry other).mp member
  constructor
  · rintro apart rfl
    rw [found] at otherFound
    exact apart (congrArg RefState.counter (Option.some.inj otherFound)).symm
  · intro apart same
    exact apart (indexed.ref_unique otherFound found same)

theorem forgotten (entries : next.entries = sub.entries.remove state.counter)
    (byRef : next.byRef = sub.byRef.remove callRef) : next.Indexed counter where
  inverse entry other := by
    rw [entries, byRef, indexed.mem_remove_iff found, indexed.inverse, KeyMap.get_remove]
    by_cases same : other = callRef
    · simp [same]
    · simp [same]
  bounded entry other member := by
    rw [entries, indexed.mem_remove_iff found] at member
    exact indexed.bounded entry other member.1

end

theorem forget (callRef : String) : (sub.forget callRef).Indexed counter := by
  unfold SubLog.forget
  split
  · rename_i state found
    exact indexed.forgotten found rfl rfl
  · exact indexed

theorem reapRef (callRef : String) : (sub.reapRef callRef).Indexed counter := by
  unfold SubLog.reapRef
  split
  · rename_i state found
    exact indexed.forgotten found rfl rfl
  · exact indexed

theorem reap (gen : ℕ) : (sub.reap gen).Indexed counter := by
  unfold SubLog.reap
  split
  · exact indexed
  rename_i known
  clear known
  generalize sub.appliedTombstones = refs
  induction refs generalizing sub with
  | nil => exact indexed
  | cons callRef refs hypothesis => exact hypothesis (indexed.reapRef callRef)

/-- A write moves its call to a counter above every entry. -/
theorem put (callRef : String) (op : Op) (stated : Stated) :
    (sub.put (counter + 1) callRef op stated).Indexed (counter + 1) := by
  have compacted : ∀ entry other,
      (entry, other) ∈ (sub.put (counter + 1) callRef op stated).entries ↔
        (entry = counter + 1 ∧ other = callRef) ∨ (entry, other) ∈ sub.entries ∧ other ≠ callRef := by
    intro entry other
    have fresh : (entry, other) ∈ sub.entries → entry ≠ counter + 1 := by
      intro member
      have bound := indexed.bounded entry other member
      omega
    unfold SubLog.put
    cases found : sub.byRef.get callRef with
    | none =>
      have absent : (entry, other) ∈ sub.entries → other ≠ callRef := by
        rintro member rfl
        obtain ⟨state, stateFound, -⟩ := (indexed.inverse entry other).mp member
        rw [found] at stateFound
        cases stateFound
      rw [SortedMap.mem_insert, Prod.mk.injEq]
      exact or_congr_right ⟨fun member => ⟨member.1, absent member.1⟩, fun member => ⟨member.1, fresh member.1⟩⟩
    | some prev =>
      rw [SortedMap.mem_insert, Prod.mk.injEq, indexed.mem_remove_iff found]
      exact or_congr_right ⟨And.left, fun member => ⟨member, fresh member.1⟩⟩
  have moved : ∀ other, (sub.put (counter + 1) callRef op stated).byRef.get other =
      if other = callRef then some (sub.nextState (sub.byRef.get callRef) (counter + 1) op stated)
      else sub.byRef.get other := fun other => KeyMap.get_insert _ _ _ _
  have numbered : (sub.nextState (sub.byRef.get callRef) (counter + 1) op stated).counter = counter + 1 := by
    unfold nextState
    split <;> rfl
  constructor
  case inverse =>
    intro entry other
    rw [compacted, moved]
    by_cases same : other = callRef
    · simp [same, numbered, eq_comm]
    · simp [same, indexed.inverse]
  case bounded =>
    intro entry other member
    cases (compacted entry other).mp member with
    | inl latest => omega
    | inr kept =>
      have bound := indexed.bounded entry other kept.1
      omega

end

end Indexed

end SubLog

namespace Changelog

/-- A call just deleted reads as deleted. -/
theorem current_delete (log : Changelog) (nowMs : ℤ) (peer callRef : String) (partition : Partition)
    (answered : Bool) (incarnation : Option String) :
    ∃ stated, (log.step (.delete nowMs peer callRef partition answered incarnation)).current peer partition callRef =
      some (.delete, stated) := by
  have found := sub_bump log peer peer partition partition nowMs callRef .delete ⟨answered, incarnation⟩
  simp only [step, bumpDelete, current, found, Option.bind_some, SubLog.put, KeyMap.get_insert, if_true,
    Option.map_some]
  refine ⟨_, congrArg some (Prod.ext ?_ rfl)⟩
  unfold SubLog.nextState
  split <;> rfl

/-- Every sub-log is indexed. -/
def Indexed (log : Changelog) : Prop :=
  ∀ peer partition sub, log.sub peer partition = some sub → sub.Indexed log.counter

theorem new_indexed {gen : ℕ} {deadPeerTtlMs : ℤ} : (new gen deadPeerTtlMs).Indexed := by
  intro peer partition sub found
  cases found

theorem Indexed.getD (indexed : log.Indexed) (peer : String) (partition : Partition) :
    ((log.sub peer partition).getD (SubLog.new log.counter)).Indexed log.counter := by
  cases found : log.sub peer partition with
  | none => exact SubLog.Indexed.new _ _
  | some sub => exact indexed peer partition sub found

theorem Indexed.step (indexed : log.Indexed) (operation : Operation) : (log.step operation).Indexed := by
  intro peer partition next found
  have move := step_subMove log operation peer partition
  have grown := step_counter log operation
  have before := indexed peer partition
  rw [found] at move
  generalize start : log.sub peer partition = sub at move before
  generalize reached : some next = result at move
  cases move with
  | keep =>
    subst reached
    exact (before next rfl).mono grown
  | create _ same acked unbound =>
    cases reached
    apply SubLog.Indexed.congr (SubLog.Indexed.new _ log.counter) same.entries
    rw [same.byRef]
    exact SameStates.refl _
  | put nowMs callRef =>
    cases reached
    rw [← start]
    exact (indexed.getD peer partition).put callRef .put .nothing
  | delete nowMs callRef answered incarnation =>
    cases reached
    rw [← start]
    exact (indexed.getD peer partition).put callRef .delete ⟨answered, incarnation⟩
  | forget callRef sub =>
    cases reached
    exact ((before sub rfl).forget callRef).mono grown
  | drain since limit sub =>
    cases reached
    apply SubLog.Indexed.mono _ grown
    exact (before sub rfl).congr rfl (sameStates_snapshot _ sub.byRef)
  | scan w sub =>
    cases reached
    apply SubLog.Indexed.mono _ grown
    exact (before sub rfl).congr rfl (sameStates_scanned sub w.counter)
  | progress same progress =>
    cases reached
    apply ((before _ rfl).congr same.entries _).mono grown
    rw [same.byRef]
    exact SameStates.refl _
  | reap nowMs sub =>
    cases reached
    exact ((before sub rfl).reap log.gen).mono grown
  | drop nowMs sub => cases reached

theorem Indexed.foldl (operations : List Operation) (indexed : log.Indexed) :
    (operations.foldl Changelog.step log).Indexed := by
  induction operations generalizing log with
  | nil => exact indexed
  | cons operation operations hypothesis => exact hypothesis (indexed.step operation)

end Changelog

end SipServer.Repl
