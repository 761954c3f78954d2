/-
Module: SipServer.Proofs.BootstrapFrames
Purpose: What the frames of a cold flow say of their calls: a frame whose contents stand for a call's last
  logged write agrees with that write, or with one in flight, and put frames come in the order they were
  read.
-/
import SipServer.Proofs.BootstrapStore

namespace SipServer.Repl

open SipServer.Lib
namespace Serving

variable {serving next : Serving} {base head : ℕ}

variable {callRef : String} {frames : List (Built ℕ)} {built : Built ℕ} {unread : List String} {counter : ℕ}

/-! ### What a step leaves of a call -/

/-- A step left what is logged of a call alone, and any write of it that was in flight. -/
structure SameStatus (serving next : Serving) (callRef : String) : Prop where
  mark : next.mark callRef = serving.mark callRef
  logged : next.logged callRef = serving.logged callRef
  writing : serving.writing.get callRef = none ∨ next.writing.get callRef = serving.writing.get callRef

/-- A step leaves what is logged of a call alone, or logs a write of it above the node's counter. -/
structure Persists (serving next : Serving) : Prop where
  counter : serving.store.changelog.counter ≤ next.store.changelog.counter
  calls : ∀ callRef, SameStatus serving next callRef ∨
    ∃ counter op, next.mark callRef = some (counter, op) ∧ serving.store.changelog.counter < counter

theorem Moves.persists (moves : Moves serving next) : Persists serving next := by
  refine ⟨moves.counter, ?_⟩
  intro callRef
  cases moves.calls with
  | unchanged same marks writing logged =>
    exact .inl ⟨marks callRef, congrFun logged callRef, .inr (writing ▸ rfl)⟩
  | @began begun _ free toward shows newer same marks inserted logged =>
    refine .inl ⟨marks callRef, congrFun logged callRef, ?_⟩
    by_cases isBegun : callRef = begun
    · exact .inl (isBegun ▸ free)
    right
    rw [inserted, KeyMap.get_insert, if_neg isBegun]
  | @logged written writing found same marks removed logged =>
    by_cases isWritten : callRef = written
    · exact .inr ⟨_, writing.op, (marks callRef).trans (if_pos isWritten), Nat.lt_succ_self _⟩
    refine .inl ⟨(marks callRef).trans (if_neg isWritten), (logged callRef).trans (if_neg isWritten), .inr ?_⟩
    rw [removed, KeyMap.get_remove, if_neg isWritten]

theorem written_of_mark {op : Op} (marked : serving.mark callRef = some (counter, op)) :
    serving.written callRef = counter := by
  unfold written
  rw [marked]
  rfl

section

variable (same : SameStatus serving next callRef)

include same

theorem SameStatus.written : next.written callRef = serving.written callRef := by
  unfold Serving.written
  rw [same.mark]

theorem SameStatus.deleting (deleting : serving.Deleting callRef) : next.Deleting callRef := by
  obtain ⟨write, incarnation, found⟩ := deleting
  rcases same.writing with free | kept
  · cases free.symm.trans found
  · exact ⟨write, incarnation, kept.trans found⟩

theorem SameStatus.putting (putting : serving.Putting callRef) : next.Putting callRef := by
  obtain ⟨write, found⟩ := putting
  rcases same.writing with free | kept
  · cases free.symm.trans found
  · exact ⟨write, kept.trans found⟩

end

/-- A call whose last logged write is at or below an earlier counter has the status it had. -/
theorem Persists.same (persists : Persists serving next) (written : next.written callRef ≤ counter)
    (le : counter ≤ serving.store.changelog.counter) :
    SameStatus serving next callRef := by
  rcases persists.calls callRef with same | ⟨moved, op, marked, above⟩
  · exact same
  rw [written_of_mark marked] at written
  omega

/-! ### Frames agree with what is logged -/

/-- If the frame's contents stand for its call's last logged write, it carries that put or a later version,
    unless a delete is in flight, or states that delete, unless a put is in flight. -/
def Agrees (serving : Serving) (built : Built ℕ) : Prop :=
  serving.written built.frame.callRef ≤ built.covers →
    (∀ stamp, serving.logged built.frame.callRef = some (.put stamp) → serving.Deleting built.frame.callRef ∨
      built.frame.op = .put ∧ ∃ version, stamp ≤ version ∧ built.frame.body = some version) ∧
    (serving.logged built.frame.callRef = some .delete →
      serving.Putting built.frame.callRef ∨ built.frame.op = .delete)

theorem Agrees.persists (agrees : serving.Agrees built) (covered : built.covers ≤ serving.store.changelog.counter)
    (persists : Persists serving next) :
    next.Agrees built := by
  intro written
  have same := persists.same written covered
  rw [same.written] at written
  obtain ⟨puts, deletes⟩ := agrees written
  constructor
  · intro stamp isLogged
    rcases puts stamp (same.logged ▸ isLogged) with deleting | carries
    · exact .inl (same.deleting deleting)
    · exact .inr carries
  · intro isLogged
    rcases deletes (same.logged ▸ isLogged) with putting | states
    · exact .inl (same.putting putting)
    · exact .inr states

/-- A put frame of a body read now agrees with whatever is logged. -/
theorem Tracked.agrees_put (tracked : serving.Tracked base) {entry : StoredEntry ℕ}
    (isRead : serving.read callRef = some entry) {position : Watermark} {partition : Partition} {covers : ℕ} :
    serving.Agrees ⟨putFrame position partition callRef entry, covers⟩ := by
  intro _
  constructor
  · intro stamp isLogged
    rcases tracked.loggedPut callRef stamp isLogged with deleting | ⟨version, le, isOffered⟩
    · exact .inl deleting
    obtain ⟨incarnation, readsVersion⟩ := read_of_offered isOffered
    cases isRead.symm.trans readsVersion
    exact .inr ⟨rfl, version, le, rfl⟩
  · intro isLogged
    rcases tracked.loggedDelete callRef isLogged with putting | gone
    · exact .inl putting
    · cases isRead.symm.trans gone

/-- The body of a call was gone when the node counter stood at `readAt`: its last put then had a delete in
    flight. -/
def Gone (serving : Serving) (callRef : String) (readAt : ℕ) : Prop :=
  serving.written callRef ≤ readAt →
    ∀ stamp, serving.logged callRef = some (.put stamp) → serving.Deleting callRef

theorem Tracked.gone (tracked : serving.Tracked base) (isGone : serving.read callRef = none)
    (readAt : ℕ) : serving.Gone callRef readAt := by
  intro _ stamp isLogged
  rcases tracked.loggedPut callRef stamp isLogged with deleting | ⟨version, -, isOffered⟩
  · exact deleting
  obtain ⟨incarnation, isRead⟩ := read_of_offered isOffered
  cases isRead.symm.trans isGone

theorem Gone.persists {readAt : ℕ} (gone : serving.Gone callRef readAt)
    (covered : readAt ≤ serving.store.changelog.counter) (persists : Persists serving next) :
    next.Gone callRef readAt := by
  intro written stamp isLogged
  have same := persists.same written covered
  rw [same.written] at written
  exact same.deleting (gone written stamp (same.logged ▸ isLogged))

/-- A delete frame of a call that was gone agrees with whatever is logged. -/
theorem Gone.agrees (gone : serving.Gone built.frame.callRef built.covers)
    (op : built.frame.op = .delete) : serving.Agrees built :=
  fun written => ⟨fun stamp isLogged => .inl (gone written stamp isLogged), fun _ => .inr op⟩

/-- An entry a drain snapshotted above `head` and still to be read: its call's, or replaced by a later
    one. -/
structure Unread (head : ℕ) (serving : Serving) (due : Due) : Prop where
  above : head < due.counter
  reached : due.counter ≤ serving.store.changelog.counter
  entry : ∃ counter op, serving.mark due.callRef = some (counter, op) ∧
    (due.counter < counter ∨ counter = due.counter ∧ op = due.op)

theorem Unread.persists {due : Due} (unread : serving.Unread head due) (persists : Persists serving next) :
    next.Unread head due := by
  refine ⟨unread.above, unread.reached.trans persists.counter, ?_⟩
  rcases persists.calls due.callRef with same | ⟨counter, op, marked, above⟩
  · rw [same.mark]
    exact unread.entry
  · exact ⟨counter, op, marked, .inl (unread.reached.trans_lt above)⟩

/-- A delete frame built from a snapshotted entry agrees with whatever is logged. -/
theorem Tracked.agrees_delete (tracked : serving.Tracked base) {due : Due} (unread : serving.Unread head due)
    (le : base ≤ head) (isDelete : due.op = .delete) (callRef : built.frame.callRef = due.callRef)
    (op : built.frame.op = .delete) (covers : built.covers = due.counter) : serving.Agrees built := by
  apply Gone.agrees _ op
  intro written stamp isLogged
  rw [callRef, covers] at written
  obtain ⟨counter, entryOp, marked, later | ⟨rfl, same⟩⟩ := unread.entry
  · rw [written_of_mark marked] at written
    omega
  -- The entry is the call's own, so its last logged write is a delete.
  rw [same, isDelete] at marked
  have deleted := tracked.marked _ _ marked (le.trans_lt unread.above)
  rw [callRef, deleted] at isLogged
  cases isLogged

/-! ### The frames together -/

/-- The frames of a flow whose scan started at `head`, in the order they were built. -/
structure Framed (head : ℕ) (serving : Serving) (frames : List (Built ℕ)) : Prop where
  covered : ∀ built ∈ frames, built.covers ≤ serving.store.changelog.counter
  puts : ∀ built ∈ frames, built.frame.op = .put → head ≤ built.covers
  ordered : frames.Pairwise fun earlier later => later.frame.op = .put → earlier.covers ≤ later.covers
  agrees : ∀ built ∈ frames, serving.Agrees built

theorem framed_nil : Framed head serving [] where
  covered _ member := nomatch member
  puts _ member := nomatch member
  ordered := .nil
  agrees _ member := nomatch member

theorem Framed.persists (framed : Framed head serving frames)
    (persists : Persists serving next) : Framed head next frames where
  covered built member := (framed.covered built member).trans persists.counter
  puts := framed.puts
  ordered := framed.ordered
  agrees built member := (framed.agrees built member).persists (framed.covered built member) persists

/-- A frame built now comes last. -/
theorem Framed.snoc (framed : Framed head serving frames) (reached : head ≤ serving.store.changelog.counter)
    (covered : built.covers ≤ serving.store.changelog.counter)
    (put : built.frame.op = .put → built.covers = serving.store.changelog.counter) (agrees : serving.Agrees built) :
    Framed head serving (frames ++ [built]) := by
  have either : ∀ {property : Built ℕ → Prop}, (∀ other ∈ frames, property other) → property built →
      ∀ other ∈ frames ++ [built], property other := by
    intro property before last other member
    rcases List.mem_append.mp member with earlier | isLast
    · exact before other earlier
    · exact List.mem_singleton.mp isLast ▸ last
  constructor
  case covered => exact either framed.covered covered
  case puts =>
    apply either framed.puts
    intro isPut
    rw [put isPut]
    exact reached
  case ordered =>
    rw [List.pairwise_append]
    refine ⟨framed.ordered, List.pairwise_singleton _ _, ?_⟩
    intro earlier member later isLast isPut
    obtain rfl := List.mem_singleton.mp isLast
    rw [put isPut]
    exact framed.covered earlier member
  case agrees => exact either framed.agrees agrees

/-- Every call whose last logged write is a put at or below `head` is still to be scanned or has a frame read
    since, unless its delete is in flight. -/
def Scanned (head : ℕ) (serving : Serving) (unread : List String) (frames : List (Built ℕ)) : Prop :=
  ∀ callRef stamp, serving.logged callRef = some (.put stamp) → serving.written callRef ≤ head →
    serving.Deleting callRef ∨ callRef ∈ unread ∨
      ∃ built ∈ frames, built.frame.callRef = callRef ∧ head ≤ built.covers

theorem Scanned.persists (scanned : Scanned head serving unread frames)
    (reached : head ≤ serving.store.changelog.counter)
    (persists : Persists serving next) : Scanned head next unread frames := by
  intro callRef stamp isLogged written
  have same := persists.same written reached
  rw [same.written] at written
  rcases scanned callRef stamp (same.logged ▸ isLogged) written with deleting | rest
  · exact .inl (same.deleting deleting)
  · exact .inr rest

theorem Scanned.mono {more : List (Built ℕ)} (scanned : Scanned head serving unread frames)
    (subset : ∀ built ∈ frames, built ∈ more) :
    Scanned head serving unread more := by
  intro callRef stamp isLogged written
  rcases scanned callRef stamp isLogged written with deleting | isUnread | ⟨built, member, isOf, covers⟩
  · exact .inl deleting
  · exact .inr (.inl isUnread)
  · exact .inr (.inr ⟨built, subset built member, isOf, covers⟩)

/-- The keys a scan snapshots leave out no call the caller backs up. -/
theorem Tracked.scanned_keys (tracked : serving.Tracked base) :
    Scanned head serving (serving.store.scanRefsBackedBy serving.nowMs serving.self serving.caller) frames := by
  intro callRef stamp isLogged _
  rcases tracked.loggedPut callRef stamp isLogged with deleting | ⟨version, -, isOffered⟩
  · exact .inl deleting
  right
  left
  unfold offered at isOffered
  split at isOffered
  · rename_i backed
    have found := backed
    rw [Option.any_eq_true] at found
    obtain ⟨record, found, -⟩ := found
    exact List.mem_filter.mpr ⟨KeyMap.mem_keys_of_get found, backed⟩
  · cases isOffered

/-- A key the scan read has a frame, or its body was gone. -/
theorem Tracked.scanned_read (tracked : serving.Tracked base) {key : String}
    (scanned : Scanned head serving (key :: unread) frames) (reached : head ≤ serving.store.changelog.counter)
    {w : Watermark} :
    Scanned head serving unread
      (frames ++ serving.flow.scanRead serving.store.changelog w key (serving.read key)) := by
  intro callRef stamp isLogged written
  rcases scanned callRef stamp isLogged written with deleting | isUnread | ⟨built, member, isOf, covers⟩
  · exact .inl deleting
  · cases isUnread with
    | head =>
      cases isRead : serving.read key with
      | none => exact .inl (tracked.gone isRead (serving.written key) (le_refl _) stamp isLogged)
      | some entry =>
        refine .inr (.inr ⟨⟨putFrame w serving.flow.partition key entry, _⟩, ?_, rfl, reached⟩)
        exact List.mem_append_right _ List.mem_cons_self
    | tail _ later => exact .inr (.inl later)
  · exact .inr (.inr ⟨built, List.mem_append_left _ member, isOf, covers⟩)

end Serving

end SipServer.Repl
