/-
Module: SipServer.Proofs.BootstrapStore
Purpose: What the store and the changelog say of each call while a flow is served: a call whose last logged
  write is a put is stored in that version or a later one, unless its delete is in flight, and one whose last
  logged write is a delete is not stored, unless a put of it is in flight.
-/
import SipServer.Proofs.HoldStream
import SipServer.Proofs.StoreMoves
import SipServer.Repl.Bootstrap

namespace SipServer.Repl

open SipServer.Lib
open SipServer.Store

namespace Writing

variable {callRef : String}

/-- The op a write leaves in its call's entry. -/
def op : Writing → Op
  | .put _ => .put
  | .delete _ _ => .delete

/-- What the observer notes when a write moved its call's entry. -/
def logs : Writing → Logged
  | .put write => .put write.body
  | .delete _ _ => .delete

/-- A write of `callRef` toward `caller`. -/
def Toward (caller callRef : String) : Writing → Prop
  | .put write => write.callRef = callRef ∧ write.opts.peer = some caller ∧ write.opts.direction = some .forward
  | .delete write _ => write.callRef = callRef ∧ write.opts.peer = some caller ∧ write.opts.direction = some .forward

end Writing

namespace Serving

variable {serving next : Serving} {base : ℕ} {writing : Writing} {write : PutWrite ℕ} {record : CallMeta}
    {laterMs : ℤ}

/-! ### Reading the state of a call -/

/-- The counter and the op of a call's entry toward the caller. -/
def mark (serving : Serving) (callRef : String) : Option (ℕ × Op) :=
  serving.store.changelog.markOf serving.caller .bak callRef

/-- The counter of a call's last logged write. -/
def written (serving : Serving) (callRef : String) : ℕ := ((serving.mark callRef).map (·.1)).getD 0

/-- A put of the call is in flight. -/
def Putting (serving : Serving) (callRef : String) : Prop :=
  ∃ write, serving.writing.get callRef = some (.put write)

/-- A delete of the call is in flight. -/
def Deleting (serving : Serving) (callRef : String) : Prop :=
  ∃ write incarnation, serving.writing.get callRef = some (.delete write incarnation)

theorem not_expired_of_backedBy {nowMs : ℤ} {primary backup : String}
    (backed : ReplicatingCallStore.backedBy nowMs primary backup record = true) : record.expired nowMs = false := by
  unfold ReplicatingCallStore.backedBy at backed
  rw [Bool.and_eq_true, Bool.not_eq_true'] at backed
  exact backed.2

/-- A body the caller is offered is one the flow reads. -/
theorem read_of_offered {stamp : ℕ} (isOffered : serving.offered callRef = some stamp) :
    ∃ incarnation, serving.read callRef = some ⟨stamp, incarnation⟩ := by
  unfold offered at isOffered
  split at isOffered
  · rename_i backed
    rw [Option.any_eq_true] at backed
    obtain ⟨record, found, backed⟩ := backed
    obtain ⟨stored, storedFound, same⟩ := Option.map_eq_some_iff.mp isOffered
    have readable : serving.store.readEntry serving.nowMs (serving.place callRef) =
        some (stored.body, record.refMeta) := by
      have foundAt : serving.store.records.get (serving.place callRef).callRef = some record := found
      unfold ReplicatingCallStore.readEntry
      rw [foundAt]
      dsimp only
      rw [not_expired_of_backedBy backed, if_neg Bool.false_ne_true, storedFound]
      rfl
    refine ⟨record.refMeta.incarnation, ?_⟩
    unfold read
    rw [readable, ← same]
    rfl
  · cases isOffered

/-- A call without a record is not read. -/
theorem read_of_no_record (absent : serving.store.records.get callRef = none) :
    serving.read callRef = none := by
  have foundAt : serving.store.records.get (serving.place callRef).callRef = none := absent
  unfold read ReplicatingCallStore.readEntry
  rw [foundAt]
  rfl

/-- Two states that show the same of a call. -/
structure SameCall (serving next : Serving) (callRef : String) : Prop where
  offered : next.offered callRef = serving.offered callRef
  read : next.read callRef = serving.read callRef

theorem sameCall_of_store (self : next.self = serving.self) (caller : next.caller = serving.caller)
    (nowMs : next.nowMs = serving.nowMs)
    (records : next.store.records.get callRef = serving.store.records.get callRef)
    (bodies : next.store.inner.bodies.get (serving.place callRef) =
      serving.store.inner.bodies.get (serving.place callRef)) : SameCall serving next callRef := by
  have place : next.place callRef = serving.place callRef := by
    unfold place
    rw [self]
  constructor
  · unfold offered
    rw [place, nowMs, self, caller, records, bodies]
  · have recordsAt : next.store.records.get (serving.place callRef).callRef =
        serving.store.records.get (serving.place callRef).callRef := records
    unfold read ReplicatingCallStore.readEntry
    rw [place, nowMs, recordsAt, bodies]

theorem sameCall_of_kept (self : next.self = serving.self) (caller : next.caller = serving.caller)
    (nowMs : next.nowMs = serving.nowMs) (records : next.store.records = serving.store.records)
    (inner : next.store.inner = serving.store.inner) (callRef : String) : SameCall serving next callRef := by
  apply sameCall_of_store self caller nowMs
  · rw [records]
  · rw [inner]

/-! ### What is tracked of every call -/

/-- What the store shows of a call whose write is in flight. -/
def Shows (serving : Serving) (callRef : String) : Writing → Prop
  | .put write => serving.offered callRef = some write.body ∧ write.body ≤ serving.stamp
  | .delete _ _ => serving.read callRef = none

/-- What the store and the changelog, whose counter stood at `base` when the flow was opened, say of every
    call. -/
structure Tracked (base : ℕ) (serving : Serving) : Prop where
  stamped : ∀ callRef stamp, serving.logged callRef = some (.put stamp) → stamp ≤ serving.stamp
  inFlight : ∀ callRef writing, serving.writing.get callRef = some writing →
    writing.Toward serving.caller callRef ∧ serving.Shows callRef writing
  loggedPut : ∀ callRef stamp, serving.logged callRef = some (.put stamp) →
    serving.Deleting callRef ∨ ∃ version, stamp ≤ version ∧ serving.offered callRef = some version
  loggedDelete : ∀ callRef, serving.logged callRef = some .delete →
    serving.Putting callRef ∨ serving.read callRef = none
  marked : ∀ callRef counter, serving.mark callRef = some (counter, .delete) → base < counter →
    serving.logged callRef = some .delete
  deleted : ∀ callRef, serving.logged callRef = some .delete → ∃ counter,
    serving.mark callRef = some (counter, .delete)

/-- A call whose put is in flight is stored, one whose delete is in flight is not. -/
theorem Tracked.offered_of_putting (tracked : serving.Tracked base)
    (putting : serving.Putting callRef) : ∃ stamp, serving.offered callRef = some stamp := by
  obtain ⟨write, found⟩ := putting
  exact ⟨write.body, (tracked.inFlight callRef _ found).2.1⟩

theorem Tracked.read_of_deleting (tracked : serving.Tracked base)
    (deleting : serving.Deleting callRef) : serving.read callRef = none := by
  obtain ⟨write, incarnation, found⟩ := deleting
  exact (tracked.inFlight callRef _ found).2

/-! ### What a step does to the calls -/

/-- Everything a step can do to the calls: nothing, begin a write or log one. -/
inductive CallMove (serving next : Serving) : Prop where
  | unchanged (same : ∀ callRef, SameCall serving next callRef)
      (marks : ∀ callRef, next.mark callRef = serving.mark callRef) (writing : next.writing = serving.writing)
      (logged : next.logged = serving.logged)
  | began {begun : String} {writing : Writing} (free : serving.writing.get begun = none)
      (toward : writing.Toward serving.caller begun) (shows : next.Shows begun writing)
      (newer : ∀ write, writing = .put write → serving.stamp ≤ write.body)
      (same : ∀ callRef, callRef ≠ begun → SameCall serving next callRef)
      (marks : ∀ callRef, next.mark callRef = serving.mark callRef)
      (inserted : next.writing = serving.writing.insert begun writing) (logged : next.logged = serving.logged)
  | logged {written : String} {writing : Writing} (found : serving.writing.get written = some writing)
      (same : ∀ callRef, SameCall serving next callRef)
      (marks : ∀ callRef, next.mark callRef =
        if callRef = written then some (serving.store.changelog.counter + 1, writing.op) else serving.mark callRef)
      (removed : next.writing = serving.writing.remove written)
      (logged : ∀ callRef, next.logged callRef =
        if callRef = written then some writing.logs else serving.logged callRef)

/-- Everything a step does but to the flow: it uses up stamps, does at most one operation on the changelog
    and moves the calls. -/
structure Moves (serving next : Serving) : Prop where
  caller : next.caller = serving.caller
  stamp : serving.stamp ≤ next.stamp
  changelog : next.store.changelog = serving.store.changelog ∨
    ∃ operation, next.store.changelog = serving.store.changelog.step operation
  calls : CallMove serving next

theorem Moves.gen (moves : Moves serving next) : next.store.changelog.gen = serving.store.changelog.gen := by
  rcases moves.changelog with same | ⟨operation, stepped⟩
  · rw [same]
  · rw [stepped, Changelog.step_gen]

theorem Moves.counter (moves : Moves serving next) :
    serving.store.changelog.counter ≤ next.store.changelog.counter := by
  rcases moves.changelog with same | ⟨operation, stepped⟩
  · rw [same]
  rw [stepped]
  exact Changelog.step_counter _ _

theorem Moves.indexed (moves : Moves serving next) (indexed : serving.store.changelog.Indexed) :
    next.store.changelog.Indexed := by
  rcases moves.changelog with same | ⟨operation, stepped⟩
  · exact same ▸ indexed
  · exact stepped ▸ indexed.step operation

theorem Shows.mono (shows : serving.Shows callRef writing) (same : SameCall serving next callRef)
    (stamp : serving.stamp ≤ next.stamp) : next.Shows callRef writing := by
  cases writing with
  | put write => exact ⟨same.offered.trans shows.1, shows.2.trans stamp⟩
  | delete write incarnation => exact same.read.trans shows

/-- What is tracked of one call. -/
structure TrackedAt (base : ℕ) (serving : Serving) (callRef : String) : Prop where
  stamped : ∀ stamp, serving.logged callRef = some (.put stamp) → stamp ≤ serving.stamp
  inFlight : ∀ writing, serving.writing.get callRef = some writing →
    writing.Toward serving.caller callRef ∧ serving.Shows callRef writing
  loggedPut : ∀ stamp, serving.logged callRef = some (.put stamp) →
    serving.Deleting callRef ∨ ∃ version, stamp ≤ version ∧ serving.offered callRef = some version
  loggedDelete : serving.logged callRef = some .delete → serving.Putting callRef ∨ serving.read callRef = none
  marked : ∀ counter, serving.mark callRef = some (counter, .delete) → base < counter →
    serving.logged callRef = some .delete
  deleted : serving.logged callRef = some .delete → ∃ counter, serving.mark callRef = some (counter, .delete)

theorem tracked_iff : serving.Tracked base ↔ ∀ callRef, serving.TrackedAt base callRef := by
  constructor
  · exact fun ⟨stamped, inFlight, put, delete, marked, deleted⟩ callRef =>
      ⟨stamped callRef, inFlight callRef, put callRef, delete callRef, marked callRef, deleted callRef⟩
  · exact fun each => ⟨fun callRef => (each callRef).stamped, fun callRef => (each callRef).inFlight,
      fun callRef => (each callRef).loggedPut, fun callRef => (each callRef).loggedDelete,
      fun callRef => (each callRef).marked, fun callRef => (each callRef).deleted⟩

namespace TrackedAt

variable (tracked : serving.TrackedAt base callRef) (stamp : serving.stamp ≤ next.stamp)

include tracked stamp

/-- A step that moves nothing of the call. -/
theorem kept (caller : next.caller = serving.caller) (same : SameCall serving next callRef)
    (mark : next.mark callRef = serving.mark callRef)
    (writing : next.writing.get callRef = serving.writing.get callRef)
    (logged : next.logged callRef = serving.logged callRef) : next.TrackedAt base callRef where
  stamped version isLogged := (tracked.stamped version (logged ▸ isLogged)).trans stamp
  inFlight current found := by
    obtain ⟨toward, shows⟩ := tracked.inFlight current (writing ▸ found)
    exact ⟨caller ▸ toward, shows.mono same stamp⟩
  loggedPut version isLogged := by
    unfold Deleting
    rw [writing, same.offered]
    exact tracked.loggedPut version (logged ▸ isLogged)
  loggedDelete isLogged := by
    unfold Putting
    rw [writing, same.read]
    exact tracked.loggedDelete (logged ▸ isLogged)
  marked counter isMarked above := logged ▸ tracked.marked counter (mark ▸ isMarked) above
  deleted isLogged := mark ▸ tracked.deleted (logged ▸ isLogged)

/-- A begun write stores a newer version of its call or takes it away, so what was logged of it stays
    true. -/
theorem began (toward : writing.Toward next.caller callRef) (shows : next.Shows callRef writing)
    (newer : ∀ write, writing = .put write → serving.stamp ≤ write.body)
    (mark : next.mark callRef = serving.mark callRef) (inserted : next.writing.get callRef = some writing)
    (logged : next.logged callRef = serving.logged callRef) : next.TrackedAt base callRef where
  stamped version isLogged := (tracked.stamped version (logged ▸ isLogged)).trans stamp
  inFlight current found := by
    cases inserted.symm.trans found
    exact ⟨toward, shows⟩
  loggedPut version isLogged := by
    rw [logged] at isLogged
    cases writing with
    | delete write incarnation => exact .inl ⟨write, incarnation, inserted⟩
    | put write => exact .inr ⟨write.body, (tracked.stamped version isLogged).trans (newer write rfl), shows.1⟩
  loggedDelete isLogged := by
    cases writing with
    | put write => exact .inl ⟨write, inserted⟩
    | delete write incarnation => exact .inr shows
  marked counter isMarked above := logged ▸ tracked.marked counter (mark ▸ isMarked) above
  deleted isLogged := mark ▸ tracked.deleted (logged ▸ isLogged)

/-- A logged write is the one the store shows. -/
theorem logged (found : serving.writing.get callRef = some writing) (same : SameCall serving next callRef)
    {counter : ℕ}
    (mark : next.mark callRef = some (counter, writing.op)) (removed : next.writing.get callRef = none)
    (logged : next.logged callRef = some writing.logs) : next.TrackedAt base callRef := by
  have shows := (tracked.inFlight writing found).2.mono same stamp
  cases writing with
  | put write =>
    constructor
    case stamped =>
      intro version isLogged
      cases logged.symm.trans isLogged
      exact shows.2
    case loggedPut =>
      intro version isLogged
      cases logged.symm.trans isLogged
      exact .inr ⟨write.body, le_refl _, shows.1⟩
    case inFlight => exact fun _ current => nomatch removed.symm.trans current
    case marked => exact fun _ isMarked => nomatch mark.symm.trans isMarked
    case loggedDelete | deleted => exact fun isLogged => nomatch logged.symm.trans isLogged
  | delete write incarnation =>
    constructor
    case stamped | loggedPut => exact fun _ isLogged => nomatch logged.symm.trans isLogged
    case inFlight => exact fun _ current => nomatch removed.symm.trans current
    case loggedDelete => exact fun _ => .inr shows
    case marked => exact fun _ _ _ => logged
    case deleted => exact fun _ => ⟨_, mark⟩

end TrackedAt

theorem Tracked.moved (tracked : serving.Tracked base) (moves : Moves serving next) : next.Tracked base := by
  obtain ⟨caller, stamp, -, calls⟩ := moves
  rw [tracked_iff] at tracked ⊢
  intro callRef
  cases calls with
  | unchanged same marks writing logged =>
    exact (tracked callRef).kept stamp caller (same callRef) (marks callRef) (by rw [writing]) (by rw [logged])
  | @began begun _ _ toward shows newer same marks inserted logged =>
    by_cases isBegun : callRef = begun
    · subst isBegun
      refine (tracked callRef).began stamp (caller ▸ toward) shows newer (marks callRef) ?_ (by rw [logged])
      rw [inserted, KeyMap.get_insert, if_pos rfl]
    · refine (tracked callRef).kept stamp caller (same callRef isBegun) (marks callRef) ?_ (by rw [logged])
      rw [inserted, KeyMap.get_insert, if_neg isBegun]
  | @logged written _ found same marks removed logged =>
    have mark := marks callRef
    have isLogged := logged callRef
    by_cases isWritten : callRef = written
    · subst isWritten
      rw [if_pos rfl] at mark isLogged
      refine (tracked callRef).logged stamp found (same callRef) mark ?_ isLogged
      rw [removed, KeyMap.get_remove, if_pos rfl]
    · rw [if_neg isWritten] at mark isLogged
      refine (tracked callRef).kept stamp caller (same callRef) mark ?_ isLogged
      rw [removed, KeyMap.get_remove, if_neg isWritten]

/-! ### Every step moves the calls this way -/

theorem mark_of_changelog (caller : next.caller = serving.caller)
    (changelog : next.store.changelog = serving.store.changelog) (callRef : String) :
    next.mark callRef = serving.mark callRef := by
  unfold mark
  rw [caller, changelog]

/-- A body just stored toward the caller is offered to it. -/
theorem offered_of_took {store : ReplicatingCallStore ℕ}
    (took : ReplicatingCallStore.Took store serving.store serving.nowMs write) (role : write.role = .primary)
    (primary : write.primary = serving.self) (peer : write.opts.peer = some serving.caller)
    (direction : write.opts.direction = some .forward) : serving.offered write.callRef = some write.body := by
  obtain ⟨record, found, recordRole, recordPrimary, expiry, backup⟩ := took.record
  obtain ⟨stored, storedFound, body⟩ := took.body
  have flushed : record.backup = some serving.caller := by
    apply backup
    rw [ReplicatingCallStore.flushedBackup, direction]
    exact peer
  have alive : record.expired serving.nowMs = false := by
    unfold CallMeta.expired
    rw [expiry]
    unfold ReplicatingCallStore.expiryFor
    generalize (if 0 < write.ttlMs then write.ttlMs else store.defaultTtlMs) = effective
    dsimp only
    split
    · exact decide_eq_false (by omega)
    · rfl
  have backed : ReplicatingCallStore.backedBy serving.nowMs serving.self serving.caller record = true := by
    simp [ReplicatingCallStore.backedBy, recordRole, recordPrimary, role, primary, flushed, alive]
  rw [role, primary] at storedFound
  unfold offered
  rw [found, Option.any_some, backed, if_pos rfl]
  unfold place
  rw [storedFound, Option.map_some, body]

theorem beginPut_moves (free : serving.writing.get write.callRef = none)
    (role : write.role = .primary) (primary : write.primary = serving.self)
    (toward : (Writing.put write).Toward serving.caller write.callRef) (stamp : serving.stamp ≤ write.body) :
    Moves serving (serving.beginPut write) := by
  have changelog : (serving.beginPut write).store.changelog = serving.store.changelog := by
    cases taken : (serving.store.storePut serving.nowMs write).2 with
    | true => exact (ReplicatingCallStore.storePut_took taken).changelog
    | false => exact (ReplicatingCallStore.storePut_refused taken).2.2
  refine ⟨rfl, stamp, .inl changelog, ?_⟩
  cases taken : (serving.store.storePut serving.nowMs write).2 with
  | true =>
    have took := ReplicatingCallStore.storePut_took taken
    have inserted : (serving.beginPut write).writing = serving.writing.insert write.callRef (.put write) :=
      if_pos taken
    refine .began free toward ?_ ?_ ?_ (mark_of_changelog rfl changelog) inserted rfl
    · exact ⟨offered_of_took took role primary toward.2.1 toward.2.2, le_refl _⟩
    · rintro other ⟨⟩
      exact stamp
    · exact fun callRef other => sameCall_of_store rfl rfl rfl (took.records callRef other) (took.bodies _ other)
  | false =>
    obtain ⟨records, inner, -⟩ := ReplicatingCallStore.storePut_refused taken
    have writing : (serving.beginPut write).writing = serving.writing :=
      if_neg fun isTaken => Bool.false_ne_true (taken.symm.trans isTaken)
    exact .unchanged (sameCall_of_kept rfl rfl rfl records inner) (mark_of_changelog rfl changelog) writing rfl

theorem beginDelete_moves {write : DeleteWrite} (free : serving.writing.get write.callRef = none)
    (toward : ∀ incarnation, (Writing.delete write incarnation).Toward serving.caller write.callRef) :
    Moves serving (serving.beginDelete write) := by
  have changelog : (serving.beginDelete write).store.changelog = serving.store.changelog :=
    ReplicatingCallStore.changelog_storeDelete
  refine ⟨rfl, le_refl _, .inl changelog, ?_⟩
  cases another : serving.store.deletesAnother write with
  | true =>
    obtain ⟨records, inner⟩ := ReplicatingCallStore.storeDelete_another another
    have writing : (serving.beginDelete write).writing = serving.writing := if_pos another
    exact .unchanged (sameCall_of_kept rfl rfl rfl records inner) (mark_of_changelog rfl changelog) writing rfl
  | false =>
    obtain ⟨records, bodies⟩ := ReplicatingCallStore.storeDelete_removed another
    have inserted : (serving.beginDelete write).writing =
        serving.writing.insert write.callRef (.delete write (serving.store.deletedIncarnation write)) :=
      if_neg fun isAnother => Bool.false_ne_true (another.symm.trans isAnother)
    refine .began free (toward _) ?_ nofun ?_ (mark_of_changelog rfl changelog) inserted rfl
    · exact read_of_no_record ((records write.callRef).trans (if_pos rfl))
    intro callRef other
    exact sameCall_of_store rfl rfl rfl ((records callRef).trans (if_neg other)) (bodies _ other)

theorem log_moves (found : serving.writing.get callRef = some writing)
    (toward : writing.Toward serving.caller callRef) : Moves serving (serving.log callRef writing) := by
  have bumped : ∃ operation stated, (serving.log callRef writing).store.changelog =
        serving.store.changelog.step operation ∧ serving.store.changelog.step operation =
      (serving.store.changelog.bump serving.nowMs serving.caller callRef writing.op .bak stated).1 := by
    cases writing with
    | put write =>
      obtain ⟨rfl, peer, direction⟩ := toward
      refine ⟨.put serving.nowMs serving.caller write.callRef .bak, .nothing, ?_, rfl⟩
      simp only [log, ReplicatingCallStore.logPut, peer, direction]
      rfl
    | delete write incarnation =>
      obtain ⟨rfl, peer, direction⟩ := toward
      refine ⟨.delete serving.nowMs serving.caller write.callRef .bak write.answered incarnation,
        ⟨write.answered, incarnation⟩, ?_, rfl⟩
      simp only [log, ReplicatingCallStore.logDelete, peer, direction]
      rfl
  obtain ⟨operation, stated, stepped, changelog⟩ := bumped
  refine ⟨rfl, le_refl _, .inr ⟨operation, stepped⟩, ?_⟩
  · refine .logged found ?_ ?_ rfl ?_
    · intro other
      cases writing <;> exact sameCall_of_store rfl rfl rfl rfl rfl
    · intro other
      unfold mark
      rw [stepped, changelog]
      exact Changelog.markOf_bump
    · intro other
      cases writing <;> rfl

theorem expired_of_keepsBodies (later : serving.nowMs ≤ laterMs) (keeps : serving.keepsBodies laterMs = true)
    (found : serving.store.records.get callRef = some record) :
    record.expired laterMs = record.expired serving.nowMs := by
  have kept := List.all_eq_true.mp keeps callRef (KeyMap.mem_keys_of_get found)
  rw [found, Option.all_some, Bool.or_eq_true, Bool.not_eq_true'] at kept
  cases now : record.expired serving.nowMs with
  | false =>
    rw [now] at kept
    exact kept.resolve_right Bool.false_ne_true
  | true =>
    unfold CallMeta.expired at now ⊢
    rw [Option.any_eq_true] at now ⊢
    obtain ⟨expiry, isExpiry, passed⟩ := now
    exact ⟨expiry, isExpiry, decide_eq_true ((of_decide_eq_true passed).trans later)⟩

theorem tick_moves (later : serving.nowMs ≤ laterMs) (keeps : serving.keepsBodies laterMs = true) :
    Moves serving { serving with nowMs := laterMs } := by
  refine ⟨rfl, le_refl _, .inl rfl, .unchanged ?_ (fun _ => rfl) rfl rfl⟩
  intro callRef
  constructor
  · unfold offered
    cases found : serving.store.records.get callRef with
    | none => rfl
    | some record =>
      rw [Option.any_some, Option.any_some, ReplicatingCallStore.backedBy, ReplicatingCallStore.backedBy,
        expired_of_keepsBodies later keeps found]
      rfl
  · have foundAt : serving.store.records.get (serving.place callRef).callRef =
        serving.store.records.get callRef := rfl
    have placed : { serving with nowMs := laterMs }.place callRef = serving.place callRef := rfl
    unfold read ReplicatingCallStore.readEntry
    dsimp only
    rw [placed, foundAt]
    cases found : serving.store.records.get callRef with
    | none => rfl
    | some record =>
      dsimp only
      rw [expired_of_keepsBodies later keeps found]

/-- A step that leaves all but the changelog, the flow and what it sent alone, and marks no call. -/
theorem relogged_moves {changelog : Changelog} {flow : ServeFlow ℕ} {sent : List (Sent ℕ)}
    (relogged : changelog = serving.store.changelog ∨
      ∃ operation, changelog = serving.store.changelog.step operation)
    (marks : ∀ callRef, changelog.markOf serving.caller .bak callRef = serving.mark callRef) :
    Moves serving { serving with
      store := { serving.store with changelog := changelog }, flow := flow, sent := sent } :=
  ⟨rfl, le_refl _, relogged, .unchanged (sameCall_of_kept rfl rfl rfl rfl rfl) marks rfl rfl⟩

/-- Every step moves the calls in one of these ways. -/
theorem moves_of_step (tracked : serving.Tracked base) {event : Event} (stepped : serving.step event = some next) :
    Moves serving next := by
  unfold step at stepped
  split at stepped
  · split at stepped
    · rename_i free
      cases stepped
      exact beginPut_moves free rfl rfl ⟨rfl, rfl, rfl⟩ (Nat.le_succ _)
    · cases stepped
  · split at stepped
    · rename_i free
      cases stepped
      exact beginDelete_moves free fun _ => ⟨rfl, rfl, rfl⟩
    · cases stepped
  · obtain ⟨writing, found, rfl⟩ := Option.map_eq_some_iff.mp stepped
    exact log_moves found (tracked.inFlight _ writing found).1
  · split at stepped
    · rename_i operation elsewhere
      cases stepped
      exact relogged_moves (.inr ⟨operation, rfl⟩) (Changelog.markOf_step (Changelog.Operation.not_remarks elsewhere))
    · cases stepped
  · split at stepped
    · rename_i guard
      cases stepped
      exact tick_moves guard.1 guard.2
    · cases stepped
  · obtain ⟨⟨changelog, flow, sent⟩, flowed, rfl⟩ := Option.map_eq_some_iff.mp stepped
    obtain ⟨event, -, flowed⟩ := Option.bind_eq_some_iff.mp flowed
    have flowMoves := ServeFlow.moves_of_step flowed
    exact relogged_moves (flowMoves.operation.imp_right (Exists.imp fun _ => And.right))
      flowMoves.marks

end Serving

end SipServer.Repl
