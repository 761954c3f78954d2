/-
Module: SipServer.Proofs.Unbacked
Purpose: What becomes of a call whose replica its backup refused, while the call's turns go on.
-/
import SipServer.Proofs.ChangelogStates
import SipServer.Proofs.StoreMoves
import SipServer.Store.Backing

namespace SipServer.Repl

namespace Changelog

variable {callRef backup peer : String} {incarnation : Option String} {opts : PutOpts}

variable {nowMs : ℤ} {partition : Partition} {log : Changelog}

/-- The entry an operation writes: its peer, partition and call. -/
def Operation.writes : Operation → Option (String × Partition × String)
  | .put _ peer callRef partition => some (peer, partition, callRef)
  | .delete _ peer callRef partition _ _ => some (peer, partition, callRef)
  | _ => none

/-- A call without an entry gets one only by an operation that writes it. -/
theorem stateOf_step_eq_none (indexed : log.Indexed) {operation : Operation}
    (absent : log.stateOf peer partition callRef = none)
    (other : operation.writes ≠ some (peer, partition, callRef)) :
    (log.step operation).stateOf peer partition callRef = none := by
  have move := step_stateMove indexed operation peer partition callRef
  rw [absent] at move
  generalize (log.step operation).stateOf peer partition callRef = after at move
  cases move with
  | same | forgotten | reaped => rfl
  | put _ _ _ isWrite | delete _ _ _ _ _ isWrite =>
    subst isWrite
    exact absurd rfl other

theorem stateOf_forget : (log.forget peer partition callRef).stateOf peer partition callRef = none := by
  unfold stateOf forget
  rw [sub_changeSub, if_pos ⟨rfl, rfl⟩]
  cases log.sub peer partition with
  | none => rfl
  | some sub => exact (SubLog.get_forget ..).trans (if_pos rfl)

end Changelog

end SipServer.Repl

namespace SipServer.Store

open SipServer.Lib
open SipServer.Repl (Changelog Partition)

variable {callRef : String} {allowed : String → Partition → String → Prop} {bak : Option String} {next : Changelog}

/-! ### Targets -/

/-- Options that go forward for an own call alone, and back for another node's. -/
structure PutOpts.Aimed (selfOrdinal callRef : String) (opts : PutOpts) : Prop where
  forward : opts.direction = some .forward → primaryOf selfOrdinal callRef = selfOrdinal
  reverse : opts.direction = some .reverse → primaryOf selfOrdinal callRef ≠ selfOrdinal

namespace ReplicatingCallStore

variable {Body : Type} {store : ReplicatingCallStore Body} {selfOrdinal : String}

theorem storeTarget_aimed : (store.storeTarget selfOrdinal callRef bak).2.2.Aimed selfOrdinal callRef := by
  unfold storeTarget
  split
  · dsimp only [ReplicationPlan.resolve, ReplicationPlan.putOpts, replicationTarget]
    by_cases own : primaryOf selfOrdinal callRef = selfOrdinal
    · rw [if_pos own]
      exact { forward := fun _ => own, reverse := (nomatch ·) }
    · rw [if_neg own]
      exact { forward := (nomatch ·), reverse := fun _ => own }
  · exact { forward := (nomatch ·), reverse := (nomatch ·) }

/-- A call without a backup resolves to no peer. -/
theorem storeTarget_unbacked (marked : callRef ∈ store.refusals.unbacked) :
    (store.storeTarget selfOrdinal callRef bak).2.2.peer = none := by
  have isNone : store.backupOf callRef bak = none := by
    unfold backupOf unbacked
    cases bak.filter fun bak => !bak.isEmpty with
    | none => rfl
    | some bak => exact if_pos (decide_eq_true marked)
  unfold storeTarget
  rw [isNone]

/-! ### The backup a record names -/

/-- The backup recorded for a call. -/
def recordedBackup (store : ReplicatingCallStore Body) (callRef : String) : Option String :=
  (store.records.get callRef).bind (·.backup)

theorem recordedBackup_of_get {next : ReplicatingCallStore Body}
    (same : next.records.get callRef = store.records.get callRef ∨ next.records.get callRef = none)
    (named : next.recordedBackup callRef = some backup) : store.recordedBackup callRef = some backup := by
  unfold recordedBackup at named ⊢
  obtain same | gone := same
  · rwa [same] at named
  rw [gone] at named
  cases named

theorem get_vacates {vacated : String} {gone : CallMeta} :
    (store.vacates nowMs vacated gone).records.get callRef = store.records.get callRef ∨
      (store.vacates nowMs vacated gone).records.get callRef = none := by
  unfold vacates
  rw [KeyMap.get_remove]
  split
  · exact .inr rfl
  · exact .inl rfl

/-- A put records the backup it is flushed to, or leaves the one recorded, or none. -/
theorem recordedBackup_storePut {write : PutWrite Body}
    (named : (store.storePut nowMs write).1.recordedBackup callRef = some backup) :
    store.recordedBackup callRef = some backup ∨ callRef = write.callRef ∧
      flushedBackup write.opts = some backup := by
  revert named
  apply storePut_rule fun next => next.recordedBackup callRef = some backup →
    store.recordedBackup callRef = some backup ∨ callRef = write.callRef ∧ flushedBackup write.opts = some backup
  case buries => exact fun _ _ named => .inl named
  case vacates => exact fun gone found named => .inl (recordedBackup_of_get get_vacates named)
  case takes =>
    intro before records named
    unfold recordedBackup takes at named
    rw [KeyMap.get_insert] at named
    split at named
    · rename_i written
      cases held : before.records.get write.callRef with
      | none =>
        rw [held] at named
        exact .inr ⟨written, named⟩
      | some record =>
        rw [held] at named
        dsimp only [recorded] at named
        split at named
        · exact .inr ⟨written, named⟩
        apply records
        rw [recordedBackup, written, held]
        exact named
    · exact records named

theorem recordedBackup_dropBackup {dropped : String} :
    (store.dropBackup dropped).recordedBackup callRef = if callRef = dropped then none
      else store.recordedBackup callRef := by
  unfold recordedBackup dropBackup leaveUnbacked changeUnbacked
  rw [KeyMap.get_modify]
  split
  · cases store.records.get callRef <;> rfl
  · rfl

/-! ### What a section leaves alone -/

theorem refusals_storePut {write : PutWrite Body} :
    (store.storePut nowMs write).1.refusals = store.refusals :=
  storePut_rule (fun next => next.refusals = store.refusals) (fun _ _ => rfl) (fun _ _ => rfl) (fun _ same => same)

theorem changelog_storePut {write : PutWrite Body} :
    (store.storePut nowMs write).1.changelog = store.changelog :=
  storePut_rule (fun next => next.changelog = store.changelog) (fun _ _ => rfl) (fun _ _ => rfl) (fun _ same => same)

theorem refusals_storeDelete (store : ReplicatingCallStore Body) (nowMs : ℤ) (write : DeleteWrite) :
    (store.storeDelete nowMs write).refusals = store.refusals := by
  unfold storeDelete
  split <;> rfl

/-- Eviction touches neither the refusals nor the change log. -/
theorem evictSnapshot_keeps (nowMs : ℤ) (expired : List String) (store : ReplicatingCallStore Body) :
    (store.evictSnapshot nowMs expired).1.refusals = store.refusals ∧
      (store.evictSnapshot nowMs expired).1.changelog = store.changelog := by
  induction expired generalizing store with
  | nil => exact ⟨rfl, rfl⟩
  | cons evicted expired ih =>
    obtain ⟨refusals, changelog⟩ := ih (store.evict nowMs evicted).1
    have one : (store.evict nowMs evicted).1.refusals = store.refusals ∧
        (store.evict nowMs evicted).1.changelog = store.changelog := by
      unfold evict
      split
      · exact ⟨rfl, rfl⟩
      split <;> exact ⟨rfl, rfl⟩
    exact ⟨refusals.trans one.1, changelog.trans one.2⟩

/-- A delete removes the record of its call or, of another call, nothing. -/
theorem records_storeDelete (store : ReplicatingCallStore Body) (nowMs : ℤ) (write : DeleteWrite) (callRef : String) :
    (store.storeDelete nowMs write).records.get callRef = store.records.get callRef ∨
      (store.storeDelete nowMs write).records.get callRef = none := by
  cases another : store.deletesAnother write with
  | true => exact .inl (congrArg (·.get callRef) (storeDelete_another another).1)
  | false =>
    rw [(storeDelete_removed another).1]
    split
    · exact .inr rfl
    · exact .inl rfl

end ReplicatingCallStore

/-! ### A node at work -/

/-- The change log is as it was, or after an operation that writes no entry but those allowed. -/
def LogMoves (allowed : String → Partition → String → Prop) (log next : Changelog) : Prop :=
  next = log ∨ ∃ operation, next = log.step operation ∧
    ∀ peer partition callRef, operation.writes = some (peer, partition, callRef) → allowed peer partition callRef

theorem LogMoves.absent (moves : LogMoves allowed log next) (indexed : log.Indexed)
    (none : log.stateOf peer partition callRef = none) (forbidden : ¬ allowed peer partition callRef) :
    next.stateOf peer partition callRef = Option.none := by
  obtain rfl | ⟨operation, rfl, writes⟩ := moves
  · exact none
  · exact Changelog.stateOf_step_eq_none indexed none fun written => forbidden (writes _ _ _ written)

theorem LogMoves.indexed (moves : LogMoves allowed log next) (indexed : log.Indexed) : next.Indexed := by
  obtain rfl | ⟨operation, rfl, -⟩ := moves
  · exact indexed
  · exact indexed.step operation

variable {Body : Type} {selfOrdinal : String} {write : DeleteWrite} {node : BackedNode Body} {turn : Turn Body}
  {recorded : Option String} {event : BackedEvent Body} {key : String}

/-- The entry a turn under way for `key` has still to write. -/
def Turn.Logs (key peer : String) (partition : Partition) (callRef : String) : Turn Body → Prop
  | .stored write =>
    write.opts.peer = some peer ∧ ReplicatingCallStore.partitionFor write.opts.direction = partition ∧
      write.callRef = callRef
  | .deleted write _ =>
    write.opts.peer = some peer ∧ ReplicatingCallStore.partitionFor write.opts.direction = partition ∧
      write.callRef = callRef
  | .abandoned backup _ => backup = peer ∧ Partition.bak = partition ∧ key = callRef
  | _ => False

namespace BackedNode

open ReplicatingCallStore

/-- The call of a callRef is deleted, or a new call is admitted on the callRef with its backup. -/
def Ends (callRef : String) (node : BackedNode Body) : BackedEvent Body → Prop
  | .admits admitted backed => admitted = callRef ∧ backed = true
  | .delete _ deleted _ _ incarnation =>
    deleted = callRef ∧ isAnotherCall (node.store.heldIncarnation callRef) (some incarnation) = false
  | .appliedDelete _ write =>
    write.callRef = callRef ∧ isAnotherCall (node.store.heldIncarnation callRef) write.opts.incarnation = false
  | _ => False

/-- The turns a call's turn can become. -/
inductive Takes (selfOrdinal : String) (node : BackedNode Body) (next : ReplicatingCallStore Body)
    (event : BackedEvent Body) (callRef : String) : Turn Body → Prop
  | flushing (bak : Option String) : Takes selfOrdinal node next event callRef
      (.flushing (node.store.storeTarget selfOrdinal callRef bak).1
        (node.store.storeTarget selfOrdinal callRef bak).2.1
        (node.store.storeTarget selfOrdinal callRef bak).2.2)
  | deleting (bak : Option String) : Takes selfOrdinal node next event callRef
      (.deleting (node.store.storeTarget selfOrdinal callRef bak).1
        (node.store.storeTarget selfOrdinal callRef bak).2.1
        (node.store.storeTarget selfOrdinal callRef bak).2.2)
  | stored {role : PartitionRole} {primary : String} {opts : PutOpts} {write : PutWrite Body}
      (was : node.turns.get callRef = some (.flushing role primary opts)) (isRef : write.callRef = callRef)
      (peer : write.opts.peer = opts.peer) (direction : write.opts.direction = opts.direction) :
      Takes selfOrdinal node next event callRef (.stored write)
  | deleted {role : PartitionRole} {primary : String} {opts : PutOpts} {write : DeleteWrite}
      (incarnation : Option String)
      (was : node.turns.get callRef = some (.deleting role primary opts)) (isRef : write.callRef = callRef)
      (direction : write.opts.direction = opts.direction) (gone : next.records.get callRef = none)
      (ends : node.Ends callRef event) : Takes selfOrdinal node next event callRef (.deleted write incarnation)
  | abandoned {role : PartitionRole} {primary : String} {opts : PutOpts} {backup : String}
      (incarnation : Option String)
      (was : node.turns.get callRef = some (.flushing role primary opts)) (gives : abandons opts = some backup) :
      Takes selfOrdinal node next event callRef (.abandoned backup incarnation)

/-- What a section does to the records, the change log and the calls without a backup. -/
structure Moves (node : BackedNode Body) (event : BackedEvent Body)
    (next : ReplicatingCallStore Body) : Prop where
  backs : ∀ callRef backup, next.recordedBackup callRef = some backup →
    node.store.recordedBackup callRef = some backup ∨
      ∃ role primary opts, node.turns.get callRef = some (.flushing role primary opts) ∧
        flushedBackup opts = some backup
  log : LogMoves (fun peer partition callRef => ∃ key turn, node.turns.get key = some turn ∧
    turn.Logs key peer partition callRef) node.store.changelog next.changelog
  marks : ∀ callRef ∈ node.store.refusals.unbacked, callRef ∈ next.refusals.unbacked ∨ node.Ends callRef event ∨
    ∃ key write incarnation, node.turns.get key = some (.deleted write incarnation) ∧ write.callRef = callRef

namespace Moves

variable {node : BackedNode Body} {event : BackedEvent Body} {next : ReplicatingCallStore Body}

/-- A section that takes records away and touches nothing else. -/
theorem of_removed (records : ∀ callRef, next.records.get callRef = node.store.records.get callRef ∨
      next.records.get callRef = none)
    (log : LogMoves (fun peer partition callRef => ∃ key turn, node.turns.get key = some turn ∧
      turn.Logs key peer partition callRef) node.store.changelog next.changelog)
    (marks : ∀ callRef ∈ node.store.refusals.unbacked, callRef ∈ next.refusals.unbacked ∨ node.Ends callRef event ∨
      ∃ key write incarnation, node.turns.get key = some (.deleted write incarnation) ∧ write.callRef = callRef) :
    Moves node event next where
  backs callRef _ named := .inl (recordedBackup_of_get (records callRef) named)
  log := log
  marks := marks

theorem refl (node : BackedNode Body) (event : BackedEvent Body) : Moves node event node.store :=
  of_removed (fun _ => .inl rfl) (.inl rfl) fun _ marked => .inl marked

theorem dropBackup (node : BackedNode Body) (event : BackedEvent Body) (callRef : String) :
    Moves node event (node.store.dropBackup callRef) where
  backs other backup named := by
    rw [recordedBackup_dropBackup] at named
    split at named
    · cases named
    · exact .inl named
  log := .inl rfl
  marks other marked := .inl (Finset.mem_insert_of_mem marked)

end Moves

section Steps

variable {node next : BackedNode Body} {event : BackedEvent Body} {store : ReplicatingCallStore Body}

/-- Every turn under way was under way, or is one a call's turn can become. -/
def TurnsMove (selfOrdinal : String) (node : BackedNode Body) (store : ReplicatingCallStore Body)
    (event : BackedEvent Body) (turns : KeyMap String (Turn Body)) : Prop :=
  ∀ callRef turn, turns.get callRef = some turn →
    node.turns.get callRef = some turn ∨ Takes selfOrdinal node store event callRef turn

theorem TurnsMove.insert (takes : Takes selfOrdinal node store event callRef turn) :
    TurnsMove selfOrdinal node store event (node.turns.insert callRef turn) := by
  intro other taken found
  rcases KeyMap.of_get_insert found with ⟨rfl, rfl⟩ | ⟨-, found⟩
  · exact .inr takes
  · exact .inl found

theorem TurnsMove.remove (callRef : String) :
    TurnsMove selfOrdinal node store event (node.turns.remove callRef) := by
  intro other taken found
  obtain ⟨-, found⟩ := KeyMap.of_get_remove found
  exact .inl found

theorem deletesAnother_eq :
    store.deletesAnother write = isAnotherCall (store.heldIncarnation write.callRef) write.opts.incarnation := by
  unfold deletesAnother heldIncarnation
  cases store.records.get write.callRef <;> rfl

/-- The put of a turn under way. -/
theorem moves_storePut {write : PutWrite Body} {primary : String}
    (found : node.turns.get write.callRef = some (.flushing write.role primary opts))
    (flushes : flushedBackup write.opts = flushedBackup opts) :
    Moves node event (node.store.storePut nowMs write).1 where
  backs callRef backup named := by
    obtain old | ⟨rfl, flushed⟩ := recordedBackup_storePut named
    · exact .inl old
    · exact .inr ⟨write.role, primary, opts, found, flushes.symm.trans flushed⟩
  log := .inl (changelog_storePut ..)
  marks callRef marked := .inl ((refusals_storePut).symm ▸ marked)

/-- A frame of a peer. -/
theorem moves_writePut {write : PutWrite Body} (peer : write.opts.peer = none) :
    Moves node event (node.store.writePut nowMs write) := by
  have stored : Moves node event (node.store.storePut nowMs write).1 :=
    { backs := fun callRef backup named => by
        obtain old | ⟨rfl, flushed⟩ := recordedBackup_storePut named
        · exact .inl old
        unfold flushedBackup at flushed
        split at flushed
        · cases peer.symm.trans flushed
        · cases flushed
      log := .inl (changelog_storePut ..)
      marks := fun callRef marked => .inl ((refusals_storePut).symm ▸ marked) }
  unfold writePut
  dsimp only
  split
  · refine { backs := stored.backs, log := ?_, marks := stored.marks }
    dsimp only [logPut]
    rw [peer]
    exact stored.log
  · exact stored

theorem moves_storeDelete : Moves node event (node.store.storeDelete nowMs write) :=
  .of_removed (records_storeDelete node.store nowMs write) (.inl (changelog_storeDelete ..))
    fun _ marked => .inl ((refusals_storeDelete node.store nowMs write).symm ▸ marked)

/-- A delete of a peer ends the call unless another is held. -/
theorem moves_writeDelete (peer : write.opts.peer = none) :
    Moves node (.appliedDelete nowMs write) (node.store.writeDelete nowMs write) := by
  have stored : Moves node (.appliedDelete nowMs write) (node.store.storeDelete nowMs write) :=
    moves_storeDelete
  unfold writeDelete
  split
  · exact stored
  rename_i removes
  refine { backs := stored.backs, log := ?_, marks := fun callRef marked => ?_ }
  · dsimp only [logDelete]
    rw [peer]
    exact stored.log
  by_cases ended : write.callRef = callRef
  · refine .inr (.inl ⟨ended, ?_⟩)
    rw [deletesAnother_eq, ended] at removes
    exact Bool.eq_false_of_not_eq_true removes
  · refine .inl (Finset.mem_erase.2 ⟨fun same => ended same.symm, ?_⟩)
    rwa [refusals_storeDelete]

theorem moves_logPut {write : PutWrite Body}
    (found : node.turns.get key = some (.stored write)) : Moves node event (node.store.logPut nowMs write) := by
  refine .of_removed (fun _ => .inl rfl) ?_ fun _ marked => .inl marked
  dsimp only [logPut]
  cases aim : write.opts.peer with
  | none => exact .inl rfl
  | some peer =>
    refine .inr ⟨.put nowMs peer write.callRef (partitionFor write.opts.direction), rfl, ?_⟩
    rintro _ _ _ ⟨⟩
    exact ⟨key, _, found, aim, rfl, rfl⟩

theorem moves_logDelete (found : node.turns.get key = some (.deleted write incarnation)) :
    Moves node event (node.store.logDelete nowMs write incarnation) := by
  refine .of_removed (fun _ => .inl rfl) ?_ fun callRef marked => ?_
  · dsimp only [logDelete]
    cases aim : write.opts.peer with
    | none => exact .inl rfl
    | some peer =>
      refine .inr ⟨.delete nowMs peer write.callRef (partitionFor write.opts.direction) write.answered incarnation,
        rfl, ?_⟩
      rintro _ _ _ ⟨⟩
      exact ⟨key, _, found, aim, rfl, rfl⟩
  · by_cases ended : write.callRef = callRef
    · exact .inr (.inr ⟨key, write, incarnation, found, ended⟩)
    · exact .inl (Finset.mem_erase.2 ⟨fun same => ended same.symm, marked⟩)

theorem moves_leaveUnbacked : Moves node event (node.store.leaveUnbacked callRef) :=
  .of_removed (fun _ => .inl rfl) (.inl rfl) fun _ marked => .inl (Finset.mem_insert_of_mem marked)

theorem moves_dropAbandoned : Moves node event (node.store.dropAbandoned callRef).1 := by
  unfold dropAbandoned
  split
  · split
    · exact .dropBackup node event callRef
    · exact moves_leaveUnbacked
  · exact moves_leaveUnbacked

theorem moves_reap : Moves node event (node.store.reap nowMs).1 := by
  unfold reap
  dsimp only
  generalize expiredSnapshot _ nowMs = expired
  obtain ⟨refusals, changelog⟩ := evictSnapshot_keeps nowMs expired (node.store.upkeep nowMs)
  refine .of_removed (fun callRef => (evictSnapshot_records nowMs callRef expired _).1) ?_ fun callRef marked => ?_
  · rw [changelog]
    exact .inr ⟨.reap nowMs, rfl, nofun⟩
  · rw [refusals]
    exact .inl marked

theorem moves_serves {operation : Changelog.Operation} (silent : operation.writes = none) :
    Moves node event { node.store with changelog := node.store.changelog.step operation } :=
  .of_removed (fun _ => .inl rfl) (.inr ⟨operation, rfl, fun _ _ _ written => nomatch silent.symm.trans written⟩)
    fun _ marked => .inl marked

/-- What a section does, whichever it is. -/
theorem step_moves (stepped : node.step selfOrdinal event = some next) :
    Moves node event next.store ∧ TurnsMove selfOrdinal node next.store event next.turns := by
  have stay {store : ReplicatingCallStore Body} : TurnsMove selfOrdinal node store event node.turns :=
    fun _ _ found => .inl found
  cases event with
  | admits callRef backed =>
    cases stepped
    cases backed with
    | false => exact ⟨moves_leaveUnbacked, stay⟩
    | true =>
      refine ⟨.of_removed (fun _ => .inl rfl) (.inl rfl) fun other marked => ?_, stay⟩
      by_cases same : callRef = other
      · exact .inr (.inl ⟨same, rfl⟩)
      · exact .inl (Finset.mem_erase.2 ⟨fun isSame => same isSame.symm, marked⟩)
  | resolve callRef bak =>
    dsimp only [step] at stepped
    split at stepped
    · cases stepped
      exact ⟨.refl node _, .insert (.flushing bak)⟩
    · cases stepped
  | resolveDelete callRef bak =>
    dsimp only [step] at stepped
    split at stepped
    · cases stepped
      exact ⟨.refl node _, .insert (.deleting bak)⟩
    · cases stepped
  | leave callRef =>
    dsimp only [step] at stepped
    split at stepped
    · cases stepped
      exact ⟨.refl node _, .remove callRef⟩
    · cases stepped
      exact ⟨.refl node _, .remove callRef⟩
    · cases stepped
  | store nowMs callRef flushed =>
    dsimp only [step] at stepped
    split at stepped
    · rename_i role primary opts found
      cases stepped
      refine ⟨moves_storePut found rfl, ?_⟩
      split
      · exact .insert (.stored found rfl rfl rfl)
      · exact .remove callRef
    · cases stepped
  | log nowMs callRef =>
    dsimp only [step] at stepped
    split at stepped
    · rename_i found
      cases stepped
      exact ⟨moves_logPut found, .remove callRef⟩
    · cases stepped
  | delete nowMs callRef indexes answered incarnation =>
    dsimp only [step] at stepped
    split at stepped
    · rename_i role primary opts found
      cases stepped
      refine ⟨moves_storeDelete, ?_⟩
      split
      · exact .remove callRef
      rename_i removes
      have removed := Bool.eq_false_of_not_eq_true removes
      refine .insert (.deleted _ found rfl rfl ?_ ⟨rfl, ?_⟩)
      · rw [(storeDelete_removed removed).1, if_pos rfl]
      · rwa [deletesAnother_eq] at removed
    · cases stepped
  | logDelete nowMs callRef =>
    dsimp only [step] at stepped
    split at stepped
    · rename_i found
      cases stepped
      exact ⟨moves_logDelete found, .remove callRef⟩
    · cases stepped
  | abandon callRef =>
    dsimp only [step] at stepped
    split at stepped
    · rename_i found
      split at stepped
      · rename_i gives
        cases stepped
        exact ⟨moves_dropAbandoned, .insert (.abandoned _ found gives)⟩
      · cases stepped
        exact ⟨.refl node _, .remove callRef⟩
    · cases stepped
  | logAbandoned nowMs callRef =>
    dsimp only [step] at stepped
    split at stepped
    · rename_i backup incarnation found
      cases stepped
      refine ⟨.of_removed (fun _ => .inl rfl) (.inr ⟨.delete nowMs backup callRef .bak false incarnation, rfl, ?_⟩)
        fun _ marked => .inl marked, .remove callRef⟩
      rintro _ _ _ ⟨⟩
      exact ⟨callRef, _, found, rfl, rfl, rfl⟩
    · cases stepped
  | refuse backup callRef incarnation =>
    dsimp only [step] at stepped
    split at stepped
    · cases stepped
      exact ⟨.dropBackup node _ callRef, stay⟩
    · cases stepped
      exact ⟨.refl node _, stay⟩
  | forget backup callRef =>
    dsimp only [step] at stepped
    split at stepped
    · cases stepped
      exact ⟨.of_removed (fun _ => .inl rfl) (.inr ⟨.forget backup .bak callRef, rfl, nofun⟩) fun _ marked =>
        .inl marked, stay⟩
    · cases stepped
  | applied nowMs write =>
    dsimp only [step] at stepped
    split at stepped
    · rename_i isLocal
      cases stepped
      exact ⟨moves_writePut isLocal.1, stay⟩
    · cases stepped
  | appliedDelete nowMs write =>
    dsimp only [step] at stepped
    split at stepped
    · rename_i isLocal
      cases stepped
      exact ⟨moves_writeDelete isLocal, stay⟩
    · cases stepped
  | reap nowMs =>
    cases stepped
    exact ⟨moves_reap, stay⟩
  | serves operation =>
    cases operation with
    | put | delete | forget => cases stepped
    | drain | scan | coldPull | report | bind | serve | unserve | reap =>
      cases stepped
      exact ⟨moves_serves rfl, stay⟩

end Steps

/-! ### What always holds -/

end BackedNode

/-- A turn under way is the call's own, its write aimed where its callRef says; once it deleted the call, no
    backup is recorded. -/
def Turn.Aimed (selfOrdinal callRef : String) (recorded : Option String) : Turn Body → Prop
  | .flushing _ _ opts | .deleting _ _ opts => opts.Aimed selfOrdinal callRef
  | .stored write => write.callRef = callRef ∧ write.opts.Aimed selfOrdinal callRef
  | .deleted write _ => write.callRef = callRef ∧ write.opts.Aimed selfOrdinal callRef ∧ recorded = none
  | .abandoned _ _ => True

theorem Turn.Aimed.key_eq (aimed : turn.Aimed selfOrdinal key recorded)
    (logs : turn.Logs key peer partition callRef) : key = callRef := by
  cases turn with
  | flushing | deleting => cases logs
  | stored | deleted => exact aimed.1.symm.trans logs.2.2
  | abandoned backup incarnation => exact logs.2.2

/-- An own call is never logged on the flow of another's. -/
theorem Turn.Aimed.not_pri
    (aimed : turn.Aimed selfOrdinal callRef recorded) (own : primaryOf selfOrdinal callRef = selfOrdinal) :
    ¬ turn.Logs callRef peer .pri callRef := by
  have forward {opts : PutOpts} (aimed : opts.Aimed selfOrdinal callRef) :
      ReplicatingCallStore.partitionFor opts.direction ≠ .pri := by
    intro isPri
    unfold ReplicatingCallStore.partitionFor at isPri
    split at isPri
    · rename_i isReverse
      exact aimed.reverse isReverse own
    · cases isPri
  intro logs
  cases turn with
  | flushing | deleting => cases logs
  | stored write => exact forward aimed.2 logs.2.1
  | deleted write incarnation => exact forward aimed.2.1 logs.2.1
  | abandoned backup incarnation => cases logs.2.1

namespace BackedNode

open ReplicatingCallStore

/-- What holds of every node that started fresh. -/
structure Sane (selfOrdinal : String) (node : BackedNode Body) : Prop where
  indexed : node.store.changelog.Indexed
  owned : ∀ callRef backup, node.store.recordedBackup callRef = some backup →
    primaryOf selfOrdinal callRef = selfOrdinal
  unsent : ∀ callRef peer, primaryOf selfOrdinal callRef = selfOrdinal →
    node.store.changelog.stateOf peer .pri callRef = none
  turns : ∀ callRef turn, node.turns.get callRef = some turn →
    turn.Aimed selfOrdinal callRef (node.store.recordedBackup callRef)

theorem sane_new {gen : ℕ} {deadPeerTtlMs defaultTtlMs : ℤ} :
    (new gen deadPeerTtlMs defaultTtlMs : BackedNode Body).Sane selfOrdinal where
  indexed := Changelog.new_indexed
  owned _ _ named := nomatch named
  unsent _ _ _ := rfl
  turns _ _ found := nomatch found

/-- A forward flush is one of an own call. -/
theorem own_of_flushed (aimed : opts.Aimed selfOrdinal callRef)
    (flushed : flushedBackup opts = some backup) : primaryOf selfOrdinal callRef = selfOrdinal := by
  unfold flushedBackup at flushed
  split at flushed
  · rename_i isForward
    exact aimed.forward isForward
  · cases flushed

theorem Sane.step {next : BackedNode Body} (sane : node.Sane selfOrdinal)
    (stepped : node.step selfOrdinal event = some next) : next.Sane selfOrdinal := by
  obtain ⟨moves, turns⟩ := step_moves stepped
  have flushing {callRef role primary opts} (found : node.turns.get callRef = some (.flushing role primary opts)) :
      opts.Aimed selfOrdinal callRef := sane.turns callRef _ found
  refine { indexed := moves.log.indexed sane.indexed, owned := ?_, unsent := ?_, turns := ?_ }
  · intro callRef backup named
    obtain old | ⟨role, primary, opts, isFlushing, flushed⟩ := moves.backs callRef backup named
    · exact sane.owned callRef backup old
    · exact own_of_flushed (flushing isFlushing) flushed
  · intro callRef peer own
    refine moves.log.absent sane.indexed (sane.unsent callRef peer own) ?_
    rintro ⟨key, turn, found, logs⟩
    have aimed := sane.turns key turn found
    obtain rfl := aimed.key_eq logs
    exact aimed.not_pri own logs
  · intro callRef turn found
    obtain old | takes := turns callRef turn found
    · have aimed := sane.turns callRef turn old
      -- a backup recorded since is one of a call still flushing
      have unrecorded (none : node.store.recordedBackup callRef = none)
          (settled : ∀ role primary opts, turn ≠ .flushing role primary opts) :
          next.store.recordedBackup callRef = Option.none := by
        cases named : next.store.recordedBackup callRef with
        | none => rfl
        | some backup =>
          obtain was | ⟨role, primary, opts, isFlushing, -⟩ := moves.backs callRef backup named
          · cases none.symm.trans was
          · exact absurd (Option.mem_unique old isFlushing) (settled role primary opts)
      cases turn with
      | flushing | deleting | stored | abandoned => exact aimed
      | deleted write incarnation => exact ⟨aimed.1, aimed.2.1, unrecorded aimed.2.2 fun _ _ _ => nofun⟩
    · cases takes with
      | flushing | deleting => exact storeTarget_aimed ..
      | stored was isRef peer direction =>
        have aimed := flushing was
        exact ⟨isRef, { forward := direction ▸ aimed.forward, reverse := direction ▸ aimed.reverse }⟩
      | deleted incarnation was isRef direction gone ends =>
        have aimed : PutOpts.Aimed selfOrdinal callRef _ := sane.turns callRef _ was
        refine ⟨isRef, { forward := direction ▸ aimed.forward, reverse := direction ▸ aimed.reverse }, ?_⟩
        rw [recordedBackup, gone]
        rfl
      | abandoned => trivial

end BackedNode

/-! ### After a refusal -/

/-- What a turn under way may still do for a call refused by `backup`, before and after its entry is
    dropped. -/
def Turn.Spares (forgotten : Prop) (backup : String) : Turn Body → Prop
  | .flushing _ _ opts => opts.peer ≠ some backup
  | .deleting _ _ _ => True
  | .stored write => forgotten → write.opts.peer ≠ some backup
  | .deleted _ _ => False
  | .abandoned peer _ => forgotten → peer ≠ backup

namespace BackedNode

open ReplicatingCallStore

/-- The call is parted from the backup that refused it; once `forgotten`, its entry toward the backup is gone
    too. -/
structure Parted (selfOrdinal : String) (forgotten : Prop) (backup callRef : String) (node : BackedNode Body) :
    Prop where
  own : primaryOf selfOrdinal callRef = selfOrdinal
  marked : callRef ∈ node.store.refusals.unbacked
  unrecorded : node.store.recordedBackup callRef ≠ some backup
  turn : ∀ turn, node.turns.get callRef = some turn → turn.Spares forgotten backup
  unlogged : forgotten → ∀ partition, node.store.changelog.stateOf backup partition callRef = none

theorem peer_of_flushed (flushed : flushedBackup opts = some backup) : opts.peer = some backup := by
  unfold flushedBackup at flushed
  split at flushed
  · exact flushed
  · cases flushed

theorem peer_of_abandons (gives : abandons opts = some backup) : opts.peer = some backup := by
  unfold abandons at gives
  split at gives
  · exact gives
  · cases gives

theorem Parted.step {next : BackedNode Body} {forgotten : Prop}
    (parted : node.Parted selfOrdinal forgotten backup callRef) (sane : node.Sane selfOrdinal)
    (lives : ¬ node.Ends callRef event) (stepped : node.step selfOrdinal event = some next) :
    next.Parted selfOrdinal forgotten backup callRef := by
  obtain ⟨moves, turns⟩ := step_moves stepped
  refine { own := parted.own, marked := ?_, unrecorded := ?_, turn := ?_, unlogged := ?_ }
  · obtain kept | ends | ⟨key, write, incarnation, found, isRef⟩ := moves.marks callRef parted.marked
    · exact kept
    · exact absurd ends lives
    · have aimed := sane.turns key _ found
      obtain rfl : key = callRef := aimed.1.symm.trans isRef
      exact (parted.turn _ found).elim
  · intro named
    obtain old | ⟨role, primary, opts, found, flushed⟩ := moves.backs callRef backup named
    · exact parted.unrecorded old
    · exact parted.turn _ found (peer_of_flushed flushed)
  · intro turn found
    obtain old | takes := turns callRef turn found
    · exact parted.turn turn old
    cases takes with
    | flushing bak =>
      intro isPeer
      cases (storeTarget_unbacked parted.marked).symm.trans isPeer
    | deleting bak => trivial
    | stored was isRef peer direction =>
      intro _ isPeer
      exact parted.turn _ was (peer.symm.trans isPeer)
    | deleted incarnation was isRef direction gone ends => exact lives ends
    | abandoned incarnation was gives =>
      rintro _ rfl
      exact parted.turn _ was (peer_of_abandons gives)
  · intro forgets partition
    refine moves.log.absent sane.indexed (parted.unlogged forgets partition) ?_
    rintro ⟨key, turn, found, logs⟩
    obtain rfl := (sane.turns key turn found).key_eq logs
    have spares := parted.turn turn found
    cases turn with
    | flushing | deleting => cases logs
    | stored write => exact spares forgets logs.1
    | deleted write incarnation => exact spares
    | abandoned peer incarnation => exact spares forgets logs.1

/-- A refusal is not read while a turn of the call that resolved the backup has its body to store, nor is the
    entry dropped while such a turn has its own to write. -/
def Apart (node : BackedNode Body) : BackedEvent Body → Prop
  | .refuse backup callRef _ =>
    ∀ role primary opts, node.turns.get callRef = some (.flushing role primary opts) → opts.peer ≠ some backup
  | .forget backup callRef =>
    (∀ write, node.turns.get callRef = some (.stored write) → write.opts.peer ≠ some backup) ∧
      ∀ peer incarnation, node.turns.get callRef = some (.abandoned peer incarnation) → peer ≠ backup
  | _ => True

theorem recordedBackup_of_heldWith {store : ReplicatingCallStore Body}
    (held : store.heldWith backup callRef incarnation = true) :
    store.recordedBackup callRef = some backup := by
  obtain ⟨record, found, named⟩ := (Option.any_eq_true _ _).1 held
  rw [recordedBackup, found, Option.bind_some]
  simp only [Bool.and_eq_true, decide_eq_true_eq] at named
  exact named.1.2

/-- The refusal is read. -/
theorem parted_refuse {next : BackedNode Body} (sane : node.Sane selfOrdinal)
    (held : node.store.heldWith backup callRef incarnation = true)
    (apart : node.Apart (.refuse backup callRef incarnation))
    (stepped : node.step selfOrdinal (.refuse backup callRef incarnation) = some next) :
    next.Parted selfOrdinal False backup callRef := by
  have recorded := recordedBackup_of_heldWith held
  have isNext : some _ = some next := (if_pos held).symm.trans stepped
  cases isNext
  refine
    { own := sane.owned callRef backup recorded
      marked := Finset.mem_insert_self ..
      unrecorded := ?_
      turn := fun turn found => ?_
      unlogged := False.elim }
  · rw [recordedBackup_dropBackup, if_pos rfl]
    exact Option.some_ne_none backup ∘ Eq.symm
  · have aimed := sane.turns callRef turn found
    cases turn with
    | flushing role primary opts => exact apart role primary opts found
    | deleting => trivial
    | stored | abandoned => exact False.elim
    | deleted write named => cases recorded.symm.trans aimed.2.2

/-- The entry goes. -/
theorem Parted.forget {next : BackedNode Body} (parted : node.Parted selfOrdinal False backup callRef)
    (sane : node.Sane selfOrdinal) (apart : node.Apart (.forget backup callRef))
    (stepped : node.step selfOrdinal (.forget backup callRef) = some next) :
    next.Parted selfOrdinal True backup callRef := by
  have sane' := sane.step stepped
  have kept := parted.step sane id stepped
  dsimp only [BackedNode.step] at stepped
  split at stepped
  · cases stepped
    refine { own := parted.own, marked := kept.marked, unrecorded := kept.unrecorded, turn := ?_, unlogged := ?_ }
    · intro turn found
      have spares := parted.turn turn found
      cases turn with
      | flushing | deleting | deleted => exact spares
      | stored write => exact fun _ => apart.1 write found
      | abandoned peer incarnation => exact fun _ => apart.2 peer incarnation found
    · intro _ partition
      cases partition with
      | pri => exact sane'.unsent callRef backup parted.own
      | bak => exact Changelog.stateOf_forget ..
  · cases stepped

/-- No entry toward the backup names the call, and no scan for it offers the call. -/
structure Unoffered (backup callRef : String) (node : BackedNode Body) : Prop where
  entries : ∀ partition sub, node.store.changelog.sub backup partition = some sub →
    sub.byRef.get callRef = none ∧ ∀ counter, (counter, callRef) ∉ sub.entries
  scans : ∀ nowMs primary, callRef ∉ node.store.scanRefsBackedBy nowMs primary backup

theorem Parted.unoffered (parted : node.Parted selfOrdinal True backup callRef) (sane : node.Sane selfOrdinal) :
    node.Unoffered backup callRef where
  entries partition sub found := by
    have absent := parted.unlogged trivial partition
    rw [Changelog.stateOf, found, Option.bind_some] at absent
    refine ⟨absent, fun counter member => ?_⟩
    obtain ⟨state, isState, -⟩ := ((sane.indexed backup partition sub found).inverse counter callRef).1 member
    cases absent.symm.trans isState
  scans nowMs primary member := by
    obtain ⟨record, found, backed⟩ := (Option.any_eq_true _ _).1 (List.mem_filter.1 member).2
    unfold backedBy at backed
    simp only [Bool.and_eq_true, decide_eq_true_eq] at backed
    refine parted.unrecorded ?_
    rw [recordedBackup, found, Option.bind_some]
    exact backed.1.2

/-- Once a refusal is processed that no turn's write straddles, no entry toward the backup names the call and
    no scan offers it, whatever the call's turns and the other tasks do until it is deleted. -/
theorem refused_stays_unbacked {gen : ℕ} {deadPeerTtlMs defaultTtlMs : ℤ}
    {before during later : List (BackedEvent Body)}
    {held final : BackedNode Body} {backup callRef : String} {incarnation : Option String}
    (reached : run (step selfOrdinal) (new gen deadPeerTtlMs defaultTtlMs) before = some held)
    (isHeld : held.store.heldWith backup callRef incarnation = true)
    (ran : run (step selfOrdinal) held
      (.refuse backup callRef incarnation :: (during ++ .forget backup callRef :: later)) = some final)
    (apart : AllSteps (step selfOrdinal) (fun node event => node.Apart event ∧ ¬ node.Ends callRef event) held
      (.refuse backup callRef incarnation :: (during ++ .forget backup callRef :: later))) :
    final.Unoffered backup callRef := by
  have sane : held.Sane selfOrdinal :=
    run_invariant (Sane selfOrdinal) (fun _ _ _ sane stepped => sane.step stepped) reached (sane_new ..)
  -- the two invariants along any part of the run in which the call lives
  have goes {forgotten : Prop} {first last : BackedNode Body} {events : List (BackedEvent Body)}
      (start : first.Sane selfOrdinal ∧ first.Parted selfOrdinal forgotten backup callRef)
      (met : AllSteps (step selfOrdinal) (fun node event => node.Apart event ∧ ¬ node.Ends callRef event)
        first events)
      (ran : run (step selfOrdinal) first events = some last) :
      last.Sane selfOrdinal ∧ last.Parted selfOrdinal forgotten backup callRef :=
    run_invariant_of_steps
      (fun node : BackedNode Body => node.Sane selfOrdinal ∧ node.Parted selfOrdinal forgotten backup callRef)
      (fun _ _ _ both met stepped => ⟨both.1.step stepped, both.2.step both.1 met.2 stepped⟩) met ran start
  obtain ⟨refused, refuses, ran⟩ := run_cons.1 ran
  have start := parted_refuse sane isHeld apart.1.1 refuses
  obtain ⟨middle, ranDuring, ran, metDuring, met⟩ := run_split ran (apart.2 refused refuses)
  obtain ⟨saneMiddle, partedMiddle⟩ := goes ⟨sane.step refuses, start⟩ metDuring ranDuring
  obtain ⟨forgotten, forgets, ran⟩ := run_cons.1 ran
  have parted := partedMiddle.forget saneMiddle met.1.1 forgets
  obtain ⟨saneFinal, partedFinal⟩ := goes ⟨saneMiddle.step forgets, parted⟩ (met.2 forgotten forgets) ran
  exact partedFinal.unoffered saneFinal

/-- One write of a call that names its backup: its body is stored and its entry moves. -/
def flushed : List (BackedEvent Unit) := [.store 0 "c" ⟨(), [], 0, 0, 0, "i"⟩, .log 0 "c"]

/-- A turn that resolved its target before the refusal was read writes after it. -/
def straddled : List (BackedEvent Unit) :=
  .resolve "c" (some "b") :: flushed ++ [.resolve "c" (some "b"), .refuse "b" "c" (some "i"),
    .forget "b" "c"] ++ flushed

/-- A write whose target was resolved before a refusal undoes it, and the call's later turns leave it so. -/
theorem straddled_write_offers_again :
    ∃ final, run (step "w") (new 1 0 0) (straddled ++ .resolve "c" (some "b") :: flushed) = some final ∧
      final.store.unbacked "c" = true ∧ final.store.scanRefsBackedBy 0 "w" "b" = ["c"] ∧
      (final.store.changelog.positionOf "b" .bak "c").isSome ∧ ¬ final.Unoffered "b" "c" := by
  refine ⟨_, rfl, rfl, rfl, rfl, fun unoffered => ?_⟩
  exact unoffered.scans 0 "w" (List.mem_singleton.2 rfl)

theorem refused_between_turns_stays_unbacked :
    ∃ held final, run (step "w") (new 1 0 0) (.resolve "c" (some "b") :: flushed) = some held ∧
      run (step "w") held
        (.refuse "b" "c" (some "i") :: ([.resolve "c" (some "b")] ++ .forget "b" "c" :: flushed)) = some final ∧
      held.store.scanRefsBackedBy 0 "w" "b" = ["c"] ∧ final.Unoffered "b" "c" := by
  refine ⟨_, _, rfl, rfl, rfl, ?_⟩
  refine @refused_stays_unbacked Unit "w" 1 0 0 (.resolve "c" (some "b") :: flushed) [.resolve "c" (some "b")] flushed
    _ _ "b" "c" (some "i") rfl rfl rfl ?_
  refine .cons ⟨fun _ _ _ => nofun, id⟩ rfl
    (.cons ⟨trivial, id⟩ rfl (.cons ⟨⟨fun _ => nofun, fun _ _ => nofun⟩, id⟩ rfl
    (.cons ⟨trivial, id⟩ rfl (.cons ⟨trivial, id⟩ rfl trivial))))

/-- At every step of every run of a fresh node: only an own call records a backup, no own call is offered to
    a peer as the peer's, and every turn under way is aimed where its reference says. -/
theorem node_stays_sane {gen : ℕ} {deadPeerTtlMs defaultTtlMs : ℤ} (events : List (BackedEvent Body)) :
    AllSteps (step selfOrdinal) (fun node _ => node.Sane selfOrdinal) (.new gen deadPeerTtlMs defaultTtlMs) events :=
  allSteps_of_invariant (Sane selfOrdinal) (fun _ _ _ sane _ stepped => sane.step stepped) (fun _ _ sane _ => sane)
    (allSteps_of_mem (fun _ _ _ => trivial) _) sane_new

end BackedNode

end SipServer.Store
