/-
Module: SipServer.Proofs.StoreMoves
Purpose: Everything one operation of the replicating store can do to the record and the tombstones of one
  callRef.
-/
import SipServer.Store.Replicating

namespace SipServer.Store

open SipServer.Lib ResurrectionTombstones

variable {nowMs : ℤ} {callRef : String} {incarnation : Option String} {tombstones : ResurrectionTombstones}
variable {expiryAtMs : Option ℤ} {refMeta : RefMeta} {burial : Burial} {write : DeleteWrite} {atMs laterMs : ℤ}
  {stones : List Tombstone} {tombstone : Tombstone}

/-! ### Tombstones -/

/-- The tombstones of a callRef once `incarnation` is buried there. -/
def stamp (stones : List Tombstone) (incarnation : Option String) (burial : Burial) (atMs : ℤ) : List Tombstone :=
  stones.filter (fun tombstone => decide (tombstone.incarnation ≠ incarnation)) ++ [⟨atMs, incarnation, burial⟩]

/-- No live tombstone buries a put of `incarnation`. -/
def Unburied (stones : List Tombstone) (incarnation : Option String) (nowMs : ℤ) : Prop :=
  ∀ tombstone ∈ stones, tombstone.live nowMs = true → incarnation ≠ none ∧ tombstone.incarnation ≠ incarnation

theorem mem_stamp :
    tombstone ∈ stamp stones incarnation burial atMs ↔
      tombstone ∈ stones ∧ tombstone.incarnation ≠ incarnation ∨ tombstone = ⟨atMs, incarnation, burial⟩ := by
  simp [stamp]

theorem Tombstone.live_mono (le : nowMs ≤ laterMs)
    (live : tombstone.live laterMs = true) : tombstone.live nowMs = true := by
  unfold Tombstone.live at *
  rw [decide_eq_true_eq] at *
  omega

/-- What is not buried now is not buried later. -/
theorem Unburied.mono (clear : Unburied stones incarnation nowMs)
    (le : nowMs ≤ laterMs) : Unburied stones incarnation laterMs :=
  fun tombstone member live => clear tombstone member (Tombstone.live_mono le live)

/-- Burying another call leaves a named call unburied. -/
theorem Unburied.stamp {incarnation : String} {other : Option String}
    (clear : Unburied stones (some incarnation) nowMs) (apart : other ≠ some incarnation) :
    Unburied (stamp stones other burial atMs) (some incarnation) nowMs := by
  intro tombstone member live
  rcases mem_stamp.mp member with ⟨earlier, -⟩ | rfl
  · exact clear tombstone earlier live
  · exact ⟨Option.some_ne_none _, apart⟩

namespace ResurrectionTombstones

/-- A burial changes one callRef's tombstones. -/
theorem on_bury {other : String} :
    (tombstones.bury callRef incarnation burial atMs).on other =
      if other = callRef then stamp (tombstones.on other) incarnation burial atMs else tombstones.on other := by
  unfold bury on
  rw [KeyMap.get_insert]
  split
  · rename_i same
    rw [same]
    rfl
  · rfl

theorem on_prune :
    (tombstones.prune nowMs).on callRef = (tombstones.on callRef).filter fun tombstone => tombstone.live nowMs := by
  unfold prune on
  rw [KeyMap.get_filterMap]
  cases tombstones.get callRef with
  | none => rfl
  | some buried =>
    rw [Option.bind_some]
    dsimp only [Option.getD_some]
    split
    · rename_i empty
      rw [empty]
      rfl
    · rfl

/-- A put is taken as buried unless every live tombstone names another call. -/
theorem burial_eq_none_iff :
    tombstones.burial callRef incarnation nowMs = none ↔ Unburied (tombstones.on callRef) incarnation nowMs := by
  unfold burial Unburied
  dsimp only
  constructor
  · intro clear tombstone member live
    split at clear
    · cases clear
    rw [Option.map_eq_none_iff, List.head?_eq_none_iff, List.filter_eq_nil_iff] at clear
    have apart := clear tombstone member
    rw [live, Bool.true_and, Bool.or_eq_true, decide_eq_true_eq, Option.isNone_iff_eq_none, not_or] at apart
    exact apart
  · intro clear
    have empty : ((tombstones.on callRef).filter fun tombstone =>
        tombstone.live nowMs && (incarnation.isNone || decide (tombstone.incarnation = incarnation))) = [] := by
      rw [List.filter_eq_nil_iff]
      intro tombstone member buries
      rw [Bool.and_eq_true, Bool.or_eq_true, decide_eq_true_eq, Option.isNone_iff_eq_none] at buries
      have apart := clear tombstone member buries.1
      rcases buries.2 with unnamed | same
      · exact apart.1 unnamed
      · exact apart.2 same
    rw [empty]
    rfl

/-- A put that is taken as one of a replaced call names one under a live tombstone, or names none. -/
theorem live_of_burial {incarnation : String}
    (buried : tombstones.burial callRef (some incarnation) nowMs = some burial) :
    ∃ tombstone ∈ tombstones.on callRef, tombstone.live nowMs = true ∧ tombstone.incarnation = some incarnation := by
  by_contra none
  have clear : tombstones.burial callRef (some incarnation) nowMs = Option.none := by
    rw [burial_eq_none_iff]
    intro tombstone member live
    refine ⟨Option.some_ne_none _, ?_⟩
    intro same
    exact none ⟨tombstone, member, live, same⟩
  cases clear.symm.trans buried

end ResurrectionTombstones

/-! ### What one operation does to one callRef -/

namespace ReplicatingCallStore

variable {Body : Type} {store : ReplicatingCallStore Body}

/-- Whether a callRef has a record, and the incarnation it names. -/
def held (store : ReplicatingCallStore Body) (callRef : String) : Option (Option String) :=
  (store.records.get callRef).map fun record => record.refMeta.incarnation

/-- Everything an operation at `nowMs` can do to a callRef's record and tombstones. -/
inductive Moves (nowMs : ℤ) (held : Option (Option String)) (stones : List Tombstone) :
    Option (Option String) → List Tombstone → Prop
  | keep : Moves nowMs held stones held stones
  /-- A write of a replaced call keeps it buried. -/
  | restamp {incarnation : String} {burial : Burial} {tombstone : Tombstone} (member : tombstone ∈ stones)
      (live : tombstone.live nowMs = true) (named : tombstone.incarnation = some incarnation) :
      Moves nowMs held stones held (stamp stones (some incarnation) burial nowMs)
  /-- An acting backup's write or a delete of another call than the held one buries that call. -/
  | buryOther {other incarnation : String} (burial : Burial) (isHeld : held = some (some other))
      (apart : other ≠ incarnation) :
      Moves nowMs held stones held (stamp stones (some incarnation) burial nowMs)
  | take {incarnation : Option String} (clear : Unburied stones incarnation nowMs) :
      Moves nowMs held stones (some incarnation) stones
  /-- A write of another call replaces the held one. -/
  | replace {other incarnation : String} (isHeld : held = some (some other)) (apart : other ≠ incarnation)
      (clear : Unburied stones (some incarnation) nowMs) :
      Moves nowMs held stones (some (some incarnation)) (stamp stones (some other) .replaced nowMs)
  | remove (incarnation : Option String) :
      Moves nowMs held stones none (stamp stones incarnation .deleted nowMs)
  | prune {next : Option (Option String)} (kept : next = held ∨ next = none) :
      Moves nowMs held stones next (stones.filter fun tombstone => tombstone.live nowMs)

/-- Two calls are told apart only by the names both have. -/
theorem isAnotherCall_iff {held incoming : Option String} :
    isAnotherCall held incoming = true ↔ ∃ first second, held = some first ∧ incoming = some second ∧
      first ≠ second := by
  cases held <;> cases incoming <;> simp [isAnotherCall]

theorem heldIncarnation_eq_some {incarnation : String} :
    store.heldIncarnation callRef = some incarnation ↔ store.held callRef = some (some incarnation) := by
  unfold heldIncarnation held
  cases store.records.get callRef <;> simp

/-- The incarnation a put is of: the one it names, or the one it finds. -/
def namedBy (store : ReplicatingCallStore Body) (write : PutWrite Body) : Option String :=
  write.opts.incarnation.or (store.heldIncarnation write.callRef)

/-- The bodies kept aside once a backup keeps `body` of a call for the reap. -/
def asideOf (store : ReplicatingCallStore Body) (kept : Prop) [Decidable kept] (incarnation : Option String)
    (body : Option Body) : KeyMap String Body :=
  match incarnation, body with
  | some incarnation, some body => if kept then store.displaced.insert incarnation body else store.displaced
  | _, _ => store.displaced

/-- The store once a put it does not take buries its call. -/
def buries (store : ReplicatingCallStore Body) (nowMs : ℤ) (write : PutWrite Body) (named : String) :
    ReplicatingCallStore Body :=
  { store with
    tombstones := store.tombstones.bury write.callRef (some named) .replaced nowMs
    displaced := store.asideOf (write.role = .backup) (some named) (some write.body) }

/-- The store once the call `gone` makes way for another; a body a backup authored is kept aside. -/
def vacates (store : ReplicatingCallStore Body) (nowMs : ℤ) (callRef : String) (gone : CallMeta) :
    ReplicatingCallStore Body :=
  { store with
    inner := (store.inner.removeBody ⟨gone.role, gone.primary, callRef⟩ gone.refMeta.indexes).1
    records := store.records.remove callRef
    backups := accountRole store.backups (some gone.role) none
    tombstones := store.tombstones.bury callRef gone.refMeta.incarnation .replaced nowMs
    displaced := store.asideOf (gone.role = .backup ∧ 0 < gone.refMeta.callBgen) gone.refMeta.incarnation
      ((store.inner.bodies.get ⟨gone.role, gone.primary, callRef⟩).map (·.body)) }

/-- The store once it takes a put of `incarnation`. -/
def takes (store : ReplicatingCallStore Body) (nowMs : ℤ) (write : PutWrite Body) (incarnation : Option String) :
    ReplicatingCallStore Body :=
  { store with
    inner := store.inner.storeBody ⟨write.role, write.primary, write.callRef⟩ ⟨write.body, incarnation⟩ write.indexes
    records := store.records.insert write.callRef
      (recorded (store.records.get write.callRef) write
        ⟨write.callGen, write.callBgen, write.ttlMs, write.indexes, incarnation,
          write.opts.originNowMs.map fun origin => nowMs - origin⟩ (store.expiryFor nowMs write.ttlMs))
    backups := accountRole store.backups ((store.records.get write.callRef).map (·.role)) (some write.role) }

theorem displace_eq {gone : CallMeta} :
    store.displace callRef gone nowMs = store.vacates nowMs callRef gone := by
  unfold displace vacates asideOf keepForReap
  dsimp only [InMemoryCallStore.removeBody]
  cases store.inner.bodies.get ⟨gone.role, gone.primary, callRef⟩ <;> cases gone.refMeta.incarnation <;>
    cases gone.role <;> by_cases authored : 0 < gone.refMeta.callBgen <;> simp [authored]

theorem buryReplaced_eq {write : PutWrite Body} {named : String} :
    store.buryReplaced write.callRef (some named) write.body write.role nowMs = store.buries nowMs write named := by
  unfold buryReplaced buries asideOf keepForReap
  cases write.role <;> rfl

/-- How a put is met, and the store it leaves. -/
inductive Stores (store : ReplicatingCallStore Body) (nowMs : ℤ) (write : PutWrite Body) :
    ReplicatingCallStore Body × Bool → Prop
  | ignored : Stores store nowMs write (store, false)
  /-- The call is under a live tombstone, or an acting backup writes another call than the held one. -/
  | buries {named : String} (isNamed : store.namedBy write = some named)
      (why : (∃ tombstone ∈ store.tombstones.on write.callRef, tombstone.live nowMs = true ∧
          tombstone.incarnation = some named) ∨
        ∃ other, store.held write.callRef = some (some other) ∧ other ≠ named) :
      Stores store nowMs write (store.buries nowMs write named, false)
  | takes (clear : Unburied (store.tombstones.on write.callRef) (store.namedBy write) nowMs)
      (same : isAnotherCall (store.heldIncarnation write.callRef) (store.namedBy write) = false) :
      Stores store nowMs write (store.takes nowMs write (store.namedBy write), true)
  | replaces {named other : String} {gone : CallMeta} (isNamed : store.namedBy write = some named)
      (found : store.records.get write.callRef = some gone) (isHeld : gone.refMeta.incarnation = some other)
      (apart : other ≠ named) (clear : Unburied (store.tombstones.on write.callRef) (store.namedBy write) nowMs) :
      Stores store nowMs write
        ((store.vacates nowMs write.callRef gone).takes nowMs write (store.namedBy write), true)

/-- A put ignores, buries, takes or replaces. -/
theorem storePut_stores (store : ReplicatingCallStore Body) (nowMs : ℤ) (write : PutWrite Body) :
    Stores store nowMs write (store.storePut nowMs write) := by
  have shape : store.storePut nowMs write =
      (let admitted := store.admits write.callRef
        (store.namedBy write) write.body write.role write.opts.direction nowMs
      if admitted.2 then (admitted.1.takes nowMs write (store.namedBy write), true) else (admitted.1, false)) := rfl
  rw [shape]
  unfold admits
  split
  · exact .ignored
  · rename_i buried
    split
    · rename_i named isNamed
      rw [isNamed] at buried
      rw [isNamed, buryReplaced_eq]
      exact .buries isNamed (.inl (live_of_burial buried))
    · exact .ignored
  · rename_i none
    have clear := burial_eq_none_iff.mp none
    split
    · rename_i another
      obtain ⟨other, named, isHeld, isNamed, apart⟩ := isAnotherCall_iff.mp another
      rw [heldIncarnation_eq_some] at isHeld
      obtain ⟨gone, found, heldOther⟩ := Option.map_eq_some_iff.mp isHeld
      split
      · rw [isNamed, buryReplaced_eq]
        exact .buries isNamed (.inr ⟨other, isHeld, apart⟩)
      rw [found]
      dsimp only
      rw [displace_eq, if_pos rfl]
      exact .replaces isNamed found heldOther apart clear
    · rename_i same
      exact .takes clear (Bool.eq_false_of_not_eq_true same)

/-- A put keeps what neither tombstones nor bodies kept aside matter to, a call that makes way leaves, and
    taking a put leaves. -/
theorem storePut_rule (property : ReplicatingCallStore Body → Prop) {write : PutWrite Body}
    (buries : ∀ tombstones displaced, property { store with tombstones, displaced })
    (vacates : ∀ gone, store.records.get write.callRef = some gone →
      property (store.vacates nowMs write.callRef gone))
    (takes : ∀ before : ReplicatingCallStore Body, property before →
      property (before.takes nowMs write (store.namedBy write))) : property (store.storePut nowMs write).1 := by
  have stores := storePut_stores store nowMs write
  generalize store.storePut nowMs write = result at stores ⊢
  cases stores with
  | ignored => exact buries store.tombstones store.displaced
  | buries => exact buries _ _
  | takes => exact takes store (buries store.tombstones store.displaced)
  | replaces _ found => exact takes _ (vacates _ found)

theorem refMeta_recorded {held : Option CallMeta}
    {write : PutWrite Body} : (recorded held write refMeta expiryAtMs).refMeta = refMeta := by
  cases held <;> rfl

theorem place_recorded {held : Option CallMeta} {write : PutWrite Body} :
    (recorded held write refMeta expiryAtMs).role = write.role ∧
      (recorded held write refMeta expiryAtMs).primary = write.primary := by
  cases held <;> exact ⟨rfl, rfl⟩

theorem bodies_storeBody {Stored : Type} {inner : InMemoryCallStore Stored} {place : BodyKey} {body : Stored}
    {keys : List String} : (inner.storeBody place body keys).bodies = inner.bodies.insert place body := by
  unfold InMemoryCallStore.storeBody
  split <;> rfl

theorem held_takes {write : PutWrite Body} :
    (store.takes nowMs write incarnation).held callRef =
      if callRef = write.callRef then some incarnation else store.held callRef := by
  unfold held takes
  rw [KeyMap.get_insert]
  split
  · rw [Option.map_some, refMeta_recorded]
  · rfl

/-- A put moves every callRef as listed. -/
theorem storePut_moves (store : ReplicatingCallStore Body) (nowMs : ℤ) (write : PutWrite Body) (callRef : String) :
    Moves nowMs (store.held callRef) (store.tombstones.on callRef)
      ((store.storePut nowMs write).1.held callRef) ((store.storePut nowMs write).1.tombstones.on callRef) := by
  have stores := storePut_stores store nowMs write
  generalize store.storePut nowMs write = result at stores ⊢
  cases stores with
  | ignored => exact .keep
  | buries isNamed why =>
    unfold buries
    rw [on_bury]
    split
    · rename_i written
      rcases why with ⟨tombstone, member, live, same⟩ | ⟨other, isHeld, apart⟩
      · exact .restamp (written ▸ member) live same
      · exact .buryOther .replaced (written ▸ isHeld) apart
    · exact .keep
  | takes clear =>
    rw [held_takes]
    split
    · rename_i written
      exact .take (written ▸ clear)
    · exact .keep
  | replaces isNamed found isHeld apart clear =>
    rw [held_takes]
    unfold takes vacates
    rw [on_bury]
    split
    · rename_i written
      subst written
      rw [isNamed] at clear ⊢
      rw [isHeld, held, found, Option.map_some, isHeld]
      exact .replace rfl apart clear
    · rename_i other
      unfold held
      rw [KeyMap.get_remove, if_neg other]
      exact .keep

theorem writePut_moves {write : PutWrite Body} :
    Moves nowMs (store.held callRef) (store.tombstones.on callRef)
      ((store.writePut nowMs write).held callRef) ((store.writePut nowMs write).tombstones.on callRef) := by
  have stored := storePut_moves store nowMs write callRef
  unfold writePut
  dsimp only
  split
  · exact stored
  · exact stored

theorem storeDelete_moves (store : ReplicatingCallStore Body) (nowMs : ℤ) (write : DeleteWrite) (callRef : String) :
    Moves nowMs (store.held callRef) (store.tombstones.on callRef)
      ((store.storeDelete nowMs write).held callRef) ((store.storeDelete nowMs write).tombstones.on callRef) := by
  unfold storeDelete
  split
  · rename_i another
    unfold deletesAnother at another
    rw [Bool.and_eq_true, isAnotherCall_iff] at another
    obtain ⟨-, other, named, isHeld, isNamed, apart⟩ := another
    rw [heldIncarnation_eq_some] at isHeld
    rw [on_bury, isNamed]
    split
    · rename_i written
      exact .buryOther .deleted (written ▸ isHeld) apart
    · exact .keep
  · unfold held
    rw [on_bury, KeyMap.get_remove]
    split
    · exact .remove _
    · exact .keep

theorem writeDelete_moves :
    Moves nowMs (store.held callRef) (store.tombstones.on callRef)
      ((store.writeDelete nowMs write).held callRef) ((store.writeDelete nowMs write).tombstones.on callRef) := by
  have stored := storeDelete_moves store nowMs write callRef
  unfold writeDelete
  split
  · exact stored
  · exact stored

/-! ### What a write stores -/

/-- A put that is not taken changes neither records nor bodies, and no put changes the changelog before it is
    logged. -/
theorem storePut_refused {write : PutWrite Body} (refused : (store.storePut nowMs write).2 = false) :
    (store.storePut nowMs write).1.records = store.records ∧ (store.storePut nowMs write).1.inner = store.inner ∧
      (store.storePut nowMs write).1.changelog = store.changelog := by
  have stores := storePut_stores store nowMs write
  generalize store.storePut nowMs write = result at stores refused ⊢
  cases stores with
  | ignored | buries => exact ⟨rfl, rfl, rfl⟩
  | takes | replaces => cases refused

/-- What a put leaves that is taken: a record at its place, naming the backup it was flushed to, its body,
    and everything of the other callRefs. -/
structure Took (store next : ReplicatingCallStore Body) (nowMs : ℤ) (write : PutWrite Body) : Prop where
  record : ∃ record, next.records.get write.callRef = some record ∧ record.role = write.role ∧
    record.primary = write.primary ∧ record.expiryAtMs = store.expiryFor nowMs write.ttlMs ∧
      ∀ backup, flushedBackup write.opts = some backup → record.backup = some backup
  body : ∃ stored, next.inner.bodies.get ⟨write.role, write.primary, write.callRef⟩ = some stored ∧
    stored.body = write.body
  records : ∀ callRef, callRef ≠ write.callRef → next.records.get callRef = store.records.get callRef
  bodies : ∀ key : BodyKey, key.callRef ≠ write.callRef → next.inner.bodies.get key = store.inner.bodies.get key
  changelog : next.changelog = store.changelog

theorem backup_recorded {held : Option CallMeta} {write : PutWrite Body} {backup : String}
    (flushed : flushedBackup write.opts = some backup) :
    (recorded held write refMeta expiryAtMs).backup = some backup := by
  cases held with
  | none => exact flushed
  | some record => simp [recorded, flushed]

theorem expiryAtMs_recorded {held : Option CallMeta}
    {write : PutWrite Body} : (recorded held write refMeta expiryAtMs).expiryAtMs = expiryAtMs := by
  cases held <;> rfl

theorem took_takes {before : ReplicatingCallStore Body} {write : PutWrite Body}
    (ttl : before.defaultTtlMs = store.defaultTtlMs)
    (records : ∀ callRef, callRef ≠ write.callRef → before.records.get callRef = store.records.get callRef)
    (bodies : ∀ key : BodyKey, key.callRef ≠ write.callRef → before.inner.bodies.get key = store.inner.bodies.get key)
    (changelog : before.changelog = store.changelog) :
    Took store (before.takes nowMs write incarnation) nowMs write where
  record := by
    have expiry : before.expiryFor nowMs write.ttlMs = store.expiryFor nowMs write.ttlMs := by
      rw [expiryFor, expiryFor, ttl]
    refine ⟨_, (KeyMap.get_insert _ _ _ _).trans (if_pos rfl), ?_⟩
    obtain ⟨role, primary⟩ := place_recorded
    exact ⟨role, primary, (expiryAtMs_recorded).trans expiry, fun backup => backup_recorded⟩
  body := by
    refine ⟨⟨write.body, incarnation⟩, ?_, rfl⟩
    unfold takes
    rw [bodies_storeBody, KeyMap.get_insert, if_pos rfl]
  records callRef other := ((KeyMap.get_insert _ _ _ _).trans (if_neg other)).trans (records callRef other)
  bodies key other := by
    unfold takes
    rw [bodies_storeBody, KeyMap.get_insert, if_neg fun same => other (congrArg BodyKey.callRef same)]
    exact bodies key other
  changelog := changelog

/-- A put that was taken wrote its own callRef only. -/
theorem storePut_took {write : PutWrite Body} (taken : (store.storePut nowMs write).2 = true) :
    Took store (store.storePut nowMs write).1 nowMs write := by
  have stores := storePut_stores store nowMs write
  generalize store.storePut nowMs write = result at stores taken ⊢
  cases stores with
  | ignored | buries => cases taken
  | takes => exact took_takes rfl (fun _ _ => rfl) (fun _ _ => rfl) rfl
  | replaces =>
    refine took_takes rfl (fun callRef other => ?_) (fun key other => ?_) rfl
    · exact (KeyMap.get_remove _ _ _).trans (if_neg other)
    · exact (KeyMap.get_remove _ _ _).trans (if_neg fun same => other (congrArg BodyKey.callRef same))

/-- A delete of the held call leaves no record of its callRef and everything of the others. -/
theorem storeDelete_removed (removes : store.deletesAnother write = false) :
    (∀ callRef, (store.storeDelete nowMs write).records.get callRef =
        if callRef = write.callRef then none else store.records.get callRef) ∧
      ∀ key : BodyKey, key.callRef ≠ write.callRef →
        (store.storeDelete nowMs write).inner.bodies.get key = store.inner.bodies.get key := by
  unfold storeDelete
  rw [removes, if_neg Bool.false_ne_true]
  constructor
  · exact fun callRef => KeyMap.get_remove _ _ _
  · intro key other
    exact (KeyMap.get_remove _ _ _).trans (if_neg fun same => other (congrArg BodyKey.callRef same))

theorem storeDelete_another (another : store.deletesAnother write = true) :
    (store.storeDelete nowMs write).records = store.records ∧
      (store.storeDelete nowMs write).inner = store.inner := by
  unfold storeDelete
  rw [another, if_pos rfl]
  exact ⟨rfl, rfl⟩

theorem changelog_storeDelete : (store.storeDelete nowMs write).changelog = store.changelog := by
  unfold storeDelete
  split <;> rfl

/-! ### Eviction -/

/-- Eviction changes nothing about a callRef, or takes its record. -/
theorem evict_records (store : ReplicatingCallStore Body) (nowMs : ℤ) (evicted callRef : String) :
    ((store.evict nowMs evicted).1.records.get callRef = store.records.get callRef ∨
        (store.evict nowMs evicted).1.records.get callRef = none) ∧
      (store.evict nowMs evicted).1.tombstones = store.tombstones := by
  unfold evict
  split
  · exact ⟨.inl rfl, rfl⟩
  split
  · refine ⟨?_, rfl⟩
    rw [KeyMap.get_remove]
    split
    · exact .inr rfl
    · exact .inl rfl
  · exact ⟨.inl rfl, rfl⟩

/-- Evictions remove records and bury nothing. -/
theorem evictSnapshot_records (nowMs : ℤ) (callRef : String) (expired : List String)
    (store : ReplicatingCallStore Body) :
    ((store.evictSnapshot nowMs expired).1.records.get callRef = store.records.get callRef ∨
        (store.evictSnapshot nowMs expired).1.records.get callRef = none) ∧
      (store.evictSnapshot nowMs expired).1.tombstones = store.tombstones := by
  induction expired generalizing store with
  | nil => exact ⟨.inl rfl, rfl⟩
  | cons evicted expired hypothesis =>
    obtain ⟨one, oneStones⟩ := evict_records store nowMs evicted callRef
    obtain ⟨rest, restStones⟩ := hypothesis (store.evict nowMs evicted).1
    refine ⟨?_, restStones.trans oneStones⟩
    rcases rest with same | gone
    · exact one.imp same.trans same.trans
    · exact .inr gone

/-- A reap moves every callRef as listed. -/
theorem reap_moves :
    Moves nowMs (store.held callRef) (store.tombstones.on callRef)
      ((store.reap nowMs).1.held callRef) ((store.reap nowMs).1.tombstones.on callRef) := by
  unfold reap
  dsimp only
  generalize expiredSnapshot _ nowMs = expired
  obtain ⟨records, stones⟩ := evictSnapshot_records nowMs callRef expired (store.upkeep nowMs)
  have pruned : (store.upkeep nowMs).tombstones = store.tombstones.prune nowMs := rfl
  rw [stones, pruned, on_prune]
  apply Moves.prune
  unfold held
  rcases records with same | gone
  · exact .inl (congrArg _ same)
  · exact .inr (by rw [gone]; rfl)

/-- Every operation moves every callRef in one of the ways `Moves` lists. -/
theorem step_moves (store : ReplicatingCallStore Body) (request : Request Body) (callRef : String) :
    Moves request.nowMs (store.held callRef) (store.tombstones.on callRef)
      ((store.step request).held callRef) ((store.step request).tombstones.on callRef) := by
  obtain ⟨nowMs, operation⟩ := request
  cases operation with
  | put write => exact writePut_moves
  | delete write => exact writeDelete_moves
  | reap => exact reap_moves

end ReplicatingCallStore

end SipServer.Store
