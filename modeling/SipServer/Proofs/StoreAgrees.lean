/-
Module: SipServer.Proofs.StoreAgrees
Purpose: The parts of the replicating store agree: a callRef has a record exactly when its body is stored, an
  index key resolves only to a stored call that lists it, and the backup gauge counts the records of that
  role.
-/
import SipServer.Proofs.StoreMoves

namespace SipServer.Store

open SipServer.Lib KeyMap

variable {callRef key : String} {indexes : KeyMap String String} {keys : List String} {record : CallMeta}

/-! ### The index after a body comes or goes -/

namespace InMemoryCallStore

variable {Stored : Type}

theorem get_dropKey {dropped : String} :
    (dropKey callRef indexes dropped).get key =
      if key = dropped ∧ indexes.get key = some callRef then none else indexes.get key := by
  unfold dropKey
  by_cases same : key = dropped
  · subst same
    by_cases owns : indexes.get key = some callRef
    · rw [if_pos owns, if_pos ⟨rfl, owns⟩, get_remove, if_pos rfl]
    have kept : ¬ (key = key ∧ indexes.get key = some callRef) := fun both => owns both.2
    rw [if_neg owns, if_neg kept]
  · have kept : ¬ (key = dropped ∧ indexes.get key = some callRef) := fun both => same both.1
    split
    · rw [get_remove, if_neg same]
    · rfl

/-- A list of keys is dropped: those that resolve to the call go. -/
theorem get_dropKeys :
    (keys.foldl (dropKey callRef) indexes).get key =
      if key ∈ keys ∧ indexes.get key = some callRef then none else indexes.get key := by
  induction keys generalizing indexes with
  | nil => simp
  | cons dropped keys hypothesis =>
    rw [List.foldl_cons, hypothesis, get_dropKey]
    by_cases owns : indexes.get key = some callRef
    · by_cases same : key = dropped <;> simp [owns, same]
    · simp [owns]

theorem get_insertKeys :
    (keys.foldl (fun indexes key => indexes.insert key callRef) indexes).get key =
      if key ∈ keys then some callRef else indexes.get key := by
  induction keys generalizing indexes with
  | nil => simp
  | cons inserted keys hypothesis =>
    rw [List.foldl_cons, hypothesis, get_insert]
    by_cases later : key ∈ keys
    · rw [if_pos later, if_pos (List.mem_cons_of_mem _ later)]
    · by_cases same : key = inserted <;> simp [later, same]

/-- The call owns `keys` now; a key it owned before and does not list any more is gone. -/
theorem get_replaceKeys {old : List String} :
    (replaceKeys callRef indexes old keys).get key =
      if key ∈ keys then some callRef
      else if key ∈ old ∧ indexes.get key = some callRef then none else indexes.get key := by
  unfold replaceKeys
  rw [get_insertKeys, get_dropKeys]
  by_cases listed : key ∈ keys
  · rw [if_pos listed, if_pos listed]
  · simp [listed]

end InMemoryCallStore

namespace ReplicatingCallStore

variable {Body Stored : Type}

/-! ### The invariant -/

/-- The place of a callRef's body. -/
def placeOf (selfOrdinal callRef : String) : BodyKey :=
  ⟨(partitionOf selfOrdinal callRef).1, (partitionOf selfOrdinal callRef).2, callRef⟩

@[simp] theorem placeOf_callRef {selfOrdinal : String} : (placeOf selfOrdinal callRef).callRef = callRef := rfl

/-- How many records are of role `Backup`. -/
def backupRecords (records : KeyMap String CallMeta) : ℕ :=
  records.total fun record => if record.role = .backup then 1 else 0

/-- The bodies, the index, the records and the gauge agree. -/
structure Agrees (selfOrdinal : String) (inner : InMemoryCallStore Stored) (records : KeyMap String CallMeta)
    (backups : ℕ) : Prop where
  record : ∀ callRef record, records.get callRef = some record →
    ⟨record.role, record.primary, callRef⟩ = placeOf selfOrdinal callRef ∧
      (inner.bodies.get (placeOf selfOrdinal callRef)).isSome
  body : ∀ place, (inner.bodies.get place).isSome →
    place = placeOf selfOrdinal place.callRef ∧ (records.get place.callRef).isSome
  index : ∀ key callRef, inner.indexes.get key = some callRef →
    (records.get callRef).isSome ∧ ∃ keys, inner.idxByRef.get callRef = some keys ∧ key ∈ keys
  gauge : backups = backupRecords records

namespace Agrees

variable {selfOrdinal : String} {inner : InMemoryCallStore Stored} {records : KeyMap String CallMeta} {backups : ℕ}

section

variable (agrees : Agrees selfOrdinal inner records backups)

include agrees

/-- The gauge after a record is written. -/
theorem accountRole_insert :
    accountRole backups ((records.get callRef).map (·.role)) (some record.role) =
      backupRecords (records.insert callRef record) := by
  have gauge := agrees.gauge
  unfold backupRecords at gauge ⊢
  rw [total_insert]
  cases found : records.get callRef with
  | none =>
    rw [remove_of_get_eq_none found, ← gauge]
    cases isRole : record.role <;> simp [accountRole, Nat.add_comm]
  | some held =>
    rw [total_remove_of_get_eq_some _ found] at gauge
    rw [gauge]
    cases isRole : record.role <;> cases heldRole : held.role <;> simp [accountRole, heldRole, Nat.add_comm]

/-- The gauge after a record goes. -/
theorem accountRole_remove {gone : CallMeta} (found : records.get callRef = some gone) :
    accountRole backups (some gone.role) none = backupRecords (records.remove callRef) := by
  have gauge := agrees.gauge
  unfold backupRecords at gauge ⊢
  rw [total_remove_of_get_eq_some _ found] at gauge
  rw [gauge]
  cases goneRole : gone.role <;> simp [accountRole]

/-- A callRef's body and record go. -/
theorem removed (callRef : String) (keys : List String)
    {after : ℕ} (gauge : after = backupRecords (records.remove callRef)) :
    Agrees selfOrdinal (inner.removeBody (placeOf selfOrdinal callRef) keys).1 (records.remove callRef) after where
  record other record found := by
    obtain ⟨apart, found⟩ := of_get_remove found
    obtain ⟨place, stored⟩ := agrees.record other record found
    refine ⟨place, ?_⟩
    have elsewhere : placeOf selfOrdinal other ≠ placeOf selfOrdinal callRef :=
      fun same => apart (congrArg BodyKey.callRef same)
    simp only [InMemoryCallStore.removeBody, get_remove, if_neg elsewhere]
    exact stored
  body place stored := by
    obtain ⟨apart, stored⟩ := isSome_of_get_remove stored
    obtain ⟨isPlace, recorded⟩ := agrees.body place stored
    have other : place.callRef ≠ callRef := by
      intro same
      rw [same] at isPlace
      exact apart isPlace
    refine ⟨isPlace, ?_⟩
    rw [get_remove, if_neg other]
    exact recorded
  index key other resolves := by
    simp only [InMemoryCallStore.removeBody, InMemoryCallStore.get_dropKeys] at resolves
    have before : inner.indexes.get key = some other := by grind
    obtain ⟨recorded, owned, listed, member⟩ := agrees.index key other before
    have apart : other ≠ callRef := by
      rintro rfl
      simp [placeOf, listed, member, before] at resolves
    refine ⟨?_, owned, ?_, member⟩
    · rw [get_remove, if_neg apart]
      exact recorded
    · exact (get_remove _ _ _).trans ((if_neg apart).trans listed)
  gauge := gauge

/-- A callRef's body and record are written at its place. -/
theorem stored (body : Stored) (keys : List String)
    {after : ℕ} (placed : ⟨record.role, record.primary, callRef⟩ = placeOf selfOrdinal callRef)
    (gauge : after = backupRecords (records.insert callRef record)) :
    Agrees selfOrdinal (inner.storeBody (placeOf selfOrdinal callRef) body keys) (records.insert callRef record)
      after where
  record other held found := by
    rw [bodies_storeBody, get_insert]
    rcases of_get_insert found with ⟨same, rfl⟩ | ⟨-, found⟩
    · subst same
      exact ⟨placed, by rw [if_pos rfl]; rfl⟩
    obtain ⟨place, isStored⟩ := agrees.record other held found
    refine ⟨place, ?_⟩
    split
    · rfl
    · exact isStored
  body place isStored := by
    rw [bodies_storeBody, get_insert] at isStored
    rw [get_insert]
    split at isStored
    · rename_i same
      rw [same, placeOf_callRef, if_pos rfl]
      exact ⟨rfl, rfl⟩
    obtain ⟨isPlace, recorded⟩ := agrees.body place isStored
    refine ⟨isPlace, ?_⟩
    split
    · rfl
    · exact recorded
  index key other resolves := by
    have recorded : (records.get other).isSome → ((records.insert callRef record).get other).isSome := by
      intro isRecorded
      rw [get_insert]
      split
      · rfl
      · exact isRecorded
    unfold InMemoryCallStore.storeBody at resolves ⊢
    split at resolves
    · rename_i none
      rw [if_pos none]
      obtain ⟨isRecorded, owned⟩ := agrees.index key other resolves
      exact ⟨recorded isRecorded, owned⟩
    rename_i some
    rw [if_neg some]
    rw [InMemoryCallStore.get_replaceKeys] at resolves
    split at resolves
    · rename_i listed
      obtain rfl : callRef = other := Option.some.inj resolves
      refine ⟨?_, keys, ?_, listed⟩
      · rw [get_insert, if_pos rfl]
        rfl
      · exact (get_insert _ _ _ _).trans (if_pos rfl)
    · split at resolves
      · cases resolves
      rename_i kept
      obtain ⟨isRecorded, owned, listed, member⟩ := agrees.index key other resolves
      have apart : other ≠ callRef := by
        rintro rfl
        simp [placeOf, listed, member, resolves] at kept
      refine ⟨recorded isRecorded, owned, ?_, member⟩
      exact (get_insert _ _ _ _).trans ((if_neg apart).trans listed)
  gauge := gauge

end

end Agrees

/-! ### Every operation -/

variable {selfOrdinal : String} {store : ReplicatingCallStore Body}

/-- The store's parts agree. -/
abbrev Consistent (selfOrdinal : String) (store : ReplicatingCallStore Body) : Prop :=
  Agrees selfOrdinal store.inner store.records store.backups

theorem placeOf_eq {role : PartitionRole} {primary : String}
    (placed : (role, primary) = partitionOf selfOrdinal callRef) :
    ⟨role, primary, callRef⟩ = placeOf selfOrdinal callRef := by
  rw [placeOf, ← placed]

section

variable (consistent : store.Consistent selfOrdinal)

include consistent

theorem Consistent.writePut (nowMs : ℤ) {write : PutWrite Body}
    (placed : (write.role, write.primary) = partitionOf selfOrdinal write.callRef) :
    (store.writePut nowMs write).Consistent selfOrdinal := by
  have place := placeOf_eq placed
  have stored : (store.storePut nowMs write).1.Consistent selfOrdinal := by
    apply storePut_rule (Consistent selfOrdinal)
    case buries => exact fun _ _ => consistent
    case vacates =>
      intro gone found
      unfold Consistent vacates
      rw [(consistent.record write.callRef gone found).1]
      exact consistent.removed write.callRef gone.refMeta.indexes (consistent.accountRole_remove found)
    case takes =>
      intro before agrees
      obtain ⟨sameRole, samePrimary⟩ := place_recorded
      unfold Consistent takes
      rw [place]
      apply Agrees.stored agrees
      · rw [sameRole, samePrimary, place]
      · rw [← Agrees.accountRole_insert agrees, sameRole]
  unfold ReplicatingCallStore.writePut
  dsimp only
  split <;> exact stored

theorem Consistent.writeDelete (nowMs : ℤ) {write : DeleteWrite}
    (placed : (write.role, write.primary) = partitionOf selfOrdinal write.callRef) :
    (store.writeDelete nowMs write).Consistent selfOrdinal := by
  have stored : (store.storeDelete nowMs write).Consistent selfOrdinal := by
    unfold storeDelete
    split
    · exact consistent
    unfold Consistent
    rw [placeOf_eq placed]
    apply consistent.removed
    cases found : store.records.get write.callRef with
    | some gone => exact consistent.accountRole_remove found
    | none =>
      rw [remove_of_get_eq_none found]
      exact consistent.gauge
  unfold ReplicatingCallStore.writeDelete
  split <;> exact stored

theorem Consistent.evict (nowMs : ℤ) (callRef : String) :
    (store.evict nowMs callRef).1.Consistent selfOrdinal := by
  unfold ReplicatingCallStore.evict
  split
  · exact consistent
  rename_i gone found
  split
  · unfold Consistent
    rw [(consistent.record callRef gone found).1]
    exact consistent.removed callRef gone.refMeta.indexes (consistent.accountRole_remove found)
  · exact consistent

end

theorem Consistent.evictSnapshot (nowMs : ℤ) (expired : List String)
    (consistent : store.Consistent selfOrdinal) : (store.evictSnapshot nowMs expired).1.Consistent selfOrdinal := by
  induction expired generalizing store with
  | nil => exact consistent
  | cons callRef expired hypothesis => exact hypothesis (consistent.evict nowMs callRef)

/-! ### Whole runs -/

/-- A request, or one eviction of a callRef snapshotted before: writes come between a reap's snapshot and its
    evictions. -/
inductive StoreEvent (Body : Type) where
  | request (served : Request Body)
  | evict (nowMs : ℤ) (callRef : String)
deriving Repr, DecidableEq

def StoreEvent.apply (store : ReplicatingCallStore Body) : StoreEvent Body → ReplicatingCallStore Body
  | .request served => store.step served
  | .evict nowMs callRef => (store.evict nowMs callRef).1

/-- A write names the partition of its callRef. -/
def StoreEvent.Placed (selfOrdinal : String) : StoreEvent Body → Prop
  | .request ⟨_, .put write⟩ => (write.role, write.primary) = partitionOf selfOrdinal write.callRef
  | .request ⟨_, .delete write⟩ => (write.role, write.primary) = partitionOf selfOrdinal write.callRef
  | .request ⟨_, .reap⟩ => True
  | .evict _ _ => True

theorem Consistent.apply (consistent : store.Consistent selfOrdinal) {event : StoreEvent Body}
    (placed : event.Placed selfOrdinal) : (event.apply store).Consistent selfOrdinal := by
  cases event with
  | evict nowMs callRef => exact consistent.evict nowMs callRef
  | request served =>
    obtain ⟨nowMs, operation⟩ := served
    cases operation with
    | put write => exact consistent.writePut nowMs placed
    | delete write => exact consistent.writeDelete nowMs placed
    | reap => exact Consistent.evictSnapshot nowMs _ consistent

theorem Consistent.foldl (events : List (StoreEvent Body))
    (consistent : store.Consistent selfOrdinal) (placed : ∀ event ∈ events, event.Placed selfOrdinal) :
    (events.foldl StoreEvent.apply store).Consistent selfOrdinal := by
  induction events generalizing store with
  | nil => exact consistent
  | cons event events hypothesis =>
    apply hypothesis (consistent.apply (placed event List.mem_cons_self))
    exact fun later member => placed later (List.mem_cons_of_mem _ member)

theorem new_consistent {gen : ℕ} {deadPeerTtlMs defaultTtlMs : ℤ} :
    (new gen deadPeerTtlMs defaultTtlMs : ReplicatingCallStore Body).Consistent selfOrdinal where
  record _ _ found := nomatch found
  body _ stored := nomatch stored
  index _ _ resolves := nomatch resolves
  gauge := rfl

/-- After every run of puts, deletes, evictions and reaps at the partitions of their callRefs: a callRef has
    a record exactly when its body is stored at its place, an index key that resolves to a callRef is one
    that callRef lists and its body is stored, the gauge counts the records of role `Backup`, and a store
    with no body has no index key. -/
theorem store_agrees (selfOrdinal : String) (gen : ℕ) (deadPeerTtlMs defaultTtlMs : ℤ)
    (events : List (StoreEvent Body)) (placed : ∀ event ∈ events, event.Placed selfOrdinal) :
    let store := events.foldl StoreEvent.apply (new gen deadPeerTtlMs defaultTtlMs)
    (∀ callRef, (store.records.get callRef).isSome ↔
        (store.inner.bodies.get (placeOf selfOrdinal callRef)).isSome) ∧
      (∀ key callRef, store.inner.indexes.get key = some callRef →
        (∃ keys, store.inner.idxByRef.get callRef = some keys ∧ key ∈ keys) ∧
          (store.inner.bodies.get (placeOf selfOrdinal callRef)).isSome) ∧
      store.backups = backupRecords store.records ∧
      ((∀ place, store.inner.bodies.get place = none) → ∀ key, store.inner.indexes.get key = none) := by
  intro store
  have consistent : store.Consistent selfOrdinal := Consistent.foldl events new_consistent placed
  have stored : ∀ callRef, (store.records.get callRef).isSome →
      (store.inner.bodies.get (placeOf selfOrdinal callRef)).isSome := by
    intro callRef isRecorded
    obtain ⟨record, found⟩ := Option.isSome_iff_exists.1 isRecorded
    exact (consistent.record callRef record found).2
  refine ⟨fun callRef => ⟨stored callRef, fun isStored => (consistent.body _ isStored).2⟩, ?_, consistent.gauge, ?_⟩
  · intro key callRef resolves
    obtain ⟨isRecorded, owned⟩ := consistent.index key callRef resolves
    exact ⟨owned, stored callRef isRecorded⟩
  intro bare key
  cases resolves : store.inner.indexes.get key with
  | none => rfl
  | some callRef =>
    have isStored := stored callRef (consistent.index key callRef resolves).1
    rw [bare] at isStored
    cases isStored

/-- A peer's call is stored with an index key, written again with another one, and its delete names no
    key. -/
def backupComesAndGoes : List (StoreEvent Unit) :=
  let opts : PutOpts := ⟨none, none, none, none⟩
  [.request ⟨0, .put ⟨.backup, "w1", "w1|c|t", (), ["a:c"], 60000, 1, 0, opts⟩⟩,
    .request ⟨1, .put ⟨.backup, "w1", "w1|c|t", (), ["b:c"], 60000, 2, 0, opts⟩⟩,
    .request ⟨2, .delete ⟨.backup, "w1", "w1|c|t", [], false, opts⟩⟩]

/-- No body is left, and no index key. -/
theorem store_agrees_after_delete :
    let indexes := (backupComesAndGoes.foldl StoreEvent.apply (new 1 0 0)).inner.indexes
    indexes.get "a:c" = none ∧ indexes.get "b:c" = none := by
  have agrees := store_agrees "w0" 1 0 0 backupComesAndGoes (by
    intro event member
    simp only [backupComesAndGoes, List.mem_cons, List.not_mem_nil, or_false] at member
    rcases member with rfl | rfl | rfl <;> rfl)
  have bare : (backupComesAndGoes.foldl StoreEvent.apply (new 1 0 0)).inner.bodies = ∅ := rfl
  constructor
  all_goals
    apply agrees.2.2.2
    intro place
    rfl

end ReplicatingCallStore

end SipServer.Store
