/-
Module: SipServer.Proofs.Handover
Purpose: The replicated store keeps custody of what its backups authored: every operation of a run moves the
  numbered bodies as `PutStep` allows or hands them back, so a backup's body leaves the store only by its
  call's own writes or once to the reap.
-/
import SipServer.Proofs.Custody
import SipServer.Proofs.Resurrection
import SipServer.Store.Handover
import SipServer.Lib.Runs

namespace SipServer.Store

open SipServer.Lib
open Function (update)

variable {Body : Type}

namespace ReplicatingCallStore

variable {store : ReplicatingCallStore (NumberedBody Body)} {callRef incarnation : String} {held : Holding}

/-- The body at each place. -/
def items (store : ReplicatingCallStore (NumberedBody Body)) : Items
  | .stored callRef =>
    (store.records.get callRef).bind fun record =>
      record.refMeta.incarnation.bind fun incarnation =>
        (store.inner.bodies.get ⟨record.role, record.primary, callRef⟩).map fun stored =>
          ⟨incarnation, stored.body.number, decide (record.role = .backup ∧ 0 < record.refMeta.callBgen)⟩
  | .aside incarnation => (store.displaced.get incarnation).map fun body => ⟨incarnation, body.number, true⟩

/-- Every record names a call and has its body. -/
def Whole (store : ReplicatingCallStore (NumberedBody Body)) : Prop :=
  ∀ callRef, (store.records.get callRef).isSome → (store.items (.stored callRef)).isSome

/-- What is stored on a callRef has a record, a name and a body. -/
theorem items_stored (found : store.items (.stored callRef) = some held) :
    ∃ record stored, store.records.get callRef = some record ∧ record.refMeta.incarnation = some held.incarnation ∧
      store.inner.bodies.get ⟨record.role, record.primary, callRef⟩ = some stored ∧
      stored.body.number = held.number ∧
        held.owed = decide (record.role = .backup ∧ 0 < record.refMeta.callBgen) := by
  obtain ⟨record, isRecord, named⟩ := Option.bind_eq_some_iff.mp found
  obtain ⟨incarnation, isNamed, has⟩ := Option.bind_eq_some_iff.mp named
  obtain ⟨stored, isStored, rfl⟩ := Option.map_eq_some_iff.mp has
  exact ⟨record, stored, isRecord, isNamed, isStored, rfl, rfl⟩

theorem held_of_items (found : store.items (.stored callRef) = some held) :
    store.held callRef = some (some held.incarnation) := by
  obtain ⟨record, -, isRecord, isNamed, -⟩ := items_stored found
  rw [ReplicatingCallStore.held, isRecord, Option.map_some, isNamed]

/-- The record of a callRef goes, with what it stored, and nothing else does. -/
structure Removes (store next : ReplicatingCallStore (NumberedBody Body)) (callRef : String) : Prop where
  items : next.items = update store.items (.stored callRef) none
  whole : store.Whole → next.Whole

/-- A record removed with its body, and nothing put aside. -/
theorem removes {next : ReplicatingCallStore (NumberedBody Body)} (role : PartitionRole) (primary : String)
    (records : next.records = store.records.remove callRef)
    (bodies : next.inner.bodies = store.inner.bodies.remove ⟨role, primary, callRef⟩)
    (displaced : next.displaced = store.displaced) : Removes store next callRef := by
  have same : next.items = update store.items (.stored callRef) none := by
    funext place
    cases place with
    | stored other =>
      by_cases here : other = callRef
      · subst here
        simp [ReplicatingCallStore.items, records]
      · simp [ReplicatingCallStore.items, records, here, bodies]
    | aside name => simp [ReplicatingCallStore.items, displaced]
  refine ⟨same, fun whole other isSome => ?_⟩
  rw [records] at isSome
  obtain ⟨apart, isSome⟩ := KeyMap.isSome_of_get_remove isSome
  rw [same, Function.update_apply, if_neg fun here => apart (Place.stored.inj here)]
  exact whole other isSome

/-- A write taken is what its callRef stores. -/
theorem items_takes (store : ReplicatingCallStore (NumberedBody Body)) (nowMs : ℤ)
    (write : PutWrite (NumberedBody Body)) (incarnation : String) :
    (store.takes nowMs write (some incarnation)).items = update store.items (.stored write.callRef)
      (some ⟨incarnation, write.body.number, decide (write.role = .backup ∧ 0 < write.callBgen)⟩) := by
  funext place
  cases place with
  | stored other =>
    by_cases here : other = write.callRef
    · subst here
      simp [items, takes, refMeta_recorded, place_recorded, bodies_storeBody]
    · simp [items, takes, here, bodies_storeBody]
  | aside name => simp [items, takes]

/-- A call replaced goes aside if a backup authored it. -/
theorem items_vacates (found : store.items (.stored callRef) = some held) (nowMs : ℤ) {gone : CallMeta}
    (isRecord : store.records.get callRef = some gone) :
    (store.vacates nowMs callRef gone).items = store.items.displaced callRef held := by
  obtain ⟨record, stored, isGone, isNamed, isStored, number, owed⟩ := items_stored found
  obtain rfl := Option.mem_unique isRecord isGone
  have kept : (store.vacates nowMs callRef gone).displaced =
      if gone.role = .backup ∧ 0 < gone.refMeta.callBgen then store.displaced.insert held.incarnation stored.body
      else store.displaced := by
    simp only [vacates, asideOf, isNamed, isStored, Option.map_some]
  unfold Items.displaced
  rw [owed]
  funext place
  cases place with
  | stored other =>
    by_cases here : other = callRef
    · subst here
      split <;> simp [items, vacates]
    · split <;> simp [items, vacates, here, InMemoryCallStore.removeBody]
  | aside name =>
    by_cases isOwed : gone.role = .backup ∧ 0 < gone.refMeta.callBgen
    · by_cases here : name = held.incarnation
      · subst here
        cases held
        simp_all [items]
      · simp [items, kept, isOwed, here]
    · simp [items, kept, isOwed]

theorem Whole.writePut (whole : store.Whole) (nowMs : ℤ) {write : PutWrite (NumberedBody Body)}
    (named : write.opts.incarnation = some incarnation) : (store.writePut nowMs write).Whole := by
  have name : store.namedBy write = some incarnation := by
    rw [namedBy, named]
    rfl
  have stored : (store.storePut nowMs write).1.Whole := by
    apply storePut_rule Whole
    case buries => exact fun _ _ => whole
    case vacates =>
      intro gone found
      have alone := @removes Body store _ { store.vacates nowMs write.callRef gone with displaced := store.displaced }
        gone.role gone.primary rfl rfl rfl
      exact alone.whole whole
    case takes =>
      intro before whole callRef isSome
      rw [name, items_takes, Function.update_apply]
      split
      · rfl
      · rename_i other
        apply whole
        unfold takes at isSome
        rwa [KeyMap.get_insert, if_neg fun same => other (congrArg Place.stored same)] at isSome
  unfold ReplicatingCallStore.writePut
  dsimp only
  split
  · exact stored
  · exact stored

/-- A put of a named call moves the bodies as `PutStep` allows. -/
theorem items_writePut (whole : store.Whole) {nowMs : ℤ} {write : PutWrite (NumberedBody Body)}
    (named : write.opts.incarnation = some incarnation)
    (settled : Settled nowMs (store.held write.callRef) (store.tombstones.on write.callRef)) :
    ∃ owed, PutStep store.items write.callRef ⟨incarnation, write.body.number, owed⟩
      (store.writePut nowMs write).items := by
  have logged : (store.writePut nowMs write).items = (store.storePut nowMs write).1.items := by
    unfold writePut
    dsimp only
    split
    · rfl
    · rfl
  have name : store.namedBy write = some incarnation := by
    rw [namedBy, named]
    rfl
  rw [logged]
  have stores := storePut_stores store nowMs write
  generalize store.storePut nowMs write = result at stores ⊢
  cases stores with
  | ignored => exact ⟨true, .ignored⟩
  | buries isNamed why =>
    obtain rfl := Option.mem_unique name isNamed
    by_cases backup : write.role = .backup
    · refine ⟨true, ?_⟩
      have kept : (store.buries nowMs write incarnation).items =
          update store.items (.aside incarnation) (some ⟨incarnation, write.body.number, true⟩) := by
        funext place
        cases place with
        | stored => simp [items, buries]
        | aside other => by_cases here : other = incarnation <;> simp [items, buries, asideOf, backup, here]
      rw [kept]
      refine .aside fun held found same => ?_
      have isHeld := held_of_items found
      rcases why with ⟨tombstone, member, live, burial⟩ | ⟨other, isOther, apart⟩
      · exact (settled _ isHeld tombstone member live).2 (burial.trans (congrArg some same.symm))
      · exact apart ((Option.some.inj (Option.mem_unique isOther isHeld)).trans same)
    · have same : (store.buries nowMs write incarnation).items = store.items := by
        funext place
        cases place <;> simp [items, buries, asideOf, backup]
      exact ⟨true, same ▸ .ignored⟩
  | takes clear same =>
    rw [name] at same ⊢
    rw [items_takes]
    refine ⟨_, .stored fun held found => ?_⟩
    rw [heldIncarnation_eq_some.mpr (held_of_items found)] at same
    by_contra apart
    exact Bool.false_ne_true (same.symm.trans (isAnotherCall_iff.mpr ⟨_, _, rfl, rfl, apart⟩))
  | replaces isNamed isRecord isHeld apart =>
    obtain ⟨held, found⟩ := Option.isSome_iff_exists.mp (whole _ (Option.isSome_iff_exists.mpr ⟨_, isRecord⟩))
    obtain ⟨record, -, isGone, other, -⟩ := items_stored found
    obtain rfl := Option.mem_unique isRecord isGone
    obtain rfl := Option.mem_unique isHeld other
    obtain rfl := Option.mem_unique name isNamed
    rw [name, items_takes, items_vacates found nowMs isRecord]
    exact ⟨_, .replaced found apart⟩

/-- A delete of another call than the held one changes no body, and one of the held call takes its body. -/
theorem writeDelete_removes (store : ReplicatingCallStore (NumberedBody Body)) (nowMs : ℤ) (write : DeleteWrite) :
    (store.deletesAnother write = true ∧ (store.writeDelete nowMs write).items = store.items ∧
        (store.Whole → (store.writeDelete nowMs write).Whole)) ∨
      store.deletesAnother write = false ∧ Removes store (store.writeDelete nowMs write) write.callRef := by
  unfold writeDelete storeDelete
  cases another : store.deletesAnother write with
  | true => exact .inl ⟨rfl, rfl, id⟩
  | false => exact .inr ⟨rfl, removes write.role write.primary rfl rfl rfl⟩

/-- An eviction changes nothing, or returns the body it takes. -/
theorem evict_removes (whole : store.Whole) (nowMs : ℤ) (callRef : String) :
    store.evict nowMs callRef = (store, none) ∨ ∃ held body, store.items (.stored callRef) = some held ∧
      Removes store (store.evict nowMs callRef).1 callRef ∧ (store.evict nowMs callRef).2 = some body ∧
        body.number = held.number := by
  unfold evict
  cases isRecord : store.records.get callRef with
  | none => exact .inl rfl
  | some record =>
    dsimp only
    split
    · obtain ⟨held, found⟩ := Option.isSome_iff_exists.mp (whole callRef (isRecord ▸ rfl))
      obtain ⟨gone, stored, isGone, -, isStored, number, -⟩ := items_stored found
      obtain rfl := Option.mem_unique isRecord isGone
      exact .inr ⟨held, stored.body, found, removes record.role record.primary rfl rfl rfl,
        congrArg (Option.map StoredBody.body) isStored, number⟩
    · exact .inl rfl

end ReplicatingCallStore

namespace Ledger

open ReplicatingCallStore

/-- Every put names an incarnation, of the callRef it is on. -/
def Event.Names (refOf : String → String) : Event Body → Prop
  | .put _ write => ∃ incarnation, write.opts.incarnation = some incarnation ∧ refOf incarnation = write.callRef
  | _ => True

/-- The event deletes the call or is a write of it. -/
def Event.Ends (callRef incarnation : String) : Event Body → Prop
  | .put _ write => write.callRef = callRef ∧ write.opts.incarnation = some incarnation
  | .delete _ write =>
    write.callRef = callRef ∧ (write.opts.incarnation = none ∨ write.opts.incarnation = some incarnation)
  | _ => False

/-- What becomes of a body a backup authored: it stays, is kept aside or is returned by this reap, unless its
    call is deleted or written again; what is kept aside stays, is returned by this take, or a later write of
    its call takes its place. -/
structure Conserves (ledger : Ledger Body) (event : Event Body) (next : Ledger Body) : Prop where
  stored : ∀ callRef held, ledger.store.items (.stored callRef) = some held → held.owed = true →
    next.store.items (.stored callRef) = some held ∨ next.store.items (.aside held.incarnation) = some held ∨
      (∃ call nowMs, event = .evict call nowMs callRef ∧ ⟨.reap call, held.number⟩ ∈ next.handed) ∨
      event.Ends callRef held.incarnation
  aside : ∀ incarnation held, ledger.store.items (.aside incarnation) = some held →
    (∃ call, event = .take call ∧ ⟨.take call, held.number⟩ ∈ next.handed) ∨
      ∃ later, next.store.items (.aside incarnation) = some later ∧ (later = held ∨ held.number < later.number)

structure Sound (refOf : String → String) (ledger : Ledger Body) : Prop where
  custody : Custody refOf ledger.names ledger.store.items (ledger.handed.map (·.number))
  whole : ledger.store.Whole
  settled : ∀ callRef, Settled ledger.nowMs (ledger.store.held callRef) (ledger.store.tombstones.on callRef)

variable {refOf : String → String} {ledger next : Ledger Body}

/-- Where no body moves every one is conserved. -/
theorem Conserves.of_same {event : Event Body} (same : next.store.items = ledger.store.items) :
    ledger.Conserves event next where
  stored _ _ found _ := .inl (same ▸ found)
  aside _ held found := .inr ⟨held, same ▸ found, .inl rfl⟩

theorem Sound.settled_at (sound : ledger.Sound refOf) {nowMs : ℤ} (later : ¬ nowMs < ledger.nowMs)
    (callRef : String) : Settled nowMs (ledger.store.held callRef) (ledger.store.tombstones.on callRef) :=
  fun incarnation isHeld => (sound.settled callRef incarnation isHeld).mono (not_lt.mp later)

theorem Sound.put (sound : ledger.Sound refOf) {nowMs : ℤ} {write : PutWrite Body}
    (named : (Event.put nowMs write).Names refOf) (stepped : ledger.step (.put nowMs write) = some next) :
    next.Sound refOf ∧ ledger.Conserves (.put nowMs write) next := by
  obtain ⟨incarnation, isNamed, place⟩ := named
  dsimp only [step] at stepped
  split at stepped
  · cases stepped
  · rename_i later
    obtain rfl := Option.some.inj stepped
    obtain ⟨owed, puts⟩ := @items_writePut Body ledger.store incarnation sound.whole nowMs
      (write.numbered ledger.names.length) isNamed (sound.settled_at later _)
    constructor
    · constructor
      case custody =>
        have kept := @PutStep.custody _ _ refOf _ _ ⟨incarnation, ledger.names.length, owed⟩ (place ▸ puts) rfl
          sound.custody
        rwa [← isNamed] at kept
      case whole => exact sound.whole.writePut nowMs isNamed
      case settled => exact fun callRef => (sound.settled_at later callRef).moves writePut_moves
    · obtain ⟨stored, aside⟩ := puts.conserves rfl sound.custody
      constructor
      · intro callRef held found isOwed
        rcases stored callRef held found isOwed with same | kept | ⟨written, name⟩
        · exact .inl same
        · exact .inr (.inl kept)
        · exact .inr (.inr (.inr ⟨written.symm, name ▸ isNamed⟩))
      · exact fun name held found => .inr (aside name held found)

theorem Sound.delete (sound : ledger.Sound refOf) {nowMs : ℤ} {write : DeleteWrite}
    (stepped : ledger.step (.delete nowMs write) = some next) :
    next.Sound refOf ∧ ledger.Conserves (.delete nowMs write) next := by
  dsimp only [step] at stepped
  split at stepped
  · cases stepped
  · rename_i later
    obtain rfl := Option.some.inj stepped
    have settled : ∀ callRef, Settled nowMs ((ledger.store.writeDelete nowMs write).held callRef)
        ((ledger.store.writeDelete nowMs write).tombstones.on callRef) :=
      fun callRef => (sound.settled_at later callRef).moves writeDelete_moves
    rcases writeDelete_removes ledger.store nowMs write with ⟨-, items, whole⟩ | ⟨own, removes⟩
    · exact ⟨⟨items.symm ▸ sound.custody, whole sound.whole, settled⟩, .of_same items⟩
    · refine ⟨⟨removes.items.symm ▸ sound.custody.remove _, removes.whole sound.whole, settled⟩, ⟨?_, ?_⟩⟩
      · intro callRef held found _
        by_cases written : callRef = write.callRef
        · refine .inr (.inr (.inr ⟨written.symm, ?_⟩))
          have isHeld := heldIncarnation_eq_some.mpr (held_of_items (written ▸ found))
          obtain ⟨record, -, isRecord, -⟩ := items_stored (written ▸ found)
          rw [deletesAnother, isRecord, isHeld, Option.isSome_some, Bool.true_and] at own
          cases isDeleted : write.opts.incarnation with
          | none => exact .inl rfl
          | some deleted =>
            by_contra apart
            refine Bool.false_ne_true (own.symm.trans (isAnotherCall_iff.mpr ⟨_, _, rfl, isDeleted, fun same => ?_⟩))
            exact apart (.inr (congrArg some same.symm))
        · refine .inl ?_
          rw [removes.items, Function.update_apply, if_neg fun same => written (Place.stored.inj same)]
          exact found
      · exact fun name held found => .inr ⟨held, by rw [removes.items]; exact found, .inl rfl⟩

theorem Sound.evict (sound : ledger.Sound refOf) {call : ℕ} {nowMs : ℤ} {callRef : String}
    (stepped : ledger.step (.evict call nowMs callRef) = some next) :
    next.Sound refOf ∧ ledger.Conserves (.evict call nowMs callRef) next := by
  obtain rfl := Option.some.inj stepped
  have settled : ∀ other, Settled ledger.nowMs ((ledger.store.evict nowMs callRef).1.held other)
      ((ledger.store.evict nowMs callRef).1.tombstones.on other) := by
    intro other incarnation isHeld
    obtain ⟨records, stones⟩ := evict_records ledger.store nowMs callRef other
    rw [stones]
    apply sound.settled other incarnation
    rcases records with same | gone
    · exact (congrArg _ same).symm.trans isHeld
    · cases (congrArg (Option.map _) gone).symm.trans isHeld
  rcases evict_removes sound.whole nowMs callRef with nothing | ⟨held, body, found, removes, returned, number⟩
  · rw [nothing] at settled ⊢
    exact ⟨⟨by simpa [hand] using sound.custody, sound.whole, settled⟩, .of_same rfl⟩
  · have stays : ∀ place, (ledger.store.evict nowMs callRef).1.items place =
        if place = .stored callRef then none else ledger.store.items place := by
      intro place
      rw [removes.items, Function.update_apply]
    rw [returned]
    refine ⟨⟨?_, removes.whole sound.whole, settled⟩, ⟨?_, ?_⟩⟩
    · rw [hand, List.map_append]
      refine sound.custody.leave (List.nodup_singleton _) (fun place second isSecond => ?_) fun other member => ?_
      · rw [stays] at isSecond
        split at isSecond
        · cases isSecond
        · rename_i apart
          refine ⟨isSecond, fun member => apart ?_⟩
          exact (sound.custody.place_unique found isSecond ((List.mem_singleton.mp member).trans number).symm).symm
      · exact ⟨_, held, found, ((List.mem_singleton.mp member).trans number).symm⟩
    · intro other second isSecond _
      simp only [hand, stays]
      grind
    · intro other second isSecond
      simp only [hand, stays]
      grind

theorem Sound.take (sound : ledger.Sound refOf) {call : ℕ} (stepped : ledger.step (.take call) = some next) :
    next.Sound refOf ∧ ledger.Conserves (.take call) next := by
  obtain rfl := Option.some.inj stepped
  have entry : ∀ item ∈ ledger.store.displaced.entries,
      ledger.store.items (.aside item.1) = some ⟨item.1, item.2.number, true⟩ := by
    intro item member
    have found : ledger.store.displaced.get item.1 = some item.2 := AList.mem_lookup_iff.mpr member
    rw [items, found]
    rfl
  have numbers : (ledger.store.takeDisplaced.2.map fun body => (⟨.take call, body.number⟩ : Handed)).map (·.number) =
      ledger.store.displaced.entries.map fun item => item.2.number := by
    simp [takeDisplaced]
  refine ⟨⟨?_, sound.whole, sound.settled⟩,
    ⟨fun _ _ found _ => .inl found, fun name held found => .inl ⟨call, rfl, ?_⟩⟩⟩
  · rw [hand, List.map_append, numbers]
    apply sound.custody.leave
    · refine List.Nodup.map_on (fun first isFirst second isSecond same => ?_) ledger.store.displaced.nodupKeys.nodup
      have place := sound.custody.place_unique (entry first isFirst) (entry second isSecond) same
      exact ledger.store.displaced.nodupKeys.eq_of_fst_eq isFirst isSecond (Place.aside.inj place)
    · rintro (callRef | name) held found
      · refine ⟨found, fun member => ?_⟩
        obtain ⟨item, isItem, same⟩ := List.mem_map.mp member
        have stored : ledger.store.items (.stored callRef) = some held := found
        cases sound.custody.place_unique (entry item isItem) stored same
      · cases found
    · grind
  · obtain ⟨body, isBody, rfl⟩ := Option.map_eq_some_iff.mp found
    refine List.mem_append_right _ (List.mem_map.mpr ⟨body, List.mem_map.mpr ⟨⟨name, body⟩, ?_, rfl⟩, rfl⟩)
    exact AList.mem_lookup_iff.mp isBody

end Ledger

end SipServer.Store
