/-
Module: SipServer.Proofs.Resurrection
Purpose: A deleted call stays deleted for the resurrection window: over any puts, deletes and reaps in clock
  order, no record names a call that is under a live tombstone, and where every operation on a callRef names
  the place its body lives in, no body of such a call is stored either.
-/
import SipServer.Proofs.StoreMoves

namespace SipServer.Store

open SipServer.Lib

namespace ReplicatingCallStore

variable {Body : Type} {store : ReplicatingCallStore Body}

variable {nowMs sinceMs : ℤ} {incarnation : String} {requests : List (Request Body)} {atMs : ℤ}
    {request : Request Body}
  {write : DeleteWrite} {callRef : String} {place : BodyKey}

/-! ### Records and live tombstones -/

/-- A callRef's record names no call that is under a live tombstone. -/
def Settled (nowMs : ℤ) (held : Option (Option String)) (stones : List Tombstone) : Prop :=
  ∀ incarnation, held = some incarnation → Unburied stones incarnation nowMs

/-- The call was buried at `atMs` or later. -/
def BuriedSince (atMs : ℤ) (incarnation : String) (stones : List Tombstone) : Prop :=
  ∃ tombstone ∈ stones, tombstone.incarnation = some incarnation ∧ atMs ≤ tombstone.buriedAtMs

theorem Settled.moves {held next : Option (Option String)} {stones nextStones : List Tombstone}
    (settled : Settled nowMs held stones) (moves : Moves nowMs held stones next nextStones) :
    Settled nowMs next nextStones := by
  intro incarnation isNext
  cases moves with
  | keep => exact settled incarnation isNext
  | restamp member live named =>
    obtain ⟨isNamed, apart⟩ := settled incarnation isNext _ member live
    obtain ⟨held, rfl⟩ := Option.ne_none_iff_exists'.mp isNamed
    exact (settled _ isNext).stamp (named ▸ apart)
  | buryOther burial isHeld apart =>
    cases isHeld.symm.trans isNext
    apply (settled _ isNext).stamp
    exact fun same => apart (Option.some.inj same).symm
  | take clear =>
    cases isNext
    exact clear
  | replace isHeld apart clear =>
    cases isNext
    exact clear.stamp fun same => apart (Option.some.inj same)
  | remove => cases isNext
  | prune kept =>
    rcases kept with rfl | rfl
    · intro tombstone member live
      exact settled incarnation isNext tombstone (List.mem_of_mem_filter member) live
    · cases isNext

theorem BuriedSince.stamp {stones : List Tombstone} {buried : Option String} {burial : Burial}
    (since : BuriedSince atMs incarnation stones) (le : atMs ≤ nowMs) :
    BuriedSince atMs incarnation (stamp stones buried burial nowMs) := by
  obtain ⟨tombstone, member, named, after⟩ := since
  by_cases same : tombstone.incarnation = buried
  · exact ⟨⟨nowMs, buried, burial⟩, mem_stamp.mpr (.inr rfl), same.symm.trans named, le⟩
  · exact ⟨tombstone, mem_stamp.mpr (.inl ⟨member, same⟩), named, after⟩

/-- A call stays buried for the window: what buries it again stamps it later, and nothing prunes it. -/
theorem BuriedSince.moves {held next : Option (Option String)} {stones nextStones : List Tombstone}
    (since : BuriedSince atMs incarnation stones) (le : atMs ≤ nowMs)
    (inside : nowMs < atMs + resurrectionTombstoneMs) (moves : Moves nowMs held stones next nextStones) :
    BuriedSince atMs incarnation nextStones := by
  cases moves with
  | keep => exact since
  | restamp | buryOther | replace | remove => exact since.stamp le
  | take => exact since
  | prune =>
    obtain ⟨tombstone, member, named, after⟩ := since
    refine ⟨tombstone, List.mem_filter.mpr ⟨member, ?_⟩, named, after⟩
    rw [Tombstone.live, decide_eq_true_eq]
    omega

/-- The delete itself buries the call. -/
theorem buriedSince_delete (deleted : store.deletedIncarnation write = some incarnation) :
    BuriedSince nowMs incarnation ((store.writeDelete nowMs write).tombstones.on write.callRef) := by
  have stones : (store.writeDelete nowMs write).tombstones =
      store.tombstones.bury write.callRef (some incarnation) .deleted nowMs := by
    unfold writeDelete storeDelete
    split
    · rename_i another
      unfold deletesAnother at another
      rw [Bool.and_eq_true, isAnotherCall_iff] at another
      obtain ⟨-, other, named, -, isNamed, -⟩ := another
      have same : some named = some incarnation := by
        rw [← deleted, deletedIncarnation, isNamed, Option.some_or]
      rw [isNamed, same]
    · rw [← deleted]
      rfl
  rw [stones, ResurrectionTombstones.on_bury, if_pos rfl]
  exact ⟨_, mem_stamp.mpr (.inr rfl), rfl, le_refl _⟩

/-! ### Bodies -/

/-- A request names the place of `callRef` as `role` and `primary`, if it writes it. -/
def Request.NamesPlace (role : PartitionRole) (primary callRef : String) (request : Request Body) : Prop :=
  match request.operation with
  | .put write => write.callRef = callRef → write.role = role ∧ write.primary = primary
  | .delete write => write.callRef = callRef → write.role = role ∧ write.primary = primary
  | .reap => True

/-- A callRef's only body lives at its place, beside a record of the same incarnation. -/
structure LivesAt (role : PartitionRole) (primary callRef : String) (bodies : KeyMap BodyKey (StoredBody Body))
    (record : Option CallMeta) : Prop where
  place : ∀ held, record = some held → held.role = role ∧ held.primary = primary
  body : ∀ key stored, bodies.get key = some stored → key.callRef = callRef →
    key = ⟨role, primary, callRef⟩ ∧ ∃ held, record = some held ∧ held.refMeta.incarnation = stored.incarnation

namespace LivesAt

variable {role : PartitionRole} {primary callRef : String} {bodies : KeyMap BodyKey (StoredBody Body)}
  {record : Option CallMeta}

section

variable (lives : LivesAt role primary callRef bodies record)

include lives

/-- Bodies of other callRefs come and go. -/
theorem of_others {others : KeyMap BodyKey (StoredBody Body)}
    (same : ∀ key : BodyKey, key.callRef = callRef → others.get key = bodies.get key) :
    LivesAt role primary callRef others record where
  place := lives.place
  body key found foundAt isRef := lives.body key found ((same key isRef).symm.trans foundAt) isRef

theorem insert_other {stored : StoredBody Body}
    (other : place.callRef ≠ callRef) : LivesAt role primary callRef (bodies.insert place stored) record :=
  lives.of_others fun key isRef => by grind [KeyMap.get_insert]

theorem remove_other (other : place.callRef ≠ callRef) : LivesAt role primary callRef (bodies.remove place) record :=
  lives.of_others fun key isRef => by grind [KeyMap.get_remove]

/-- The callRef's body is removed from its place, with its record. -/
theorem removed :
    LivesAt role primary callRef (bodies.remove ⟨role, primary, callRef⟩) none where
  place _ isHeld := nomatch isHeld
  body key found foundAt isRef := by
    obtain ⟨apart, foundAt⟩ := KeyMap.of_get_remove foundAt
    exact absurd (lives.body key found foundAt isRef).1 apart

/-- A body is stored at the callRef's place with a record of its incarnation. -/
theorem stored {held : CallMeta} {body : StoredBody Body}
    (place : held.role = role ∧ held.primary = primary) (same : held.refMeta.incarnation = body.incarnation) :
    LivesAt role primary callRef (bodies.insert ⟨role, primary, callRef⟩ body) (some held) where
  place other isHeld := by
    cases isHeld
    exact place
  body key found foundAt isRef := by
    rcases KeyMap.of_get_insert foundAt with ⟨isPlace, rfl⟩ | ⟨apart, foundAt⟩
    · exact ⟨isPlace, held, rfl, same⟩
    · exact absurd (lives.body key found foundAt isRef).1 apart

end

end LivesAt

section Places

variable {role : PartitionRole} {primary callRef : String}

/-- The store keeps the callRef's body at its place. -/
abbrev Keeps (role : PartitionRole) (primary callRef : String) (store : ReplicatingCallStore Body) : Prop :=
  LivesAt role primary callRef store.inner.bodies (store.records.get callRef)

section

variable (keeps : store.Keeps role primary callRef)

include keeps

theorem Keeps.writePut (nowMs : ℤ) {write : PutWrite Body}
    (names : write.callRef = callRef → write.role = role ∧ write.primary = primary) :
    (store.writePut nowMs write).Keeps role primary callRef := by
  have stored : (store.storePut nowMs write).1.Keeps role primary callRef := by
    apply storePut_rule (Keeps role primary callRef)
    case buries => exact fun _ _ => keeps
    case vacates =>
      intro gone found
      unfold Keeps vacates
      rw [KeyMap.get_remove]
      by_cases written : write.callRef = callRef
      · subst written
        obtain ⟨sameRole, samePrimary⟩ := keeps.place _ found
        rw [if_pos rfl, sameRole, samePrimary]
        exact LivesAt.removed keeps
      · rw [if_neg (Ne.symm written)]
        exact LivesAt.remove_other keeps written
    case takes =>
      intro before keeps
      unfold Keeps takes
      rw [bodies_storeBody, KeyMap.get_insert]
      by_cases written : write.callRef = callRef
      · obtain ⟨rfl, rfl⟩ := names written
        subst written
        rw [if_pos rfl]
        exact LivesAt.stored keeps place_recorded (congrArg _ refMeta_recorded)
      · rw [if_neg (Ne.symm written)]
        exact LivesAt.insert_other keeps written
  unfold ReplicatingCallStore.writePut
  dsimp only
  split
  · exact stored
  · exact stored

theorem Keeps.writeDelete (nowMs : ℤ)
    (names : write.callRef = callRef → write.role = role ∧ write.primary = primary) :
    (store.writeDelete nowMs write).Keeps role primary callRef := by
  have stored : (store.storeDelete nowMs write).Keeps role primary callRef := by
    unfold storeDelete
    split
    · exact keeps
    unfold Keeps
    rw [KeyMap.get_remove]
    by_cases written : write.callRef = callRef
    · obtain ⟨rfl, rfl⟩ := names written
      subst written
      rw [if_pos rfl]
      exact LivesAt.removed keeps
    · rw [if_neg (Ne.symm written)]
      exact LivesAt.remove_other keeps written
  unfold ReplicatingCallStore.writeDelete
  split
  · exact stored
  · exact stored

theorem Keeps.evict (nowMs : ℤ) (evicted : String) :
    (store.evict nowMs evicted).1.Keeps role primary callRef := by
  unfold ReplicatingCallStore.evict
  split
  · exact keeps
  rename_i record found
  split
  · unfold Keeps
    rw [KeyMap.get_remove]
    by_cases same : callRef = evicted
    · subst same
      obtain ⟨rfl, rfl⟩ := keeps.place record found
      rw [if_pos rfl]
      exact LivesAt.removed keeps
    · rw [if_neg same]
      exact LivesAt.remove_other keeps (Ne.symm same)
  · exact keeps

end

theorem Keeps.evictSnapshot (nowMs : ℤ) (expired : List String)
    (keeps : store.Keeps role primary callRef) :
    (store.evictSnapshot nowMs expired).1.Keeps role primary callRef := by
  induction expired generalizing store with
  | nil => exact keeps
  | cons evicted expired hypothesis => exact hypothesis (keeps.evict nowMs evicted)

theorem Keeps.step (keeps : store.Keeps role primary callRef)
    (names : request.NamesPlace role primary callRef) : (store.step request).Keeps role primary callRef := by
  obtain ⟨nowMs, operation⟩ := request
  cases operation with
  | put write => exact keeps.writePut nowMs names
  | delete write => exact keeps.writeDelete nowMs names
  | reap => exact Keeps.evictSnapshot nowMs _ keeps

theorem Keeps.foldl (requests : List (Request Body)) (keeps : store.Keeps role primary callRef)
    (names : ∀ request ∈ requests, request.NamesPlace role primary callRef) :
    (requests.foldl ReplicatingCallStore.step store).Keeps role primary callRef := by
  induction requests generalizing store with
  | nil => exact keeps
  | cons request requests hypothesis =>
    apply hypothesis (keeps.step (names request List.mem_cons_self))
    exact fun later member => names later (List.mem_cons_of_mem _ member)

theorem new_keeps {gen : ℕ} {deadPeerTtlMs defaultTtlMs : ℤ} :
    (new gen deadPeerTtlMs defaultTtlMs : ReplicatingCallStore Body).Keeps role primary callRef where
  place _ isHeld := nomatch isHeld
  body _ _ found := nomatch found

end Places

/-! ### Runs in clock order -/

/-- The clock read at each request never goes back, from `sinceMs` to `nowMs`. -/
def InOrder (sinceMs : ℤ) : List (Request Body) → ℤ → Prop
  | [], nowMs => sinceMs ≤ nowMs
  | request :: requests, nowMs => sinceMs ≤ request.nowMs ∧ InOrder request.nowMs requests nowMs

instance (sinceMs : ℤ) (requests : List (Request Body)) (nowMs : ℤ) : Decidable (InOrder sinceMs requests nowMs) := by
  induction requests generalizing sinceMs with
  | nil => exact inferInstanceAs (Decidable (_ ≤ _))
  | cons request requests hypothesis =>
    exact @instDecidableAnd _ _ (inferInstanceAs (Decidable (_ ≤ _))) (hypothesis request.nowMs)

theorem inOrder_append {first : List (Request Body)} {second : List (Request Body)}
    (ordered : InOrder sinceMs (first ++ request :: second) nowMs) :
    InOrder sinceMs first request.nowMs ∧ InOrder request.nowMs second nowMs := by
  induction first generalizing sinceMs with
  | nil => exact ordered
  | cons earlier first hypothesis =>
    obtain ⟨before, rest⟩ := hypothesis ordered.2
    exact ⟨⟨ordered.1, before⟩, rest⟩

theorem InOrder.le (ordered : InOrder sinceMs requests nowMs) : sinceMs ≤ nowMs := by
  induction requests generalizing sinceMs with
  | nil => exact ordered
  | cons request requests hypothesis => exact ordered.1.trans (hypothesis ordered.2)

/-- In every run a record names no call under a live tombstone. -/
theorem settled_foldl (ordered : InOrder sinceMs requests nowMs)
    (settled : Settled sinceMs (store.held callRef) (store.tombstones.on callRef)) :
    Settled nowMs ((requests.foldl step store).held callRef)
      ((requests.foldl step store).tombstones.on callRef) := by
  induction requests generalizing sinceMs store with
  | nil => exact fun incarnation isHeld => (settled incarnation isHeld).mono ordered
  | cons request requests hypothesis =>
    apply hypothesis ordered.2
    apply Settled.moves _ (step_moves store request callRef)
    exact fun incarnation isHeld => (settled incarnation isHeld).mono ordered.1

/-- A buried call stays buried through every run that ends inside its window. -/
theorem buriedSince_foldl (ordered : InOrder sinceMs requests nowMs) (le : atMs ≤ sinceMs)
    (inside : nowMs < atMs + resurrectionTombstoneMs)
    (since : BuriedSince atMs incarnation (store.tombstones.on callRef)) :
    BuriedSince atMs incarnation ((requests.foldl step store).tombstones.on callRef) := by
  induction requests generalizing sinceMs store with
  | nil => exact since
  | cons request requests hypothesis =>
    have reached := le.trans ordered.1
    exact hypothesis ordered.2 reached
      (since.moves reached (ordered.2.le.trans_lt inside) (step_moves store request callRef))

/-- In every run in clock order no record names a call under a live tombstone, whatever roles, directions and
    incarnations its operations name. A call deleted in it is then named by no record until the window is
    over, and has no body stored, if every operation on its callRef names one place. -/
theorem deleted_call_stays_gone (gen : ℕ) (deadPeerTtlMs defaultTtlMs sinceMs nowMs : ℤ)
    (requests : List (Request Body)) (ordered : InOrder sinceMs requests nowMs) :
    let start : ReplicatingCallStore Body := new gen deadPeerTtlMs defaultTtlMs
    let final := requests.foldl step start
    (∀ callRef record, final.records.get callRef = some record →
        final.tombstones.burial callRef record.refMeta.incarnation nowMs = none) ∧
      ∀ before atMs write after incarnation, requests = before ++ ⟨atMs, .delete write⟩ :: after →
        (before.foldl step start).deletedIncarnation write = some incarnation →
        nowMs < atMs + resurrectionTombstoneMs →
        (∀ record, final.records.get write.callRef = some record →
            record.refMeta.incarnation ≠ some incarnation) ∧
          ∀ role primary, (∀ request ∈ requests, request.NamesPlace role primary write.callRef) →
            ∀ key stored, final.inner.bodies.get key = some stored → key.callRef = write.callRef →
              stored.incarnation ≠ some incarnation := by
  intro start final
  have settled : ∀ callRef, Settled nowMs (final.held callRef) (final.tombstones.on callRef) := by
    intro callRef
    apply settled_foldl ordered
    intro incarnation isHeld
    cases isHeld
  have unburied : ∀ callRef record, final.records.get callRef = some record →
      Unburied (final.tombstones.on callRef) record.refMeta.incarnation nowMs := by
    intro callRef record found
    apply settled callRef
    rw [held, found, Option.map_some]
  constructor
  · intro callRef record found
    exact ResurrectionTombstones.burial_eq_none_iff.mpr (unburied callRef record found)
  · rintro before atMs write after incarnation rfl deleted inside
    have buried : BuriedSince atMs incarnation (final.tombstones.on write.callRef) := by
      have split : final = after.foldl step ((before.foldl step start).writeDelete atMs write) := List.foldl_append
      rw [split]
      exact buriedSince_foldl (inOrder_append ordered).2 (le_refl atMs) inside (buriedSince_delete deleted)
    have gone : ∀ record, final.records.get write.callRef = some record →
        record.refMeta.incarnation ≠ some incarnation := by
      intro record found same
      obtain ⟨tombstone, member, named, after⟩ := buried
      have live : tombstone.live nowMs = true := by
        rw [Tombstone.live, decide_eq_true_eq]
        omega
      exact (unburied write.callRef record found tombstone member live).2 (named.trans same.symm)
    refine ⟨gone, ?_⟩
    intro role primary names key stored found isRef same
    have keeps : final.Keeps role primary write.callRef := Keeps.foldl _ new_keeps names
    obtain ⟨-, record, isHeld, incarnations⟩ := keeps.body key stored found isRef
    exact gone record isHeld (incarnations.trans same)

/-- The options of an operation on call `incarnation` that propagates to no peer. -/
def localOpts (incarnation : String) : PutOpts := ⟨none, none, none, some incarnation⟩

/-- A put of `incarnation` at this node's own place of `callRef`. -/
def ownPut (callRef incarnation : String) : PutWrite Unit :=
  ⟨.primary, "w0", callRef, (), [], 0, 1, 0, localOpts incarnation⟩

/-- A put of a call deleted a moment before brings back neither its record nor its body. -/
theorem late_put_stays_gone :
    let requests : List (Request Unit) := [⟨0, .put (ownPut "ref" "ref#1")⟩,
      ⟨1, .delete ⟨.primary, "w0", "ref", [], false, localOpts "ref#1"⟩⟩, ⟨2, .put (ownPut "ref" "ref#1")⟩]
    ∀ record, (requests.foldl step (new 1 0 0)).records.get "ref" = some record →
      record.refMeta.incarnation ≠ some "ref#1" := by
  intro requests
  exact ((deleted_call_stays_gone 1 0 0 0 2 requests (by decide)).2 [⟨0, .put (ownPut "ref" "ref#1")⟩] 1
    ⟨.primary, "w0", "ref", [], false, localOpts "ref#1"⟩ [⟨2, .put (ownPut "ref" "ref#1")⟩] "ref#1" rfl rfl
    (by decide)).1

/-- A delete that names another place than the one the body lives in removes the record and buries the call,
    and leaves the body stored. -/
theorem delete_elsewhere_leaves_body :
    let write : DeleteWrite := ⟨.backup, "w0", "ref", [], false, localOpts "ref#1"⟩
    let requests : List (Request Unit) := [⟨0, .put (ownPut "ref" "ref#1")⟩, ⟨1, .delete write⟩]
    InOrder 0 requests 1 ∧
      ((new 1 0 0).writePut 0 (ownPut "ref" "ref#1")).deletedIncarnation write = some "ref#1" ∧
      (requests.foldl step (new 1 0 0)).inner.bodies.get ⟨.primary, "w0", "ref"⟩ = some ⟨(), some "ref#1"⟩ := by
  decide

end ReplicatingCallStore

end SipServer.Store
