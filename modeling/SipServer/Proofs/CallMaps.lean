/-
Module: SipServer.Proofs.CallMaps
Purpose: The call map and its derived maps agree after every sequence of completed operations; what each
  block of writes does to them.
-/
import SipServer.Store.CallState

namespace SipServer.Store

open SipServer.Lib KeyMap

variable {topology : Option CallTopology} {selfOrdinal : String} {keys : List String} {was : Bool}

namespace Inner

variable {Data : Type} {inner after : Inner Data}

variable {call : ResidentCall Data} {other : String} {start : Inner Data} {writes : List (Write Data)}
  {callRef : String}

@[simp] theorem applyAll_cons {write : Write Data} :
    inner.applyAll (write :: writes) = (inner.apply write).applyAll writes := rfl

theorem applyAll_append (inner : Inner Data) (first second : List (Write Data)) :
    inner.applyAll (first ++ second) = (inner.applyAll first).applyAll second :=
  List.foldl_append ..

/-! ### The routing index -/

/-- A state with its routing keys alone replaced. -/
def withKeys (inner : Inner Data) (sipIndex : KeyMap String String) : Inner Data := { inner with sipIndex }

/-- Keys pointed at a call name it, the others stay. -/
theorem applyAll_point (inner : Inner Data) (keys : List String) (callRef : String) :
    ∃ sipIndex, inner.applyAll (keys.map (.point · callRef)) = inner.withKeys sipIndex ∧
      ∀ key, sipIndex.get key = if key ∈ keys then some callRef else inner.sipIndex.get key := by
  induction keys generalizing inner with
  | nil => exact ⟨inner.sipIndex, rfl, fun key => by simp⟩
  | cons first keys ih =>
    obtain ⟨sipIndex, isApplied, found⟩ := ih (inner.apply (.point first callRef))
    refine ⟨sipIndex, isApplied, fun key => ?_⟩
    rw [found]
    by_cases later : key ∈ keys
    · simp [later]
    · simp [later, apply]

theorem applyAll_repoint (inner : Inner Data) (keys : List String) (callRef : String) :
    ∃ sipIndex, inner.applyAll (keys.map (.repoint · callRef)) = inner.withKeys sipIndex ∧
      ∀ key, sipIndex.get key = if key ∈ keys then some callRef else inner.sipIndex.get key := by
  induction keys generalizing inner with
  | nil => exact ⟨inner.sipIndex, rfl, fun key => by simp⟩
  | cons first keys ih =>
    have pointed : ∃ index, inner.apply (.repoint first callRef) = inner.withKeys index ∧
        ∀ key, index.get key = if key = first then some callRef else inner.sipIndex.get key := by
      dsimp only [apply]
      split_ifs with same
      · refine ⟨inner.sipIndex, rfl, fun key => ?_⟩
        split_ifs with isFirst
        · rw [isFirst, same]
        · rfl
      · exact ⟨_, rfl, fun key => get_insert ..⟩
    obtain ⟨index, isPointed, foundFirst⟩ := pointed
    obtain ⟨sipIndex, isApplied, found⟩ := ih (inner.withKeys index)
    refine ⟨sipIndex, ?_, fun key => ?_⟩
    · rw [List.map_cons, applyAll_cons, isPointed, isApplied]
      rfl
    rw [found]
    by_cases later : key ∈ keys
    · simp [later]
    · simp [later, withKeys, foundFirst]

/-- Unindexing drops the keys that point at the call. -/
theorem applyAll_unindex (inner : Inner Data) (keys : List String) (callRef : String) :
    ∃ sipIndex, inner.applyAll (unindex callRef keys) = inner.withKeys sipIndex ∧
      ∀ key owner, sipIndex.get key = some owner ↔
        inner.sipIndex.get key = some owner ∧ (owner = callRef → key ∉ keys) := by
  induction keys generalizing inner with
  | nil => exact ⟨inner.sipIndex, rfl, fun key owner => by simp⟩
  | cons first keys ih =>
    have dropped : ∃ index, inner.apply (.unpoint first callRef) = inner.withKeys index ∧
        ∀ key owner, index.get key = some owner ↔ inner.sipIndex.get key = some owner ∧
          (owner = callRef → key ≠ first) := by
      dsimp only [apply]
      split
      · rename_i same
        refine ⟨_, rfl, fun key owner => ?_⟩
        rw [get_remove]
        split
        · rename_i isFirst
          subst isFirst
          simp [same, eq_comm]
        · rename_i differ
          simp [differ]
      · rename_i other
        refine ⟨_, rfl, fun key owner => ⟨fun found => ⟨found, ?_⟩, fun both => both.1⟩⟩
        rintro rfl rfl
        exact other found
    obtain ⟨index, isDropped, foundFirst⟩ := dropped
    obtain ⟨sipIndex, isApplied, found⟩ := ih (inner.withKeys index)
    refine ⟨sipIndex, ?_, fun key owner => ?_⟩
    · rw [unindex, List.map_cons, applyAll_cons, isDropped]
      exact isApplied
    rw [found]
    simp only [withKeys, foundFirst, List.mem_cons, not_or]
    tauto

/-- Every routing key is on the key list of the call it names. -/
def Routed (inner : Inner Data) : Prop :=
  ∀ key callRef, inner.sipIndex.get key = some callRef → ∃ keys, inner.indexed.get callRef = some keys ∧ key ∈ keys

/-- What a change of the index leaves as it was. -/
structure SameButIndex (before after : Inner Data) : Prop where
  calls : after.calls = before.calls
  topologies : after.topologies = before.topologies
  takeover : after.takeover = before.takeover
  touched : after.touched = before.touched
  uncounted : after.uncounted = before.uncounted

/-- A call owns its keys, and every key named by it is one of them. -/
structure Reindexed (callRef : String) (keys : List String) (before after : Inner Data) : Prop
    extends SameButIndex before after where
  indexed : ∀ other, after.indexed.get other = if other = callRef then some keys else before.indexed.get other
  routed : before.Routed → after.Routed

/-- The stale keys of a call are dropped: no key names it any more. -/
theorem applyAll_unindexOwned {callRef : String} (same : inner.indexed.get callRef = start.indexed.get callRef) :
    ∃ sipIndex indexed, inner.applyAll (start.unindexOwned callRef) = { inner with sipIndex, indexed } ∧
      (∀ other, indexed.get other = if other = callRef then none else inner.indexed.get other) ∧
      (inner.Routed → ∀ key owner, sipIndex.get key = some owner → owner ≠ callRef ∧
        inner.sipIndex.get key = some owner) := by
  unfold unindexOwned
  cases old : start.indexed.get callRef with
  | none =>
    rw [old] at same
    refine ⟨inner.sipIndex, inner.indexed, rfl, fun other => ?_, fun routed key owner found => ⟨?_, found⟩⟩
    · split_ifs with isCall
      · rw [isCall, same]
      · rfl
    · rintro rfl
      obtain ⟨keys, listed, _⟩ := routed key owner found
      cases same.symm.trans listed
  | some keys =>
    rw [old] at same
    obtain ⟨sipIndex, isApplied, found⟩ := applyAll_unindex (inner.apply (.disown callRef)) keys callRef
    refine ⟨sipIndex, inner.indexed.remove callRef, isApplied, fun other => get_remove .., ?_⟩
    intro routed key owner isFound
    obtain ⟨before, notStale⟩ := (found key owner).1 isFound
    refine ⟨?_, before⟩
    rintro rfl
    obtain ⟨listed, isListed, member⟩ := routed key owner before
    cases same.symm.trans isListed
    exact notStale rfl member

/-- Reindexing leaves a call the keys it is given. -/
theorem applyAll_reindex (same : inner.indexed.get callRef = start.indexed.get callRef)
    (keys : List String) : Reindexed callRef keys inner (inner.applyAll (start.reindex callRef keys)) := by
  unfold reindex
  split_ifs with unchanged
  · obtain ⟨sipIndex, isApplied, found⟩ := applyAll_repoint inner keys callRef
    have listed : inner.indexed.get callRef = some keys := same.trans unchanged
    rw [isApplied]
    refine
      { calls := rfl, topologies := rfl, takeover := rfl, touched := rfl, uncounted := rfl,
        indexed := ?_, routed := ?_ }
    · intro other
      split_ifs with isCall
      · exact isCall ▸ listed
      · rfl
    · intro routed key owner isFound
      rw [withKeys, found] at isFound
      split_ifs at isFound with member
      · cases isFound
        exact ⟨keys, listed, member⟩
      · exact routed key owner isFound
  · obtain ⟨stale, lists, isDropped, listed, kept⟩ := applyAll_unindexOwned same
    rw [applyAll_append, applyAll_append, isDropped]
    obtain ⟨sipIndex, isApplied, found⟩ :=
      applyAll_point { inner with sipIndex := stale, indexed := lists } keys callRef
    rw [isApplied]
    have owned (other : String) : (lists.insert callRef keys).get other =
        if other = callRef then some keys else inner.indexed.get other := by
      rw [get_insert, listed]
      split <;> rfl
    refine
      { calls := rfl, topologies := rfl, takeover := rfl, touched := rfl, uncounted := rfl,
        indexed := owned, routed := ?_ }
    intro routed key owner isFound
    change sipIndex.get key = some owner at isFound
    change ∃ names, (lists.insert callRef keys).get owner = some names ∧ key ∈ names
    rw [owned]
    rw [found] at isFound
    split_ifs at isFound with member
    · cases isFound
      exact ⟨keys, if_pos rfl, member⟩
    · obtain ⟨differ, before⟩ := kept routed key owner isFound
      rw [if_neg differ]
      exact routed key owner before

theorem apply_place (inner : Inner Data) (callRef : String) (topology : Option CallTopology) :
    ∃ topologies, inner.apply (.place callRef topology) = { inner with topologies } ∧
      topologies.get callRef = topology := by
  cases topology with
  | none | some => exact ⟨_, rfl, by simp⟩

/-- A move of the tally that is none. -/
theorem apply_restate_same : inner.apply (.restateUncounted was was) = inner := by
  cases was <;> rfl

/-- The maps once a call and its envelope left. -/
def vacated (inner : Inner Data) (callRef : String) (uncounted : ℕ) : Inner Data :=
  { inner with calls := inner.calls.remove callRef, topologies := inner.topologies.remove callRef, uncounted }

theorem applyAll_evict : ∃ uncounted,
    inner.applyAll ([.evict callRef, .place callRef none] ++
      ((inner.calls.get callRef).map fun was => .restateUncounted was.runsUncounted false).toList) =
    inner.vacated callRef uncounted := by
  cases inner.calls.get callRef with
  | none => exact ⟨inner.uncounted, rfl⟩
  | some was =>
    rw [Option.map_some, Option.toList_some]
    cases was.runsUncounted
    · exact ⟨inner.uncounted, rfl⟩
    · exact ⟨inner.uncounted - 1, rfl⟩

/-! ### What holds between the blocks of an operation -/

/-- How many resident calls run uncounted. -/
def tally (inner : Inner Data) : ℕ := inner.calls.total fun call => call.runsUncounted.toNat

/-- The derived maps cover the call map: they may be ahead of it, never behind. -/
structure Covered (inner : Inner Data) : Prop where
  stamped : ∀ callRef, (inner.calls.get callRef).isSome → (inner.touched.get callRef).isSome
  listed : ∀ callRef, (inner.calls.get callRef).isSome → (inner.indexed.get callRef).isSome
  placed : ∀ callRef, (inner.topologies.get callRef).isSome → (inner.touched.get callRef).isSome
  routed : inner.Routed
  counted : inner.uncounted = inner.tally

namespace Covered

/-- A call's keys may be replaced. -/
theorem reindexed (covered : inner.Covered) (isReindexed : Reindexed callRef keys inner after) : after.Covered where
  stamped other resident := by
    rw [isReindexed.calls] at resident
    rw [isReindexed.touched]
    exact covered.stamped other resident
  listed other resident := by
    rw [isReindexed.calls] at resident
    rw [isReindexed.indexed]
    split
    · rfl
    · exact covered.listed other resident
  placed other placed := by
    rw [isReindexed.topologies] at placed
    rw [isReindexed.touched]
    exact covered.placed other placed
  routed := isReindexed.routed covered.routed
  counted := by
    rw [isReindexed.uncounted, tally, isReindexed.calls]
    exact covered.counted

/-- The keys of a call that is gone may go. -/
theorem unindexed (covered : inner.Covered)
    (same : inner.indexed.get callRef = start.indexed.get callRef) (gone : inner.calls.get callRef = none) :
    (inner.applyAll (start.unindexOwned callRef)).Covered := by
  obtain ⟨sipIndex, indexed, isApplied, lists, kept⟩ := applyAll_unindexOwned same
  rw [isApplied]
  refine { covered with listed := fun other resident => ?_, routed := fun key owner found => ?_ }
  · rw [lists, if_neg]
    · exact covered.listed other resident
    rintro rfl
    rw [gone] at resident
    cases resident
  · obtain ⟨differ, before⟩ := kept covered.routed key owner found
    rw [lists, if_neg differ]
    exact covered.routed key owner before

theorem isSome_insert {Value : Type} {entries : KeyMap String Value} {key : String} {value : Value}
    (stored : (entries.get other).isSome) : ((entries.insert key value).get other).isSome := by
  rw [get_insert]
  split
  · rfl
  · exact stored

theorem stamp (covered : inner.Covered) (callRef : String) (nowMs : ℤ) :
    (inner.apply (.stamp callRef nowMs)).Covered :=
  { covered with
    stamped := fun other resident => isSome_insert (covered.stamped other resident)
    placed := fun other placed => isSome_insert (covered.placed other placed) }

/-- An envelope may be placed where the call is stamped. -/
theorem place (covered : inner.Covered)
    (stamped : topology.isSome → (inner.touched.get callRef).isSome) :
    (inner.apply (.place callRef topology)).Covered := by
  cases topology with
  | some topology =>
    refine { covered with placed := fun other placed => ?_ }
    dsimp only [apply] at placed
    rw [get_insert] at placed
    split_ifs at placed with isCall
    · exact isCall ▸ stamped rfl
    · exact covered.placed other placed
  | none =>
    exact { covered with placed := fun other placed => covered.placed other (isSome_of_get_remove placed).2 }

/-- An envelope that stands may change. -/
theorem modify (covered : inner.Covered) (callRef : String) (change : CallTopology → CallTopology) :
    Covered { inner with topologies := inner.topologies.modify callRef change } := by
  refine { covered with placed := fun other placed => ?_ }
  refine covered.placed other ?_
  rw [get_modify] at placed
  split at placed
  · rwa [Option.isSome_map] at placed
  · exact placed

/-- A restatement moves the tally by the difference. -/
theorem restate (inner : Inner Data) (is : Bool) (enough : was.toNat ≤ inner.uncounted) :
    ∃ uncounted, inner.apply (.restateUncounted was is) = { inner with uncounted } ∧
      uncounted + was.toNat = inner.uncounted + is.toNat := by
  cases was <;> cases is
  · exact ⟨inner.uncounted, rfl, rfl⟩
  · exact ⟨inner.uncounted + 1, rfl, rfl⟩
  · exact ⟨inner.uncounted - 1, rfl, Nat.sub_add_cancel enough⟩
  · exact ⟨inner.uncounted, rfl, rfl⟩

/-- What a callRef holds counts in the tally. -/
theorem le_tally (inner : Inner Data) (callRef : String) :
    ((inner.calls.get callRef).any (·.runsUncounted)).toNat ≤ inner.tally := by
  cases stored : inner.calls.get callRef with
  | none => exact Nat.zero_le _
  | some call =>
    rw [tally, total_remove_of_get_eq_some _ stored]
    exact Nat.le_add_right _ _

/-- The tally moves with the call it is about. -/
theorem put (covered : inner.Covered) (stamped : (inner.touched.get call.callRef).isSome)
    (listed : (inner.indexed.get call.callRef).isSome) :
    (inner.applyAll [.restateUncounted ((inner.calls.get call.callRef).any (·.runsUncounted)) call.runsUncounted,
      .put call]).Covered := by
  have enough := covered.counted ▸ le_tally inner call.callRef
  obtain ⟨uncounted, isRestated, moved⟩ := restate inner call.runsUncounted enough
  have holds {Value : Type} {entries : KeyMap String Value} (here : (entries.get call.callRef).isSome)
      (others : ∀ other, (inner.calls.get other).isSome → (entries.get other).isSome) {other : String}
      (resident : ((inner.calls.insert call.callRef call).get other).isSome) : (entries.get other).isSome := by
    rw [get_insert] at resident
    split_ifs at resident with isCall
    · exact isCall ▸ here
    · exact others other resident
  have tallied : (inner.calls.insert call.callRef call).total (fun call => call.runsUncounted.toNat) +
      ((inner.calls.get call.callRef).any (·.runsUncounted)).toNat = inner.tally + call.runsUncounted.toNat := by
    cases stored : inner.calls.get call.callRef with
    | none =>
      rw [total_insert_of_none _ stored]
      exact (Nat.add_zero _).trans (Nat.add_comm _ _)
    | some old => exact total_replace (fun call => call.runsUncounted.toNat) stored call
  rw [applyAll_cons, isRestated]
  refine
    { stamped := fun other resident => holds stamped covered.stamped resident
      listed := fun other resident => holds listed covered.listed resident
      placed := covered.placed
      routed := covered.routed
      counted := ?_ }
  change uncounted = (inner.calls.insert call.callRef call).total _
  have counted := covered.counted
  omega

/-- A call leaves with its envelope, and the tally with it. -/
theorem evict (covered : inner.Covered) (callRef : String) :
    (inner.applyAll ([.evict callRef, .place callRef none] ++
      ((inner.calls.get callRef).map fun was => .restateUncounted was.runsUncounted false).toList)).Covered := by
  -- the maps but for the tally
  have left {uncounted : ℕ} (counted : uncounted = (inner.calls.remove callRef).total fun call =>
      call.runsUncounted.toNat) :
      (inner.vacated callRef uncounted).Covered := by
    exact
      { stamped := fun other resident => covered.stamped other (isSome_of_get_remove resident).2
        listed := fun other resident => covered.listed other (isSome_of_get_remove resident).2
        placed := fun other placed => covered.placed other (isSome_of_get_remove placed).2
        routed := covered.routed
        counted }
  have counted := covered.counted
  cases stored : inner.calls.get callRef with
  | none =>
    refine left ?_
    rw [remove_of_get_eq_none stored]
    exact counted
  | some was =>
    have total := total_remove_of_get_eq_some (fun call => call.runsUncounted.toNat) stored
    have enough : was.runsUncounted.toNat ≤ inner.uncounted := by
      rw [counted, tally, total]
      exact Nat.le_add_right _ _
    obtain ⟨uncounted, isRestated, moved⟩ :=
      restate (inner.vacated callRef inner.uncounted) false enough
    have restated : inner.applyAll ([.evict callRef, .place callRef none] ++
        [.restateUncounted was.runsUncounted false]) =
        inner.vacated callRef uncounted :=
      isRestated
    rw [Option.map_some, Option.toList_some, restated]
    refine left ?_
    rw [tally, total] at counted
    change uncounted + _ = inner.uncounted + 0 at moved
    omega

/-- A stamp may go once the call and its envelope are gone. -/
theorem unstamp (covered : inner.Covered) {callRef : String} (gone : inner.calls.get callRef = none)
    (unplaced : inner.topologies.get callRef = none) : (inner.apply (.unstamp callRef)).Covered := by
  have others {other : String} (differ : other ≠ callRef) (stamped : (inner.touched.get other).isSome) :
      ((inner.touched.remove callRef).get other).isSome := by
    rw [get_remove, if_neg differ]
    exact stamped
  refine
    { covered with
      stamped := fun other resident => others ?_ (covered.stamped other resident)
      placed := fun other placed => others ?_ (covered.placed other placed) }
  · rintro rfl
    change (inner.calls.get other).isSome at resident
    rw [gone] at resident
    cases resident
  · rintro rfl
    change (inner.topologies.get other).isSome at placed
    rw [unplaced] at placed
    cases placed

end Covered

/-! ### The blocks of an operation -/

/-- Writes that stand or fall together where the tally moves. -/
def together (moves : Bool) (writes : List (Write Data)) : List (List (Write Data)) :=
  if moves then [writes] else writes.map ([·])

theorem flatten_together {moves : Bool} : (together moves writes).flatten = writes := by
  unfold together
  split
  · exact List.append_nil writes
  · exact (List.flatMap_def ..).symm.trans (List.flatMap_singleton' writes)

/-- A call enters the map: its keys at once, and the call with the tally it moves. -/
def enterBlocks (inner : Inner Data) (call : ResidentCall Data) (topology : Option CallTopology) (nowMs : ℤ) :
    List (List (Write Data)) :=
  let was := (inner.calls.get call.callRef).any (·.runsUncounted)
  [inner.reindex call.callRef (callIndexKeys call), [.stamp call.callRef nowMs], [.place call.callRef topology]] ++
    together (was != call.runsUncounted) [.restateUncounted was call.runsUncounted, .put call]

def replaceBlocks (inner : Inner Data) (call : ResidentCall Data) : List (List (Write Data)) :=
  match inner.calls.get call.callRef with
  | none => []
  | some resident =>
    [inner.reindex call.callRef (callIndexKeys call),
      (if resident.runsUncounted ≠ call.runsUncounted then
        [.restateUncounted resident.runsUncounted call.runsUncounted] else []) ++ [.put call]]

/-- A call leaves the map: with the tally it moves, then its keys at once. -/
def dropBlocks (inner : Inner Data) (callRef : String) : List (List (Write Data)) :=
  together ((inner.calls.get callRef).any (·.runsUncounted)) ([.evict callRef, .place callRef none] ++
      ((inner.calls.get callRef).map (fun was => .restateUncounted was.runsUncounted false)).toList) ++
    [inner.unindexOwned callRef, [.unlock callRef], [.unmark callRef], [.unpark callRef], [.unstamp callRef]]

/-- The writes of an operation in the blocks that leave the derived maps covering the call map. -/
def blocks [DecidableEq Data] (selfOrdinal : String) (inner : Inner Data) : Operation Data → List (List (Write Data))
  | .create call topology nowMs => inner.enterBlocks call topology nowMs
  | .update call =>
    match inner.calls.get call.callRef with
    | none => []
    | some resident =>
      (if (inner.topologies.get call.callRef).isSome then
        [.bump call.callRef (partitionOf selfOrdinal call.callRef).1] ::
          if !resident.sameState call then [[.stampVector call.callRef]] else []
      else []) ++ inner.replaceBlocks call
  | .updateQuiet call => inner.replaceBlocks call
  | .updateEnveloped call topology =>
    if (inner.calls.get call.callRef).isSome then [.place call.callRef topology] :: inner.replaceBlocks call else []
  | .materializeIfAbsent call topology trace nowMs =>
    if (inner.calls.get call.callRef).isSome then [] else inner.enterBlocks (call.materialised trace) topology nowMs
  | .dropLocal callRef | .remove callRef => inner.dropBlocks callRef
  | .touch callRef nowMs => [inner.touch callRef nowMs]
  | .markTakeover callRef => [[.mark callRef]]

theorem flatten_replaceBlocks : (inner.replaceBlocks call).flatten = inner.replaceLocked call := by
  unfold replaceBlocks replaceLocked
  cases inner.calls.get call.callRef with
  | none => rfl
  | some resident => simp

theorem flatten_dropBlocks : (inner.dropBlocks callRef).flatten = inner.dropLocal callRef := by
  simp [dropBlocks, dropLocal, flatten_together]

theorem flatten_enterBlocks {nowMs : ℤ} :
    (inner.enterBlocks call topology nowMs).flatten = inner.create call topology nowMs := by
  simp [enterBlocks, create, flatten_together]

/-- The blocks of an operation are its writes, in order. -/
theorem flatten_blocks [DecidableEq Data] (selfOrdinal : String) (inner : Inner Data) (operation : Operation Data) :
    (inner.blocks selfOrdinal operation).flatten = inner.writes selfOrdinal operation := by
  cases operation with
  | create call topology nowMs => exact flatten_enterBlocks
  | update call =>
    dsimp only [blocks, writes, update]
    cases inner.calls.get call.callRef with
    | none => rfl
    | some resident =>
      rw [List.flatten_append, flatten_replaceBlocks]
      congr 1
      split
      · split <;> rfl
      · rfl
  | updateQuiet call => exact flatten_replaceBlocks
  | updateEnveloped call topology =>
    dsimp only [blocks, writes, updateEnveloped]
    split
    · rw [List.flatten_cons, flatten_replaceBlocks]
      rfl
    · rfl
  | materializeIfAbsent call topology trace nowMs =>
    dsimp only [blocks, writes, materializeIfAbsent]
    split_ifs with absent
    · rfl
    have none : inner.calls.get call.callRef = none := by simpa using absent
    rw [flatten_enterBlocks]
    simp [create, ResidentCall.materialised, none]
  | dropLocal | remove => exact flatten_dropBlocks
  | touch callRef nowMs => exact List.append_nil _
  | markTakeover callRef => rfl

/-- The maps are covered before, between and after blocks. -/
def CoveredThrough (inner : Inner Data) : List (List (Write Data)) → Prop
  | [] => inner.Covered
  | block :: blocks => inner.Covered ∧ (inner.applyAll block).CoveredThrough blocks

namespace CoveredThrough

theorem append {first second : List (List (Write Data))} (before : inner.CoveredThrough first)
    (later : (inner.applyAll first.flatten).CoveredThrough second) : inner.CoveredThrough (first ++ second) := by
  induction first generalizing inner with
  | nil => exact later
  | cons block first ih =>
    refine ⟨before.1, ih before.2 ?_⟩
    rw [List.flatten_cons, applyAll_append] at later
    exact later

/-- Every cut between two blocks is covered. -/
theorem take {blocks : List (List (Write Data))} (through : inner.CoveredThrough blocks) (made : ℕ) :
    (inner.applyAll (blocks.take made).flatten).Covered := by
  induction blocks generalizing inner made with
  | nil =>
    rw [List.take_nil]
    exact through
  | cons block blocks ih =>
    cases made with
    | zero => exact through.1
    | succ made =>
      rw [List.take_succ_cons, List.flatten_cons, applyAll_append]
      exact ih through.2 made

end CoveredThrough

namespace Covered

section

variable (covered : inner.Covered)

include covered

theorem put_through (stamped : (inner.touched.get call.callRef).isSome)
    (listed : (inner.indexed.get call.callRef).isSome)
    (isWas : (inner.calls.get call.callRef).any (·.runsUncounted) = was) :
    inner.CoveredThrough (together (was != call.runsUncounted)
      [.restateUncounted was call.runsUncounted, .put call]) := by
  subst isWas
  have whole := covered.put stamped listed
  unfold together
  split_ifs with same
  · exact ⟨covered, whole⟩
  have equal : (inner.calls.get call.callRef).any (·.runsUncounted) = call.runsUncounted := by simpa using same
  refine ⟨covered, ?_, whole⟩
  rw [equal, applyAll_cons, apply_restate_same]
  exact covered

/-- A call enters block by block. -/
theorem enter (call : ResidentCall Data) (topology : Option CallTopology) (nowMs : ℤ) :
    inner.CoveredThrough (inner.enterBlocks call topology nowMs) := by
  have reindexed := applyAll_reindex (rfl : inner.indexed.get call.callRef = _) (callIndexKeys call)
  unfold enterBlocks
  generalize inner.reindex call.callRef (callIndexKeys call) = index at reindexed ⊢
  have indexed := covered.reindexed reindexed
  have stamped := indexed.stamp call.callRef nowMs
  have isStamped : (((inner.applyAll index).apply (.stamp call.callRef nowMs)).touched.get call.callRef).isSome := by
    simp [apply]
  have isListed : ((inner.applyAll index).indexed.get call.callRef).isSome := by
    rw [reindexed.indexed, if_pos rfl]
    rfl
  have placed : (((inner.applyAll index).apply (.stamp call.callRef nowMs)).apply
    (.place call.callRef topology)).Covered :=
    stamped.place fun _ => isStamped
  refine CoveredThrough.append ⟨covered, indexed, stamped, placed⟩ ?_
  simp only [List.flatten_cons, List.flatten_nil, List.append_nil, applyAll_append]
  obtain ⟨topologies, isPlaced, _⟩ := apply_place ((inner.applyAll index).apply (.stamp call.callRef nowMs))
    call.callRef topology
  have state : ((inner.applyAll index).applyAll [.stamp call.callRef nowMs]).applyAll [.place call.callRef topology] =
      { (inner.applyAll index).apply (.stamp call.callRef nowMs) with topologies } := isPlaced
  rw [state]
  rw [isPlaced] at placed
  refine placed.put_through isStamped isListed ?_
  change ((inner.applyAll index).calls.get call.callRef).any _ = _
  rw [reindexed.calls]

/-- A resident call is replaced block by block. -/
theorem replace (calls : inner.calls = start.calls)
    (indexed : inner.indexed = start.indexed) (call : ResidentCall Data) :
    inner.CoveredThrough (start.replaceBlocks call) := by
  unfold replaceBlocks
  cases stored : start.calls.get call.callRef with
  | none => exact covered
  | some resident =>
    have reindexed := applyAll_reindex (congrArg (get · call.callRef) indexed) (callIndexKeys call)
    generalize start.reindex call.callRef (callIndexKeys call) = index at reindexed ⊢
    have isIndexed := covered.reindexed reindexed
    have isResident : (inner.applyAll index).calls.get call.callRef = some resident := by
      rw [reindexed.calls, calls, stored]
    have isStamped := isIndexed.stamped call.callRef (isResident ▸ rfl)
    have isListed := isIndexed.listed call.callRef (isResident ▸ rfl)
    refine ⟨covered, isIndexed, ?_⟩
    have put := isIndexed.put isStamped isListed
    rw [isResident] at put
    change ((inner.applyAll index).applyAll
      [.restateUncounted resident.runsUncounted call.runsUncounted, .put call]).Covered
      at put
    split_ifs with same
    · exact put
    rw [not_not.1 same, applyAll_cons, apply_restate_same] at put
    exact put

/-- A call that runs counted may leave ahead of its envelope. -/
theorem evict_counted
    (quiet : (inner.calls.get callRef).any (·.runsUncounted) = false) : (inner.apply (.evict callRef)).Covered := by
  refine
    { covered with
      stamped := fun other resident => covered.stamped other (isSome_of_get_remove resident).2
      listed := fun other resident => covered.listed other (isSome_of_get_remove resident).2
      counted := covered.counted.trans ?_ }
  change inner.calls.total _ = (inner.calls.remove callRef).total _
  cases stored : inner.calls.get callRef with
  | none => rw [remove_of_get_eq_none stored]
  | some was =>
    rw [stored] at quiet
    change was.runsUncounted = false at quiet
    rw [total_remove_of_get_eq_some _ stored, quiet]
    exact Nat.zero_add _

/-- A call leaves block by block. -/
theorem drop (callRef : String) : inner.CoveredThrough (inner.dropBlocks callRef) := by
  have whole := covered.evict callRef
  obtain ⟨uncounted, isEvicted⟩ := applyAll_evict
  unfold dropBlocks
  refine CoveredThrough.append ?_ ?_
  · unfold together
    split_ifs with counted
    · exact ⟨covered, whole⟩
    have quiet := Bool.eq_false_of_not_eq_true counted
    have evicted := covered.evict_counted quiet
    have placed : ((inner.apply (.evict callRef)).apply (.place callRef none)).Covered := evicted.place (by simp)
    cases stored : inner.calls.get callRef with
    | none => exact ⟨covered, evicted, placed⟩
    | some was =>
      rw [stored] at quiet whole
      exact ⟨covered, evicted, placed, whole⟩
  · rw [flatten_together]
    rw [isEvicted] at whole ⊢
    have gone : (inner.calls.remove callRef).get callRef = none := by simp
    have unplaced : (inner.topologies.remove callRef).get callRef = none := by simp
    have unindexed := whole.unindexed (rfl : inner.indexed.get callRef = _) gone
    obtain ⟨sipIndex, indexed, isApplied, _⟩ := @applyAll_unindexOwned _ (inner.vacated callRef uncounted) inner _ rfl
    refine ⟨whole, unindexed, ?_⟩
    rw [isApplied] at unindexed ⊢
    refine ⟨{ unindexed with }, { unindexed with }, { unindexed with }, ?_⟩
    refine @unstamp _ _ ?_ callRef gone unplaced
    exact { unindexed with }

end

variable [DecidableEq Data]

/-- Between the blocks of any operation the derived maps cover the call map. -/
theorem through (covered : inner.Covered) (selfOrdinal : String) (operation : Operation Data) :
    inner.CoveredThrough (inner.blocks selfOrdinal operation) := by
  cases operation with
  | create call topology nowMs => exact covered.enter call topology nowMs
  | update call =>
    dsimp only [blocks]
    cases stored : inner.calls.get call.callRef with
    | none => exact covered
    | some resident =>
      dsimp only
      split
      · have bumped : (inner.apply (.bump call.callRef (partitionOf selfOrdinal call.callRef).1)).Covered :=
          covered.modify call.callRef _
        split
        · have stamped := bumped.modify call.callRef (·.stampVector)
          exact ⟨covered, bumped, stamped.replace rfl rfl call⟩
        · exact ⟨covered, bumped.replace rfl rfl call⟩
      · exact covered.replace rfl rfl call
  | updateQuiet call => exact covered.replace rfl rfl call
  | updateEnveloped call topology =>
    dsimp only [blocks]
    split_ifs with resident
    · have placed : (inner.apply (.place call.callRef topology)).Covered :=
        covered.place fun _ => covered.stamped call.callRef resident
      obtain ⟨topologies, isPlaced, _⟩ := apply_place inner call.callRef topology
      refine ⟨covered, placed.replace ?_ ?_ call⟩
      · rw [isPlaced]
      · rw [isPlaced]
    · exact covered
  | materializeIfAbsent call topology trace nowMs =>
    dsimp only [blocks]
    split
    · exact covered
    · exact covered.enter (call.materialised trace) topology nowMs
  | dropLocal callRef | remove callRef => exact covered.drop callRef
  | touch callRef nowMs =>
    dsimp only [blocks, touch]
    split
    · exact ⟨covered, covered.stamp callRef _⟩
    · exact ⟨covered, covered⟩
  | markTakeover callRef => exact ⟨covered, { covered with }⟩

theorem perform (covered : inner.Covered) (selfOrdinal : String) (operation : Operation Data) :
    (inner.perform selfOrdinal operation).Covered := by
  have whole := (covered.through selfOrdinal operation).take (inner.blocks selfOrdinal operation).length
  rw [List.take_length, flatten_blocks] at whole
  exact whole

end Covered

/-! ### One call's operation and the others -/

end Inner

/-- The call a write is about; the tally is about none. -/
def Write.about {Data : Type} : Write Data → Option String
  | .point _ callRef | .repoint _ callRef | .unpoint _ callRef | .own callRef _ | .disown callRef | .stamp callRef _
  | .unstamp callRef | .place callRef _ | .bump callRef _ | .stampVector callRef | .evict callRef | .unlock callRef
  | .mark callRef | .unmark callRef | .unpark callRef => some callRef
  | .put call => some call.callRef
  | .restateUncounted _ _ => none

/-- The call an operation is about. -/
def Operation.about {Data : Type} : Operation Data → String
  | .create call _ _ | .update call | .updateQuiet call | .updateEnveloped call _ | .materializeIfAbsent call _ _ _ =>
    call.callRef
  | .dropLocal callRef | .remove callRef | .touch callRef _ | .markTakeover callRef => callRef

namespace Inner

variable {Data : Type} {inner after : Inner Data} {callRef : String} {operation : Operation Data} {write : Write Data}

/-- A call's entries are as they were. -/
structure SameAt (callRef : String) (before after : Inner Data) : Prop where
  calls : after.calls.get callRef = before.calls.get callRef
  indexed : after.indexed.get callRef = before.indexed.get callRef
  touched : after.touched.get callRef = before.touched.get callRef
  takeover : callRef ∈ after.takeover ↔ callRef ∈ before.takeover

namespace SameAt

theorem refl (callRef : String) (inner : Inner Data) : SameAt callRef inner inner := ⟨rfl, rfl, rfl, Iff.rfl⟩

theorem trans {before middle : Inner Data} (first : SameAt callRef before middle)
    (second : SameAt callRef middle after) : SameAt callRef before after :=
  ⟨second.calls.trans first.calls, second.indexed.trans first.indexed, second.touched.trans first.touched,
    second.takeover.trans first.takeover⟩

theorem apply (foreign : write.about ≠ some other) (inner : Inner Data) :
    SameAt other inner (inner.apply write) := by
  have differ {callRef : String} (about : write.about = some callRef) : other ≠ callRef :=
    fun same => foreign (same ▸ about)
  cases write with
  | own | disown => exact { refl other inner with indexed := by simp [apply, differ rfl] }
  | stamp | unstamp => exact { refl other inner with touched := by simp [apply, differ rfl] }
  | put | evict => exact { refl other inner with calls := by simp [apply, differ rfl] }
  | mark | unmark => exact { refl other inner with takeover := by simp [apply, differ rfl] }
  | place callRef topology =>
    obtain ⟨topologies, isPlaced, _⟩ := apply_place inner callRef topology
    rw [isPlaced]
    exact { refl other inner with }
  | repoint | unpoint =>
    dsimp only [apply]
    split <;> exact { refl other inner with }
  | restateUncounted was is => cases was <;> cases is <;> exact { refl other inner with }
  | point | bump | stampVector | unlock | unpark => exact { refl other inner with }

theorem applyAll {writes : List (Write Data)} (foreign : ∀ write ∈ writes, write.about ≠ some other)
    (inner : Inner Data) : SameAt other inner (inner.applyAll writes) := by
  induction writes generalizing inner with
  | nil => exact refl other inner
  | cons write writes ih =>
    refine (apply (foreign write List.mem_cons_self) inner).trans ?_
    exact ih (fun later member => foreign later (List.mem_cons_of_mem _ member)) _

end SameAt

/-- Writes about one call, or the tally. -/
def About (callRef : String) (writes : List (Write Data)) : Prop :=
  ∀ write ∈ writes, write.about = some callRef ∨ write.about = none

namespace About

variable {callRef : String} {first second : List (Write Data)}

theorem nil (callRef : String) : About callRef ([] : List (Write Data)) := List.forall_mem_nil _

theorem cons (here : write.about = some callRef ∨ write.about = none) (later : About callRef first) :
    About callRef (write :: first) := by
  intro other member
  obtain rfl | isLater := List.mem_cons.1 member
  · exact here
  · exact later other isLater

theorem append (left : About callRef first) (right : About callRef second) : About callRef (first ++ second) :=
  fun write member => (List.mem_append.1 member).elim (left write) (right write)

theorem map {write : String → Write Data} (about : ∀ key, (write key).about = some callRef) :
    About callRef (keys.map write) := by
  intro other member
  obtain ⟨key, _, rfl⟩ := List.mem_map.1 member
  exact .inl (about key)

theorem unindexOwned (inner : Inner Data) (callRef : String) : About callRef (inner.unindexOwned callRef) := by
  unfold Inner.unindexOwned
  split
  · exact .cons (.inl rfl) (.map fun _ => rfl)
  · exact .nil callRef

theorem reindex (inner : Inner Data) (callRef : String) (keys : List String) :
    About callRef (inner.reindex callRef keys) := by
  unfold Inner.reindex
  split
  · exact .map fun _ => rfl
  · exact ((unindexOwned inner callRef).append (.map fun _ => rfl)).append (.cons (.inl rfl) (.nil callRef))

theorem enters (inner : Inner Data) (call : ResidentCall Data) (topology : Option CallTopology) (nowMs : ℤ)
    (was : Bool) : About call.callRef (inner.reindex call.callRef (callIndexKeys call) ++
      [.stamp call.callRef nowMs, .place call.callRef topology, .restateUncounted was call.runsUncounted,
        .put call]) :=
  (reindex inner call.callRef _).append
    (.cons (.inl rfl) (.cons (.inl rfl) (.cons (.inr rfl) (.cons (.inl rfl) (.nil _)))))

theorem replaceLocked (inner : Inner Data) (call : ResidentCall Data) :
    About call.callRef (inner.replaceLocked call) := by
  unfold Inner.replaceLocked
  split
  · exact .nil _
  refine ((reindex inner call.callRef _).append ?_).append (.cons (.inl rfl) (.nil _))
  split
  · exact .cons (.inr rfl) (.nil _)
  · exact .nil _

theorem dropLocal (inner : Inner Data) (callRef : String) : About callRef (inner.dropLocal callRef) := by
  unfold Inner.dropLocal
  refine (((cons (.inl rfl) (.cons (.inl rfl) (.nil _))).append ?_).append (unindexOwned inner callRef)).append
    (.cons (.inl rfl) (.cons (.inl rfl) (.cons (.inl rfl) (.cons (.inl rfl) (.nil _)))))
  cases inner.calls.get callRef with
  | none => exact .nil _
  | some was => exact .cons (.inr rfl) (.nil _)

/-- An operation writes about the call it names, or about none. -/
theorem writes [DecidableEq Data] (selfOrdinal : String) (inner : Inner Data) (operation : Operation Data) :
    About operation.about (inner.writes selfOrdinal operation) := by
  cases operation with
  | create call topology nowMs => exact enters inner call topology nowMs _
  | update call =>
    dsimp only [Inner.writes, update]
    split
    · exact .nil _
    refine .append ?_ (replaceLocked inner call)
    split
    · refine .cons (.inl rfl) ?_
      split
      · exact .cons (.inl rfl) (.nil _)
      · exact .nil _
    · exact .nil _
  | updateQuiet call => exact replaceLocked inner call
  | updateEnveloped call topology =>
    dsimp only [Inner.writes, updateEnveloped]
    split
    · exact .cons (.inl rfl) (replaceLocked inner call)
    · exact .nil _
  | materializeIfAbsent call topology trace nowMs =>
    dsimp only [Inner.writes, Inner.materializeIfAbsent]
    split
    · exact .nil _
    · exact enters inner (call.materialised trace) topology nowMs false
  | dropLocal callRef | remove callRef => exact dropLocal inner callRef
  | touch callRef nowMs =>
    dsimp only [Inner.writes, Inner.touch]
    split
    · exact .cons (.inl rfl) (.nil _)
    · exact .nil _
  | markTakeover callRef => exact .cons (.inl rfl) (.nil _)

end About

/-- An operation leaves every other call's entries as they were. -/
theorem perform_sameAt [DecidableEq Data]
    (differ : operation.about ≠ other) : SameAt other inner (inner.perform selfOrdinal operation) := by
  refine SameAt.applyAll (fun write member isOther => ?_) inner
  obtain about | none := About.writes selfOrdinal inner operation write member
  · exact differ (Option.mem_unique about isOther)
  · cases none.symm.trans isOther

/-! ### Completed operations -/

/-- The derived maps hold no more than the call map. -/
def Tight (inner : Inner Data) (callRef : String) : Prop :=
  (inner.touched.get callRef).isSome ∨ (inner.indexed.get callRef).isSome ∨ callRef ∈ inner.takeover →
    (inner.calls.get callRef).isSome

theorem Tight.same (tight : inner.Tight callRef) (same : SameAt callRef inner after) :
    after.Tight callRef := by
  unfold Tight
  rw [same.touched, same.indexed, same.takeover, same.calls]
  exact tight

theorem tight_put : (inner.apply (.put call)).Tight call.callRef := by
  intro _
  simp [apply]

theorem tight_replaceLocked {start : Inner Data} (tight : inner.Tight call.callRef) :
    (inner.applyAll (start.replaceLocked call)).Tight call.callRef := by
  unfold replaceLocked
  split
  · exact tight
  rw [applyAll_append]
  exact tight_put

theorem tight_dropLocal {callRef : String} : (inner.applyAll (inner.dropLocal callRef)).Tight callRef := by
  obtain ⟨uncounted, isEvicted⟩ := applyAll_evict
  obtain ⟨sipIndex, indexed, isApplied, lists, _⟩ :=
    @applyAll_unindexOwned _ (inner.vacated callRef uncounted) inner _ rfl
  unfold dropLocal
  rw [applyAll_append, applyAll_append, isEvicted, isApplied]
  simp [Tight, applyAll, apply, lists]

/-- What a call's entries are after an operation on it. -/
theorem tight_perform [DecidableEq Data] (tight : inner.Tight operation.about)
    (marks : ∀ callRef, operation = .markTakeover callRef → (inner.calls.get callRef).isSome) :
    (inner.perform selfOrdinal operation).Tight operation.about := by
  unfold perform
  cases operation with
  | create call topology nowMs =>
    dsimp only [writes, create]
    rw [applyAll_append]
    exact tight_put
  | update call =>
    dsimp only [writes, update]
    split
    · exact tight
    split
    · rw [applyAll_append]
      refine tight_replaceLocked ?_
      split <;> exact tight
    · exact tight_replaceLocked tight
  | updateQuiet call => exact tight_replaceLocked tight
  | updateEnveloped call topology =>
    dsimp only [writes, updateEnveloped]
    split
    · obtain ⟨topologies, isPlaced, _⟩ := apply_place inner call.callRef topology
      rw [applyAll_cons, isPlaced]
      exact tight_replaceLocked tight
    · exact tight
  | materializeIfAbsent call topology trace nowMs =>
    dsimp only [writes, materializeIfAbsent]
    split
    · exact tight
    rw [applyAll_append]
    exact tight_put
  | dropLocal | remove => exact tight_dropLocal
  | touch callRef nowMs =>
    dsimp only [writes, touch]
    split_ifs with resident
    · exact fun _ => resident
    · exact tight
  | markTakeover callRef => exact fun _ => marks callRef rfl

/-- The call map and its derived maps agree. -/
structure Agrees (inner : Inner Data) : Prop where
  touched : ∀ callRef, (inner.touched.get callRef).isSome ↔ (inner.calls.get callRef).isSome
  indexed : ∀ callRef, (inner.indexed.get callRef).isSome ↔ (inner.calls.get callRef).isSome
  topologies : ∀ callRef, (inner.topologies.get callRef).isSome → (inner.calls.get callRef).isSome
  takeover : ∀ callRef ∈ inner.takeover, (inner.calls.get callRef).isSome
  /-- A routing key resolves to a resident call whose key list contains it. -/
  routes : ∀ key callRef, inner.sipIndex.get key = some callRef →
    (inner.calls.get callRef).isSome ∧ ∃ keys, inner.indexed.get callRef = some keys ∧ key ∈ keys
  uncounted : inner.uncounted = inner.calls.total fun call => if call.runsUncounted then 1 else 0

theorem tally_eq (inner : Inner Data) :
    inner.tally = inner.calls.total fun call => if call.runsUncounted then 1 else 0 := by
  refine congrArg (total · inner.calls) (funext fun call => ?_)
  cases call.runsUncounted <;> rfl

/-- Agreement is cover, tight at every call. -/
theorem agrees_iff : inner.Agrees ↔ inner.Covered ∧ ∀ callRef, inner.Tight callRef := by
  constructor
  · intro agrees
    refine ⟨⟨fun callRef => (agrees.touched callRef).2, fun callRef => (agrees.indexed callRef).2,
      fun callRef placed => (agrees.touched callRef).2 (agrees.topologies callRef placed),
      fun key callRef found => (agrees.routes key callRef found).2, agrees.uncounted.trans inner.tally_eq.symm⟩, ?_⟩
    rintro callRef (stamped | listed | marked)
    · exact (agrees.touched callRef).1 stamped
    · exact (agrees.indexed callRef).1 listed
    · exact agrees.takeover callRef marked
  · rintro ⟨covered, tight⟩
    refine
      { touched := fun callRef => ⟨fun stamped => tight callRef (.inl stamped), covered.stamped callRef⟩
        indexed := fun callRef => ⟨fun listed => tight callRef (.inr (.inl listed)), covered.listed callRef⟩
        topologies := fun callRef placed => tight callRef (.inl (covered.placed callRef placed))
        takeover := fun callRef marked => tight callRef (.inr (.inr marked))
        routes := fun key callRef found => ?_
        uncounted := covered.counted.trans inner.tally_eq }
    obtain ⟨keys, listed, member⟩ := covered.routed key callRef found
    exact ⟨tight callRef (.inr (.inl (listed ▸ rfl))), keys, listed, member⟩

variable [DecidableEq Data]

/-- The operations as they complete. -/
def completes (selfOrdinal : String) (inner : Inner Data) (operation : Operation Data) : Option (Inner Data) :=
  some (inner.perform selfOrdinal operation)

/-- A takeover mark is set on a resident call, as the router sets it on the copy it just materialised. -/
def MarksResident (inner : Inner Data) (operation : Operation Data) : Prop :=
  ∀ callRef, operation = .markTakeover callRef → (inner.calls.get callRef).isSome

/-- A completed operation keeps the maps in agreement. -/
theorem Agrees.perform (agrees : inner.Agrees) (selfOrdinal : String)
    (marks : inner.MarksResident operation) : (inner.perform selfOrdinal operation).Agrees := by
  obtain ⟨covered, tight⟩ := agrees_iff.1 agrees
  refine agrees_iff.2 ⟨covered.perform selfOrdinal operation, fun callRef => ?_⟩
  by_cases own : operation.about = callRef
  · subst own
    exact tight_perform (tight _) marks
  · exact (tight callRef).same (perform_sameAt own)

omit [DecidableEq Data] in
theorem agrees_new : (new : Inner Data).Agrees := by
  constructor <;> simp [new]

/-- After every sequence of completed operations the call map and its derived maps agree. -/
theorem maps_agree {selfOrdinal : String} {operations : List (Operation Data)} {final : Inner Data}
    (marks : AllSteps (completes selfOrdinal) MarksResident .new operations)
    (ran : run (completes selfOrdinal) .new operations = some final) : final.Agrees := by
  refine run_invariant_of_steps Agrees ?_ marks ran agrees_new
  intro state operation next agrees marks stepped
  cases stepped
  exact agrees.perform selfOrdinal marks

/-- A call that runs on a set the limiter does not hold. -/
def uncountedCall (callRef : String) : ResidentCall Unit :=
  { (default : ResidentCall Unit) with
    callRef
    index := ⟨⟨[], ['i', 'd'], none, []⟩, ['t', 'a', 'g'], [], none⟩
    record := { (default : Call.Record Unit) with
      limiter := { (default : Call.CallLimiterState) with target := [default] } } }

/-- Two calls of one identity: the second takes the routing key over, is marked a takeover copy, and
    leaves. -/
def sharedKey : List (Operation Unit) :=
  [.create (uncountedCall "one") none 0, .create (uncountedCall "two") none 1, .markTakeover "two",
    .update (uncountedCall "one"), .dropLocal "two"]

theorem maps_agree_shared_key :
    ∃ final, run (completes "w1") .new sharedKey = some final ∧ final.Agrees ∧
      final.sipIndex.get "a:id|tag" = some "one" ∧ final.uncounted = 1 := by
  refine ⟨_, rfl, ?_, rfl, rfl⟩
  refine @maps_agree _ _ "w1" sharedKey _ ?_ rfl
  refine .cons ?_ rfl (.cons ?_ rfl (.cons ?_ rfl (.cons ?_ rfl (.cons ?_ rfl trivial)))) <;> intro callRef isMark
  · cases isMark
  · cases isMark
  · cases isMark
    rfl
  · cases isMark
  · cases isMark

end Inner

end SipServer.Store
