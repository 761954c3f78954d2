/-
Module: SipServer.Lib.KeyMap
Purpose: Finite maps with decidable keys: lookups after each update, and sums over the stored
  values.
-/
import Mathlib.Data.List.AList
import Mathlib.Algebra.Order.BigOperators.Group.List
import Mathlib.Algebra.GroupWithZero.Nat
import Mathlib.Algebra.Order.Group.Nat

namespace SipServer.Lib

/-!
A finite map is Mathlib's association list with unique keys. Clients see it through `get`, and every
update is characterised by what `get` answers afterwards.
-/

/-- A finite map from keys to values. -/
abbrev KeyMap (Key Value : Type*) := AList (fun _ : Key => Value)

namespace KeyMap

variable {Key Value : Type*}

/-- The sum of a weight over every stored value. -/
def total (weight : Value → ℕ) (entries : KeyMap Key Value) : ℕ :=
  (entries.entries.map (fun entry => weight entry.2)).sum

/-- How many keys are stored. -/
def size (entries : KeyMap Key Value) : ℕ := entries.keys.length

@[simp] theorem total_empty (weight : Value → ℕ) : total weight (∅ : KeyMap Key Value) = 0 := rfl

variable [DecidableEq Key] {entries : KeyMap Key Value} {key : Key} {value : Value} {Other : Type*}

/-- The value stored under a key. -/
def get (entries : KeyMap Key Value) (key : Key) : Option Value :=
  entries.lookup key

/-- Store a value under a key, over whatever the key held. -/
def insert (entries : KeyMap Key Value) (key : Key) (value : Value) : KeyMap Key Value :=
  AList.insert key value entries

/-- Forget a key. -/
def remove (entries : KeyMap Key Value) (key : Key) : KeyMap Key Value :=
  AList.erase key entries

@[simp] theorem get_empty (key : Key) : (∅ : KeyMap Key Value).get key = none := rfl

@[simp] theorem get_insert (entries : KeyMap Key Value) (key other : Key) (value : Value) :
    (entries.insert key value).get other =
      if other = key then some value else entries.get other := by
  by_cases same : other = key
  · subst same
    simp [get, insert]
  · simp [get, insert, same]

@[simp] theorem get_remove (entries : KeyMap Key Value) (key other : Key) :
    (entries.remove key).get other = if other = key then none else entries.get other := by
  by_cases same : other = key
  · subst same
    simp [get, remove]
  · simp [get, remove, same]

/-- What is found after an insertion is the value inserted, or was there before. -/
theorem of_get_insert {other : Key} {stored : Value}
    (found : (entries.insert key value).get other = some stored) :
    (other = key ∧ value = stored) ∨ other ≠ key ∧ entries.get other = some stored := by
  rw [get_insert] at found
  split at found
  · rename_i same
    exact .inl ⟨same, Option.some.inj found⟩
  · rename_i apart
    exact .inr ⟨apart, found⟩

/-- What is found after a removal was there before, under another key. -/
theorem of_get_remove {other : Key} (found : (entries.remove key).get other = some value) :
    other ≠ key ∧ entries.get other = some value := by
  rw [get_remove] at found
  split at found
  · cases found
  · rename_i apart
    exact ⟨apart, found⟩

theorem isSome_of_get_remove {other : Key} (held : ((entries.remove key).get other).isSome) :
    other ≠ key ∧ (entries.get other).isSome := by
  obtain ⟨value, found⟩ := Option.isSome_iff_exists.mp held
  exact ⟨(of_get_remove found).1, Option.isSome_of_mem (of_get_remove found).2⟩

theorem mem_keys_of_get (found : entries.get key = some value) : key ∈ entries.keys :=
  AList.lookup_isSome.1 (Option.isSome_of_mem found)

/-- Change the value a key holds, if it holds one. -/
def modify (entries : KeyMap Key Value) (key : Key) (change : Value → Value) : KeyMap Key Value :=
  match entries.get key with
  | some value => entries.insert key (change value)
  | none => entries

@[simp] theorem get_modify (entries : KeyMap Key Value) (key other : Key) (change : Value → Value) :
    (entries.modify key change).get other =
      if other = key then (entries.get other).map change else entries.get other := by
  unfold modify
  cases stored : entries.get key with
  | none =>
    dsimp only
    split
    · rename_i same
      rw [same, stored]
      rfl
    · rfl
  | some value =>
    rw [get_insert]
    split
    · rename_i same
      rw [same, stored]
      rfl
    · rfl

/-- A property of every stored pair. -/
def Each (entries : KeyMap Key Value) (property : Key → Value → Prop) : Prop :=
  ∀ key value, entries.get key = some value → property key value

namespace Each

variable {entries : KeyMap Key Value} {property weaker : Key → Value → Prop}

theorem empty : (∅ : KeyMap Key Value).Each property := by
  intro key value found
  cases found

theorem insert (each : entries.Each property)
    (holds : property key value) : (entries.insert key value).Each property := by
  intro other stored found
  rcases of_get_insert found with ⟨same, rfl⟩ | ⟨-, found⟩
  · exact same ▸ holds
  · exact each other stored found

theorem remove (each : entries.Each property) (key : Key) : (entries.remove key).Each property := by
  intro other stored found
  obtain ⟨-, found⟩ := of_get_remove found
  exact each other stored found

theorem mono (each : entries.Each property)
    (implies : ∀ key value, entries.get key = some value → property key value →
      weaker key value) : entries.Each weaker :=
  fun key value found => implies key value found (each key value found)

/-- A property of keys that fails at most at one key the map does not hold. -/
theorem mono_of_absent (each : entries.Each property) {absent : Key} (notStored : entries.get absent = none)
    (implies : ∀ key value, key ≠ absent → property key value → weaker key value) :
    entries.Each weaker := by
  refine each.mono ?_
  intro key value found holds
  refine implies key value ?_ holds
  rintro rfl
  rw [notStored] at found
  cases found

end Each

omit [DecidableEq Key] in
theorem keys_filterMap_sublist (change : Key → Value → Option Other)
    (entries : List (Sigma fun _ : Key => Value)) : List.Sublist (entries.filterMap fun entry =>
      (change entry.1 entry.2).map (Sigma.mk (β := fun _ => Other) entry.1)).keys entries.keys := by
  induction entries with
  | nil => exact List.Sublist.slnil
  | cons entry entries hypothesis =>
    rw [List.filterMap_cons, List.keys_cons]
    cases change entry.1 entry.2 with
    | none => exact hypothesis.cons entry.1
    | some other => exact hypothesis.cons_cons entry.1

/-- Keep the keys `change` answers a value for, under that value. -/
def filterMap {Other : Type*} (entries : KeyMap Key Value) (change : Key → Value → Option Other) :
    KeyMap Key Other where
  entries := entries.entries.filterMap fun entry =>
    (change entry.1 entry.2).map (Sigma.mk (β := fun _ => Other) entry.1)
  nodupKeys := List.Nodup.sublist (keys_filterMap_sublist change entries.entries) entries.nodupKeys

@[simp] theorem get_filterMap (entries : KeyMap Key Value) (change : Key → Value → Option Other)
    (key : Key) : (entries.filterMap change).get key = (entries.get key).bind (change key) := by
  obtain ⟨stored, nodup⟩ := entries
  show List.dlookup (β := fun _ => Other) key (stored.filterMap _) =
    (List.dlookup key stored).bind (change key)
  induction stored with
  | nil => rfl
  | cons entry stored hypothesis =>
    obtain ⟨other, value⟩ := entry
    have rest := hypothesis (List.nodupKeys_cons.1 nodup).2
    have fresh : other ∉ stored.keys := (List.nodupKeys_cons.1 nodup).1
    by_cases same : key = other
    · subst same
      rw [List.dlookup_cons_eq, List.filterMap_cons, Option.bind_some]
      cases change key value with
      | some changed => exact List.dlookup_cons_eq (β := fun _ => Other) _ key changed
      | none =>
        dsimp only [Option.map_none]
        rw [rest, List.dlookup_eq_none.2 fresh]
        rfl
    · rw [List.dlookup_cons_ne _ _ same, List.filterMap_cons, ← rest]
      cases change other value with
      | none => rfl
      | some changed => exact List.dlookup_cons_ne _ _ same

theorem remove_of_get_eq_none (absent : entries.get key = none) : entries.remove key = entries := by
  have fresh : key ∉ entries.keys := AList.lookup_eq_none.1 absent
  exact AList.ext (List.kerase_of_notMem_keys fresh)

/-- Storing a value adds its weight to what the other keys weigh. -/
theorem total_insert (entries : KeyMap Key Value) (key : Key) (value : Value) (weight : Value → ℕ) :
    (entries.insert key value).total weight = weight value + (entries.remove key).total weight := by
  have inserted :
      (entries.insert key value).entries = ⟨key, value⟩ :: List.kerase key entries.entries := rfl
  have removed : (entries.remove key).entries = List.kerase key entries.entries := rfl
  simp [total, inserted, removed]

/-- Removing a stored key takes exactly its weight from the total. -/
theorem total_remove_of_get_eq_some (weight : Value → ℕ) (stored : entries.get key = some value) :
    entries.total weight = weight value + (entries.remove key).total weight := by
  have entriesSplit :
      entries.entries.Perm (⟨key, value⟩ :: List.kerase key entries.entries) := by
    have member : (⟨key, value⟩ : Sigma fun _ : Key => Value) ∈ entries.entries :=
      AList.mem_lookup_iff.1 stored
    have nodup := entries.nodupKeys
    generalize entries.entries = stored at member nodup
    induction stored with
    | nil => simp at member
    | cons head tail ih =>
      rcases List.mem_cons.1 member with rfl | inTail
      · simp
      have keyNe : key ≠ head.1 := by
        intro same
        have inKeys : key ∈ List.keys tail := List.mem_keys_of_mem inTail
        exact (List.nodupKeys_cons.1 nodup).1 (same ▸ inKeys)
      rw [List.kerase_cons_ne keyNe]
      exact ((ih inTail (List.nodupKeys_cons.1 nodup).2).cons head).trans
        (List.Perm.swap _ _ _)
  have removed : (entries.remove key).entries = List.kerase key entries.entries := rfl
  rw [total, total, removed]
  simpa using (entriesSplit.map (fun entry => weight entry.2)).sum_eq

/-- Replacing a stored value exchanges its weight. -/
theorem total_replace {old : Value} (weight : Value → ℕ) (stored : entries.get key = some old)
    (value : Value) :
    (entries.insert key value).total weight + weight old = entries.total weight + weight value := by
  rw [total_insert, total_remove_of_get_eq_some weight stored]
  omega

/-- A positive total has a stored value of positive weight. -/
theorem exists_of_total_pos {weight : Value → ℕ} (positive : 0 < entries.total weight) :
    ∃ key value, entries.get key = some value ∧ 0 < weight value := by
  by_contra none
  push Not at none
  have zero : ∀ amount ∈ entries.entries.map (fun entry => weight entry.2), amount = 0 := by
    intro amount member
    obtain ⟨entry, inEntries, rfl⟩ := List.mem_map.1 member
    have stored : entries.get entry.1 = some entry.2 := AList.mem_lookup_iff.2 inEntries
    exact Nat.le_zero.1 (none entry.1 entry.2 stored)
  rw [total, List.sum_eq_zero zero] at positive
  exact Nat.lt_irrefl 0 positive

theorem total_eq_zero (weight : Value → ℕ) (none : ∀ key, entries.get key = none) :
    entries.total weight = 0 := by
  by_contra positive
  obtain ⟨key, value, stored, -⟩ := exists_of_total_pos (Nat.pos_of_ne_zero positive)
  rw [none key] at stored
  cases stored

/-- A weight at most another on every stored value is at most it in total. -/
theorem total_le_total {light heavy : Value → ℕ}
    (below : ∀ key value, entries.get key = some value → light value ≤ heavy value) :
    entries.total light ≤ entries.total heavy := by
  apply List.sum_le_sum
  intro entry member
  exact below entry.1 entry.2 (AList.mem_lookup_iff.2 member)

/-- Storing a value under a key that held none adds its weight. -/
theorem total_insert_of_none (weight : Value → ℕ) (absent : entries.get key = none) (value : Value) :
    (entries.insert key value).total weight = weight value + entries.total weight := by
  rw [total_insert, remove_of_get_eq_none absent]

theorem mem_keys_iff : key ∈ entries.keys ↔ (entries.get key).isSome :=
  AList.lookup_isSome.symm

/-- A map whose keys another holds, and that stores as many, holds every key of it. -/
theorem isSome_of_size_le {left : KeyMap Key Value} {right : KeyMap Key Other}
    (within : ∀ key, (left.get key).isSome → (right.get key).isSome) (size : right.size ≤ left.size)
    (stored : (right.get key).isSome) : (left.get key).isSome := by
  have subset : left.keys ⊆ right.keys :=
    fun key member => mem_keys_iff.2 (within key (mem_keys_iff.1 member))
  have same := (List.subperm_of_subset left.keys_nodup subset).perm_of_length_le size
  exact mem_keys_iff.1 (same.mem_iff.2 (mem_keys_iff.2 stored))

/-- Two maps that answer the same hold the same entries. -/
theorem perm_of_get_eq {left right : KeyMap Key Value} (same : ∀ key, left.get key = right.get key) :
    left.entries.Perm right.entries := by
  apply List.lookup_ext left.nodupKeys right.nodupKeys
  intro key value
  have answers : List.dlookup key left.entries = List.dlookup key right.entries := same key
  rw [answers]

theorem total_congr {left right : KeyMap Key Value} (same : ∀ key, left.get key = right.get key)
    (weight : Value → ℕ) : left.total weight = right.total weight :=
  ((perm_of_get_eq same).map _).sum_eq

theorem length_keys_congr {left right : KeyMap Key Value} (same : ∀ key, left.get key = right.get key) :
    left.keys.length = right.keys.length :=
  ((perm_of_get_eq same).map _).length_eq

end KeyMap

end SipServer.Lib
