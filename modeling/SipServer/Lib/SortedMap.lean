/-
Module: SipServer.Lib.SortedMap
Purpose: Finite maps kept in ascending key order, read as the list of their pairs: what an insertion and a
  removal leave, and what the first pairs above a key miss.
-/
import Mathlib.Order.Lattice
import Mathlib.Data.List.Basic

namespace SipServer.Lib

/-- A finite map as its pairs, the keys strictly ascending. -/
structure SortedMap (Key Value : Type) [LinearOrder Key] where
  pairs : List (Key × Value)
  ascending : pairs.Pairwise fun earlier later => earlier.1 < later.1

namespace SortedMap

variable {Key Value : Type} [LinearOrder Key] {pairs : List (Key × Value)} {key : Key} {value : Value}

instance : EmptyCollection (SortedMap Key Value) := ⟨⟨[], List.Pairwise.nil⟩⟩

instance : Membership (Key × Value) (SortedMap Key Value) := ⟨fun map pair => pair ∈ map.pairs⟩

/-- The pairs with `key` put in its place, over whatever it held. -/
def insertPairs (key : Key) (value : Value) : List (Key × Value) → List (Key × Value)
  | [] => [(key, value)]
  | pair :: pairs =>
    if key < pair.1 then (key, value) :: pair :: pairs
    else if key = pair.1 then (key, value) :: pairs
    else pair :: insertPairs key value pairs

theorem mem_insertPairs (ascending : pairs.Pairwise fun earlier later => earlier.1 < later.1)
    (pair : Key × Value) :
    pair ∈ insertPairs key value pairs ↔ pair = (key, value) ∨ pair ∈ pairs ∧ pair.1 ≠ key := by
  induction pairs with
  | nil => simp [insertPairs]
  | cons first pairs hypothesis =>
    have tail := hypothesis ascending.of_cons
    have above : ∀ later ∈ pairs, first.1 < later.1 := fun later => List.rel_of_pairwise_cons ascending
    unfold insertPairs
    split
    · rename_i below
      have apart : ∀ later ∈ first :: pairs, later.1 ≠ key := by
        intro later member
        cases List.mem_cons.mp member with
        | inl same => exact same ▸ ne_of_gt below
        | inr inTail => exact ne_of_gt (lt_trans below (above later inTail))
      rw [List.mem_cons]
      exact or_congr_right ⟨fun member => ⟨member, apart pair member⟩, And.left⟩
    · split
      · rename_i same
        have apart : ∀ later ∈ pairs, later.1 ≠ key := fun later member =>
          same ▸ ne_of_gt (above later member)
        grind
      · grind

/-- A key above all the others goes last. -/
theorem insertPairs_of_above
    (above : ∀ pair ∈ pairs, pair.1 < key) : insertPairs key value pairs = pairs ++ [(key, value)] := by
  induction pairs with
  | nil => rfl
  | cons pair pairs hypothesis =>
    have below := above pair List.mem_cons_self
    unfold insertPairs
    rw [if_neg (not_lt_of_gt below), if_neg (ne_of_gt below),
      hypothesis fun later member => above later (List.mem_cons_of_mem _ member)]
    rfl

theorem insertPairs_ascending (key : Key) (value : Value)
    (ascending : pairs.Pairwise fun earlier later => earlier.1 < later.1) :
    (insertPairs key value pairs).Pairwise fun earlier later => earlier.1 < later.1 := by
  induction pairs with
  | nil => exact List.pairwise_singleton _ _
  | cons first pairs hypothesis =>
    have above : ∀ later ∈ pairs, first.1 < later.1 := fun later => List.rel_of_pairwise_cons ascending
    unfold insertPairs
    split
    · rename_i below
      refine List.pairwise_cons.mpr ⟨?_, ascending⟩
      intro later member
      cases List.mem_cons.mp member with
      | inl same => exact same ▸ below
      | inr inTail => exact lt_trans below (above later inTail)
    · split
      · rename_i same
        refine List.pairwise_cons.mpr ⟨?_, ascending.of_cons⟩
        intro later member
        exact same ▸ above later member
      rename_i notBelow apart
      refine List.pairwise_cons.mpr ⟨?_, hypothesis ascending.of_cons⟩
      intro later member
      cases (mem_insertPairs ascending.of_cons later).mp member with
      | inl inserted => exact inserted ▸ lt_of_le_of_ne (not_lt.mp notBelow) (Ne.symm apart)
      | inr kept => exact above later kept.1

/-- Store a value under a key, over whatever the key held. -/
def insert (map : SortedMap Key Value) (key : Key) (value : Value) : SortedMap Key Value :=
  ⟨insertPairs key value map.pairs, insertPairs_ascending key value map.ascending⟩

/-- Forget a key. -/
def remove (map : SortedMap Key Value) (key : Key) : SortedMap Key Value :=
  ⟨map.pairs.filter fun pair => decide (pair.1 ≠ key), map.ascending.filter _⟩

@[simp] theorem not_mem_empty (pair : Key × Value) : pair ∉ (∅ : SortedMap Key Value) := List.not_mem_nil

@[simp] theorem mem_insert (map : SortedMap Key Value) (key : Key) (value : Value) (pair : Key × Value) :
    pair ∈ map.insert key value ↔ pair = (key, value) ∨ pair ∈ map ∧ pair.1 ≠ key :=
  mem_insertPairs map.ascending pair

@[simp] theorem mem_remove (map : SortedMap Key Value) (key : Key) (pair : Key × Value) :
    pair ∈ map.remove key ↔ pair ∈ map ∧ pair.1 ≠ key := by
  show pair ∈ map.pairs.filter _ ↔ _
  rw [List.mem_filter, decide_eq_true_eq]
  rfl

/-- A key holds one value. -/
theorem value_unique {map : SortedMap Key Value} {other : Value}
    (first : (key, value) ∈ map) (second : (key, other) ∈ map) : value = other := by
  obtain ⟨pairs, ascending⟩ := map
  induction pairs with
  | nil => cases first
  | cons head pairs hypothesis =>
    have above : ∀ later ∈ pairs, head.1 < later.1 := fun later => List.rel_of_pairwise_cons ascending
    cases first with
    | head =>
      cases second with
      | head => rfl
      | tail _ inTail => exact absurd (above _ inTail) (lt_irrefl key)
    | tail _ inTail =>
      cases second with
      | head => exact absurd (above _ inTail) (lt_irrefl key)
      | tail _ otherInTail => exact hypothesis ascending.of_cons inTail otherInTail

/-- The pairs above `since` in ascending order, or all of them. -/
def above (map : SortedMap Key Value) (since : Option Key) : List (Key × Value) :=
  map.pairs.filter fun pair => since.all fun key => decide (key < pair.1)

theorem mem_above (map : SortedMap Key Value) (since : Option Key) (pair : Key × Value) :
    pair ∈ map.above since ↔ pair ∈ map ∧ ∀ key ∈ since, key < pair.1 := by
  unfold above
  rw [List.mem_filter]
  cases since with
  | none | some => simp [Membership.mem]

theorem above_ascending (map : SortedMap Key Value) (since : Option Key) :
    (map.above since).Pairwise fun earlier later => earlier.1 < later.1 :=
  map.ascending.filter _

end SortedMap

/-- An item of an ascending list is among its first `limit` ones, or above all of them, of which there are
    then `limit`. -/
theorem mem_take_or_lt {Key Value : Type} [LinearOrder Key] {pairs : List (Key × Value)}
    (ascending : pairs.Pairwise fun earlier later => earlier.1 < later.1) (limit : ℕ) {pair : Key × Value}
    (member : pair ∈ pairs) :
    pair ∈ pairs.take limit ∨
      (pairs.take limit).length = limit ∧ ∀ taken ∈ pairs.take limit, taken.1 < pair.1 := by
  have whole := List.take_append_drop limit pairs
  rw [← whole] at member ascending
  cases List.mem_append.mp member with
  | inl taken => exact .inl taken
  | inr dropped =>
    right
    constructor
    · have nonempty := List.length_pos_of_mem dropped
      rw [List.length_drop] at nonempty
      rw [List.length_take]
      omega
    · intro taken takenMember
      exact (List.pairwise_append.mp ascending).2.2 taken takenMember pair dropped

end SipServer.Lib
