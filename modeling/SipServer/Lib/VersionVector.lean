/-
Module: SipServer.Lib.VersionVector
Purpose: Two copies of one state, each counting its own writes in a vector with one component a side and
  stamping the vector of its last change: when the stamp of one copy is within the vector of the other,
  the other has seen every change of the one. `Reads` says it of any two copies of a run, old ones included.
-/
import Mathlib.Data.Set.Insert
import Mathlib.Algebra.Order.Group.Int
import Mathlib.Algebra.Order.Group.Unbundled.Int

namespace SipServer.Lib

/-- One change of the state: its author, the vector it was made at, and what tells it from others. -/
structure Change (Side Tag : Type) where
  author : Side
  number : Side → ℤ
  tag : Tag

/-- What a copy counts, and the changes it has taken in. -/
structure Version (Side Tag : Type) where
  vector : Side → ℤ
  stamp : Side → ℤ
  seen : Set (Change Side Tag)

namespace Version

variable {Side Tag : Type}

/-- A copy contains another whose last change is within its vector. -/
def Contains (version other : Version Side Tag) : Prop := other.stamp ≤ version.vector

/-- Count one write of `side`. -/
def bump [DecidableEq Side] (version : Version Side Tag) (side : Side) : Version Side Tag :=
  { version with vector := Function.update version.vector side (version.vector side + 1) }

/-- The write just counted changed the state. -/
def record (version : Version Side Tag) (author : Side) (tag : Tag) : Version Side Tag :=
  { version with
    stamp := version.vector
    seen := insert ⟨author, version.vector, tag⟩ version.seen }

/-- Raise the vector to the component-wise maximum. -/
def raise (version other : Version Side Tag) : Version Side Tag :=
  { version with vector := version.vector ⊔ other.vector }

@[simp] theorem bump_vector_self [DecidableEq Side] (version : Version Side Tag) (side : Side) :
    (version.bump side).vector side = version.vector side + 1 :=
  Function.update_self ..

theorem bump_vector_of_ne [DecidableEq Side] (version : Version Side Tag) {side other : Side}
    (apart : other ≠ side) : (version.bump side).vector other = version.vector other :=
  Function.update_of_ne apart ..

theorem le_bump [DecidableEq Side] (version : Version Side Tag) (side : Side) :
    version.vector ≤ (version.bump side).vector := by
  intro component
  by_cases same : component = side
  · rw [same, bump_vector_self]
    exact Int.le_add_one (le_refl _)
  · rw [bump_vector_of_ne version same]

/-- The stamp of a copy born at `base` is the number of its last change, and no change is past it. -/
structure Stamped (base : Side → ℤ) (version : Version Side Tag) : Prop where
  within : version.stamp ≤ version.vector
  above : base ≤ version.stamp
  counted : ∀ change ∈ version.seen, change.number ≤ version.stamp
  last : version.stamp = base ∨ ∃ change ∈ version.seen, version.stamp = change.number

namespace Stamped

variable {base : Side → ℤ} {version : Version Side Tag}

theorem bump [DecidableEq Side] (stamped : version.Stamped base) (side : Side) :
    (version.bump side).Stamped base :=
  { stamped with within := stamped.within.trans (le_bump version side) }

theorem record (stamped : version.Stamped base) (author : Side) (tag : Tag) :
    (version.record author tag).Stamped base where
  within := le_refl _
  above := stamped.above.trans stamped.within
  counted := by
    rintro change (rfl | member)
    · exact le_refl _
    · exact (stamped.counted change member).trans stamped.within
  last := .inr ⟨_, Set.mem_insert _ _, rfl⟩

theorem raise (stamped : version.Stamped base) (other : Version Side Tag) :
    (version.raise other).Stamped base :=
  { stamped with within := stamped.within.trans le_sup_left }

end Stamped

/-! ### Any two copies of a run -/

/-- `reader` has each change of `other` that it counts. -/
def Reads (reader other : Version Side Tag) : Prop :=
  ∀ change ∈ other.seen, change.number change.author ≤ reader.vector change.author → change ∈ reader.seen

namespace Reads

variable {base : Side → ℤ} {reader other third : Version Side Tag}

theorem refl (version : Version Side Tag) : Reads version version := fun _ member _ => member

/-- Containment read from stamp and vector is inclusion of the changes seen. -/
theorem contains_iff (reads : Reads reader other) (readerStamped : reader.Stamped base)
    (stamped : other.Stamped base) : reader.Contains other ↔ other.seen ⊆ reader.seen := by
  constructor
  · intro contained change member
    have counted : change.number ≤ reader.vector := (stamped.counted change member).trans contained
    exact reads change member (counted change.author)
  · intro included
    cases stamped.last with
    | inl born =>
      have reached := readerStamped.above.trans readerStamped.within
      rwa [← born] at reached
    | inr changed =>
      obtain ⟨change, member, stamp⟩ := changed
      have counted := readerStamped.counted change (included member)
      rw [← stamp] at counted
      exact counted.trans readerStamped.within

/-- The stamp of a contained copy is at or below the stamp of the copy that contains it. -/
theorem stamp_le (reads : Reads reader other) (readerStamped : reader.Stamped base)
    (stamped : other.Stamped base) (contained : reader.Contains other) : other.stamp ≤ reader.stamp := by
  cases stamped.last with
  | inl born => rw [born]; exact readerStamped.above
  | inr changed =>
    obtain ⟨change, member, stamp⟩ := changed
    rw [stamp]
    exact readerStamped.counted change ((reads.contains_iff readerStamped stamped).mp contained member)

/-- A copy that contains another counts what either counted, and has it. -/
theorem raise (reads : Reads reader third) (otherReads : Reads other third)
    (included : other.seen ⊆ reader.seen) : Reads (reader.raise other) third := by
  intro change member counted
  cases le_sup_iff.mp counted with
  | inl own => exact reads change member own
  | inr theirs => exact included (otherReads change member theirs)

section Write

variable [DecidableEq Side] {side : Side}

/-- The write of a side whose copy counts all writes of that side: no copy has a change numbered by it. -/
theorem bump (reads : Reads reader other) (stamped : other.Stamped base)
    (behind : other.vector side ≤ reader.vector side) : Reads (reader.bump side) other := by
  intro change member counted
  apply reads change member
  by_cases author : change.author = side
  · have within := (stamped.counted change member).trans stamped.within
    rw [author]
    exact (within side).trans behind
  · rwa [bump_vector_of_ne reader author] at counted

omit [DecidableEq Side] in
theorem record (reads : Reads reader other) (author : Side) (tag : Tag) :
    Reads (reader.record author tag) other :=
  fun change member counted => Set.mem_insert_of_mem _ (reads change member counted)

/-- Nor does any copy count the change that write makes. -/
theorem of_write (reads : Reads reader other) (behind : reader.vector side ≤ other.vector side) (tag : Tag) :
    Reads reader ((other.bump side).record side tag) := by
  rintro change (rfl | member) counted
  · have past : other.vector side + 1 ≤ reader.vector side := by
      rw [← bump_vector_self other side]
      exact counted
    omega
  · exact reads change member counted

end Write

end Reads

end Version

end SipServer.Lib
