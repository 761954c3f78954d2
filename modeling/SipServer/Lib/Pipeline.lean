/-
Module: SipServer.Lib.Pipeline
Purpose: Items on their way through a pipeline in order, each of which announces facts and brings some: when
  the receiver takes an item, every fact it announces is one it knew, or one the item or an earlier one
  brought.
-/
import Mathlib.Data.List.Basic
import Mathlib.Order.Lattice

namespace SipServer.Lib

section Pipeline

variable {Item Fact : Type} (announces brings : Item → Fact → Prop)

/-- Some item of the list brings the fact. -/
def Brought (items : List Item) (fact : Fact) : Prop := ∃ item ∈ items, brings item fact

/-- Taken in order by a receiver that knows `known`, no item announces an owed fact before it was brought. -/
def Covers (owed known : Fact → Prop) : List Item → Prop
  | [] => True
  | item :: items =>
    (∀ fact, owed fact → announces item fact → known fact ∨ brings item fact) ∧
      Covers owed (fun fact => known fact ∨ brings item fact) items

variable {announces brings} {owed known : Fact → Prop} {items : List Item}

theorem covers_append {first second : List Item} :
    Covers announces brings owed known (first ++ second) ↔
      Covers announces brings owed known first ∧
        Covers announces brings owed (fun fact => known fact ∨ Brought brings first fact) second := by
  induction first generalizing known with
  | nil => simp [Covers, Brought]
  | cons item items hypothesis =>
    have given : (fun fact => (known fact ∨ brings item fact) ∨ Brought brings items fact) =
        fun fact => known fact ∨ Brought brings (item :: items) fact := by
      funext fact
      simp [Brought, or_assoc]
    rw [List.cons_append, Covers, Covers, hypothesis, given, and_assoc]

/-- Items that announce no owed fact cover whatever they bring. -/
theorem covers_of_silent (silent : ∀ item ∈ items, ∀ fact, owed fact → ¬ announces item fact) :
    Covers announces brings owed known items := by
  induction items generalizing known with
  | nil => trivial
  | cons item items hypothesis =>
    constructor
    · intro fact isOwed announced
      exact absurd announced (silent item List.mem_cons_self fact isOwed)
    · exact hypothesis fun later member => silent later (List.mem_cons_of_mem _ member)

/-- A receiver may know more, and fewer of the announced facts be owed. -/
theorem Covers.mono {owed' known' : Fact → Prop} (covers : Covers announces brings owed known items)
    (owing : ∀ item ∈ items, ∀ fact, owed' fact → announces item fact → owed fact)
    (knowing : ∀ fact, owed' fact → known fact → known' fact) :
    Covers announces brings owed' known' items := by
  induction items generalizing known known' with
  | nil => trivial
  | cons item items hypothesis =>
    constructor
    · intro fact isOwed announced
      rcases covers.1 fact (owing item List.mem_cons_self fact isOwed announced) announced with
        before | brought
      · exact .inl (knowing fact isOwed before)
      · exact .inr brought
    · apply hypothesis covers.2
      · intro later member
        exact owing later (List.mem_cons_of_mem _ member)
      rintro fact isOwed (before | brought)
      · exact .inl (knowing fact isOwed before)
      · exact .inr brought

/-- An item may be replaced by one that announces no more and brings the owed facts the first one brought. -/
theorem Covers.replace {first second : List Item} {item next : Item}
    (covers : Covers announces brings owed known (first ++ item :: second))
    (announcing : ∀ fact, announces next fact → announces item fact)
    (bringing : ∀ fact, owed fact → brings item fact → brings next fact) :
    Covers announces brings owed known (first ++ next :: second) := by
  rw [covers_append] at covers ⊢
  refine ⟨covers.1, ?_, ?_⟩
  · intro fact isOwed announced
    rcases covers.2.1 fact isOwed (announcing fact announced) with before | brought
    · exact .inl before
    · exact .inr (bringing fact isOwed brought)
  · apply covers.2.2.mono
    · intro _ _ fact isOwed _
      exact isOwed
    rintro fact isOwed (before | brought)
    · exact .inl before
    · exact .inr (bringing fact isOwed brought)

/-- An item that brings no owed fact may be left out. -/
theorem Covers.remove {first second : List Item} {item : Item}
    (covers : Covers announces brings owed known (first ++ item :: second))
    (useless : ∀ fact, owed fact → ¬ brings item fact) :
    Covers announces brings owed known (first ++ second) := by
  rw [covers_append] at covers ⊢
  refine ⟨covers.1, covers.2.2.mono ?_ ?_⟩
  · intro _ _ fact isOwed _
    exact isOwed
  rintro fact isOwed (before | brought)
  · exact before
  · exact absurd brought (useless fact isOwed)

/-- In an ascending list, items that each announce only known facts and facts that items of no higher rank
    bring. -/
theorem covers_of_ascending {Rank : Type} [LinearOrder Rank] (rank : Item → Rank)
    (ascending : items.Pairwise fun earlier later => rank earlier < rank later)
    (sourced : ∀ item ∈ items, ∀ fact, owed fact → announces item fact →
      known fact ∨ ∃ source ∈ items, brings source fact ∧ rank source ≤ rank item) :
    Covers announces brings owed known items := by
  induction items generalizing known with
  | nil => trivial
  | cons first items hypothesis =>
    have above : ∀ later ∈ items, rank first < rank later := fun later => List.rel_of_pairwise_cons ascending
    constructor
    · intro fact isOwed announced
      rcases sourced first List.mem_cons_self fact isOwed announced with
        before | ⟨source, member, brought, le⟩
      · exact .inl before
      cases member with
      | head => exact .inr brought
      | tail _ inTail => exact absurd (above source inTail) (not_lt.mpr le)
    · apply hypothesis ascending.of_cons
      intro item member fact isOwed announced
      rcases sourced item (List.mem_cons_of_mem _ member) fact isOwed announced with
        before | ⟨source, sourceMember, brought, le⟩
      · exact .inl (.inl before)
      · cases sourceMember with
        | head => exact .inl (.inr brought)
        | tail _ inTail => exact .inr ⟨source, inTail, brought, le⟩

end Pipeline

end SipServer.Lib
