/-
Module: SipServer.Lib.Matching
Purpose: Matchings between two multisets under a relation, pairing items greedily with the least slot that
  fits, and when that pairs as many as any matching can.
-/
import Mathlib.Data.Multiset.OrderedMonoid

namespace SipServer.Lib

open Multiset

universe u v w

variable {Slot : Type u} {Item : Type v} {Key : Type w}

variable {slot : Slot} {item : Item} {others : Multiset (Slot × Item)}

/-- Pairs of a slot and an item that fit, each slot and each item taken once for each time it stands
    there. -/
structure Matching (fits : Slot → Item → Prop) (slots : Multiset Slot) (items : Multiset Item)
    (pairs : Multiset (Slot × Item)) : Prop where
  slots : pairs.map Prod.fst ≤ slots
  items : pairs.map Prod.snd ≤ items
  fits : ∀ pair ∈ pairs, fits pair.1 pair.2

/-- Items paired in turn, each with a least slot among those left that fit it; `left` are those none
    fitted. -/
inductive Greedy [LE Key] (fits : Slot → Item → Prop) (key : Slot → Key) :
    Multiset Slot → List Item → Multiset (Slot × Item) → List Item → Prop
  | nil (slots : Multiset Slot) : Greedy fits key slots [] 0 []
  | pair {slot : Slot} {slots : Multiset Slot} {item : Item} {items : List Item}
      {pairs : Multiset (Slot × Item)} {left : List Item} (isFit : fits slot item)
      (least : ∀ other ∈ slots, fits other item → key slot ≤ key other)
      (rest : Greedy fits key slots items pairs left) :
      Greedy fits key (slot ::ₘ slots) (item :: items) ((slot, item) ::ₘ pairs) left
  | miss {slots : Multiset Slot} {item : Item} {items : List Item} {pairs : Multiset (Slot × Item)}
      {left : List Item}
      (none : ∀ other ∈ slots, ¬ fits other item) (rest : Greedy fits key slots items pairs left) :
      Greedy fits key slots (item :: items) pairs (item :: left)

namespace Matching

variable {fits : Slot → Item → Prop} {slots : Multiset Slot} {items : Multiset Item}
  {pairs : Multiset (Slot × Item)}

theorem add {otherSlots : Multiset Slot} {otherItems : Multiset Item}
    (matching : Matching fits slots items pairs) (other : Matching fits otherSlots otherItems others) :
    Matching fits (slots + otherSlots) (items + otherItems) (pairs + others) where
  slots := by
    rw [map_add]
    exact add_le_add matching.slots other.slots
  items := by
    rw [map_add]
    exact add_le_add matching.items other.items
  fits pair member := (mem_add.1 member).elim (matching.fits pair) (other.fits pair)

theorem cons (matching : Matching fits slots items pairs) (isFit : fits slot item) :
    Matching fits (slot ::ₘ slots) (item ::ₘ items) ((slot, item) ::ₘ pairs) where
  slots := by
    rw [map_cons]
    exact cons_le_cons slot matching.slots
  items := by
    rw [map_cons]
    exact cons_le_cons item matching.items
  fits pair member := by
    obtain rfl | earlier := mem_cons.1 member
    · exact isFit
    · exact matching.fits pair earlier

theorem skip (item : Item) (matching : Matching fits slots items pairs) :
    Matching fits slots (item ::ₘ items) pairs :=
  { matching with items := matching.items.trans (le_cons_self items item) }

/-- A slot no pair takes can go. -/
theorem drop_slot (matching : Matching fits (slot ::ₘ slots) items pairs)
    (free : slot ∉ pairs.map Prod.fst) : Matching fits slots items pairs :=
  { matching with slots := (le_cons_of_notMem free).1 matching.slots }

/-- An item no pair takes can go. -/
theorem drop_item (matching : Matching fits slots (item ::ₘ items) pairs)
    (free : item ∉ pairs.map Prod.snd) : Matching fits slots items pairs :=
  { matching with items := (le_cons_of_notMem free).1 matching.items }

/-- A pair that takes a slot goes with it. -/
theorem drop_pair (matching : Matching fits (slot ::ₘ slots) items ((slot, item) ::ₘ pairs)) :
    Matching fits slots items pairs where
  slots := by
    have taken := matching.slots
    rw [map_cons, cons_le_cons_iff] at taken
    exact taken
  items := by
    have taken := matching.items
    rw [map_cons] at taken
    exact (le_cons_self _ item).trans taken
  fits pair member := matching.fits pair (mem_cons_of_mem member)

/-- When a least slot that fits the first item is given to it, the others can be matched all but one. -/
theorem exchange [LE Key] {key : Slot → Key}
    (least : ∀ other ∈ slots, fits other item → key slot ≤ key other)
    (crosses : ∀ other ∈ slots, ∀ later ∈ items, fits other item → fits slot later → key slot ≤ key other →
      fits other later) (matching : Matching fits (slot ::ₘ slots) (item ::ₘ items) pairs) :
    ∃ rest, Matching fits slots items rest ∧ card pairs ≤ card rest + 1 := by
  by_cases isPaired : item ∈ pairs.map Prod.snd
  · obtain ⟨⟨other, item⟩, member, rfl⟩ := mem_map.1 isPaired
    obtain ⟨rest, rfl⟩ := exists_cons_of_mem member
    have restItems : rest.map Prod.snd ≤ items := by
      have taken := matching.items
      rwa [map_cons, cons_le_cons_iff] at taken
    have restFits : ∀ pair ∈ rest, fits pair.1 pair.2 :=
      fun pair isPair => matching.fits pair (mem_cons_of_mem isPair)
    have taken : other ::ₘ rest.map Prod.fst ≤ slot ::ₘ slots := by
      simpa only [map_cons] using matching.slots
    by_cases isSlot : slot ∈ rest.map Prod.fst
    · -- the slot is with a later item: that one takes the slot the first item had
      obtain ⟨⟨_, later⟩, laterMember, rfl⟩ := mem_map.1 isSlot
      obtain ⟨others, rfl⟩ := exists_cons_of_mem laterMember
      rw [map_cons, cons_swap, cons_le_cons_iff] at taken
      have otherMember : other ∈ slots := mem_of_le taken (mem_cons_self ..)
      have otherFits : fits other item := matching.fits _ (mem_cons_self ..)
      have laterItem : later ∈ items := mem_of_le restItems (mem_map_of_mem _ (mem_cons_self ..))
      refine ⟨(other, later) ::ₘ others, ⟨?_, ?_, fun pair isPair => ?_⟩, ?_⟩
      · rwa [map_cons]
      · rwa [map_cons] at restItems ⊢
      · obtain rfl | earlier := mem_cons.1 isPair
        · exact crosses other otherMember later laterItem otherFits (restFits _ (mem_cons_self ..))
            (least other otherMember otherFits)
        · exact restFits pair (mem_cons_of_mem earlier)
      · simp only [card_cons, le_refl]
    · refine ⟨rest, ⟨(le_cons_of_notMem isSlot).1 ((le_cons_self _ other).trans taken), restItems, restFits⟩,
        ?_⟩
      rw [card_cons]
  · have without := matching.drop_item isPaired
    by_cases isSlot : slot ∈ pairs.map Prod.fst
    · obtain ⟨⟨_, later⟩, member, rfl⟩ := mem_map.1 isSlot
      obtain ⟨rest, rfl⟩ := exists_cons_of_mem member
      exact ⟨rest, without.drop_pair, by rw [card_cons]⟩
    · exact ⟨pairs, without.drop_slot isSlot, Nat.le_succ _⟩

end Matching

namespace Greedy

variable [LE Key] {fits : Slot → Item → Prop} {key : Slot → Key} {slots : Multiset Slot}
    {items left : List Item}
  {pairs : Multiset (Slot × Item)}

section

variable (greedy : Greedy fits key slots items pairs left)

include greedy

theorem matching : Matching fits slots items pairs := by
  induction greedy with
  | nil slots => exact ⟨zero_le _, zero_le _, fun _ member => absurd member (notMem_zero _)⟩
  | pair isFit least rest ih => exact ih.cons isFit
  | miss none rest ih => exact ih.skip _

/-- Every item is paired or left. -/
theorem split : pairs.map Prod.snd + left = items := by
  induction greedy with
  | nil slots => rfl
  | pair isFit least rest ih =>
    rw [map_cons, cons_add, ih]
    rfl
  | miss none rest ih =>
    rw [← cons_coe, ← cons_coe, add_cons, ih]

/-- No matching pairs more, when of two items in turn the later fits whatever slot the earlier one fits that
    is no less than a slot both fit. -/
theorem optimal
    (crosses : items.Pairwise fun item later => ∀ slot other, fits slot item → fits other item →
      fits slot later → key slot ≤ key other → fits other later)
    (matching : Matching fits slots items others) : card others ≤ card pairs := by
  induction greedy generalizing others with
  | nil slots =>
    have none : others.map Prod.snd = 0 := le_zero.1 matching.items
    rw [map_eq_zero.1 none]
  | @pair slot slots item items pairs left isFit least rest ih =>
    obtain ⟨first, later⟩ := List.pairwise_cons.1 crosses
    rw [← cons_coe] at matching
    obtain ⟨remaining, isMatching, le⟩ :=
      matching.exchange least fun other _ next isNext otherFits slotFits isLe =>
      first next isNext slot other isFit otherFits slotFits isLe
    rw [card_cons]
    exact le.trans (Nat.succ_le_succ (ih later isMatching))
  | @miss slots item items pairs left none rest ih =>
    refine ih (List.pairwise_cons.1 crosses).2 (matching.drop_item fun taken => ?_)
    obtain ⟨pair, member, rfl⟩ := mem_map.1 taken
    exact none pair.1 (mem_of_le matching.slots (mem_map_of_mem _ member)) (matching.fits pair member)

end

/-- Slots can be read through a map that keeps what fits and the key. -/
theorem map {Other : Type*} {fits' : Other → Item → Prop} {key' : Other → Key} (read : Slot → Other)
    (sameFits : ∀ slot item, fits' (read slot) item ↔ fits slot item)
    (sameKey : ∀ slot, key' (read slot) = key slot) (greedy : Greedy fits key slots items pairs left) :
    Greedy fits' key' (slots.map read) items (pairs.map fun pair => (read pair.1, pair.2)) left := by
  induction greedy with
  | nil slots => exact .nil _
  | pair isFit least rest ih =>
    rw [map_cons, map_cons]
    refine .pair ((sameFits _ _).2 isFit) (fun other member otherFits => ?_) ih
    obtain ⟨slot, isSlot, rfl⟩ := mem_map.1 member
    rw [sameKey, sameKey]
    exact least slot isSlot ((sameFits _ _).1 otherFits)
  | miss none rest ih =>
    refine .miss (fun other member otherFits => ?_) ih
    obtain ⟨slot, isSlot, rfl⟩ := mem_map.1 member
    exact none slot isSlot ((sameFits _ _).1 otherFits)

end Greedy

end SipServer.Lib
