/-
Module: SipServer.Proofs.Custody
Purpose: What a store is answerable for, apart from how it keeps it: one numbered body a callRef, one kept
  aside a call, and the numbers handed back. Whatever a write does, no number is in two places or handed back
  twice.
-/
import Mathlib.Data.List.Nodup
import Mathlib.Data.Nat.Notation
import Mathlib.Order.Nat
import Mathlib.Logic.Function.Basic

namespace SipServer.Store

open Function (update)

/-- The call of a body, the number of the write it came by, and whether a backup authored it. -/
structure Holding where
  incarnation : String
  number : ℕ
  owed : Bool
deriving Repr, DecidableEq

/-- Where a body is: stored on its callRef, or kept aside for the reap. -/
inductive Place where
  | stored (callRef : String)
  | aside (incarnation : String)
deriving Repr, DecidableEq

/-- A call lives on the callRef its incarnation names, and is kept aside under it. -/
def Place.Fits (refOf : String → String) (incarnation : String) : Place → Prop
  | .stored callRef => refOf incarnation = callRef
  | .aside name => name = incarnation

/-- What is at each place. -/
abbrev Items := Place → Option Holding

variable {items next : Items} {refOf : String → String} {names : List (Option String)} {handed : List ℕ}
variable {callRef : String} {place : Place} {holding new : Holding}

/-- What is stored on a callRef goes; what is owed is kept aside. -/
def Items.displaced (items : Items) (callRef : String) (gone : Holding) : Items :=
  if gone.owed then update (update items (.stored callRef) none) (.aside gone.incarnation) (some gone)
  else update items (.stored callRef) none

/-- What a write `new` on `callRef` can do. -/
inductive PutStep (items : Items) (callRef : String) (new : Holding) : Items → Prop
  | ignored : PutStep items callRef new items
  /-- Not taken, and kept aside: the callRef holds another call. -/
  | aside (apart : ∀ held, items (.stored callRef) = some held → held.incarnation ≠ new.incarnation) :
      PutStep items callRef new (update items (.aside new.incarnation) (some new))
  | stored (same : ∀ held, items (.stored callRef) = some held → held.incarnation = new.incarnation) :
      PutStep items callRef new (update items (.stored callRef) (some new))
  | replaced {gone : Holding} (found : items (.stored callRef) = some gone)
      (apart : gone.incarnation ≠ new.incarnation) :
      PutStep items callRef new (update (items.displaced callRef gone) (.stored callRef) (some new))

/-- What holds over every run: a body is where its call belongs and came by a write of it, one kept aside is
    older than one stored of the same call, and no number is handed back twice or while it is still in the
    store. -/
structure Custody (refOf : String → String) (names : List (Option String)) (items : Items) (handed : List ℕ) :
    Prop where
  fits : ∀ place holding, items place = some holding →
    place.Fits refOf holding.incarnation ∧ names[holding.number]? = some (some holding.incarnation)
  older : ∀ callRef held aside, items (.stored callRef) = some held →
    items (.aside held.incarnation) = some aside → aside.number < held.number
  once : handed.Nodup
  out : ∀ number ∈ handed, number < names.length ∧ ∀ place holding, items place = some holding →
    holding.number ≠ number

namespace Custody

theorem lt_length (custody : Custody refOf names items handed) (found : items place = some holding) :
    holding.number < names.length :=
  (List.getElem?_eq_some_iff.mp (custody.fits place holding found).2).1

/-- A number is of one call, and what is kept aside of it is older: no number is at two places. -/
theorem place_unique (custody : Custody refOf names items handed) {other : Place} {second : Holding}
    (found : items place = some holding) (also : items other = some second)
    (same : holding.number = second.number) : place = other := by
  have fits := custody.fits place holding found
  have otherFits := custody.fits other second also
  have older := custody.older
  cases place <;> cases other <;> grind [Place.Fits]

/-- Numbers of bodies that left the store go back. -/
theorem leave (custody : Custody refOf names items handed) {numbers : List ℕ} (distinct : numbers.Nodup)
    (fewer : ∀ place holding, next place = some holding → items place = some holding ∧ holding.number ∉ numbers)
    (left : ∀ number ∈ numbers, ∃ place holding, items place = some holding ∧ holding.number = number) :
    Custody refOf names next (handed ++ numbers) := by
  have given : ∀ number ∈ numbers, number < names.length := by
    intro number member
    obtain ⟨place, holding, found, rfl⟩ := left number member
    exact custody.lt_length found
  obtain ⟨fits, older, once, out⟩ := custody
  constructor
  case fits => exact fun place holding found => fits place holding (fewer _ _ found).1
  case older =>
    exact fun callRef held aside found isAside => older callRef held aside (fewer _ _ found).1
      (fewer _ _ isAside).1
  case once => exact List.nodup_append.mpr ⟨once, distinct, by grind⟩
  case out => grind

theorem remove (custody : Custody refOf names items handed) (place : Place) :
    Custody refOf names (update items place none) handed := by
  rw [← List.append_nil handed]
  exact custody.leave List.nodup_nil (by grind [Function.update_apply]) nofun

/-- A body comes to a place that fits it, newer than what is aside of its call and older than what is
    stored. -/
theorem put (custody : Custody refOf names items handed)
    (fits : place.Fits refOf holding.incarnation ∧ names[holding.number]? = some (some holding.incarnation))
    (newer : ∀ callRef aside, place = .stored callRef → items (.aside holding.incarnation) = some aside →
      aside.number < holding.number)
    (older : ∀ callRef held name, place = .aside name → items (.stored callRef) = some held →
      held.incarnation = holding.incarnation → holding.number < held.number)
    (out : holding.number ∉ handed) : Custody refOf names (update items place (some holding)) handed := by
  obtain ⟨itemFits, itemOlder, once, itemOut⟩ := custody
  constructor
  case fits => grind [Function.update_apply]
  case older => grind [Function.update_apply, Place.Fits]
  case once => exact once
  case out => grind [Function.update_apply]

/-- A further write is numbered. -/
theorem grow (custody : Custody refOf names items handed) (name : Option String) :
    Custody refOf (names ++ [name]) items handed where
  fits place holding found :=
    ⟨(custody.fits place holding found).1,
      (List.getElem?_append_left (custody.lt_length found)).trans (custody.fits place holding found).2⟩
  older := custody.older
  once := custody.once
  out number member := by
    rw [List.length_append]
    exact ⟨Nat.lt_add_right _ (custody.out number member).1, (custody.out number member).2⟩

end Custody

/-- A write keeps the custody. -/
theorem PutStep.custody (stepped : PutStep items (refOf new.incarnation) new next)
    (number : new.number = names.length)
    (custody : Custody refOf names items handed) : Custody refOf (names ++ [some new.incarnation]) next handed := by
  have grown := custody.grow (some new.incarnation)
  have named : (names ++ [some new.incarnation])[new.number]? = some (some new.incarnation) := by
    rw [number, List.getElem?_concat_length]
  have out : new.number ∉ handed := fun member => number.not_lt (custody.out _ member).1
  have newest : ∀ {place holding}, items place = some holding → holding.number < new.number :=
    fun found => number ▸ custody.lt_length found
  cases stepped with
  | ignored => exact grown
  | aside apart =>
    refine grown.put ⟨rfl, named⟩ nofun (fun callRef held name _ found same => ?_) out
    obtain rfl : refOf held.incarnation = callRef := (custody.fits _ held found).1
    exact absurd same (apart held (same ▸ found))
  | stored => exact grown.put ⟨rfl, named⟩ (fun _ _ _ aside => newest aside) nofun out
  | replaced found apart =>
    rename_i gone
    have alone := grown.remove (.stored (refOf new.incarnation))
    unfold Items.displaced
    split
    · have here : refOf gone.incarnation = refOf new.incarnation := (custody.fits _ gone found).1
      have kept : Custody refOf (names ++ [some new.incarnation])
          (update (update items (.stored (refOf new.incarnation)) none) (.aside gone.incarnation)
            (some gone)) handed := by
        refine alone.put ⟨rfl, (grown.fits _ gone found).2⟩ nofun (fun callRef held _ _ still same => ?_)
          (fun member => (custody.out _ member).2 _ gone found rfl)
        -- the callRef of the call that goes is empty
        have there : refOf held.incarnation = callRef := (alone.fits _ held still).1
        rw [Function.update_apply, if_pos (by rw [← there, same, here])] at still
        cases still
      refine kept.put ⟨rfl, named⟩ (fun _ aside _ isAside => ?_) nofun out
      exact newest (by simpa [Ne.symm apart] using isAside)
    · refine alone.put ⟨rfl, named⟩ (fun _ aside _ isAside => ?_) nofun out
      exact newest (by simpa using isAside)

/-- After a write what is owed is stored as before, kept aside, or written again; of a call of which a body
    was kept aside that body or a later one is. -/
theorem PutStep.conserves (stepped : PutStep items callRef new next) (number : new.number = names.length)
    (custody : Custody refOf names items handed) :
    (∀ other held, items (.stored other) = some held → held.owed = true →
        next (.stored other) = some held ∨ next (.aside held.incarnation) = some held ∨
          (other = callRef ∧ held.incarnation = new.incarnation)) ∧
      ∀ name aside, items (.aside name) = some aside →
        ∃ later, next (.aside name) = some later ∧ (later = aside ∨ aside.number < later.number) := by
  have older := custody.older
  have newest : ∀ place holding, items place = some holding → holding.number < new.number :=
    fun place holding found => number ▸ custody.lt_length found
  cases stepped with
  | ignored => grind
  | aside | stored => grind [Function.update_apply]
  | replaced =>
    unfold Items.displaced
    split <;> grind [Function.update_apply]

end SipServer.Store
