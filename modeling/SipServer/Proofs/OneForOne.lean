/-
Module: SipServer.Proofs.OneForOne
Purpose: The union of two copies' lists pairs as many items as can be, loses none and adds none, and absorbs:
  joining a list again with one it was joined with changes nothing.
-/
import SipServer.Call.Compared
import SipServer.Lib.Matching

namespace SipServer.Call

open SipServer.Lib

variable {Item : Type} {same : Item → Item → Bool} {instant : Item → ℤ} {ours theirs : List Item} {paired : List ℕ}
  {Candidate : Type}

/-- Whether an item of ours may stand for one of theirs. -/
def standsFor (same : Item → Item → Bool) (instant : Item → ℤ) (own item : Item) : Prop :=
  same own item = true ∧ (instant own - instant item).natAbs ≤ 2 * reanchorDeadbandMs

/-! ### The partner of an item -/

theorem earliest_eq_none {instant : Candidate → ℤ} {items : List Candidate}
    (none : earliest instant items = none) : items = [] := by
  cases items with
  | nil => rfl
  | cons item items =>
    unfold earliest at none
    split at none
    · cases none
    · split at none <;> cases none

theorem earliest_least {instant : Candidate → ℤ} {items : List Candidate} {least : Candidate}
    (found : earliest instant items = some least) : least ∈ items ∧ ∀ item ∈ items, instant least ≤ instant item := by
  induction items generalizing least with
  | nil => cases found
  | cons item items ih =>
    unfold earliest at found
    split at found
    · rename_i none
      cases found
      rw [earliest_eq_none none]
      exact ⟨List.mem_cons_self, fun other member => (congrArg instant (List.mem_singleton.1 member)).ge⟩
    rename_i before isBefore
    obtain ⟨member, isLeast⟩ := ih isBefore
    split at found
    · rename_i lower
      cases found
      refine ⟨List.mem_cons_of_mem _ member, fun other isOther => ?_⟩
      obtain rfl | later := List.mem_cons.1 isOther
      · exact lower.le
      · exact isLeast other later
    · rename_i notLower
      cases found
      refine ⟨List.mem_cons_self, fun other isOther => ?_⟩
      obtain rfl | later := List.mem_cons.1 isOther
      · exact le_rfl
      · exact (not_lt.1 notLower).trans (isLeast other later)

/-- The items of ours that are not paired, each with its place. -/
def unpaired (ours : List Item) (paired : List ℕ) : List (Item × ℕ) :=
  ours.zipIdx.filter fun candidate => !paired.contains candidate.2

theorem partner_eq {item : Item} :
    partner ours same instant paired item = earliest (fun candidate => instant candidate.1)
      ((unpaired ours paired).filter fun candidate => same candidate.1 item &&
        decide ((instant candidate.1 - instant item).natAbs ≤ 2 * reanchorDeadbandMs)) := by
  unfold partner unpaired
  rw [List.filter_filter]
  congr 2
  funext candidate
  rw [Bool.and_assoc, Bool.and_comm]

/-- One item taken from a list whose items have places of their own leaves those at the other places. -/
theorem perm_cons_filter {taken : Item × ℕ} {candidates : List (Item × ℕ)} {kept : Item × ℕ → Bool}
    (places : (candidates.map Prod.snd).Nodup) (member : taken ∈ candidates) (isKept : kept taken = true) :
    (candidates.filter kept).Perm
      (taken :: candidates.filter fun candidate => kept candidate && decide (candidate.2 ≠ taken.2)) := by
  induction candidates with
  | nil => cases member
  | cons first rest ih =>
    rw [List.map_cons, List.nodup_cons] at places
    obtain ⟨fresh, places⟩ := places
    obtain rfl | later := List.mem_cons.1 member
    · have others : rest.filter kept = rest.filter fun candidate => kept candidate && decide
          (candidate.2 ≠ taken.2) := by
        refine List.filter_congr fun candidate isCandidate => ?_
        have apart : candidate.2 ≠ taken.2 := fun same => fresh (same ▸ List.mem_map_of_mem isCandidate)
        rw [decide_eq_true apart, Bool.and_true]
      rw [List.filter_cons_of_pos isKept, List.filter_cons_of_neg (by simp), others]
    · have apart : first.2 ≠ taken.2 := fun same => fresh (same ▸ List.mem_map_of_mem later)
      have rest := ih places later
      by_cases keeps : kept first = true
      · rw [List.filter_cons_of_pos keeps, List.filter_cons_of_pos (by simp [keeps, apart])]
        exact (rest.cons first).trans (.swap taken first _)
      · rw [List.filter_cons_of_neg keeps, List.filter_cons_of_neg (by simp [keeps])]
        exact rest

theorem unpaired_cons {found : Item × ℕ} (member : found ∈ unpaired ours paired) :
    (unpaired ours paired : Multiset (Item × ℕ)) = found ::ₘ
      (unpaired ours (found.2 :: paired) : Multiset (Item × ℕ)) := by
  obtain ⟨isOurs, isFree⟩ := List.mem_filter.1 member
  have places : (ours.zipIdx.map Prod.snd).Nodup := by
    rw [List.zipIdx_map_snd]
    exact List.nodup_range'
  refine Quot.sound ((perm_cons_filter places isOurs isFree).trans (.of_eq ?_))
  congr 1
  refine List.filter_congr fun candidate _ => ?_
  by_cases isFound : candidate.2 = found.2 <;> simp [isFound]

/-! ### The loop is greedy -/

theorem unionLoop_greedy (ours : List Item) (paired : List ℕ) (union items : List Item) :
    ∃ pairs left, unionLoop ours same instant paired union items = union ++ left ∧
      Greedy (fun candidate : Item × ℕ => standsFor same instant candidate.1) (fun candidate => instant candidate.1)
        (unpaired ours paired) items pairs left := by
  induction items generalizing paired union with
  | nil => exact ⟨0, [], (List.append_nil union).symm, .nil _⟩
  | cons item items ih =>
    have fits (candidate : Item × ℕ) : (same candidate.1 item && decide ((instant candidate.1 - instant item).natAbs ≤
        2 * reanchorDeadbandMs)) = true ↔ standsFor same instant candidate.1 item := by
      rw [Bool.and_eq_true, decide_eq_true_eq]
      rfl
    unfold unionLoop
    cases isPartner : partner ours same instant paired item with
    | none =>
      obtain ⟨pairs, left, isUnion, greedy⟩ := ih paired (union ++ [item])
      rw [partner_eq] at isPartner
      refine ⟨pairs, item :: left, ?_, .miss (fun candidate member isFit => ?_) greedy⟩
      · rw [isUnion, List.append_assoc, List.singleton_append]
      · exact absurd ((fits candidate).2 isFit)
          (List.filter_eq_nil_iff.1 (earliest_eq_none isPartner) candidate member)
    | some found =>
      obtain ⟨pairs, left, isUnion, greedy⟩ := ih (found.2 :: paired) union
      rw [partner_eq] at isPartner
      obtain ⟨member, isLeast⟩ := earliest_least isPartner
      obtain ⟨isFree, isFit⟩ := List.mem_filter.1 member
      refine ⟨(found, item) ::ₘ pairs, left, isUnion, ?_⟩
      rw [unpaired_cons isFree]
      refine .pair ((fits found).1 isFit) (fun other isOther otherFits => ?_) greedy
      refine isLeast other (List.mem_filter.2 ⟨?_, (fits other).2 otherFits⟩)
      have isUnpaired : other ∈ (unpaired ours paired : Multiset (Item × ℕ)) := by
        rw [unpaired_cons isFree]
        exact Multiset.mem_cons_of_mem isOther
      exact isUnpaired

/-- The items of theirs, in instant order. -/
def inOrder (instant : Item → ℤ) (theirs : List Item) : List Item :=
  theirs.mergeSort fun left right => decide (instant left ≤ instant right)

/-- The union is ours and what the greedy pairing of theirs, in instant order, leaves over. -/
theorem unionOneForOne_greedy (ours theirs : List Item) :
    ∃ pairs left, unionOneForOne ours theirs same instant = ours ++ left ∧
      Greedy (standsFor same instant) instant ours (inOrder instant theirs) pairs left := by
  obtain ⟨pairs, left, isUnion, greedy⟩ := @unionLoop_greedy Item same instant ours [] ours (inOrder instant theirs)
  refine ⟨pairs.map fun pair => (pair.1.1, pair.2), left, isUnion, ?_⟩
  have read : Greedy (standsFor same instant) instant ((unpaired ours [] : Multiset (Item × ℕ)).map Prod.fst)
      (inOrder instant theirs) (pairs.map fun pair => (pair.1.1, pair.2)) left :=
    greedy.map Prod.fst (fun _ _ => Iff.rfl) fun _ => rfl
  have all : (unpaired ours [] : Multiset (Item × ℕ)).map Prod.fst = ours := by
    simp [unpaired, List.zipIdx_map_fst]
  rwa [all] at read

theorem coe_inOrder (instant : Item → ℤ) (theirs : List Item) : (inOrder instant theirs : Multiset Item) = theirs :=
  Quot.sound (List.mergeSort_perm ..)

section

variable (equivalence : Equivalence fun own item => same own item = true)

include equivalence

/-- Items in instant order can be exchanged: windows of one width move with the instant. -/
theorem crosses_inOrder :
    (inOrder instant theirs).Pairwise fun item later => ∀ own other, standsFor same instant own item →
      standsFor same instant other item → standsFor same instant own later → instant own ≤ instant other →
        standsFor same instant other later := by
  have ordered : (inOrder instant theirs).Pairwise fun item later => decide (instant item ≤ instant later) =
      true := by
    refine List.pairwise_mergeSort (fun first second third => ?_) (fun first second => ?_) theirs
    · simpa only [decide_eq_true_eq] using le_trans
    · simpa only [Bool.or_eq_true, decide_eq_true_eq] using le_total _ _
  refine ordered.imp fun {item later} isBefore own other ownItem otherItem ownLater isLe => ⟨?_, ?_⟩
  · exact equivalence.trans (equivalence.trans otherItem.1 (equivalence.symm ownItem.1)) ownLater.1
  have before := of_decide_eq_true isBefore
  have near := otherItem.2
  have far := ownLater.2
  omega

/-- Every item stands for itself. -/
theorem matching_diagonal (items : Multiset Item) :
    Matching (standsFor same instant) items items (items.map fun item => (item, item)) where
  slots := by rw [Multiset.map_map, Function.comp_def, Multiset.map_id']
  items := by rw [Multiset.map_map, Function.comp_def, Multiset.map_id']
  fits pair member := by
    obtain ⟨item, -, rfl⟩ := Multiset.mem_map.1 member
    exact ⟨equivalence.refl item, by simp⟩

/-- A matching that takes every item of theirs leaves nothing over. -/
theorem unionOneForOne_eq_self
    {pairs : Multiset (Item × Item)} (matching : Matching (standsFor same instant) ours theirs pairs)
    (full : pairs.card = theirs.length) : unionOneForOne ours theirs same instant = ours := by
  obtain ⟨paired, left, isUnion, greedy⟩ := @unionOneForOne_greedy Item same instant ours theirs
  rw [← coe_inOrder instant theirs] at matching
  have most := greedy.optimal (crosses_inOrder equivalence) matching
  have split := congrArg Multiset.card greedy.split
  rw [coe_inOrder, Multiset.card_add, Multiset.card_map, Multiset.coe_card, Multiset.coe_card] at split
  have none : left = [] := List.eq_nil_of_length_eq_zero (by omega)
  rw [isUnion, none, List.append_nil]

/-- A list that holds what a union holds, in any order, absorbs what was joined. -/
theorem unionOneForOne_absorbs {joined : List Item}
    (isJoined : joined.Perm (unionOneForOne ours theirs same instant)) :
    unionOneForOne joined theirs same instant = joined := by
  obtain ⟨pairs, left, isUnion, greedy⟩ := @unionOneForOne_greedy Item same instant ours theirs
  rw [isUnion] at isJoined
  have split := greedy.split
  rw [coe_inOrder] at split
  have paired : Matching (standsFor same instant) ours (pairs.map Prod.snd) pairs :=
    { greedy.matching with items := le_rfl }
  have whole := paired.add (matching_diagonal equivalence (left : Multiset Item))
  have holds : (joined : Multiset Item) = ours + left := Quot.sound isJoined
  rw [split, ← holds] at whole
  refine unionOneForOne_eq_self equivalence whole ?_
  have sizes := congrArg Multiset.card split
  rw [Multiset.card_add, Multiset.card_map, Multiset.coe_card, Multiset.coe_card] at sizes
  rw [Multiset.card_add, Multiset.card_map, Multiset.coe_card]
  exact sizes

end

theorem subset_unionOneForOne : ours ⊆ unionOneForOne ours theirs same instant := by
  obtain ⟨pairs, left, isUnion, -⟩ := @unionOneForOne_greedy Item same instant ours theirs
  rw [isUnion]
  exact List.subset_append_left ours left

/-- Ours is kept as it stands, theirs are paired or taken over, no matching pairs more, and a list joined
    with itself is that list. -/
theorem unionOneForOne_pairs_most (equivalence : Equivalence fun own item => same own item = true)
    (ours theirs : List Item) :
    (∃ left pairs, unionOneForOne ours theirs same instant = ours ++ left ∧
      (left : Multiset Item) + pairs.map Prod.snd = theirs ∧ Matching (standsFor same instant) ours theirs pairs ∧
      (∀ others, Matching (standsFor same instant) ours theirs others → others.card ≤ pairs.card) ∧
      (unionOneForOne ours theirs same instant).length = ours.length + theirs.length - pairs.card) ∧
    unionOneForOne ours ours same instant = ours := by
  constructor
  · obtain ⟨pairs, left, isUnion, greedy⟩ := @unionOneForOne_greedy Item same instant ours theirs
    have split : (left : Multiset Item) + pairs.map Prod.snd = theirs := by
      rw [Multiset.add_comm, greedy.split, coe_inOrder]
    refine ⟨left, pairs, isUnion, split, ?_, fun others matching => ?_, ?_⟩
    · rw [← coe_inOrder instant theirs]
      exact greedy.matching
    · rw [← coe_inOrder instant theirs] at matching
      exact greedy.optimal (crosses_inOrder equivalence) matching
    · have sizes := congrArg Multiset.card split
      rw [Multiset.card_add, Multiset.card_map, Multiset.coe_card, Multiset.coe_card] at sizes
      rw [isUnion, List.length_append]
      omega
  · exact unionOneForOne_eq_self equivalence (matching_diagonal equivalence ours) (by simp)

/-- Instants of items of one kind. -/
def sameKind (own item : ℤ × ℕ) : Bool := decide (own.2 = item.2)

theorem equivalence_sameKind : Equivalence fun own item => sameKind own item = true where
  refl _ := decide_eq_true rfl
  symm same := decide_eq_true (of_decide_eq_true same).symm
  trans first second := decide_eq_true ((of_decide_eq_true first).trans (of_decide_eq_true second))

/-- Of two items of theirs the one a second off is ours, the one four seconds off is not. -/
theorem unionOneForOne_pairs_most_one_moved :
    unionOneForOne [(0, 7)] [(4000, 7), (1000, 7)] sameKind Prod.fst = [(0, 7), (4000, 7)] ∧
      ∃ pairs : Multiset ((ℤ × ℕ) × (ℤ × ℕ)), pairs.card = 1 ∧ ∀ others,
        Matching (standsFor sameKind Prod.fst) ([(0, 7)] : List (ℤ × ℕ))
          ([(4000, 7), (1000, 7)] : List (ℤ × ℕ)) others → others.card ≤ pairs.card := by
  have sorted : [((4000 : ℤ), 7), (1000, 7)].mergeSort (fun left right => decide (left.1 ≤ right.1)) =
      [(1000, 7), (4000, 7)] := by
    simp [List.mergeSort]
  have union : unionOneForOne [(0, 7)] [(4000, 7), (1000, 7)] sameKind Prod.fst = [(0, 7), (4000, 7)] := by
    rw [unionOneForOne, sorted]
    decide
  obtain ⟨⟨left, pairs, -, split, -, most, length⟩, -⟩ :=
    @unionOneForOne_pairs_most (ℤ × ℕ) sameKind Prod.fst equivalence_sameKind [(0, 7)] [(4000, 7), (1000, 7)]
  refine ⟨union, pairs, ?_, most⟩
  rw [union] at length
  have sizes := congrArg Multiset.card split
  simp only [List.length_cons, List.length_nil] at sizes length
  omega

end SipServer.Call
