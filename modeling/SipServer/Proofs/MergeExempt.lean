/-
Module: SipServer.Proofs.MergeExempt
Purpose: What merging the exempt fields of one copy of a call into another leaves: the container's compared
  fields but for a release owed, nothing below either copy, everything the container recorded, and nothing
  more to merge.
-/
import SipServer.Proofs.Compared
import SipServer.Proofs.OneForOne

namespace SipServer.Call

variable {Data : Type} {dialog : Dialog Data}

/-! ### Sequences -/

/-- An absent value is below every other. -/
def OptionLe (low high : Option ℤ) : Prop := ∀ value, low = some value → ∃ above, high = some above ∧ value ≤ above

theorem optionLe_max_left {left right : Option ℤ} : OptionLe left (maxOption left right) := by
  rintro value rfl
  cases right with
  | none => exact ⟨value, rfl, le_rfl⟩
  | some other => exact ⟨_, rfl, le_max_left value other⟩

theorem optionLe_max_right {left right : Option ℤ} : OptionLe right (maxOption left right) := by
  rintro value rfl
  cases left with
  | none => exact ⟨value, rfl, le_rfl⟩
  | some other => exact ⟨_, rfl, le_max_right other value⟩

/-- A second merge raises nothing. -/
theorem maxOption_absorbs {left right : Option ℤ} :
    maxOption (maxOption left right) right = maxOption left right := by
  cases left <;> cases right <;> simp [maxOption]

theorem raiseDialog_tags {theirs : List (Dialog Data)} :
    (raiseDialog theirs dialog).ourTag = dialog.ourTag ∧ (raiseDialog theirs dialog).peerTag = dialog.peerTag := by
  unfold raiseDialog
  split <;> exact ⟨rfl, rfl⟩

/-- A dialog raised once stays as it is. -/
theorem raiseDialog_absorbs {theirs : List (Dialog Data)} :
    raiseDialog theirs (raiseDialog theirs dialog) = raiseDialog theirs dialog := by
  obtain ⟨ourTag, peerTag⟩ := raiseDialog_tags
  rw [raiseDialog, ourTag, peerTag]
  unfold raiseDialog
  cases Dialogs.byTags theirs dialog.ourTag dialog.peerTag with
  | none => rfl
  | some other => simp [maxOption_absorbs]

/-! ### Rings -/

variable [DecidableEq Data] {other : Record Data} {leg : Leg Data} {theirs : Option (MessageRing Data)}
  {ours : MessageRing Data}

theorem equivalence_sameEvent : Equivalence fun left right : Timed Data => sameEvent left right = true where
  refl _ := decide_eq_true rfl
  symm same := decide_eq_true (of_decide_eq_true same).symm
  trans first second := decide_eq_true ((of_decide_eq_true first).trans (of_decide_eq_true second))

theorem sameEntry_iff {left right : MessageEntry Data} :
    sameEntry left right = true ↔ left.seq = right.seq ∧ left.rest = right.rest := by
  rw [sameEntry, Bool.and_eq_true, decide_eq_true_eq, decide_eq_true_eq]

theorem equivalence_sameEntry : Equivalence fun left right : MessageEntry Data => sameEntry left right = true where
  refl entry := (sameEntry_iff).2 ⟨rfl, rfl⟩
  symm same := by
    obtain ⟨seq, rest⟩ := (sameEntry_iff).1 same
    exact (sameEntry_iff).2 ⟨seq.symm, rest.symm⟩
  trans first second := by
    obtain ⟨seq, rest⟩ := (sameEntry_iff).1 first
    obtain ⟨seq', rest'⟩ := (sameEntry_iff).1 second
    exact (sameEntry_iff).2 ⟨seq.trans seq', rest.trans rest'⟩

/-- The ring's order: by the call-wide sequence, then the instant. -/
def entryLe (left right : MessageEntry Data) : Bool :=
  decide (left.seq < right.seq ∨ left.seq = right.seq ∧ left.atMs ≤ right.atMs)

omit [DecidableEq Data] in
theorem pairwise_entryLe (entries : List (MessageEntry Data)) :
    (entries.mergeSort entryLe).Pairwise fun left right => entryLe left right = true := by
  refine List.pairwise_mergeSort (fun first second third => ?_) (fun first second => ?_) entries
  · simp only [entryLe, decide_eq_true_eq]
    omega
  · simp only [entryLe, Bool.or_eq_true, decide_eq_true_eq]
    omega

/-- A ring already holds what it was joined with. -/
theorem unionRing_absorbs : unionRing (unionRing ours theirs) theirs = unionRing ours theirs := by
  cases theirs with
  | none => rfl
  | some theirs =>
    let union := unionOneForOne ours.entries theirs.entries sameEntry (·.atMs)
    have absorbed : unionOneForOne (union.mergeSort entryLe) theirs.entries sameEntry (·.atMs) =
        union.mergeSort entryLe :=
      unionOneForOne_absorbs equivalence_sameEntry (List.mergeSort_perm union entryLe)
    have sorted := List.mergeSort_of_pairwise (pairwise_entryLe union)
    change MessageRing.mk ((unionOneForOne (union.mergeSort entryLe) theirs.entries sameEntry
      (·.atMs)).mergeSort entryLe)
      (max (max ours.dropped theirs.dropped) theirs.dropped) =
        ⟨union.mergeSort entryLe, max ours.dropped theirs.dropped⟩
    rw [absorbed, sorted, max_assoc, max_self]

/-- A joined ring keeps its own entries. -/
theorem subset_unionRing : ours.entries ⊆ (unionRing ours theirs).entries := by
  cases theirs with
  | none => exact List.Subset.refl _
  | some theirs =>
    intro entry member
    exact (List.mergeSort_perm _ _).mem_iff.2 (subset_unionOneForOne member)

/-- It counts as dropped what either side does. -/
theorem dropped_unionRing (ours : MessageRing Data) (theirs : Option (MessageRing Data)) :
    ours.dropped ≤ (unionRing ours theirs).dropped ∧
      ∀ ring, theirs = some ring → ring.dropped ≤ (unionRing ours theirs).dropped := by
  cases theirs with
  | none => exact ⟨le_rfl, fun _ => nofun⟩
  | some theirs =>
    refine ⟨le_max_left .., ?_⟩
    rintro ring ⟨⟩
    exact le_max_right ..

/-! ### Legs -/

/-- A leg of the merge: no sequence and no eviction count is below that of the container's leg or of the leg
    the other record keeps under its id, and every entry of the container's ring is there. -/
structure LegMerged (other : Record Data) (leg merged : Leg Data) : Prop where
  dialogs : List.Forall₂ (fun dialog raised : Dialog Data =>
    (dialog.ourCseq ≤ raised.ourCseq ∧ OptionLe dialog.peerCseq raised.peerCseq) ∧
      ∀ theirs held, other.findLeg leg.legId = some theirs →
        Dialogs.byTags theirs.dialogs dialog.ourTag dialog.peerTag = some held →
          held.ourCseq ≤ raised.ourCseq ∧ OptionLe held.peerCseq raised.peerCseq) leg.dialogs merged.dialogs
  entries : leg.messages.entries ⊆ merged.messages.entries
  dropped : leg.messages.dropped ≤ merged.messages.dropped ∧
    ∀ theirs, other.findLeg leg.legId = some theirs → theirs.messages.dropped ≤ merged.messages.dropped

/-- One leg of the merge. -/
def mergeLeg (other : Record Data) (leg : Leg Data) : Leg Data := Record.mergeRing other (raiseLeg leg other)

theorem mergeLeg_of_none (absent : other.findLeg leg.legId = none) : mergeLeg other leg = leg := by
  have raised : raiseLeg leg other = leg := by rw [raiseLeg, absent]
  rw [mergeLeg, raised, Record.mergeRing, absent]
  rfl

theorem mergeLeg_of_some {theirs : Leg Data} (found : other.findLeg leg.legId = some theirs) :
    mergeLeg other leg = { leg with
      dialogs := leg.dialogs.map (raiseDialog theirs.dialogs)
      messages := unionRing leg.messages (some theirs.messages) } := by
  have raised : raiseLeg leg other = { leg with dialogs := leg.dialogs.map (raiseDialog theirs.dialogs) } := by
    rw [raiseLeg, found]
  rw [mergeLeg, raised, Record.mergeRing]
  rw [found]
  rfl

/-- A leg merged twice is the leg merged once. -/
theorem mergeLeg_absorbs : mergeLeg other (mergeLeg other leg) = mergeLeg other leg := by
  cases found : other.findLeg leg.legId with
  | none => rw [mergeLeg_of_none found, mergeLeg_of_none found]
  | some theirs =>
    have again : other.findLeg (mergeLeg other leg).legId = some theirs := by
      rw [mergeLeg_of_some found]
      exact found
    rw [mergeLeg_of_some again, mergeLeg_of_some found]
    simp [Function.comp_def, raiseDialog_absorbs, unionRing_absorbs]

/-- What a merge leaves of a leg. -/
theorem mergeLeg_merged : LegMerged other leg (mergeLeg other leg) := by
  cases found : other.findLeg leg.legId with
  | none =>
    rw [mergeLeg_of_none found]
    refine ⟨List.forall₂_same.2 fun dialog _ => ⟨⟨le_rfl, fun value isValue => ⟨value, isValue, le_rfl⟩⟩, ?_⟩,
      List.Subset.refl _, le_rfl, ?_⟩
    · rintro theirs _ isFound
      cases found.symm.trans isFound
    · rintro theirs isFound
      cases found.symm.trans isFound
  | some theirs =>
    rw [mergeLeg_of_some found]
    obtain ⟨ours, others⟩ := dropped_unionRing leg.messages (some theirs.messages)
    refine ⟨List.forall₂_map_right_iff.2 (List.forall₂_same.2 fun dialog _ => ?_), subset_unionRing .., ours, ?_⟩
    · unfold raiseDialog
      cases held : Dialogs.byTags theirs.dialogs dialog.ourTag dialog.peerTag with
      | none =>
        refine ⟨⟨le_rfl, fun value isValue => ⟨value, isValue, le_rfl⟩⟩, fun other kept isFound isKept => ?_⟩
        cases found.symm.trans isFound
        cases held.symm.trans isKept
      | some raised =>
        refine ⟨⟨le_max_left .., optionLe_max_left⟩, fun other kept isFound isKept => ?_⟩
        cases found.symm.trans isFound
        cases held.symm.trans isKept
        exact ⟨le_max_right .., optionLe_max_right⟩
    · intro other isFound
      cases found.symm.trans isFound
      exact others _ rfl

namespace Record

/-- Every leg of a record. -/
def everyLeg (call : Record Data) : List (Leg Data) := call.aLeg :: call.bLegs

omit [DecidableEq Data] in
/-- No counter of the one record is above the other's. -/
def CountersLe (low high : Record Data) : Prop :=
  low.timerGeneration ≤ high.timerGeneration ∧ low.limiter.change ≤ high.limiter.change ∧
    low.messageSeq ≤ high.messageSeq ∧ low.messageTurn ≤ high.messageTurn ∧
      OptionLe low.messageCount high.messageCount

theorem mergeExempt_eq {container : Record Data} :
    container.mergeExempt other = { container with
      timerGeneration := max container.timerGeneration other.timerGeneration
      limiter := container.limiter.mergeChange other.limiter
      messageSeq := max container.messageSeq other.messageSeq
      messageTurn := max container.messageTurn other.messageTurn
      messageCount := maxOption container.messageCount other.messageCount
      cdrEvents := unionOneForOne container.cdrEvents other.cdrEvents sameEvent (·.atMs)
      aLeg := mergeLeg other container.aLeg
      bLegs := container.bLegs.map (mergeLeg other) } := by
  unfold mergeExempt raiseSequences
  dsimp only
  rw [List.map_map]
  rfl

/-- The change counter merges once. -/
theorem mergeChange_absorbs {state other : CallLimiterState} :
    (state.mergeChange other).mergeChange other = state.mergeChange other := by
  simp [CallLimiterState.mergeChange]

/-- The merge has the container's compared fields but for the release owed, which either copy may owe; no
    counter and no sequence below either copy's; every event and entry of the container; and merging the same
    copy again changes nothing. -/
theorem mergeExempt_respects_container (container other : Record Data) :
    ({ container.mergeExempt other with
        limiter := { (container.mergeExempt other).limiter with
          releaseOwed := container.limiter.releaseOwed } } : Record Data).sameState container = true ∧
      (container.mergeExempt other).limiter.releaseOwed =
        (container.limiter.releaseOwed || other.limiter.releaseOwed) ∧
      container.CountersLe (container.mergeExempt other) ∧ other.CountersLe (container.mergeExempt other) ∧
      List.Forall₂ (LegMerged other) container.everyLeg (container.mergeExempt other).everyLeg ∧
      container.cdrEvents ⊆ (container.mergeExempt other).cdrEvents ∧
      (container.mergeExempt other).mergeExempt other = container.mergeExempt other := by
  refine ⟨?_, ?_, ?_, ?_, ?_, ?_, ?_⟩
  · rw [sameState_iff container]
    have legs : (container.bLegs.map (mergeLeg other)).map Leg.atRest = container.bLegs.map Leg.atRest := by
      rw [List.map_map]
      exact List.map_congr_left fun leg _ => (mergeRing_atRest).trans raiseLeg_atRest
    have aLeg : (mergeLeg other container.aLeg).atRest = container.aLeg.atRest :=
      (mergeRing_atRest).trans raiseLeg_atRest
    rw [mergeExempt_eq]
    simp only [atRest, legs, aLeg]
    rfl
  · rfl
  · exact ⟨le_max_left .., le_max_left .., le_max_left .., le_max_left .., optionLe_max_left⟩
  · exact ⟨le_max_right .., le_max_right .., le_max_right .., le_max_right .., optionLe_max_right⟩
  · rw [mergeExempt_eq]
    refine .cons mergeLeg_merged (List.forall₂_map_right_iff.2 (List.forall₂_same.2 fun leg _ => ?_))
    exact mergeLeg_merged
  · exact subset_unionOneForOne ..
  · have legs : (container.bLegs.map (mergeLeg other)).map (mergeLeg other) = container.bLegs.map
        (mergeLeg other) := by
      rw [List.map_map]
      exact List.map_congr_left fun leg _ => mergeLeg_absorbs
    have events : unionOneForOne (unionOneForOne container.cdrEvents other.cdrEvents sameEvent (·.atMs))
        other.cdrEvents
        sameEvent (·.atMs) = unionOneForOne container.cdrEvents other.cdrEvents sameEvent (·.atMs) :=
      unionOneForOne_absorbs equivalence_sameEvent (List.Perm.refl _)
    rw [mergeExempt_eq, mergeExempt_eq]
    rw [legs, events, mergeLeg_absorbs, mergeChange_absorbs, maxOption_absorbs, max_assoc, max_assoc,
      max_assoc, max_self,
      max_self, max_self]

/-- A copy that owes its release makes the container owe it: a compared field. -/
theorem mergeExempt_owes_release :
    let owing : Record Unit := { (default : Record Unit) with
      limiter := { (default : CallLimiterState) with releaseOwed := true } }
    ((default : Record Unit).mergeExempt owing).sameState default = false := by
  decide

end Record

end SipServer.Call
