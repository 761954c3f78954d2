/-
Module: SipServer.Proofs.LimiterSlots
Purpose: What the limiter store is to one key. The three tables of the store are exclusive, so a key is
  bare, holds a set, is fenced or is marked; every operation moves the slot of its own key as stated here
  and leaves every other slot alone.
-/
import SipServer.Proofs.LimiterCounts

namespace SipServer.Limiter

variable {entries : List AdmitEntry} {leaseExpiresAtMs : ℤ} {change : ℕ} {lapsesAtMs : ℤ}

/-- The state of one key. -/
inductive Slot where
  | bare
  | holding (entries : List AdmitEntry) (change : ℕ) (leaseExpiresAtMs : ℤ)
  | fenced (why : Fence) (lapsesAtMs : ℤ)
  | marked (change : ℕ) (lapsesAtMs : ℤ)
deriving Repr, DecidableEq

namespace Slot

/-- The change number the slot orders admits by. -/
def known : Slot → Option ℕ
  | .holding _ change _ => some change
  | .fenced (.dropped change) _ => some change
  | .marked change _ => some change
  | _ => none

/-- The instant the slot falls back to bare. -/
def endsAt : Slot → Option ℤ
  | .bare => none
  | .holding _ _ leaseExpiresAtMs => some leaseExpiresAtMs
  | .fenced _ lapsesAtMs => some lapsesAtMs
  | .marked _ lapsesAtMs => some lapsesAtMs

/-- Whether a call that lost its set gets it back: only a bare or a marked key. -/
def isOpen : Slot → Bool
  | .bare => true
  | .marked _ _ => true
  | _ => false

/-- The slot after its set is re-created: a marker's number stays the latest. -/
def recreated (entries : List AdmitEntry) (change : ℕ) (leaseExpiresAtMs : ℤ) (slot : Slot) : Slot :=
  .holding entries (max (slot.known.getD 0) change) leaseExpiresAtMs

/-- The slot after a kept refusal numbered `change`. -/
def recorded (change : ℕ) (lapsesAtMs : ℤ) : Slot → Slot
  | .holding entries _ leaseExpiresAtMs => .holding entries change leaseExpiresAtMs
  | .fenced (.dropped _) lapses => .fenced (.dropped change) lapses
  | _ => .marked change lapsesAtMs

/-- The slot after an admission: an empty set is a fence against refresh. -/
def replaced (entries : List AdmitEntry) (change : ℕ) (leaseExpiresAtMs : ℤ) : Slot :=
  if entries.isEmpty then .fenced (.dropped change) leaseExpiresAtMs
  else .holding entries change leaseExpiresAtMs

/-- Everything a request can do to a slot that the sweep left, with `leaseEnd` one lease after the
    instant the request read. -/
inductive Move (leaseEnd : ℤ) : Slot → Slot → Prop
  | dropped {slot : Slot} {change : ℕ} :
      (∀ known, slot.known = some known → known < change) →
      (∀ lapses, slot ≠ .fenced .released lapses) →
      Move leaseEnd slot (.fenced (.dropped change) leaseEnd)
  | replaced {slot : Slot} {entries : List AdmitEntry} {change : ℕ} :
      (∀ known, slot.known = some known → known < change) →
      (∀ lapses, slot ≠ .fenced .released lapses) →
      Move leaseEnd slot (.holding entries change leaseEnd)
  | recorded {slot : Slot} {change : ℕ} :
      (∀ known, slot.known = some known → known < change) →
      (∀ lapses, slot ≠ .fenced .released lapses) →
      Move leaseEnd slot (slot.recorded change leaseEnd)
  | recreated {slot : Slot} {entries : List AdmitEntry} {change : ℕ} :
      slot.isOpen = true →
      Move leaseEnd slot (slot.recreated entries change leaseEnd)
  | released {slot : Slot} :
      (∀ lapses, slot ≠ .fenced .released lapses) →
      Move leaseEnd slot (.fenced .released leaseEnd)
  | extended {entries : List AdmitEntry} {change : ℕ} {lease : ℤ} :
      Move leaseEnd (.holding entries change lease) (.holding entries change leaseEnd)

/-- Any number of moves under one request. -/
abbrev Moves (leaseEnd : ℤ) : Slot → Slot → Prop := Relation.ReflTransGen (Move leaseEnd)

/-- What every move keeps, any number of moves keeps. -/
theorem Moves.keeps {leaseEnd : ℤ} {property : Slot → Prop}
    (kept : ∀ before after, property before → Move leaseEnd before after → property after)
    {slot last : Slot} (moves : Moves leaseEnd slot last) (start : property slot) :
    property last := by
  induction moves with
  | refl => exact start
  | tail _ move ih => exact kept _ _ ih move

end Slot

namespace Inner

/-- The slot the three tables give a key. -/
def slot (inner : Inner) (key : String) : Slot :=
  match inner.calls.get key with
  | some set => .holding set.entries set.change set.leaseExpiresAtMs
  | none =>
    match inner.fences.get key with
    | some (why, lapsesAtMs) => .fenced why lapsesAtMs
    | none =>
      match inner.markers.get key with
      | some (change, lapsesAtMs) => .marked change lapsesAtMs
      | none => .bare

variable {inner after : Inner} {key other : String}

theorem slot_congr (calls : after.calls.get key = inner.calls.get key)
    (fences : after.fences.get key = inner.fences.get key) (markers : after.markers.get key = inner.markers.get key) :
    after.slot key = inner.slot key := by
  simp only [slot, calls, fences, markers]

/-! ### Reading a slot -/

theorem slot_of_set {set : CallSet} (found : inner.calls.get key = some set) :
    inner.slot key = .holding set.entries set.change set.leaseExpiresAtMs := by
  simp only [slot, found]

theorem slot_of_fence {fence : Fence × ℤ} (noSet : inner.calls.get key = none)
    (found : inner.fences.get key = some fence) : inner.slot key = .fenced fence.1 fence.2 := by
  simp only [slot, noSet, found]

theorem slot_of_marker {marker : ℕ × ℤ} (noSet : inner.calls.get key = none)
    (noFence : inner.fences.get key = none) (found : inner.markers.get key = some marker) :
    inner.slot key = .marked marker.1 marker.2 := by
  simp only [slot, noSet, noFence, found]

theorem slot_of_none (noSet : inner.calls.get key = none) (noFence : inner.fences.get key = none)
    (noMarker : inner.markers.get key = none) : inner.slot key = .bare := by
  simp only [slot, noSet, noFence, noMarker]

/-- The cases of a key in an exclusive store. -/
theorem Exclusive.slot_cases (exclusive : inner.Exclusive) (key : String) :
    (∃ set, inner.calls.get key = some set ∧ inner.fences.get key = none ∧
        inner.markers.get key = none) ∨
      (∃ fence, inner.calls.get key = none ∧ inner.fences.get key = some fence ∧
        inner.markers.get key = none) ∨
      (∃ marker, inner.calls.get key = none ∧ inner.fences.get key = none ∧
        inner.markers.get key = some marker) ∨
      (inner.calls.get key = none ∧ inner.fences.get key = none ∧
        inner.markers.get key = none) := by
  cases foundSet : inner.calls.get key with
  | some set =>
    exact Or.inl ⟨set, rfl, exclusive.setFence key set foundSet, exclusive.setMarker key set foundSet⟩
  | none =>
    cases foundFence : inner.fences.get key with
    | some fence =>
      exact Or.inr (Or.inl ⟨fence, rfl, rfl, exclusive.fenceMarker key fence foundFence⟩)
    | none =>
      cases foundMarker : inner.markers.get key with
      | some marker => exact Or.inr (Or.inr (Or.inl ⟨marker, rfl, rfl, rfl⟩))
      | none => exact Or.inr (Or.inr (Or.inr ⟨rfl, rfl, rfl⟩))

/-- A fenced key has no set. -/
theorem Exclusive.noSet_of_fence (exclusive : inner.Exclusive) {fence : Fence × ℤ}
    (found : inner.fences.get key = some fence) : inner.calls.get key = none := by
  rcases exclusive.slot_cases key with
    ⟨_, _, noFence, _⟩ | ⟨_, noSet, _, _⟩ | ⟨_, noSet, _, _⟩ | ⟨noSet, _, _⟩
  · rw [noFence] at found
    cases found
  · exact noSet
  · exact noSet
  · exact noSet

/-- The change known is the slot's. -/
theorem Exclusive.knownChange_eq (exclusive : inner.Exclusive) (key : String) :
    inner.knownChange key = (inner.slot key).known := by
  rcases exclusive.slot_cases key with
    ⟨set, noSet, _, _⟩ | ⟨⟨why, lapses⟩, noSet, noFence, noMarker⟩ |
      ⟨marker, noSet, noFence, noMarker⟩ | ⟨noSet, noFence, noMarker⟩
  · simp [knownChange, slot, noSet, Slot.known]
  · cases why <;> simp [knownChange, slot, noSet, noFence, noMarker, Slot.known]
  · simp [knownChange, slot, noSet, noFence, noMarker, Slot.known]
  · simp [knownChange, slot, noSet, noFence, noMarker, Slot.known]

/-- A set with entries is registered again where the slot is open. -/
theorem reregisters_eq : inner.reregisters key entries = (!entries.isEmpty && (inner.slot key).isOpen) := by
  unfold reregisters slot
  cases inner.calls.get key with
  | some set => simp [Slot.isOpen]
  | none =>
    cases inner.fences.get key with
    | some fence => simp [Slot.isOpen]
    | none => cases inner.markers.get key <;> simp [Slot.isOpen]

theorem releaseFenced_iff (exclusive : inner.Exclusive) :
    inner.releaseFenced key = true ↔ ∃ lapses, inner.slot key = .fenced .released lapses := by
  rcases exclusive.slot_cases key with
    ⟨set, noSet, noFence, _⟩ | ⟨⟨why, lapses⟩, noSet, noFence, noMarker⟩ |
      ⟨marker, noSet, noFence, noMarker⟩ | ⟨noSet, noFence, noMarker⟩
  · simp [releaseFenced, slot, noSet, noFence]
  · cases why <;> simp [releaseFenced, slot, noSet, noFence]
  · simp [releaseFenced, slot, noSet, noFence, noMarker]
  · simp [releaseFenced, slot, noSet, noFence, noMarker]

/-! ### Operations on another key -/

/-- Two states that differ at most at one key. -/
structure SameExcept (key : String) (inner after : Inner) : Prop where
  calls : ∀ other, other ≠ key → after.calls.get other = inner.calls.get other
  fences : ∀ other, other ≠ key → after.fences.get other = inner.fences.get other
  markers : ∀ other, other ≠ key → after.markers.get other = inner.markers.get other

namespace SameExcept

theorem slot (same : SameExcept key inner after) (ne : other ≠ key) : after.slot other = inner.slot other :=
  slot_congr (same.calls other ne) (same.fences other ne) (same.markers other ne)

theorem trans {last : Inner} (first : SameExcept key inner after)
    (second : SameExcept key after last) : SameExcept key inner last where
  calls other ne := (second.calls other ne).trans (first.calls other ne)
  fences other ne := (second.fences other ne).trans (first.fences other ne)
  markers other ne := (second.markers other ne).trans (first.markers other ne)

theorem refl (inner : Inner) (key : String) :
    SameExcept key inner inner := ⟨fun _ _ => rfl, fun _ _ => rfl, fun _ _ => rfl⟩

theorem write {leaseEnd : ℤ} (write : Write key leaseEnd inner after) : SameExcept key inner after := by
  cases write <;> constructor <;> intro other ne <;>
    simp [Inner.dropMarker, Inner.dropFence, Inner.fence, Inner.insertSet, ne]

theorem writes {leaseEnd : ℤ} (writes : Writes key leaseEnd inner after) : SameExcept key inner after := by
  induction writes with
  | refl => exact .refl inner key
  | tail _ write ih => exact ih.trans (.write write)

theorem refresh (inner : Inner) (key : String) (change : ℕ) (entries : List AdmitEntry) (leaseExpiresAtMs : ℤ) :
    SameExcept key inner (inner.refresh key change entries leaseExpiresAtMs).1 := by
  rcases inner.refresh_writes key change entries with ⟨set, _, extended⟩ | isWritten
  · rw [extended]
    constructor <;> intro other ne <;> simp [ne]
  · exact writes isWritten

end SameExcept

/-! ### Sweeping -/

/-- A slot that has not ended survives the sweep, under any clock. -/
theorem slot_sweep_of_lt (sound : inner.Sound) {nowMs : ℤ}
    (runs : ∀ instant, (inner.slot key).endsAt = some instant → nowMs < instant) :
    (inner.sweep nowMs).slot key = inner.slot key := by
  have swept := sweep_calls sound nowMs key
  have sweptFence := sweep_fences sound nowMs key
  have sweptMarker := sweep_markers sound nowMs key
  rcases sound.exclusive.slot_cases key with
    ⟨set, noSet, noFence, noMarker⟩ | ⟨fence, noSet, noFence, noMarker⟩ |
      ⟨marker, noSet, noFence, noMarker⟩ | ⟨noSet, noFence, noMarker⟩
  · rw [slot_of_set noSet] at runs ⊢
    have leased := runs _ rfl
    obtain ⟨pendingDeadlineMs, found⟩ := (sound.sweepKeeps nowMs).set key set noSet leased
    rw [slot_of_set found]
  · rw [slot_of_fence noSet noFence] at runs ⊢
    have found := (sound.sweepKeeps nowMs).fence key fence noFence (runs _ rfl)
    exact slot_of_fence (by rw [swept, noSet]; rfl) found
  · rw [slot_of_marker noSet noFence noMarker] at runs ⊢
    have found := (sound.sweepKeeps nowMs).marker key marker noMarker (runs _ rfl)
    exact slot_of_marker (by rw [swept, noSet]; rfl) (by rw [sweptFence, noFence]; rfl) found
  · rw [slot_of_none noSet noFence noMarker]
    exact slot_of_none (by rw [swept, noSet]; rfl) (by rw [sweptFence, noFence]; rfl)
      (by rw [sweptMarker, noMarker]; rfl)

/-- A slot that has ended is bare after the sweep of a prompt store. -/
theorem slot_sweep_of_le (sound : inner.Sound) (prompt : inner.Prompt) {nowMs instant : ℤ}
    (ends : (inner.slot key).endsAt = some instant) (ended : instant ≤ nowMs) :
    (inner.sweep nowMs).slot key = .bare := by
  have swept := sweep_calls sound nowMs key
  have sweptFence := sweep_fences sound nowMs key
  have sweptMarker := sweep_markers sound nowMs key
  have timely := prompt.sweep sound nowMs
  have lapsed : ∀ {Kind : Type} {entry : Kind × ℤ}, entry.2 = instant →
      sweptEntry nowMs (some entry) = none := by
    intro Kind entry same
    simp [sweptEntry, Option.filter, same, not_lt.2 ended]
  rcases sound.exclusive.slot_cases key with
    ⟨set, noSet, noFence, noMarker⟩ | ⟨fence, noSet, noFence, noMarker⟩ |
      ⟨marker, noSet, noFence, noMarker⟩ | ⟨noSet, noFence, noMarker⟩
  · rw [slot_of_set noSet] at ends
    have leaseEq : set.leaseExpiresAtMs = instant := Option.some.inj ends
    refine slot_of_none ?_ (by rw [sweptFence, noFence]; rfl) (by rw [sweptMarker, noMarker]; rfl)
    have pending := prompt key set noSet
    have due : ¬ nowMs < set.pendingDeadlineMs := by omega
    have lapsedSet : ¬ nowMs < set.leaseExpiresAtMs := by omega
    simp [swept, noSet, sweptSet, due, lapsedSet]
  · rw [slot_of_fence noSet noFence] at ends
    exact slot_of_none (by rw [swept, noSet]; rfl)
      (by rw [sweptFence, noFence]; exact lapsed (Option.some.inj ends))
      (by rw [sweptMarker, noMarker]; rfl)
  · rw [slot_of_marker noSet noFence noMarker] at ends
    exact slot_of_none (by rw [swept, noSet]; rfl) (by rw [sweptFence, noFence]; rfl)
      (by rw [sweptMarker, noMarker]; exact lapsed (Option.some.inj ends))
  · rw [slot_of_none noSet noFence noMarker] at ends
    cases ends

/-! ### Operations on the key itself -/

theorem slot_fence (noSet : inner.calls.get key = none) {why : Fence} :
    (inner.fence key why lapsesAtMs).slot key = .fenced why lapsesAtMs := by
  have found : (inner.fence key why lapsesAtMs).fences.get key = some (why, lapsesAtMs) := by
    simp [fence]
  have noSetAfter : (inner.fence key why lapsesAtMs).calls.get key = none := noSet
  rw [slot_of_fence noSetAfter found]

theorem slot_insertSet :
    (inner.insertSet key entries change leaseExpiresAtMs).slot key =
      .holding entries change leaseExpiresAtMs := by
  have found : (inner.insertSet key entries change leaseExpiresAtMs).calls.get key =
      some ⟨entries, change, leaseExpiresAtMs, leaseExpiresAtMs⟩ := by
    simp [insertSet]
  rw [slot_of_set found]

/-- A change is recorded in the slot. -/
theorem slot_recordChange (notReleased : inner.releaseFenced key = false) :
    (inner.recordChange key change lapsesAtMs).slot key =
      (inner.slot key).recorded change lapsesAtMs := by
  unfold recordChange
  cases foundSet : inner.calls.get key with
  | some set => simp [slot, foundSet, Slot.recorded]
  | none =>
    cases foundFence : inner.fences.get key with
    | some fence =>
      obtain ⟨why, lapses⟩ := fence
      cases why with
      | dropped known => simp [slot, foundSet, foundFence, Slot.recorded]
      | released => simp [releaseFenced, foundFence] at notReleased
    | none =>
      cases foundMarker : inner.markers.get key <;> simp [slot, foundSet, foundFence, foundMarker, Slot.recorded]

/-- A set registered again is the slot's. -/
theorem slot_reregister (isOpen : inner.reregisters key entries = true) :
    (inner.reregister key change entries leaseExpiresAtMs).slot key =
      (inner.slot key).recreated entries change leaseExpiresAtMs := by
  simp only [reregisters, Bool.and_eq_true, Option.isNone_iff_eq_none] at isOpen
  rw [reregister, slot_insertSet]
  cases foundMarker : inner.markers.get key <;>
    simp [slot, isOpen.1.2, isOpen.2, foundMarker, Slot.recreated, Slot.known]

/-- The slot once an admit has re-created the set it carries. -/
def carriedSlot (inner : Inner) (key : String) (held : HeldSet) (leaseExpiresAtMs : ℤ) : Slot :=
  if inner.reregisters key held.entries then
    (inner.slot key).recreated held.entries held.change leaseExpiresAtMs
  else inner.slot key

theorem slot_carry {held : HeldSet} :
    (inner.carry key held leaseExpiresAtMs).slot key =
      inner.carriedSlot key held leaseExpiresAtMs := by
  unfold carry carriedSlot
  split
  · rename_i isOpen
    rw [← slot_reregister isOpen]
    exact slot_congr rfl rfl rfl
  · rfl

/-- Everything an admit can answer, and its key's slot after it. -/
theorem admit_cases (sound : inner.Sound) (key : String) (change : ℕ) (held : HeldSet)
    (entries : List AdmitEntry) (releaseOnRefusal : Bool) (leaseExpiresAtMs : ℤ) :
    let answer := inner.admitSet key change held entries releaseOnRefusal leaseExpiresAtMs
    let carried := inner.carry key held leaseExpiresAtMs
    (inner.releaseFenced key = true ∧ answer.2 = .released ∧
        answer.1.calls.get key = inner.calls.get key ∧ answer.1.slot key = inner.slot key) ∨
      (inner.releaseFenced key = false ∧
        (∃ known, (inner.slot key).known = some known ∧ change ≤ known) ∧
        (∃ heldSet, answer.2 = .superseded heldSet) ∧ answer.1 = inner) ∨
      (inner.releaseFenced key = false ∧
        (∀ known, (inner.slot key).known = some known → known < change) ∧
        ((∃ entry, carried.refused key entries = some entry ∧
            (∃ heldSet, answer.2 = .rejected entry.id heldSet) ∧
            answer.1.slot key =
              if releaseOnRefusal then .fenced (.dropped change) leaseExpiresAtMs
              else (inner.carriedSlot key held leaseExpiresAtMs).recorded change
                leaseExpiresAtMs) ∨
          (carried.refused key entries = none ∧ answer.2 = .admitted ∧
            answer.1.slot key = Slot.replaced entries change leaseExpiresAtMs))) := by
  intro answer carried
  have known := sound.exclusive.knownChange_eq key
  rcases inner.admitSet_cases key change held entries releaseOnRefusal leaseExpiresAtMs with
    ⟨fenced, isAnswer⟩ | ⟨notFenced, late, isAnswer⟩ | ⟨notFenced, newer, outcome⟩
  · refine .inl ⟨fenced, ?_⟩
    simp only [answer, isAnswer]
    exact ⟨trivial, trivial, slot_congr rfl rfl rfl⟩
  · refine .inr (.inl ⟨notFenced, ?_, ⟨_, congrArg Prod.snd isAnswer⟩, congrArg Prod.fst isAnswer⟩)
    rw [known, Option.any_eq_true] at late
    simpa using late
  refine .inr (.inr ⟨notFenced, ?_, ?_⟩)
  · intro number isKnown
    rw [known, isKnown] at newer
    simpa using newer
  rcases outcome with ⟨entry, isRefused, isAnswer⟩ | ⟨isAdmitted, isAnswer⟩
  · refine .inl ⟨entry, isRefused, ⟨_, congrArg Prod.snd isAnswer⟩, ?_⟩
    simp only [answer, isAnswer, refuse]
    split
    · exact slot_fence (by simp [dropMarker])
    · rw [slot_recordChange (carry_releaseFenced.trans notFenced), slot_carry]
  · refine .inr ⟨isAdmitted, congrArg Prod.snd isAnswer, ?_⟩
    simp only [answer, isAnswer, replaceSet, Slot.replaced]
    split
    · exact slot_fence (by simp [dropMarker, dropFence])
    · exact slot_insertSet

/-- A release fences the slot once. -/
theorem slot_release {fencedUntilMs : ℤ} :
    (inner.release fencedUntilMs key).slot key =
      if inner.releaseFenced key then inner.slot key else .fenced .released fencedUntilMs := by
  by_cases fenced : inner.releaseFenced key = true
  · have counted : ({ inner with
        releasesTotal := inner.releasesTotal + 1 } : Inner).releaseFenced key = true := fenced
    simp only [release, counted, fenced, if_true]
    exact slot_congr rfl rfl rfl
  · have counted : ¬ ({ inner with
        releasesTotal := inner.releasesTotal + 1 } : Inner).releaseFenced key = true := fenced
    simp only [release, counted, fenced, if_false, Bool.false_eq_true]
    exact slot_fence (by simp [dropMarker])

/-- Everything a refresh can do to its key's slot. -/
theorem refresh_cases (inner : Inner) (key : String) (change : ℕ) (entries : List AdmitEntry) (leaseExpiresAtMs : ℤ) :
    let after := (inner.refresh key change entries leaseExpiresAtMs).1
    (∃ held number lease, inner.slot key = .holding held number lease ∧
        after.slot key = .holding held number leaseExpiresAtMs) ∨
      (inner.reregisters key entries = true ∧
        after.slot key = (inner.slot key).recreated entries change leaseExpiresAtMs) ∨
      ((∀ held number lease, inner.slot key ≠ .holding held number lease) ∧
        after.slot key = inner.slot key) := by
  intro after
  cases foundSet : inner.calls.get key with
  | some set =>
    refine Or.inl ⟨set.entries, set.change, set.leaseExpiresAtMs, slot_of_set foundSet, ?_⟩
    simp [after, refresh, foundSet, slot]
  | none =>
    refine Or.inr ?_
    by_cases isOpen : inner.reregisters key entries = true
    · refine Or.inl ⟨isOpen, ?_⟩
      simp only [after, refresh, foundSet, isOpen, if_true]
      rw [← slot_reregister isOpen]
      exact slot_congr rfl rfl rfl
    refine Or.inr ⟨?_, ?_⟩
    · intro held number lease
      simp only [slot, foundSet]
      split
      · simp
      · split <;> simp
    · simp only [after, refresh, foundSet, isOpen, if_false, Bool.false_eq_true]
      split <;> rfl

/-! ### Every request moves a slot as stated -/

theorem slot_ne_released (exclusive : inner.Exclusive) (notReleased : inner.releaseFenced key = false) (lapses : ℤ) :
    inner.slot key ≠ .fenced .released lapses := by
  intro released
  have fenced := (releaseFenced_iff exclusive).2 ⟨lapses, released⟩
  rw [notReleased] at fenced
  cases fenced

/-- An admit moves every slot. -/
theorem admit_moves (sound : inner.Sound) (key other : String) (change : ℕ) (held : HeldSet)
    (entries : List AdmitEntry) (releaseOnRefusal : Bool) (leaseEnd : ℤ) :
    Slot.Moves leaseEnd (inner.slot other)
      ((inner.admitSet key change held entries releaseOnRefusal leaseEnd).1.slot other) := by
  by_cases same : other = key
  · subst same
    rcases admit_cases sound other change held entries releaseOnRefusal leaseEnd with
      ⟨_, _, _, slotEq⟩ | ⟨_, _, _, unchanged⟩ | ⟨notReleased, newer, outcome⟩
    · rw [slotEq]
    · rw [unchanged]
    · have ne := slot_ne_released sound.exclusive notReleased
      rcases outcome with ⟨entry, _, _, slotEq⟩ | ⟨_, _, slotEq⟩
      · rw [slotEq]
        split
        · exact .single (.dropped newer ne)
        unfold carriedSlot
        split
        · -- the re-created set takes the admit's number, whatever number it was carried under
          exact .single (.replaced newer ne)
        · exact .single (.recorded newer ne)
      · rw [slotEq]
        unfold Slot.replaced
        split
        · exact .single (.dropped newer ne)
        · exact .single (.replaced newer ne)
  · rw [(SameExcept.writes (inner.admitSet_writes key change held entries releaseOnRefusal)).slot same]

theorem release_moves (sound : inner.Sound) (key other : String) (leaseEnd : ℤ) :
    Slot.Moves leaseEnd (inner.slot other) ((inner.release leaseEnd key).slot other) := by
  by_cases same : other = key
  · subst same
    rw [slot_release]
    split
    · exact .refl
    rename_i notReleased
    exact .single (.released (slot_ne_released sound.exclusive (by simpa using notReleased)))
  · rw [(SameExcept.writes (inner.release_writes key)).slot same]

/-- A refresh moves every slot. -/
theorem refresh_moves (inner : Inner) (key other : String) (change : ℕ) (entries : List AdmitEntry) (leaseEnd : ℤ) :
    Slot.Moves leaseEnd (inner.slot other)
      ((inner.refresh key change entries leaseEnd).1.slot other) := by
  by_cases same : other = key
  · subst same
    rcases refresh_cases inner other change entries leaseEnd with
      ⟨held, number, lease, before, after⟩ | ⟨isOpen, after⟩ | ⟨_, after⟩
    · rw [before, after]
      exact .single .extended
    · rw [after]
      rw [reregisters_eq, Bool.and_eq_true] at isOpen
      exact .single (.recreated isOpen.2)
    · rw [after]
  · rw [(SameExcept.refresh inner key change entries leaseEnd).slot same]

end Inner

/-- Every request moves every slot the sweep left by the stated moves only. -/
theorem CallStore.serve_moves {store : CallStore} (sound : store.inner.Sound) {request : Request} {key : String} :
    Slot.Moves (store.leaseEnd request.nowMs) ((store.inner.sweep request.nowMs).slot key)
      ((store.serve request).inner.slot key) := by
  have swept := Inner.sweep_sound sound request.nowMs
  obtain ⟨nowMs, operation⟩ := request
  cases operation with
  | admitCarrying admitted change held entries releaseOnRefusal =>
    exact Inner.admit_moves swept admitted key change held entries releaseOnRefusal _
  | release keys =>
    simp only [serve, release]
    generalize store.inner.sweep nowMs = inner at swept
    induction keys generalizing inner with
    | nil => exact .refl
    | cons released keys ih =>
      exact (Inner.release_moves swept released key _).trans (ih _ (swept.writes (inner.release_writes released)))
  | refreshAll calls =>
    simp only [serve, refreshAll]
    generalize store.inner.sweep nowMs = inner at swept
    induction calls generalizing inner with
    | nil => exact .refl
    | cons call calls ih =>
      obtain ⟨refreshed, change, entries⟩ := call
      exact (Inner.refresh_moves inner refreshed key change entries _).trans
        (ih _ (swept.refresh change entries _))
  | sweepNow | heldSet | held | calls => exact .refl

end SipServer.Limiter
