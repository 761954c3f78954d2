/-
Module: SipServer.Proofs.ApplyGate
Purpose: The vectors and the meeting settle a replicated frame alike: whenever the gate skips a frame or
  takes it whole, a meeting of the two copies would have kept the same compared state. It holds of any two
  copies of a run, however old the stored one or the frame is.
-/
import SipServer.Store.ApplyGate
import SipServer.Proofs.Containment

namespace SipServer.Store

open SipServer.Call
open SipServer.Lib (run run_invariant)

namespace Copies

variable {Data : Type} [DecidableEq Data] {base : PartitionRole → ℤ} {originOwed : Bool} {copies after : Copies Data}

theorem applies_family {held : List (Copy Data)} {copy incoming : Copy Data} (family : Family base originOwed held)
    (copyHeld : copy ∈ held) (incomingHeld : incoming ∈ held) {role : PartitionRole} :
    Family base originOwed (copy.applies incoming role :: held) := by
  unfold Copy.applies
  split
  · exact family.add_held incomingHeld
  · exact family.add_held copyHeld
  · exact family.meets copyHeld incomingHeld role

theorem step_family {event : Event Data} (stepped : copies.step event = some after)
    (family : Family base originOwed copies.held) : Family base originOwed after.held := by
  cases event with
  | write role copy next limiterWrites =>
    simp only [step, Option.bind_eq_bind, Option.bind_eq_some_iff] at stepped
    obtain ⟨mine, found, written⟩ := stepped
    split at written
    next ahead =>
      cases written
      refine family.write (List.mem_of_getElem? found) (fun other member => ?_) _ next limiterWrites
      have behind := of_decide_eq_true (List.all_eq_true.mp ahead other member)
      cases role <;> exact behind
    next => cases written
  | apply role stored incoming =>
    simp only [step, Option.bind_eq_bind, Option.bind_eq_some_iff] at stepped
    obtain ⟨copy, found, other, foundOther, kept⟩ := stepped
    cases kept
    exact applies_family family (List.mem_of_getElem? found) (List.mem_of_getElem? foundOther)
  | meet role live incoming =>
    simp only [step, Option.bind_eq_bind, Option.bind_eq_some_iff] at stepped
    obtain ⟨copy, found, other, foundOther, kept⟩ := stepped
    cases kept
    exact family.meets (List.mem_of_getElem? found) (List.mem_of_getElem? foundOther) role
  | lose copy =>
    cases stepped
    exact family.subset fun copy member => List.mem_of_mem_eraseIdx member

theorem run_family {events : List (Event Data)} (ran : run step copies events = some after)
    (family : Family base originOwed copies.held) : Family base originOwed after.held :=
  run_invariant (fun copies => Family base originOwed copies.held)
    (fun _ _ _ held stepped => step_family stepped held) ran family

end Copies

/-! ### The gate and the meeting -/

section Gate

variable {Data : Type} [DecidableEq Data]

/-- The copy a meeting keeps, unless the copies diverged. -/
def Met.kept : Met Data → Option (Enveloped Data)
  | .held kept => some kept
  | .incoming kept => some kept
  | .diverged => none

/-- A meeting keeps the copy that contains the other, or the other one when each contains the other. -/
theorem meet_kept_of_contains {stored incoming larger smaller : Copy Data} (incomingIsPrimary : Bool)
    (pair : stored = larger ∧ incoming = smaller ∨ incoming = larger ∧ stored = smaller)
    (contained : contains larger.topology smaller.topology = true) :
    (meet stored.enveloped incoming.enveloped incomingIsPrimary).kept = some (larger.absorb smaller).enveloped ∨
      contains smaller.topology larger.topology = true ∧
        (meet stored.enveloped incoming.enveloped incomingIsPrimary).kept =
          some (smaller.absorb larger).enveloped := by
  cases back : contains smaller.topology larger.topology <;> obtain ⟨rfl, rfl⟩ | ⟨rfl, rfl⟩ := pair <;>
    cases incomingIsPrimary <;>
    simp [meet, containment, Copy.enveloped, contained, back, Met.kept, Enveloped.mergeExempt, Copy.absorb]

theorem dominated_iff_le (stored incoming : CallTopology) :
    dominated stored.vector incoming.vector = true ↔ incoming.counts ≤ stored.counts := by
  simp only [dominated, Bool.and_eq_true, decide_eq_true_eq]
  constructor
  · intro within component
    cases component with
    | primary => exact within.1
    | backup => exact within.2
  · exact fun within => ⟨within .primary, within .backup⟩

/-- In both steady directions a frame is skipped when its vector is dominated, and taken whole when it
    descends. -/
theorem applyGate_cases {mode : ApplyMode} (steady : mode ≠ .bootstrap) (stored incoming : ℤ × ℤ) :
    (applyGate mode (some stored) false incoming = some .dominated → dominated stored incoming = true) ∧
      (applyGate mode (some stored) false incoming = some .applied → descends stored incoming = true) := by
  have gate : applyGate mode (some stored) false incoming =
      applyGate.vectors (some stored) incoming := by
    cases mode with
    | bootstrap => exact absurd rfl steady
    | forward => rfl
    | reverse => rfl
  rw [gate]
  simp only [applyGate.vectors]
  cases dominated stored incoming <;> cases descends stored incoming <;> simp

end Gate

namespace Copies

variable {Data : Type} [DecidableEq Data]

section Agreement

variable {base : PartitionRole → ℤ} {originOwed : Bool} {held : List (Copy Data)} {larger smaller : Copy Data}

/-- A copy whose vector is at or past the other's contains it: its stamp is within its own vector. -/
theorem contains_of_vector_le (family : Family base originOwed held) (smallerHeld : smaller ∈ held)
    (within : smaller.topology.counts ≤ larger.topology.counts) :
    contains larger.topology smaller.topology = true :=
  (contains_iff_le).mpr ((family.stands smaller smallerHeld).stamped.within.trans within)

/-- Whichever of two copies is kept, the state is that of the one that contains the other. -/
theorem kept_sameState (family : Family base originOwed held) (largerHeld : larger ∈ held)
    (smallerHeld : smaller ∈ held) (contained : contains larger.topology smaller.topology = true)
    {kept : Option (Enveloped Data)}
    (keeps : kept = some (larger.absorb smaller).enveloped ∨
      contains smaller.topology larger.topology = true ∧ kept = some (smaller.absorb larger).enveloped) :
    ∃ copy, kept = some copy ∧ copy.call.sameState larger.call = true := by
  have kin := family.kin larger largerHeld smaller smallerHeld
  have back := family.kin smaller smallerHeld larger largerHeld
  have largerStands := family.stands larger largerHeld
  have smallerStands := family.stands smaller smallerHeld
  cases keeps with
  | inl own => exact ⟨_, own, kin.kept_sameState largerStands smallerStands contained⟩
  | inr other =>
    obtain ⟨holds, keeps⟩ := other
    have same := back.sameState_of_mutual kin smallerStands largerStands holds contained
    exact ⟨_, keeps, Record.sameState_trans (back.kept_sameState smallerStands largerStands holds) same⟩

end Agreement

/-- Over any run of one call's copies, in both steady directions: when the gate skips a frame a meeting would
    have kept the stored copy's compared state, and when it takes the frame whole a meeting would have kept
    the incoming copy's. -/
theorem applyGate_agrees_with_meet (call : Record Data) (pri bak : String) (gen bakGen : ℤ)
    (events : List (Event Data)) (copies : Copies Data)
    (ran : run step (origin call (.new pri bak gen bakGen)) events = some copies)
    (mode : ApplyMode) (steady : mode ≠ .bootstrap) (stored incoming : Copy Data)
    (storedHeld : stored ∈ copies.held) (incomingHeld : incoming ∈ copies.held) :
    let gate := applyGate mode (some stored.topology.vector) false incoming.topology.vector
    let met := meet stored.enveloped incoming.enveloped (decide (mode = .forward))
    (gate = some .dominated → ∃ kept, met.kept = some kept ∧ kept.call.sameState stored.call = true) ∧
      (gate = some .applied → ∃ kept, met.kept = some kept ∧ kept.call.sameState incoming.call = true) := by
  intro gate met
  have family := run_family ran (Family.origin call pri bak gen bakGen)
  have gates := applyGate_cases steady stored.topology.vector incoming.topology.vector
  constructor
  · intro skipped
    have contained : contains stored.topology incoming.topology = true :=
      contains_of_vector_le family incomingHeld ((dominated_iff_le _ _).mp (gates.1 skipped))
    exact kept_sameState family storedHeld incomingHeld contained
      (meet_kept_of_contains _ (.inl ⟨rfl, rfl⟩) contained)
  · intro taken
    have descended : dominated incoming.topology.vector stored.topology.vector = true := gates.2 taken
    have contained : contains incoming.topology stored.topology = true :=
      contains_of_vector_le family storedHeld ((dominated_iff_le _ _).mp descended)
    exact kept_sameState family incomingHeld storedHeld contained
      (meet_kept_of_contains _ (.inr ⟨rfl, rfl⟩) contained)

/-- The primary's first turn reaches the backup, and the copy it was made on comes back late. -/
theorem applyGate_agrees_after_one_turn :
    let first : Copy Bool := ⟨default, .new "w1" "w2" 1 0, []⟩
    let second : Copy Bool := first.write .primary 0 { (default : Record Bool) with rest := true } []
    first.call.sameState second.call = false ∧
      applyGate .forward (some first.topology.vector) false second.topology.vector = some .applied ∧
      applyGate .reverse (some second.topology.vector) false first.topology.vector = some .dominated ∧
      (∃ kept, (meet first.enveloped second.enveloped true).kept = some kept ∧
        kept.call.sameState second.call = true) ∧
      ∃ kept, (meet second.enveloped first.enveloped false).kept = some kept ∧
        kept.call.sameState second.call = true := by
  intro first second
  have ran : run step (origin (default : Record Bool) (.new "w1" "w2" 1 0))
      [.write .primary 0 { (default : Record Bool) with rest := true } []] = some ⟨[second, first], 1⟩ := by decide
  have taken := (applyGate_agrees_with_meet _ _ _ _ _ _ _ ran .forward (by decide) first second
    (by simp) (by simp)).2 (by decide)
  have skipped := (applyGate_agrees_with_meet _ _ _ _ _ _ _ ran .reverse (by decide) second first
    (by simp) (by simp)).1 (by decide)
  exact ⟨by decide, by decide, by decide, taken, skipped⟩

/-- A copy met by one it is contained in or contains counts the writes of both. -/
theorem counts_le_meets {copy incoming : Copy Data} (role : PartitionRole)
    (related : contains copy.topology incoming.topology ∨ contains incoming.topology copy.topology) :
    incoming.topology.counts ≤ (copy.meets incoming role).topology.counts := by
  cases holds : contains copy.topology incoming.topology <;>
    cases held : contains incoming.topology copy.topology <;> cases role <;>
    simp_all [Copy.meets, meet, containment, Copy.enveloped, Copy.replace, Enveloped.mergeExempt,
      CallTopology.counts_raiseVector]

/-- At every step of every run: once a node met another's copy, one of the two containing the other, the
    other node keeps the same compared state when it meets what the first one kept. -/
theorem meetings_settle (call : Record Data) (pri bak : String) (gen bakGen : ℤ) (events : List (Event Data)) :
    Lib.AllSteps step (fun copies _ => ∀ role, ∀ live ∈ copies.held, ∀ incoming ∈ copies.held,
      contains live.topology incoming.topology ∨ contains incoming.topology live.topology →
      let first := live.meets incoming role
      ∃ kept, (meet incoming.enveloped first.enveloped (decide (role.other = .backup))).kept = some kept ∧
        kept.call.sameState first.call) (origin call (.new pri bak gen bakGen)) events := by
  refine Lib.allSteps_of_invariant (fun copies => Family _ _ copies.held)
    (fun _ _ _ family _ stepped => step_family stepped family)
    (fun _ _ family _ role live liveHeld incoming incomingHeld related => ?_)
    (Lib.allSteps_of_mem (fun _ _ _ => trivial) _) (Family.origin call pri bak gen bakGen)
  have family := family.meets liveHeld incomingHeld role
  have held := List.mem_cons_of_mem (live.meets incoming role) incomingHeld
  have contained := contains_of_vector_le family held (counts_le_meets role related)
  exact kept_sameState family List.mem_cons_self held contained (meet_kept_of_contains _ (.inr ⟨rfl, rfl⟩) contained)

end Copies

end SipServer.Store
