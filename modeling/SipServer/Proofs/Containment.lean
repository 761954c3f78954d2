/-
Module: SipServer.Proofs.Containment
Purpose: Copies of one call, old ones included: containment as the source reads it from stamp and vector is
  inclusion of the changes the copies have incorporated. `Family` holds of any collection of copies and is
  kept by writes and meetings; over any run of two copies it gives the result.
-/
import SipServer.Lib.VersionVector
import SipServer.Store.Containment
import SipServer.Proofs.Compared

namespace SipServer.Store

open SipServer.Call CallLimiterState CallTopology
open SipServer.Lib (Change Version)

variable {limiterWrites : List LimiterWrite} {state : CallLimiterState}

variable {topology : CallTopology} {id : ℕ} {role : PartitionRole} {originOwed : Bool}

/-! ### The envelope as a version -/

theorem PartitionRole.ne_other (role : PartitionRole) : role ≠ role.other := by
  cases role <;> decide

namespace CallTopology

/-- The vector, by role. -/
def counts (topology : CallTopology) : PartitionRole → ℤ
  | .primary => topology.gen
  | .backup => topology.bakGen

/-- The stamp, by role. -/
def stampCounts (topology : CallTopology) : PartitionRole → ℤ
  | .primary => topology.stampGen
  | .backup => topology.stampBakGen

theorem counts_bump :
    (topology.bump role).counts = Function.update topology.counts role (topology.counts role + 1) := by
  funext component
  cases role <;> cases component <;> rfl

theorem counts_raiseVector {other : CallTopology} :
    (topology.raiseVector other).counts = topology.counts ⊔ other.counts := by
  funext component
  cases component <;> rfl

end CallTopology

theorem contains_iff_le {r l : CallTopology} : contains r l = true ↔ l.stampCounts ≤ r.counts := by
  simp only [contains, Bool.and_eq_true, decide_eq_true_eq]
  constructor
  · intro within component
    cases component with
    | primary => exact within.1
    | backup => exact within.2
  · intro within
    exact ⟨within .primary, within .backup⟩

/-- A recorded change as the library numbers it. -/
def StateChange.numbered (change : StateChange) : Change PartitionRole (ℕ × Bool) where
  author := change.author
  number
    | .primary => change.vector.1
    | .backup => change.vector.2
  tag := (change.id, change.owes)

theorem StateChange.numbered_injective : Function.Injective StateChange.numbered := by
  intro left right same
  have numbers := congrArg Change.number same
  have primary : left.vector.1 = right.vector.1 := congrFun numbers .primary
  have backup : left.vector.2 = right.vector.2 := congrFun numbers .backup
  cases left
  cases right
  simp only [numbered, Change.mk.injEq, Prod.mk.injEq] at same
  simp only [StateChange.mk.injEq]
  exact ⟨same.2.2.1, same.1, Prod.ext primary backup, same.2.2.2⟩

namespace Copy

variable {Data : Type} {copy : Copy Data}

def version (copy : Copy Data) : Version PartitionRole (ℕ × Bool) where
  vector := copy.topology.counts
  stamp := copy.topology.stampCounts
  seen := {change | ∃ recorded ∈ copy.seen, recorded.numbered = change}

theorem seen_subset_iff {other : Copy Data} :
    other.version.seen ⊆ copy.version.seen ↔ ∀ change ∈ other.seen, change ∈ copy.seen := by
  constructor
  · intro included change member
    obtain ⟨recorded, held, same⟩ := included ⟨change, member, rfl⟩
    rwa [← StateChange.numbered_injective same]
  · rintro included _ ⟨recorded, member, rfl⟩
    exact ⟨recorded, included recorded member, rfl⟩

/-- Stamping a change the vector counts is the library's record of it. -/
theorem version_record {call : Record Data} {owes : Bool} :
    (⟨call, (copy.topology.bump role).stampVector,
        ⟨id, role, (copy.topology.bump role).vector, owes⟩ :: copy.seen⟩ : Copy Data).version =
      (copy.version.bump role).record role (id, owes) := by
  have counts : (copy.topology.bump role).counts = (copy.version.bump role).vector := counts_bump
  have stamped : (copy.topology.bump role).stampVector.stampCounts = (copy.version.bump role).vector := by
    rw [← counts]
    funext component
    cases component <;> rfl
  have latest : (⟨id, role, (copy.topology.bump role).vector, owes⟩ : StateChange).numbered =
      ⟨role, (copy.version.bump role).vector, (id, owes)⟩ := by
    rw [← counts]
    simp only [StateChange.numbered, Change.mk.injEq, true_and, and_true]
    funext component
    cases component <;> rfl
  have vector : (copy.topology.bump role).stampVector.counts = (copy.version.bump role).vector := by
    rw [← counts]
    funext component
    cases component <;> rfl
  simp only [version, Version.record, Version.mk.injEq]
  refine ⟨vector, stamped, ?_⟩
  ext change
  simp only [List.mem_cons, exists_eq_or_imp, latest, Set.mem_ofPred_eq, Set.mem_insert_iff]
  exact or_congr_left eq_comm

variable [DecidableEq Data] {next : Record Data}

/-- The record a turn leaves: the limiter state is moved by its own operations. -/
def written (copy : Copy Data) (next : Record Data) (limiterWrites : List LimiterWrite) : Record Data :=
  { next with limiter := limiterWrites.foldl LimiterWrite.apply copy.call.limiter }

/-- A turn that changed no compared field counts itself and nothing more. -/
theorem write_unchanged (same : copy.call.sameState (copy.written next limiterWrites) = true) :
    copy.write role id next limiterWrites =
      ⟨copy.written next limiterWrites, copy.topology.bump role, copy.seen⟩ := by
  unfold written at same
  simp [write, written, replace, enveloped, Enveloped.update, same]

/-- A turn that changed a compared field stamps the vector it counts. -/
theorem write_changed (changed : copy.call.sameState (copy.written next limiterWrites) = false) :
    copy.write role id next limiterWrites =
      ⟨copy.written next limiterWrites, (copy.topology.bump role).stampVector,
        ⟨id, role, (copy.topology.bump role).vector,
          (copy.written next limiterWrites).limiter.releaseOwed⟩ :: copy.seen⟩ := by
  unfold written at changed
  simp [write, written, replace, enveloped, Enveloped.update, changed]

/-- `copy` takes in the exempt fields and the vector of `other`. -/
def absorb (copy other : Copy Data) : Copy Data :=
  ⟨copy.call.mergeExempt other.call, copy.topology.raiseVector other.topology, copy.seen⟩

theorem version_absorb {other : Copy Data} :
    (copy.absorb other).version = copy.version.raise other.version := by
  simp only [version, absorb, Version.raise, counts_raiseVector]
  rfl

/-- A meeting keeps a copy that contains the other, with the other's exempt fields, or nothing moves. -/
theorem meets_cases (copy incoming : Copy Data) (role : PartitionRole) :
    (contains copy.topology incoming.topology = true ∧ copy.meets incoming role = copy.absorb incoming) ∨
      (contains incoming.topology copy.topology = true ∧ copy.meets incoming role = incoming.absorb copy) ∨
      copy.meets incoming role = copy := by
  cases holds : contains copy.topology incoming.topology <;>
    cases held : contains incoming.topology copy.topology <;> cases role <;>
    simp [meets, meet, containment, enveloped, holds, held, replace, Enveloped.mergeExempt, absorb]

end Copy

/-! ### A release owed stays owed -/

theorem ask_releaseOwed {change : ℕ} {entries : List LimiterEntry} :
    (state.ask change entries).releaseOwed = state.releaseOwed := by
  unfold ask
  split <;> rfl

theorem applyHeld_releaseOwed {held : LimiterHeld} :
    (state.applyHeld held).releaseOwed = state.releaseOwed := by
  unfold applyHeld
  dsimp only
  split <;> rfl

theorem number_releaseOwed {turn : Numbering}
    (owed : state.releaseOwed = true) : (turn.apply state).releaseOwed = true := by
  cases turn with
  | oweConsult n => rfl
  | replaceSet entries movesCall =>
    have moved : (if movesCall then { state with runsOn := some entries } else state).releaseOwed = true := by
      split <;> exact owed
    simp only [Numbering.apply, replaceSet]
    generalize (if movesCall then { state with runsOn := some entries } else state) = start at moved
    split
    · rw [ask_releaseOwed]
      exact moved
    · rfl
  | renumberConsult n => exact owed
  | renumberReplacement entries =>
    simp only [Numbering.apply, renumberReplacement, ask_releaseOwed,
      nextChange, reserveChanges]
    exact owed
  | numberAdmit => exact owed

theorem applyAdmit_releaseOwed {report : AdmitReport}
    (owed : state.releaseOwed = true) : (state.applyAdmit report).releaseOwed = true := by
  unfold applyAdmit
  extract_lets sent raised stated cleared
  have raisedOwed : raised.releaseOwed = true := by
    show (state.releaseOwed || sent) = true
    rw [owed, Bool.true_or]
  have statedOwed : stated.releaseOwed = true := by
    dsimp only [stated]
    split
    · rw [applyHeld_releaseOwed]
      exact raisedOwed
    · exact raisedOwed
  have clearedOwed : cleared.releaseOwed = true := by
    show (if report.outcome = .released then { stated with held := [] } else stated).releaseOwed = true
    split <;> exact statedOwed
  split <;> exact clearedOwed

theorem learn_releaseOwed {answer : Learning}
    (owed : state.releaseOwed = true) : (answer.apply state).releaseOwed = true := by
  cases answer with
  | applyAdmit | applyFold | applyUnawaitedFold => exact applyAdmit_releaseOwed owed
  | applyRefresh key held =>
    simp only [Learning.apply, applyRefresh]
    split
    · exact owed
    cases held with
    | none => exact owed
    | some held =>
      rw [applyHeld_releaseOwed]
      exact owed

theorem limiterWrites_releaseOwed (owed : state.releaseOwed = true) :
    (limiterWrites.foldl LimiterWrite.apply state).releaseOwed = true := by
  induction limiterWrites generalizing state with
  | nil => exact owed
  | cons limiterWrite limiterWrites hypothesis =>
    apply hypothesis
    cases limiterWrite with
    | number turn => exact number_releaseOwed owed
    | learn answer => exact learn_releaseOwed owed

/-! ### What holds of the two copies -/

namespace Copy

variable {Data : Type} [DecidableEq Data] {call : Record Data}

/-- A copy owes a release exactly when its origin did or a change it incorporated left one owed. -/
def OwesAsSeen (originOwed : Bool) (copy : Copy Data) : Prop :=
  copy.call.limiter.releaseOwed = true ↔
    originOwed = true ∨ ∃ change ∈ copy.seen, change.owes = true

theorem owesAsSeen_absorb {copy other : Copy Data}
    (kept : (copy.call.mergeExempt other.call).sameState copy.call = true)
    (owes : copy.OwesAsSeen originOwed) : (copy.absorb other).OwesAsSeen originOwed := by
  have same : (copy.absorb other).call.limiter.releaseOwed = copy.call.limiter.releaseOwed :=
    Record.releaseOwed_of_sameState kept
  unfold OwesAsSeen
  rw [same]
  exact owes

/-- A turn that changed no compared field left the release as it was. -/
theorem OwesAsSeen.write_unchanged {copy : Copy Data} {next : Record Data}
    (owes : copy.OwesAsSeen originOwed) (same : copy.call.sameState (copy.written next limiterWrites) = true) :
    (⟨copy.written next limiterWrites, topology, copy.seen⟩ : Copy Data).OwesAsSeen originOwed := by
  have unmoved := Record.releaseOwed_of_sameState same
  unfold OwesAsSeen
  rw [← unmoved]
  exact owes

omit [DecidableEq Data] in
/-- The change a turn makes records whether a release is owed after it, and one owed before still is. -/
theorem OwesAsSeen.write_changed {copy : Copy Data} {next : Record Data} {vector : ℤ × ℤ}
    (owes : copy.OwesAsSeen originOwed) (id : ℕ) (role : PartitionRole) :
    (⟨copy.written next limiterWrites, topology,
      ⟨id, role, vector, (copy.written next limiterWrites).limiter.releaseOwed⟩ :: copy.seen⟩ :
        Copy Data).OwesAsSeen originOwed := by
  have kept : copy.call.limiter.releaseOwed = true →
      (copy.written next limiterWrites).limiter.releaseOwed = true :=
    limiterWrites_releaseOwed
  constructor
  · intro owed
    exact .inr ⟨_, List.mem_cons_self, owed⟩
  · rintro (origin | ⟨change, member, owed⟩)
    · exact kept (owes.mpr (.inl origin))
    · cases List.mem_cons.mp member with
      | inl latest =>
        rw [latest] at owed
        exact owed
      | inr earlier => exact kept (owes.mpr (.inr ⟨change, earlier, owed⟩))

omit [DecidableEq Data] in
theorem origin_owesAsSeen : (⟨call, topology, []⟩ : Copy Data).OwesAsSeen call.limiter.releaseOwed := by
  simp [OwesAsSeen]

omit [DecidableEq Data] in
/-- A call just placed is stamped at its own version. -/
theorem origin_stamped {pri bak : String} {gen bakGen : ℤ} :
    (⟨call, .new pri bak gen bakGen, []⟩ : Copy Data).version.Stamped (new pri bak gen bakGen).counts := by
  have stamped : (new pri bak gen bakGen).stampCounts =
      (new pri bak gen bakGen).counts := by
    funext role
    cases role <;> rfl
  constructor
  case within => exact stamped.le
  case above => exact stamped.ge
  case counted =>
    rintro change ⟨recorded, member, -⟩
    exact absurd member List.not_mem_nil
  case last => exact .inl stamped

/-! ### One copy, and two copies of one run -/

/-- What holds of each copy by itself. -/
structure Stands (base : PartitionRole → ℤ) (originOwed : Bool) (copy : Copy Data) : Prop where
  stamped : copy.version.Stamped base
  owes : copy.OwesAsSeen originOwed

/-- What holds of any two copies of a run: one has the other's changes it counts, and copies last changed by
    the same write agree on every compared field. -/
structure Kin (left right : Copy Data) : Prop where
  reads : Version.Reads left.version right.version
  agree : left.topology.stampCounts = right.topology.stampCounts → left.call.sameState right.call = true

theorem Kin.refl (copy : Copy Data) : Kin copy copy where
  reads := Version.Reads.refl copy.version
  agree _ := Record.sameState_refl

section Contained

variable {base : PartitionRole → ℤ} {originOwed : Bool} {left right third : Copy Data}

section

variable (kin : Kin left right) (leftStands : left.Stands base originOwed)
    (rightStands : right.Stands base originOwed)

include kin leftStands rightStands

/-- Containment is inclusion of what was seen. -/
theorem Kin.contains_iff :
    contains left.topology right.topology = true ↔ ∀ change ∈ right.seen, change ∈ left.seen := by
  rw [contains_iff_le, ← seen_subset_iff]
  exact kin.reads.contains_iff leftStands.stamped rightStands.stamped

/-- A copy owes whatever release a copy it contains owes. -/
theorem Kin.owed_of_contains (contained : contains left.topology right.topology = true)
    (owed : right.call.limiter.releaseOwed = true) : left.call.limiter.releaseOwed = true := by
  have included : ∀ change ∈ right.seen, change ∈ left.seen := (kin.contains_iff leftStands rightStands).mp contained
  apply leftStands.owes.mpr
  cases rightStands.owes.mp owed with
  | inl origin => exact .inl origin
  | inr changed =>
    obtain ⟨change, member, owes⟩ := changed
    exact .inr ⟨change, included change member, owes⟩

/-- A copy that takes in the exempt fields of one it contains keeps its compared state. -/
theorem Kin.kept_sameState (contained : contains left.topology right.topology = true) :
    (left.call.mergeExempt right.call).sameState left.call = true :=
  Record.mergeExempt_sameState (kin.owed_of_contains leftStands rightStands contained)

end

/-- Copies that contain each other agree on every compared field. -/
theorem Kin.sameState_of_mutual (kin : Kin left right) (back : Kin right left)
    (leftStands : left.Stands base originOwed) (rightStands : right.Stands base originOwed)
    (contained : contains left.topology right.topology = true)
    (contains : contains right.topology left.topology = true) : left.call.sameState right.call = true := by
  have forth : right.version.stamp ≤ left.version.stamp :=
    kin.reads.stamp_le leftStands.stamped rightStands.stamped ((contains_iff_le).mp contained)
  have returned : left.version.stamp ≤ right.version.stamp :=
    back.reads.stamp_le rightStands.stamped leftStands.stamped ((contains_iff_le).mp contains)
  exact kin.agree (le_antisymm returned forth)

/-! ### A copy that takes another in -/

theorem Stands.absorb (leftStands : left.Stands base originOwed)
    (kept : (left.call.mergeExempt right.call).sameState left.call = true) :
    (left.absorb right).Stands base originOwed where
  stamped := by
    rw [version_absorb]
    exact leftStands.stamped.raise right.version
  owes := owesAsSeen_absorb kept leftStands.owes

theorem Kin.absorb (toThird : Kin left third) (rightToThird : Kin right third)
    (included : right.version.seen ⊆ left.version.seen)
    (kept : (left.call.mergeExempt right.call).sameState left.call = true) : Kin (left.absorb right) third where
  reads := by
    rw [version_absorb]
    exact toThird.reads.raise rightToThird.reads included
  agree stamps := Record.sameState_trans kept (toThird.agree stamps)

theorem Kin.of_absorb (fromThird : Kin third left)
    (kept : (left.call.mergeExempt right.call).sameState left.call = true) : Kin third (left.absorb right) where
  reads := fromThird.reads
  agree stamps := Record.sameState_trans (fromThird.agree stamps) (Record.sameState_symm kept)

end Contained

/-! ### A turn on a copy that counts all writes of its node -/

section Write

variable {base : PartitionRole → ℤ} {originOwed : Bool} {copy other : Copy Data} {role : PartitionRole}
  {next : Record Data} {limiterWrites : List LimiterWrite}

/-- A turn that changed nothing only counts itself. -/
theorem version_write_unchanged (same : copy.call.sameState (copy.written next limiterWrites) = true) :
    (copy.write role id next limiterWrites).version = copy.version.bump role := by
  rw [write_unchanged same]
  have stamps : (copy.topology.bump role).stampCounts = copy.topology.stampCounts := by
    cases role <;> rfl
  simp only [version, Version.bump, counts_bump, stamps]

theorem version_write_changed (changed : copy.call.sameState (copy.written next limiterWrites) = false) :
    (copy.write role id next limiterWrites).version =
      (copy.version.bump role).record role (id, (copy.written next limiterWrites).limiter.releaseOwed) := by
  rw [write_changed changed, version_record]

theorem Stands.write (stands : copy.Stands base originOwed) (role : PartitionRole) (id : ℕ) :
    (copy.write role id next limiterWrites).Stands base originOwed := by
  cases same : copy.call.sameState (copy.written next limiterWrites) with
  | true =>
    constructor
    case stamped =>
      rw [version_write_unchanged same]
      exact stands.stamped.bump role
    case owes =>
      rw [write_unchanged same]
      exact stands.owes.write_unchanged same
  | false =>
    constructor
    case stamped =>
      rw [version_write_changed same]
      exact (stands.stamped.bump role).record role _
    case owes =>
      rw [write_changed same]
      exact stands.owes.write_changed id role

/-- The stamp of a change is past what any other copy counts, so no other copy bears it. -/
theorem stampCounts_write_ne (otherStands : other.Stands base originOwed)
    (behind : other.version.vector role ≤ copy.version.vector role)
    (changed : copy.call.sameState (copy.written next limiterWrites) = false) :
    (copy.write role id next limiterWrites).topology.stampCounts ≠ other.topology.stampCounts := by
  intro stamps
  have written : (copy.write role id next limiterWrites).topology.stampCounts role =
      copy.version.vector role + 1 := by
    rw [write_changed changed]
    cases role <;> rfl
  have within : other.topology.stampCounts role ≤ other.version.vector role := otherStands.stamped.within role
  rw [stamps] at written
  omega

theorem stampCounts_write_unchanged (same : copy.call.sameState (copy.written next limiterWrites) = true) :
    (copy.write role id next limiterWrites).topology.stampCounts = copy.topology.stampCounts := by
  rw [write_unchanged same]
  cases role <;> rfl

theorem Kin.write (kin : Kin copy other) (otherStands : other.Stands base originOwed)
    (behind : other.version.vector role ≤ copy.version.vector role) (id : ℕ) :
    Kin (copy.write role id next limiterWrites) other := by
  have bumped : Version.Reads (copy.version.bump role) other.version := kin.reads.bump otherStands.stamped behind
  cases same : copy.call.sameState (copy.written next limiterWrites) with
  | true =>
    constructor
    case reads =>
      rw [version_write_unchanged same]
      exact bumped
    case agree =>
      intro stamps
      exact Record.sameState_trans (Record.sameState_symm same)
        (kin.agree ((stampCounts_write_unchanged same).symm.trans stamps))
  | false =>
    constructor
    case reads =>
      rw [version_write_changed same]
      exact bumped.record role _
    case agree =>
      intro stamps
      exact absurd stamps (stampCounts_write_ne otherStands behind same)

theorem Kin.of_write (kin : Kin other copy) (otherStands : other.Stands base originOwed)
    (behind : other.version.vector role ≤ copy.version.vector role) (id : ℕ) :
    Kin other (copy.write role id next limiterWrites) := by
  cases same : copy.call.sameState (copy.written next limiterWrites) with
  | true =>
    constructor
    case reads =>
      rw [version_write_unchanged same]
      exact kin.reads
    case agree =>
      intro stamps
      exact Record.sameState_trans (kin.agree (stamps.trans (stampCounts_write_unchanged same))) same
  | false =>
    constructor
    case reads =>
      rw [version_write_changed same]
      exact kin.reads.of_write behind _
    case agree =>
      intro stamps
      exact absurd stamps.symm (stampCounts_write_ne otherStands behind same)

theorem counts_write :
    (copy.write role id next limiterWrites).topology.counts = (copy.version.bump role).vector := by
  cases same : copy.call.sameState (copy.written next limiterWrites) with
  | true => exact congrArg Version.vector (version_write_unchanged same)
  | false => exact congrArg Version.vector (version_write_changed same)

theorem counts_meets (copy incoming : Copy Data) (role : PartitionRole) :
    (copy.meets incoming role).topology.counts = copy.topology.counts ∨
      (copy.meets incoming role).topology.counts = copy.topology.counts ⊔ incoming.topology.counts := by
  rcases meets_cases copy incoming role with ⟨-, kept⟩ | ⟨-, kept⟩ | unmoved
  · rw [kept]
    exact .inr (counts_raiseVector ..)
  · rw [kept, sup_comm]
    exact .inr (counts_raiseVector ..)
  · rw [unmoved]
    exact .inl rfl

end Write

end Copy

/-! ### Any collection of copies of one call -/

/-- Copies of one call, from an origin at `base`. -/
structure Family {Data : Type} [DecidableEq Data] (base : PartitionRole → ℤ) (originOwed : Bool)
    (held : List (Copy Data)) : Prop where
  stands : ∀ copy ∈ held, copy.Stands base originOwed
  kin : ∀ left ∈ held, ∀ right ∈ held, Copy.Kin left right

namespace Family

variable {Data : Type} [DecidableEq Data] {base : PartitionRole → ℤ} {originOwed : Bool} {held : List (Copy Data)}
  {copy incoming : Copy Data}

section

variable (family : Family base originOwed held)

include family

/-- Copies that are gone do not matter. -/
theorem subset {fewer : List (Copy Data)}
    (among : ∀ copy ∈ fewer, copy ∈ held) : Family base originOwed fewer where
  stands copy member := family.stands copy (among copy member)
  kin left leftHeld right rightHeld := family.kin left (among left leftHeld) right (among right rightHeld)

/-- A new copy that stands by itself and beside each of the others keeps the rest as it was. -/
theorem add (stands : copy.Stands base originOwed)
    (forth : ∀ other ∈ held, Copy.Kin copy other) (back : ∀ other ∈ held, Copy.Kin other copy) :
    Family base originOwed (copy :: held) where
  stands := List.forall_mem_cons.mpr ⟨stands, family.stands⟩
  kin := by
    intro left leftHeld right rightHeld
    cases List.mem_cons.mp leftHeld with
    | inl leftNew =>
      cases List.mem_cons.mp rightHeld with
      | inl rightNew => rw [leftNew, rightNew]; exact Copy.Kin.refl copy
      | inr rightOld => rw [leftNew]; exact forth right rightOld
    | inr leftOld =>
      cases List.mem_cons.mp rightHeld with
      | inl rightNew => rw [rightNew]; exact back left leftOld
      | inr rightOld => exact family.kin left leftOld right rightOld

theorem add_held (member : copy ∈ held) : Family base originOwed (copy :: held) :=
  family.subset (List.forall_mem_cons.mpr ⟨member, fun _ => id⟩)

theorem absorb (copyHeld : copy ∈ held) (incomingHeld : incoming ∈ held)
    (contained : contains copy.topology incoming.topology = true) :
    Family base originOwed (copy.absorb incoming :: held) := by
  have kin := family.kin copy copyHeld incoming incomingHeld
  have stands := family.stands copy copyHeld
  have kept := kin.kept_sameState stands (family.stands incoming incomingHeld) contained
  have included : incoming.version.seen ⊆ copy.version.seen :=
    (kin.reads.contains_iff stands.stamped (family.stands incoming incomingHeld).stamped).mp
      ((contains_iff_le).mp contained)
  apply family.add (stands.absorb kept)
  · intro other member
    exact (family.kin copy copyHeld other member).absorb (family.kin incoming incomingHeld other member) included kept
  · intro other member
    exact (family.kin other member copy copyHeld).of_absorb kept

theorem meets (copyHeld : copy ∈ held) (incomingHeld : incoming ∈ held)
    (role : PartitionRole) : Family base originOwed (copy.meets incoming role :: held) := by
  rcases Copy.meets_cases copy incoming role with ⟨contained, kept⟩ | ⟨contained, kept⟩ | unmoved
  · rw [kept]
    exact family.absorb copyHeld incomingHeld contained
  · rw [kept]
    exact family.absorb incomingHeld copyHeld contained
  · rw [unmoved]
    exact family.add_held copyHeld

/-- A turn on a copy that counts every write of its node. -/
theorem write (copyHeld : copy ∈ held)
    (ahead : ∀ other ∈ held, other.topology.counts role ≤ copy.topology.counts role) (id : ℕ)
    (next : Record Data) (limiterWrites : List LimiterWrite) :
    Family base originOwed (copy.write role id next limiterWrites :: held) := by
  apply family.add ((family.stands copy copyHeld).write role id)
  · intro other member
    exact (family.kin copy copyHeld other member).write (family.stands other member) (ahead other member) id
  · intro other member
    exact (family.kin other member copy copyHeld).of_write (family.stands other member) (ahead other member) id

end

/-- The copy a call is placed with. -/
theorem origin (call : Record Data) (pri bak : String) (gen bakGen : ℤ) :
    Family (new pri bak gen bakGen).counts call.limiter.releaseOwed
      [(⟨call, .new pri bak gen bakGen, []⟩ : Copy Data)] := by
  constructor
  case stands =>
    intro copy member
    rw [List.mem_singleton.mp member]
    exact ⟨Copy.origin_stamped, Copy.origin_owesAsSeen⟩
  case kin =>
    intro left leftHeld right rightHeld
    rw [List.mem_singleton.mp leftHeld, List.mem_singleton.mp rightHeld]
    exact Copy.Kin.refl _

end Family

/-! ### Runs of two copies -/

namespace Pair

variable {Data : Type} [DecidableEq Data] {base : PartitionRole → ℤ} {originOwed : Bool} {pair : Pair Data}

/-- The invariant of a run from an origin at `base`: each node counts all of its own writes. -/
structure Sound (base : PartitionRole → ℤ) (originOwed : Bool) (pair : Pair Data) : Prop where
  family : Family base originOwed [pair.primary, pair.backup]
  ahead : ∀ role, (pair.copy role.other).topology.counts role ≤ (pair.copy role).topology.counts role

theorem Sound.ahead_other (sound : pair.Sound base originOwed) (role : PartitionRole) :
    (pair.copy role).topology.counts role.other ≤ (pair.copy role.other).topology.counts role.other := by
  cases role with
  | primary => exact sound.ahead .backup
  | backup => exact sound.ahead .primary

omit [DecidableEq Data] in
theorem copy_mem (pair : Pair Data) (role : PartitionRole) : pair.copy role ∈ [pair.primary, pair.backup] := by
  cases role <;> simp [copy]

omit [DecidableEq Data] in
theorem eq_copy_of_mem {copy : Copy Data} (member : copy ∈ [pair.primary, pair.backup]) :
    copy = pair.copy role ∨ copy = pair.copy role.other := by
  cases role <;> simpa [Pair.copy, PartitionRole.other, or_comm] using member

/-- One copy is replaced by one that is kin to both and between them in what it counts. -/
theorem Sound.setCopy {copy : Copy Data} (family : Family base originOwed (copy :: [pair.primary, pair.backup]))
    (above : (pair.copy role.other).topology.counts role ≤ copy.topology.counts role)
    (below : copy.topology.counts role.other ≤ (pair.copy role.other).topology.counts role.other) :
    (pair.setCopy role copy).Sound base originOwed := by
  cases role with
  | primary =>
    refine ⟨family.subset fun kept member => ?_, fun role => ?_⟩
    · rcases List.mem_cons.mp member with rfl | other
      · exact List.mem_cons_self
      · exact List.mem_cons_of_mem _ (List.mem_cons_of_mem _ other)
    · cases role with
      | primary => exact above
      | backup => exact below
  | backup =>
    refine ⟨family.subset fun kept member => ?_, fun role => ?_⟩
    · rcases List.mem_cons.mp member with rfl | new
      · exact List.mem_cons_of_mem _ List.mem_cons_self
      · exact List.mem_singleton.mp new ▸ List.mem_cons_self
    · cases role with
      | primary => exact below
      | backup => exact above

theorem Sound.step (sound : pair.Sound base originOwed) (event : Event Data) :
    (pair.step event).Sound base originOwed := by
  cases event with
  | write role next limiterWrites =>
    have counts : ((pair.copy role).write role pair.changes next limiterWrites).topology.counts =
        ((pair.copy role).version.bump role).vector := Copy.counts_write ..
    have written : (pair.setCopy role ((pair.copy role).write role pair.changes next limiterWrites)).Sound
        base originOwed := by
      refine Sound.setCopy (sound.family.write (pair.copy_mem role) ?_ _ _ _) ?_ ?_
      · intro other member
        cases eq_copy_of_mem member with
        | inl own => rw [own]
        | inr theirs => rw [theirs]; exact sound.ahead role
      · rw [counts]
        exact (sound.ahead role).trans (Version.le_bump _ role role)
      · rw [counts, Version.bump_vector_of_ne _ role.ne_other.symm]
        exact sound.ahead_other role
    exact ⟨written.family, written.ahead⟩
  | take role =>
    exact Sound.setCopy (sound.family.add_held (pair.copy_mem role.other)) (le_refl _) (le_refl _)
  | meet role =>
    have family := sound.family.meets (pair.copy_mem role) (pair.copy_mem role.other) role
    rcases Copy.counts_meets (pair.copy role) (pair.copy role.other) role with counts | counts
    · exact Sound.setCopy family (counts ▸ sound.ahead role) (counts ▸ sound.ahead_other role)
    refine Sound.setCopy family ?_ ?_
    · rw [counts]
      exact le_sup_right (a := (pair.copy role).topology.counts role)
    · rw [counts]
      exact sup_le (sound.ahead_other role) (le_refl _)

theorem Sound.foldl (events : List (Event Data)) (sound : pair.Sound base originOwed) :
    (events.foldl Pair.step pair).Sound base originOwed := by
  induction events generalizing pair with
  | nil => exact sound
  | cons event events hypothesis => exact hypothesis (sound.step event)

theorem origin_sound (call : Record Data) (pri bak : String) (gen bakGen : ℤ) :
    (origin call (.new pri bak gen bakGen)).Sound (new pri bak gen bakGen).counts
      call.limiter.releaseOwed where
  family := (Family.origin call pri bak gen bakGen).add_held List.mem_cons_self
  ahead role := by cases role <;> exact le_refl _

/-- Over any run of two copies of one call from a common origin, one copy contains the other exactly when it
    has incorporated every compared change the other has, no stamp exceeds its vector, and copies that
    contain each other agree on every compared field. -/
theorem containment_decides_what_was_seen (call : Record Data) (pri bak : String) (gen bakGen : ℤ)
    (events : List (Event Data)) :
    let pair := events.foldl step (origin call (.new pri bak gen bakGen))
    (∀ role : PartitionRole,
      (contains (pair.copy role).topology (pair.copy role.other).topology = true ↔
        ∀ change ∈ (pair.copy role.other).seen, change ∈ (pair.copy role).seen) ∧
      (pair.copy role).topology.stamp.1 ≤ (pair.copy role).topology.vector.1 ∧
      (pair.copy role).topology.stamp.2 ≤ (pair.copy role).topology.vector.2) ∧
    (contains pair.primary.topology pair.backup.topology = true →
      contains pair.backup.topology pair.primary.topology = true →
      pair.primary.call.sameState pair.backup.call = true) := by
  intro pair
  have sound := (origin_sound call pri bak gen bakGen).foldl events
  have kin := fun role other => sound.family.kin _ (pair.copy_mem role) _ (pair.copy_mem other)
  have stands := fun role => sound.family.stands _ (pair.copy_mem role)
  constructor
  · intro role
    have within := (stands role).stamped.within
    exact ⟨(kin role role.other).contains_iff (stands role) (stands role.other), within .primary, within .backup⟩
  · intro contained contains
    exact (kin .primary .backup).sameState_of_mutual (kin .backup .primary) (stands .primary) (stands .backup)
      contained contains

end Pair

end SipServer.Store
