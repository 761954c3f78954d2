/-
Module: SipServer.Proofs.LimiterOrder
Purpose: The order of admits of one key under a non-decreasing clock: for one lease after an answered
  admit no admit numbered at or below it is answered, exactly unless the admit was refused and kept while
  its key's set or drop fence ends within that lease.
-/
import SipServer.Proofs.LimiterSlots

namespace SipServer.Limiter

open SipServer.Lib SipServer.Limiter.Inner

variable {change : ℕ} {horizon nowMs : ℤ} {entries : List AdmitEntry} {requests : List Request} {held : HeldSet}
  {leaseEnd : ℤ} {releaseOnRefusal : Bool} {request : Request} {inner : Inner}

/-! ### A slot that remembers a number

A slot guards a number until an instant when it orders every admit up to that number as superseded or
released, and does not end before the instant.
-/

namespace Slot

/-- The slot keeps every admit numbered up to `change` unanswered until an instant. -/
def Guards (change : ℕ) (horizon : ℤ) : Slot → Prop
  | .bare => False
  | .holding _ number leaseExpiresAtMs => change ≤ number ∧ horizon ≤ leaseExpiresAtMs
  | .fenced .released lapsesAtMs => horizon ≤ lapsesAtMs
  | .fenced (.dropped number) lapsesAtMs => change ≤ number ∧ horizon ≤ lapsesAtMs
  | .marked number lapsesAtMs => change ≤ number ∧ horizon ≤ lapsesAtMs

theorem Guards.endsAt {instant : ℤ} {slot : Slot} (guards : slot.Guards change horizon)
    (ends : slot.endsAt = some instant) :
    horizon ≤ instant := by
  cases slot with
  | bare => cases ends
  | holding | marked =>
    cases ends
    exact guards.2
  | fenced why lapses =>
    cases ends
    cases why with
    | released => exact guards
    | dropped number => exact guards.2

/-- A guarding slot that is not released knows a number at or above the guarded one. -/
theorem Guards.known {slot : Slot} (guards : slot.Guards change horizon)
    (notReleased : ∀ lapses, slot ≠ .fenced .released lapses) :
    ∃ known, slot.known = some known ∧ change ≤ known := by
  cases slot with
  | bare => exact guards.elim
  | holding _ number | marked number => exact ⟨number, rfl, guards.1⟩
  | fenced why lapses =>
    cases why with
    | released => exact absurd rfl (notReleased lapses)
    | dropped number => exact ⟨number, rfl, guards.1⟩

/-- Moves whose lease ends at or after the guarded instant keep the guard. -/
theorem Guards.move (covers : horizon ≤ leaseEnd) {before after : Slot}
    (guards : before.Guards change horizon) (move : Move leaseEnd before after) : after.Guards change horizon := by
  cases move with
  | dropped newer notReleased | replaced newer notReleased =>
    obtain ⟨known, knownEq, le⟩ := guards.known notReleased
    exact ⟨le_of_lt (lt_of_le_of_lt le (newer known knownEq)), covers⟩
  | recorded newer notReleased =>
    obtain ⟨known, knownEq, le⟩ := guards.known notReleased
    have above := le_of_lt (lt_of_le_of_lt le (newer known knownEq))
    cases before with
    | bare => exact guards.elim
    | holding entries number lease => exact ⟨above, guards.2⟩
    | fenced why lapses =>
      cases why with
      | released => exact absurd rfl (notReleased lapses)
      | dropped number => exact ⟨above, guards.2⟩
    | marked number lapses => exact ⟨above, covers⟩
  | recreated isOpen =>
    cases before with
    | bare => exact guards.elim
    | holding | fenced => cases isOpen
    | marked number lapses => exact ⟨le_max_of_le_left guards.1, covers⟩
  | released notReleased => exact covers
  | extended => exact ⟨guards.1, covers⟩

/-- Every slot ends at or before an instant. -/
def EndsBy (instant : ℤ) (slot : Slot) : Prop :=
  ∀ ends, slot.endsAt = some ends → ends ≤ instant

theorem EndsBy.move {before after : Slot} (endsBy : before.EndsBy leaseEnd)
    (move : Move leaseEnd before after) : after.EndsBy leaseEnd := by
  intro ends endsEq
  cases move with
  | recorded newer notReleased =>
    cases before with
    | bare | marked => exact le_of_eq (Option.some.inj endsEq).symm
    | holding entries number lease => exact endsBy ends endsEq
    | fenced why lapses =>
      cases why with
      | released => exact le_of_eq (Option.some.inj endsEq).symm
      | dropped number => exact endsBy ends endsEq
  | dropped | replaced | recreated | released | extended => exact le_of_eq (Option.some.inj endsEq).symm

end Slot

/-! ### Runs under a non-decreasing clock -/

namespace CallStore

variable {store final : CallStore} {key : String}

/-- A sound and prompt store none of whose slots ends later than a lease started at an instant. -/
structure Clocked (nowMs : ℤ) (store : CallStore) : Prop where
  sound : store.inner.Sound
  prompt : store.inner.Prompt
  endsBy : ∀ key, (store.inner.slot key).EndsBy (store.leaseEnd nowMs)

theorem leaseEnd_mono (store : CallStore) {earlier later : ℤ} (le : earlier ≤ later) :
    store.leaseEnd earlier ≤ store.leaseEnd later := by
  unfold leaseEnd
  omega

theorem serve_leaseEnd (store : CallStore) (request : Request) (nowMs : ℤ) :
    (store.serve request).leaseEnd nowMs = store.leaseEnd nowMs := by
  unfold leaseEnd
  rw [serve_cfg]

theorem Clocked.mono {earlier later : ℤ} (clocked : store.Clocked earlier)
    (le : earlier ≤ later) : store.Clocked later where
  sound := clocked.sound
  prompt := clocked.prompt
  endsBy key ends endsEq :=
    le_trans (clocked.endsBy key ends endsEq) (store.leaseEnd_mono le)

theorem Clocked.new (cfg : LimiterConfig) (nowMs : ℤ) : (new cfg).Clocked nowMs where
  sound := Inner.Sound.new
  prompt := .empty
  endsBy _ _ endsEq := by cases endsEq

/-- Every set's lease ends within one lease, so a refresh never moves one back. -/
theorem Clocked.refreshesForward (clocked : store.Clocked request.nowMs) :
    RefreshesForward store request := by
  intro calls _ call _ set found
  have lease : set.leaseExpiresAtMs ≤ store.leaseEnd request.nowMs := by
    refine clocked.endsBy call.1 _ ?_
    rw [slot_of_set found]
    rfl
  have pending := clocked.prompt call.1 set found
  split <;> omega

theorem Clocked.serve (request : Request) (clocked : store.Clocked request.nowMs) :
    (store.serve request).Clocked request.nowMs where
  sound := serve_sound clocked.sound request
  prompt := (serve_timely clocked.sound clocked.prompt clocked.refreshesForward).prompt
  endsBy key := by
    rw [serve_leaseEnd]
    refine (serve_moves clocked.sound).keeps (fun _ _ => Slot.EndsBy.move) ?_
    intro ends endsEq
    cases before : (store.inner.slot key).endsAt with
    | none =>
      rw [slot_sweep_of_lt clocked.sound (by simp [before]), before] at endsEq
      cases endsEq
    | some instant =>
      by_cases ended : instant ≤ request.nowMs
      · rw [slot_sweep_of_le clocked.sound clocked.prompt before ended] at endsEq
        cases endsEq
      · rw [slot_sweep_of_lt clocked.sound (by simpa [before] using ended)] at endsEq
        exact clocked.endsBy key ends endsEq

/-- A run of requests in clock order leaves a clocked store. -/
theorem Clocked.run {first last : ℤ} (clocked : store.Clocked first)
    (ordered : (first :: (requests.map Request.nowMs ++ [last])).Pairwise (· ≤ ·))
    (ran : run step store requests = some final) : final.Clocked last := by
  induction requests generalizing store first with
  | nil =>
    cases ran
    exact clocked.mono ((List.pairwise_cons.1 ordered).1 last (by simp))
  | cons request requests ih =>
    obtain ⟨next, stepped, ran⟩ := run_cons.1 ran
    cases stepped
    obtain ⟨le, rest⟩ := List.pairwise_cons.1 ordered
    have atRequest : store.Clocked request.nowMs := clocked.mono (le request.nowMs (by simp))
    exact ih (atRequest.serve request) rest ran

/-- The store a new store becomes by requests in clock order is clocked. -/
theorem clocked_of_ordered {cfg : LimiterConfig} (ordered : (requests.map Request.nowMs ++ [nowMs]).Pairwise (· ≤ ·))
    (ran : Lib.run step (new cfg) requests = some store) : store.Clocked nowMs := by
  cases requests with
  | nil =>
    cases ran
    exact .new cfg nowMs
  | cons request requests =>
    refine (Clocked.new cfg request.nowMs).run ?_ ran
    refine List.pairwise_cons.2 ⟨?_, ordered⟩
    intro later member
    rcases List.mem_cons.1 member with rfl | inRest
    · exact le_refl _
    · exact (List.pairwise_cons.1 ordered).1 later inRest

/-! ### The guard along a run -/

theorem guards_sweep (sound : inner.Sound) (guards : (inner.slot key).Guards change horizon)
    (before : nowMs < horizon) :
    ((inner.sweep nowMs).slot key).Guards change horizon := by
  rw [slot_sweep_of_lt sound]
  · exact guards
  intro instant ends
  exact lt_of_lt_of_le before (guards.endsAt ends)

theorem guards_serve (sound : store.inner.Sound) (guards : (store.inner.slot key).Guards change horizon)
    (before : request.nowMs < horizon) (covers : horizon ≤ store.leaseEnd request.nowMs) :
    ((store.serve request).inner.slot key).Guards change horizon :=
  (serve_moves sound).keeps (fun _ _ => Slot.Guards.move covers)
    (guards_sweep sound guards before)

theorem guards_run (sound : store.inner.Sound)
    (guards : (store.inner.slot key).Guards change horizon) (within : ∀ request ∈ requests,
      request.nowMs < horizon ∧ horizon ≤ store.leaseEnd request.nowMs)
    (ran : Lib.run step store requests = some final) :
    final.inner.Sound ∧ (final.inner.slot key).Guards change horizon := by
  induction requests generalizing store with
  | nil =>
    cases ran
    exact ⟨sound, guards⟩
  | cons request requests ih =>
    obtain ⟨next, stepped, ran⟩ := run_cons.1 ran
    cases stepped
    obtain ⟨before, covers⟩ := within request (by simp)
    refine ih (serve_sound sound request) (guards_serve sound guards before covers) ?_ ran
    intro later member
    rw [serve_leaseEnd]
    exact within later (by simp [member])

/-! ### Late admits -/

/-- Answered as the newest admit of its key: admitted or refused at a cap. -/
def Answered : AdmitResult → Prop
  | .admitted => True
  | .rejected _ _ => True
  | _ => False

/-- From a store that answered an admit of `key` numbered `change` at `nowMs`: no admit of the key
    numbered at or below it that runs within one lease is answered, or changes the set its own sweep
    left for the key, after whatever requests came between in clock order. -/
def NeverOverridden (store : CallStore) (nowMs : ℤ) (key : String) (change : ℕ) : Prop :=
  ∀ (requests : List Request) (final : CallStore) (lateMs : ℤ) (lateChange : ℕ) (held : HeldSet)
    (entries : List AdmitEntry) (releaseOnRefusal : Bool),
    (nowMs :: (requests.map Request.nowMs ++ [lateMs])).Pairwise (· ≤ ·) →
    lateMs < store.leaseEnd nowMs →
    lateChange ≤ change →
    Lib.run step store requests = some final →
    let late := final.admitCarrying lateMs key lateChange held entries releaseOnRefusal
    ¬ Answered late.2 ∧ late.1.inner.calls.get key = (final.inner.sweep lateMs).calls.get key

/-- The admit is refused at a cap and keeps what the key holds, while the key's set or drop fence ends
    before one lease from now. -/
def KeepsShortLease (store : CallStore) (nowMs : ℤ) (key : String) (entries : List AdmitEntry)
    (releaseOnRefusal : Bool) : Prop :=
  releaseOnRefusal = false ∧
    ((store.inner.sweep nowMs).refused key entries).isSome = true ∧
    ((∃ set, store.inner.calls.get key = some set ∧ nowMs < set.leaseExpiresAtMs ∧
        set.leaseExpiresAtMs < store.leaseEnd nowMs) ∨
      (∃ number lapses, store.inner.fences.get key = some (.dropped number, lapses) ∧
        nowMs < lapses ∧ lapses < store.leaseEnd nowMs))

/-- A guarded key answers no late admit and keeps its set. -/
theorem guards_late {lateMs : ℤ} {lateChange : ℕ} (sound : store.inner.Sound)
    (guards : (store.inner.slot key).Guards change horizon) (before : lateMs < horizon) (late : lateChange ≤ change)
    (held : HeldSet) (entries : List AdmitEntry) (releaseOnRefusal : Bool) :
    let answer := store.admitCarrying lateMs key lateChange held entries releaseOnRefusal
    ¬ Answered answer.2 ∧ answer.1.inner.calls.get key =
      (store.inner.sweep lateMs).calls.get key := by
  intro answer
  have swept := sweep_sound sound lateMs
  have sweptGuards := guards_sweep sound guards before
  rcases admit_cases swept key lateChange held entries releaseOnRefusal
      (store.leaseEnd lateMs) with
    ⟨_, released, sameSet, _⟩ | ⟨_, _, ⟨heldSet, superseded⟩, same⟩ | ⟨notReleased, newer, _⟩
  · refine ⟨?_, sameSet⟩
    intro answered
    rw [show answer.2 = .released from released] at answered
    exact answered
  · refine ⟨?_, congrArg (fun inner : Inner => inner.calls.get key) same⟩
    intro answered
    rw [show answer.2 = .superseded heldSet from superseded] at answered
    exact answered
  · obtain ⟨known, knownEq, le⟩ := sweptGuards.known (slot_ne_released swept.exclusive notReleased)
    have above := newer known knownEq
    omega

/-- A key whose slot is not open keeps its slot and its state through `carry`. -/
theorem carry_of_not_open (shut : (inner.slot key).isOpen = false) :
    inner.carry key held leaseEnd = inner ∧
      inner.carriedSlot key held leaseEnd = inner.slot key := by
  have closed : inner.reregisters key held.entries = false := by
    simp [reregisters_eq, shut]
  simp [carry, carriedSlot, closed]

/-- A kept refusal leaves its key guarded for one lease, unless it keeps a shorter one. -/
theorem guards_recorded {entry : AdmitEntry}
    (clocked : store.Clocked nowMs) (notReleased : (store.inner.sweep nowMs).releaseFenced key = false)
    (refused : ((store.inner.sweep nowMs).carry key held (store.leaseEnd nowMs)).refused key entries
      = some entry) (outlives : ¬ KeepsShortLease store nowMs key entries false) :
    (((store.inner.sweep nowMs).carriedSlot key held (store.leaseEnd nowMs)).recorded change
      (store.leaseEnd nowMs)).Guards change (store.leaseEnd nowMs) := by
  have sound := clocked.sound
  have swept := sweep_sound sound nowMs
  have leased := (clocked.prompt.sweep sound nowMs).leased
  have notShort : ∀ {lease}, (store.inner.sweep nowMs).carry key held (store.leaseEnd nowMs) =
      store.inner.sweep nowMs → (lease < store.leaseEnd nowMs →
      (∃ set, store.inner.calls.get key = some set ∧ nowMs < set.leaseExpiresAtMs ∧
        set.leaseExpiresAtMs < store.leaseEnd nowMs) ∨
      (∃ number lapses, store.inner.fences.get key = some (.dropped number, lapses) ∧
        nowMs < lapses ∧ lapses < store.leaseEnd nowMs)) → store.leaseEnd nowMs ≤ lease := by
    intro lease carryEq short
    by_contra lt
    refine outlives ⟨rfl, ?_, short (not_le.1 lt)⟩
    rw [← carryEq, refused]
    rfl
  rcases swept.exclusive.slot_cases key with
    ⟨set, found, _, _⟩ | ⟨⟨why, lapses⟩, noSet, found, _⟩ | ⟨marker, noSet, noFence, found⟩ |
      ⟨noSet, noFence, noMarker⟩
  · have slotEq := slot_of_set found
    obtain ⟨carryEq, carriedEq⟩ := carry_of_not_open (by rw [slotEq]; rfl)
    rw [carriedEq, slotEq]
    refine ⟨le_refl _, notShort carryEq ?_⟩
    intro short
    have after := leased.set key set found
    rw [sweep_calls sound] at found
    obtain ⟨old, foundOld, setEq, _⟩ := sweptSet_eq_some found
    have leaseEq : set.leaseExpiresAtMs = old.leaseExpiresAtMs := by rw [setEq]
    rw [leaseEq] at short after
    exact Or.inl ⟨old, foundOld, after, short⟩
  · have slotEq := slot_of_fence noSet found
    obtain ⟨carryEq, carriedEq⟩ := carry_of_not_open (by rw [slotEq]; rfl)
    cases why with
    | released => exact absurd slotEq (slot_ne_released swept.exclusive notReleased lapses)
    | dropped number =>
      rw [carriedEq, slotEq]
      refine ⟨le_refl _, notShort carryEq ?_⟩
      intro short
      have after := leased.fence key _ found
      rw [sweep_fences sound, sweptEntry_eq_some] at found
      exact Or.inr ⟨number, lapses, found.1, after, short⟩
  · have slotEq := slot_of_marker noSet noFence found
    unfold carriedSlot
    rw [slotEq]
    split <;> exact ⟨le_refl _, le_refl _⟩
  · have slotEq := slot_of_none noSet noFence noMarker
    unfold carriedSlot
    rw [slotEq]
    split <;> exact ⟨le_refl _, le_refl _⟩

section

variable (clocked : store.Clocked nowMs)
  (answered : Answered (store.admitCarrying nowMs key change held entries releaseOnRefusal).2)

include clocked answered

/-- An answered admit leaves its key guarded for one lease, unless it keeps a shorter one. -/
theorem guards_of_answered (outlives : ¬ KeepsShortLease store nowMs key entries releaseOnRefusal) :
    ((store.admitCarrying nowMs key change held entries releaseOnRefusal).1.inner.slot key).Guards
      change (store.leaseEnd nowMs) := by
  have swept := sweep_sound clocked.sound nowMs
  simp only [admitCarrying] at answered ⊢
  rcases admit_cases swept key change held entries releaseOnRefusal
      (store.leaseEnd nowMs) with
    ⟨_, released, _⟩ | ⟨_, _, ⟨heldSet, superseded⟩, _⟩ | ⟨notReleased, newer, outcome⟩
  · rw [released] at answered
    exact answered.elim
  · rw [superseded] at answered
    exact answered.elim
  · rcases outcome with ⟨entry, refused, _, slotEq⟩ | ⟨_, _, slotEq⟩
    · rw [slotEq]
      cases releaseOnRefusal with
      | true => exact ⟨le_refl _, le_refl _⟩
      | false => exact guards_recorded clocked notReleased refused outlives
    · rw [slotEq]
      unfold Slot.replaced
      split <;> exact ⟨le_refl _, le_refl _⟩

/-- A kept refusal on a shorter lease leaves a slot that ends before one lease from now. -/
theorem endsAt_of_keepsShortLease (short : KeepsShortLease store nowMs key entries releaseOnRefusal) :
    ∃ ends, ((store.admitCarrying nowMs key change held entries releaseOnRefusal).1.inner.slot
        key).endsAt = some ends ∧ nowMs ≤ ends ∧ ends < store.leaseEnd nowMs := by
  have sound := clocked.sound
  have swept := sweep_sound sound nowMs
  obtain ⟨rfl, refusedSome, carrier⟩ := short
  simp only [admitCarrying] at answered ⊢
  -- the set or the fence survives the sweep, so nothing is re-created over it
  have kept : ∃ ends, nowMs < ends ∧ ends < store.leaseEnd nowMs ∧
      ((store.inner.sweep nowMs).slot key).isOpen = false ∧
      ∀ number, (((store.inner.sweep nowMs).slot key).recorded number
        (store.leaseEnd nowMs)).endsAt = some ends := by
    rcases carrier with ⟨set, found, after, before⟩ | ⟨number, lapses, found, after, before⟩
    · obtain ⟨pending, sweptSet⟩ := (sound.sweepKeeps nowMs).set key set found after
      refine ⟨set.leaseExpiresAtMs, after, before, ?_⟩
      rw [slot_of_set sweptSet]
      exact ⟨rfl, fun _ => rfl⟩
    have sweptFence := (sound.sweepKeeps nowMs).fence key _ found after
    have noSet := swept.exclusive.noSet_of_fence sweptFence
    refine ⟨lapses, after, before, ?_⟩
    rw [slot_of_fence noSet sweptFence]
    exact ⟨rfl, fun _ => rfl⟩
  obtain ⟨ends, after, before, shut, endsEq⟩ := kept
  obtain ⟨carryEq, carriedEq⟩ := carry_of_not_open shut
  rcases admit_cases swept key change held entries false (store.leaseEnd nowMs) with
    ⟨_, released, _⟩ | ⟨_, _, ⟨heldSet, superseded⟩, _⟩ | ⟨_, _, outcome⟩
  · rw [released] at answered
    exact answered.elim
  · rw [superseded] at answered
    exact answered.elim
  · rcases outcome with ⟨entry, _, _, slotEq⟩ | ⟨notRefused, _, _⟩
    · refine ⟨ends, ?_, le_of_lt after, before⟩
      rw [slotEq, carriedEq]
      exact endsEq change
    · rw [carryEq] at notRefused
      rw [notRefused] at refusedSome
      cases refusedSome

end

/-- An empty admit of a key the sweep left bare is answered, whatever its number. -/
theorem answered_of_bare (sound : store.inner.Sound) (bare : (store.inner.sweep nowMs).slot key = .bare)
    (change : ℕ) : Answered (store.admitCarrying nowMs key change default [] false).2 := by
  have swept := sweep_sound sound nowMs
  simp only [admitCarrying]
  rcases admit_cases swept key change default [] false (store.leaseEnd nowMs) with
    ⟨released, _⟩ | ⟨_, ⟨known, knownEq, _⟩, _⟩ | ⟨_, _, ⟨entry, refused, _⟩ | ⟨_, admitted, _⟩⟩
  · obtain ⟨lapses, fenced⟩ := (releaseFenced_iff swept.exclusive).1 released
    rw [bare] at fenced
    cases fenced
  · rw [bare] at knownEq
    cases knownEq
  · cases refused
  · rw [admitted]
    trivial

/-- For every key and every answered admit of it after requests in clock order: no admit numbered at or
    below it overrides it within one lease, exactly when it was not kept on a set or drop fence that
    ends sooner. -/
theorem late_admit_never_overrides_iff (cfg : LimiterConfig) (requests : List Request)
    (store : CallStore) (nowMs : ℤ) (key : String) (change : ℕ) (held : HeldSet)
    (entries : List AdmitEntry) (releaseOnRefusal : Bool)
    (ordered : (requests.map Request.nowMs ++ [nowMs]).Pairwise (· ≤ ·))
    (ran : Lib.run step (new cfg) requests = some store)
    (answered : Answered (store.admitCarrying nowMs key change held entries releaseOnRefusal).2) :
    NeverOverridden (store.admitCarrying nowMs key change held entries releaseOnRefusal).1 nowMs key
        change ↔
      ¬ KeepsShortLease store nowMs key entries releaseOnRefusal := by
  have clocked := clocked_of_ordered ordered ran
  let request : Request := ⟨nowMs, .admitCarrying key change held entries releaseOnRefusal⟩
  have after : (store.serve request).Clocked nowMs := Clocked.serve request clocked
  have sameLease : ∀ instant, (store.serve request).leaseEnd instant = store.leaseEnd instant :=
    store.serve_leaseEnd request
  constructor
  · intro never short
    obtain ⟨ends, endsEq, later, before⟩ := endsAt_of_keepsShortLease clocked answered short
    -- an empty admit under the same number, at the instant the carrier ends
    have late := never [] _ ends change default [] false (by simpa using later)
      (by rw [← sameLease] at before; exact before) (le_refl _) rfl
    have bare := slot_sweep_of_le after.sound after.prompt endsEq (le_refl ends)
    exact late.1 (answered_of_bare after.sound bare change)
  · intro outlives between final lateMs lateChange lateHeld lateEntries lateRelease inOrder within late ranOn
    have guards := guards_of_answered clocked answered outlives
    have lateWithin : lateMs < store.leaseEnd nowMs := by
      exact within
    obtain ⟨fromNow, inOrder⟩ := List.pairwise_cons.1 inOrder
    have toLate := (List.pairwise_append.1 inOrder).2.2
    obtain ⟨soundFinal, guardsFinal⟩ := guards_run after.sound guards (by
      intro request member
      have inClock : request.nowMs ∈ between.map Request.nowMs := List.mem_map_of_mem member
      have notBefore := fromNow request.nowMs (by simp [inClock])
      have notAfter := toLate request.nowMs inClock lateMs (by simp)
      refine ⟨lt_of_le_of_lt notAfter lateWithin, ?_⟩
      exact store.leaseEnd_mono notBefore) ranOn
    exact guards_late soundFinal guardsFinal lateWithin late lateHeld lateEntries lateRelease

/-- `call` holds `trunk`, is refused `busy` and keeps its set, then gives it up and is fenced until 1200. -/
def setRefusedFenced : List Request :=
  [⟨0, .admitCarrying "other" 1 default [⟨"busy", 1⟩] false⟩,
    ⟨0, .admitCarrying "call" 1 default [⟨"trunk", 1⟩] false⟩,
    ⟨100, .admitCarrying "call" 2 default [⟨"busy", 1⟩] false⟩, ⟨200, .admitCarrying "call" 3 default [] false⟩]

/-- Admitted again at 300, it is not overridden for a whole lease. -/
theorem late_admit_never_overrides_after_fence :
    ∃ store, Lib.run step (new oneSecond) setRefusedFenced = some store ∧
      store.inner.fences.get "call" = some (.dropped 3, 1200) ∧
      NeverOverridden (store.admitCarrying 300 "call" 4 default [⟨"trunk", 1⟩] false).1 300 "call" 4 := by
  refine ⟨_, rfl, by decide, ?_⟩
  refine (late_admit_never_overrides_iff oneSecond setRefusedFenced _ 300 "call" 4 default [⟨"trunk", 1⟩] false
    (by decide) rfl trivial).2 ?_
  rintro ⟨-, refused, -⟩
  exact absurd refused (by decide)

/-- Another call takes the last slot of `busy` and stays; `call` holds `trunk` until 1000. -/
def busyTrunk : List Request :=
  [⟨0, .admitCarrying "other" 1 default [⟨"busy", 1⟩] false⟩,
    ⟨0, .admitCarrying "call" 1 default [⟨"trunk", 1⟩] false⟩,
    ⟨900, .refreshAll [("other", 1, [⟨"busy", 1⟩])]⟩]

/-- Refused at 950 under number 5, `call` keeps its set until 1000, and at 1000 an admit numbered 3 is
    admitted although 950 plus the lease is 1950. -/
theorem late_admit_overrides_kept_refusal :
    ∃ store, Lib.run step (new oneSecond) busyTrunk = some store ∧
      (busyTrunk.map Request.nowMs ++ [950]).Pairwise (· ≤ ·) ∧
      Answered (store.admitCarrying 950 "call" 5 default [⟨"busy", 1⟩] false).2 ∧
      ¬ NeverOverridden (store.admitCarrying 950 "call" 5 default [⟨"busy", 1⟩] false).1 950
        "call" 5 := by
  refine ⟨_, rfl, by decide, ?_, ?_⟩
  · have refused : ((busyTrunk.foldl serve (new oneSecond)).admitCarrying 950 "call" 5 default
        [⟨"busy", 1⟩] false).2 = .rejected "busy" ⟨5, [⟨"trunk", 1⟩]⟩ := by decide
    change Answered ((busyTrunk.foldl serve (new oneSecond)).admitCarrying 950 "call" 5 default
      [⟨"busy", 1⟩] false).2
    trivial
  · intro never
    have late := (never [] _ 1000 3 default [⟨"trunk", 1⟩] false (by decide) (by decide) (by decide) rfl).1
    have admitted : (((busyTrunk.foldl serve (new oneSecond)).admitCarrying 950 "call" 5 default
        [⟨"busy", 1⟩] false).1.admitCarrying 1000 "call" 3 default [⟨"trunk", 1⟩] false).2 =
          .admitted := by decide
    apply late
    change Answered ((((busyTrunk.foldl serve (new oneSecond)).admitCarrying 950 "call" 5 default
        [⟨"busy", 1⟩] false).1.admitCarrying 1000 "call" 3 default [⟨"trunk", 1⟩] false).2)
    trivial

end CallStore

end SipServer.Limiter
