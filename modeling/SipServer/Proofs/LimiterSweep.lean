/-
Module: SipServer.Proofs.LimiterSweep
Purpose: What the limiter's sweep does, table by table: each loop ends with no due deadline, and a set,
  fence or marker goes exactly when its queued deadline and its lease have both passed.
-/
import SipServer.Proofs.LimiterSound

namespace SipServer.Limiter

open SipServer.Lib Deadlines

namespace Inner

variable {key : String} {nowMs instant : ℤ} {inner : Inner} {set : CallSet}

/-- What the sweep makes of one key's set: gone when its queued deadline and its lease passed, queued
    again at its lease when only the deadline did. -/
def sweptSet (nowMs : ℤ) : Option CallSet → Option CallSet
  | none => none
  | some set =>
    if nowMs < set.pendingDeadlineMs then some set
    else if nowMs < set.leaseExpiresAtMs then
      some { set with pendingDeadlineMs := set.leaseExpiresAtMs }
    else none

/-- What the sweep makes of one key's fence or marker. -/
def sweptEntry {Kind : Type} (nowMs : ℤ) (entry : Option (Kind × ℤ)) : Option (Kind × ℤ) :=
  entry.filter (fun entry => nowMs < entry.2)

theorem sweptEntry_eq_some {Kind : Type} {before : Option (Kind × ℤ)} {entry : Kind × ℤ} :
    sweptEntry nowMs before = some entry ↔ before = some entry ∧ nowMs < entry.2 := by
  simp [sweptEntry]

/-! ### The loop over the sets -/

/-- The loop over the sets, under way since `start`: what it has met is swept, the rest is as it
    was, and no other table moved. -/
structure SweepingSets (nowMs : ℤ) (start inner : Inner) : Prop where
  sound : inner.Sound
  each : ∀ key, inner.calls.get key = start.calls.get key ∨
    inner.calls.get key = sweptSet nowMs (start.calls.get key)
  fences : inner.fences = start.fences
  markers : inner.markers = start.markers

/-- A swept set is not due, so a second visit leaves it alone. -/
theorem sweptSet_pending {before : Option CallSet}
    (swept : sweptSet nowMs before = some set) : nowMs < set.pendingDeadlineMs := by
  cases before with
  | none => cases swept
  | some old =>
    simp only [sweptSet] at swept
    split at swept
    · rename_i notDue
      cases swept
      exact notDue
    split at swept
    · rename_i leased
      cases swept
      exact leased
    · cases swept

/-- A due set is still as it was at the start of the loop. -/
theorem SweepingSets.start_of_due {start : Inner} (sweeping : SweepingSets nowMs start inner)
    (found : inner.calls.get key = some set) (due : ¬ nowMs < set.pendingDeadlineMs) :
    start.calls.get key = some set := by
  rcases sweeping.each key with unchanged | swept
  · rw [← unchanged, found]
  rw [found] at swept
  exact absurd (sweptSet_pending swept.symm) due

/-- Everything a turn of the loop can do: pop a stale deadline, queue a leased set again, or drop a
    lapsed one. -/
theorem sweepSet_cases {next : Inner} (turned : sweepSet nowMs inner = some next) :
    ∃ deadline key, inner.setDeadlines.peek = some (deadline, key) ∧ deadline ≤ nowMs ∧
      (((∀ set, inner.calls.get key = some set → set.pendingDeadlineMs ≠ deadline) ∧
          next = { inner with setDeadlines := inner.setDeadlines.pop }) ∨
        ∃ set, inner.calls.get key = some set ∧ set.pendingDeadlineMs = deadline ∧
          ((nowMs < set.leaseExpiresAtMs ∧
              next = { inner with
                calls := inner.calls.insert key
                  { set with pendingDeadlineMs := set.leaseExpiresAtMs }
                setDeadlines := inner.setDeadlines.pop.push set.leaseExpiresAtMs key }) ∨
            (set.leaseExpiresAtMs ≤ nowMs ∧
              next = { (inner.dropSet key).1 with
                setDeadlines := inner.setDeadlines.pop
                leaseExpiredCalls := inner.leaseExpiredCalls + 1
                leaseExpiredHolds := inner.leaseExpiredHolds + set.entries.length }))) := by
  unfold sweepSet at turned
  cases top : inner.setDeadlines.peek with
  | none => simp [top] at turned
  | some item =>
    obtain ⟨deadline, key⟩ := item
    simp only [top] at turned
    split at turned
    · cases turned
    rename_i due
    refine ⟨deadline, key, rfl, not_lt.1 due, ?_⟩
    cases found : inner.calls.get key with
    | none =>
      simp only [found, Option.filter_none, Option.some.injEq] at turned
      exact Or.inl ⟨(fun set foundSet => by cases foundSet), turned.symm⟩
    | some set =>
      by_cases pending : set.pendingDeadlineMs = deadline
      · simp only [found, Option.filter_some, pending, decide_true, if_true] at turned
        refine Or.inr ⟨set, rfl, pending, ?_⟩
        split at turned
        · rename_i leased
          exact Or.inl ⟨leased, (Option.some.inj turned).symm⟩
        rename_i lapsed
        refine Or.inr ⟨not_lt.1 lapsed, ?_⟩
        simp only [dropSet, found] at turned ⊢
        exact (Option.some.inj turned).symm
      · simp only [found, Option.filter_some, pending, decide_false,
          Bool.false_eq_true, if_false, Option.some.injEq] at turned
        refine Or.inl ⟨?_, turned.symm⟩
        intro other foundOther
        cases foundOther
        exact pending

/-- A set other than the one whose deadline was popped keeps its own queued. -/
theorem Armed.set_of_pop {deadline : ℤ} {other : String} (armed : inner.Armed)
    (top : inner.setDeadlines.peek = some (deadline, key)) (found : inner.calls.get other = some set)
    (unpopped : ¬ (other = key ∧ set.pendingDeadlineMs = deadline)) :
    inner.setDeadlines.pop.Holds set.pendingDeadlineMs other := by
  rcases (holds_of_peek top).1 (armed.set other set found) with popped | held
  · exact absurd ⟨popped.2, popped.1⟩ unpopped
  · exact held

/-- One turn of the loop over the sets. -/
theorem SweepingSets.turn {start next : Inner} (sweeping : SweepingSets nowMs start inner)
    (turned : sweepSet nowMs inner = some next) :
    SweepingSets nowMs start next ∧
      next.setDeadlines.dueCount nowMs < inner.setDeadlines.dueCount nowMs := by
  obtain ⟨deadline, key, top, due, cases⟩ := sweepSet_cases turned
  have count := dueCount_pop top due
  have sound := sweeping.sound
  rcases cases with ⟨stale, rfl⟩ | ⟨set, found, pending, ⟨leased, rfl⟩ | ⟨lapsed, rfl⟩⟩
  · -- a stale deadline: whatever set the key holds waits for another one
    refine ⟨⟨sound.requeue ?_, sweeping.each, sweeping.fences, sweeping.markers⟩, ?_⟩
    · intro other set found
      refine sound.armed.set_of_pop top found ?_
      rintro ⟨rfl, pending⟩
      exact stale set found pending
    · dsimp only
      omega
  · have startEq := sweeping.start_of_due found (by omega)
    refine ⟨⟨?_, ?_, sweeping.fences, sweeping.markers⟩, ?_⟩
    · refine sound.retouch found rfl (holds_push.2 (Or.inl ⟨rfl, rfl⟩)) ?_
      intro other touched ne foundOther
      exact holds_push.2 (Or.inr (sound.armed.set_of_pop top foundOther (fun same => ne same.1)))
    · intro other
      by_cases same : other = key
      · subst same
        right
        simp [startEq, sweptSet, leased, pending, not_lt.2 due]
      · simpa [same] using sweeping.each other
    · rw [dueCount_push_of_lt leased]
      omega
  · have startEq := sweeping.start_of_due found (by omega)
    refine ⟨⟨?_, ?_, ?_, ?_⟩, ?_⟩
    · refine (Sound.requeue (sound.dropSet key) ?_).congr rfl rfl rfl rfl rfl rfl rfl
      intro other left foundLeft
      rw [dropSet_calls] at foundLeft
      split at foundLeft
      · cases foundLeft
      rename_i ne
      exact sound.armed.set_of_pop top foundLeft fun same => ne same.1
    · intro other
      by_cases same : other = key
      · subst same
        right
        simp [startEq, sweptSet, pending, not_lt.2 due, not_lt.2 lapsed]
      · simpa [same] using sweeping.each other
    · simpa using sweeping.fences
    · simpa using sweeping.markers
    · dsimp only
      omega

/-- The loop breaks only where no deadline is due. -/
theorem not_due_of_sweepSet_eq_none (broke : sweepSet nowMs inner = none)
    (held : inner.setDeadlines.Holds instant key) : nowMs < instant := by
  unfold sweepSet at broke
  cases top : inner.setDeadlines.peek with
  | none => exact absurd held (not_holds_of_peek_eq_none top instant key)
  | some item =>
    obtain ⟨deadline, topKey⟩ := item
    simp only [top] at broke
    split at broke
    · rename_i notDue
      exact lt_of_lt_of_le notDue (peek_least top held)
    split at broke
    · cases broke
    · split at broke <;> cases broke

/-- The whole loop over the sets: every set is swept and nothing else moved. -/
theorem sweepSets_spec (sound : inner.Sound) (nowMs : ℤ) :
    let after := loop (sweepSet nowMs) inner.setDeadlines.size inner
    SweepingSets nowMs inner after ∧
      ∀ key, after.calls.get key = sweptSet nowMs (inner.calls.get key) := by
  intro after
  have start : SweepingSets nowMs inner inner := ⟨sound, fun _ => Or.inl rfl, rfl, rfl⟩
  obtain ⟨sweeping, broke⟩ := loop_rule
    (fun _ _ sweeping turned => SweepingSets.turn sweeping turned) start
    (dueCount_le_size inner.setDeadlines nowMs)
  refine ⟨sweeping, ?_⟩
  intro key
  rcases sweeping.each key with unchanged | swept
  · -- never met by the loop: its deadline is still queued, so it is not due
    cases found : inner.calls.get key with
    | none => rw [unchanged, found]; rfl
    | some set =>
      rw [found] at unchanged
      have notDue := not_due_of_sweepSet_eq_none broke (sweeping.sound.armed.set key set unchanged)
      simp only [sweptSet, if_pos notDue]
      exact unchanged
  · exact swept

/-! ### The loops over the fences and the markers -/

section Lapsed

variable {Kind : Type} {nowMs : ℤ}

/-- The loop over one table of lapse instants, under way since `start`. -/
structure SweepingLapsed (nowMs : ℤ) (start : KeyMap String (Kind × ℤ))
    (state : Deadlines String × KeyMap String (Kind × ℤ)) : Prop where
  armed : state.2.Each (fun key entry => state.1.Holds entry.2 key)
  each : ∀ key, state.2.get key = start.get key ∨
    state.2.get key = sweptEntry nowMs (start.get key)

/-- Everything a turn can do: pop a stale instant, or drop the entry it belongs to. -/
theorem sweepLapsed_cases {state next : Deadlines String × KeyMap String (Kind × ℤ)}
    (turned : sweepLapsed nowMs state = some next) :
    ∃ deadline key, state.1.peek = some (deadline, key) ∧ deadline ≤ nowMs ∧
      next.1 = state.1.pop ∧
      (((∀ entry, state.2.get key = some entry → entry.2 ≠ deadline) ∧ next.2 = state.2) ∨
        ∃ entry, state.2.get key = some entry ∧ entry.2 = deadline ∧
          next.2 = state.2.remove key) := by
  obtain ⟨deadlines, entries⟩ := state
  simp only [sweepLapsed] at turned
  cases top : deadlines.peek with
  | none => simp [top] at turned
  | some item =>
    obtain ⟨deadline, key⟩ := item
    simp only [top] at turned
    split at turned
    · cases turned
    rename_i due
    refine ⟨deadline, key, rfl, not_lt.1 due, ?_⟩
    cases found : entries.get key with
    | none =>
      simp only [found, Option.any_none, Bool.false_eq_true, if_false, Option.some.injEq] at turned
      subst turned
      exact ⟨rfl, Or.inl ⟨(fun entry foundEntry => by cases foundEntry), rfl⟩⟩
    | some entry =>
      by_cases lapses : entry.2 = deadline
      · simp only [found, Option.any_some, lapses, decide_true, if_true, Option.some.injEq] at turned
        subst turned
        exact ⟨rfl, Or.inr ⟨entry, rfl, lapses, rfl⟩⟩
      simp only [found, Option.any_some, lapses, decide_false, Bool.false_eq_true,
        if_false, Option.some.injEq] at turned
      subst turned
      refine ⟨rfl, Or.inl ⟨?_, rfl⟩⟩
      intro other foundOther
      cases foundOther
      exact lapses

theorem SweepingLapsed.turn {start : KeyMap String (Kind × ℤ)}
    {state next : Deadlines String × KeyMap String (Kind × ℤ)} (sweeping : SweepingLapsed nowMs start state)
    (turned : sweepLapsed nowMs state = some next) :
    SweepingLapsed nowMs start next ∧ next.1.dueCount nowMs < state.1.dueCount nowMs := by
  obtain ⟨deadline, key, top, due, popped, cases⟩ := sweepLapsed_cases turned
  obtain ⟨deadlines, entries⟩ := state
  obtain ⟨nextDeadlines, nextEntries⟩ := next
  have count := dueCount_pop top due
  simp only at popped cases top count
  subst popped
  refine ⟨?_, by simp only; omega⟩
  rcases cases with ⟨stale, rfl⟩ | ⟨entry, found, lapses, rfl⟩
  · refine ⟨?_, sweeping.each⟩
    intro other entry foundEntry
    rcases (holds_of_peek top).1 (sweeping.armed other entry foundEntry) with
      ⟨sameDeadline, rfl⟩ | held
    · exact absurd sameDeadline (stale entry foundEntry)
    · exact held
  · constructor
    · intro other left foundLeft
      obtain ⟨ne, foundLeft⟩ := KeyMap.of_get_remove foundLeft
      rcases (holds_of_peek top).1 (sweeping.armed other left foundLeft) with
        ⟨_, same⟩ | held
      · exact absurd same ne
      · exact held
    · intro other
      by_cases same : other = key
      · subst same
        right
        rcases sweeping.each other with unchanged | swept
        · simp only at unchanged
          rw [← unchanged, found]
          simp [sweptEntry, Option.filter, lapses, not_lt.2 due]
        simp only at swept
        rw [found] at swept
        have kept := (sweptEntry_eq_some.1 swept.symm).2
        omega
      · simpa [same] using sweeping.each other

theorem not_due_of_sweepLapsed_eq_none {state : Deadlines String × KeyMap String (Kind × ℤ)}
    (broke : sweepLapsed nowMs state = none) (held : state.1.Holds instant key) : nowMs < instant := by
  obtain ⟨deadlines, entries⟩ := state
  simp only [sweepLapsed] at broke
  cases top : deadlines.peek with
  | none => exact absurd held (not_holds_of_peek_eq_none top instant key)
  | some item =>
    obtain ⟨deadline, topKey⟩ := item
    simp only [top] at broke
    split at broke
    · rename_i notDue
      exact lt_of_lt_of_le notDue (peek_least top held)
    · split at broke <;> cases broke

/-- The whole loop over one table of lapse instants. -/
theorem sweepLapsed_spec {deadlines : Deadlines String} {entries : KeyMap String (Kind × ℤ)}
    (armed : entries.Each (fun key entry => deadlines.Holds entry.2 key)) (nowMs : ℤ) :
    let after := loop (sweepLapsed nowMs) deadlines.size (deadlines, entries)
    after.2.Each (fun key entry => after.1.Holds entry.2 key) ∧
      ∀ key, after.2.get key = sweptEntry nowMs (entries.get key) := by
  intro after
  have start : SweepingLapsed nowMs entries (deadlines, entries) := ⟨armed, fun _ => Or.inl rfl⟩
  obtain ⟨sweeping, broke⟩ := loop_rule
    (fun _ _ sweeping turned => SweepingLapsed.turn sweeping turned) start
    (dueCount_le_size deadlines nowMs)
  refine ⟨sweeping.armed, ?_⟩
  intro key
  rcases sweeping.each key with unchanged | swept
  · cases found : entries.get key with
    | none => rw [unchanged, found]; rfl
    | some entry =>
      rw [found] at unchanged
      have notDue := not_due_of_sweepLapsed_eq_none broke (sweeping.armed key entry unchanged)
      rw [unchanged, eq_comm, sweptEntry_eq_some]
      exact ⟨rfl, notDue⟩
  · exact swept

end Lapsed

/-! ### The sweep -/

section Sweep

variable {inner : Inner}

/-- Under any clock reading the sweep drops a set exactly when its queued deadline and its lease
    have both passed. -/
theorem sweep_calls (sound : inner.Sound) (nowMs : ℤ) (key : String) :
    (inner.sweep nowMs).calls.get key = sweptSet nowMs (inner.calls.get key) :=
  (sweepSets_spec sound nowMs).2 key

theorem sweep_fences (sound : inner.Sound) (nowMs : ℤ) (key : String) :
    (inner.sweep nowMs).fences.get key = sweptEntry nowMs (inner.fences.get key) := by
  have sets := (sweepSets_spec sound nowMs).1
  have fences := (sweepLapsed_spec sets.sound.armed.fence nowMs).2 key
  exact fences.trans (by rw [sets.fences])

theorem sweep_markers (sound : inner.Sound) (nowMs : ℤ) (key : String) :
    (inner.sweep nowMs).markers.get key = sweptEntry nowMs (inner.markers.get key) := by
  have sets := (sweepSets_spec sound nowMs).1
  have markers := (sweepLapsed_spec sets.sound.armed.marker nowMs).2 key
  exact markers.trans (by rw [sets.markers])

theorem sweep_sound (sound : inner.Sound) (nowMs : ℤ) : (inner.sweep nowMs).Sound := by
  have sets := (sweepSets_spec sound nowMs).1
  have noFence : ∀ {key}, inner.fences.get key = none →
      (inner.sweep nowMs).fences.get key = none := by
    intro key none
    rw [sweep_fences sound, none]
    rfl
  have noMarker : ∀ {key}, inner.markers.get key = none →
      (inner.sweep nowMs).markers.get key = none := by
    intro key none
    rw [sweep_markers sound, none]
    rfl
  refine ⟨sets.sound.counted, ⟨?_, ?_, ?_⟩, ⟨sets.sound.armed.set, ?_, ?_⟩⟩
  · refine sets.sound.exclusive.setFence.mono ?_
    intro key set _ none
    exact noFence (by rw [← sets.fences]; exact none)
  · refine sets.sound.exclusive.setMarker.mono ?_
    intro key set _ none
    exact noMarker (by rw [← sets.markers]; exact none)
  · intro key fence found
    rw [sweep_fences sound, sweptEntry_eq_some] at found
    exact noMarker (sound.exclusive.fenceMarker key fence found.1)
  · exact (sweepLapsed_spec sets.sound.armed.fence nowMs).1
  · exact (sweepLapsed_spec sets.sound.armed.marker nowMs).1

end Sweep

end Inner

end SipServer.Limiter
