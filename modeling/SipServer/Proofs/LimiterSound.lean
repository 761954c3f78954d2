/-
Module: SipServer.Proofs.LimiterSound
Purpose: The invariant of the limiter store that every request keeps, under any clock readings: counts
  equal occurrences, a key is in at most one table, every table entry has its deadline queued.
-/
import SipServer.Limiter.Store

namespace SipServer.Limiter

open SipServer.Lib

variable {counts : KeyMap String ℤ} {held : String → ℕ} {set : CallSet} {id key : String} {before : CallSet}
  {setDeadlines : Deadlines String} {inner : Inner} {entries : List AdmitEntry} {entry : AdmitEntry}

/-!
The invariant has three parts, and each primitive of the store is shown to keep each part on its own.
None of them mentions the clock, so none depends on the readings the store is driven with.
-/

namespace Inner

/-- How often an id occurs over the entries of all held sets. -/
def occurrences (inner : Inner) (id : String) : ℕ :=
  inner.calls.total (fun set => multiplicity set.entries id)

/-- The table entry of a count: an id nobody holds has none. -/
def tally (count : ℕ) : Option ℤ :=
  if count = 0 then none else some count

/-- The counts table states, for every id, the given number of holds. -/
def Tallies (counts : KeyMap String ℤ) (held : String → ℕ) : Prop :=
  ∀ id, counts.get id = tally (held id)

/-- No key is in two of the three tables. -/
structure Exclusive (inner : Inner) : Prop where
  setFence : inner.calls.Each (fun key _ => inner.fences.get key = none)
  setMarker : inner.calls.Each (fun key _ => inner.markers.get key = none)
  fenceMarker : inner.fences.Each (fun key _ => inner.markers.get key = none)

/-- Every set, fence and marker has the deadline that will drop it queued. -/
structure Armed (inner : Inner) : Prop where
  set : inner.calls.Each (fun key set => inner.setDeadlines.Holds set.pendingDeadlineMs key)
  fence : inner.fences.Each (fun key fence => inner.fenceDeadlines.Holds fence.2 key)
  marker : inner.markers.Each (fun key marker => inner.markerDeadlines.Holds marker.2 key)

/-- What holds of the store whatever the clock reads. -/
structure Sound (inner : Inner) : Prop where
  counted : Tallies inner.counts inner.occurrences
  exclusive : inner.Exclusive
  armed : inner.Armed

/-! ### Counting -/

@[simp] theorem multiplicity_nil : multiplicity [] id = 0 := rfl

theorem multiplicity_cons :
    multiplicity (entry :: entries) id =
      multiplicity entries id + if entry.id = id then 1 else 0 := by
  simp [multiplicity, List.countP_cons]

theorem Tallies.countHold (tallies : Tallies counts held) (entry : AdmitEntry) :
    Tallies (countHold counts entry) (fun id => held id + if entry.id = id then 1 else 0) := by
  intro id
  have before := tallies id
  by_cases same : id = entry.id
  · subst same
    by_cases zero : held entry.id = 0
    · simp [Inner.countHold, before, tally, zero]
    · simp [Inner.countHold, before, tally, zero]
  · have other : entry.id ≠ id := fun eq => same eq.symm
    simp [Inner.countHold, before, same, other]

theorem Tallies.uncountHold (tallies : Tallies counts (fun id => held id + if entry.id = id then 1 else 0)) :
    Tallies (uncountHold counts entry) held := by
  have own : counts.get entry.id = some ((held entry.id : ℤ) + 1) := by
    have before := tallies entry.id
    simpa [tally] using before
  intro id
  by_cases same : id = entry.id
  · subst same
    by_cases zero : held entry.id = 0
    · simp [Inner.uncountHold, own, tally, zero]
    · simp [Inner.uncountHold, own, tally, zero]
  have other : entry.id ≠ id := fun eq => same eq.symm
  have before := tallies id
  simp only [other, if_false, Nat.add_zero] at before
  by_cases zero : held entry.id = 0
  · simp [Inner.uncountHold, own, zero, same, before]
  · simp [Inner.uncountHold, own, zero, same, before]

/-- Counting a list of entries raises each id by its multiplicity in the list. -/
theorem Tallies.countHolds (tallies : Tallies counts held) (entries : List AdmitEntry) :
    Tallies (entries.foldl Inner.countHold counts)
      (fun id => held id + multiplicity entries id) := by
  induction entries generalizing counts held with
  | nil => simpa using tallies
  | cons entry entries ih =>
    have counted := ih (tallies.countHold entry)
    intro id
    rw [List.foldl_cons, counted id]
    dsimp only
    rw [multiplicity_cons]
    congr 1
    omega

/-- Uncounting a list of entries undoes `countHolds`. -/
theorem Tallies.uncountHolds (tallies : Tallies counts (fun id => held id + multiplicity entries id)) :
    Tallies (entries.foldl Inner.uncountHold counts) held := by
  induction entries generalizing counts with
  | nil => simpa using tallies
  | cons entry entries ih =>
    apply ih
    apply Tallies.uncountHold
    intro id
    rw [tallies id]
    dsimp only
    rw [multiplicity_cons]
    congr 1
    omega

/-! ### Tables after each primitive -/

section Tables

variable (inner : Inner) (key other : String)

@[simp] theorem dropSet_calls :
    (inner.dropSet key).1.calls.get other =
      if other = key then none else inner.calls.get other := by
  unfold dropSet
  cases found : inner.calls.get key with
  | none =>
    by_cases same : other = key
    · simp [same, found]
    · simp [same]
  | some set => simp

@[simp] theorem dropSet_fences : (inner.dropSet key).1.fences = inner.fences := by
  unfold dropSet
  cases inner.calls.get key <;> rfl

@[simp] theorem dropSet_markers : (inner.dropSet key).1.markers = inner.markers := by
  unfold dropSet
  cases inner.calls.get key <;> rfl

@[simp] theorem dropSet_setDeadlines : (inner.dropSet key).1.setDeadlines = inner.setDeadlines := by
  unfold dropSet
  cases inner.calls.get key <;> rfl

@[simp] theorem dropSet_fenceDeadlines : (inner.dropSet key).1.fenceDeadlines = inner.fenceDeadlines := by
  unfold dropSet
  cases inner.calls.get key <;> rfl

@[simp] theorem dropSet_markerDeadlines :
    (inner.dropSet key).1.markerDeadlines = inner.markerDeadlines := by
  unfold dropSet
  cases inner.calls.get key <;> rfl

end Tables

/-! ### Each primitive keeps the invariant -/

/-- A held set's share of the occurrences, and everyone else's. -/
theorem occurrences_of_get (found : inner.calls.get key = some set) :
    inner.occurrences id = (inner.calls.remove key).total
      (fun set => multiplicity set.entries id) + multiplicity set.entries id := by
  rw [occurrences, KeyMap.total_remove_of_get_eq_some _ found, Nat.add_comm]

/-- A table that differs from the store's at one key, by a set with the same entries, has the same
    occurrences. -/
theorem occurrences_insert_of_entries
    (found : inner.calls.get key = some before) (sameEntries : set.entries = before.entries) :
    (inner.calls.insert key set).total (fun set => multiplicity set.entries id) =
      inner.occurrences id := by
  rw [occurrences_of_get found, KeyMap.total_insert, sameEntries, Nat.add_comm]

namespace Sound

variable {inner : Inner} {key : String}

section

variable (sound : inner.Sound)

include sound

/-- Dropping a set takes its holds from the counts. -/
theorem counted_dropSet (key : String) :
    Tallies (inner.dropSet key).1.counts (inner.dropSet key).1.occurrences := by
  cases found : inner.calls.get key with
  | none => simpa [Inner.dropSet, found] using sound.counted
  | some set =>
    have split : Tallies inner.counts (fun id => (inner.calls.remove key).total
        (fun set => multiplicity set.entries id) + multiplicity set.entries id) := by
      intro id
      rw [sound.counted id, occurrences_of_get found]
    simp only [dropSet, found]
    exact split.uncountHolds

theorem dropSet (key : String) : (inner.dropSet key).1.Sound := by
  have counted := sound.counted_dropSet key
  unfold Inner.dropSet at counted ⊢
  cases found : inner.calls.get key with
  | none =>
    rw [found] at counted
    exact ⟨counted, sound.exclusive, sound.armed⟩
  | some set =>
    rw [found] at counted
    obtain ⟨setFence, setMarker, fenceMarker⟩ := sound.exclusive
    exact ⟨counted, ⟨setFence.remove key, setMarker.remove key, fenceMarker⟩,
      { sound.armed with set := sound.armed.set.remove key }⟩

theorem dropMarker (key : String) : (inner.dropMarker key).Sound := by
  obtain ⟨setFence, setMarker, fenceMarker⟩ := sound.exclusive
  refine ⟨sound.counted, ⟨setFence, setMarker.mono ?_, fenceMarker.mono ?_⟩,
    { sound.armed with marker := sound.armed.marker.remove key }⟩
  · intro other set _ none
    simp [Inner.dropMarker, none]
  · intro other fence _ none
    simp [Inner.dropMarker, none]

theorem dropFence (key : String) : (inner.dropFence key).Sound := by
  obtain ⟨setFence, setMarker, fenceMarker⟩ := sound.exclusive
  refine ⟨sound.counted, ⟨setFence.mono ?_, setMarker, fenceMarker.remove key⟩,
    { sound.armed with fence := sound.armed.fence.remove key }⟩
  intro other set _ none
  simp [Inner.dropFence, none]

/-- The gauges are no part of the invariant. -/
theorem congr {after : Inner} (calls : after.calls = inner.calls) (counts : after.counts = inner.counts)
    (fences : after.fences = inner.fences) (markers : after.markers = inner.markers)
    (setDeadlines : after.setDeadlines = inner.setDeadlines)
    (fenceDeadlines : after.fenceDeadlines = inner.fenceDeadlines)
    (markerDeadlines : after.markerDeadlines = inner.markerDeadlines) : after.Sound := by
  obtain ⟨counted, ⟨setFence, setMarker, fenceMarker⟩, ⟨armedSet, armedFence, armedMarker⟩⟩ := sound
  refine ⟨?_, ⟨?_, ?_, ?_⟩, ⟨?_, ?_, ?_⟩⟩
  · intro id
    rw [counts, counted id, occurrences, occurrences, calls]
  · rw [calls, fences]
    exact setFence
  · rw [calls, markers]
    exact setMarker
  · rw [fences, markers]
    exact fenceMarker
  · rw [calls, setDeadlines]
    exact armedSet
  · rw [fences, fenceDeadlines]
    exact armedFence
  · rw [markers, markerDeadlines]
    exact armedMarker

/-- A key with no set and no marker may be fenced. -/
theorem fence (why : Fence) (lapsesAtMs : ℤ)
    (noSet : inner.calls.get key = none) (noMarker : inner.markers.get key = none) :
    (inner.fence key why lapsesAtMs).Sound := by
  obtain ⟨setFence, setMarker, fenceMarker⟩ := sound.exclusive
  refine ⟨sound.counted, ⟨setFence.mono_of_absent noSet ?_, setMarker, fenceMarker.insert noMarker⟩,
    { sound.armed with fence := KeyMap.Each.insert (sound.armed.fence.mono ?_) ?_ }⟩
  · intro other set ne none
    simp [Inner.fence, ne, none]
  · intro other fence _ held
    exact Deadlines.holds_push.2 (Or.inr held)
  · exact Deadlines.holds_push.2 (Or.inl ⟨rfl, rfl⟩)

/-- A key in no table may be given a set. -/
theorem insertSet (entries : List AdmitEntry) (change : ℕ) (leaseExpiresAtMs : ℤ) (noSet : inner.calls.get key = none)
    (noFence : inner.fences.get key = none) (noMarker : inner.markers.get key = none) :
    (inner.insertSet key entries change leaseExpiresAtMs).Sound := by
  obtain ⟨setFence, setMarker, fenceMarker⟩ := sound.exclusive
  refine ⟨?_, ⟨setFence.insert noFence, setMarker.insert noMarker, fenceMarker⟩,
    { sound.armed with set := KeyMap.Each.insert (sound.armed.set.mono ?_) ?_ }⟩
  · intro id
    have counted := sound.counted.countHolds entries id
    simp only [Inner.insertSet, occurrences, KeyMap.total_insert, KeyMap.remove_of_get_eq_none noSet]
    rw [counted, Nat.add_comm]
    rfl
  · intro other set _ held
    exact Deadlines.holds_push.2 (Or.inr held)
  · exact Deadlines.holds_push.2 (Or.inl ⟨rfl, rfl⟩)

/-- A held set's number, lease and queued deadline may move, as long as its entries stay and the
    deadline is queued. -/
theorem retouch (found : inner.calls.get key = some before) (sameEntries : set.entries = before.entries)
    (armed : setDeadlines.Holds set.pendingDeadlineMs key)
    (othersArmed : ∀ other set, other ≠ key → inner.calls.get other = some set →
      setDeadlines.Holds set.pendingDeadlineMs other) :
    ({ inner with calls := inner.calls.insert key set, setDeadlines } : Inner).Sound := by
  obtain ⟨setFence, setMarker, fenceMarker⟩ := sound.exclusive
  refine ⟨?_, ⟨setFence.insert (setFence key before found),
    setMarker.insert (setMarker key before found), fenceMarker⟩, { sound.armed with set := ?_ }⟩
  · intro id
    rw [sound.counted id, ← occurrences_insert_of_entries found sameEntries]
    rfl
  · intro other touched foundTouched
    rcases KeyMap.of_get_insert foundTouched with ⟨same, rfl⟩ | ⟨ne, foundTouched⟩
    · exact same ▸ armed
    · exact othersArmed other touched ne foundTouched

/-- The set deadlines may change as long as every set's stays queued. -/
theorem requeue (armed : inner.calls.Each (fun key set => setDeadlines.Holds set.pendingDeadlineMs key)) :
    ({ inner with setDeadlines } : Inner).Sound := by
  exact ⟨sound.counted, { sound.exclusive with }, { sound.armed with set := armed }⟩

/-- A fence's reason may change; its lapse instant stays. -/
theorem refence {before : Fence × ℤ} {why : Fence} (found : inner.fences.get key = some before) :
    ({ inner with fences := inner.fences.insert key (why, before.2) } : Inner).Sound := by
  obtain ⟨setFence, setMarker, fenceMarker⟩ := sound.exclusive
  refine ⟨sound.counted, ⟨setFence.mono ?_, setMarker, fenceMarker.insert (fenceMarker key before found)⟩,
    { sound.armed with fence := sound.armed.fence.insert (sound.armed.fence key before found) }⟩
  intro other set _ none
  have ne : other ≠ key := by
    rintro rfl
    rw [none] at found
    cases found
  simp [ne, none]

/-- A key with no set and no fence may be marked. -/
theorem mark (change : ℕ) (lapsesAtMs : ℤ)
    (noSet : inner.calls.get key = none) (noFence : inner.fences.get key = none) :
    ({ inner with
        markers := inner.markers.insert key (change, lapsesAtMs)
        markerDeadlines := inner.markerDeadlines.push lapsesAtMs key } : Inner).Sound := by
  obtain ⟨setFence, setMarker, fenceMarker⟩ := sound.exclusive
  refine ⟨sound.counted, ⟨setFence, setMarker.mono_of_absent noSet ?_, fenceMarker.mono_of_absent noFence ?_⟩,
    { sound.armed with marker := KeyMap.Each.insert (sound.armed.marker.mono ?_) ?_ }⟩
  · intro other set ne none
    simp [ne, none]
  · intro other fence ne none
    simp [ne, none]
  · intro other marker _ held
    exact Deadlines.holds_push.2 (Or.inr held)
  · exact Deadlines.holds_push.2 (Or.inl ⟨rfl, rfl⟩)

/-- A held set's number and lease may move; its entries and its queued deadline stay. -/
theorem restate (found : inner.calls.get key = some before)
    (sameEntries : set.entries = before.entries) (samePending : set.pendingDeadlineMs = before.pendingDeadlineMs) :
    ({ inner with calls := inner.calls.insert key set } : Inner).Sound := by
  refine sound.retouch found sameEntries ?_ ?_
  · rw [samePending]
    exact sound.armed.set key before found
  · intro other set _ foundOther
    exact sound.armed.set other set foundOther

end

end Sound

/-! ### What a request writes

Every request is a sequence of writes to the tables of its key, each under what the request has read or
dropped before; what every write keeps, every request keeps.
-/

/-- One write to the tables of a key. -/
inductive Write (key : String) (leaseEnd : ℤ) : Inner → Inner → Prop
  | gauges (inner : Inner) (reregisteredCalls admitReregisteredCalls releasesTotal admitsRefusedReleased : ℕ) :
      Write key leaseEnd inner
        { inner with reregisteredCalls, admitReregisteredCalls, releasesTotal, admitsRefusedReleased }
  | dropSet (inner : Inner) : Write key leaseEnd inner (inner.dropSet key).1
  | dropMarker (inner : Inner) : Write key leaseEnd inner (inner.dropMarker key)
  | dropFence (inner : Inner) : Write key leaseEnd inner (inner.dropFence key)
  | fence {inner : Inner} (why : Fence) (noSet : inner.calls.get key = none)
      (noMarker : inner.markers.get key = none) : Write key leaseEnd inner (inner.fence key why leaseEnd)
  | insertSet {inner : Inner} (entries : List AdmitEntry) (change : ℕ) (noSet : inner.calls.get key = none)
      (noFence : inner.fences.get key = none) (noMarker : inner.markers.get key = none) :
      Write key leaseEnd inner (inner.insertSet key entries change leaseEnd)
  | renumber {inner : Inner} {set : CallSet} (change : ℕ) (found : inner.calls.get key = some set) :
      Write key leaseEnd inner { inner with calls := inner.calls.insert key { set with change } }
  | refence {inner : Inner} {known : ℕ} {lapses : ℤ} (change : ℕ)
      (found : inner.fences.get key = some (.dropped known, lapses)) :
      Write key leaseEnd inner { inner with fences := inner.fences.insert key (.dropped change, lapses) }
  | mark {inner : Inner} (change : ℕ) (noSet : inner.calls.get key = none) (noFence : inner.fences.get key = none) :
      Write key leaseEnd inner
        { inner with
          markers := inner.markers.insert key (change, leaseEnd)
          markerDeadlines := inner.markerDeadlines.push leaseEnd key }

/-- Any number of writes. -/
abbrev Writes (key : String) (leaseEnd : ℤ) : Inner → Inner → Prop := Relation.ReflTransGen (Write key leaseEnd)

section Writes

variable {leaseEnd : ℤ} (inner : Inner) (key : String)

theorem reregister_writes (change : ℕ) (entries : List AdmitEntry) {carried : List AdmitEntry}
    (lost : inner.reregisters key carried = true) :
    Writes key leaseEnd inner (inner.reregister key change entries leaseEnd) := by
  simp only [reregisters, Bool.and_eq_true, Option.isNone_iff_eq_none] at lost
  exact .head (.dropMarker inner) (.single (.insertSet _ _ lost.1.2 lost.2 (by simp [dropMarker])))

theorem carry_writes (held : HeldSet) : Writes key leaseEnd inner (inner.carry key held leaseEnd) := by
  unfold carry
  split
  · rename_i lost
    exact (inner.reregister_writes key held.change held.entries lost).tail (.gauges ..)
  · exact .refl

theorem recordChange_writes (change : ℕ) (notReleased : inner.releaseFenced key = false) :
    Writes key leaseEnd inner (inner.recordChange key change leaseEnd) := by
  unfold recordChange
  cases foundSet : inner.calls.get key with
  | some set => exact .single (.renumber change foundSet)
  | none =>
    cases foundFence : inner.fences.get key with
    | none => exact .single (.mark change foundSet foundFence)
    | some fence =>
      obtain ⟨why, lapses⟩ := fence
      cases why with
      | dropped known => exact .single (.refence change foundFence)
      | released => simp [releaseFenced, foundFence] at notReleased

/-- The set and the marker of a key go, and the key is fenced. -/
theorem drop_writes (why : Fence) :
    Writes key leaseEnd inner (((inner.dropSet key).1.dropMarker key).fence key why leaseEnd) :=
  .head (.dropSet inner) (.head (.dropMarker _) (.single (.fence why (by simp [dropMarker]) (by simp [dropMarker]))))

theorem refuse_writes (change : ℕ) (releaseOnRefusal : Bool) (notReleased : inner.releaseFenced key = false) :
    Writes key leaseEnd inner (inner.refuse key change releaseOnRefusal leaseEnd) := by
  unfold refuse
  split
  · exact inner.drop_writes key _
  · exact inner.recordChange_writes key change notReleased

theorem replaceSet_writes (change : ℕ) (entries : List AdmitEntry) :
    Writes key leaseEnd inner (inner.replaceSet key change entries leaseEnd) := by
  have bare : Writes key leaseEnd inner (((inner.dropSet key).1.dropFence key).dropMarker key) :=
    .head (.dropSet inner) (.head (.dropFence _) (.single (.dropMarker _)))
  unfold replaceSet
  split
  · exact bare.tail (.fence _ (by simp [dropMarker, dropFence]) (by simp [dropMarker]))
  · refine bare.tail (.insertSet _ _ ?_ ?_ ?_)
    · simp [dropMarker, dropFence]
    · simp [dropMarker, dropFence]
    · simp [dropMarker]

/-- Re-creating a set fences nothing. -/
theorem carry_releaseFenced {inner : Inner} {key other : String} {held : HeldSet} {leaseExpiresAtMs : ℤ} :
    (inner.carry key held leaseExpiresAtMs).releaseFenced other = inner.releaseFenced other := by
  unfold carry
  split <;> rfl

/-- Everything an admit can do. -/
theorem admitSet_cases (change : ℕ) (held : HeldSet) (entries : List AdmitEntry) (releaseOnRefusal : Bool)
    (leaseExpiresAtMs : ℤ) :
    let answer := inner.admitSet key change held entries releaseOnRefusal leaseExpiresAtMs
    let carried := inner.carry key held leaseExpiresAtMs
    let refusal := carried.refuse key change releaseOnRefusal leaseExpiresAtMs
    (inner.releaseFenced key = true ∧
        answer = ({ inner with admitsRefusedReleased := inner.admitsRefusedReleased + 1 }, .released)) ∨
      (inner.releaseFenced key = false ∧ (inner.knownChange key).any (fun known => change ≤ known) = true ∧
        answer = (inner, .superseded (inner.heldSet key))) ∨
      (inner.releaseFenced key = false ∧ (inner.knownChange key).any (fun known => change ≤ known) = false ∧
        ((∃ entry, carried.refused key entries = some entry ∧
            answer = (refusal, .rejected entry.id (refusal.heldSet key))) ∨
          (carried.refused key entries = none ∧
            answer = (carried.replaceSet key change entries leaseExpiresAtMs, .admitted)))) := by
  intro answer carried refusal
  simp only [answer, admitSet]
  split
  · rename_i fenced
    exact .inl ⟨fenced, rfl⟩
  rename_i notFenced
  split
  · rename_i late
    exact .inr (.inl ⟨by simpa using notFenced, late, rfl⟩)
  rename_i newer
  refine .inr (.inr ⟨by simpa using notFenced, by simpa using newer, ?_⟩)
  split
  · rename_i entry isRefused
    exact .inl ⟨entry, isRefused, rfl⟩
  · rename_i isAdmitted
    exact .inr ⟨isAdmitted, rfl⟩

theorem admitSet_writes (change : ℕ) (held : HeldSet) (entries : List AdmitEntry) (releaseOnRefusal : Bool) :
    Writes key leaseEnd inner (inner.admitSet key change held entries releaseOnRefusal leaseEnd).1 := by
  have carried : Writes key leaseEnd inner (inner.carry key held leaseEnd) := inner.carry_writes key held
  rcases inner.admitSet_cases key change held entries releaseOnRefusal leaseEnd with
    ⟨_, answer⟩ | ⟨_, _, answer⟩ | ⟨notFenced, _, ⟨_, _, answer⟩ | ⟨_, answer⟩⟩ <;> rw [answer]
  · exact .single (.gauges ..)
  · exact carried.trans (refuse_writes _ key change releaseOnRefusal (carry_releaseFenced.trans notFenced))
  · exact carried.trans (replaceSet_writes _ key change entries)

theorem release_writes : Writes key leaseEnd inner (inner.release leaseEnd key) := by
  unfold release
  dsimp only
  split
  · exact .single (.gauges ..)
  · exact .head (.gauges ..) (drop_writes _ key .released)

/-- A refresh extends the set it finds, or writes. -/
theorem refresh_writes (change : ℕ) (entries : List AdmitEntry) :
    (∃ set, inner.calls.get key = some set ∧ (inner.refresh key change entries leaseEnd).1 =
        { inner with calls := inner.calls.insert key { set with leaseExpiresAtMs := leaseEnd } }) ∨
      Writes key leaseEnd inner (inner.refresh key change entries leaseEnd).1 := by
  unfold refresh
  cases found : inner.calls.get key with
  | some set => exact .inl ⟨set, rfl, rfl⟩
  | none =>
    right
    dsimp only
    split
    · rename_i lost
      exact (inner.reregister_writes key change entries lost).tail (.gauges ..)
    · split <;> exact .refl

end Writes

/-! ### Each request keeps the invariant -/

theorem Write.sound {leaseEnd : ℤ} {after : Inner} (write : Write key leaseEnd inner after) (sound : inner.Sound) :
    after.Sound := by
  cases write with
  | gauges => exact sound.congr rfl rfl rfl rfl rfl rfl rfl
  | dropSet => exact sound.dropSet key
  | dropMarker => exact sound.dropMarker key
  | dropFence => exact sound.dropFence key
  | fence why noSet noMarker => exact sound.fence why leaseEnd noSet noMarker
  | insertSet entries change noSet noFence noMarker =>
    exact sound.insertSet entries change leaseEnd noSet noFence noMarker
  | renumber change found => exact sound.restate found rfl rfl
  | refence change found => exact sound.refence found
  | mark change noSet noFence => exact sound.mark change leaseEnd noSet noFence

namespace Sound

variable {inner : Inner} {key : String}

section

variable (sound : inner.Sound)

include sound

theorem writes {leaseEnd : ℤ} {after : Inner} (writes : Writes key leaseEnd inner after) : after.Sound := by
  induction writes with
  | refl => exact sound
  | tail _ write ih => exact write.sound ih

theorem refresh (change : ℕ) (entries : List AdmitEntry)
    (leaseExpiresAtMs : ℤ) : (inner.refresh key change entries leaseExpiresAtMs).1.Sound := by
  rcases inner.refresh_writes key change entries with ⟨set, found, extended⟩ | writes
  · rw [extended]
    exact sound.restate found rfl rfl
  · exact sound.writes writes

theorem releaseEach (fencedUntilMs : ℤ) (keys : List String) :
    (keys.foldl (Inner.release fencedUntilMs) inner).Sound := by
  induction keys generalizing inner with
  | nil => exact sound
  | cons key keys ih => exact ih (sound.writes (inner.release_writes key))

theorem refreshEach (leaseExpiresAtMs : ℤ) (calls : List (String × ℕ × List AdmitEntry)) :
    (refreshEach leaseExpiresAtMs inner calls).1.Sound := by
  induction calls generalizing inner with
  | nil => exact sound
  | cons call calls ih =>
    obtain ⟨key, change, entries⟩ := call
    exact ih (sound.refresh change entries leaseExpiresAtMs)

end

theorem new : new.Sound where
  counted := fun _ => rfl
  exclusive := ⟨.empty, .empty, .empty⟩
  armed := ⟨.empty, .empty, .empty⟩

end Sound

end Inner

end SipServer.Limiter
