/-
Module: SipServer.Proofs.LimiterCaps
Purpose: The caps of the limiter hold. While no set is re-created, an id every admit gives one limit never
  counts above it; whatever the run, an admission leaves each id it raised within the limits it stated, and a
  kept refusal changes nothing but the number of its key.
-/
import SipServer.Proofs.LimiterSlots

namespace SipServer.Limiter

open SipServer.Lib

variable {id : String} {store : CallStore} {request : Request} {nowMs : ℤ}

namespace Inner

variable {inner : Inner} {key : String}

variable {entries : List AdmitEntry} {leaseExpiresAtMs : ℤ} {change : ℕ} {fencedUntilMs : ℤ}

/-- The live count of an id. -/
def count (inner : Inner) (id : String) : ℤ := (inner.counts.get id).getD 0

theorem Sound.count_eq (sound : inner.Sound) (id : String) : inner.count id = inner.occurrences id := by
  rw [count, sound.counted id, tally]
  split
  · rename_i none
    rw [none]
    rfl
  · rfl

/-! ### Occurrences after each primitive -/

theorem ownEntries_of_set {set : CallSet} (found : inner.calls.get key = some set) :
    inner.ownEntries key = set.entries := by
  rw [ownEntries, found]
  rfl

theorem ownEntries_of_none (noSet : inner.calls.get key = none) : inner.ownEntries key = [] := by
  rw [ownEntries, noSet]
  rfl

theorem occurrences_dropSet (inner : Inner) (key id : String) :
    (inner.dropSet key).1.occurrences id + multiplicity (inner.ownEntries key) id = inner.occurrences id := by
  cases found : inner.calls.get key with
  | none =>
    rw [ownEntries_of_none found]
    simp only [dropSet, found, multiplicity_nil, Nat.add_zero]
  | some set =>
    rw [ownEntries_of_set found, occurrences_of_get found]
    simp only [dropSet, found, occurrences]

theorem occurrences_insertSet (noSet : inner.calls.get key = none) :
    (inner.insertSet key entries change leaseExpiresAtMs).occurrences id =
      inner.occurrences id + multiplicity entries id := by
  simp only [insertSet, occurrences, KeyMap.total_insert, KeyMap.remove_of_get_eq_none noSet]
  rw [Nat.add_comm]

/-- An admission exchanges the key's own holds for the admitted ones. -/
theorem occurrences_replaceSet (inner : Inner) (key : String) (change : ℕ) (entries : List AdmitEntry)
    (leaseExpiresAtMs : ℤ) (id : String) :
    (inner.replaceSet key change entries leaseExpiresAtMs).occurrences id + multiplicity (inner.ownEntries key) id =
      inner.occurrences id + multiplicity entries id := by
  have dropped := occurrences_dropSet inner key id
  have bare : (((inner.dropSet key).1.dropFence key).dropMarker key).occurrences id =
      (inner.dropSet key).1.occurrences id := rfl
  unfold replaceSet
  split
  · rename_i isEmpty
    have noHolds : multiplicity entries id = 0 := by
      rw [List.isEmpty_iff.1 isEmpty]
      rfl
    rw [noHolds]
    exact dropped
  · have noSet : (((inner.dropSet key).1.dropFence key).dropMarker key).calls.get key = none := by
      simp [dropMarker, dropFence]
    rw [occurrences_insertSet noSet, bare]
    omega

theorem ownEntries_replaceSet :
    (inner.replaceSet key change entries leaseExpiresAtMs).ownEntries key = entries := by
  unfold replaceSet
  split
  · rename_i isEmpty
    have noSet : ((((inner.dropSet key).1.dropFence key).dropMarker key).fence key (.dropped change)
        leaseExpiresAtMs).calls.get key = none := by
      simp [fence, dropMarker, dropFence]
    rw [ownEntries_of_none noSet, List.isEmpty_iff.1 isEmpty]
  · simp [ownEntries, insertSet]

/-- A kept refusal moves no hold. -/
theorem counts_recordChange (inner : Inner) (key : String) (change : ℕ) (lapsesAtMs : ℤ) :
    (inner.recordChange key change lapsesAtMs).counts = inner.counts := by
  unfold recordChange
  split
  · rfl
  · split <;> rfl

/-- A kept refusal leaves every set but for the number of its own key's. -/
theorem calls_recordChange (inner : Inner) (key : String) (change : ℕ) (lapsesAtMs : ℤ) (other : String) :
    (inner.recordChange key change lapsesAtMs).calls.get other =
      if other = key then (inner.calls.get other).map fun set => { set with change } else inner.calls.get other := by
  unfold recordChange
  cases found : inner.calls.get key with
  | some set =>
    rw [KeyMap.get_insert]
    split
    · rename_i same
      rw [same, found, Option.map_some]
    · rfl
  | none =>
    have unmoved : inner.calls.get other =
        if other = key then (inner.calls.get other).map fun set => { set with change }
        else inner.calls.get other := by
      split
      · rename_i same
        rw [same, found]
        rfl
      · rfl
    dsimp only
    split <;> exact unmoved

/-! ### The sweep counts nothing up -/

theorem occurrences_sweepSet_le {next : Inner} (turned : sweepSet nowMs inner = some next) :
    next.occurrences id ≤ inner.occurrences id := by
  obtain ⟨deadline, key, -, -, cases⟩ := sweepSet_cases turned
  rcases cases with ⟨-, rfl⟩ | ⟨set, found, -, ⟨-, rfl⟩ | ⟨-, rfl⟩⟩
  · exact le_refl _
  · exact le_of_eq (occurrences_insert_of_entries found rfl)
  · exact (Nat.le_add_right _ _).trans_eq (occurrences_dropSet inner key id)

theorem occurrences_sweep_le (sound : inner.Sound) :
    (inner.sweep nowMs).occurrences id ≤ inner.occurrences id := by
  have start : SweepingSets nowMs inner inner ∧ inner.occurrences id ≤ inner.occurrences id :=
    ⟨⟨sound, fun _ => Or.inl rfl, rfl, rfl⟩, le_refl _⟩
  obtain ⟨⟨-, below⟩, -⟩ := loop_rule
    (fun _ _ (under : SweepingSets nowMs inner _ ∧ occurrences _ id ≤ inner.occurrences id) turned =>
      have turn := under.1.turn turned
      ⟨⟨turn.1, (occurrences_sweepSet_le turned).trans under.2⟩, turn.2⟩)
    start (Deadlines.dueCount_le_size inner.setDeadlines nowMs)
  exact below

/-! ### Admits -/

theorem ownEntries_carry {held : HeldSet} :
    (inner.carry key held leaseExpiresAtMs).ownEntries key =
      if inner.reregisters key held.entries then held.entries else inner.ownEntries key := by
  unfold carry
  split
  · simp [ownEntries, reregister, insertSet]
  · rfl

/-- An entry that refuses nothing and whose id the call raises is within its cap after the admission. -/
theorem Sound.count_replaceSet_le (sound : inner.Sound) (isAdmitted : inner.refused key entries = none)
    {entry : AdmitEntry} (member : entry ∈ entries)
    (raised : multiplicity (inner.ownEntries key) entry.id < multiplicity entries entry.id) :
    (inner.replaceSet key change entries leaseExpiresAtMs).count entry.id ≤ entry.limit := by
  have within := List.find?_eq_none.1 isAdmitted entry member
  simp only [Bool.and_eq_true, decide_eq_true_eq, not_and, not_lt] at within
  have le : inner.count entry.id - multiplicity (inner.ownEntries key) entry.id + multiplicity entries entry.id ≤
      entry.limit := within raised
  have exchanged := occurrences_replaceSet inner key change entries leaseExpiresAtMs entry.id
  have after : (inner.replaceSet key change entries leaseExpiresAtMs).Sound :=
    sound.writes (inner.replaceSet_writes key change entries)
  rw [sound.count_eq] at le
  rw [after.count_eq]
  omega

/-- An admission whose entries state one limit for an id leaves its count within that limit, or no higher. -/
theorem Sound.count_replaceSet_le_max (sound : inner.Sound) (isAdmitted : inner.refused key entries = none)
    {limit : ℤ}
    (stated : ∀ entry ∈ entries, entry.id = id → entry.limit = limit) (within : inner.count id ≤ max limit 0) :
    (inner.replaceSet key change entries leaseExpiresAtMs).count id ≤ max limit 0 := by
  by_cases raised : multiplicity (inner.ownEntries key) id < multiplicity entries id
  · obtain ⟨entry, member, isId⟩ := List.countP_pos_iff.1 (lt_of_le_of_lt (Nat.zero_le _) raised)
    have named : entry.id = id := of_decide_eq_true isId
    subst named
    have le : (inner.replaceSet key change entries leaseExpiresAtMs).count entry.id ≤ entry.limit :=
      sound.count_replaceSet_le isAdmitted member raised
    rw [stated entry member rfl] at le
    exact le.trans (le_max_left _ _)
  · have exchanged := occurrences_replaceSet inner key change entries leaseExpiresAtMs id
    have after : (inner.replaceSet key change entries leaseExpiresAtMs).Sound :=
      sound.writes (inner.replaceSet_writes key change entries)
    rw [sound.count_eq] at within
    rw [after.count_eq]
    omega

theorem Sound.count_refuse_le (sound : inner.Sound) (change : ℕ) (releaseOnRefusal : Bool) (lapsesAtMs : ℤ)
    (id : String) (notReleased : inner.releaseFenced key = false) :
    (inner.refuse key change releaseOnRefusal lapsesAtMs).count id ≤ inner.count id := by
  cases releaseOnRefusal with
  | true =>
    have dropped := occurrences_dropSet inner key id
    have after : (inner.refuse key change true lapsesAtMs).Sound :=
      sound.writes (inner.refuse_writes key change true notReleased)
    rw [after.count_eq, sound.count_eq]
    have same : (inner.refuse key change true lapsesAtMs).occurrences id = (inner.dropSet key).1.occurrences id := rfl
    omega
  | false =>
    refine le_of_eq ?_
    simp only [count, Inner.refuse, Bool.false_eq_true, if_false, counts_recordChange]

/-! ### Releases and refreshes -/

theorem Sound.count_release_le (sound : inner.Sound) :
    (inner.release fencedUntilMs key).count id ≤ inner.count id := by
  have dropped := occurrences_dropSet inner key id
  have after : (inner.release fencedUntilMs key).Sound := sound.writes (inner.release_writes key)
  have below : (inner.release fencedUntilMs key).occurrences id ≤ inner.occurrences id := by
    unfold Inner.release
    dsimp only
    split
    · exact le_refl _
    have same : (((({ inner with releasesTotal := inner.releasesTotal + 1 } : Inner).dropSet key).1.dropMarker
        key).fence key .released fencedUntilMs).occurrences id = (inner.dropSet key).1.occurrences id := by
      unfold Inner.dropSet
      cases inner.calls.get key <;> rfl
    omega
  rw [after.count_eq, sound.count_eq]
  exact_mod_cast below

theorem Sound.count_releaseEach_le (sound : inner.Sound) {keys : List String} :
    (keys.foldl (Inner.release fencedUntilMs) inner).count id ≤ inner.count id := by
  induction keys generalizing inner with
  | nil => exact le_refl _
  | cons key keys ih =>
    exact (ih (sound.writes (inner.release_writes key))).trans (sound.count_release_le)

/-- A refresh that re-creates nothing moves no count. -/
theorem counts_refresh (kept : (inner.refresh key change entries leaseExpiresAtMs).2.result ≠ .reregistered) :
    (inner.refresh key change entries leaseExpiresAtMs).1.counts = inner.counts := by
  unfold refresh at kept ⊢
  cases found : inner.calls.get key with
  | some set => rfl
  | none =>
    simp only [found] at kept ⊢
    split
    · rename_i lost
      rw [if_pos lost] at kept
      exact absurd rfl kept
    · split <;> rfl

theorem counts_refreshEach {calls : List (String × ℕ × List AdmitEntry)}
    (kept : ∀ refreshed ∈ (refreshEach leaseExpiresAtMs inner calls).2, refreshed.result ≠ .reregistered) :
    (refreshEach leaseExpiresAtMs inner calls).1.counts = inner.counts := by
  induction calls generalizing inner with
  | nil => rfl
  | cons call calls ih =>
    obtain ⟨key, change, entries⟩ := call
    have first := counts_refresh (kept _ List.mem_cons_self)
    have rest := ih fun refreshed member => kept refreshed (List.mem_cons_of_mem _ member)
    exact rest.trans first

end Inner

/-! ### Whole runs -/

namespace CallStore

/-- No set is re-created without a cap check: no refresh, and no held set an admit carries past the test of
    its number, meets a key the store knows nothing of. -/
def RecreatesNone (store : CallStore) (request : Request) : Prop :=
  let swept := store.inner.sweep request.nowMs
  match request.operation with
  | .admitCarrying key change held _ _ =>
    swept.reregisters key held.entries = true → (swept.knownChange key).any (fun known => change ≤ known) = true
  | .refreshAll calls => ∀ refreshed ∈ (store.refreshAll request.nowMs calls).2, refreshed.result ≠ .reregistered
  | _ => True

/-- Every entry an admit names an id with states one limit for it. -/
def Request.StatesLimit (id : String) (limit : ℤ) (request : Request) : Prop :=
  ∀ key change held entries releaseOnRefusal,
    request.operation = .admitCarrying key change held entries releaseOnRefusal →
      ∀ entry ∈ entries, entry.id = id → entry.limit = limit

/-- The set an admit is checked against: what the sweep leaves the key, or the carried set it re-creates. -/
def checkedEntries (store : CallStore) (nowMs : ℤ) (key : String) (held : HeldSet) : List AdmitEntry :=
  let swept := store.inner.sweep nowMs
  if swept.reregisters key held.entries then held.entries else swept.ownEntries key

/-- An admission leaves every id it raised above the checked set within every limit it stated. -/
def AdmitsWithinCaps (store : CallStore) (request : Request) : Prop :=
  ∀ key change held entries releaseOnRefusal,
    request.operation = .admitCarrying key change held entries releaseOnRefusal →
    (store.admitCarrying request.nowMs key change held entries releaseOnRefusal).2 = .admitted →
      ∀ entry ∈ entries,
        Inner.multiplicity (store.checkedEntries request.nowMs key held) entry.id <
          Inner.multiplicity ((store.serve request).inner.ownEntries key) entry.id →
        (store.serve request).inner.count entry.id ≤ entry.limit

/-- A kept refusal leaves the counts and the sets as the sweep left them, with the carried set if it is
    re-created; the set of its key takes its number. -/
def RefusesInPlace (store : CallStore) (request : Request) : Prop :=
  ∀ key change held entries limiterId heldSet,
    request.operation = .admitCarrying key change held entries false →
    (store.admitCarrying request.nowMs key change held entries false).2 = .rejected limiterId heldSet →
      let carried := (store.inner.sweep request.nowMs).carry key held (store.leaseEnd request.nowMs)
      (store.serve request).inner.counts = carried.counts ∧
        ∀ other, (store.serve request).inner.calls.get other =
          if other = key then (carried.calls.get other).map fun set => { set with change }
          else carried.calls.get other

theorem carry_eq_of_recreatesNone {key : String} {held : HeldSet} {releaseOnRefusal : Bool}
    (recreates : RecreatesNone store ⟨nowMs, .admitCarrying key change held entries releaseOnRefusal⟩)
    (newer : ((store.inner.sweep nowMs).knownChange key).any (fun known => change ≤ known) = false) :
    (store.inner.sweep nowMs).carry key held (store.leaseEnd nowMs) = store.inner.sweep nowMs := by
  unfold Inner.carry
  rw [if_neg]
  intro lost
  have late := recreates lost
  rw [newer] at late
  cases late

/-- A request that re-creates nothing and states one limit for an id keeps the id within it. -/
theorem serve_count_le (sound : store.inner.Sound) {limit : ℤ}
    (recreates : RecreatesNone store request) (stated : request.StatesLimit id limit)
    (within : store.inner.count id ≤ max limit 0) : (store.serve request).inner.count id ≤ max limit 0 := by
  have swept := Inner.sweep_sound sound request.nowMs
  have sweptWithin : (store.inner.sweep request.nowMs).count id ≤ max limit 0 := by
    refine le_trans ?_ within
    rw [swept.count_eq, sound.count_eq]
    exact_mod_cast Inner.occurrences_sweep_le sound
  obtain ⟨nowMs, operation⟩ := request
  cases operation with
  | admitCarrying key change held entries releaseOnRefusal =>
    simp only [serve, admitCarrying]
    rcases Inner.admitSet_cases (store.inner.sweep nowMs) key change held entries releaseOnRefusal
        (store.leaseEnd nowMs) with
      ⟨-, answer⟩ | ⟨-, -, answer⟩ | ⟨notReleased, newer, ⟨entry, -, answer⟩ | ⟨isAdmitted, answer⟩⟩
    · rw [answer]
      exact sweptWithin
    · rw [answer]
      exact sweptWithin
    · rw [answer, carry_eq_of_recreatesNone recreates newer]
      exact (swept.count_refuse_le change releaseOnRefusal _ id notReleased).trans sweptWithin
    · rw [carry_eq_of_recreatesNone recreates newer] at answer isAdmitted
      rw [answer]
      exact swept.count_replaceSet_le_max isAdmitted (stated key change held entries releaseOnRefusal rfl) sweptWithin
  | release keys => exact (swept.count_releaseEach_le).trans sweptWithin
  | refreshAll calls =>
    have kept := Inner.counts_refreshEach recreates
    simp only [serve, refreshAll, Inner.count, kept]
    exact sweptWithin
  | sweepNow | heldSet | held | calls => exact sweptWithin

theorem admitsWithinCaps (sound : store.inner.Sound) : AdmitsWithinCaps store request := by
  rintro key change held entries releaseOnRefusal isAdmit answered entry member raised
  obtain ⟨nowMs, operation⟩ := request
  obtain rfl : operation = _ := isAdmit
  have swept := Inner.sweep_sound sound nowMs
  have carried : ((store.inner.sweep nowMs).carry key held (store.leaseEnd nowMs)).Sound :=
    swept.writes (Inner.carry_writes ..)
  simp only [serve, admitCarrying] at answered raised ⊢
  rcases Inner.admitSet_cases (store.inner.sweep nowMs) key change held entries releaseOnRefusal
      (store.leaseEnd nowMs) with
    ⟨-, answer⟩ | ⟨-, -, answer⟩ | ⟨-, -, ⟨refused, -, answer⟩ | ⟨isAdmitted, answer⟩⟩
  · rw [answer] at answered
    cases answered
  · rw [answer] at answered
    cases answered
  · rw [answer] at answered
    cases answered
  · rw [answer] at raised ⊢
    rw [Inner.ownEntries_replaceSet, checkedEntries, ← Inner.ownEntries_carry] at raised
    exact carried.count_replaceSet_le isAdmitted member raised

theorem refusesInPlace : RefusesInPlace store request := by
  rintro key change held entries limiterId heldSet isAdmit answered carried
  obtain ⟨nowMs, operation⟩ := request
  obtain rfl : operation = _ := isAdmit
  simp only [serve, admitCarrying] at answered ⊢
  rcases Inner.admitSet_cases (store.inner.sweep nowMs) key change held entries false
      (store.leaseEnd nowMs) with
    ⟨-, answer⟩ | ⟨-, -, answer⟩ | ⟨-, -, ⟨refused, -, answer⟩ | ⟨-, answer⟩⟩
  · rw [answer] at answered
    cases answered
  · rw [answer] at answered
    cases answered
  · rw [answer]
    exact ⟨Inner.counts_recordChange carried key change _, Inner.calls_recordChange carried key change _⟩
  · rw [answer] at answered
    cases answered

/-- The caps hold: an id that every admit gives one limit never counts above it while no set is re-created,
    and in every run each admission is within the caps it raised ids under and each kept refusal changes
    nothing but a number. -/
theorem caps_hold (cfg : LimiterConfig) (requests : List Request) :
    (∀ id limit, (∀ request ∈ requests, request.StatesLimit id limit) →
        AllSteps step RecreatesNone (new cfg) requests →
        ∀ store, run step (new cfg) requests = some store → store.inner.count id ≤ max limit 0) ∧
      AllSteps step (fun store request => AdmitsWithinCaps store request ∧ RefusesInPlace store request)
        (new cfg) requests := by
  constructor
  · intro id limit stated recreates store ran
    have start : (new cfg).inner.Sound ∧ (new cfg).inner.count id ≤ max limit 0 :=
      ⟨Inner.Sound.new, le_max_right limit 0⟩
    generalize new cfg = first at start recreates ran
    induction requests generalizing first with
    | nil =>
      cases ran
      exact start.2
    | cons request requests ih =>
      obtain ⟨next, stepped, ran⟩ := run_cons.1 ran
      cases stepped
      have within := serve_count_le start.1 recreates.1 (stated request List.mem_cons_self) start.2
      exact ih (fun later member => stated later (List.mem_cons_of_mem _ member)) _
        ⟨serve_sound start.1 request, within⟩ (recreates.2 _ rfl) ran
  · refine allSteps_of_invariant (fun store => store.inner.Sound) ?_ ?_
      (allSteps_of_mem (fun _ _ _ => trivial) (new cfg)) Inner.Sound.new
    · intro store request next sound _ stepped
      cases stepped
      exact serve_sound sound request
    · intro store request sound _
      exact ⟨admitsWithinCaps sound, refusesInPlace⟩

/-- Two calls want the one slot of a trunk. -/
def oneSlot : List Request :=
  [⟨1000, .admitCarrying "first" 1 default [⟨"trunk", 1⟩] false⟩,
    ⟨1001, .admitCarrying "second" 1 default [⟨"trunk", 1⟩] false⟩]

/-- The trunk stays at its cap. -/
theorem caps_hold_one_slot :
    ∃ store, run step (new oneSecond) oneSlot = some store ∧ store.inner.count "trunk" = 1 ∧
      store.inner.count "trunk" ≤ max 1 0 := by
  refine ⟨_, rfl, by decide, ?_⟩
  refine (caps_hold oneSecond oneSlot).1 "trunk" 1 ?_ ?_ _ rfl
  · intro request member key change held entries releaseOnRefusal isAdmit entry inEntries _
    simp only [oneSlot, List.mem_cons, List.not_mem_nil, or_false] at member
    rcases member with rfl | rfl <;> cases isAdmit <;> obtain rfl := List.mem_singleton.1 inEntries <;> rfl
  · simp only [oneSlot, allSteps_cons]
    exact ⟨fun lost => absurd lost (by decide), fun lost => absurd lost (by decide), trivial⟩

/-- An admit of a key the store knows nothing of, which carries the set it asks for. -/
def carriesItsSet : Request :=
  ⟨1000, .admitCarrying "call" 1 ⟨0, [⟨"trunk", 1⟩, ⟨"trunk", 1⟩]⟩ [⟨"trunk", 1⟩, ⟨"trunk", 1⟩] false⟩

/-- The call held nothing of the trunk, is admitted with two slots of it, and the trunk counts above its
    limit. -/
theorem carried_set_admitted_above_cap :
    Inner.multiplicity ((new oneSecond).inner.ownEntries "call") "trunk" = 0 ∧
      ((new oneSecond).admitCarrying 1000 "call" 1 ⟨0, [⟨"trunk", 1⟩, ⟨"trunk", 1⟩]⟩
        [⟨"trunk", 1⟩, ⟨"trunk", 1⟩] false).2 = .admitted ∧
      Inner.multiplicity (((new oneSecond).serve carriesItsSet).inner.ownEntries "call") "trunk" = 2 ∧
      ¬ ((new oneSecond).serve carriesItsSet).inner.count "trunk" ≤ 1 := by
  decide

end CallStore

end SipServer.Limiter
