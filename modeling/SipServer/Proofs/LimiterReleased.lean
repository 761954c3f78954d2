/-
Module: SipServer.Proofs.LimiterReleased
Purpose: A released call holds nothing for one lease: no request gives its key a set or a count, and the
  store answers every other key as a store would that has no trace of the key.
-/
import SipServer.Proofs.LimiterCaps

namespace SipServer.Limiter

open SipServer.Lib

variable {nowMs : ℤ}

namespace Inner

variable {inner bare : Inner} {key other : String}

/-! ### Two stores that differ at one key

The stores are compared after a sweep at one instant; what happened to the key in either is left open, as
long as neither holds a set for it.
-/

/-- The three tables agree on a key. -/
structure SameAt (key : String) (inner bare : Inner) : Prop where
  calls : bare.calls.get key = inner.calls.get key
  fences : bare.fences.get key = inner.fences.get key
  markers : bare.markers.get key = inner.markers.get key

/-- Two sound states that differ at most at one key, for which neither holds a set. -/
structure Alike (key : String) (inner bare : Inner) : Prop where
  same : SameExcept key inner bare
  noSet : inner.calls.get key = none
  bareNoSet : bare.calls.get key = none
  sound : inner.Sound
  bareSound : bare.Sound

namespace Alike

section

variable (alike : Alike key inner bare)

include alike

theorem sameAt (ne : other ≠ key) : SameAt other inner bare :=
  ⟨alike.same.calls other ne, alike.same.fences other ne, alike.same.markers other ne⟩

theorem calls (other : String) : bare.calls.get other = inner.calls.get other := by
  by_cases same : other = key
  · rw [same, alike.noSet, alike.bareNoSet]
  · exact alike.same.calls other same

theorem counts (id : String) : bare.counts.get id = inner.counts.get id := by
  have occurrences : bare.occurrences id = inner.occurrences id := KeyMap.total_congr alike.calls _
  rw [alike.bareSound.counted id, alike.sound.counted id, occurrences]

/-- An operation on another key that leaves its tables equal leaves the states alike. -/
theorem moved {after bareAfter : Inner} (ne : other ≠ key)
    (moved : SameExcept other inner after) (bareMoved : SameExcept other bare bareAfter)
    (sound : after.Sound) (bareSound : bareAfter.Sound) (sameAt : SameAt other after bareAfter) :
    Alike key after bareAfter where
  same := by
    constructor <;> intro third thirdNe <;> by_cases isOther : third = other
    · rw [isOther, sameAt.calls]
    · rw [bareMoved.calls third isOther, moved.calls third isOther, alike.same.calls third thirdNe]
    · rw [isOther, sameAt.fences]
    · rw [bareMoved.fences third isOther, moved.fences third isOther, alike.same.fences third thirdNe]
    · rw [isOther, sameAt.markers]
    · rw [bareMoved.markers third isOther, moved.markers third isOther, alike.same.markers third thirdNe]
  noSet := by rw [moved.calls key ne.symm, alike.noSet]
  bareNoSet := by rw [bareMoved.calls key ne.symm, alike.bareNoSet]
  sound := sound
  bareSound := bareSound

theorem wrote {after bareAfter : Inner} {leaseEnd : ℤ} (ne : other ≠ key) (writes : Writes other leaseEnd inner after)
    (bareWrites : Writes other leaseEnd bare bareAfter) (sameAt : SameAt other after bareAfter) :
    Alike key after bareAfter :=
  alike.moved ne (.writes writes) (.writes bareWrites) (alike.sound.writes writes)
    (alike.bareSound.writes bareWrites) sameAt

end

end Alike

/-! ### What a key's tables decide -/

namespace SameAt

variable (sameAt : SameAt key inner bare)

include sameAt

theorem releaseFenced : bare.releaseFenced key = inner.releaseFenced key := by
  simp only [Inner.releaseFenced, sameAt.fences]

theorem knownChange : bare.knownChange key = inner.knownChange key := by
  simp only [Inner.knownChange, sameAt.calls, sameAt.fences, sameAt.markers]

theorem ownEntries : bare.ownEntries key = inner.ownEntries key := by
  simp only [Inner.ownEntries, sameAt.calls]

theorem heldSet : bare.heldSet key = inner.heldSet key := by
  simp only [Inner.heldSet, sameAt.knownChange, sameAt.ownEntries]

theorem reregisters (entries : List AdmitEntry) : bare.reregisters key entries = inner.reregisters key entries := by
  simp only [Inner.reregisters, sameAt.calls, sameAt.fences]

theorem dropSet : SameAt key (inner.dropSet key).1 (bare.dropSet key).1 where
  calls := by simp
  fences := by simp [sameAt.fences]
  markers := by simp [sameAt.markers]

theorem dropMarker : SameAt key (inner.dropMarker key) (bare.dropMarker key) where
  calls := sameAt.calls
  fences := sameAt.fences
  markers := by simp [Inner.dropMarker]

theorem dropFence : SameAt key (inner.dropFence key) (bare.dropFence key) where
  calls := sameAt.calls
  fences := by simp [Inner.dropFence]
  markers := sameAt.markers

theorem fence (why : Fence) (lapsesAtMs : ℤ) :
    SameAt key (inner.fence key why lapsesAtMs) (bare.fence key why lapsesAtMs) where
  calls := sameAt.calls
  fences := by simp [Inner.fence]
  markers := sameAt.markers

theorem insertSet (entries : List AdmitEntry) (change : ℕ) (leaseExpiresAtMs : ℤ) :
    SameAt key (inner.insertSet key entries change leaseExpiresAtMs)
      (bare.insertSet key entries change leaseExpiresAtMs) where
  calls := by simp [Inner.insertSet]
  fences := sameAt.fences
  markers := sameAt.markers

theorem recordChange (change : ℕ) (lapsesAtMs : ℤ) :
    SameAt key (inner.recordChange key change lapsesAtMs) (bare.recordChange key change lapsesAtMs) := by
  obtain ⟨calls, fences, markers⟩ := sameAt
  unfold Inner.recordChange
  rw [calls, fences]
  split
  · exact ⟨by simp, fences, markers⟩
  split
  · exact ⟨calls, by simp, markers⟩
  · exact ⟨calls, fences, by simp⟩

variable (change : ℕ) (entries : List AdmitEntry) (leaseExpiresAtMs : ℤ)

theorem reregister :
    SameAt key (inner.reregister key change entries leaseExpiresAtMs)
      (bare.reregister key change entries leaseExpiresAtMs) := by
  unfold Inner.reregister
  rw [sameAt.markers]
  exact sameAt.dropMarker.insertSet _ _ _

theorem carry (held : HeldSet) (leaseExpiresAtMs : ℤ) :
    SameAt key (inner.carry key held leaseExpiresAtMs) (bare.carry key held leaseExpiresAtMs) := by
  unfold Inner.carry
  rw [sameAt.reregisters]
  split
  · obtain ⟨calls, fences, markers⟩ := sameAt.reregister held.change held.entries leaseExpiresAtMs
    exact ⟨calls, fences, markers⟩
  · exact sameAt

theorem refuse (change : ℕ) (releaseOnRefusal : Bool) (lapsesAtMs : ℤ) :
    SameAt key (inner.refuse key change releaseOnRefusal lapsesAtMs)
      (bare.refuse key change releaseOnRefusal lapsesAtMs) := by
  unfold Inner.refuse
  split
  · exact sameAt.dropSet.dropMarker.fence _ _
  · exact sameAt.recordChange _ _

theorem replaceSet :
    SameAt key (inner.replaceSet key change entries leaseExpiresAtMs)
      (bare.replaceSet key change entries leaseExpiresAtMs) := by
  unfold Inner.replaceSet
  split
  · exact sameAt.dropSet.dropFence.dropMarker.fence _ _
  · exact sameAt.dropSet.dropFence.dropMarker.insertSet _ _ _

theorem release (fencedUntilMs : ℤ) :
    SameAt key (inner.release fencedUntilMs key) (bare.release fencedUntilMs key) := by
  have counted : SameAt key { inner with releasesTotal := inner.releasesTotal + 1 }
      { bare with releasesTotal := bare.releasesTotal + 1 } := ⟨sameAt.calls, sameAt.fences, sameAt.markers⟩
  unfold Inner.release
  dsimp only
  rw [counted.releaseFenced]
  split
  · exact counted
  · exact counted.dropSet.dropMarker.fence _ _

theorem refresh :
    SameAt key (inner.refresh key change entries leaseExpiresAtMs).1
        (bare.refresh key change entries leaseExpiresAtMs).1 ∧
      (bare.refresh key change entries leaseExpiresAtMs).2 =
        (inner.refresh key change entries leaseExpiresAtMs).2 := by
  obtain ⟨calls, fences, markers⟩ := sameAt
  unfold Inner.refresh
  rw [calls]
  split
  · rename_i set found
    have extended : SameAt key { inner with calls := inner.calls.insert key { set with leaseExpiresAtMs } }
        { bare with calls := bare.calls.insert key { set with leaseExpiresAtMs } } := ⟨by simp, fences, markers⟩
    exact ⟨extended, congrArg (fun held => Refreshed.mk .extended (some held)) extended.heldSet⟩
  rw [reregisters ⟨calls, fences, markers⟩]
  split
  · have again := reregister ⟨calls, fences, markers⟩ change entries leaseExpiresAtMs
    have counted : SameAt key
        { inner.reregister key change entries leaseExpiresAtMs with
          reregisteredCalls := (inner.reregister key change entries leaseExpiresAtMs).reregisteredCalls + 1 }
        { bare.reregister key change entries leaseExpiresAtMs with
          reregisteredCalls := (bare.reregister key change entries leaseExpiresAtMs).reregisteredCalls + 1 } :=
      ⟨again.calls, again.fences, again.markers⟩
    exact ⟨counted, congrArg (fun held => Refreshed.mk .reregistered (some held)) counted.heldSet⟩
  · rw [fences]
    split
    · refine ⟨⟨calls, fences, markers⟩, ?_⟩
      exact congrArg (fun held => Refreshed.mk .dropped (some held)) (heldSet ⟨calls, fences, markers⟩)
    · exact ⟨⟨calls, fences, markers⟩, rfl⟩

end SameAt

/-! ### Requests for another key -/

namespace Alike

variable (alike : Alike key inner bare) (ne : other ≠ key)

include alike ne

theorem refused (entries : List AdmitEntry) : bare.refused other entries = inner.refused other entries := by
  simp only [Inner.refused, (alike.sameAt ne).ownEntries, alike.counts]

theorem carry (held : HeldSet) (leaseExpiresAtMs : ℤ) :
    Alike key (inner.carry other held leaseExpiresAtMs) (bare.carry other held leaseExpiresAtMs) :=
  alike.wrote ne (carry_writes ..) (carry_writes ..) ((alike.sameAt ne).carry held leaseExpiresAtMs)

/-- An admit of another key answers the same and leaves the states alike. -/
theorem admitSet (change : ℕ) (held : HeldSet) (entries : List AdmitEntry) (releaseOnRefusal : Bool)
    (leaseExpiresAtMs : ℤ) :
    Alike key (inner.admitSet other change held entries releaseOnRefusal leaseExpiresAtMs).1
        (bare.admitSet other change held entries releaseOnRefusal leaseExpiresAtMs).1 ∧
      (bare.admitSet other change held entries releaseOnRefusal leaseExpiresAtMs).2 =
        (inner.admitSet other change held entries releaseOnRefusal leaseExpiresAtMs).2 := by
  have sameAt := alike.sameAt ne
  have carried := (alike.carry ne held leaseExpiresAtMs).sameAt ne
  have outcome : SameAt other (inner.admitSet other change held entries releaseOnRefusal leaseExpiresAtMs).1
        (bare.admitSet other change held entries releaseOnRefusal leaseExpiresAtMs).1 ∧
      (bare.admitSet other change held entries releaseOnRefusal leaseExpiresAtMs).2 =
        (inner.admitSet other change held entries releaseOnRefusal leaseExpiresAtMs).2 := by
    unfold Inner.admitSet
    rw [sameAt.releaseFenced, sameAt.knownChange]
    split
    · exact ⟨⟨sameAt.calls, sameAt.fences, sameAt.markers⟩, rfl⟩
    split
    · exact ⟨sameAt, congrArg AdmitResult.superseded sameAt.heldSet⟩
    dsimp only
    rw [(alike.carry ne held leaseExpiresAtMs).refused ne]
    split
    · have refusal := carried.refuse change releaseOnRefusal leaseExpiresAtMs
      exact ⟨refusal, congrArg (AdmitResult.rejected _) refusal.heldSet⟩
    · exact ⟨carried.replaceSet change entries leaseExpiresAtMs, rfl⟩
  exact ⟨alike.wrote ne (admitSet_writes ..) (admitSet_writes ..) outcome.1, outcome.2⟩

theorem release (fencedUntilMs : ℤ) :
    Alike key (inner.release fencedUntilMs other) (bare.release fencedUntilMs other) :=
  alike.wrote ne (release_writes ..) (release_writes ..) ((alike.sameAt ne).release fencedUntilMs)

theorem refresh (change : ℕ) (entries : List AdmitEntry) (leaseExpiresAtMs : ℤ) :
    Alike key (inner.refresh other change entries leaseExpiresAtMs).1
      (bare.refresh other change entries leaseExpiresAtMs).1 :=
  alike.moved ne (.refresh inner other change entries leaseExpiresAtMs)
    (.refresh bare other change entries leaseExpiresAtMs)
    (alike.sound.refresh change entries leaseExpiresAtMs) (alike.bareSound.refresh change entries leaseExpiresAtMs)
    ((alike.sameAt ne).refresh change entries leaseExpiresAtMs).1

end Alike

/-! ### Sweeping again -/

theorem sweptSet_sweptSet {earlier later : ℤ} (le : earlier ≤ later) (before : Option CallSet) :
    sweptSet later (sweptSet earlier before) = sweptSet later before := by
  cases before with
  | none => rfl
  | some set =>
    by_cases waits : earlier < set.pendingDeadlineMs
    · have kept : sweptSet earlier (some set) = some set := by simp only [sweptSet, waits, if_true]
      rw [kept]
    have due : ¬ later < set.pendingDeadlineMs := by omega
    by_cases leased : earlier < set.leaseExpiresAtMs
    · by_cases runs : later < set.leaseExpiresAtMs <;> simp [sweptSet, waits, leased, due, runs]
    have lapsed : ¬ later < set.leaseExpiresAtMs := by omega
    simp [sweptSet, waits, leased, due, lapsed]

theorem sweptEntry_sweptEntry {Kind : Type} {earlier later : ℤ} (le : earlier ≤ later) (before : Option (Kind × ℤ)) :
    sweptEntry later (sweptEntry earlier before) = sweptEntry later before := by
  cases before with
  | none => rfl
  | some entry =>
    by_cases runs : earlier < entry.2
    · rw [sweptEntry_eq_some.2 ⟨rfl, runs⟩]
    have ended : ¬ later < entry.2 := by omega
    simp [sweptEntry, Option.filter, runs, ended]

/-- A sweep leaves what a later one finds. -/
theorem sameAt_resweep {earlier later : ℤ} (le : earlier ≤ later) (sound : inner.Sound) (other : String) :
    SameAt other ((inner.sweep earlier).sweep later) (inner.sweep later) := by
  have swept := sweep_sound sound earlier
  constructor
  · rw [sweep_calls swept, sweep_calls sound, sweep_calls sound, sweptSet_sweptSet le]
  · rw [sweep_fences swept, sweep_fences sound, sweep_fences sound, sweptEntry_sweptEntry le]
  · rw [sweep_markers swept, sweep_markers sound, sweep_markers sound, sweptEntry_sweptEntry le]

/-- Being alike is read off the tables. -/
theorem Alike.congr {after bareAfter : Inner} (alike : Alike key inner bare)
    (same : ∀ other, SameAt other inner after)
    (bareSame : ∀ other, SameAt other bare bareAfter) (sound : after.Sound) (bareSound : bareAfter.Sound) :
    Alike key after bareAfter where
  same := by
    constructor <;> intro other ne
    · rw [(bareSame other).calls, (same other).calls, alike.same.calls other ne]
    · rw [(bareSame other).fences, (same other).fences, alike.same.fences other ne]
    · rw [(bareSame other).markers, (same other).markers, alike.same.markers other ne]
  noSet := (same key).calls.trans alike.noSet
  bareNoSet := (bareSame key).calls.trans alike.bareNoSet
  sound := sound
  bareSound := bareSound

/-- States that are alike stay so when both are swept. -/
theorem Alike.sweep (alike : Alike key inner bare) (nowMs : ℤ) :
    Alike key (inner.sweep nowMs) (bare.sweep nowMs) where
  same := by
    constructor <;> intro other ne
    · rw [sweep_calls alike.sound, sweep_calls alike.bareSound, alike.same.calls other ne]
    · rw [sweep_fences alike.sound, sweep_fences alike.bareSound, alike.same.fences other ne]
    · rw [sweep_markers alike.sound, sweep_markers alike.bareSound, alike.same.markers other ne]
  noSet := by rw [sweep_calls alike.sound, alike.noSet]; rfl
  bareNoSet := by rw [sweep_calls alike.bareSound, alike.bareNoSet]; rfl
  sound := sweep_sound alike.sound nowMs
  bareSound := sweep_sound alike.bareSound nowMs

/-- States that are alike after a sweep are alike after a later one. -/
theorem Alike.resweep {earlier later : ℤ} (le : earlier ≤ later) (sound : inner.Sound) (bareSound : bare.Sound)
    (alike : Alike key (inner.sweep earlier) (bare.sweep earlier)) :
    Alike key (inner.sweep later) (bare.sweep later) :=
  (alike.sweep later).congr (sameAt_resweep le sound) (sameAt_resweep le bareSound) (sweep_sound sound later)
    (sweep_sound bareSound later)

/-- A second sweep at the same instant changes no table. -/
theorem Alike.unsweep (bareSound : bare.Sound) (alike : Alike key inner ((bare.sweep nowMs).sweep nowMs)) :
    Alike key inner (bare.sweep nowMs) :=
  alike.congr (fun _ => ⟨rfl, rfl, rfl⟩) (sameAt_resweep (le_refl nowMs) bareSound) alike.sound
    (sweep_sound bareSound nowMs)

/-! ### A key that is released -/

/-- The key is fenced as released until an instant. -/
def ReleasedUntil (key : String) (untilMs : ℤ) (inner : Inner) : Prop :=
  inner.fences.get key = some (.released, untilMs)

namespace ReleasedUntil

variable {untilMs : ℤ} (released : inner.ReleasedUntil key untilMs)

include released

theorem releaseFenced : inner.releaseFenced key = true := by
  have found : inner.fences.get key = some (.released, untilMs) := released
  simp only [Inner.releaseFenced, found, Option.any_some, decide_true]

theorem noSet (sound : inner.Sound) : inner.calls.get key = none :=
  sound.exclusive.noSet_of_fence released

theorem sweep (sound : inner.Sound) (before : nowMs < untilMs) :
    (inner.sweep nowMs).ReleasedUntil key untilMs :=
  (sound.sweepKeeps nowMs).fence key _ released before

/-- An admit of the key is refused and changes no table. -/
theorem admitSet (change : ℕ) (held : HeldSet) (entries : List AdmitEntry) (releaseOnRefusal : Bool)
    (leaseExpiresAtMs : ℤ) :
    inner.admitSet key change held entries releaseOnRefusal leaseExpiresAtMs =
      ({ inner with admitsRefusedReleased := inner.admitsRefusedReleased + 1 }, .released) := by
  simp only [Inner.admitSet, released.releaseFenced, if_true]

theorem release (fencedUntilMs : ℤ) :
    inner.release fencedUntilMs key = { inner with releasesTotal := inner.releasesTotal + 1 } := by
  have fenced : ({ inner with releasesTotal := inner.releasesTotal + 1 } : Inner).releaseFenced key = true :=
    released.releaseFenced
  simp only [Inner.release, fenced, if_true]

/-- A refresh of the key answers that it is released and changes nothing. -/
theorem refresh (sound : inner.Sound) (change : ℕ) (entries : List AdmitEntry) (leaseExpiresAtMs : ℤ) :
    inner.refresh key change entries leaseExpiresAtMs = (inner, ⟨.released, none⟩) := by
  have found : inner.fences.get key = some (.released, untilMs) := released
  have shut : inner.reregisters key entries = false := by
    simp only [reregisters, found, Option.isNone_some, Bool.and_false]
  simp only [Inner.refresh, released.noSet sound, shut, found, Bool.false_eq_true, if_false]

theorem of_sameExcept {after : Inner} (same : SameExcept other inner after) (ne : other ≠ key) :
    after.ReleasedUntil key untilMs :=
  (same.fences key ne.symm).trans released

end ReleasedUntil

/-- Releasing many keys keeps a key released. -/
theorem ReleasedUntil.releaseEach {untilMs : ℤ} (released : inner.ReleasedUntil key untilMs) (fencedUntilMs : ℤ)
    (keys : List String) : (keys.foldl (Inner.release fencedUntilMs) inner).ReleasedUntil key untilMs := by
  induction keys generalizing inner with
  | nil => exact released
  | cons next keys ih =>
    refine ih ?_
    by_cases same : next = key
    · rw [same, released.release]
      exact released
    · exact released.of_sameExcept (.writes (inner.release_writes next)) same

/-- A release of a key that is not released fences it. -/
theorem releasedUntil_releaseEach {keys : List String} (member : key ∈ keys)
    (notReleased : inner.releaseFenced key = false) {fencedUntilMs : ℤ} :
    (keys.foldl (Inner.release fencedUntilMs) inner).ReleasedUntil key fencedUntilMs := by
  induction keys generalizing inner with
  | nil => cases member
  | cons next keys ih =>
    by_cases same : next = key
    · refine ReleasedUntil.releaseEach ?_ fencedUntilMs keys
      have unfenced : ({ inner with releasesTotal := inner.releasesTotal + 1 } : Inner).releaseFenced key = false :=
        notReleased
      rw [same]
      simp [ReleasedUntil, release, unfenced, fence]
    · have later : key ∈ keys := (List.mem_cons.1 member).resolve_left (Ne.symm same)
      refine ih later ?_
      simp only [releaseFenced, (SameExcept.writes (inner.release_writes next)).fences key (Ne.symm same)]
      exact notReleased

end Inner

/-! ### What the store answers -/

namespace CallStore

/-- What a request answers about one key, one id or the store. A release answers nothing, and how many sets a
    sweep finds lapsed is not about a key. -/
inductive Reply where
  | admission (key : String) (result : AdmitResult)
  | refresh (key : String) (refreshed : Refreshed)
  | heldSet (key : String) (held : Option HeldSet)
  | held (id : String) (count : ℤ)
  | calls (number : ℕ)
deriving Repr, DecidableEq

def Reply.about (key : String) : Reply → Bool
  | .admission of _ => of = key
  | .refresh of _ => of = key
  | .heldSet of _ => of = key
  | .held _ _ => false
  | .calls _ => false

def refreshReplies (calls : List (String × ℕ × List AdmitEntry)) (refreshed : List Refreshed) : List Reply :=
  calls.zipWith (fun call refreshed => .refresh call.1 refreshed) refreshed

/-- What the store answers a request. -/
def replies (store : CallStore) (request : Request) : List Reply :=
  match request.operation with
  | .admitCarrying key change held entries releaseOnRefusal =>
    [.admission key (store.admitCarrying request.nowMs key change held entries releaseOnRefusal).2]
  | .release _ => []
  | .refreshAll calls => refreshReplies calls (store.refreshAll request.nowMs calls).2
  | .sweepNow => []
  | .heldSet key => [.heldSet key (store.heldSet request.nowMs key).2]
  | .held id => [.held id (store.held request.nowMs id).2]
  | .calls => [.calls (store.calls request.nowMs).2]

/-- What the store answers a run of requests. -/
def transcript : CallStore → List Request → List Reply
  | _, [] => []
  | store, request :: requests => store.replies request ++ transcript (store.serve request) requests

/-- The request without its operations on a key; none if it has no other. -/
def Request.without (key : String) (request : Request) : Option Request :=
  match request.operation with
  | .admitCarrying admitted _ _ _ _ => if admitted = key then none else some request
  | .release keys => some { request with operation := .release (keys.filter fun other => other ≠ key) }
  | .refreshAll calls => some { request with operation := .refreshAll (calls.filter fun call => call.1 ≠ key) }
  | .heldSet asked => if asked = key then none else some request
  | _ => some request

/-- While a key is released: the store holds no set for it, every admit and refresh of it and every question
    for its set is answered as released, and what a request does to the counts, it does without its
    operations on the key. -/
structure HoldsNothing (key : String) (store : CallStore) (request : Request) : Prop where
  noSet : (store.serve request).inner.calls.get key = none
  answered : ∀ reply ∈ store.replies request, reply.about key = true →
    reply = .admission key .released ∨ reply = .refresh key ⟨.released, none⟩ ∨ reply = .heldSet key none
  counts : ∀ id, (store.serve request).inner.counts.get id =
    match request.without key with
    | some others => (store.serve others).inner.counts.get id
    | none => (store.inner.sweep request.nowMs).counts.get id

/-- A store without a trace of a key, which agrees with another on every other key. -/
structure Unused (key : String) (store bare : CallStore) : Prop where
  cfg : bare.cfg = store.cfg
  sound : bare.inner.Sound
  noSet : bare.inner.calls.get key = none
  noFence : bare.inner.fences.get key = none
  noMarker : bare.inner.markers.get key = none
  others : Inner.SameExcept key store.inner bare.inner

/-- The store with the key taken out of every table. -/
def forget (store : CallStore) (key : String) : CallStore :=
  { store with inner := ((store.inner.dropSet key).1.dropFence key).dropMarker key }

theorem forget_writes (store : CallStore) (key : String) :
    Inner.Writes key 0 store.inner (store.forget key).inner :=
  .head (.dropSet _) (.head (.dropFence _) (.single (.dropMarker _)))

/-- There is such a store beside every sound one. -/
theorem unused_forget {store : CallStore} (sound : store.inner.Sound) (key : String) :
    Unused key store (store.forget key) where
  cfg := rfl
  sound := sound.writes (forget_writes store key)
  noSet := by simp [forget, Inner.dropMarker, Inner.dropFence]
  noFence := by simp [forget, Inner.dropMarker, Inner.dropFence]
  noMarker := by simp [forget, Inner.dropMarker]
  others := .writes (forget_writes store key)

end CallStore

namespace Inner

variable {inner bare : Inner} {key : String} {untilMs : ℤ}

/-- An operation on the key itself that gives it no set. -/
theorem Alike.own {after : Inner} {leaseEnd : ℤ} (alike : Alike key inner bare)
    (writes : Writes key leaseEnd inner after)
    (noSet : after.calls.get key = none) : Alike key after bare where
  same :=
    have moved := SameExcept.writes writes
    { calls := fun other ne => (alike.same.calls other ne).trans (moved.calls other ne).symm
      fences := fun other ne => (alike.same.fences other ne).trans (moved.fences other ne).symm
      markers := fun other ne => (alike.same.markers other ne).trans (moved.markers other ne).symm }
  noSet := noSet
  bareNoSet := alike.bareNoSet
  sound := alike.sound.writes writes
  bareSound := alike.bareSound

/-- Releasing keys, among them a released one, and releasing the others. -/
theorem Alike.releaseEach (alike : Alike key inner bare) (released : inner.ReleasedUntil key untilMs)
    (fencedUntilMs : ℤ) (keys : List String) :
    Alike key (keys.foldl (Inner.release fencedUntilMs) inner)
      ((keys.filter fun other => other ≠ key).foldl (Inner.release fencedUntilMs) bare) := by
  induction keys generalizing inner bare with
  | nil => exact alike
  | cons next keys ih =>
    by_cases same : next = key
    · rw [List.filter_cons_of_neg (by simpa using same), List.foldl_cons, same]
      have kept := released.release fencedUntilMs
      have own : Alike key (inner.release fencedUntilMs key) bare := by
        refine alike.own (inner.release_writes key) ?_
        rw [kept]
        exact alike.noSet
      refine ih own ?_
      rw [kept]
      exact released
    · rw [List.filter_cons_of_pos (by simpa using same), List.foldl_cons, List.foldl_cons]
      exact ih (alike.release same fencedUntilMs)
        (released.of_sameExcept (.writes (inner.release_writes next)) same)

/-- Refreshing calls, among them a released one, and refreshing the others. -/
theorem Alike.refreshEach (alike : Alike key inner bare) (released : inner.ReleasedUntil key untilMs)
    (leaseExpiresAtMs : ℤ) (calls : List (String × ℕ × List AdmitEntry)) :
    let others := calls.filter fun call => call.1 ≠ key
    let refreshed := refreshEach leaseExpiresAtMs inner calls
    let bareRefreshed := refreshEach leaseExpiresAtMs bare others
    Alike key refreshed.1 bareRefreshed.1 ∧ refreshed.1.ReleasedUntil key untilMs ∧
      (CallStore.refreshReplies calls refreshed.2).filter (fun reply => !reply.about key) =
        CallStore.refreshReplies others bareRefreshed.2 ∧
      ∀ reply ∈ CallStore.refreshReplies calls refreshed.2, reply.about key = true →
        reply = .refresh key ⟨.released, none⟩ := by
  induction calls generalizing inner bare with
  | nil => exact ⟨alike, released, rfl, nofun⟩
  | cons call calls ih =>
    obtain ⟨next, change, entries⟩ := call
    by_cases same : next = key
    · subst same
      obtain ⟨after, kept, answers, own⟩ := ih alike released
      rw [List.filter_cons_of_neg (by simp)]
      simp only [refreshEach, released.refresh alike.sound]
      refine ⟨after, kept, ?_, ?_⟩
      · rw [← answers]
        simp [CallStore.refreshReplies, CallStore.Reply.about]
      intro reply member about
      rcases List.mem_cons.1 member with isFirst | inRest
      · exact isFirst
      · exact own reply inRest about
    · have sameAt := ((alike.sameAt same).refresh change entries leaseExpiresAtMs).2
      obtain ⟨after, kept, answers, own⟩ := ih (alike.refresh same change entries leaseExpiresAtMs)
        (released.of_sameExcept (.refresh inner next change entries leaseExpiresAtMs) same)
      rw [List.filter_cons_of_pos (by simpa using same)]
      simp only [refreshEach]
      refine ⟨after, kept, ?_, ?_⟩
      · simp only [CallStore.refreshReplies] at answers ⊢
        rw [List.zipWith_cons_cons, List.zipWith_cons_cons, List.filter_cons_of_pos, answers, sameAt]
        simpa [CallStore.Reply.about] using same
      intro reply member about
      rcases List.mem_cons.1 member with isFirst | inRest
      · rw [isFirst] at about
        exact absurd (of_decide_eq_true about) same
      · exact own reply inRest about

end Inner

/-! ### Whole runs -/

namespace CallStore

variable {store bare : CallStore} {key : String} {untilMs : ℤ} {request : Request}

/-- What a request does while a key is released, beside another store that is served the same without the
    key. -/
structure Served (key : String) (untilMs : ℤ) (store bare : CallStore) (request : Request) : Prop where
  released : (store.serve request).inner.ReleasedUntil key untilMs
  answered : ∀ reply ∈ store.replies request, reply.about key = true →
    reply = .admission key .released ∨ reply = .refresh key ⟨.released, none⟩ ∨ reply = .heldSet key none
  others : ∀ others, request.without key = some others →
    Inner.Alike key (store.serve request).inner (bare.serve others).inner ∧ others.nowMs = request.nowMs ∧
      (store.replies request).filter (fun reply => !reply.about key) = bare.replies others
  alone : request.without key = none →
    Inner.Alike key (store.serve request).inner (bare.inner.sweep request.nowMs) ∧
      (store.replies request).filter (fun reply => !reply.about key) = []

/-- A request for the key alone is answered as released. -/
theorem Served.own (alone : request.without key = none)
    (released : (store.serve request).inner.ReleasedUntil key untilMs)
    (alike : Inner.Alike key (store.serve request).inner (bare.inner.sweep request.nowMs)) {reply : Reply}
    (answer : store.replies request = [reply])
    (isReleased : reply = .admission key .released ∨ reply = .refresh key ⟨.released, none⟩ ∨
      reply = .heldSet key none) :
    Served key untilMs store bare request where
  released := released
  answered _ member _ := by
    rw [answer] at member
    exact List.mem_singleton.1 member ▸ isReleased
  others _ isOthers := nomatch alone.symm.trans isOthers
  alone _ := by
    rw [answer]
    refine ⟨alike, ?_⟩
    rcases isReleased with rfl | rfl | rfl <;> simp [Reply.about]

/-- A request that is not about the key is answered as beside it. -/
theorem Served.other (whole : request.without key = some request)
    (released : (store.serve request).inner.ReleasedUntil key untilMs)
    (alike : Inner.Alike key (store.serve request).inner (bare.serve request).inner)
    (answers : bare.replies request = store.replies request)
    (elsewhere : ∀ reply ∈ store.replies request, reply.about key = false) :
    Served key untilMs store bare request where
  released := released
  answered reply member about := nomatch (elsewhere reply member).symm.trans about
  others _ isOthers := by
    cases whole.symm.trans isOthers
    refine ⟨alike, rfl, ?_⟩
    rw [answers, List.filter_eq_self]
    exact fun reply member => congrArg _ (elsewhere reply member)
  alone isAlone := nomatch whole.symm.trans isAlone

theorem leaseEnd_of_cfg (cfg : bare.cfg = store.cfg) : bare.leaseEnd nowMs = store.leaseEnd nowMs := by
  rw [leaseEnd, leaseEnd, cfg]

section Serve

variable {nowMs : ℤ} (cfg : bare.cfg = store.cfg)
  (released : (store.inner.sweep nowMs).ReleasedUntil key untilMs)
  (alike : Inner.Alike key (store.inner.sweep nowMs) (bare.inner.sweep nowMs))

include released alike

theorem served_heldSet (asked : String) : Served key untilMs store bare ⟨nowMs, .heldSet asked⟩ := by
  by_cases same : asked = key
  · subst same
    refine .own (by simp [Request.without]) released alike ?_ (.inr (.inr rfl))
    simp only [replies, heldSet, released.releaseFenced, if_true]
  · have sameAt := alike.sameAt same
    refine .other (by simp [Request.without, same]) released alike ?_ (by simp [replies, Reply.about, same])
    simp only [replies, heldSet, sameAt.releaseFenced, sameAt.heldSet]

include cfg

theorem served_admit (admitted : String) (change : ℕ) (held : HeldSet) (entries : List AdmitEntry)
    (releaseOnRefusal : Bool) :
    Served key untilMs store bare ⟨nowMs, .admitCarrying admitted change held entries releaseOnRefusal⟩ := by
  by_cases same : admitted = key
  · subst same
    have answer := released.admitSet change held entries releaseOnRefusal (store.leaseEnd nowMs)
    have serves : (store.serve ⟨nowMs, .admitCarrying admitted change held entries releaseOnRefusal⟩).inner =
        { store.inner.sweep nowMs with
          admitsRefusedReleased := (store.inner.sweep nowMs).admitsRefusedReleased + 1 } := by
      simp only [serve, admitCarrying, answer]
    refine .own (by simp [Request.without]) (serves ▸ released) ?_ ?_ (.inl rfl)
    · rw [serves]
      exact @Inner.Alike.own _ _ _ _ 0 alike (.single (.gauges ..)) alike.noSet
    · simp only [replies, admitCarrying, answer]
  · obtain ⟨after, answer⟩ := alike.admitSet same change held entries releaseOnRefusal (store.leaseEnd nowMs)
    have kept : Inner.ReleasedUntil key untilMs
      (Inner.admitSet _ admitted change held entries releaseOnRefusal _).1 :=
      released.of_sameExcept (.writes (@Inner.admitSet_writes (store.leaseEnd nowMs) ..)) same
    refine .other (by simp [Request.without, same]) kept ?_ ?_ (by simp [replies, Reply.about, same])
    · simp only [serve, admitCarrying, leaseEnd_of_cfg cfg]
      exact after
    · simp only [replies, admitCarrying, leaseEnd_of_cfg cfg, answer]

theorem served_release (keys : List String) : Served key untilMs store bare ⟨nowMs, .release keys⟩ where
  released := released.releaseEach (store.leaseEnd nowMs) keys
  answered _ member := nomatch member
  others others isOthers := by
    cases isOthers
    simp only [serve, release, leaseEnd_of_cfg cfg]
    exact ⟨alike.releaseEach released (store.leaseEnd nowMs) keys, trivial, rfl⟩
  alone isAlone := nomatch isAlone

theorem served_refresh (calls : List (String × ℕ × List AdmitEntry)) :
    Served key untilMs store bare ⟨nowMs, .refreshAll calls⟩ := by
  obtain ⟨after, kept, answers, own⟩ := alike.refreshEach released (store.leaseEnd nowMs) calls
  constructor
  · exact kept
  · exact fun reply member about => .inr (.inl (own reply member about))
  · intro others isOthers
    cases isOthers
    simp only [serve, replies, refreshAll, leaseEnd_of_cfg cfg]
    exact ⟨after, trivial, answers⟩
  · intro isAlone
    cases isAlone

/-- Every request is served so. -/
theorem served (operation : Operation) : Served key untilMs store bare ⟨nowMs, operation⟩ := by
  cases operation with
  | admitCarrying admitted change held entries releaseOnRefusal =>
    exact served_admit cfg released alike admitted change held entries releaseOnRefusal
  | release keys => exact served_release cfg released alike keys
  | refreshAll calls => exact served_refresh cfg released alike calls
  | heldSet asked => exact served_heldSet released alike asked
  | sweepNow => exact .other rfl released alike rfl nofun
  | held id =>
    refine .other rfl released alike ?_ (by simp [replies, Reply.about])
    simp only [replies, held, alike.counts]
  | calls =>
    refine .other rfl released alike ?_ (by simp [replies, Reply.about])
    simp only [replies, calls, KeyMap.length_keys_congr alike.calls]

end Serve

theorem served_holdsNothing (sound : store.inner.Sound) (released : store.inner.ReleasedUntil key untilMs)
    (before : request.nowMs < untilMs) :
    HoldsNothing key store request ∧ (store.serve request).inner.ReleasedUntil key untilMs := by
  obtain ⟨nowMs, operation⟩ := request
  have swept := Inner.sweep_sound sound nowMs
  have sweptReleased := released.sweep sound before
  have noSet := sweptReleased.noSet swept
  have itself : Inner.Alike key (store.inner.sweep nowMs) (store.inner.sweep nowMs) :=
    ⟨.refl _ key, noSet, noSet, swept, swept⟩
  have served : Served key untilMs store store ⟨nowMs, operation⟩ := served rfl sweptReleased itself operation
  refine ⟨⟨served.released.noSet (serve_sound sound _), served.answered, ?_⟩, served.released⟩
  intro id
  cases isOthers : Request.without key ⟨nowMs, operation⟩ with
  | some others => exact ((served.others others isOthers).1.counts id).symm
  | none => exact ((served.alone isOthers).1.counts id).symm

/-- Two stores that are alike once swept answer every run alike, without the key. -/
theorem transcript_alike {requests : List Request} {firstMs : ℤ} (sound : store.inner.Sound)
    (bareSound : bare.inner.Sound) (cfg : bare.cfg = store.cfg) (released : store.inner.ReleasedUntil key untilMs)
    (alike : Inner.Alike key (store.inner.sweep firstMs) (bare.inner.sweep firstMs))
    (ordered : (firstMs :: requests.map Request.nowMs).Pairwise (· ≤ ·))
    (within : ∀ request ∈ requests, request.nowMs < untilMs) :
    (transcript store requests).filter (fun reply => !reply.about key) =
      transcript bare (requests.filterMap (Request.without key)) := by
  induction requests generalizing store bare firstMs with
  | nil => rfl
  | cons request requests ih =>
    obtain ⟨first, rest⟩ := List.pairwise_cons.1 ordered
    have atRequest := alike.resweep (first request.nowMs List.mem_cons_self) sound bareSound
    have sweptReleased := released.sweep sound (within request List.mem_cons_self)
    have served : Served key untilMs store bare request := served cfg sweptReleased atRequest request.operation
    have later := fun other member => within other (List.mem_cons_of_mem _ member)
    have after := serve_sound sound request
    have cfgAfter : bare.cfg = (store.serve request).cfg := cfg.trans (serve_cfg).symm
    rw [transcript, List.filter_append]
    cases isOthers : request.without key with
    | some others =>
      obtain ⟨alikeAfter, sameInstant, answers⟩ := served.others others isOthers
      rw [List.filterMap_cons_some isOthers, transcript, answers]
      congr 1
      exact ih after (serve_sound bareSound others) ((serve_cfg).trans cfgAfter)
        served.released (alikeAfter.sweep request.nowMs) rest later
    | none =>
      obtain ⟨alikeAfter, answers⟩ := served.alone isOthers
      rw [List.filterMap_cons_none isOthers, answers, List.nil_append]
      exact ih after bareSound cfgAfter served.released
        ((alikeAfter.sweep request.nowMs).unsweep bareSound) rest later

/-- From a release of a key that was not released, for one lease: the store holds nothing for the key and
    answers it as released, no operation on the key moves a count, and every other key is answered as by a
    store that agrees on the other keys and has no trace of this one. -/
theorem released_call_holds_nothing (cfg : LimiterConfig) (before : List Request) (store : CallStore)
    (ran : run step (new cfg) before = some store) (nowMs : ℤ) (keys : List String) (key : String)
    (member : key ∈ keys)
    (notReleased : (store.inner.sweep nowMs).releaseFenced key = false) (after : List Request)
    (ordered : (before.map Request.nowMs ++ nowMs :: after.map Request.nowMs).Pairwise (· ≤ ·))
    (within : ∀ request ∈ after, request.nowMs < store.leaseEnd nowMs) :
    let released := store.serve ⟨nowMs, .release keys⟩
    released.inner.calls.get key = none ∧ AllSteps step (HoldsNothing key) released after ∧
      ∀ bare, Unused key released bare →
        (transcript released after).filter (fun reply => !reply.about key) =
          transcript bare (after.filterMap (Request.without key)) := by
  intro released
  have sound : store.inner.Sound := by
    apply run_invariant (fun store => store.inner.Sound) _ ran
    · exact Inner.Sound.new
    intro store request next sound stepped
    cases stepped
    exact serve_sound sound request
  have releasedSound : released.inner.Sound := serve_sound sound _
  have fenced : released.inner.ReleasedUntil key (store.leaseEnd nowMs) :=
    Inner.releasedUntil_releaseEach member notReleased
  refine ⟨fenced.noSet releasedSound, ?_, ?_⟩
  · clear ordered
    generalize released = state at releasedSound fenced
    induction after generalizing state with
    | nil => trivial
    | cons request after ih =>
      obtain ⟨holds, kept⟩ := served_holdsNothing releasedSound fenced (within request List.mem_cons_self)
      refine ⟨holds, fun next stepped => ?_⟩
      cases stepped
      exact ih (fun later inLater => within later (List.mem_cons_of_mem _ inLater)) _
        (serve_sound releasedSound request) kept
  · intro bare unused
    have alike : Inner.Alike key released.inner bare.inner :=
      ⟨unused.others, fenced.noSet releasedSound, unused.noSet, releasedSound, unused.sound⟩
    have rest := (List.pairwise_append.1 ordered).2.1
    exact transcript_alike releasedSound unused.sound unused.cfg fenced (alike.sweep nowMs) rest within

/-- Two calls are admitted to a trunk. -/
def twoCalls : List Request :=
  [⟨1000, .admitCarrying "call" 1 default [⟨"trunk", 2⟩] false⟩,
    ⟨1001, .admitCarrying "other" 1 default [⟨"trunk", 2⟩] false⟩]

/-- Both calls ask for their slots after one is released. -/
def asksAgain : List Request :=
  [⟨1500, .admitCarrying "call" 2 ⟨1, [⟨"trunk", 2⟩]⟩ [⟨"trunk", 2⟩] false⟩,
    ⟨1600, .refreshAll [("call", 2, [⟨"trunk", 2⟩]), ("other", 1, [⟨"trunk", 2⟩])]⟩]

/-- The released call gets none, and the other call is answered as if it were alone. -/
theorem released_call_asks_again :
    ∃ store, run step (new oneSecond) twoCalls = some store ∧
      AllSteps step (HoldsNothing "call") (store.serve ⟨1002, .release ["call"]⟩) asksAgain ∧
      (transcript (store.serve ⟨1002, .release ["call"]⟩) asksAgain).filter (fun reply => !reply.about "call") =
        transcript ((store.serve ⟨1002, .release ["call"]⟩).forget "call")
          [⟨1600, .refreshAll [("other", 1, [⟨"trunk", 2⟩])]⟩] := by
  refine ⟨_, rfl, ?_⟩
  have holds := released_call_holds_nothing oneSecond twoCalls _ rfl 1002 ["call"] "call" List.mem_cons_self
    (by decide)
    asksAgain (by decide) (by decide)
  refine ⟨holds.2.1, holds.2.2 _ (unused_forget ?_ "call")⟩
  exact serve_sound (serve_sound (serve_sound Inner.Sound.new _) _) _

end CallStore

end SipServer.Limiter
