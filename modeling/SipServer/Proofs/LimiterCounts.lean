/-
Module: SipServer.Proofs.LimiterCounts
Purpose: Whole-run results about the limiter store: exact counts, exclusive keys, nothing dropped
  before its lease ends, and nothing lapsed left behind as long as no refresh sets a lease that ends
  before the deadline queued for its set.
-/
import SipServer.Proofs.LimiterSweep

namespace SipServer.Limiter

open SipServer.Lib

variable {inner : Inner} {store : CallStore} {request : Request} {requests : List Request}

namespace Inner

/-! ### Leases after a request

`Timely` is what the sweep establishes at its instant: every table entry is leased past the instant,
and every set's queued deadline lies between the instant and the lease.
-/

/-- Every set's queued deadline is at or before its lease. -/
def Prompt (inner : Inner) : Prop :=
  inner.calls.Each (fun _ set => set.pendingDeadlineMs ≤ set.leaseExpiresAtMs)

/-- Every table entry is leased past an instant. -/
structure Leased (nowMs : ℤ) (inner : Inner) : Prop where
  set : inner.calls.Each (fun _ set => nowMs < set.leaseExpiresAtMs)
  fence : inner.fences.Each (fun _ fence => nowMs < fence.2)
  marker : inner.markers.Each (fun _ marker => nowMs < marker.2)

/-- Leased past an instant, with every queued deadline in time for its lease. -/
structure Timely (nowMs : ℤ) (inner : Inner) : Prop where
  leased : inner.Leased nowMs
  prompt : inner.Prompt

theorem sweptSet_eq_some {nowMs : ℤ} {before : Option CallSet} {set : CallSet}
    (swept : sweptSet nowMs before = some set) :
    ∃ old, before = some old ∧ set = { old with pendingDeadlineMs := set.pendingDeadlineMs } ∧
      set.pendingDeadlineMs =
        if nowMs < old.pendingDeadlineMs then old.pendingDeadlineMs else old.leaseExpiresAtMs := by
  cases before with
  | none => cases swept
  | some old =>
    refine ⟨old, rfl, ?_⟩
    simp only [sweptSet] at swept
    split at swept
    · rename_i notDue
      cases swept
      simp [notDue]
    rename_i due
    split at swept
    · cases swept
      simp [due]
    · cases swept

/-- The sweep of a prompt store leaves nothing that lapsed. -/
theorem Prompt.sweep (prompt : inner.Prompt) (sound : inner.Sound) (nowMs : ℤ) :
    (inner.sweep nowMs).Timely nowMs := by
  have promptAfter : (inner.sweep nowMs).Prompt := by
    intro key set found
    rw [sweep_calls sound] at found
    obtain ⟨old, foundOld, setEq, pendingEq⟩ := sweptSet_eq_some found
    have before := prompt key old foundOld
    have leaseEq : set.leaseExpiresAtMs = old.leaseExpiresAtMs := by rw [setEq]
    rw [pendingEq, leaseEq]
    split
    · exact before
    · exact le_refl _
  refine ⟨⟨?_, ?_, ?_⟩, promptAfter⟩
  · intro key set found
    have pending := promptAfter key set found
    rw [sweep_calls sound] at found
    exact lt_of_lt_of_le (sweptSet_pending found) pending
  · intro key fence found
    rw [sweep_fences sound, sweptEntry_eq_some] at found
    exact found.2
  · intro key marker found
    rw [sweep_markers sound, sweptEntry_eq_some] at found
    exact found.2

/-- A write keeps the tables timely. -/
theorem Write.timely {after : Inner} {key : String} {nowMs leaseEnd : ℤ} (write : Write key leaseEnd inner after)
    (later : nowMs < leaseEnd) (timely : inner.Timely nowMs) : after.Timely nowMs := by
  obtain ⟨⟨set, fence, marker⟩, prompt⟩ := timely
  cases write with
  | gauges => exact ⟨⟨set, fence, marker⟩, prompt⟩
  | dropSet =>
    unfold Inner.dropSet
    split
    · exact ⟨⟨set, fence, marker⟩, prompt⟩
    · exact ⟨⟨set.remove key, fence, marker⟩, KeyMap.Each.remove prompt key⟩
  | dropMarker => exact ⟨⟨set, fence, marker.remove key⟩, prompt⟩
  | dropFence => exact ⟨⟨set, fence.remove key, marker⟩, prompt⟩
  | fence => exact ⟨⟨set, fence.insert later, marker⟩, prompt⟩
  | insertSet => exact ⟨⟨set.insert later, fence, marker⟩, KeyMap.Each.insert prompt (le_refl _)⟩
  | renumber change found =>
    have leased := set key _ found
    have pending := prompt key _ found
    exact ⟨⟨set.insert leased, fence, marker⟩, KeyMap.Each.insert prompt pending⟩
  | refence change found =>
    have leased := fence key _ found
    exact ⟨⟨set, fence.insert leased, marker⟩, prompt⟩
  | mark => exact ⟨⟨set, fence, marker.insert later⟩, prompt⟩

namespace Timely

variable {nowMs leaseEnd : ℤ} (timely : inner.Timely nowMs) (later : nowMs < leaseEnd)

include timely later

theorem writes {after : Inner} {key : String} (writes : Writes key leaseEnd inner after) : after.Timely nowMs := by
  induction writes with
  | refl => exact timely
  | tail _ write ih => exact write.timely later ih

theorem releaseEach (keys : List String) : (keys.foldl (Inner.release leaseEnd) inner).Timely nowMs := by
  induction keys generalizing inner with
  | nil => exact timely
  | cons key keys ih => exact ih (timely.writes later (inner.release_writes key))

end Timely

/-! ### Refreshing many calls -/

/-- The sets of some keys have their deadlines queued no later than an instant. -/
def QueuedBy (instant : ℤ) (inner : Inner) (keys : List String) : Prop :=
  ∀ key ∈ keys, ∀ set, inner.calls.get key = some set → set.pendingDeadlineMs ≤ instant

theorem Timely.refresh {nowMs leaseExpiresAtMs : ℤ} {key : String} (timely : inner.Timely nowMs)
    (later : nowMs < leaseExpiresAtMs) (change : ℕ) (entries : List AdmitEntry)
    (queued : ∀ set, inner.calls.get key = some set → set.pendingDeadlineMs ≤ leaseExpiresAtMs) :
    (inner.refresh key change entries leaseExpiresAtMs).1.Timely nowMs := by
  rcases inner.refresh_writes key change entries with ⟨set, found, extended⟩ | writes
  · obtain ⟨⟨leased, fence, marker⟩, prompt⟩ := timely
    rw [extended]
    exact ⟨⟨leased.insert later, fence, marker⟩, KeyMap.Each.insert prompt (queued set found)⟩
  · exact timely.writes later writes

/-- A write queues a set no later than its lease ends. -/
theorem Write.queuedBy {after : Inner} {key : String} {instant : ℤ} (write : Write key instant inner after)
    {keys : List String} (queued : QueuedBy instant inner keys) : QueuedBy instant after keys := by
  intro other member set found
  cases write with
  | gauges | dropMarker | dropFence | fence | refence | mark => exact queued other member set found
  | dropSet =>
    rw [dropSet_calls] at found
    split at found
    · cases found
    · exact queued other member set found
  | insertSet =>
    rcases KeyMap.of_get_insert found with ⟨-, rfl⟩ | ⟨-, found⟩
    · exact le_refl _
    · exact queued other member set found
  | renumber change before =>
    rcases KeyMap.of_get_insert found with ⟨same, rfl⟩ | ⟨-, found⟩
    · have pending := queued other member _ (same ▸ before)
      exact pending
    · exact queued other member set found

theorem QueuedBy.refresh {instant : ℤ} {keys : List String} (queued : QueuedBy instant inner keys) (key : String)
    (change : ℕ) (entries : List AdmitEntry) :
    QueuedBy instant (inner.refresh key change entries instant).1 keys := by
  rcases inner.refresh_writes key change entries with ⟨set, before, extended⟩ | writes
  · intro other member touched found
    rw [extended] at found
    rcases KeyMap.of_get_insert found with ⟨same, rfl⟩ | ⟨-, found⟩
    · exact queued other member set (same ▸ before)
    · exact queued other member touched found
  · generalize (inner.refresh key change entries instant).1 = after at writes
    induction writes with
    | refl => exact queued
    | tail _ write ih => exact write.queuedBy ih

theorem Timely.refreshEach {nowMs leaseExpiresAtMs : ℤ} (timely : inner.Timely nowMs)
    (later : nowMs < leaseExpiresAtMs) (calls : List (String × ℕ × List AdmitEntry))
    (queued : QueuedBy leaseExpiresAtMs inner (calls.map (fun call => call.1))) :
    (refreshEach leaseExpiresAtMs inner calls).1.Timely nowMs := by
  induction calls generalizing inner with
  | nil => exact timely
  | cons call calls ih =>
    obtain ⟨key, change, entries⟩ := call
    have first := timely.refresh later change entries (queued key (by simp))
    refine ih first ?_
    intro other member
    exact queued.refresh key change entries other (by simp at member ⊢; exact Or.inr member)

/-- What a sweep at an instant must leave alone: everything leased past the instant. -/
structure SweepKeeps (nowMs : ℤ) (inner : Inner) : Prop where
  set : ∀ key set, inner.calls.get key = some set → nowMs < set.leaseExpiresAtMs →
    ∃ pendingDeadlineMs,
      (inner.sweep nowMs).calls.get key = some { set with pendingDeadlineMs }
  fence : ∀ key fence, inner.fences.get key = some fence → nowMs < fence.2 →
    (inner.sweep nowMs).fences.get key = some fence
  marker : ∀ key marker, inner.markers.get key = some marker → nowMs < marker.2 →
    (inner.sweep nowMs).markers.get key = some marker

theorem Sound.sweepKeeps (sound : inner.Sound) (nowMs : ℤ) :
    inner.SweepKeeps nowMs where
  set key set found leased := by
    rw [sweep_calls sound, found]
    by_cases notDue : nowMs < set.pendingDeadlineMs
    · exact ⟨set.pendingDeadlineMs, by simp [sweptSet, notDue]⟩
    · exact ⟨set.leaseExpiresAtMs, by simp [sweptSet, notDue, leased]⟩
  fence key fence found leased := by
    rw [sweep_fences sound, sweptEntry_eq_some]
    exact ⟨found, leased⟩
  marker key marker found leased := by
    rw [sweep_markers sound, sweptEntry_eq_some]
    exact ⟨found, leased⟩

end Inner

/-! ### Whole runs -/

namespace CallStore

/-- A request's refreshes set no lease that ends before the deadline queued for the set: the one the
    sweep leaves it with, which is its lease once the queued one has passed. -/
def RefreshesForward (store : CallStore) (request : Request) : Prop :=
  ∀ calls, request.operation = .refreshAll calls → ∀ call ∈ calls, ∀ set,
    store.inner.calls.get call.1 = some set →
      (if request.nowMs < set.pendingDeadlineMs then set.pendingDeadlineMs
        else set.leaseExpiresAtMs) ≤ store.leaseEnd request.nowMs

/-- What a request owes: exact counts, exclusive keys, nothing lapsed left behind, and nothing
    swept before its lease ended. -/
structure ServesExactly (store : CallStore) (request : Request) : Prop where
  counted : ∀ id, (store.serve request).inner.counts.get id =
    Inner.tally ((store.serve request).inner.occurrences id)
  exclusive : (store.serve request).inner.Exclusive
  leased : (store.serve request).inner.Leased request.nowMs
  kept : store.inner.SweepKeeps request.nowMs

theorem serve_sound (sound : store.inner.Sound) (request : Request) :
    (store.serve request).inner.Sound := by
  have swept := Inner.sweep_sound sound request.nowMs
  obtain ⟨nowMs, operation⟩ := request
  cases operation with
  | admitCarrying key change held entries releaseOnRefusal => exact swept.writes (Inner.admitSet_writes ..)
  | release keys => exact swept.releaseEach _ keys
  | refreshAll calls => exact swept.refreshEach _ calls
  | sweepNow | heldSet | held | calls => exact swept

theorem serve_cfg : (store.serve request).cfg = store.cfg := by
  obtain ⟨nowMs, operation⟩ := request
  cases operation <;> rfl

theorem lt_leaseEnd (store : CallStore) (nowMs : ℤ) : nowMs < store.leaseEnd nowMs := by
  have := store.cfg.leaseMs_pos
  unfold leaseEnd
  omega

/-- A prompt store serves any request but a refresh in time; the condition is for refreshes. -/
theorem serve_timely (sound : store.inner.Sound) (prompt : store.inner.Prompt)
    (forward : RefreshesForward store request) :
    (store.serve request).inner.Timely request.nowMs := by
  have swept := prompt.sweep sound request.nowMs
  have later := store.lt_leaseEnd request.nowMs
  obtain ⟨nowMs, operation⟩ := request
  cases operation with
  | admitCarrying key change held entries releaseOnRefusal => exact swept.writes later (Inner.admitSet_writes ..)
  | release keys => exact swept.releaseEach later keys
  | refreshAll calls =>
    refine swept.refreshEach later calls ?_
    intro key member set found
    obtain ⟨call, inCalls, rfl⟩ := List.mem_map.1 member
    rw [Inner.sweep_calls sound] at found
    obtain ⟨old, foundOld, _, pendingEq⟩ := Inner.sweptSet_eq_some found
    rw [pendingEq]
    exact forward calls rfl call inCalls old foundOld
  | sweepNow => exact swept
  | heldSet key => exact swept
  | held id => exact swept
  | calls => exact swept

/-- The store serves every request, so a run's steps follow its requests. -/
theorem allSteps_cons {property : CallStore → Request → Prop} :
    AllSteps step property store (request :: requests) ↔
      property store request ∧ AllSteps step property (store.serve request) requests := by
  constructor
  · rintro ⟨first, rest⟩
    exact ⟨first, rest _ rfl⟩
  · rintro ⟨first, rest⟩
    refine ⟨first, ?_⟩
    intro next stepped
    cases stepped
    exact rest

/-- Whatever the clock reads, a run keeps the counts exact and the keys exclusive, and no sweep of it
    drops anything before its lease ends. -/
theorem serves_soundly {cfg : LimiterConfig} :
    AllSteps step
      (fun store request => (store.serve request).inner.Sound ∧
        store.inner.SweepKeeps request.nowMs)
      (new cfg) requests := by
  refine allSteps_of_invariant (fun store => store.inner.Sound) ?_ ?_
    (allSteps_of_mem (fun _ _ _ => trivial) (new cfg)) Inner.Sound.new
  · intro store request next sound _ stepped
    cases stepped
    exact serve_sound sound request
  · intro store request sound _
    exact ⟨serve_sound sound request, sound.sweepKeeps request.nowMs⟩

/-- In every run whose refreshes set no lease ending before the deadline queued for its set, every
    request leaves exact counts, exclusive keys and nothing lapsed. -/
theorem serves_exactly_of_refreshes_forward (cfg : LimiterConfig) (requests : List Request)
    (forward : AllSteps step RefreshesForward (new cfg) requests) :
    AllSteps step ServesExactly (new cfg) requests := by
  refine allSteps_of_invariant
    (fun store => store.inner.Sound ∧ store.inner.Prompt) ?_ ?_ forward
    ⟨Inner.Sound.new, .empty⟩
  · rintro store request next ⟨sound, prompt⟩ met stepped
    cases stepped
    exact ⟨serve_sound sound request, (serve_timely sound prompt met).prompt⟩
  · rintro store request ⟨sound, prompt⟩ met
    have after := serve_sound sound request
    exact ⟨after.counted, after.exclusive, (serve_timely sound prompt met).leased, sound.sweepKeeps request.nowMs⟩

/-- A one-second lease. -/
def oneSecond : LimiterConfig := ⟨1, by decide, by decide⟩

/-- An admit, then a refresh that read the clock before it, then a sweep at the refreshed lease. -/
def refreshReadEarlier : List Request :=
  [⟨1001, .admitCarrying "call" 1 default [⟨"trunk", 1⟩] false⟩,
    ⟨1000, .refreshAll [("call", 1, [⟨"trunk", 1⟩])]⟩,
    ⟨2000, .sweepNow⟩]

/-- The refresh moves the lease to 2000 while the deadline stays queued at 2001, and the sweep at 2000
    leaves the set in place. -/
theorem sweep_leaves_lapsed_set : ¬ AllSteps step ServesExactly (new oneSecond) refreshReadEarlier := by
  intro exactly
  simp only [refreshReadEarlier, allSteps_cons] at exactly
  have swept := exactly.2.2.1.leased.set "call" ⟨[⟨"trunk", 1⟩], 1, 2000, 2001⟩ (by decide)
  exact absurd swept (by decide)

/-- The same requests with the clock readings in order. -/
theorem refresh_in_order_serves_exactly :
    AllSteps step ServesExactly (new oneSecond)
      [⟨1000, .admitCarrying "call" 1 default [⟨"trunk", 1⟩] false⟩,
        ⟨1001, .refreshAll [("call", 1, [⟨"trunk", 1⟩])]⟩,
        ⟨2001, .sweepNow⟩] := by
  apply serves_exactly_of_refreshes_forward
  simp only [allSteps_cons]
  refine ⟨fun _ admitted => (by cases admitted), ?_, fun _ sweep => (by cases sweep), trivial⟩
  intro calls refresh call member set found
  cases refresh
  obtain rfl := List.mem_singleton.1 member
  have held : set = ⟨[⟨"trunk", 1⟩], 1, 2000, 2000⟩ := by
    have stored : ((new oneSecond).serve
        ⟨1000, .admitCarrying "call" 1 default [⟨"trunk", 1⟩] false⟩).inner.calls.get "call" =
          some ⟨[⟨"trunk", 1⟩], 1, 2000, 2000⟩ := by decide
    exact Option.mem_unique found stored
  subst held
  decide

end CallStore

end SipServer.Limiter
