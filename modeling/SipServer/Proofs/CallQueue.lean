/-
Module: SipServer.Proofs.CallQueue
Purpose: One call's queue is first in, first out and exactly once. What each operation does to the entries is
  said once; from it, over every sequence of offers, releases and pops, an offered item is handed back at
  once or popped in its turn, nothing of the next call runs before the release in front of it, and the
  lifetime cap is crossed at most once.
-/
import Mathlib.Data.List.TakeWhile
import SipServer.Dispatch.Queue

namespace SipServer.Dispatch

variable {Item : Type} {front : Entry Item}

namespace CallQueue

variable {queue : CallQueue Item} {metrics : B2buaMetrics}

variable {entries rest : List (Entry Item)} {cls : DispatchClass} {removal : RemovalClass} {item : Item}

/-! ### What each operation does to the entries -/

@[simp] theorem noteNearCap_queue :
    (queue.noteNearCap metrics).1 = { queue with
      nearCap := queue.nearCap || decide (queue.limits.lifetimeCap * nearCapPercent < queue.offered * 100) } := by
  cases queue with
  | mk entries limits released nextCall waiting offered nextOffered nearCap capped =>
    cases nearCap with
    | true => simp [noteNearCap]
    | false =>
      by_cases passed : limits.lifetimeCap * nearCapPercent < offered * 100 <;> simp [noteNearCap, passed]

/-- What an offer leaves alone, and when it crosses the lifetime cap. -/
structure Counted (queue after : CallQueue Item) (crossed : Bool) : Prop where
  limits : after.limits = queue.limits
  released : after.released = queue.released
  capped : after.capped = (queue.capped || crossed)
  crossing : crossed = true → queue.capped = false

/-- Where an offered item goes. -/
inductive Placed (queue : CallQueue Item) (item : Item) (cls : DispatchClass) (after : CallQueue Item) :
    Outcome Item → Prop where
  | queued (entries : after.entries = queue.entries ++ [.item item cls])
      (behind : queue.released.isSome → (queue.nextCall || cls.isNewCall) = true ∧ after.nextCall = true)
      (ahead : queue.released = none → after.nextCall = queue.nextCall) : Placed queue item cls after .queued
  | discarded (why : Discard) (owed : Owed)
      (entries : after.entries = queue.entries)
      (nextCall : after.nextCall = queue.nextCall)
      (always : cls.row.room = .always →
        ∃ removal, why = .released removal ∧ queue.released = some removal ∧ queue.nextCall = false) :
      Placed queue item cls after (.discarded item why owed)

/-- Counting an offer moves no entry. -/
theorem countOffer_counted (queue : CallQueue Item) (metrics : B2buaMetrics) (cls : DispatchClass) :
    let counted := queue.countOffer metrics cls
    Counted queue counted.1 counted.2.2 ∧ counted.1.entries = queue.entries ∧
      counted.1.nextCall = queue.nextCall := by
  simp only [countOffer]
  split
  · refine ⟨?_, ?_, ?_⟩
    · constructor <;> simp [count]
    · simp [count]
    · simp [count]
  · exact ⟨⟨rfl, rfl, (Bool.or_false _).symm, nofun⟩, rfl, rfl⟩

theorem countNext_queue :
    ∃ nextOffered, queue.countNext cls = { queue with nextOffered := nextOffered } := by
  unfold countNext
  split
  · exact ⟨_, rfl⟩
  · exact ⟨queue.nextOffered, rfl⟩

/-- The row's room queues the item at the back, or hands it back unless there is always room. -/
theorem makeRoom_placed (queue : CallQueue Item) (metrics : B2buaMetrics) (item : Item) (cls : DispatchClass)
    (nextCall crossed : Bool) :
    let result := queue.makeRoom metrics item cls nextCall crossed
    result.2.2.crossedLifetimeCap = crossed ∧ result.1.limits = queue.limits ∧ result.1.released = queue.released ∧
      result.1.capped = queue.capped ∧
      ((result.2.2.outcome = .queued ∧ result.1.entries = queue.entries ++ [.item item cls] ∧
          result.1.nextCall = (queue.nextCall || nextCall)) ∨
        (∃ why owed, result.2.2.outcome = .discarded item why owed ∧ result.1 = queue ∧ cls.row.room ≠ .always)) := by
  simp only [makeRoom]
  split
  · split
    · rename_i room
      simp [refused, room]
    · rename_i room
      split <;> simp [refused, room, pushItem]
    · simp [pushItem]
  · simp [pushItem]

/-- What an offer's placement does to the entries. -/
theorem place_placed (queue : CallQueue Item) (metrics : B2buaMetrics) (item : Item) (cls : DispatchClass)
    (crossed : Bool) :
    let result := queue.place metrics item cls crossed
    result.2.2.crossedLifetimeCap = crossed ∧ result.1.limits = queue.limits ∧ result.1.released = queue.released ∧
      result.1.capped = queue.capped ∧ Placed queue item cls result.1 result.2.2.outcome := by
  simp only [place]
  split
  · rename_i refused
    refine ⟨rfl, rfl, rfl, rfl, .discarded _ _ rfl rfl fun always => ?_⟩
    simp [Row.admittedWhenCapped, always] at refused
  split
  · rename_i removal behind released
    refine ⟨rfl, rfl, rfl, rfl, .discarded _ _ rfl rfl fun _ => ⟨removal, rfl, released, ?_⟩⟩
    simp only [waitsBehind, released, Option.isSome_some, Bool.true_and, Bool.or_eq_false_iff] at behind
    exact behind.1
  rename_i notBehind
  obtain ⟨crossing, limits, released, capped, queued | ⟨why, owed, discarded, same, room⟩⟩ :=
    makeRoom_placed queue metrics item cls (queue.waitsBehind cls) crossed
  · refine ⟨crossing, limits, released, capped, ?_⟩
    rw [queued.1]
    refine .queued queued.2.1 (fun isSome => ?_) (fun none => ?_)
    · have behind : queue.waitsBehind cls = true := by
        obtain ⟨removal, isRemoval⟩ := Option.isSome_iff_exists.1 isSome
        exact (Bool.eq_false_or_eq_true _).resolve_right fun ahead => notBehind removal ahead isRemoval
      rw [queued.2.2, behind]
      simp only [waitsBehind, isSome, Bool.true_and] at behind
      exact ⟨behind, Bool.or_true _⟩
    · rw [queued.2.2, waitsBehind, none]
      simp
  · refine ⟨crossing, limits, released, capped, ?_⟩
    rw [discarded, same]
    exact .discarded why owed rfl rfl fun always => absurd always room

theorem Placed.of_same {before after : CallQueue Item} {outcome : Outcome Item}
    (placed : Placed before item cls after outcome) (entries : before.entries = queue.entries)
    (released : before.released = queue.released) (nextCall : before.nextCall = queue.nextCall) :
    Placed queue item cls after outcome := by
  cases placed with
  | queued put behind ahead =>
    rw [entries] at put
    rw [released, nextCall] at behind ahead
    exact .queued put behind ahead
  | discarded why owed kept same always =>
    rw [entries] at kept
    rw [nextCall] at same
    rw [released, nextCall] at always
    exact .discarded why owed kept same always

/-- What one offer does: it counts, and its item goes in at the back or is handed back. -/
theorem offer_moves (queue : CallQueue Item) (metrics : B2buaMetrics) (item : Item) (cls : DispatchClass) :
    let result := queue.offer metrics item cls
    Counted queue result.1 result.2.2.crossedLifetimeCap ∧ Placed queue item cls result.1 result.2.2.outcome := by
  obtain ⟨counts, entries, nextCall⟩ := countOffer_counted queue metrics cls
  simp only [offer]
  generalize queue.countOffer metrics cls = counted at counts entries nextCall ⊢
  obtain ⟨offered, next⟩ := countNext_queue
  rw [next]
  obtain ⟨crossed, limits, released, capped, placed⟩ :=
    place_placed { counted.1 with nextOffered := offered } counted.2.1 item cls counted.2.2
  rw [crossed]
  refine ⟨⟨limits.trans counts.limits, released.trans counts.released, capped.trans counts.capped,
    counts.crossing⟩, ?_⟩
  exact placed.of_same entries counts.released nextCall

/-! ### Releases and pops -/

/-- The items among the entries, in order. -/
def itemsOf (entries : List (Entry Item)) : List Item :=
  entries.filterMap fun
    | .item item _ => some item
    | .release _ => none

@[simp] theorem itemsOf_nil : itemsOf ([] : List (Entry Item)) = [] := rfl

@[simp] theorem itemsOf_item : itemsOf (.item item cls :: rest) = item :: itemsOf rest := rfl

@[simp] theorem itemsOf_release : itemsOf (.release removal :: rest) = itemsOf rest := rfl

@[simp] theorem itemsOf_append {front back : List (Entry Item)} :
    itemsOf (front ++ back) = itemsOf front ++ itemsOf back :=
  List.filterMap_append

/-- The entries behind which a release goes: those up to the first new call. -/
def aheadOfRelease (entries : List (Entry Item)) :
    List (Entry Item) := entries.takeWhile fun entry => !entry.isNewCall

/-- The first new call and what follows it. -/
def behindRelease (entries : List (Entry Item)) : List (Entry Item) := entries.dropWhile fun entry => !entry.isNewCall

theorem ahead_append_behind : aheadOfRelease entries ++ behindRelease entries = entries :=
  List.takeWhile_append_dropWhile

/-- An entry put at the first new call's place cuts the queue there. -/
theorem insertIdx_findIdx {entry : Entry Item} {position : ℕ}
    (first : entries.findIdx? Entry.isNewCall = some position) :
    entries.insertIdx position entry = aheadOfRelease entries ++ entry :: behindRelease entries := by
  induction entries generalizing position with
  | nil => cases first
  | cons head tail ih =>
    rw [List.findIdx?_cons] at first
    cases new : head.isNewCall with
    | true =>
      rw [new] at first
      obtain rfl : 0 = position := Option.some.inj first
      simp [aheadOfRelease, behindRelease, new]
    | false =>
      simp only [new, Bool.false_eq_true, if_false, Option.map_eq_some_iff] at first
      obtain ⟨later, isFirst, rfl⟩ := first
      have tailEq := ih isFirst
      simp [aheadOfRelease, behindRelease, new, tailEq]

theorem aheadOfRelease_of_none (none : entries.findIdx? Entry.isNewCall = none) :
    aheadOfRelease entries = entries ∧ behindRelease entries = [] := by
  rw [List.findIdx?_eq_none_iff] at none
  constructor
  · exact List.takeWhile_eq_self_iff.2 fun entry member => by simp [none entry member]
  · exact List.dropWhile_eq_nil_iff.2 fun entry member => by simp [none entry member]

/-- The first release cuts in front of the first new call. -/
theorem release_moves (queue : CallQueue Item) (metrics : B2buaMetrics) (removal : RemovalClass)
    (unreleased : queue.released = none) :
    let after := (queue.release metrics removal).1
    after.released = some removal ∧ after.limits = queue.limits ∧ after.capped = queue.capped ∧
      after.entries = aheadOfRelease queue.entries ++ .release removal :: behindRelease queue.entries ∧
      after.nextCall = (queue.nextCall || !(behindRelease queue.entries).isEmpty) := by
  simp only [release, unreleased, Option.isSome_none, Bool.false_eq_true, if_false]
  split
  · rename_i none
    obtain ⟨ahead, behind⟩ := aheadOfRelease_of_none none
    rw [ahead, behind]
    exact ⟨rfl, rfl, rfl, rfl, (Bool.or_false _).symm⟩
  rename_i position first
  refine ⟨rfl, rfl, rfl, insertIdx_findIdx first, ?_⟩
  have waiting : behindRelease queue.entries ≠ [] := by
    intro nothing
    have quiet := List.dropWhile_eq_nil_iff.1 nothing
    have none : queue.entries.findIdx? Entry.isNewCall = none := by
      rw [List.findIdx?_eq_none_iff]
      intro entry member
      simpa using quiet entry member
    rw [none] at first
    cases first
  simp [waiting]

/-- A release moves no item. -/
theorem itemsOf_cut :
    itemsOf (aheadOfRelease entries ++ .release removal :: behindRelease entries) = itemsOf entries := by
  rw [itemsOf_append, itemsOf_release, ← itemsOf_append, ahead_append_behind]

/-- A second release does nothing. -/
theorem release_again (queue : CallQueue Item) (metrics : B2buaMetrics) (removal : RemovalClass)
    (released : queue.released.isSome) : queue.release metrics removal = (queue, metrics) := by
  simp only [release, released, if_true]

/-- A release takes no item. -/
theorem release_items : itemsOf (queue.release metrics removal).1.entries = itemsOf queue.entries := by
  cases isReleased : queue.released with
  | some first => rw [release_again queue metrics removal (by rw [isReleased]; rfl)]
  | none =>
    obtain ⟨-, -, -, entries, -⟩ := release_moves queue metrics removal isReleased
    rw [entries, itemsOf_cut]

/-- What a pop hands the worker. -/
def handed : Entry Item → Popped Item
  | .item item cls => .item item cls
  | .release removal => .release removal

/-- The pop takes the front entry and touches nothing the shape reads. -/
theorem pop_moves (queue : CallQueue Item) (metrics : B2buaMetrics) (entries : queue.entries = front :: rest) :
    ∃ after nextMetrics, queue.pop metrics = (after, nextMetrics, some (handed front)) ∧ after.entries = rest ∧
      after.released = queue.released ∧ after.nextCall = queue.nextCall ∧ after.limits = queue.limits ∧
      after.capped = queue.capped := by
  cases front with
  | item | release => simp [pop, entries, handed]

theorem pop_empty (entries : queue.entries = []) : queue.pop metrics = (queue, metrics, none) := by
  simp [pop, entries]

/-- A reopened queue serves the next call. -/
theorem reopen_moves (queue : CallQueue Item) (metrics : B2buaMetrics) (waits : queue.entries ≠ []) :
    ∃ after nextMetrics, queue.reopen metrics = (after, nextMetrics, true) ∧ after.entries = queue.entries ∧
      after.released = none ∧ after.nextCall = false ∧ after.limits = queue.limits ∧ after.capped = false := by
  cases entries : queue.entries with
  | nil => exact absurd entries waits
  | cons front rest => simp [reopen, entries]

theorem reopen_empty (queue : CallQueue Item) (metrics : B2buaMetrics) (entries : queue.entries = []) :
    queue.reopen metrics = (queue, metrics, false) := by
  simp [reopen, entries]

/-! ### The shape of a queue -/

/-- No release among the entries. -/
def NoRelease (entries : List (Entry Item)) : Prop := ∀ removal, .release removal ∉ entries

/-- No new call among the entries. -/
def NoNewCall (entries : List (Entry Item)) : Prop := ∀ entry ∈ entries, entry.isNewCall = false

/-- The entries are none, or begin with a new call. -/
def BeginsNewCall (entries : List (Entry Item)) : Prop := ∀ entry ∈ entries.head?, entry.isNewCall = true

/-- Where a queue is in its life: open, with its release queued, or with its release taken and nothing to
    reopen on. -/
inductive Shape (queue : CallQueue Item) : Prop where
  | open (released : queue.released = none) (nextCall : queue.nextCall = false) (items : NoRelease queue.entries)
  | releasing (removal : RemovalClass) (ahead behind : List (Entry Item))
      (released : queue.released = some removal)
      (entries : queue.entries = ahead ++ .release removal :: behind)
      (aheadItems : NoRelease ahead) (aheadOld : NoNewCall ahead)
      (behindItems : NoRelease behind) (begins : BeginsNewCall behind)
      (nextCall : queue.nextCall = !behind.isEmpty)
  | taken (removal : RemovalClass) (released : queue.released = some removal) (items : NoRelease queue.entries)
      (nextCall : queue.nextCall = false → queue.entries = [])

theorem NoRelease.append_item (items : NoRelease entries) : NoRelease (entries ++ [.item item cls]) := by
  intro removal member
  rcases List.mem_append.1 member with earlier | last
  · exact items removal earlier
  · cases List.mem_singleton.1 last

theorem NoRelease.sublist {fewer : List (Entry Item)} (items : NoRelease entries)
    (sub : fewer.Sublist entries) : NoRelease fewer :=
  fun removal member => items removal (sub.subset member)

theorem BeginsNewCall.append (begins : BeginsNewCall entries) (entry : Entry Item)
    (first : entries = [] → entry.isNewCall = true) : BeginsNewCall (entries ++ [entry]) := by
  intro front isFront
  cases entries with
  | nil =>
    obtain rfl : entry = front := Option.some.inj isFront
    exact first rfl
  | cons head tail => exact begins front isFront

section

variable (shape : Shape queue)

include shape

/-- A release is queued only in a released queue. -/
theorem Shape.released_of_release (member : .release removal ∈ queue.entries) : queue.released.isSome := by
  cases shape with
  | «open» _ _ items => exact absurd member (items removal)
  | releasing _ _ _ released => rw [released]; rfl
  | taken _ released => rw [released]; rfl

theorem Shape.noRelease (unreleased : queue.released = none) : NoRelease queue.entries :=
  fun _ member => by simpa [unreleased] using shape.released_of_release member

theorem Shape.offer (metrics : B2buaMetrics) (item : Item) (cls : DispatchClass) :
    Shape (queue.offer metrics item cls).1 := by
  obtain ⟨counts, placed⟩ := offer_moves queue metrics item cls
  generalize queue.offer metrics item cls = result at counts placed ⊢
  generalize result.2.2.outcome = outcome at placed
  cases placed with
  | discarded why owed entries nextCall _ =>
    cases shape with
    | «open» released next items =>
      exact .open (counts.released.trans released) (nextCall.trans next) (entries ▸ items)
    | releasing removal ahead behind released split aheadItems aheadOld behindItems begins next =>
      exact .releasing removal ahead behind (counts.released.trans released) (entries.trans split) aheadItems
        aheadOld behindItems begins (nextCall.trans next)
    | taken removal released items next =>
      refine .taken removal (counts.released.trans released) (entries ▸ items) ?_
      rw [nextCall, entries]
      exact next
  | queued entries behind ahead =>
    cases shape with
    | «open» released next items =>
      exact .open (counts.released.trans released) ((ahead released).trans next) (entries ▸ items.append_item)
    | releasing removal front back released split aheadItems aheadOld behindItems begins next =>
      obtain ⟨waits, nextAfter⟩ := behind (by rw [released]; rfl)
      refine .releasing removal front (back ++ [.item item cls]) (counts.released.trans released) ?_ aheadItems
        aheadOld (behindItems.append_item) (begins.append _ ?_) ?_
      · rw [entries, split, List.append_assoc, List.cons_append]
      · rintro rfl
        simpa [next, Entry.isNewCall] using waits
      · rw [nextAfter]
        simp
    | taken removal released items next =>
      obtain ⟨_, nextAfter⟩ := behind (by rw [released]; rfl)
      refine .taken removal (counts.released.trans released) (entries ▸ items.append_item) ?_
      rw [nextAfter]
      exact nofun

theorem Shape.release (metrics : B2buaMetrics) (removal : RemovalClass) :
    Shape (queue.release metrics removal).1 := by
  cases isReleased : queue.released with
  | some first =>
    rw [release_again queue metrics removal (by rw [isReleased]; rfl)]
    exact shape
  | none =>
    cases shape with
    | releasing _ _ _ released | taken _ released => cases isReleased.symm.trans released
    | «open» released next items =>
      obtain ⟨nowReleased, _, _, entries, nextCall⟩ := release_moves queue metrics removal released
      refine .releasing removal _ _ nowReleased entries (items.sublist (List.takeWhile_sublist _)) ?_
        (items.sublist (List.dropWhile_sublist _)) ?_ ?_
      · intro entry member
        simpa using List.mem_takeWhile_imp member
      · intro entry isFront
        have found := List.head?_dropWhile_not (fun entry => !entry.isNewCall) queue.entries
        rw [← behindRelease, Option.mem_def.1 isFront] at found
        simpa using found
      · rw [nextCall, next, Bool.false_or]

/-- What a pop that takes an item or a release knows of the rest. -/
theorem Shape.pop (metrics : B2buaMetrics) (entries : queue.entries = front :: rest) :
    Shape (queue.pop metrics).1 ∧
      (∀ removal, front = .release removal → NoRelease rest ∧ BeginsNewCall rest) ∧
      ((∃ removal, .release removal ∈ queue.entries) → front.isNewCall = false) := by
  obtain ⟨after, nextMetrics, isPopped, popped, isReleased, isNext, -, -⟩ := pop_moves queue metrics entries
  rw [isPopped]
  cases shape with
  | «open» released next items =>
    rw [entries] at items
    refine ⟨.open (isReleased.trans released) (isNext.trans next) ?_, ?_, ?_⟩
    · exact popped ▸ items.sublist (List.sublist_cons_self _ _)
    · rintro removal rfl
      exact absurd List.mem_cons_self (items removal)
    · rintro ⟨removal, member⟩
      exact absurd (entries ▸ member) (items removal)
  | taken removal released items next =>
    rw [entries] at items
    refine ⟨.taken removal (isReleased.trans released) ?_ ?_, ?_, ?_⟩
    · exact popped ▸ items.sublist (List.sublist_cons_self _ _)
    · intro noNext
      exact absurd (next (isNext.symm.trans noNext)) (by rw [entries]; exact List.cons_ne_nil _ _)
    · rintro later rfl
      exact absurd List.mem_cons_self (items later)
    · rintro ⟨later, member⟩
      exact absurd (entries ▸ member) (items later)
  | releasing removal ahead behind released split aheadItems aheadOld behindItems begins next =>
    rw [entries] at split
    cases ahead with
    | nil =>
      -- The release itself is taken, and what waits behind it is left.
      obtain ⟨rfl, rfl⟩ := List.cons.inj split
      refine ⟨.taken removal (isReleased.trans released) (popped ▸ behindItems) fun noNext => ?_, ?_, fun _ => rfl⟩
      · rw [popped]
        simpa [next] using isNext.symm.trans noNext
      · exact fun _ _ => ⟨behindItems, begins⟩
    | cons head tail =>
      obtain ⟨rfl, rfl⟩ := List.cons.inj split
      refine ⟨.releasing removal tail behind (isReleased.trans released) popped
        (aheadItems.sublist (List.sublist_cons_self _ _))
        (fun entry member => aheadOld entry (List.mem_cons_of_mem _ member)) behindItems begins
        (isNext.trans next), ?_, fun _ => aheadOld _ List.mem_cons_self⟩
      rintro later rfl
      exact absurd List.mem_cons_self (aheadItems later)

theorem Shape.reopen (metrics : B2buaMetrics) (items : NoRelease queue.entries) :
    Shape (queue.reopen metrics).1 := by
  by_cases empty : queue.entries = []
  · rw [reopen_empty queue metrics empty]
    exact shape
  obtain ⟨after, nextMetrics, isReopened, entries, released, next, -⟩ := reopen_moves queue metrics empty
  rw [isReopened]
  exact .open released next (entries ▸ items)

end

end CallQueue

/-! ### Runs of a queue -/

/-- What is done to a queue. -/
inductive Operation (Item : Type) where
  | offer (item : Item) (cls : DispatchClass)
  | release (removal : RemovalClass)
  | pop
deriving Repr, DecidableEq

/-- A queue with what an observer notes of it: the items it queued and the items popped, in order, whether it
    was released since it last opened, that release until its pop, and the lifetime-cap crossings it reported
    since it opened. -/
structure Watched (Item : Type) where
  queue : CallQueue Item
  metrics : B2buaMetrics
  queued : List Item
  popped : List Item
  releaseQueued : Bool
  outstanding : Option RemovalClass
  crossings : ℕ

namespace Watched

def new (limits : Limits) : Watched Item := ⟨CallQueue.new limits, .new, [], [], false, none, 0⟩

/-- One operation; a popped release that leaves entries behind reopens the queue. -/
def step (watched : Watched Item) : Operation Item → Watched Item
  | .offer item cls =>
    let (queue, metrics, offer) := watched.queue.offer watched.metrics item cls
    { watched with
      queue := queue
      metrics := metrics
      queued := match offer.outcome with
        | .queued => watched.queued ++ [item]
        | .discarded _ _ _ => watched.queued
      crossings := watched.crossings + offer.crossedLifetimeCap.toNat }
  | .release removal =>
    let (queue, metrics) := watched.queue.release watched.metrics removal
    -- Released again before it reopens, the queue has the first release only.
    { watched with
      queue := queue
      metrics := metrics
      releaseQueued := true
      outstanding := if watched.releaseQueued then watched.outstanding else some removal }
  | .pop =>
    match watched.queue.pop watched.metrics with
    | (queue, metrics, none) => { watched with queue := queue, metrics := metrics }
    | (queue, metrics, some (.item item _)) =>
      { watched with queue := queue, metrics := metrics, popped := watched.popped ++ [item] }
    | (queue, metrics, some (.release _)) =>
      match queue.reopen metrics with
      | (queue, metrics, true) =>
        { watched with
          queue := queue, metrics := metrics, releaseQueued := false, outstanding := none, crossings := 0 }
      | (queue, metrics, false) => { watched with queue := queue, metrics := metrics, outstanding := none }

/-- The items waiting, in order. -/
def waiting (watched : Watched Item) : List Item := CallQueue.itemsOf watched.queue.entries

/-- What holds of a queue between any two operations. -/
structure InOrder (watched : Watched Item) : Prop where
  /-- What was queued is what was popped, in that order, and then what waits. -/
  fifo : watched.queued = watched.popped ++ watched.waiting
  /-- As many pops as there are entries take every item queued, and the release if there is one. -/
  drained : ((List.replicate watched.queue.entries.length .pop).foldl step watched).popped = watched.queued ∧
    ((List.replicate watched.queue.entries.length .pop).foldl step watched).outstanding = none
  /-- An offered item is queued, or the same item is handed back with a reason. -/
  answered : ∀ item cls, (watched.queue.offer watched.metrics item cls).2.2.outcome = .queued ∨
    ∃ why owed, (watched.queue.offer watched.metrics item cls).2.2.outcome = .discarded item why owed
  /-- From a release to its pop, no new call is popped. -/
  heldBack : watched.outstanding.isSome →
    ∀ item cls, (watched.queue.pop watched.metrics).2.2 = some (.item item cls) → cls.isNewCall = false
  /-- The release popped is the one outstanding, and leaves nothing, or a new call first. -/
  leftBehind : ∀ removal, (watched.queue.pop watched.metrics).2.2 = some (.release removal) →
    watched.outstanding = some removal ∧ CallQueue.BeginsNewCall (watched.queue.pop watched.metrics).1.entries
  /-- What always has room is handed back only behind a release no new call waits behind. -/
  alwaysRoom : ∀ item cls why owed, cls.row.room = .always →
    (watched.queue.offer watched.metrics item cls).2.2.outcome = .discarded item why owed →
    (∃ removal, why = .released removal) ∧ watched.releaseQueued = true ∧ CallQueue.NoNewCall watched.queue.entries
  /-- The lifetime cap is crossed at most once since the queue last opened. -/
  crossedOnce : watched.crossings ≤ 1

/-- What every operation keeps. -/
structure Kept (watched : Watched Item) : Prop where
  shape : watched.queue.Shape
  fifo : watched.queued = watched.popped ++ watched.waiting
  releaseQueued : watched.releaseQueued = watched.queue.released.isSome
  outstanding : ∀ removal, watched.outstanding = some removal ↔ .release removal ∈ watched.queue.entries
  crossings : watched.crossings = watched.queue.capped.toNat

variable {watched : Watched Item}

theorem Kept.offer (kept : Kept watched) (item : Item) (cls : DispatchClass) :
    Kept (watched.step (.offer item cls)) := by
  have shape := kept.shape.offer watched.metrics item cls
  obtain ⟨counts, placed⟩ := CallQueue.offer_moves watched.queue watched.metrics item cls
  simp only [step]
  generalize watched.queue.offer watched.metrics item cls = result at shape counts placed ⊢
  refine ⟨shape, ?_, ?_, ?_, ?_⟩
  · generalize result.2.2.outcome = outcome at placed ⊢
    cases placed with
    | queued entries _ _ => simp [waiting, entries, kept.fifo]
    | discarded why owed entries _ _ =>
      simp only [waiting, entries]
      exact kept.fifo
  · rw [counts.released]
    exact kept.releaseQueued
  · intro removal
    rw [kept.outstanding]
    generalize result.2.2.outcome = outcome at placed
    cases placed with
    | queued entries _ _ => simp [entries]
    | discarded _ _ entries _ _ => rw [entries]
  · rw [counts.capped, kept.crossings]
    cases crossed : result.2.2.crossedLifetimeCap with
    | false => simp
    | true => simp [counts.crossing crossed]

theorem Kept.release (kept : Kept watched) (removal : RemovalClass) : Kept (watched.step (.release removal)) := by
  have shape := kept.shape.release watched.metrics removal
  cases isReleased : watched.queue.released with
  | some first =>
    have again := CallQueue.release_again watched.queue watched.metrics removal (by rw [isReleased]; rfl)
    rw [again] at shape
    have queued : watched.releaseQueued = true := by rw [kept.releaseQueued, isReleased]; rfl
    simp only [step, again, queued, if_true]
    exact ⟨shape, kept.fifo, by rw [isReleased]; rfl, kept.outstanding, kept.crossings⟩
  | none =>
    obtain ⟨released, _, capped, entries, _⟩ :=
      CallQueue.release_moves watched.queue watched.metrics removal isReleased
    have unqueued : watched.releaseQueued = false := by rw [kept.releaseQueued, isReleased]; rfl
    simp only [step, unqueued, Bool.false_eq_true, if_false]
    refine ⟨shape, ?_, by rw [released]; rfl, fun later => ?_, by rw [capped]; exact kept.crossings⟩
    · rw [waiting, entries, CallQueue.itemsOf_cut]
      exact kept.fifo
    · rw [entries, List.perm_middle.mem_iff, CallQueue.ahead_append_behind, List.mem_cons]
      simp [kept.shape.noRelease isReleased later, eq_comm]

/-- A pop hands out the oldest entry. -/
theorem Kept.pop (kept : Kept watched) : Kept (watched.step .pop) := by
  cases entries : watched.queue.entries with
  | nil =>
    simp only [step, CallQueue.pop_empty entries]
    exact ⟨kept.shape, kept.fifo, kept.releaseQueued, kept.outstanding, kept.crossings⟩
  | cons front rest =>
    obtain ⟨shape, left, -⟩ := kept.shape.pop watched.metrics entries
    obtain ⟨queue, metrics, isPopped, popped, released, -, -, capped⟩ :=
      CallQueue.pop_moves watched.queue watched.metrics entries
    have fifo := kept.fifo
    rw [waiting, entries] at fifo
    rw [isPopped] at shape
    cases front with
    | item item cls =>
      simp only [step, isPopped, CallQueue.handed]
      refine ⟨shape, ?_, ?_, fun removal => ?_, ?_⟩
      · simpa [waiting, popped] using fifo
      · exact kept.releaseQueued.trans (congrArg Option.isSome released).symm
      · simp [kept.outstanding, entries, popped]
      · exact kept.crossings.trans (congrArg Bool.toNat capped).symm
    | release removal =>
      have noRelease : CallQueue.NoRelease queue.entries := popped ▸ (left removal rfl).1
      have reopened := shape.reopen metrics noRelease
      by_cases empty : queue.entries = []
      · simp only [step, isPopped, CallQueue.handed, CallQueue.reopen_empty queue metrics empty]
        refine ⟨shape, ?_, ?_, by simp [empty], ?_⟩
        · simpa [waiting, popped] using fifo
        · exact kept.releaseQueued.trans (congrArg Option.isSome released).symm
        · exact kept.crossings.trans (congrArg Bool.toNat capped).symm
      · obtain ⟨next, nextMetrics, isReopened, same, isReleased, -, -, isCapped⟩ :=
          CallQueue.reopen_moves queue metrics empty
        rw [isReopened] at reopened
        simp only [step, isPopped, CallQueue.handed, isReopened]
        refine ⟨reopened, ?_, ?_, fun later => ?_, ?_⟩
        · simpa [waiting, same, popped] using fifo
        · exact (congrArg Option.isSome isReleased).symm
        · simpa [same] using noRelease later
        · exact (congrArg Bool.toNat isCapped).symm

/-- Every operation keeps the order and the books. -/
theorem Kept.step (kept : Kept watched) (operation : Operation Item) : Kept (watched.step operation) := by
  cases operation with
  | offer item cls => exact kept.offer item cls
  | release removal => exact kept.release removal
  | pop => exact kept.pop

theorem new_kept (limits : Limits) : Kept (new limits : Watched Item) :=
  ⟨.open rfl rfl nofun, rfl, rfl, by simp [new, CallQueue.new], rfl⟩

theorem Kept.run (kept : Kept watched) (operations : List (Operation Item)) :
    Kept (operations.foldl Watched.step watched) := by
  induction operations generalizing watched with
  | nil => exact kept
  | cons operation operations ih => exact ih (kept.step operation)

/-- A pop takes one entry and queues nothing. -/
theorem pop_shrinks :
    (watched.step .pop).queue.entries.length = watched.queue.entries.length - 1 ∧
      (watched.step .pop).queued = watched.queued := by
  cases entries : watched.queue.entries with
  | nil =>
    simp only [step, CallQueue.pop_empty entries]
    exact ⟨by rw [entries]; rfl, trivial⟩
  | cons front rest =>
    obtain ⟨queue, metrics, isPopped, popped, -⟩ := CallQueue.pop_moves watched.queue watched.metrics entries
    cases front with
    | item item cls =>
      simp only [step, isPopped, CallQueue.handed]
      exact ⟨congrArg List.length popped, trivial⟩
    | release removal =>
      by_cases empty : queue.entries = []
      · simp only [step, isPopped, CallQueue.handed, CallQueue.reopen_empty queue metrics empty]
        exact ⟨congrArg List.length popped, trivial⟩
      obtain ⟨next, nextMetrics, isReopened, same, -⟩ := CallQueue.reopen_moves queue metrics empty
      simp only [step, isPopped, CallQueue.handed, isReopened]
      exact ⟨congrArg List.length (same.trans popped), trivial⟩

/-- Popped to the end, everything queued has come out in order. -/
theorem Kept.drained (kept : Kept watched) {pops : ℕ} (enough : watched.queue.entries.length ≤ pops) :
    ((List.replicate pops .pop).foldl Watched.step watched).popped = watched.queued ∧
      ((List.replicate pops .pop).foldl Watched.step watched).outstanding = none := by
  induction pops generalizing watched with
  | zero =>
    have empty : watched.queue.entries = [] := List.length_eq_zero_iff.1 (Nat.le_zero.1 enough)
    have fifo := kept.fifo
    rw [waiting, empty] at fifo
    refine ⟨by simpa using fifo.symm, Option.eq_none_iff_forall_ne_some.2 fun removal isOutstanding => ?_⟩
    have member := (kept.outstanding removal).1 isOutstanding
    rw [empty] at member
    cases member
  | succ pops ih =>
    obtain ⟨shorter, same⟩ := pop_shrinks
    rw [List.replicate_succ, List.foldl_cons, ← same]
    exact ih kept.pop (by omega)

/-- A class with room always is refused only behind a release. -/
theorem Kept.alwaysRoom (kept : Kept watched) {why : Discard} {owed : Owed} (always : cls.row.room = .always)
    (handedBack : (watched.queue.offer watched.metrics item cls).2.2.outcome = .discarded item why owed) :
    (∃ removal, why = .released removal) ∧ watched.releaseQueued = true ∧
      CallQueue.NoNewCall watched.queue.entries := by
  have placed := (CallQueue.offer_moves watched.queue watched.metrics item cls).2
  rw [handedBack] at placed
  cases placed with
  | discarded _ _ _ _ onlyReleased =>
    obtain ⟨removal, isReleased, released, noNext⟩ := onlyReleased always
    refine ⟨⟨removal, isReleased⟩, kept.releaseQueued.trans (by rw [released]; rfl), ?_⟩
    cases kept.shape with
    | «open» unreleased => cases released.symm.trans unreleased
    | taken _ _ _ nextCall =>
      rw [nextCall noNext]
      exact nofun
    | releasing _ ahead behind _ entries _ aheadOld _ _ nextCall =>
      obtain rfl : behind = [] := by simpa [nextCall] using noNext
      rw [entries]
      intro entry member
      rcases List.mem_append.1 member with front | last
      · exact aheadOld entry front
      obtain rfl := List.mem_singleton.1 last
      rfl

theorem answered (watched : Watched Item) (item : Item) (cls : DispatchClass) :
    (watched.queue.offer watched.metrics item cls).2.2.outcome = .queued ∨
      ∃ why owed, (watched.queue.offer watched.metrics item cls).2.2.outcome = .discarded item why owed := by
  have placed := (CallQueue.offer_moves watched.queue watched.metrics item cls).2
  generalize (watched.queue.offer watched.metrics item cls).2.2.outcome = outcome at placed ⊢
  cases placed with
  | queued => exact .inl rfl
  | discarded why owed => exact .inr ⟨why, owed, rfl⟩

end Watched

/-- Over every sequence of offers, releases and pops: first in, first out, each offered item handed back at
    once or popped exactly once, the next call held behind the release, and the lifetime cap crossed once at
    most. -/
theorem queue_in_order (limits : Limits) (operations : List (Operation Item)) :
    (operations.foldl Watched.step (Watched.new limits)).InOrder := by
  have kept := (Watched.new_kept limits).run operations
  generalize operations.foldl Watched.step (Watched.new limits) = watched at kept
  refine ⟨kept.fifo, kept.drained le_rfl, Watched.answered watched, ?_, ?_, ?_, ?_⟩
  · intro outstanding item cls popped
    obtain ⟨removal, isOutstanding⟩ := Option.isSome_iff_exists.1 outstanding
    cases entries : watched.queue.entries with
    | nil =>
      rw [CallQueue.pop_empty entries] at popped
      cases popped
    | cons front rest =>
      obtain ⟨-, -, quiet⟩ := kept.shape.pop watched.metrics entries
      obtain ⟨_, _, isPopped, -⟩ := CallQueue.pop_moves watched.queue watched.metrics entries
      rw [isPopped] at popped
      cases front with
      | release removal => cases popped
      | item first firstClass =>
        cases popped
        exact quiet ⟨removal, (kept.outstanding removal).1 isOutstanding⟩
  · intro removal popped
    cases entries : watched.queue.entries with
    | nil =>
      rw [CallQueue.pop_empty entries] at popped
      cases popped
    | cons front rest =>
      obtain ⟨-, left, -⟩ := kept.shape.pop watched.metrics entries
      obtain ⟨_, _, isPopped, isRest, -⟩ := CallQueue.pop_moves watched.queue watched.metrics entries
      rw [isPopped] at popped ⊢
      cases front with
      | item item cls => cases popped
      | release first =>
        cases popped
        exact ⟨(kept.outstanding removal).2 (entries ▸ List.mem_cons_self), isRest ▸ (left removal rfl).2⟩
  · exact fun _ _ _ _ always handedBack => kept.alwaysRoom always handedBack
  · rw [kept.crossings]
    exact Bool.toNat_le _

/-- A call is released with the next one queued: what is ahead runs, then the release, then the next call. -/
theorem next_call_waits_for_release :
    let operations : List (Operation ℕ) :=
  [.offer 1 .initialInvite, .pop, .offer 2 .otherRequest, .offer 3 .initialInvite,
      .release .terminated, .offer 4 .timer, .release .orphan]
    let released := operations.foldl Watched.step (Watched.new ⟨2, 100⟩)
    released.outstanding = some .terminated ∧ (released.step .pop).popped = [1, 2] ∧
      (released.step .pop).outstanding = some .terminated ∧ ((released.step .pop).step .pop).outstanding = none ∧
      ((released.step .pop).step .pop).waiting = [3, 4] ∧
      ((List.replicate 4 .pop).foldl Watched.step released).popped = [1, 2, 3, 4] := by
  intro operations released
  exact ⟨by decide, by decide, by decide, by decide, by decide, (queue_in_order ⟨2, 100⟩ operations).drained.1⟩

end SipServer.Dispatch
