/-
Module: SipServer.Proofs.CallOverflow
Purpose: A queue's overflow is counted exactly. Over every sequence of offers, releases, pops and reopens the
  `waiting` count is the number of past-bounds items beyond the depth, the gauge is the number of entries
  there, and a release cutting in is worth one item over the ceiling and no more.
-/
import SipServer.Proofs.CallQueue

namespace SipServer.Dispatch

variable {Item : Type}

namespace Entry

def isRelease : Entry Item → Bool
  | .item _ _ => false
  | .release _ => true

def isPastBounds (entry : Entry Item) : Bool := decide (entry.room = .pastBounds)

end Entry

namespace CallQueue

variable {queue : CallQueue Item} {metrics : B2buaMetrics} {front : Entry Item} {entries rest : List (Entry Item)}

/-- The past-bounds items at positions at or beyond the depth. -/
def overflowing (depth : ℕ) (entries : List (Entry Item)) : ℕ := (entries.drop depth).countP Entry.isPastBounds

/-- The releases queued. -/
def releases (entries : List (Entry Item)) : ℕ := entries.countP Entry.isRelease

/-- The entries as if no release were queued. -/
def unreleased (entries : List (Entry Item)) : List (Entry Item) := entries.filter fun entry => !entry.isRelease

/-! ### Counting beyond the depth -/

/-- One more place in the queue proper takes one entry out of the overflow. -/
theorem overflowing_succ (depth : ℕ) (entries : List (Entry Item)) :
    overflowing depth entries =
      overflowing (depth + 1) entries + (entries[depth]?.any Entry.isPastBounds).toNat := by
  simp only [overflowing]
  by_cases within : depth < entries.length
  · rw [List.drop_eq_getElem_cons within, List.countP_cons, List.getElem?_eq_getElem within]
    cases isPast : entries[depth].isPastBounds <;> simp [isPast]
  · rw [List.drop_eq_nil_of_le (by omega), List.drop_eq_nil_of_le (by omega), List.getElem?_eq_none (by omega)]
    rfl

/-- An entry pushed beyond the depth is in the overflow. -/
theorem overflowing_append (depth : ℕ) (entries : List (Entry Item)) (entry : Entry Item) :
    overflowing depth (entries ++ [entry]) = overflowing depth entries +
      if depth ≤ entries.length then entry.isPastBounds.toNat else 0 := by
  simp only [overflowing]
  split
  · rename_i full
    rw [List.drop_append_of_le_length full, List.countP_append, List.countP_singleton]
    cases entry.isPastBounds <;> rfl
  · rw [List.drop_eq_nil_of_le (by simp; omega), List.drop_eq_nil_of_le (by omega)]
    rfl

/-- Each release queued moves at most one item into the overflow. -/
theorem overflowing_le (depth : ℕ) (entries : List (Entry Item)) :
    overflowing depth entries ≤ overflowing depth (unreleased entries) + releases entries := by
  induction entries generalizing depth with
  | nil => simp [overflowing]
  | cons entry entries inductionHypothesis =>
    cases entry with
    | item item cls =>
      cases depth with
      | zero =>
        have rest := inductionHypothesis 0
        simp only [overflowing, unreleased, releases, List.drop_zero, List.countP_cons, Entry.isRelease,
          List.filter_cons, Bool.not_false, if_true, Bool.false_eq_true, if_false] at rest ⊢
        omega
      | succ depth => simpa [overflowing, unreleased, releases, Entry.isRelease] using inductionHypothesis depth
    | release removal =>
      have counted : releases (.release removal :: entries) = releases entries + 1 := List.countP_cons_of_pos rfl
      have cut : unreleased (.release removal :: entries) = unreleased entries := rfl
      rw [counted, cut]
      cases depth with
      | zero =>
        have rest := inductionHypothesis 0
        have same : overflowing 0 (.release removal :: entries) = overflowing 0 entries := rfl
        omega
      | succ depth =>
        have rest := inductionHypothesis depth
        have moved := overflowing_succ depth (unreleased entries)
        have atMostOne := Bool.toNat_le ((unreleased entries)[depth]?.any Entry.isPastBounds)
        show overflowing depth entries ≤ _
        omega

/-- A release cutting in at `position` moves the last entry of the queue proper into the overflow. -/
theorem overflowing_insertIdx {depth position : ℕ} (removal : RemovalClass) (entries : List (Entry Item))
    (within : position < entries.length) :
    overflowing (depth + 1) (entries.insertIdx position (.release removal)) =
      overflowing (depth + 1) entries +
        if position ≤ depth then (entries[depth]?.any Entry.isPastBounds).toNat else 0 := by
  induction entries generalizing depth position with
  | nil => exact absurd within (Nat.not_lt_zero _)
  | cons entry entries inductionHypothesis =>
    cases position with
    | zero => exact overflowing_succ depth (entry :: entries)
    | succ position =>
      have within : position < entries.length := Nat.lt_of_succ_lt_succ within
      cases depth with
      | zero =>
        have appended : (entries.insertIdx position (.release removal)).countP Entry.isPastBounds =
            entries.countP Entry.isPastBounds := by
          rw [(List.perm_insertIdx _ _ within.le).countP_eq, List.countP_cons]
          rfl
        simpa [overflowing] using appended
      | succ depth => simpa [overflowing] using inductionHypothesis within

/-! ### What each operation does to the books -/

/-- What an offer to a queue of these entries does to the overflow's books. -/
inductive Entered (entries : List (Entry Item)) (depth waiting : ℕ) (gauge : ℤ) (entry : Entry Item) :
    List (Entry Item) → ℕ → ℤ → Prop where
  | handedBack : Entered entries depth waiting gauge entry entries waiting gauge
  | within (room : entries.length < depth) :
      Entered entries depth waiting gauge entry (entries ++ [entry]) waiting gauge
  | beyond (full : depth ≤ entries.length) (ceiling : entry.isPastBounds = true → waiting < depth) :
      Entered entries depth waiting gauge entry (entries ++ [entry]) (waiting + entry.isPastBounds.toNat) (gauge + 1)

section

variable (queue) (metrics) (item : Item) (cls : DispatchClass)

theorem makeRoom_entered (nextCall crossed : Bool) :
    let done := queue.makeRoom metrics item cls nextCall crossed
    Entered queue.entries queue.limits.depth queue.waiting metrics.overflowDepth (.item item cls) done.1.entries
      done.1.waiting done.2.1.overflowDepth := by
  have beyond := @Entered.beyond Item queue.entries queue.limits.depth queue.waiting metrics.overflowDepth
    (.item item cls)
  simp only [makeRoom]
  split
  · rename_i full
    split
    · split <;> exact .handedBack
    · rename_i past
      rw [show (Entry.item item cls).isPastBounds = true from decide_eq_true past] at beyond
      split
      · exact .handedBack
      · rename_i below
        exact beyond full fun _ => Nat.lt_of_not_le below
    · rename_i always
      rw [show (Entry.item item cls).isPastBounds = false
        from decide_eq_false (by simp [Entry.room, always])] at beyond
      exact beyond full (by simp)
  · rename_i room
    exact .within (Nat.lt_of_not_le room)

theorem place_entered (crossed : Bool) :
    let done := queue.place metrics item cls crossed
    Entered queue.entries queue.limits.depth queue.waiting metrics.overflowDepth (.item item cls) done.1.entries
      done.1.waiting done.2.1.overflowDepth := by
  simp only [place]
  split
  · split <;> exact .handedBack
  · split
    · split <;> exact .handedBack
    · exact makeRoom_entered ..

theorem noteNearCap_gauge : (queue.noteNearCap metrics).2.overflowDepth = metrics.overflowDepth := by
  unfold noteNearCap
  split <;> rfl

theorem offer_entered :
    let done := queue.offer metrics item cls
    Entered queue.entries queue.limits.depth queue.waiting metrics.overflowDepth (.item item cls) done.1.entries
      done.1.waiting done.2.1.overflowDepth := by
  have placed := place_entered ((queue.countOffer metrics cls).1.countNext cls)
    (queue.countOffer metrics cls).2.1 item cls
    (queue.countOffer metrics cls).2.2
  obtain ⟨nextOffered, next⟩ := @countNext_queue Item (queue.countOffer metrics cls).1 cls
  obtain ⟨counted, entries, -⟩ := countOffer_counted queue metrics cls
  have same : (queue.countOffer metrics cls).1.waiting = queue.waiting ∧
      (queue.countOffer metrics cls).2.1.overflowDepth = metrics.overflowDepth := by
    unfold countOffer
    split
    · exact ⟨by simp [count], noteNearCap_gauge ..⟩
    · exact ⟨rfl, rfl⟩
  rw [congrArg CallQueue.entries next, congrArg CallQueue.waiting next, congrArg CallQueue.limits next] at placed
  rwa [entries, same.1, counted.limits, same.2] at placed

end

/-- The overflow's books exact over a gauge that stood at `idle`, and within the ceiling but for the releases
    queued. -/
structure Booked (idle : ℤ) (depth : ℕ) (entries : List (Entry Item)) (waiting : ℕ) (gauge : ℤ) : Prop where
  waiting : waiting = overflowing depth entries
  ceiling : overflowing depth (unreleased entries) ≤ depth
  gauge : gauge = idle + (entries.length - depth : ℕ)

variable {idle gauge after : ℤ} {depth below waiting counted : ℕ}

theorem Booked.offer {item : Item} {cls : DispatchClass} {later : List (Entry Item)}
    (booked : Booked idle depth entries waiting gauge)
    (entered : Entered entries depth waiting gauge (.item item cls) later counted after) :
    Booked idle depth later counted after ∧ releases later = releases entries := by
  have fewer : overflowing depth (unreleased entries) ≤ overflowing depth entries :=
    (List.filter_sublist.drop depth).countP_le
  have shorter : (unreleased entries).length ≤ entries.length := List.length_filter_le ..
  have pushed : unreleased (entries ++ [.item item cls]) = unreleased entries ++ [.item item cls] :=
    List.filter_append ..
  have same : releases (entries ++ [.item item cls]) = releases entries := by simp [releases, Entry.isRelease]
  obtain ⟨isWaiting, ceiling, isGauge⟩ := booked
  cases entered with
  | handedBack => exact ⟨⟨isWaiting, ceiling, isGauge⟩, rfl⟩
  | within room =>
    refine ⟨⟨?_, ?_, ?_⟩, same⟩
    · rw [overflowing_append, if_neg (by omega), Nat.add_zero, isWaiting]
    · rw [pushed, overflowing_append, if_neg (by omega)]
      exact ceiling
    · rw [isGauge, List.length_append, List.length_singleton]
      omega
  | beyond full below =>
    refine ⟨⟨?_, ?_, ?_⟩, same⟩
    · rw [overflowing_append, if_pos full, isWaiting]
    · rw [pushed, overflowing_append]
      cases isPast : (Entry.item item cls).isPastBounds with
      | false => simpa using ceiling
      | true =>
        have room := below isPast
        rw [Bool.toNat_true]
        split <;> omega
    · rw [isGauge, List.length_append, List.length_singleton]
      omega

/-- A release that cuts in counts what it moves into the overflow. -/
theorem release_waiting (metrics : B2buaMetrics) (removal : RemovalClass) (isDepth : queue.limits.depth = below + 1)
    (isOpen : queue.released = none) (counted : queue.waiting = overflowing (below + 1) queue.entries) :
    let after := (queue.release metrics removal).1
    after.waiting = overflowing (below + 1) after.entries := by
  simp only [release, isOpen, Option.isSome_none, Bool.false_eq_true, if_false, isDepth, Nat.add_sub_cancel, counted]
  split
  · show _ = overflowing _ (queue.entries ++ [.release removal])
    rw [overflowing_append]
    split <;> rfl
  rename_i position first
  have within : position < queue.entries.length := (List.findIdx?_eq_some_iff_getElem.1 first).1
  show _ = overflowing _ (queue.entries.insertIdx position (.release removal))
  rw [overflowing_insertIdx removal queue.entries within]
  cases last : queue.entries[below]? with
  | none => simp
  | some entry =>
    have full : below + 1 ≤ queue.entries.length := (List.getElem?_eq_some_iff.1 last).1
    simp only [Nat.lt_add_one_iff]
    by_cases proper : position ≤ below <;> by_cases past : entry.room = .pastBounds <;>
      simp [Entry.isPastBounds, past, proper, full]

/-- It raises the gauge where the queue is full. -/
theorem release_gauge (metrics : B2buaMetrics) (removal : RemovalClass) (isOpen : queue.released = none) :
    (queue.release metrics removal).2.overflowDepth =
      metrics.overflowDepth + if queue.limits.depth ≤ queue.entries.length then 1 else 0 := by
  simp only [release, isOpen, Option.isSome_none, Bool.false_eq_true, if_false]
  by_cases full : queue.limits.depth ≤ queue.entries.length <;> simp only [full, if_true, if_false] <;> split
  · rfl
  · rfl
  · exact (Int.add_zero _).symm
  · exact (Int.add_zero _).symm

theorem Booked.release (removal : RemovalClass) (isDepth : queue.limits.depth = below + 1)
    (isOpen : queue.released = none)
    (booked : Booked idle (below + 1) queue.entries queue.waiting metrics.overflowDepth) :
    let after := queue.release metrics removal
    Booked idle (below + 1) after.1.entries after.1.waiting after.2.overflowDepth ∧
      releases after.1.entries = releases queue.entries + 1 := by
  have waiting := release_waiting metrics removal isDepth isOpen booked.waiting
  have up := release_gauge metrics removal isOpen
  obtain ⟨-, -, -, cut, -⟩ := release_moves queue metrics removal isOpen
  simp only at waiting ⊢
  rw [cut] at waiting ⊢
  have whole : queue.entries = aheadOfRelease queue.entries ++ behindRelease queue.entries := ahead_append_behind.symm
  generalize aheadOfRelease queue.entries = ahead, behindRelease queue.entries = behind at whole waiting
  obtain ⟨-, ceiling, isGauge⟩ := booked
  rw [whole] at ceiling isGauge up ⊢
  refine ⟨⟨waiting, ?_, ?_⟩, ?_⟩
  · simpa [unreleased, Entry.isRelease] using ceiling
  · rw [up, isGauge, isDepth]
    simp only [List.length_append, List.length_cons]
    split <;> omega
  · rw [releases, List.countP_append, List.countP_cons_of_pos rfl, ← Nat.add_assoc, ← List.countP_append]
    rfl

/-- A pop counts out what it moves into the queue proper. -/
theorem pop_books (metrics : B2buaMetrics) (entries : queue.entries = front :: rest)
    (isDepth : queue.limits.depth = below + 1) :
    (queue.pop metrics).1.waiting = queue.waiting - (rest[below]?.any Entry.isPastBounds).toNat ∧
      (queue.pop metrics).2.1.overflowDepth = metrics.overflowDepth - rest[below]?.isSome.toNat := by
  have moved : rest[queue.limits.depth - 1]? = rest[below]? := by rw [isDepth, Nat.add_sub_cancel]
  cases oldest : rest[below]? with
  | none =>
    cases front <;> simp [pop, entries, moved, oldest]
    split <;> rfl
  | some entry =>
    by_cases past : entry.room = .pastBounds <;> cases front <;> simp_all [pop, Entry.isPastBounds]
    all_goals split <;> rfl

/-- A pop moves the overflow's oldest entry into the queue proper. -/
theorem Booked.pop (entries : queue.entries = front :: rest) (isDepth : queue.limits.depth = below + 1)
    (booked : Booked idle (below + 1) queue.entries queue.waiting metrics.overflowDepth) :
    let after := queue.pop metrics
    Booked idle (below + 1) rest after.1.waiting after.2.1.overflowDepth := by
  obtain ⟨isWaiting, ceiling, isGauge⟩ := booked
  obtain ⟨waiting, gauge⟩ := pop_books metrics entries isDepth
  rw [entries] at isWaiting ceiling isGauge
  have moved := overflowing_succ below rest
  refine ⟨?_, le_trans ?_ ceiling, ?_⟩
  · have same : overflowing (below + 1) (front :: rest) = overflowing below rest := rfl
    simp only [waiting, isWaiting]
    omega
  · exact (((List.sublist_cons_self front rest).filter _).drop _).countP_le
  · simp only [gauge, isGauge, List.length_cons]
    by_cases inside : below < rest.length
    · simp only [List.getElem?_eq_getElem inside, Option.isSome_some, Bool.toNat_true]
      omega
    · simp only [List.getElem?_eq_none (Nat.le_of_not_lt inside), Option.isSome_none, Bool.toNat_false]
      omega

theorem reopen_books (queue : CallQueue Item) (metrics : B2buaMetrics) :
    let after := queue.reopen metrics
    after.1.entries = queue.entries ∧ after.1.limits = queue.limits ∧ after.1.waiting = queue.waiting ∧
      after.2.1.overflowDepth = metrics.overflowDepth := by
  unfold reopen
  split
  · exact ⟨rfl, rfl, rfl, rfl⟩
  · refine ⟨?_, ?_, ?_, noteNearCap_gauge ..⟩ <;> rw [noteNearCap_queue]

end CallQueue

/-! ### Runs -/

/-- What is done to a queue by its dispatcher and by its worker. -/
inductive QueueCall (Item : Type) where
  | offer (item : Item) (cls : DispatchClass)
  | release (removal : RemovalClass)
  | pop
  | reopen
deriving Repr, DecidableEq

/-- A queue in use. The observer notes whether the worker took the release and opened no queue on what it
    left since, and whether a next queue was ever opened early, with no release taken. -/
structure InUse (Item : Type) where
  queue : CallQueue Item
  metrics : B2buaMetrics
  taken : Bool
  early : Bool

namespace InUse

open CallQueue

def new (limits : Limits) (metrics : B2buaMetrics) : InUse Item := ⟨CallQueue.new limits, metrics, false, false⟩

/-- One call. Offers and releases land at any time, also between the worker's taking a release and its
    reopening. -/
def step (use : InUse Item) : QueueCall Item → InUse Item
  | .offer item cls =>
    let done := use.queue.offer use.metrics item cls
    { use with queue := done.1, metrics := done.2.1 }
  | .release removal =>
    let done := use.queue.release use.metrics removal
    { use with queue := done.1, metrics := done.2 }
  | .pop =>
    let done := use.queue.pop use.metrics
    { use with queue := done.1, metrics := done.2.1, taken := use.taken || done.2.2 matches some (.release _) }
  | .reopen =>
    let done := use.queue.reopen use.metrics
    { queue := done.1
      metrics := done.2.1
      taken := use.taken && !done.2.2
      early := use.early || done.2.2 && !use.taken }

/-- What every call keeps: the books, and, while no queue was opened early, one release at most, queued or
    taken, of a released queue. -/
structure Sound (idle : ℤ) (below : ℕ) (use : InUse Item) : Prop where
  depth : use.queue.limits.depth = below + 1
  booked : Booked idle (below + 1) use.queue.entries use.queue.waiting use.metrics.overflowDepth
  held : use.early = false → releases use.queue.entries + use.taken.toNat ≤ use.queue.released.isSome.toNat

namespace Sound

variable {idle : ℤ} {below : ℕ} {use : InUse Item} (sound : Sound idle below use)

include sound

theorem offer (item : Item) (cls : DispatchClass) : Sound idle below (use.step (.offer item cls)) := by
  have moves := (offer_moves use.queue use.metrics item cls).1
  obtain ⟨offered, same⟩ := sound.booked.offer (sound.depth ▸ offer_entered use.queue use.metrics item cls)
  refine ⟨moves.limits ▸ sound.depth, offered, ?_⟩
  simp only [InUse.step, same, moves.released]
  exact sound.held

theorem release (removal : RemovalClass) : Sound idle below (use.step (.release removal)) := by
  cases isReleased : use.queue.released with
  | some first =>
    simp only [InUse.step, release_again use.queue use.metrics removal (by rw [isReleased]; rfl)]
    exact sound
  | none =>
    obtain ⟨released, limits, -⟩ := release_moves use.queue use.metrics removal isReleased
    obtain ⟨cut, more⟩ := sound.booked.release removal sound.depth isReleased
    refine ⟨limits ▸ sound.depth, cut, fun onTime => ?_⟩
    have held := sound.held onTime
    simp only [InUse.step, more, released, isReleased, Option.isSome_some, Option.isSome_none, Bool.toNat_true,
      Bool.toNat_false] at held ⊢
    omega

theorem pop : Sound idle below (use.step .pop) := by
  cases entries : use.queue.entries with
  | nil =>
    simp only [InUse.step, pop_empty entries, Bool.or_false]
    exact sound
  | cons front rest =>
    have popped := sound.booked.pop entries sound.depth
    obtain ⟨after, metrics, isPopped, isRest, released, -, limits, -⟩ := pop_moves use.queue use.metrics entries
    simp only [InUse.step, isPopped] at popped ⊢
    refine ⟨limits ▸ sound.depth, isRest ▸ popped, fun onTime => ?_⟩
    have held := sound.held onTime
    simp only [isRest, released]
    rw [entries] at held
    cases front with
    | item item cls => simpa [releases, Entry.isRelease, handed] using held
    | release removal =>
      -- The one release there was is taken.
      rw [releases, List.countP_cons_of_pos rfl] at held
      rw [handed, Bool.or_true, Bool.toNat_true]
      exact (Nat.le_add_right _ _).trans held

theorem reopen : Sound idle below (use.step .reopen) := by
  obtain ⟨entries, limits, waiting, gauge⟩ := reopen_books use.queue use.metrics
  refine ⟨limits ▸ sound.depth, ?_, ?_⟩
  · simp only [InUse.step, entries, waiting, gauge]
    exact sound.booked
  by_cases empty : use.queue.entries = []
  · simpa [InUse.step, reopen_empty use.queue use.metrics empty] using sound.held
  · obtain ⟨after, metrics, isReopened, isEntries, released, -⟩ := reopen_moves use.queue use.metrics empty
    simp only [InUse.step, isReopened, isEntries, released, Bool.true_and, Bool.or_eq_false_iff, Bool.not_eq_false']
    -- The release is taken, so none is queued.
    rintro ⟨onTime, taken⟩
    have held := sound.held onTime
    have atMost := Bool.toNat_le use.queue.released.isSome
    rw [taken, Bool.toNat_true] at held
    simp only [taken, Bool.not_true, Bool.and_false, Bool.toNat_false]
    omega

theorem step (call : QueueCall Item) : Sound idle below (use.step call) := by
  cases call with
  | offer item cls => exact sound.offer item cls
  | release removal => exact sound.release removal
  | pop => exact sound.pop
  | reopen => exact sound.reopen

/-- Every run keeps the books. -/
theorem run (calls : List (QueueCall Item)) : Sound idle below (calls.foldl InUse.step use) := by
  induction calls generalizing use with
  | nil => exact sound
  | cons call calls inductionHypothesis => exact inductionHypothesis (sound.step call)

end Sound

/-- What holds of a queue's overflow between any two calls. -/
structure Overflow (idle : ℤ) (use : InUse Item) : Prop where
  /-- The count is the past-bounds items beyond the depth. -/
  counted : use.queue.waiting = overflowing use.queue.limits.depth use.queue.entries
  /-- A pop that counts an item out of the overflow finds it counted. -/
  noUnderflow : ∀ front rest moved, use.queue.entries = front :: rest →
    rest[use.queue.limits.depth - 1]? = some moved → moved.room = .pastBounds → 0 < use.queue.waiting
  /-- Each release queued, cutting in, moves one item over the ceiling at most. -/
  ceiling : use.queue.waiting ≤ use.queue.limits.depth + releases use.queue.entries
  /-- Opened only once its release is taken, a queue never holds two releases. -/
  oneRelease : use.early = false → releases use.queue.entries ≤ 1
  /-- The gauge counts the entries beyond the depth. -/
  gauge : use.metrics.overflowDepth = idle + (use.queue.entries.length - use.queue.limits.depth : ℕ)

end InUse

/-- Over every sequence of offers, releases, pops and reopens, from any reading of the gauge: the `waiting`
    count is the number of past-bounds items beyond the depth, no pop takes it below zero, it stays within
    the depth and the releases queued, which are one at most when each reopen follows the pop of a release,
    and the gauge counts the entries beyond the depth. -/
theorem overflow_is_counted (limits : Limits) (metrics : B2buaMetrics) (calls : List (QueueCall Item)) :
    (calls.foldl InUse.step (InUse.new limits metrics)).Overflow metrics.overflowDepth := by
  obtain ⟨below, isDepth⟩ := Nat.exists_eq_add_one.2 (Nat.lt_of_lt_of_le Nat.one_pos (le_max_right limits.depth 1))
  have start : (InUse.new limits metrics : InUse Item).Sound metrics.overflowDepth below :=
    ⟨isDepth, ⟨by simp [InUse.new, CallQueue.new, CallQueue.overflowing],
      by simp [InUse.new, CallQueue.new, CallQueue.overflowing, CallQueue.unreleased],
      by simp [InUse.new, CallQueue.new]⟩, fun _ => le_rfl⟩
  obtain ⟨depth, books, held⟩ := start.run calls
  generalize calls.foldl InUse.step (InUse.new limits metrics) = use at depth books held
  obtain ⟨waiting, ceiling, gauge⟩ := books
  have atMost := CallQueue.overflowing_le (below + 1) use.queue.entries
  refine ⟨depth ▸ waiting, ?_, ?_, ?_, depth ▸ gauge⟩
  · intro front rest moved entries isMoved past
    rw [depth, Nat.add_sub_cancel] at isMoved
    have counted : use.queue.waiting = CallQueue.overflowing below rest := by
      rw [waiting, entries]
      rfl
    have atDepth := CallQueue.overflowing_succ below rest
    simp only [isMoved, Option.any_some, Entry.isPastBounds, past, decide_true, Bool.toNat_true] at atDepth
    omega
  · omega
  · intro onTime
    have within := held onTime
    have one := Bool.toNat_le use.queue.released.isSome
    omega

/-- A queue of depth 2 at its ceiling, and a release that cuts in front of the new call at its head. -/
def cutInAtCeiling : List (QueueCall ℕ) :=
  [.offer 0 .initialInvite, .offer 1 .cancelled, .offer 2 .cancelled, .offer 3 .cancelled, .release .terminated]

/-- It takes the count one over the ceiling. -/
theorem overflow_is_counted_past_ceiling :
    (cutInAtCeiling.foldl InUse.step (.new ⟨2, 100⟩ .new)).queue.waiting = 3 ∧
      (cutInAtCeiling.foldl InUse.step (.new ⟨2, 100⟩ .new)).Overflow 0 :=
  ⟨by decide, overflow_is_counted ⟨2, 100⟩ .new cutInAtCeiling⟩

end SipServer.Dispatch
