/-
Module: SipServer.Proofs.Dispatcher
Purpose: No event lands on a dead queue. Over every interleaving of offers, releases, wake-ups and worker
  steps, a slot that holds an entry is its call's slot in the map and has one worker, a call runs one body at
  a time, and the worker takes what was queued: it is never stuck for good, and so many of its steps take
  every item.
-/
import SipServer.Dispatch.Dispatcher
import SipServer.Lib.Runs
import SipServer.Proofs.CallQueue

namespace SipServer.Dispatch

open SipServer.Lib

namespace Dispatcher

open CallQueue (NoRelease itemsOf)

variable {Item : Type} {dispatcher next : Dispatcher Item} {number : ℕ} {worker : Worker Item}

variable {callRef : String} {cls : DispatchClass} {slot : ℕ} {item : Item} {state : WorkerState Item}
  {outcome : Outcome Item} {queue : CallQueue Item} {removal : RemovalClass} {permits : Permits}

/-! ### The invariant of a slot and its worker -/

/-- What holds between a worker and the slot it works. -/
structure Tends (dispatcher : Dispatcher Item) (number : ℕ) (worker : Worker Item) : Prop where
  slot : worker.slot = number
  created : number < dispatcher.created
  callRef : worker.callRef = (dispatcher.heap number).callRef
  shape : (dispatcher.heap number).queue.Shape
  fifo : (dispatcher.heap number).queued = worker.popped ++ itemsOf (dispatcher.heap number).queue.entries
  mapped : worker.state ≠ .left ↔ dispatcher.slots.get worker.callRef = some number
  leaving : ∀ removal, worker.state = .leaving removal →
    (dispatcher.heap number).queue.released.isSome ∧ NoRelease (dispatcher.heap number).queue.entries
  left : worker.state = .left →
    (dispatcher.heap number).queue.released.isSome ∧ (dispatcher.heap number).queue.entries = []
  awake : worker.state = .waiting → (dispatcher.heap number).queue.entries ≠ [] →
    (dispatcher.heap number).wakePermit = true ∨ number ∈ dispatcher.wakes

/-- What holds between any two critical sections. -/
structure Sound (dispatcher : Dispatcher Item) : Prop where
  tends : dispatcher.workers.Each dispatcher.Tends
  untouched : ∀ slot, dispatcher.workers.get slot = none → (dispatcher.heap slot).queue.entries = []
  mapped : ∀ callRef slot, dispatcher.slots.get callRef = some slot →
    (∃ worker, dispatcher.workers.get slot = some worker) ∧ (dispatcher.heap slot).callRef = callRef
  found : ∀ slot removal, (slot, removal) ∈ dispatcher.releases → ∃ worker, dispatcher.workers.get slot = some worker

/-- A step that changes nothing of any slot but one. -/
structure Touches (dispatcher next : Dispatcher Item) (number : ℕ) : Prop where
  heap : ∀ other, other ≠ number → next.heap other = dispatcher.heap other
  workers : ∀ other, other ≠ number → next.workers.get other = dispatcher.workers.get other
  slots : ∀ callRef other, other ≠ number →
    (next.slots.get callRef = some other ↔ dispatcher.slots.get callRef = some other)
  created : dispatcher.created ≤ next.created
  wakes : ∀ other, other ≠ number → other ∈ dispatcher.wakes → other ∈ next.wakes
  releases : ∀ slot removal, (slot, removal) ∈ next.releases → (slot, removal) ∈ dispatcher.releases

/-- The worker of a slot a step does not touch tends it as before. -/
theorem Tends.elsewhere {other : ℕ} (tends : Tends dispatcher other worker)
    (touches : Touches dispatcher next number) (apart : other ≠ number) : Tends next other worker where
  slot := tends.slot
  created := Nat.lt_of_lt_of_le tends.created touches.created
  callRef := by
    rw [touches.heap other apart]
    exact tends.callRef
  shape := by
    rw [touches.heap other apart]
    exact tends.shape
  fifo := by
    rw [touches.heap other apart]
    exact tends.fifo
  mapped := tends.mapped.trans (touches.slots _ other apart).symm
  leaving := by
    rw [touches.heap other apart]
    exact tends.leaving
  left := by
    rw [touches.heap other apart]
    exact tends.left
  awake := by
    rw [touches.heap other apart]
    exact fun waiting entries => (tends.awake waiting entries).imp_right (touches.wakes other apart)

/-- A step keeps the invariant once the worker of the slot it touches still tends it. -/
theorem Sound.touched (sound : Sound dispatcher) (number : ℕ) (worker : Worker Item)
    (touches : Touches dispatcher next number) (isWorker : next.workers.get number = some worker)
    (tends : Tends next number worker)
    (mapped : ∀ callRef, next.slots.get callRef = some number → (next.heap number).callRef = callRef) :
    Sound next where
  tends := by
    intro other held found
    by_cases same : other = number
    · subst same
      cases isWorker.symm.trans found
      exact tends
    · rw [touches.workers other same] at found
      exact (sound.tends other held found).elsewhere touches same
  untouched := by
    intro slot none
    have apart : slot ≠ number := by
      rintro rfl
      cases isWorker.symm.trans none
    rw [touches.heap slot apart]
    exact sound.untouched slot ((touches.workers slot apart).symm.trans none)
  mapped := by
    intro callRef slot isSlot
    by_cases same : slot = number
    · subst same
      exact ⟨⟨worker, isWorker⟩, mapped callRef isSlot⟩
    · rw [touches.workers slot same, touches.heap slot same]
      exact sound.mapped callRef slot ((touches.slots callRef slot same).1 isSlot)
  found := by
    intro slot removal member
    by_cases same : slot = number
    · subst same
      exact ⟨worker, isWorker⟩
    · rw [touches.workers slot same]
      exact sound.found slot removal (touches.releases slot removal member)

/-! ### Offers -/

theorem mem_wakesFor {other : ℕ} {wakes : List ℕ} (member : other ∈ wakes) :
    other ∈ wakesFor slot outcome wakes := by
  cases outcome with
  | queued => exact List.mem_cons_of_mem _ member
  | discarded => exact member

/-- The live worker of a slot tends it after an offer to its queue. -/
theorem Tends.offered (tends : Tends dispatcher number worker) (live : worker.state ≠ .left)
    (shape : queue.Shape) (released : queue.released = (dispatcher.heap number).queue.released)
    (placed : CallQueue.Placed (dispatcher.heap number).queue item cls queue outcome) (metrics : B2buaMetrics) :
    Tends { dispatcher with
      heap := Function.update dispatcher.heap number ((dispatcher.heap number).noted queue item outcome)
      metrics := metrics
      wakes := wakesFor number outcome dispatcher.wakes } number worker := by
  refine ⟨tends.slot, tends.created, ?_, ?_, ?_, tends.mapped, ?_, fun left => absurd left live, ?_⟩ <;>
    simp only [Function.update_self]
  · exact tends.callRef
  · exact shape
  · cases placed with
    | queued entries => simp [Slot.noted, entries, tends.fifo]
    | discarded _ _ entries =>
      simp only [Slot.noted, entries]
      exact tends.fifo
  · intro removal leaving
    obtain ⟨isReleased, items⟩ := tends.leaving removal leaving
    refine ⟨(congrArg Option.isSome released).trans isReleased, ?_⟩
    cases placed with
    | queued entries =>
      simp only [Slot.noted, entries]
      exact items.append_item
    | discarded _ _ entries =>
      simp only [Slot.noted, entries]
      exact items
  · intro waiting entriesNe
    cases placed with
    | queued => exact .inr List.mem_cons_self
    | discarded _ _ entries =>
      simp only [Slot.noted, entries] at entriesNe
      exact tends.awake waiting entriesNe

theorem Sound.live (sound : Sound dispatcher) (found : dispatcher.slots.get callRef = some slot) :
    ∃ worker, dispatcher.workers.get slot = some worker ∧ Tends dispatcher slot worker ∧ worker.state ≠ .left ∧
      worker.callRef = callRef := by
  obtain ⟨⟨worker, isWorker⟩, isRef⟩ := sound.mapped callRef slot found
  have tends := sound.tends slot worker isWorker
  have sameRef : worker.callRef = callRef := tends.callRef.trans isRef
  exact ⟨worker, isWorker, tends, tends.mapped.2 (sameRef ▸ found), sameRef⟩

theorem Sound.offerKnown (sound : Sound dispatcher) (found : dispatcher.slots.get callRef = some slot) :
    Sound (dispatcher.offer callRef item cls).1 := by
  obtain ⟨worker, isWorker, tends, live, sameRef⟩ := sound.live found
  have shape := tends.shape.offer dispatcher.metrics item cls
  obtain ⟨counts, placed⟩ := CallQueue.offer_moves (dispatcher.heap slot).queue dispatcher.metrics item cls
  simp only [offer, found]
  refine sound.touched slot worker ?_ isWorker (tends.offered live shape counts.released placed _) ?_
  · exact {
      heap := fun other apart => Function.update_of_ne apart _ _
      workers := fun _ _ => rfl
      slots := fun _ _ _ => Iff.rfl
      created := le_rfl
      wakes := fun _ _ member => mem_wakesFor member
      releases := fun _ _ member => member }
  · intro other isSlot
    simp only [Function.update_self]
    exact (sound.mapped other slot isSlot).2

/-- The dispatcher with an empty queue opened for a call, and its worker spawned. -/
def opened (dispatcher : Dispatcher Item) (callRef : String) : Dispatcher Item :=
  { dispatcher with
    slots := dispatcher.slots.insert callRef dispatcher.created
    heap := Function.update dispatcher.heap dispatcher.created ⟨callRef, CallQueue.new dispatcher.limits, false, []⟩
    workers := dispatcher.workers.insert dispatcher.created ⟨callRef, dispatcher.created, .popping, []⟩
    created := dispatcher.created + 1 }

/-- An offer to a call without a queue is refused, or goes to the queue it opens. -/
theorem offer_absent (absent : dispatcher.slots.get callRef = none) :
    (dispatcher.offer callRef item cls).1 = dispatcher ∨
      (dispatcher.offer callRef item cls).1 = ((dispatcher.opened callRef).offer callRef item cls).1 := by
  have known : (dispatcher.opened callRef).slots.get callRef = some dispatcher.created := by
    simp [opened]
  rw [offer.eq_def, offer.eq_def (dispatcher.opened callRef)]
  simp only [absent, known]
  split
  · exact .inl rfl
  refine .inr ?_
  simp [opened, Slot.noted]

theorem Sound.fresh (sound : Sound dispatcher) : dispatcher.workers.get dispatcher.created = none := by
  cases found : dispatcher.workers.get dispatcher.created with
  | none => rfl
  | some worker => exact absurd (sound.tends _ worker found).created (Nat.lt_irrefl _)

theorem Sound.opened (sound : Sound dispatcher) (absent : dispatcher.slots.get callRef = none) :
    Sound (dispatcher.opened callRef) := by
  have fresh := sound.fresh
  have unmapped : ∀ other, dispatcher.slots.get other ≠ some dispatcher.created := by
    intro other isSlot
    obtain ⟨⟨worker, isWorker⟩, -⟩ := sound.mapped other _ isSlot
    cases fresh.symm.trans isWorker
  apply sound.touched dispatcher.created ⟨callRef, dispatcher.created, .popping, []⟩
  · exact {
      heap := fun other apart => Function.update_of_ne apart _ _
      workers := fun other apart => by simp [Dispatcher.opened, apart]
      slots := by
        intro other slot apart
        simp only [Dispatcher.opened, KeyMap.get_insert]
        split
        · rename_i same
          rw [same, absent, Option.some.injEq]
          exact ⟨fun isSlot => absurd isSlot.symm apart, by simp⟩
        · exact Iff.rfl
      created := Nat.le_succ _
      wakes := fun _ _ member => member
      releases := fun _ _ member => member }
  · simp [Dispatcher.opened]
  · refine ⟨rfl, Nat.lt_succ_self _, ?_, ?_, ?_, ?_, by simp, by simp, by simp⟩ <;>
      simp only [Dispatcher.opened, Function.update_self]
    · exact .open rfl rfl (by rintro _ ⟨⟩)
    · rfl
    · simp
  · intro other isSlot
    rcases KeyMap.of_get_insert isSlot with ⟨same, -⟩ | ⟨-, isSlot⟩
    · rw [same]
      simp [Dispatcher.opened]
    · exact absurd isSlot (unmapped other)

theorem Sound.offer (sound : Sound dispatcher) (callRef : String) (item : Item) (cls : DispatchClass) :
    Sound (dispatcher.offer callRef item cls).1 := by
  cases found : dispatcher.slots.get callRef with
  | some slot => exact sound.offerKnown found
  | none =>
    rcases offer_absent found with refused | accepted
    · rw [refused]
      exact sound
    rw [accepted]
    have known : (dispatcher.opened callRef).slots.get callRef = some dispatcher.created := by
      simp [Dispatcher.opened]
    exact (sound.opened found).offerKnown known

/-! ### Releases and wake-ups -/

theorem Sound.find (sound : Sound dispatcher) (found : dispatcher.slots.get callRef = some slot)
    (removal : RemovalClass) :
    Sound { dispatcher with releases := (slot, removal) :: dispatcher.releases } where
  tends := fun number worker isWorker =>
    have tends := sound.tends number worker isWorker
    ⟨tends.slot, tends.created, tends.callRef, tends.shape, tends.fifo, tends.mapped, tends.leaving, tends.left,
      tends.awake⟩
  untouched := sound.untouched
  mapped := sound.mapped
  found := by
    intro other later member
    rcases List.mem_cons.1 member with isFirst | inRest
    · obtain ⟨rfl, rfl⟩ := Prod.mk.inj isFirst
      exact (sound.mapped callRef other found).1
    · exact sound.found other later inRest

/-- A release on a slot its worker left is ignored; on any other it goes where the worker still comes. -/
theorem Sound.releaseOn (sound : Sound dispatcher)
    (member : (slot, removal) ∈ dispatcher.releases) : Sound (dispatcher.releaseOn slot removal) := by
  obtain ⟨worker, isWorker⟩ := sound.found slot removal member
  have tends := sound.tends slot worker isWorker
  have touches : Touches dispatcher (dispatcher.releaseOn slot removal) slot := {
    heap := fun other apart => Function.update_of_ne apart _ _
    workers := fun _ _ => rfl
    slots := fun _ _ _ => Iff.rfl
    created := le_rfl
    wakes := fun _ _ member => List.mem_cons_of_mem _ member
    releases := fun _ _ member => List.mem_of_mem_erase member }
  have sameRef : ((dispatcher.releaseOn slot removal).heap slot).callRef = (dispatcher.heap slot).callRef := by
    simp [Dispatcher.releaseOn]
  have queueEq : ((dispatcher.releaseOn slot removal).heap slot).queue =
      ((dispatcher.heap slot).queue.release dispatcher.metrics removal).1 := by
    simp [Dispatcher.releaseOn]
  have queuedEq : ((dispatcher.releaseOn slot removal).heap slot).queued = (dispatcher.heap slot).queued := by
    simp [Dispatcher.releaseOn]
  refine sound.touched slot worker touches isWorker ?_ fun other isSlot => sameRef.trans
    (sound.mapped other slot isSlot).2
  have shape := tends.shape.release dispatcher.metrics removal
  refine ⟨tends.slot, tends.created, tends.callRef.trans sameRef.symm, queueEq ▸ shape, ?_, tends.mapped, ?_, ?_,
    fun _ _ => .inr List.mem_cons_self⟩
  all_goals rw [queueEq]
  · rw [queuedEq, CallQueue.release_items]
    exact tends.fifo
  · intro later leaving
    have still := tends.leaving later leaving
    rw [CallQueue.release_again _ _ _ still.1]
    exact still
  · intro left
    have still := tends.left left
    rw [CallQueue.release_again _ _ _ still.1]
    exact still

theorem Sound.wake (sound : Sound dispatcher) (slot : ℕ) :
    Sound { dispatcher with
      heap := Function.update dispatcher.heap slot { dispatcher.heap slot with wakePermit := true }
      wakes := dispatcher.wakes.erase slot } := by
  set woken := Function.update dispatcher.heap slot { dispatcher.heap slot with wakePermit := true } with isWoken
  have same : ∀ other, (woken other).callRef = (dispatcher.heap other).callRef ∧
      (woken other).queue = (dispatcher.heap other).queue ∧
        (woken other).queued = (dispatcher.heap other).queued := by
    intro other
    by_cases here : other = slot
    · subst here
      simp [isWoken]
    · simp [isWoken, here]
  refine ⟨fun number worker isWorker => ?_, fun other none => ?_, fun callRef other isSlot => ?_, sound.found⟩
  · have tends := sound.tends number worker isWorker
    obtain ⟨callRef, queue, queued⟩ := same number
    refine ⟨tends.slot, tends.created, tends.callRef.trans callRef.symm, queue ▸ tends.shape, ?_,
      tends.mapped, ?_, ?_, ?_⟩
    · rw [queue, queued]
      exact tends.fifo
    · rw [queue]
      exact tends.leaving
    · rw [queue]
      exact tends.left
    · rw [queue]
      intro waiting entries
      by_cases here : number = slot
      · subst here
        exact .inl (by simp [isWoken])
      · simp only [isWoken, Function.update_of_ne here]
        exact (tends.awake waiting entries).imp_right (List.mem_erase_of_ne here).2
  · rw [(same other).2.1]
    exact sound.untouched other none
  · rw [(same other).1]
    exact sound.mapped callRef other isSlot

/-! ### The worker's steps -/

/-- The state after a worker's step that leaves the map alone. -/
def worked (dispatcher : Dispatcher Item) (number : ℕ) (worker : Worker Item) (queue : CallQueue Item)
    (wakePermit : Bool) (popped : List Item) (state : WorkerState Item) (permits : Permits) (metrics : B2buaMetrics) :
    Dispatcher Item :=
  { dispatcher with
    heap := Function.update dispatcher.heap number
      { dispatcher.heap number with queue := queue, wakePermit := wakePermit }
    permits := permits
    metrics := metrics }.moveTo number { worker with popped := popped } state

/-- Where a popped item's worker waits for its permits. -/
def permitWait (item : Item) (cls : DispatchClass) : WorkerState Item :=
  match cls.row.pool with
  | .newCall => .acquiring item cls
  | .shared => .sharing item cls

/-- What a worker's step does to its slot's queue and wake-up, to what it popped, to its state and to the
    permits. -/
inductive Turn (dispatcher : Dispatcher Item) (number : ℕ) (worker : Worker Item) :
    CallQueue Item → Bool → List Item → WorkerState Item → Permits → Prop where
  | idle (popping : worker.state = .popping) (empty : (dispatcher.heap number).queue.entries = []) :
      Turn dispatcher number worker (dispatcher.heap number).queue (dispatcher.heap number).wakePermit worker.popped
        .waiting dispatcher.permits
  | took {item : Item} {cls : DispatchClass} {rest : List (Entry Item)} {queue : CallQueue Item}
      (popping : worker.state = .popping)
      (entries : (dispatcher.heap number).queue.entries = .item item cls :: rest)
      (isQueue : queue = ((dispatcher.heap number).queue.pop dispatcher.metrics).1) (isRest : queue.entries = rest) :
      Turn dispatcher number worker queue (dispatcher.heap number).wakePermit (worker.popped ++ [item])
        (permitWait item cls) dispatcher.permits
  | tookRelease {removal : RemovalClass} {rest : List (Entry Item)} {queue : CallQueue Item}
      (popping : worker.state = .popping)
      (entries : (dispatcher.heap number).queue.entries = .release removal :: rest)
      (isQueue : queue = ((dispatcher.heap number).queue.pop dispatcher.metrics).1) (isRest : queue.entries = rest)
      (released : queue.released = (dispatcher.heap number).queue.released) :
      Turn dispatcher number worker queue (dispatcher.heap number).wakePermit worker.popped (.leaving removal)
        dispatcher.permits
  | woke (waiting : worker.state = .waiting) (permit : (dispatcher.heap number).wakePermit = true) :
      Turn dispatcher number worker (dispatcher.heap number).queue false worker.popped .popping dispatcher.permits
  | acquired {item : Item} {cls : DispatchClass} (acquiring : worker.state = .acquiring item cls)
      (free : dispatcher.permits.newCall ≠ 0) :
      Turn dispatcher number worker (dispatcher.heap number).queue (dispatcher.heap number).wakePermit worker.popped
        (.sharing item cls) { dispatcher.permits with newCall := dispatcher.permits.newCall - 1 }
  | shared {item : Item} {cls : DispatchClass} (sharing : worker.state = .sharing item cls)
      (free : dispatcher.permits.shared ≠ 0) :
      Turn dispatcher number worker (dispatcher.heap number).queue (dispatcher.heap number).wakePermit worker.popped
        (.running item cls) { dispatcher.permits with shared := dispatcher.permits.shared - 1 }
  | ended {item : Item} {cls : DispatchClass} (running : worker.state = .running item cls) :
      Turn dispatcher number worker (dispatcher.heap number).queue (dispatcher.heap number).wakePermit worker.popped
        .popping (dispatcher.permits.freed cls)
  | reopened {removal : RemovalClass} {queue : CallQueue Item} (leaving : worker.state = .leaving removal)
      (waits : (dispatcher.heap number).queue.entries ≠ [])
      (isQueue : queue = ((dispatcher.heap number).queue.reopen dispatcher.metrics).1)
      (entries : queue.entries = (dispatcher.heap number).queue.entries) :
      Turn dispatcher number worker queue (dispatcher.heap number).wakePermit worker.popped .popping
        dispatcher.permits

theorem work_turn (isSlot : worker.slot = number) (worked : dispatcher.work number worker = some next) :
    (∃ queue wakePermit popped state permits metrics,
      Turn dispatcher number worker queue wakePermit popped state permits ∧
      next = dispatcher.worked number worker queue wakePermit popped state permits metrics) ∨
    (∃ removal, worker.state = .leaving removal ∧ (dispatcher.heap number).queue.entries = [] ∧
      next = { dispatcher with slots := dispatcher.slots.remove worker.callRef }.moveTo number worker .left) := by
  subst isSlot
  cases state : worker.state with
  | popping =>
    simp only [work, state, Option.some.injEq] at worked
    refine .inl ?_
    cases entries : (dispatcher.heap worker.slot).queue.entries with
    | nil =>
      refine ⟨_, _, _, _, _, dispatcher.metrics, .idle state entries, ?_⟩
      simp only [popNext, CallQueue.pop_empty entries] at worked
      exact worked.symm
    | cons front rest =>
      obtain ⟨queue, metrics, isPopped, isRest, released, -⟩ :=
        CallQueue.pop_moves (dispatcher.heap worker.slot).queue dispatcher.metrics entries
      have isQueue : queue = ((dispatcher.heap worker.slot).queue.pop dispatcher.metrics).1 := by rw [isPopped]
      cases front with
      | release removal =>
        refine ⟨_, _, _, _, _, metrics, .tookRelease state entries isQueue isRest released, ?_⟩
        simp only [popNext, isPopped, CallQueue.handed] at worked
        exact worked.symm
      | item item cls =>
        refine ⟨_, _, _, _, _, metrics, .took state entries isQueue isRest, ?_⟩
        simp only [popNext, isPopped, CallQueue.handed] at worked
        rw [← worked, permitWait]
        cases cls.row.pool <;> rfl
  | waiting =>
    simp only [work, state] at worked
    split at worked
    · rename_i permit
      exact .inl ⟨_, _, _, _, _, dispatcher.metrics, .woke state permit, (Option.some.inj worked).symm⟩
    · cases worked
  | acquiring item cls =>
    simp only [work, state] at worked
    split at worked
    · cases worked
    rename_i free
    refine .inl ⟨_, _, _, _, _, dispatcher.metrics, .acquired state free, ?_⟩
    simp [← Option.some.inj worked, Dispatcher.worked]
  | sharing item cls =>
    simp only [work, state] at worked
    split at worked
    · cases worked
    rename_i free
    refine .inl ⟨_, _, _, _, _, dispatcher.metrics, .shared state free, ?_⟩
    simp [← Option.some.inj worked, Dispatcher.worked]
  | running item cls =>
    simp only [work, state] at worked
    refine .inl ⟨_, _, _, _, _, dispatcher.metrics, .ended state, ?_⟩
    simp [← Option.some.inj worked, Dispatcher.worked]
  | leaving removal =>
    simp only [work, state, Option.some.injEq] at worked
    by_cases empty : (dispatcher.heap worker.slot).queue.entries = []
    · refine .inr ⟨removal, rfl, empty, ?_⟩
      simp [← worked, leave, CallQueue.reopen_empty _ _ empty]
    obtain ⟨queue, metrics, isReopened, entries, -⟩ :=
      CallQueue.reopen_moves (dispatcher.heap worker.slot).queue dispatcher.metrics empty
    refine .inl ⟨_, _, _, _, _, metrics, .reopened state empty (by rw [isReopened]) entries, ?_⟩
    simp [← worked, leave, isReopened, Dispatcher.worked]
  | left =>
    simp only [work, state] at worked
    cases worked

/-- What a step of a worker leaves alone when it moves no slot in the map. -/
theorem touches_moveTo {held : Slot Item} {metrics : B2buaMetrics} :
    Touches dispatcher ({ dispatcher with
      heap := Function.update dispatcher.heap number held
      permits := permits
      metrics := metrics }.moveTo number worker state) number where
  heap := fun _ apart => Function.update_of_ne apart _ _
  workers := fun _ apart => by simp [moveTo, apart]
  slots := fun _ _ _ => Iff.rfl
  created := le_rfl
  wakes := fun _ _ member => member
  releases := fun _ _ member => member

/-- A worker's step that stays on its slot keeps the invariant, given what the worker then knows of the
    slot. -/
theorem Sound.worked (sound : Sound dispatcher) (isWorker : dispatcher.workers.get number = some worker)
    (live : worker.state ≠ .left) (queue : CallQueue Item) (wakePermit : Bool) (popped : List Item)
    (permits : Permits) (metrics : B2buaMetrics) (stays : state ≠ .left) (shape : queue.Shape)
    (fifo : (dispatcher.heap number).queued = popped ++ itemsOf queue.entries)
    (leaving : ∀ removal, state = .leaving removal → queue.released.isSome ∧ NoRelease queue.entries)
    (awake : state = .waiting → queue.entries ≠ [] → wakePermit = true ∨ number ∈ dispatcher.wakes) :
    Sound (dispatcher.worked number worker queue wakePermit popped state permits metrics) := by
  have tends := sound.tends number worker isWorker
  unfold Dispatcher.worked
  refine sound.touched number { worker with popped := popped, state := state } (touches_moveTo ..) ?_ ?_ ?_
  · simp [moveTo]
  · refine ⟨tends.slot, tends.created, ?_, ?_, ?_, ?_, ?_, fun left => absurd left stays, ?_⟩ <;>
      simp only [moveTo, Function.update_self]
    · exact tends.callRef
    · exact shape
    · exact fifo
    · exact iff_of_true stays (tends.mapped.1 live)
    · exact leaving
    · exact awake
  · intro callRef isSlot
    simp only [moveTo, Function.update_self]
    exact (sound.mapped callRef number isSlot).2

theorem permitWait_waits :
    permitWait item cls ≠ .left ∧ permitWait item cls ≠ .waiting ∧ ∀ removal,
      permitWait item cls ≠ .leaving removal := by
  unfold permitWait
  cases cls.row.pool <;> exact ⟨nofun, nofun, nofun⟩

theorem Sound.turn (sound : Sound dispatcher) (isWorker : dispatcher.workers.get number = some worker)
    {wakePermit : Bool} {popped : List Item}
    (turn : Turn dispatcher number worker queue wakePermit popped state permits) (metrics : B2buaMetrics) :
    Sound (dispatcher.worked number worker queue wakePermit popped state permits metrics) := by
  have tends := sound.tends number worker isWorker
  have live {state : WorkerState Item} (isState : worker.state = state) (stays : state ≠ .left) :
      worker.state ≠ .left := isState ▸ stays
  cases turn with
  | idle popping empty =>
    exact sound.worked isWorker (live popping nofun) _ _ _ _ _ nofun tends.shape tends.fifo nofun
      fun _ entries => absurd empty entries
  | @took item cls rest _ popping entries isQueue isRest =>
    obtain ⟨stays, awake, staying⟩ := permitWait_waits
    refine sound.worked isWorker (live popping nofun) _ _ _ _ _ stays ?_ ?_ (fun removal leaves => ?_)
      (fun waits => absurd waits awake)
    · exact isQueue ▸ (tends.shape.pop dispatcher.metrics entries).1
    · rw [tends.fifo, entries, isRest]
      simp
    · exact absurd leaves (staying removal)
  | @tookRelease removal rest _ popping entries isQueue isRest released =>
    obtain ⟨shape, left, -⟩ := tends.shape.pop dispatcher.metrics entries
    refine sound.worked isWorker (live popping nofun) _ _ _ _ _ nofun (isQueue ▸ shape) ?_ (fun _ _ => ⟨?_, ?_⟩) nofun
    · rw [tends.fifo, entries, isRest]
      simp
    · rw [released]
      exact tends.shape.released_of_release (entries ▸ List.mem_cons_self)
    · exact isRest ▸ (left removal rfl).1
  | woke phase | acquired phase | shared phase =>
    exact sound.worked isWorker (live phase nofun) _ _ _ _ _ nofun tends.shape tends.fifo nofun nofun
  | ended running =>
    exact sound.worked isWorker (live running nofun) _ _ _ _ _ nofun tends.shape tends.fifo nofun nofun
  | @reopened removal _ leaving waits isQueue entries =>
    obtain ⟨-, items⟩ := tends.leaving removal leaving
    refine sound.worked isWorker (live leaving nofun) _ _ _ _ _ nofun ?_ ?_ nofun nofun
    · exact isQueue ▸ tends.shape.reopen dispatcher.metrics items
    rw [entries]
    exact tends.fifo

/-- A worker that takes a release with nothing behind it leaves with its slot, and nobody finds the slot
    again. -/
theorem Sound.leave (sound : Sound dispatcher) (isWorker : dispatcher.workers.get number = some worker)
    (leaving : worker.state = .leaving removal) (empty : (dispatcher.heap number).queue.entries = []) :
    Sound ({ dispatcher with slots := dispatcher.slots.remove worker.callRef }.moveTo number worker .left) := by
  have tends := sound.tends number worker isWorker
  have mapped : dispatcher.slots.get worker.callRef = some number := tends.mapped.1 (by simp [leaving])
  refine sound.touched number { worker with state := .left } ?_ ?_ ?_ ?_
  · exact {
      heap := fun _ _ => rfl
      workers := fun _ apart => by simp [moveTo, apart]
      slots := by
        intro callRef other apart
        simp only [moveTo, KeyMap.get_remove]
        split
        · rename_i same
          rw [same, mapped, Option.some.injEq]
          exact ⟨by simp, fun isOther => absurd isOther.symm apart⟩
        · exact Iff.rfl
      created := le_rfl
      wakes := fun _ _ member => member
      releases := fun _ _ member => member }
  · simp [moveTo]
  · refine ⟨tends.slot, tends.created, tends.callRef, tends.shape, tends.fifo, ?_, by simp, fun _ => ?_, by simp⟩
    · simp [moveTo]
    · exact ⟨(tends.leaving removal leaving).1, empty⟩
  · intro callRef isSlot
    exact (sound.mapped callRef number (KeyMap.of_get_remove isSlot).2).2

theorem Sound.step (sound : Sound dispatcher) {event : Event Item} (stepped : dispatcher.step event = some next) :
    Sound next := by
  cases event with
  | offer callRef item cls =>
    cases stepped
    exact sound.offer callRef item cls
  | find callRef removal =>
    simp only [Dispatcher.step] at stepped
    split at stepped <;> cases stepped
    · rename_i slot found
      exact sound.find found removal
    · exact sound
  | release slot removal =>
    simp only [Dispatcher.step] at stepped
    split at stepped
    · rename_i member
      cases stepped
      exact sound.releaseOn member
    · cases stepped
  | wake slot =>
    simp only [Dispatcher.step] at stepped
    split at stepped
    · cases stepped
      exact sound.wake slot
    · cases stepped
  | work number =>
    obtain ⟨worker, isWorker, worked⟩ := Option.bind_eq_some_iff.1 stepped
    have isSlot := (sound.tends number worker isWorker).slot
    rcases work_turn isSlot worked with ⟨_, _, _, _, _, metrics, turn, rfl⟩ | ⟨_, leaving, empty, rfl⟩
    · exact sound.turn isWorker turn metrics
    · exact sound.leave isWorker leaving empty

theorem new_sound (maxPermits : { most : ℕ // 0 < most }) (concurrency share : ℕ) (limits : Limits)
    (cap headroom : ℕ) : Sound (new maxPermits concurrency share limits cap headroom : Dispatcher Item) where
  tends := KeyMap.Each.empty
  untouched := fun _ _ => rfl
  mapped := nofun
  found := nofun

end Dispatcher

end SipServer.Dispatch
