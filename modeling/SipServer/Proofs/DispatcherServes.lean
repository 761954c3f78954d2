/-
Module: SipServer.Proofs.DispatcherServes
Purpose: The dispatcher serves what it queued. The permits held and free add up, so a worker with something
  queued can step, or is about to be woken, or waits for a permit whose holder can step; and enough of its
  steps, whatever else happens between them, take every item queued.
-/
import SipServer.Proofs.Dispatcher

namespace SipServer.Dispatch

open SipServer.Lib

variable {Item : Type}

variable {items : List Item} {event : Event Item}

variable {queue : CallQueue Item} {state : WorkerState Item} {cls : DispatchClass} {popped : List Item}
  {wakePermit : Bool} {permits : Permits} {events : List (Event Item)} {item : Item} {steps : ℕ}
  {removal : RemovalClass} {callRef : String}

/-! ### Permits -/

/-- The shared permits a worker holds in a state. -/
def WorkerState.sharedHeld : WorkerState Item → ℕ
  | .running _ _ => 1
  | _ => 0

/-- The new-call permits a worker holds in a state. -/
def WorkerState.newCallHeld : WorkerState Item → ℕ
  | .sharing _ cls | .running _ cls => if cls.row.pool = .newCall then 1 else 0
  | _ => 0

namespace Dispatcher

open CallQueue (itemsOf)

variable {dispatcher next : Dispatcher Item} {number : ℕ} {worker : Worker Item} {concurrency share : ℕ}

/-- Every permit is free or held, and only a new call waits for the new-call share. -/
structure Permitted (dispatcher : Dispatcher Item) (concurrency share : ℕ) : Prop where
  shared : dispatcher.permits.shared + dispatcher.workers.total (fun worker => worker.state.sharedHeld) = concurrency
  newCall : dispatcher.permits.newCall + dispatcher.workers.total (fun worker => worker.state.newCallHeld) = share
  acquiring : ∀ number worker item cls, dispatcher.workers.get number = some worker →
    worker.state = .acquiring item cls → cls.row.pool = .newCall

theorem Permitted.congr (permitted : Permitted dispatcher concurrency share)
    (permits : next.permits = dispatcher.permits)
    (workers : next.workers = dispatcher.workers) : Permitted next concurrency share where
  shared := by
    rw [permits, workers]
    exact permitted.shared
  newCall := by
    rw [permits, workers]
    exact permitted.newCall
  acquiring := by
    rw [workers]
    exact permitted.acquiring

/-- A worker's move keeps the permits counted when it exchanges what it holds for what is free. -/
theorem Permitted.moved (permitted : Permitted dispatcher concurrency share)
    (isWorker : dispatcher.workers.get number = some worker) (after : Worker Item) (permits : Permits)
    (sharedSum : permits.shared + after.state.sharedHeld = dispatcher.permits.shared + worker.state.sharedHeld)
    (newCallSum : permits.newCall + after.state.newCallHeld = dispatcher.permits.newCall + worker.state.newCallHeld)
    (acquiring : ∀ item cls, after.state = .acquiring item cls → cls.row.pool = .newCall)
    (isPermits : next.permits = permits) (isWorkers : next.workers = dispatcher.workers.insert number after) :
    Permitted next concurrency share where
  shared := by
    have moved := KeyMap.total_replace (fun worker => worker.state.sharedHeld) isWorker after
    have before := permitted.shared
    rw [isPermits, isWorkers]
    omega
  newCall := by
    have moved := KeyMap.total_replace (fun worker => worker.state.newCallHeld) isWorker after
    have before := permitted.newCall
    rw [isPermits, isWorkers]
    omega
  acquiring := by
    intro other held item cls found
    rw [isWorkers] at found
    rcases KeyMap.of_get_insert found with ⟨-, rfl⟩ | ⟨-, found⟩
    · exact acquiring item cls
    · exact permitted.acquiring other held item cls found

theorem permitWait_holds :
    (permitWait item cls).sharedHeld = 0 ∧ (permitWait item cls).newCallHeld = 0 := by
  unfold permitWait
  cases pool : cls.row.pool with
  | shared => simp [WorkerState.sharedHeld, WorkerState.newCallHeld, pool]
  | newCall => simp [WorkerState.sharedHeld, WorkerState.newCallHeld]

theorem Permitted.turn (permitted : Permitted dispatcher concurrency share)
    (isWorker : dispatcher.workers.get number = some worker)
    (turn : Turn dispatcher number worker queue wakePermit popped state permits) (metrics : B2buaMetrics) :
    Permitted (dispatcher.worked number worker queue wakePermit popped state permits metrics) concurrency share := by
  refine permitted.moved isWorker { worker with popped := popped, state := state } permits ?_ ?_ ?_ rfl rfl
  · cases turn with
    | idle phase | tookRelease phase | woke phase | acquired phase | reopened phase =>
      simp [WorkerState.sharedHeld, phase]
    | took popping =>
      dsimp only
      rw [(permitWait_holds).1, popping]
      rfl
    | shared sharing free =>
      simp only [WorkerState.sharedHeld, sharing]
      omega
    | ended running => simp [WorkerState.sharedHeld, running, Permits.freed]
  · cases turn with
    | idle phase | tookRelease phase | woke phase | shared phase | reopened phase =>
      simp [WorkerState.newCallHeld, phase]
    | took popping =>
      dsimp only
      rw [(permitWait_holds).2, popping]
      rfl
    | acquired acquiring free =>
      have pool := permitted.acquiring number worker _ _ isWorker acquiring
      simp only [WorkerState.newCallHeld, acquiring, pool, if_true]
      omega
    | @ended item cls running =>
      cases pool : cls.row.pool <;> simp [WorkerState.newCallHeld, running, Permits.freed, pool]
  · intro item cls acquiring
    cases turn with
    | @took taken takenClass =>
      unfold permitWait at acquiring
      cases pool : takenClass.row.pool with
      | shared => simp [pool] at acquiring
      | newCall =>
        simp only [pool, WorkerState.acquiring.injEq] at acquiring
        exact acquiring.2 ▸ pool
    | _ => cases acquiring

theorem offer_workers :
    (dispatcher.offer callRef item cls).1.permits = dispatcher.permits ∧
      ((dispatcher.offer callRef item cls).1.workers = dispatcher.workers ∨
        (dispatcher.offer callRef item cls).1.workers =
          dispatcher.workers.insert dispatcher.created ⟨callRef, dispatcher.created, .popping, []⟩) := by
  cases found : dispatcher.slots.get callRef with
  | some slot =>
    simp only [offer, found]
    exact ⟨trivial, .inl trivial⟩
  | none =>
    simp only [offer, found]
    split
    · exact ⟨rfl, .inl rfl⟩
    · exact ⟨rfl, .inr rfl⟩

theorem Permitted.step (permitted : Permitted dispatcher concurrency share) (sound : Sound dispatcher)
    (stepped : dispatcher.step event = some next) : Permitted next concurrency share := by
  cases event with
  | offer callRef item cls =>
    cases stepped
    obtain ⟨isPermits, isWorkers | isWorkers⟩ := offer_workers
    · exact permitted.congr isPermits isWorkers
    have unheld := KeyMap.remove_of_get_eq_none sound.fresh
    refine ⟨?_, ?_, ?_⟩ <;> rw [isWorkers]
    · rw [isPermits, KeyMap.total_insert, unheld]
      exact (congrArg _ (Nat.zero_add _)).trans permitted.shared
    · rw [isPermits, KeyMap.total_insert, unheld]
      exact (congrArg _ (Nat.zero_add _)).trans permitted.newCall
    · intro other held taken takenClass found acquiring
      rcases KeyMap.of_get_insert found with ⟨-, rfl⟩ | ⟨-, found⟩
      · cases acquiring
      · exact permitted.acquiring other held taken takenClass found acquiring
  | find callRef removal =>
    simp only [step] at stepped
    split at stepped <;> cases stepped <;> exact permitted.congr rfl rfl
  | release | wake =>
    simp only [step] at stepped
    split at stepped
    · cases stepped
      exact permitted.congr rfl rfl
    · cases stepped
  | work number =>
    obtain ⟨worker, isWorker, worked⟩ := Option.bind_eq_some_iff.1 stepped
    have isSlot := (sound.tends number worker isWorker).slot
    rcases work_turn isSlot worked with ⟨_, _, _, _, _, metrics, turn, rfl⟩ | ⟨_, leaving, -, rfl⟩
    · exact permitted.turn isWorker turn metrics
    refine permitted.moved isWorker { worker with state := .left } dispatcher.permits ?_ ?_ (by simp) rfl rfl
    · simp [WorkerState.sharedHeld, leaving]
    · simp [WorkerState.newCallHeld, leaving]

/-- The worker can take its next step. -/
def CanWork (dispatcher : Dispatcher Item) (number : ℕ) : Prop := (dispatcher.step (.work number)).isSome

/-- A worker at its permits, and another that holds one and can step. -/
def AwaitsPermit (dispatcher : Dispatcher Item) (worker : Worker Item) : Prop :=
  (∃ item cls, worker.state = .acquiring item cls ∨ worker.state = .sharing item cls) ∧
    ∃ other holder, dispatcher.workers.get other = some holder ∧
      0 < holder.state.sharedHeld + holder.state.newCallHeld ∧ dispatcher.CanWork other

theorem canWork_iff (isWorker : dispatcher.workers.get number = some worker) :
    dispatcher.CanWork number ↔ (dispatcher.work number worker).isSome := by
  rw [CanWork, step, isWorker, Option.bind_some]

theorem canWork_of_sharedHeld (isWorker : dispatcher.workers.get number = some worker)
    (holds : 0 < worker.state.sharedHeld) : dispatcher.CanWork number := by
  rw [canWork_iff isWorker]
  cases state : worker.state with
  | running item cls => simp [work, state]
  | _ =>
    rw [state] at holds
    cases holds

/-- While no shared permit is free, a body runs, and it can end. -/
theorem Permitted.holder (permitted : Permitted dispatcher concurrency share) (bodies : 0 < concurrency)
    (exhausted : dispatcher.permits.shared = 0) :
    ∃ other holder, dispatcher.workers.get other = some holder ∧ 0 < holder.state.sharedHeld ∧
      dispatcher.CanWork other := by
  have held := permitted.shared
  rw [exhausted, Nat.zero_add] at held
  obtain ⟨other, holder, isHolder, holds⟩ := KeyMap.exists_of_total_pos (held ▸ bodies)
  exact ⟨other, holder, isHolder, holds, canWork_of_sharedHeld isHolder holds⟩

/-- The worker of a slot with an entry can step, or is about to be woken, or waits for a permit whose holder
    can step. -/
theorem Sound.unblocked (sound : Sound dispatcher) (permitted : Permitted dispatcher concurrency share)
    (bodies : 0 < concurrency) (newCalls : 0 < share) (isWorker : dispatcher.workers.get number = some worker)
    (entries : (dispatcher.heap number).queue.entries ≠ []) :
    dispatcher.CanWork number ∨ number ∈ dispatcher.wakes ∨ dispatcher.AwaitsPermit worker := by
  have tends := sound.tends number worker isWorker
  rw [canWork_iff isWorker]
  cases state : worker.state with
  | popping | running | leaving => exact .inl (by simp [work, state])
  | left => exact absurd (tends.left state).2 entries
  | waiting =>
    rcases tends.awake state entries with permit | member
    · exact .inl (by simp [work, state, tends.slot, permit])
    · exact .inr (.inl member)
  | sharing item cls =>
    by_cases exhausted : dispatcher.permits.shared = 0
    · obtain ⟨other, holder, isHolder, holds, canWork⟩ := permitted.holder bodies exhausted
      exact .inr (.inr ⟨⟨item, cls, .inr state⟩, other, holder, isHolder, by omega, canWork⟩)
    · exact .inl (by simp [work, state, exhausted])
  | acquiring item cls =>
    by_cases exhausted : dispatcher.permits.newCall = 0
    · refine .inr (.inr ⟨⟨item, cls, .inl state⟩, ?_⟩)
      have held := permitted.newCall
      rw [exhausted, Nat.zero_add] at held
      obtain ⟨other, holder, isHolder, holds⟩ := KeyMap.exists_of_total_pos (held ▸ newCalls)
      by_cases free : dispatcher.permits.shared = 0
      · obtain ⟨third, running, isRunning, runs, canWork⟩ := permitted.holder bodies free
        exact ⟨third, running, isRunning, by omega, canWork⟩
      refine ⟨other, holder, isHolder, by omega, ?_⟩
      rw [canWork_iff isHolder]
      cases holderState : holder.state with
      | sharing => simp [work, holderState, free]
      | running => simp [work, holderState]
      | _ =>
        rw [holderState] at holds
        cases holds
    · exact .inl (by simp [work, state, exhausted])

theorem new_permitted {maxPermits : { most : ℕ // 0 < most }} {limits : Limits} {cap headroom : ℕ} :
    Permitted (new maxPermits concurrency share limits cap headroom : Dispatcher Item)
      (min (max concurrency 1) maxPermits) (min (max share 1) (min (max concurrency 1) maxPermits)) :=
  ⟨rfl, rfl, nofun⟩

/-! ### Enough steps of the worker -/

/-- The steps a worker still has before its next pop. -/
def stepsToPop : WorkerState Item → ℕ
  | .acquiring _ _ => 3
  | .sharing _ _ => 2
  | .running _ _ | .waiting | .leaving _ => 1
  | .popping | .left => 0

/-- The steps of a worker in a run. -/
def workSteps (number : ℕ) (events : List (Event Item)) : ℕ :=
  events.countP fun
    | .work other => other == number
    | _ => false

/-- The releases queued on a slot in a run. -/
def releaseSteps (slot : ℕ) (events : List (Event Item)) : ℕ :=
  events.countP fun
    | .release other _ => other == slot
    | _ => false

/-- The worker took every item of a list. -/
def Took (dispatcher : Dispatcher Item) (number : ℕ) (items : List Item) : Prop :=
  ∃ worker, dispatcher.workers.get number = some worker ∧ items <+: worker.popped

/-- The worker took the first items of a list and has the rest ahead of it, to take within so many steps. -/
def Pending (dispatcher : Dispatcher Item) (number : ℕ) (items : List Item) (steps : ℕ) : Prop :=
  ∃ worker front back, dispatcher.workers.get number = some worker ∧
    (dispatcher.heap number).queue.entries = front ++ back ∧ worker.popped ++ itemsOf front = items ∧
      4 * front.length + stepsToPop worker.state ≤ steps

/-- An entry put into a list of entries splits it as before, with at most one more entry in front. -/
theorem split_inserted {ahead behind front back : List (Entry Item)} (same : ahead ++ behind = front ++ back) :
    ∃ front' back', ahead ++ .release removal :: behind = front' ++ back' ∧ itemsOf front' = itemsOf front ∧
      front'.length ≤ front.length + 1 := by
  rcases List.append_eq_append_iff.1 same with ⟨middle, isFront, isBehind⟩ | ⟨middle, isAhead, isBack⟩
  · refine ⟨ahead ++ .release removal :: middle, back, ?_, ?_, ?_⟩
    · rw [isBehind, List.append_assoc, List.cons_append]
    · rw [isFront]
      simp
    · rw [isFront]
      simp
      omega
  · refine ⟨front, middle ++ .release removal :: behind, ?_, rfl, Nat.le_succ _⟩
    rw [isAhead, List.append_assoc]

/-- A release on the slot puts at most one entry ahead. -/
theorem release_split {metrics : B2buaMetrics} {front back : List (Entry Item)}
    (split : queue.entries = front ++ back) :
    ∃ front' back', (queue.release metrics removal).1.entries = front' ++ back' ∧ itemsOf front' = itemsOf front ∧
      front'.length ≤ front.length + 1 := by
  cases isReleased : queue.released with
  | some first =>
    rw [CallQueue.release_again queue metrics removal (by rw [isReleased]; rfl)]
    exact ⟨front, back, split, rfl, Nat.le_succ _⟩
  | none =>
    obtain ⟨-, -, -, entries, -⟩ := CallQueue.release_moves queue metrics removal isReleased
    rw [entries]
    exact split_inserted ((CallQueue.ahead_append_behind).trans split)

/-- An offer leaves what a worker's slot holds in front. -/
theorem offer_appends (sound : Sound dispatcher) (isWorker : dispatcher.workers.get number = some worker) :
    (dispatcher.offer callRef item cls).1.workers.get number = some worker ∧
      ∃ more, ((dispatcher.offer callRef item cls).1.heap number).queue.entries =
        (dispatcher.heap number).queue.entries ++ more := by
  have older : number ≠ dispatcher.created := (sound.tends number worker isWorker).created.ne
  cases found : dispatcher.slots.get callRef with
  | some slot =>
    simp only [offer, found]
    refine ⟨isWorker, ?_⟩
    by_cases here : number = slot
    · subst here
      have placed := (CallQueue.offer_moves (dispatcher.heap number).queue dispatcher.metrics item cls).2
      rw [Function.update_self]
      generalize (dispatcher.heap number).queue.offer dispatcher.metrics item cls = result at placed
      generalize result.2.2.outcome = outcome at placed
      cases placed with
      | queued entries => exact ⟨_, entries⟩
      | discarded _ _ entries => exact ⟨[], by rw [List.append_nil]; exact entries⟩
    · rw [Function.update_of_ne here]
      exact ⟨[], (List.append_nil _).symm⟩
  | none =>
    simp only [offer, found]
    split
    · exact ⟨isWorker, [], (List.append_nil _).symm⟩
    refine ⟨by simp [older, isWorker], [], ?_⟩
    dsimp only
    rw [Function.update_of_ne older, List.append_nil]

theorem Turn.popped_prefix (turn : Turn dispatcher number worker queue wakePermit popped state permits) :
    worker.popped <+: popped := by
  cases turn with
  | took => exact List.prefix_append _ _
  | _ => exact List.prefix_refl _

/-- A turn that finds some of the items ahead of it comes a step closer to the last of them. -/
theorem Turn.closer (turn : Turn dispatcher number worker queue wakePermit popped state permits) {head : Entry Item}
    {tail back : List (Entry Item)} (split : (dispatcher.heap number).queue.entries = head :: tail ++ back)
    (rest : worker.popped ++ itemsOf (head :: tail) = items)
    (within : 4 * (head :: tail).length + stepsToPop worker.state ≤ steps) :
    ∃ front' back', queue.entries = front' ++ back' ∧ popped ++ itemsOf front' = items ∧
      4 * front'.length + stepsToPop state + 1 ≤ steps := by
  have stay (sameQueue : queue.entries = (dispatcher.heap number).queue.entries) (samePopped : popped = worker.popped)
      (less : stepsToPop state + 1 ≤ stepsToPop worker.state) :
      ∃ front' back', queue.entries = front' ++ back' ∧ popped ++ itemsOf front' = items ∧
        4 * front'.length + stepsToPop state + 1 ≤ steps :=
    ⟨head :: tail, back, sameQueue.trans split, samePopped ▸ rest, by omega⟩
  rw [List.length_cons] at within
  cases turn with
  | idle popping empty =>
    rw [split] at empty
    cases empty
  | @took item cls others _ popping entries isQueue isRest =>
    rw [split] at entries
    obtain ⟨rfl, isOthers⟩ := List.cons.inj entries
    refine ⟨tail, back, isRest.trans isOthers.symm, ?_, ?_⟩
    · rw [← rest]
      simp
    have short : stepsToPop (permitWait item cls) ≤ 3 := by
      unfold permitWait
      cases cls.row.pool <;> simp [stepsToPop]
    omega
  | @tookRelease removal others _ popping entries isQueue isRest =>
    rw [split] at entries
    obtain ⟨rfl, isOthers⟩ := List.cons.inj entries
    refine ⟨tail, back, isRest.trans isOthers.symm, ?_, ?_⟩
    · rw [← rest]
      simp
    · simp only [stepsToPop]
      omega
  | woke phase | acquired phase | shared phase | ended phase => exact stay rfl rfl (by simp [phase, stepsToPop])
  | reopened leaving _ _ entries => exact stay entries rfl (by simp [leaving, stepsToPop])

/-- What a step leaves a worker with: at least what it popped before, and, but for its own steps, the entries
    it had. -/
theorem step_worker (sound : Sound dispatcher) (isWorker : dispatcher.workers.get number = some worker)
    (stepped : dispatcher.step event = some next) (notOwn : event ≠ .work number)
    (notReleased : ∀ removal, event ≠ .release number removal) :
    next.workers.get number = some worker ∧
      ∃ more, (next.heap number).queue.entries = (dispatcher.heap number).queue.entries ++ more := by
  cases event with
  | offer callRef item cls =>
    cases stepped
    exact offer_appends sound isWorker
  | find callRef removal =>
    simp only [step] at stepped
    split at stepped <;> cases stepped <;>
      exact ⟨isWorker, [], (List.append_nil _).symm⟩
  | release slot removal =>
    have apart : number ≠ slot := by
      rintro rfl
      exact notReleased removal rfl
    simp only [step] at stepped
    split at stepped
    · cases stepped
      exact ⟨isWorker, [], by simp [releaseOn, apart]⟩
    · cases stepped
  | wake slot =>
    simp only [step] at stepped
    split at stepped
    · cases stepped
      refine ⟨isWorker, [], ?_⟩
      by_cases here : number = slot
      · subst here
        simp
      · simp [here]
    · cases stepped
  | work other =>
    have apart : number ≠ other := by
      rintro rfl
      exact notOwn rfl
    obtain ⟨actor, isActor, worked⟩ := Option.bind_eq_some_iff.1 stepped
    have isSlot := (sound.tends other actor isActor).slot
    rcases work_turn isSlot worked with ⟨_, _, _, _, _, _, -, rfl⟩ | ⟨_, -, -, rfl⟩
    · exact ⟨by simp [Dispatcher.worked, moveTo, apart, isWorker], [], by simp [Dispatcher.worked, moveTo, apart]⟩
    · exact ⟨by simp [moveTo, apart, isWorker], [], by simp [moveTo]⟩

/-- The worker's own step, as its turn or its leaving. -/
theorem step_own (sound : Sound dispatcher) (isWorker : dispatcher.workers.get number = some worker)
    (stepped : dispatcher.step (.work number) = some next) :
    (∃ queue wakePermit popped state permits, Turn dispatcher number worker queue wakePermit popped state permits ∧
      next.workers.get number = some { worker with popped := popped, state := state } ∧
      (next.heap number).queue.entries = queue.entries) ∨
    ((dispatcher.heap number).queue.entries = [] ∧
      next.workers.get number = some { worker with state := .left }) := by
  obtain ⟨_, isSame, worked⟩ := Option.bind_eq_some_iff.1 stepped
  cases isWorker.symm.trans isSame
  have isSlot := (sound.tends number worker isWorker).slot
  rcases work_turn isSlot worked with ⟨queue, wakePermit, popped, state, permits, _, turn, rfl⟩ | ⟨_, -, empty, rfl⟩
  · exact .inl ⟨queue, wakePermit, popped, state, permits, turn, by simp [Dispatcher.worked, moveTo],
      by simp [Dispatcher.worked, moveTo]⟩
  · exact .inr ⟨empty, by simp [moveTo]⟩

theorem Took.step (took : Took dispatcher number items) (sound : Sound dispatcher)
    (stepped : dispatcher.step event = some next) : Took next number items := by
  obtain ⟨worker, isWorker, all⟩ := took
  by_cases own : event = .work number
  · subst own
    rcases step_own sound isWorker stepped with ⟨_, _, popped, state, _, turn, after, -⟩ | ⟨-, after⟩
    · exact ⟨_, after, all.trans turn.popped_prefix⟩
    · exact ⟨_, after, all⟩
  by_cases released : ∃ removal, event = .release number removal
  · obtain ⟨removal, rfl⟩ := released
    simp only [step] at stepped
    split at stepped
    · cases stepped
      exact ⟨worker, isWorker, all⟩
    · cases stepped
  · exact ⟨worker, (step_worker sound isWorker stepped own fun removal is => released ⟨removal, is⟩).1, all⟩

/-- Each step of the worker brings it closer, each release on its slot puts it back by four, and nothing else
    does. -/
theorem Pending.step (pending : Pending dispatcher number items steps) (sound : Sound dispatcher)
    (stepped : dispatcher.step event = some next) :
    Took next number items ∨ ∃ left, Pending next number items left ∧
      left + workSteps number [event] ≤ steps + 4 * releaseSteps number [event] := by
  obtain ⟨worker, front, back, isWorker, split, rest, within⟩ := pending
  by_cases own : event = .work number
  · subst own
    rcases step_own sound isWorker stepped with ⟨_, _, popped, state, _, turn, after, entries⟩ | ⟨empty, after⟩
    · cases front with
      | nil =>
        refine .inl ⟨_, after, ?_⟩
        rw [← rest, CallQueue.itemsOf_nil, List.append_nil]
        exact turn.popped_prefix
      | cons head tail =>
        obtain ⟨front', back', split', rest', within'⟩ := turn.closer split rest within
        refine .inr ⟨_, ⟨_, front', back', after, entries.trans split', rest', le_rfl⟩, ?_⟩
        simpa [workSteps, releaseSteps] using within'
    · obtain ⟨rfl, rfl⟩ := List.append_eq_nil_iff.1 (split.symm.trans empty)
      have took := (List.append_nil _).symm.trans rest
      exact .inl ⟨_, after, took ▸ List.prefix_refl _⟩
  · refine .inr ?_
    by_cases released : ∃ removal, event = .release number removal
    · obtain ⟨removal, rfl⟩ := released
      simp only [step] at stepped
      split at stepped
      · cases stepped
        obtain ⟨front', back', split', same, longer⟩ := release_split split
        refine ⟨_, ⟨worker, front', back', isWorker, ?_, same.symm ▸ rest, le_rfl⟩, ?_⟩
        · simpa [releaseOn] using split'
        simp only [workSteps, releaseSteps, List.countP_singleton, beq_self_eq_true, if_true, Bool.false_eq_true,
          if_false]
        omega
      · cases stepped
    · obtain ⟨still, more, entries⟩ := step_worker sound isWorker stepped own fun removal is => released ⟨removal, is⟩
      refine ⟨_, ⟨worker, front, back ++ more, still, ?_, rest, within⟩, ?_⟩
      · rw [entries, split, List.append_assoc]
      have none : workSteps number [event] = 0 := by
        cases event with
        | work other => simpa [workSteps] using own
        | _ => rfl
      omega

theorem Took.run (took : Took dispatcher number items) (sound : Sound dispatcher)
    (ran : Lib.run Dispatcher.step dispatcher events = some next) : Took next number items := by
  refine (run_invariant (fun state => Sound state ∧ Took state number items) ?_ ran ⟨sound, took⟩).2
  rintro state event after ⟨isSound, hasTook⟩ stepped
  exact ⟨isSound.step stepped, hasTook.step isSound stepped⟩

/-- A run with more steps of the worker than the items need takes them all. -/
theorem Pending.run (pending : Pending dispatcher number items steps)
    (sound : Sound dispatcher) (ran : Lib.run Dispatcher.step dispatcher events = some next)
    (enough : steps + 4 * releaseSteps number events < workSteps number events) : Took next number items := by
  induction events generalizing dispatcher steps with
  | nil => cases enough
  | cons event events ih =>
    obtain ⟨middle, stepped, rest⟩ := run_cons.1 ran
    have soundNext := sound.step stepped
    have works : workSteps number (event :: events) = workSteps number [event] + workSteps number events := by
      simp only [workSteps, ← List.countP_append, List.singleton_append]
    have releases : releaseSteps number (event :: events) =
        releaseSteps number [event] + releaseSteps number events := by
      simp only [releaseSteps, ← List.countP_append, List.singleton_append]
    rcases pending.step sound stepped with took | ⟨left, later, within⟩
    · exact took.run soundNext rest
    · exact ih later soundNext rest (by omega)

/-- A worker runs an item's body. -/
def Running (worker : Worker Item) : Prop := ∃ item cls, worker.state = .running item cls

/-- What holds of a dispatcher between any two critical sections. -/
structure Attended (dispatcher : Dispatcher Item) : Prop where
  /-- A slot that holds an entry is its call's slot in the map, and one worker runs on it. -/
  mapped : ∀ slot, (dispatcher.heap slot).queue.entries ≠ [] →
    dispatcher.slots.get (dispatcher.heap slot).callRef = some slot ∧
      ∃! number, ∃ worker, dispatcher.workers.get number = some worker ∧ worker.slot = slot ∧ worker.state ≠ .left
  /-- A call runs one body at a time. -/
  oneBody : ∀ first second left right, dispatcher.workers.get first = some left →
    dispatcher.workers.get second = some right → Running left → Running right → left.callRef = right.callRef →
    first = second
  /-- What was reported queued on a slot is what its worker popped, and then what waits. -/
  fifo : ∀ number worker, dispatcher.workers.get number = some worker →
    (dispatcher.heap worker.slot).queued = worker.popped ++ itemsOf (dispatcher.heap worker.slot).queue.entries
  /-- A worker with an entry to take can step, is about to be woken, or waits for a permit whose holder can
      step. -/
  unblocked : ∀ number worker, dispatcher.workers.get number = some worker →
    (dispatcher.heap worker.slot).queue.entries ≠ [] →
    dispatcher.CanWork number ∨ worker.slot ∈ dispatcher.wakes ∨ dispatcher.AwaitsPermit worker
  /-- Whatever happens after, four steps of a worker for each entry waiting and each release queued there,
      and four more, have it take everything reported queued. -/
  served : ∀ number worker later final, dispatcher.workers.get number = some worker →
    run Dispatcher.step dispatcher later = some final →
    4 * ((dispatcher.heap worker.slot).queue.entries.length + releaseSteps worker.slot later + 1) ≤
      workSteps number later →
    Took final number (dispatcher.heap worker.slot).queued

theorem Sound.mappedOnly (sound : Sound dispatcher) {slot : ℕ} (entries : (dispatcher.heap slot).queue.entries ≠ []) :
    dispatcher.slots.get (dispatcher.heap slot).callRef = some slot ∧
      ∃! number, ∃ worker, dispatcher.workers.get number = some worker ∧ worker.slot = slot ∧
        worker.state ≠ .left := by
  cases isWorker : dispatcher.workers.get slot with
  | none => exact absurd (sound.untouched slot isWorker) entries
  | some worker =>
    have tends := sound.tends slot worker isWorker
    have live : worker.state ≠ .left := fun left => entries (tends.left left).2
    refine ⟨tends.callRef ▸ tends.mapped.1 live, slot, ⟨worker, isWorker, tends.slot, live⟩, ?_⟩
    rintro other ⟨held, isHeld, isSlot, -⟩
    exact (sound.tends other held isHeld).slot.symm.trans isSlot

theorem Running.live (running : Running worker) : worker.state ≠ .left := by
  obtain ⟨item, cls, state⟩ := running
  rw [state]
  exact nofun

theorem Sound.attended (sound : Sound dispatcher) (permitted : Permitted dispatcher concurrency share)
    (bodies : 0 < concurrency) (newCalls : 0 < share) : Attended dispatcher where
  mapped := fun _ entries => sound.mappedOnly entries
  oneBody := by
    intro first second left right isLeft isRight leftRuns rightRuns sameCall
    have one := (sound.tends first left isLeft).mapped.1 leftRuns.live
    have two := (sound.tends second right isRight).mapped.1 rightRuns.live
    rw [sameCall, two] at one
    exact (Option.some.inj one).symm
  fifo := by
    intro number worker isWorker
    have tends := sound.tends number worker isWorker
    rw [tends.slot]
    exact tends.fifo
  unblocked := by
    intro number worker isWorker
    rw [(sound.tends number worker isWorker).slot]
    exact sound.unblocked permitted bodies newCalls isWorker
  served := by
    intro number worker later final isWorker ran enough
    have tends := sound.tends number worker isWorker
    rw [tends.slot] at enough ⊢
    have within : stepsToPop worker.state ≤ 3 := by
      cases worker.state <;> simp [stepsToPop]
    have pending : Pending dispatcher number (dispatcher.heap number).queued
        (4 * (dispatcher.heap number).queue.entries.length + 3) :=
      ⟨worker, _, [], isWorker, (List.append_nil _).symm, tends.fifo.symm, by omega⟩
    exact pending.run sound ran (by omega)

/-- Over every interleaving of offers, releases, wake-ups and worker steps, no event lands on a queue whose
    worker left. -/
theorem no_event_on_dead_queue (maxPermits : { most : ℕ // 0 < most }) (concurrency share : ℕ) (limits : Limits)
    (cap headroom : ℕ) {events : List (Event Item)}
    (ran : run step (new maxPermits concurrency share limits cap headroom) events = some dispatcher) :
    dispatcher.Attended := by
  have positive := maxPermits.2
  have kept := run_invariant (fun state => Sound state ∧ Permitted state _ _)
    (fun state event after holds stepped => ⟨holds.1.step stepped, holds.2.step holds.1 stepped⟩)
    ran ⟨new_sound .., new_permitted ..⟩
  exact kept.1.attended kept.2 (by omega) (by omega)

/-- Two releases find a call's slot, and the second queues after the worker left. -/
def staleRelease : List (Event ℕ) :=
  [.offer "a" 7 .timer, .find "a" .terminated, .find "a" .orphan, .release 0 .terminated, .work 0, .work 0, .work 0,
    .work 0, .work 0, .release 0 .orphan, .offer "a" 8 .initialInvite]

theorem no_event_on_dead_queue_after_stale_release :
    ∃ dispatcher : Dispatcher ℕ,
      run step (new ⟨2 ^ 61 - 1, by decide⟩ 2 1 ⟨2, 9⟩ 4 1) staleRelease = some dispatcher ∧
        dispatcher.slots.get "a" = some 1 ∧ dispatcher.Attended := by
  obtain ⟨dispatcher, ran, mapped⟩ : ∃ dispatcher : Dispatcher ℕ,
      run step (new ⟨2 ^ 61 - 1, by decide⟩ 2 1 ⟨2, 9⟩ 4 1) staleRelease = some dispatcher ∧
        dispatcher.slots.get "a" = some 1 :=
    ⟨_, rfl, rfl⟩
  exact ⟨dispatcher, ran, mapped, no_event_on_dead_queue ⟨2 ^ 61 - 1, by decide⟩ 2 1 ⟨2, 9⟩ 4 1 ran⟩

/-- At every step of every interleaving, the bodies running and the free permits make up the concurrency,
    within the semaphore's ceiling, and those of new calls the new-call share. -/
theorem bodies_within_permits {maxPermits : { most : ℕ // 0 < most }} {limits : Limits} {cap headroom : ℕ}
    (events : List (Event Item)) :
    AllSteps step (fun state _ => Permitted state (min (max concurrency 1) maxPermits)
        (min (max share 1) (min (max concurrency 1) maxPermits)))
      (new maxPermits concurrency share limits cap headroom) events := by
  refine allSteps_of_invariant (fun state => Sound state ∧ Permitted state _ _) ?_ (fun _ _ holds _ => holds.2)
    (allSteps_of_mem (fun _ _ _ => trivial) _) ⟨new_sound .., new_permitted⟩
  intro state event next holds _ stepped
  exact ⟨holds.1.step stepped, holds.2.step holds.1 stepped⟩

end Dispatcher

end SipServer.Dispatch
