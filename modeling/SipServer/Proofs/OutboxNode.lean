/-
Module: SipServer.Proofs.OutboxNode
Purpose: The node's outboxes. Over runs whose pushes start alone on their call and whose tasks are not
  stopped before they publish, each call's effects leave in order, once and one at a time, and the published
  depth counts them; a push stopped before its count lowers the depth below zero, one beside a release runs
  beside the entry the release took, and a task stopped before its store publishes a count that is past.
-/
import SipServer.Proofs.OutboxOrder

namespace SipServer.Router

open SipServer.Lib

variable {Effect : Type} {level : SyncLevel} {event : NodeEvent Effect}

namespace CallEffects

variable {call next : CallEffects Effect}

/-! ### What is queued and running on a call -/

/-- The effects queued on the call's outboxes. -/
def queued (call : CallEffects Effect) : List Effect :=
  (List.range call.created).flatMap fun number => (call.outboxes number).entries.map Entry.effects

/-- The effects running for the call: by a drainer, a push or a release. -/
def running (call : CallEffects Effect) : ℕ :=
  ((List.range call.created).map fun number => (call.drainers number).sends).sum + call.turns.total Turn.runs

/-- The entries queued or running. -/
def held (call : CallEffects Effect) : ℕ := call.queued.length + call.running

/-- Something is queued, or a push or a release is under way. -/
def Busy (call : CallEffects Effect) : Prop :=
  call.queued ≠ [] ∨ ∃ turn held, call.turns.get turn = some held

theorem flatMap_range_latest {Value : Type} {values : ℕ → List Value} {count : ℕ}
    (others : ∀ number, number ≠ count - 1 → values number = []) (none : count = 0 → values 0 = []) :
    (List.range count).flatMap values = values (count - 1) := by
  cases count with
  | zero => simp [none rfl]
  | succ last =>
    have before : (List.range last).flatMap values = [] := by
      rw [List.flatMap_eq_nil_iff]
      intro number member
      exact others number (by have := List.mem_range.1 member; omega)
    rw [List.range_succ, List.flatMap_append, before]
    simp

theorem sum_range_latest {amounts : ℕ → ℕ} {count : ℕ} (others : ∀ number, number ≠ count - 1 → amounts number = 0)
    (none : count = 0 → amounts 0 = 0) : ((List.range count).map amounts).sum = amounts (count - 1) := by
  cases count with
  | zero => simp [none rfl]
  | succ last =>
    have before : ((List.range last).map amounts).sum = 0 := by
      refine List.sum_eq_zero fun amount member => ?_
      obtain ⟨number, inRange, rfl⟩ := List.mem_map.1 member
      exact others number (by have := List.mem_range.1 inRange; omega)
    rw [List.range_succ, List.map_append, List.sum_append, before]
    simp

theorem Single.unopened (single : Single call) (none : call.created = 0) : call.outbox = Option.none := by
  cases mapped : call.outbox with
  | none => rfl
  | some number =>
    have := (single.mapped number mapped).2
    omega

theorem Single.queued_eq (single : Single call) : call.queued = call.lane.entries.map Entry.effects := by
  refine flatMap_range_latest (fun number apart => ?_) fun none => ?_
  · rw [(single.older number apart).1]
    rfl
  have quiet := (single.unmapped (single.unopened none)).1
  rw [latest, none] at quiet
  rw [quiet]
  rfl

theorem Single.running_eq (single : Single call) : call.running = call.lane.running := by
  refine congrArg (· + call.turns.total Turn.runs) ?_
  refine sum_range_latest (fun number apart => ?_) fun none => ?_
  · rw [(single.older number apart).2]
    rfl
  have quiet := (single.unmapped (single.unopened none)).2
  rw [latest, none] at quiet
  rw [quiet]
  rfl

theorem Single.held_eq (single : Single call) : call.held = call.lane.held := by
  rw [held, Lane.held, single.running_eq, single.queued_eq, List.length_map]

/-! ### A busy call can step -/

theorem canProceed {turn : ℕ} {held : Turn Effect} (isTurn : call.turns.get turn = some held)
    (unblocked : ∀ number, held = .found number → (call.outboxes number).sending = false) :
    (call.step level (.proceed turn)).isSome := by
  simp only [step, isTurn, Option.bind_some]
  cases held with
  | found number => simp [proceed, unblocked number rfl]
  | taking number => cases entries : (call.outboxes number).entries <;> simp [proceed, entries]
  | _ => simp [proceed]

/-- A drainer at its wait can step: its wait ends at the cap at the latest. -/
theorem canDrain {number : ℕ} (live : call.drainers number ≠ .ended)
    (unblocked : ∀ id released, call.drainers number = .locking id released →
      (call.outboxes number).sending = false) :
    (call.step level (.drain number (some .capped))).isSome := by
  simp only [step, drain]
  split
  · split <;> rfl
  · split <;> rfl
  · rfl
  · rename_i id released state
    simp [unblocked id released state]
  · split
    · split <;> rfl
    · rfl
  · rfl
  · rename_i ended
    exact absurd ended live

/-- While the send lock is held, its holder can step. -/
theorem holderSteps (orderly : call.lane.Orderly) (locked : call.lane.sending = true) :
    ∃ event, starts event = false ∧ (call.step level event).isSome := by
  have lock := orderly.lock
  rw [locked, Bool.toNat_true] at lock
  by_cases drainer : call.lane.drainer.holds = 0
  · have positive : 0 < call.turns.total Turn.holds := by
      have same : call.lane.turns.total Turn.holds = call.turns.total Turn.holds := rfl
      omega
    obtain ⟨turn, held, isTurn, holds⟩ := KeyMap.exists_of_total_pos positive
    refine ⟨.proceed turn, rfl, canProceed isTurn ?_⟩
    rintro number rfl
    cases holds
  · refine ⟨.drain call.latest (some .capped), rfl, canDrain ?_ ?_⟩
    · intro ended
      exact drainer (by rw [lane, ended]; rfl)
    · intro id released state
      exact absurd (by rw [lane, state]; rfl) drainer

theorem Single.busySteps (single : Single call) (orderly : call.lane.Orderly) (busy : call.Busy) :
    ∃ event, starts event = false ∧ (call.step level event).isSome := by
  cases locked : call.lane.sending with
  | true => exact holderSteps orderly locked
  | false =>
    rcases busy with queued | ⟨turn, held, isTurn⟩
    · refine ⟨.drain call.latest (some .capped), rfl, canDrain ?_ fun _ _ _ => locked⟩
      intro ended
      cases mapped : call.lane.mapped with
      | true => exact orderly.drained mapped ended
      | false => exact queued (by rw [single.queued_eq, (orderly.unmapped mapped).2]; rfl)
    · refine ⟨.proceed turn, rfl, canProceed isTurn ?_⟩
      rintro number rfl
      obtain rfl := single.turns turn _ number isTurn rfl
      exact locked

end CallEffects

namespace Outboxes

variable {outboxes next : Outboxes Effect}

/-- A push starts while no other push and no release of its call is under way, and a task that queues or
    counts an entry has stored the gauge before any other steps. -/
def Careful (outboxes : Outboxes Effect) : NodeEvent Effect → Prop
  | .step callRef event => (outboxes.call callRef).Alone event
  | _ => False

/-- The steps of a call's drainer and of its pushes and releases under way. -/
def workSteps (callRef : String) (events : List (NodeEvent Effect)) : ℕ :=
  events.countP fun
    | .step other event => other == callRef && !CallEffects.starts event
    | _ => false

/-- The pushes and releases of a call that start. -/
def startSteps (callRef : String) (events : List (NodeEvent Effect)) : ℕ :=
  events.countP fun
    | .step other event => other == callRef && CallEffects.starts event
    | _ => false

/-- What holds of the node's outboxes between any two steps. -/
structure InOrder (outboxes : Outboxes Effect) : Prop where
  /-- The effects began in the order they were queued or run, and the rest of them wait in that order. -/
  order : ∀ callRef, (outboxes.call callRef).ran.map Prod.fst ++ (outboxes.call callRef).queued =
    (outboxes.call callRef).pushed
  oneAtATime : ∀ callRef, (outboxes.call callRef).running ≤ 1
  /-- An outbox in the map has a running drainer. -/
  drained : ∀ callRef number, (outboxes.call callRef).outbox = some number →
    (outboxes.call callRef).drainers number ≠ .ended
  depth : outboxes.depth = outboxes.calls.total CallEffects.held
  published : outboxes.gauge = outboxes.depth
  /-- A call with something queued or under way can step. -/
  moves : ∀ callRef, (outboxes.call callRef).Busy →
    ∃ event, CallEffects.starts event = false ∧ (outboxes.step (.step callRef event)).isSome
  /-- And takes a bounded number of steps between two starts. -/
  settles : ∀ callRef later final, AllSteps step Careful outboxes later → run step outboxes later = some final →
    workSteps callRef later ≤ (outboxes.call callRef).lane.effort + 13 * startSteps callRef later

/-- What every careful step keeps. -/
structure Kept (outboxes : Outboxes Effect) : Prop where
  calls : ∀ callRef, (outboxes.call callRef).Single ∧ (outboxes.call callRef).lane.Orderly
  pushing : outboxes.pushing = none
  storing : outboxes.storing = ∅
  depth : outboxes.depth = outboxes.calls.total CallEffects.held
  published : outboxes.gauge = outboxes.depth

/-- No task waits for another's store. -/
theorem Kept.waits (kept : Kept outboxes) (callRef : String) (event : OutboxEvent Effect) :
    outboxes.waits callRef event = false := by
  cases event <;> simp [Outboxes.waits, kept.pushing, kept.storing]

/-- A careful step is one step of one call's lane. -/
theorem Kept.stepped (kept : Kept outboxes) (careful : outboxes.Careful event)
    (stepped : outboxes.step event = some next) :
    ∃ callRef inner change after, event = .step callRef inner ∧
      (outboxes.call callRef).step outboxes.level inner = some (after, change) ∧ after.Single ∧
      LaneStep (outboxes.call callRef).lane after.lane change (CallEffects.starts inner) ∧
      next = { outboxes with
        calls := outboxes.calls.insert callRef after
        depth := outboxes.depth + change
        gauge := outboxes.depth + change } := by
  cases event with
  | interruptedPush | count | storePush | stop | store => cases careful
  | step callRef inner =>
    simp only [step, kept.waits, Bool.false_eq_true, if_false, Option.map_eq_some_iff] at stepped
    obtain ⟨⟨after, change⟩, isStep, rfl⟩ := stepped
    obtain ⟨single, isLane⟩ := (kept.calls callRef).1.step careful isStep
    refine ⟨callRef, inner, change, after, rfl, isStep, single, isLane, ?_⟩
    dsimp only
    split
    · rename_i none
      rw [none, add_zero, kept.published]
    · rfl

theorem call_insert {callRef other : String} {after : CallEffects Effect} {depth gauge : ℤ} :
    ({ outboxes with calls := outboxes.calls.insert callRef after, depth := depth, gauge := gauge } :
      Outboxes Effect).call other = if other = callRef then after else outboxes.call other := by
  simp only [call, KeyMap.get_insert]
  split <;> rfl

/-- What the node holds for a call and what it holds for the others. -/
theorem total_held (outboxes : Outboxes Effect) (callRef : String) :
    outboxes.calls.total CallEffects.held =
      (outboxes.call callRef).held + (outboxes.calls.remove callRef).total CallEffects.held := by
  cases stored : outboxes.calls.get callRef with
  | some held => rw [call, stored, KeyMap.total_remove_of_get_eq_some _ stored, Option.getD_some]
  | none =>
    rw [call, stored, KeyMap.remove_of_get_eq_none stored, Option.getD_none]
    exact (Nat.zero_add _).symm

theorem Kept.step (kept : Kept outboxes) (careful : outboxes.Careful event)
    (stepped : outboxes.step event = some next) : Kept next := by
  obtain ⟨callRef, inner, change, after, rfl, -, single, isLane, rfl⟩ := kept.stepped careful stepped
  obtain ⟨wasSingle, wasOrderly⟩ := kept.calls callRef
  refine ⟨fun other => ?_, kept.pushing, kept.storing, ?_, rfl⟩
  · rw [call_insert]
    split
    · exact ⟨single, wasOrderly.step isLane⟩
    · exact kept.calls other
  · have grew := wasOrderly.held_step isLane
    have before := kept.depth
    have parts := total_held outboxes callRef
    rw [← single.held_eq, ← wasSingle.held_eq] at grew
    rw [KeyMap.total_insert, before, parts]
    push_cast
    omega

theorem new_kept (level : SyncLevel) : Kept (new level : Outboxes Effect) := by
  refine ⟨fun callRef => ⟨CallEffects.new_single, ?_⟩, rfl, rfl, rfl, rfl⟩
  exact ⟨nofun, fun _ => ⟨rfl, rfl⟩, nofun, rfl, rfl⟩

theorem Kept.settles (kept : Kept outboxes) {callRef : String} {later : List (NodeEvent Effect)}
    {final : Outboxes Effect}
    (careful : AllSteps Outboxes.step Careful outboxes later) (ran : run Outboxes.step outboxes later = some final) :
    workSteps callRef later ≤ (outboxes.call callRef).lane.effort + 13 * startSteps callRef later := by
  induction later generalizing outboxes with
  | nil => exact Nat.zero_le _
  | cons event later ih =>
    obtain ⟨middle, stepped, rest⟩ := run_cons.1 ran
    have works : workSteps callRef (event :: later) = workSteps callRef [event] + workSteps callRef later := by
      simp only [workSteps, ← List.countP_append, List.singleton_append]
    have starts : startSteps callRef (event :: later) = startSteps callRef [event] + startSteps callRef later := by
      simp only [startSteps, ← List.countP_append, List.singleton_append]
    have bound := ih (kept.step careful.1 stepped) (careful.2 middle stepped) rest
    obtain ⟨stepRef, inner, change, after, rfl, -, single, isLane, rfl⟩ := kept.stepped careful.1 stepped
    rw [call_insert] at bound
    by_cases same : callRef = stepRef
    · subst same
      have moved := Lane.effort_step isLane
      cases isStart : CallEffects.starts inner <;>
        simp [workSteps, startSteps, isStart] at works starts moved bound ⊢ <;> omega
    · have apart : ¬ stepRef = callRef := fun is => same is.symm
      rw [if_neg same] at bound
      simp [workSteps, startSteps, apart] at works starts bound ⊢
      omega

theorem Kept.inOrder (kept : Kept outboxes) : InOrder outboxes where
  order := by
    intro callRef
    obtain ⟨single, orderly⟩ := kept.calls callRef
    rw [single.queued_eq]
    exact orderly.order
  oneAtATime := by
    intro callRef
    obtain ⟨single, orderly⟩ := kept.calls callRef
    rw [single.running_eq]
    exact orderly.running_le_one
  drained := by
    intro callRef number mapped
    obtain ⟨single, orderly⟩ := kept.calls callRef
    obtain ⟨rfl, -⟩ := single.mapped number mapped
    exact orderly.drained (by rw [CallEffects.lane, mapped]; rfl)
  depth := kept.depth
  published := kept.published
  moves := by
    intro callRef busy
    obtain ⟨single, orderly⟩ := kept.calls callRef
    obtain ⟨event, works, enabled⟩ := single.busySteps orderly busy
    refine ⟨event, works, ?_⟩
    simpa [Outboxes.step, kept.waits] using enabled
  settles := fun _ _ _ careful ran => kept.settles careful ran

/-- Over every careful run, a call's effects leave in order, once, one at a time, and the depth counts
    them. -/
theorem effects_in_order (level : SyncLevel) {events : List (NodeEvent Effect)} {final : Outboxes Effect}
    (careful : AllSteps step Careful (new level) events) (ran : run step (new level) events = some final) :
    final.InOrder :=
  (run_invariant_of_steps Kept (fun _ _ _ kept isCareful stepped => kept.step isCareful stepped) careful ran
    (new_kept level)).inOrder

/-- The write an entry waits for. -/
def awaited : HoldTarget := ⟨"b", .pri, ⟨1, 1⟩⟩

/-- A push that waits, a second behind it, and the drainer that sends the first. -/
def twoPushes : List (NodeEvent ℕ) :=
  [.step "a" (.push 0 1 (some awaited) false), .step "a" (.drain 0 none), .step "a" (.push 0 2 none false),
    .step "a" (.drain 0 (some .applied)), .step "a" (.drain 0 none), .step "a" (.drain 0 none)]

theorem effects_in_order_two_pushes :
    ∃ final : Outboxes ℕ, run step (new .applied) twoPushes = some final ∧ (final.call "a").running = 1 ∧
      (final.call "a").queued = [2] ∧ final.gauge = 2 ∧ final.InOrder := by
  have careful : AllSteps step Careful (new .applied) twoPushes := by
    refine .cons (fun _ => rfl) rfl ?_
    refine .cons trivial rfl ?_
    refine .cons (fun _ => rfl) rfl ?_
    exact ⟨trivial, fun _ _ => ⟨trivial, fun _ _ => ⟨trivial, fun _ _ => trivial⟩⟩⟩
  obtain ⟨final, ran, running, queued, gauge⟩ : ∃ final : Outboxes ℕ, run step (new .applied) twoPushes = some final ∧
      (final.call "a").running = 1 ∧ (final.call "a").queued = [2] ∧ final.gauge = 2 :=
    ⟨_, rfl, rfl, rfl, rfl⟩
  exact ⟨final, ran, running, queued, gauge, effects_in_order .applied careful ran⟩

/-- The drainer takes, sends and counts out the second entry before its push counts it in. -/
def countedLate : List (NodeEvent ℕ) :=
  [.step "a" (.push 0 1 (some awaited) false), .step "a" (.drain 0 none), .step "a" (.drain 0 (some .applied)),
    .step "a" (.drain 0 none), .step "a" (.drain 0 none), .step "a" (.drain 0 none),
    .interruptedPush "a" 0 2 none false, .step "a" (.drain 0 none), .step "a" (.drain 0 none),
      .step "a" (.drain 0 none),
    .step "a" (.drain 0 none)]

/-- A release takes the last entry, the drainer leaves with the outbox, and a push runs its effects at
    once. -/
def besideRelease : List (NodeEvent ℕ) :=
  [.step "a" (.push 0 1 (some awaited) false), .step "a" (.push 0 2 (some awaited) false), .step "a" (.drain 0 none),
    .step "a" (.drain 0 (some .applied)), .step "a" (.drain 0 none), .step "a" (.drain 0 none),
      .step "a" (.release 9),
    .step "a" (.drain 0 none), .step "a" (.proceed 9), .step "a" (.proceed 9), .step "a" (.drain 0 none),
    .step "a" (.drain 0 none), .step "a" (.push 0 3 none false), .step "a" (.proceed 0)]

/-- Two calls push alone and count their effects out; the one that counted first stores last. -/
def storedLate : List (NodeEvent ℕ) :=
  [.step "a" (.push 0 1 none false), .step "b" (.push 0 2 none false), .step "a" (.proceed 0), .step "b" (.proceed 0),
    .stop "a" (.turn 0), .step "b" (.proceed 0), .store "a" (.turn 0)]

/-- A push stopped before its count lets the depth below zero; a push beside a release runs beside the entry
    the release took; a task stopped before its store leaves an older count published. -/
theorem careless_runs :
    (run step (new .applied) countedLate).map (fun final => (final.depth, (final.call "a").held)) = some (-1, 0) ∧
      (run step (new .applied) besideRelease).map (fun final => (final.call "a").running) = some 2 ∧
      (run step (new .applied) storedLate).map (fun final =>
        (final.gauge, (final.call "a").held, (final.call "b").held)) = some (1, 0, 0) :=
  ⟨rfl, rfl, rfl⟩

end Outboxes

end SipServer.Router
