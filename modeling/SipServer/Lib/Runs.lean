/-
Module: SipServer.Lib.Runs
Purpose: Systems that move by named events, their runs, and the induction rules every whole-run
  result rests on; bounded loops and the rule that they end where their body stops.
-/
import Mathlib.Order.Basic

namespace SipServer.Lib

/-!
A system is given by its step function: `step state event` is the state the event leads to, or
`none` when the event cannot happen there. A run is a list of events each of which can happen.
-/

section Runs

variable {State Event : Type*} (step : State → Event → Option State)

/-- The state a list of events leads to, when each of them can happen in turn. -/
def run : State → List Event → Option State
  | state, [] => some state
  | state, event :: events => (step state event).bind (fun next => run next events)

/-- Every step of the run meets a condition on the state before it and its event. -/
def AllSteps (condition : State → Event → Prop) : State → List Event → Prop
  | _, [] => True
  | state, event :: events =>
    condition state event ∧
      ∀ next, step state event = some next → AllSteps condition next events

variable {step} {condition : State → Event → Prop} {events : List Event} {state : State} {event : Event}

theorem AllSteps.cons {next : State} (here : condition state event) (stepped : step state event = some next)
    (later : AllSteps step condition next events) : AllSteps step condition state (event :: events) := by
  refine ⟨here, fun other isNext => ?_⟩
  obtain rfl : next = other := Option.mem_unique stepped isNext
  exact later

@[simp] theorem run_nil (state : State) : run step state [] = some state := rfl

theorem run_cons {final : State} :
    run step state (event :: events) = some final ↔
      ∃ next, step state event = some next ∧ run step next events = some final := by
  simp [run, Option.bind_eq_some_iff]

theorem run_append {middle : State} {first second : List Event}
    (ran : run step state first = some middle) :
    run step state (first ++ second) = run step middle second := by
  induction first generalizing state with
  | nil =>
    cases ran
    rfl
  | cons event events ih =>
    obtain ⟨next, stepEq, rest⟩ := run_cons.1 ran
    rw [List.cons_append, run, stepEq]
    exact ih rest

/-- A run of two parts, at the state between them. -/
theorem run_split {final : State} {first second : List Event}
    (ran : run step state (first ++ second) = some final)
    (met : AllSteps step condition state (first ++ second)) :
    ∃ middle, run step state first = some middle ∧ run step middle second = some final ∧
      AllSteps step condition state first ∧ AllSteps step condition middle second := by
  induction first generalizing state with
  | nil => exact ⟨state, rfl, ran, trivial, met⟩
  | cons event events ih =>
    obtain ⟨next, stepEq, rest⟩ := run_cons.1 ran
    obtain ⟨middle, ranFirst, ranSecond, metFirst, metSecond⟩ := ih rest (met.2 next stepEq)
    exact ⟨middle, run_cons.2 ⟨next, stepEq, ranFirst⟩, ranSecond, .cons met.1 stepEq metFirst, metSecond⟩

/-- What every step that meets the condition preserves, a run of such steps preserves. -/
theorem run_invariant_of_steps (invariant : State → Prop)
    (preserved : ∀ state event next,
      invariant state → condition state event → step state event = some next → invariant next)
    {final : State}
    (met : AllSteps step condition state events)
    (ran : run step state events = some final)
    (start : invariant state) :
    invariant final := by
  induction events generalizing state with
  | nil =>
    rw [run_nil, Option.some.injEq] at ran
    exact ran ▸ start
  | cons event events ih =>
    obtain ⟨next, stepEq, ran⟩ := run_cons.1 ran
    exact ih (met.2 next stepEq) ran
      (preserved state event next start met.1 stepEq)

/-- A condition each event of the run meets in every state is met along the run. -/
theorem allSteps_of_mem (met : ∀ event ∈ events, ∀ state, condition state event) (state : State) :
    AllSteps step condition state events := by
  induction events generalizing state with
  | nil => trivial
  | cons event events ih =>
    refine ⟨met event List.mem_cons_self state, ?_⟩
    intro next _
    exact ih (fun later member => met later (List.mem_cons_of_mem _ member)) next

/-- What every step preserves, every run preserves. -/
theorem run_invariant (invariant : State → Prop)
    (preserved : ∀ state event next,
      invariant state → step state event = some next → invariant next)
    {final : State}
    (ran : run step state events = some final)
    (start : invariant state) :
    invariant final :=
  run_invariant_of_steps invariant (fun state event next holds _ => preserved state event next holds)
    (allSteps_of_mem (fun _ _ _ => trivial) state) ran start

/-- A property that each step has by an invariant holds at every step of the run. -/
theorem allSteps_of_invariant {property : State → Event → Prop}
    (invariant : State → Prop)
    (preserved : ∀ state event next,
      invariant state → condition state event → step state event = some next → invariant next)
    (gives : ∀ state event, invariant state → condition state event → property state event)
    (met : AllSteps step condition state events) (start : invariant state) :
    AllSteps step property state events := by
  induction events generalizing state with
  | nil => trivial
  | cons event events ih =>
    refine ⟨gives state event start met.1, ?_⟩
    intro next stepEq
    exact ih (met.2 next stepEq) (preserved state event next start met.1 stepEq)

end Runs

/-! ### Bounded loops -/

section Loops

variable {State : Type*} (body : State → Option State)

/-- Repeat a loop body at most `fuel` times; `none` from the body is its `break`. -/
def loop : ℕ → State → State
  | 0, state => state
  | fuel + 1, state =>
    match body state with
    | none => state
    | some next => loop fuel next

variable {body}

/-- A loop whose body keeps an invariant and lowers a measure ends, within fuel for the measure,
    in a state of the invariant at which the body breaks. -/
theorem loop_rule {invariant : State → Prop} {measure : State → ℕ}
    (keeps : ∀ state next, invariant state → body state = some next →
      invariant next ∧ measure next < measure state)
    {fuel : ℕ} {state : State}
    (start : invariant state)
    (enough : measure state ≤ fuel) :
    invariant (loop body fuel state) ∧ body (loop body fuel state) = none := by
  induction fuel generalizing state with
  | zero =>
    refine ⟨start, ?_⟩
    cases bodyEq : body state with
    | none => simpa [loop] using bodyEq
    | some next =>
      have lower := (keeps state next start bodyEq).2
      omega
  | succ fuel ih =>
    cases bodyEq : body state with
    | none =>
      simp only [loop, bodyEq]
      exact ⟨start, trivial⟩
    | some next =>
      obtain ⟨kept, lower⟩ := keeps state next start bodyEq
      simp only [loop, bodyEq]
      exact ih kept (by omega)

end Loops

end SipServer.Lib
