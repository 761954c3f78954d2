/-
Module: SipServer.Lib.Deadlines
Purpose: A queue of keyed deadlines, earliest first, and what reading, popping and pushing do to
  the deadlines it holds.
-/
import Mathlib.Data.List.Sort
import Mathlib.Data.Prod.Lex
import Mathlib.Data.String.Basic

namespace SipServer.Lib

variable {instant : ℤ} {other : ℤ}

/-!
A priority queue of pairs (instant, key) that pops its least pair first: the earliest instant, and
among equal instants the least key. The same pair may be queued more than once.
-/

/-- Keyed deadlines, kept in ascending order. -/
structure Deadlines (Key : Type*) [LinearOrder Key] where
  items : List (ℤ ×ₗ Key)
  sorted : items.Pairwise (· ≤ ·)
deriving DecidableEq

namespace Deadlines

variable {Key : Type*} [LinearOrder Key] {deadlines : Deadlines Key} {key : Key}

/-- No deadline at all. -/
def empty : Deadlines Key := ⟨[], List.Pairwise.nil⟩

/-- Queue a deadline for a key. -/
def push (deadlines : Deadlines Key) (instant : ℤ) (key : Key) : Deadlines Key :=
  ⟨List.orderedInsert (· ≤ ·) (toLex (instant, key)) deadlines.items,
    deadlines.sorted.orderedInsert _ _⟩

/-- The least pair queued. -/
def peek (deadlines : Deadlines Key) : Option (ℤ × Key) :=
  deadlines.items.head?.map ofLex

/-- Drop the least pair queued. -/
def pop (deadlines : Deadlines Key) : Deadlines Key :=
  ⟨deadlines.items.tail, deadlines.sorted.tail⟩

/-- The number of pairs queued. -/
def size (deadlines : Deadlines Key) : ℕ := deadlines.items.length

/-- A key's deadline is queued. -/
def Holds (deadlines : Deadlines Key) (instant : ℤ) (key : Key) : Prop :=
  toLex (instant, key) ∈ deadlines.items

/-- The number of queued pairs whose instant has come. -/
def dueCount (deadlines : Deadlines Key) (now : ℤ) : ℕ :=
  deadlines.items.countP (fun item => (ofLex item).1 ≤ now)

@[simp] theorem holds_push {otherKey : Key} :
    (deadlines.push instant key).Holds other otherKey ↔
      (other = instant ∧ otherKey = key) ∨ deadlines.Holds other otherKey := by
  simp [Holds, push, List.mem_orderedInsert]

theorem items_of_peek (top : deadlines.peek = some (instant, key)) :
    ∃ tail, deadlines.items = toLex (instant, key) :: tail := by
  cases isItems : deadlines.items with
  | nil => simp [peek, isItems] at top
  | cons head tail =>
    obtain rfl : head = toLex (instant, key) := by
      simpa [peek, isItems] using congrArg (Option.map toLex) top
    exact ⟨tail, rfl⟩

/-- Popping loses the pair that `peek` names and no other. -/
theorem holds_of_peek {otherKey : Key} (top : deadlines.peek = some (instant, key)) :
    deadlines.Holds other otherKey ↔
      (other = instant ∧ otherKey = key) ∨ deadlines.pop.Holds other otherKey := by
  obtain ⟨tail, isItems⟩ := items_of_peek top
  simp [Holds, pop, isItems]

/-- What `peek` names comes no later than anything queued. -/
theorem peek_least {otherKey : Key}
    (top : deadlines.peek = some (instant, key)) (held : deadlines.Holds other otherKey) :
    instant ≤ other := by
  obtain ⟨tail, isItems⟩ := items_of_peek top
  have sorted := deadlines.sorted
  unfold Holds at held
  rw [isItems] at sorted held
  rcases List.mem_cons.1 held with same | inTail
  · rw [toLex_inj, Prod.mk.injEq] at same
    exact same.1.ge
  have le := (List.pairwise_cons.1 sorted).1 _ inTail
  rcases Prod.Lex.toLex_le_toLex.1 le with before | ⟨same, _⟩
  · exact le_of_lt before
  · exact le_of_eq same

theorem not_holds_of_peek_eq_none (bare : deadlines.peek = none)
    (instant : ℤ) (key : Key) : ¬ deadlines.Holds instant key := by
  have itemsEq : deadlines.items = [] := by simpa [peek] using bare
  simp [Holds, itemsEq]

theorem dueCount_le_size (deadlines : Deadlines Key) (now : ℤ) : deadlines.dueCount now ≤ deadlines.size :=
  List.countP_le_length

/-- Popping a pair whose instant has come leaves one such pair fewer. -/
theorem dueCount_pop {now : ℤ} (top : deadlines.peek = some (instant, key)) (due : instant ≤ now) :
    deadlines.dueCount now = deadlines.pop.dueCount now + 1 := by
  obtain ⟨tail, isItems⟩ := items_of_peek top
  simp [dueCount, pop, isItems, due]

/-- Queueing a later instant leaves the pairs whose instant has come as they were. -/
theorem dueCount_push_of_lt {now : ℤ} (later : now < instant) :
    (deadlines.push instant key).dueCount now = deadlines.dueCount now := by
  have perm := List.perm_orderedInsert (· ≤ ·) (toLex (instant, key)) deadlines.items
  have countEq := perm.countP_eq (fun item => decide ((ofLex item).1 ≤ now))
  rw [List.countP_cons_of_neg (by rw [decide_eq_true_eq]; exact not_le.2 later)] at countEq
  exact countEq

end Deadlines

end SipServer.Lib
