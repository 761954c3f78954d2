/-
Module: SipServer.Lib.DelayQueue
Purpose: A queue of timed entries filed in numbered slots that may be used again once free: what each slot
  holds after an insertion or a removal, and which entry may expire next.
-/
import SipServer.Lib.KeyMap

namespace SipServer.Lib

/-- How a queue chooses the slot of its next entry, by the slots freed so far, the latest first, and those in
    use. Any free slot will do. Within one run no two insertions find the same slots freed and in use, so a
    choice that depends on the whole history is one of these too. -/
structure SlotChoice where
  pick : List ℕ → List ℕ → ℕ
  free : ∀ freed used, pick freed used ∉ used

/-- A slab: the slot freed last, or a new one at the end. -/
def SlotChoice.slab : SlotChoice where
  pick freed used := ((freed ++ [used.length]).find? fun key => decide (key ∉ used)).getD (used.sum + 1)
  free freed used := by
    cases found : (freed ++ [used.length]).find? fun key => decide (key ∉ used) with
    | some key =>
      have isFree := List.find?_some found
      exact of_decide_eq_true isFree
    | none =>
      intro member
      have le := List.single_le_sum (fun _ _ => Nat.zero_le _) _ member
      exact absurd le (Nat.not_succ_le_self _)

/-- Entries with the instant each is due, by slot. -/
structure DelayQueue (Value : Type*) where
  entries : KeyMap ℕ (ℕ × Value)
  freed : List ℕ
  choice : SlotChoice

namespace DelayQueue

variable {Value : Type*} {queue : DelayQueue Value} {entry : ℕ × Value} {key : ℕ}

def empty (choice : SlotChoice) : DelayQueue Value := ⟨∅, [], choice⟩

/-- The entry a slot holds. -/
def get (queue : DelayQueue Value) (key : ℕ) : Option (ℕ × Value) := queue.entries.get key

/-- The slot the next insertion takes. -/
def freshKey (queue : DelayQueue Value) : ℕ := queue.choice.pick queue.freed queue.entries.keys

/-- File a value due at an instant. -/
def insert (queue : DelayQueue Value) (value : Value) (due : ℕ) : ℕ × DelayQueue Value :=
  (queue.freshKey, { queue with entries := queue.entries.insert queue.freshKey (due, value) })

/-- Free a slot, whatever it holds. -/
def remove (queue : DelayQueue Value) (key : ℕ) : DelayQueue Value :=
  { queue with
    entries := queue.entries.remove key
    freed := if (queue.get key).isSome then key :: queue.freed else queue.freed }

/-- The entry of a slot is due and no other is due before it. -/
def expires (queue : DelayQueue Value) (now key : ℕ) : Bool :=
  match queue.get key with
  | some (due, _) => due ≤ now && queue.entries.entries.all (fun entry => due ≤ entry.2.1)
  | none => false

/-- No entry is due. -/
def idle (queue : DelayQueue Value) (now : ℕ) : Bool :=
  queue.entries.entries.all (fun entry => now < entry.2.1)

@[simp] theorem get_empty (choice : SlotChoice) (key : ℕ) :
    (empty choice : DelayQueue Value).get key = none := rfl

theorem get_freshKey (queue : DelayQueue Value) : queue.get queue.freshKey = none :=
  AList.lookup_eq_none.2 (queue.choice.free _ _)

@[simp] theorem get_insert (queue : DelayQueue Value) (value : Value) (due key : ℕ) :
    (queue.insert value due).2.get key = if key = queue.freshKey then some (due, value) else queue.get key :=
  KeyMap.get_insert ..

@[simp] theorem get_remove (queue : DelayQueue Value) (key other : ℕ) :
    (queue.remove key).get other = if other = key then none else queue.get other :=
  KeyMap.get_remove ..

/-- The entry that expires is due, and every entry is due then or later. -/
theorem expires_due {now : ℕ} (expires : queue.expires now key = true) :
    ∃ due value, queue.get key = some (due, value) ∧ due ≤ now ∧
      ∀ other later held, queue.get other = some (later, held) → due ≤ later := by
  unfold DelayQueue.expires at expires
  split at expires
  · rename_i due value found
    obtain ⟨passed, first⟩ := Bool.and_eq_true_iff.1 expires
    refine ⟨due, value, found, of_decide_eq_true passed, ?_⟩
    intro other later held stored
    have least := List.all_eq_true.1 first _ (AList.mem_lookup_iff.1 stored)
    exact of_decide_eq_true least
  · cases expires

theorem lt_of_idle {now due : ℕ} {value : Value} (idle : queue.idle now = true)
    (found : queue.get key = some (due, value)) : now < due :=
  of_decide_eq_true (List.all_eq_true.1 idle _ (AList.mem_lookup_iff.1 found))

/-- A slot that holds an entry is not the next one taken. -/
theorem ne_freshKey_of_get (found : queue.get key = some entry) : key ≠ queue.freshKey := by
  rintro rfl
  rw [queue.get_freshKey] at found
  cases found

end DelayQueue

end SipServer.Lib
