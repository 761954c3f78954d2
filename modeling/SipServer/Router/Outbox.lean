/-
Module: SipServer.Router.Outbox
Purpose: The per-call outbox (`b2bua/src/router/outbox.rs`), one step per critical section: the push that
  runs its effects at once or queues them, the drainer from its read of the head to its leaving, the release
  that takes the rest, and the depth they count and then publish.
Trusted boundary: translated from the source
-/
import SipServer.Repl.Changelog

namespace SipServer.Router

open SipServer.Lib

/-!
What the change log and the clock answer comes with the event: whether a push finds its target applied, and
what the drainer's wait returns. `publish_depth` counts atomically and then stores the gauge, and a task may
stop between the two. A new outbox's drainer is spawned with the insert into the map, where the source spawns
it once the map lock is dropped. The panicking effect and the fence (`DrainerExit`) are left out, and so are
the counts of released entries, which nothing here reads.
-/

inductive SyncLevel where
  | off
  | applied
deriving Repr, DecidableEq

/-- Why an outbox entry left. -/
inductive Released where
  | atOnce
  | applied
  | capped
  | backupLost
  | callReleased
deriving Repr, DecidableEq

/-- The write whose application on the call's backup an entry waits for. -/
structure HoldTarget where
  peer : String
  partition : Repl.Partition
  position : Repl.Watermark
deriving DecidableEq

structure Entry (Effect : Type) where
  id : ℕ
  wait : Option HoldTarget
  effects : Effect
deriving DecidableEq

/-- One call's queued entries, whether its send lock is held, and the kick its drainer has yet to take. -/
structure CallOutbox (Effect : Type) where
  entries : List (Entry Effect)
  nextId : ℕ
  sending : Bool
  kick : Bool
  done : Bool
deriving DecidableEq

namespace CallOutbox

variable {Effect : Type}

def new : CallOutbox Effect := ⟨[], 0, false, false, false⟩

/-- Queue effects behind every entry queued before. -/
def queue (outbox : CallOutbox Effect) (wait : Option HoldTarget) (effects : Effect) : CallOutbox Effect :=
  { outbox with entries := outbox.entries ++ [⟨outbox.nextId, wait, effects⟩], nextId := outbox.nextId + 1 }

end CallOutbox

/-- Where a drainer is between two of its critical sections. -/
inductive Drainer (Effect : Type) where
  /-- About to read the head. -/
  | reading
  /-- Read no head, and is about to take the map lock. -/
  | leaving
  /-- In `Outboxes::wait` for the entry of this id. -/
  | waiting (id : ℕ)
  /-- Waits for the send lock. -/
  | locking (id : ℕ) (released : Released)
  /-- Holds the send lock, and is about to take the head. -/
  | taking (id : ℕ) (released : Released)
  /-- An entry's effects run. -/
  | sending (effects : Effect)
  | ended
deriving DecidableEq

/-- A push or a release under way. -/
inductive Turn (Effect : Type) where
  /-- A push that found nothing queued and is about to run its effects. -/
  | ready (effects : Effect) (released : Released)
  | running (effects : Effect)
  /-- A release that found its call's outbox and waits for the send lock. -/
  | found (outbox : ℕ)
  /-- A release that holds the send lock and is about to take the head. -/
  | taking (outbox : ℕ)
  | sending (outbox : ℕ) (effects : Effect)
deriving DecidableEq

/-- What the node holds for one call: the outbox in the map, every outbox made for it with its drainer, and
    the pushes and releases under way. `pushed` and `ran` are what an observer notes: the effects in the
    order they were queued or run, and those begun. -/
structure CallEffects (Effect : Type) where
  outbox : Option ℕ
  outboxes : ℕ → CallOutbox Effect
  drainers : ℕ → Drainer Effect
  created : ℕ
  turns : KeyMap ℕ (Turn Effect)
  pushed : List Effect
  ran : List (Effect × Released)

/-- What happens to one call's outbox. -/
inductive OutboxEvent (Effect : Type) where
  /-- A push; `applied` is what it reads of its target. -/
  | push (turn : ℕ) (effects : Effect) (wait : Option HoldTarget) (applied : Bool)
  | release (turn : ℕ)
  /-- The next step of a push or a release under way. -/
  | proceed (turn : ℕ)
  /-- The next step of an outbox's drainer; `released` is what its wait answers, `none` when it is kicked. -/
  | drain (outbox : ℕ) (released : Option Released)
deriving DecidableEq

namespace CallEffects

variable {Effect : Type}

def new : CallEffects Effect where
  outbox := none
  outboxes := fun _ => .new
  drainers := fun _ => .ended
  created := 0
  turns := ∅
  pushed := []
  ran := []

variable (call : CallEffects Effect)

def setOutbox (number : ℕ) (outbox : CallOutbox Effect) : CallEffects Effect :=
  { call with outboxes := Function.update call.outboxes number outbox }

def setDrainer (number : ℕ) (drainer : Drainer Effect) : CallEffects Effect :=
  { call with drainers := Function.update call.drainers number drainer }

def setTurn (number : ℕ) (turn : Turn Effect) : CallEffects Effect :=
  { call with turns := call.turns.insert number turn }

def endTurn (number : ℕ) : CallEffects Effect :=
  { call with turns := call.turns.remove number }

/-- Queue effects on an outbox, under the map lock. -/
def queueOn (number : ℕ) (wait : Option HoldTarget) (effects : Effect) : CallEffects Effect :=
  { call.setOutbox number ((call.outboxes number).queue wait effects) with
    pushed := call.pushed ++ [effects] }

/-- A new outbox in the map, its drainer spawned at its first read. -/
def opened : CallEffects Effect :=
  { (call.setOutbox call.created .new).setDrainer call.created .reading with
    outbox := some call.created
    created := call.created + 1 }

/-- The push of effects, up to the end of its critical section, and what it adds to the depth. -/
def push (level : SyncLevel) (turn : ℕ) (effects : Effect) (wait : Option HoldTarget)
    (applied : Bool) : CallEffects Effect × ℤ :=
  let wait := if level = .applied then wait else none
  match wait, applied, call.outbox with
  | some _, false, none => (call.opened.queueOn call.created wait effects, 1)
  -- A call with entries queued keeps its order: this entry goes behind.
  | _, _, some number => (call.queueOn number wait effects, 1)
  | none, _, none => (call.setTurn turn (.ready effects .atOnce), 0)
  | some _, true, none => (call.setTurn turn (.ready effects .applied), 0)

/-- The effects begin, for a reason. -/
def begin (effects : Effect) (released : Released) : CallEffects Effect :=
  { call with ran := call.ran ++ [(effects, released)] }

/-- Take an outbox out of the map if it is there, drop what it still holds and mark it done. -/
def forget (number : ℕ) : CallEffects Effect × ℤ :=
  let outbox := call.outboxes number
  ({ call.setOutbox number { outbox with entries := [], done := true } with
    outbox := if call.outbox = some number then none else call.outbox }, -outbox.entries.length)

/-- The next step of a push or a release under way; `none` while it waits for the send lock. -/
def proceed (turn : ℕ) : Turn Effect → Option (CallEffects Effect × ℤ)
  | .ready effects released =>
    let call := { call with pushed := call.pushed ++ [effects] }
    some ((call.begin effects released).setTurn turn (.running effects), 1)
  | .running _ => some (call.endTurn turn, -1)
  | .found number =>
    let outbox := call.outboxes number
    if outbox.sending then none
    else some ((call.setOutbox number { outbox with sending := true }).setTurn turn (.taking number), 0)
  | .taking number =>
    let outbox := call.outboxes number
    match outbox.entries with
    | entry :: rest =>
      some (((call.setOutbox number { outbox with entries := rest }).begin entry.effects
        .callReleased).setTurn turn
        (.sending number entry.effects), 0)
    | [] => some ((call.setOutbox number { outbox with kick := true, sending := false }).endTurn turn, 0)
  | .sending number _ => some (call.setTurn turn (.taking number), -1)

/-- The next step of an outbox's drainer; `none` while it cannot take it. -/
def drain (number : ℕ) (released : Option Released) : Option (CallEffects Effect × ℤ) :=
  let outbox := call.outboxes number
  match call.drainers number with
  | .reading =>
    match outbox.entries with
    | [] => some (call.setDrainer number .leaving, 0)
    | ⟨id, none, _⟩ :: _ => some (call.setDrainer number (.locking id .atOnce), 0)
    | ⟨id, some _, _⟩ :: _ => some (call.setDrainer number (.waiting id), 0)
  | .leaving =>
    if outbox.entries = [] then
      let (call, depth) := call.forget number
      some (call.setDrainer number .ended, depth)
    else some (call.setDrainer number .reading, 0)
  | .waiting id =>
    match released with
    | some released => some (call.setDrainer number (.locking id released), 0)
    | none =>
      if outbox.kick then
        some ((call.setOutbox number { outbox with kick := false }).setDrainer number .reading, 0)
      else none
  | .locking id released =>
    if outbox.sending then none
    else some ((call.setOutbox number { outbox with sending := true }).setDrainer number
      (.taking id released), 0)
  | .taking id released =>
    match outbox.entries with
    | entry :: rest =>
      if entry.id = id then
        some (((call.setOutbox number { outbox with entries := rest }).begin entry.effects
          released).setDrainer number
          (.sending entry.effects), 0)
      else some ((call.setOutbox number { outbox with sending := false }).setDrainer number .reading, 0)
    | [] => some ((call.setOutbox number { outbox with sending := false }).setDrainer number .reading, 0)
  | .sending _ =>
    some ((call.setOutbox number { outbox with sending := false }).setDrainer number .reading, -1)
  | .ended => none

/-- One step, with what it adds to the depth. -/
def step (level : SyncLevel) : OutboxEvent Effect → Option (CallEffects Effect × ℤ)
  | .push turn effects wait applied =>
    match call.turns.get turn with
    | none => some (call.push level turn effects wait applied)
    | some _ => none
  | .release turn =>
    match call.turns.get turn, call.outbox with
    | none, some number => some (call.setTurn turn (.found number), 0)
    | none, none => some (call, 0)
    | some _, _ => none
  | .proceed turn => (call.turns.get turn).bind (call.proceed turn)
  | .drain number released => call.drain number released

/-- The step takes the lock of the map of outboxes. -/
def takesMapLock : OutboxEvent Effect → Bool
  | .push .. | .release _ => true
  | .proceed _ => false
  | .drain number _ =>
    match call.drainers number with
    | .leaving => true
    | _ => false

end CallEffects

/-- A task with a step to take: a push or a release under way, or an outbox's drainer. -/
inductive Task where
  | turn (number : ℕ)
  | drainer (outbox : ℕ)
deriving DecidableEq

/-- The next step of a task that runs effects. -/
def Task.next {Effect : Type} : Task → OutboxEvent Effect
  | .turn number => .proceed number
  | .drainer outbox => .drain outbox none

/-- A push that stopped with its entry queued and the map lock held: the count it has yet to store in the
    gauge, once it counted, and the drainer it has yet to spawn. -/
structure Publishing where
  counted : Option ℤ
  spawns : Option (String × ℕ)

/-- The outboxes of the node's calls, the count of their entries and the gauge that publishes it. `pushing`
    is a push that stopped before its store of the gauge, `storing` the counts that other tasks stopped
    before storing. The source's `usize` wraps where these integers go below zero. -/
structure Outboxes (Effect : Type) where
  level : SyncLevel
  calls : KeyMap String (CallEffects Effect)
  depth : ℤ
  gauge : ℤ
  pushing : Option Publishing
  storing : KeyMap (String × Task) ℤ

/-- A step of the node's outboxes. -/
inductive NodeEvent (Effect : Type) where
  /-- A step; if it counts, it stores the gauge before any other task steps. -/
  | step (callRef : String) (event : OutboxEvent Effect)
  /-- A push onto the call's outbox stops between its queueing and its count, while other tasks step. -/
  | interruptedPush (callRef : String) (turn : ℕ) (effects : Effect) (wait : Option HoldTarget)
      (applied : Bool)
  /-- And counts its entry. -/
  | count
  /-- And stores the gauge. -/
  | storePush
  /-- A task counts its entry in or out and stops before its store of the gauge. -/
  | stop (callRef : String) (task : Task)
  /-- And stores it, and goes on. -/
  | store (callRef : String) (task : Task)
deriving DecidableEq

namespace Outboxes

variable {Effect : Type}

def new (level : SyncLevel) : Outboxes Effect := ⟨level, ∅, 0, 0, none, ∅⟩

/-- What the node holds for a call. -/
def call (outboxes : Outboxes Effect) (callRef : String) : CallEffects Effect :=
  (outboxes.calls.get callRef).getD .new

/-- The event waits for a push or a task that stopped: for the map lock, for the drainer's spawn, or for its
    own store. -/
def waits (outboxes : Outboxes Effect) (callRef : String) (event : OutboxEvent Effect) : Bool :=
  let stopped (task : Task) := (outboxes.storing.get (callRef, task)).isSome
  outboxes.pushing.isSome && (outboxes.call callRef).takesMapLock event ||
    match event with
    | .push .. | .release _ => false
    | .proceed turn => stopped (.turn turn)
    | .drain number _ =>
      stopped (.drainer number) ||
        outboxes.pushing.any fun push => decide (push.spawns = some (callRef, number))

/-- One step, if it can be taken. -/
def step (outboxes : Outboxes Effect) : NodeEvent Effect → Option (Outboxes Effect)
  | .step callRef event =>
    if outboxes.waits callRef event then none
    else ((outboxes.call callRef).step outboxes.level event).map fun (call, change) =>
      { outboxes with
        calls := outboxes.calls.insert callRef call
        depth := outboxes.depth + change
        gauge := if change = 0 then outboxes.gauge else outboxes.depth + change }
  | .interruptedPush callRef turn effects wait applied =>
    let call := outboxes.call callRef
    if outboxes.pushing.isSome then none
    else (call.step outboxes.level (.push turn effects wait applied)).bind fun (after, change) =>
      if change = 0 then none
      else some { outboxes with
        calls := outboxes.calls.insert callRef after
        pushing := some ⟨none, if call.outbox.isNone then some (callRef, call.created) else none⟩ }
  | .count =>
    match outboxes.pushing with
    | some ⟨none, spawns⟩ =>
      some { outboxes with depth := outboxes.depth + 1, pushing := some ⟨some (outboxes.depth + 1), spawns⟩ }
    | _ => none
  | .storePush =>
    match outboxes.pushing with
    | some ⟨some depth, _⟩ => some { outboxes with gauge := depth, pushing := none }
    | _ => none
  | .stop callRef task =>
    if outboxes.waits callRef (task.next : OutboxEvent Effect) then none
    else ((outboxes.call callRef).step outboxes.level task.next).bind fun (_, change) =>
      if change = 0 then none
      else
        let depth := outboxes.depth + change
        some { outboxes with depth, storing := outboxes.storing.insert (callRef, task) depth }
  | .store callRef task =>
    match outboxes.storing.get (callRef, task), (outboxes.call callRef).step outboxes.level task.next with
    | some depth, some (call, _) =>
      some { outboxes with
        calls := outboxes.calls.insert callRef call
        gauge := depth
        storing := outboxes.storing.remove (callRef, task) }
    | _, _ => none

end Outboxes

end SipServer.Router
