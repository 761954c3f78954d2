/-
Module: SipServer.Repl.Hold
Purpose: A message held until a backup applied the write that records it (`Outboxes::wait` in
  `b2bua/src/router/outbox.rs`, `Changelog::applied_reaches` in `changelog/progress.rs`), together with what
  moves the position it waits for: the node's writes, the flows it serves to the peer, and the peer that
  applies what they carry and reports (`Puller::run_once` in `b2bua/src/repl/puller.rs`).
Trusted boundary: translated from the source
-/
import SipServer.Repl.Flow
import SipServer.Lib.Runs

namespace SipServer.Repl

open SipServer.Lib

/-!
The peer pulls warm: it holds a position of the node's incarnation, and opens each flow from the position it
retained. A flow that answers with a reset leaves the peer with no position, so the link ends there. Several
serve tasks may run at once, since a node can be slow to see that a peer left; the peer reads only the
connection it opened last.
-/

/-! ### The wait -/

inductive WaitPhase where
  /-- Waiting for the peer to report the position or past it. -/
  | waiting
  /-- The position was reported; the call's entry is looked up again. -/
  | reached
  /-- `Released::Applied`. -/
  | released
  /-- `Released::BackupLost`. -/
  | lost
deriving Repr, DecidableEq

/-- The wait of a message of `callRef`, recorded by the write at `target`, for the peer to reach
    `position`. -/
structure Waiter where
  callRef : String
  target : Watermark
  position : Watermark
  phase : WaitPhase
deriving Repr, DecidableEq

/-- The position to wait for: the call's entry now, if it moved past `position`. -/
def Changelog.awaited (log : Changelog) (peer : String) (partition : Partition) (callRef : String)
    (position : Watermark) : Watermark :=
  match log.positionOf peer partition callRef with
  | none => position
  | some now => position.highest now

namespace Waiter

/-- The wait starts. -/
def start (log : Changelog) (peer : String) (partition : Partition) (callRef : String) (target : Watermark) :
    Waiter :=
  ⟨callRef, target, log.awaited peer partition callRef target, .waiting⟩

/-- One look at the acknowledged position (`applied_reaches`). -/
def check (waiter : Waiter) (log : Changelog) (peer : String) (partition : Partition) : Waiter :=
  if log.hasApplied peer partition waiter.position then { waiter with phase := .reached }
  else if log.flowConnected peer partition then waiter
  else { waiter with phase := .lost }

/-- The position was reached: release unless the call's entry moved past it meanwhile. -/
def recheck (waiter : Waiter) (log : Changelog) (peer : String) (partition : Partition) : Waiter :=
  let moved := log.awaited peer partition waiter.callRef waiter.position
  if moved = waiter.position then { waiter with phase := .released }
  else { waiter with position := moved, phase := .waiting }

end Waiter

/-! ### The link -/

/-- One connection of the peer: the flow the node serves on it, what is on its way to the peer and the
    positions on their way back. -/
structure Connection (Body : Type) where
  flow : ServeFlow Body
  wire : List (Sent Body)
  reports : List Watermark
  served : Bool
deriving Repr, DecidableEq

/-- How a frame of a call ended at the peer, or its entry before it. -/
inductive Ending where
  | applied
  | refused
  | forgotten
deriving Repr, DecidableEq

/-- What an observer notes: a frame of `callRef` whose contents stand for the node counter `covers`, applied
    or refused by the peer, or the entry at `covers`, forgotten. -/
structure Outcome where
  ending : Ending
  callRef : String
  covers : ℕ
deriving Repr, DecidableEq

/-- The flow an operation is on, for the operations on one flow. -/
def Changelog.Operation.flowOf : Changelog.Operation → Option (String × Partition)
  | .put _ peer _ partition => some (peer, partition)
  | .delete _ peer _ partition _ _ => some (peer, partition)
  | .forget peer partition _ => some (peer, partition)
  | .drain peer partition _ _ => some (peer, partition)
  | .scan peer partition _ => some (peer, partition)
  | .report _ peer _ partition _ => some (peer, partition)
  | .serve _ peer partition => some (peer, partition)
  | .unserve peer partition => some (peer, partition)
  | .coldPull _ _ => none
  | .bind _ _ => none
  | .reap _ => none

/-- The node and one peer pulling one partition under the name `identity`. `outcomes` and `writes` are the
    observer's: what became of frames and entries, and every write toward the peer with its counter. -/
structure Link (Body : Type) where
  peer : String
  identity : Option String
  partition : Partition
  log : Changelog
  connections : KeyMap ℕ (Connection Body)
  opened : ℕ
  live : Option ℕ
  position : Watermark
  waiter : Option Waiter
  outcomes : List Outcome
  writes : List (String × ℕ)

namespace Link

variable {Body : Type}

inductive Event (Body : Type) where
  | put (nowMs : ℤ) (callRef : String)
  | delete (nowMs : ℤ) (callRef : String) (answered : Bool) (incarnation : Option String)
  /-- An operation on another flow. -/
  | elsewhere (operation : Changelog.Operation)
  | forget (callRef : String)
  /-- Reap what the peer applied; its log is kept. -/
  | reap (nowMs : ℤ)
  /-- The peer opens a flow from its position. -/
  | pull (nowMs : ℤ) (batch : ℕ)
  | flow (id : ℕ) (event : FlowEvent Body)
  /-- The serve task ends; what it sent may still reach the peer. -/
  | close (id : ℕ)
  /-- The peer leaves the connection it reads. -/
  | leave
  /-- The peer takes the next frame, applying or refusing it, and reports. -/
  | deliver (refused : Bool)
  /-- The node receives the next report of a connection it serves. -/
  | receive (nowMs : ℤ) (id : ℕ)
  /-- A message recorded by the write of `callRef` at `counter` is held. -/
  | hold (callRef : String) (counter : ℕ)
  | check
  | recheck
  /-- The cap expired, or the drainer was woken. -/
  | giveUp
deriving Repr, DecidableEq

/-- The sub-log the peer pulls. -/
def sub (link : Link Body) : Option SubLog := link.log.sub link.peer link.partition

/-- The peer retained position `counter` of the node's incarnation, and no flow is open. -/
def start (log : Changelog) (peer : String) (identity : Option String) (partition : Partition)
    (counter : ℕ) : Link Body where
  peer := peer
  identity := identity
  partition := partition
  log := log
  connections := ∅
  opened := 0
  live := none
  position := ⟨log.gen, counter⟩
  waiter := none
  outcomes := []
  writes := []

/-- A write of `callRef` toward the peer. -/
def write (link : Link Body) (nowMs : ℤ) (callRef : String) (op : Op) (stated : Stated) : Link Body :=
  let bumped := link.log.bump nowMs link.peer callRef op link.partition stated
  { link with log := bumped.1, writes := (callRef, bumped.2.counter) :: link.writes }

/-- The entry of `callRef` is forgotten, if it has one. -/
def forget (link : Link Body) (callRef : String) : Link Body :=
  { link with
    log := link.log.forget link.peer link.partition callRef
    outcomes :=
      match link.log.positionOf link.peer link.partition callRef with
      | some position => ⟨.forgotten, callRef, position.counter⟩ :: link.outcomes
      | none => link.outcomes }

/-- The peer's position after a frame: a data frame's own, a `Noop`'s when it is higher. -/
def positionAfter (position : Watermark) : Sent Body → Watermark
  | .data built => built.frame.position
  | .noop noop => position.highest noop
  | .reset => position

/-- What the observer notes of a frame the peer took. -/
def outcomeOf (refused : Bool) : Sent Body → List Outcome
  | .data built => [⟨if refused then .refused else .applied, built.frame.callRef, built.covers⟩]
  | _ => []

/-- The position the peer reports after a frame. -/
def reportOf : Sent Body → List Watermark
  | .data built => [built.frame.position]
  | .noop noop => [noop]
  | .reset => []

/-- The peer takes `sent`, the next frame of the connection `id`. -/
def take (link : Link Body) (id : ℕ) (connection : Connection Body) (sent : Sent Body)
    (wire : List (Sent Body)) (refused : Bool) : Link Body :=
  { link with
    position := positionAfter link.position sent
    outcomes := outcomeOf refused sent ++ link.outcomes
    connections := link.connections.insert id
      { connection with wire := wire, reports := connection.reports ++ reportOf sent } }

/-- A reap that keeps the peer's log. -/
def keepsPeer (link : Link Body) (nowMs : ℤ) : Bool :=
  (link.log.peers.get link.peer).isNone || ((link.log.reap nowMs).peers.get link.peer).isSome

def step (link : Link Body) : Event Body → Option (Link Body)
  | .put nowMs callRef => some (link.write nowMs callRef .put .nothing)
  | .delete nowMs callRef answered incarnation =>
    some (link.write nowMs callRef .delete ⟨answered, incarnation⟩)
  | .elsewhere operation =>
    if operation.flowOf.any fun flow => decide (flow ≠ (link.peer, link.partition)) then
      some { link with log := link.log.step operation }
    else none
  | .forget callRef => some (link.forget callRef)
  | .reap nowMs => if link.keepsPeer nowMs then some { link with log := link.log.reap nowMs } else none
  | .pull nowMs batch =>
    if link.position = .origin then none
    else
      some { link with
        log := link.log.pull nowMs link.peer link.identity link.partition link.position
        connections := link.connections.insert link.opened
          ⟨.opened link.peer link.partition batch link.position, [], [], true⟩
        opened := link.opened + 1
        live := some link.opened }
  | .flow id event =>
    match link.connections.get id with
    | none => none
    | some connection =>
      if connection.served then
        (ServeFlow.step link.log connection.flow event).map fun stepped =>
          { link with
            log := stepped.1
            connections := link.connections.insert id
              { connection with flow := stepped.2.1, wire := connection.wire ++ stepped.2.2 } }
      else none
  | .close id =>
    match link.connections.get id with
    | none => none
    | some connection =>
      if connection.served then
        some { link with
          log := link.log.unserve link.peer link.partition
          connections := link.connections.insert id { connection with served := false } }
      else none
  | .leave => some { link with live := none }
  | .deliver refused =>
    match link.live with
    | none => none
    | some id =>
      match link.connections.get id with
      | none => none
      | some connection =>
        match connection.wire with
        | [] => none
        | .reset :: _ => none
        | sent :: wire => some (link.take id connection sent wire refused)
  | .receive nowMs id =>
    match link.connections.get id with
    | none => none
    | some connection =>
      match connection.served, connection.reports with
      | true, report :: reports =>
        some { link with
          log := link.log.noteApplied nowMs link.peer link.identity link.partition report
          connections := link.connections.insert id { connection with reports := reports } }
      | _, _ => none
  | .hold callRef counter =>
    if (callRef, counter) ∈ link.writes then
      some { link with
        waiter := some (.start link.log link.peer link.partition callRef ⟨link.log.gen, counter⟩) }
    else none
  | .check =>
    match link.waiter with
    | some ⟨callRef, target, position, .waiting⟩ =>
      some { link with
        waiter := some
          (Waiter.check ⟨callRef, target, position, .waiting⟩ link.log link.peer link.partition) }
    | _ => none
  | .recheck =>
    match link.waiter with
    | some ⟨callRef, target, position, .reached⟩ =>
      some { link with
        waiter := some
          (Waiter.recheck ⟨callRef, target, position, .reached⟩ link.log link.peer link.partition) }
    | _ => none
  | .giveUp => some { link with waiter := none }

end Link

end SipServer.Repl
