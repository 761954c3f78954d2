/-
Module: SipServer.Repl.Bootstrap
Purpose: A node whose calls a caller backs up, writing them while it serves the caller's cold flow: the scan
  of `ReplServer::serve_bootstrap` (`b2bua/src/repl/server/bootstrap.rs`) and the tail after it, each write
  storing its body and metadata before it moves its changelog entry.
Trusted boundary: translated from the source
-/
import SipServer.Repl.Hold
import SipServer.Store.Replicating

namespace SipServer.Repl

open SipServer.Lib
open SipServer.Store

/-!
A body is the stamp of the write that stored it, a number that grows with every write begun. Writes of
different calls interleave with each other and with the flow at every step; the writes of one call follow
each other, since the router holds the call's lock across them. A call's backup does not change. Left out:
bodies that expire while the flow runs.
-/

/-- The data frame of what a flow sent. -/
def Sent.built {Body : Type} : Sent Body → Option (Built Body)
  | .data built => some built
  | _ => none

/-- A write that stored what it writes and has not moved its changelog entry yet. -/
inductive Writing where
  | put (write : PutWrite ℕ)
  | delete (write : DeleteWrite) (incarnation : Option String)
deriving Repr, DecidableEq

/-- The last write of a call that moved its changelog entry. -/
inductive Logged where
  | put (stamp : ℕ)
  | delete
deriving Repr, DecidableEq

/-- The node `self` serving the flow of `caller`. `logged` and `sent` are the observer's: each call's last
    logged write, and everything the flow sent. -/
structure Serving where
  self : String
  caller : String
  nowMs : ℤ
  store : ReplicatingCallStore ℕ
  writing : KeyMap String Writing
  stamp : ℕ
  flow : ServeFlow ℕ
  logged : String → Option Logged
  sent : List (Sent ℕ)

namespace Serving

inductive Event where
  /-- A write of a call stores its body and metadata. -/
  | beginPut (callRef : String) (indexes : List String) (ttlMs callGen callBgen : ℤ) (originNowMs : Option ℤ)
      (incarnation : Option String)
  | beginDelete (callRef : String) (indexes : List String) (answered : Bool) (incarnation : Option String)
  /-- The write in flight moves its call's changelog entry. -/
  | log (callRef : String)
  /-- An operation of the changelog on another flow. -/
  | elsewhere (operation : Changelog.Operation)
  /-- The clock moves on and no body expires. -/
  | tick (laterMs : ℤ)
  /-- The flow takes its next step; `noopDue` is whether the idle `Noop` is due where that matters. -/
  | advance (noopDue : Bool)
deriving Repr, DecidableEq

variable (serving : Serving)

/-- The place of this node's own call. -/
def place (callRef : String) : BodyKey := ⟨.primary, serving.self, callRef⟩

/-- What a body read of the flow answers. -/
def read (callRef : String) : Option (StoredEntry ℕ) :=
  (serving.store.readEntry serving.nowMs (serving.place callRef)).map fun entry =>
    ⟨entry.1, entry.2.incarnation⟩

/-- The stamp of the body of a call the caller backs up, if it is stored. -/
def offered (callRef : String) : Option ℕ :=
  if (serving.store.records.get callRef).any
    (ReplicatingCallStore.backedBy serving.nowMs serving.self serving.caller)
  then (serving.store.inner.bodies.get (serving.place callRef)).map (·.body)
  else none

/-- A forward write to the caller. -/
def opts (originNowMs : Option ℤ) (incarnation : Option String) : PutOpts :=
  ⟨some serving.caller, some .forward, originNowMs, incarnation⟩

/-- The caller opens a cold flow on a node that holds `store`; every call stored was written before. -/
def start (store : ReplicatingCallStore ℕ) (self caller : String) (identity : Option String) (nowMs : ℤ)
    (stamp batch : ℕ) : Serving :=
  let opened : Serving :=
    { self := self
      caller := caller
      nowMs := nowMs
      store := { store with changelog := store.changelog.pull nowMs caller identity .bak .origin }
      writing := ∅
      stamp := stamp
      flow := .opened caller .bak batch .origin
      logged := fun _ => none
      sent := [] }
  { opened with logged := fun callRef => (opened.offered callRef).map .put }

/-- The put in flight carries the next stamp as its body. -/
def beginPut (write : PutWrite ℕ) : Serving :=
  let stored := serving.store.storePut serving.nowMs write
  { serving with
    store := stored.1
    stamp := write.body
    writing := if stored.2 then serving.writing.insert write.callRef (.put write) else serving.writing }

def beginDelete (write : DeleteWrite) : Serving :=
  { serving with
    store := serving.store.storeDelete serving.nowMs write
    writing :=
      if serving.store.deletesAnother write then serving.writing
      else serving.writing.insert write.callRef (.delete write (serving.store.deletedIncarnation write)) }

/-- The write in flight moves its entry. -/
def log (callRef : String) (writing : Writing) : Serving :=
  { serving with
    store :=
      match writing with
      | .put write => serving.store.logPut serving.nowMs write
      | .delete write incarnation => serving.store.logDelete serving.nowMs write incarnation
    writing := serving.writing.remove callRef
    logged := fun other =>
      if other = callRef then
        match writing with
        | .put write => some (.put write.body)
        | .delete _ _ => some .delete
      else serving.logged other }

/-- The step the flow takes next, with what the store answers it. -/
def nextEvent (noopDue : Bool) : Option (FlowEvent ℕ) :=
  match serving.flow.phase with
  | .starting _ => some .start
  | .scanHead => some .scanHead
  | .scanMark _ => some .scanMark
  | .scanKeys _ =>
    some (.scanKeys (serving.store.scanRefsBackedBy serving.nowMs serving.self serving.caller))
  | .scan _ (key :: _) _ _ => some (.scanRead (serving.read key))
  | .scan _ [] _ _ => some .scanSend
  | .drain => some .snapshot
  | .read (due :: _) _ => some (.read (serving.read due.callRef))
  | .read [] _ => none
  | .vanished _ _ _ _ => some .lookUp
  | .send (_ :: _) _ => some .send
  | .send [] _ => some (.settle noopDue)
  | .idle => some .wake
  | .ended => none

/-- No record that was not expired is expired later. -/
def keepsBodies (laterMs : ℤ) : Bool :=
  serving.store.records.keys.all fun callRef =>
    (serving.store.records.get callRef).all fun record =>
      !record.expired laterMs || record.expired serving.nowMs

def step : Event → Option Serving
  | .beginPut callRef indexes ttlMs callGen callBgen originNowMs incarnation =>
    if serving.writing.get callRef = none then
      some (serving.beginPut ⟨.primary, serving.self, callRef, serving.stamp + 1, indexes, ttlMs, callGen,
        callBgen, serving.opts originNowMs incarnation⟩)
    else none
  | .beginDelete callRef indexes answered incarnation =>
    if serving.writing.get callRef = none then
      some (serving.beginDelete
        ⟨.primary, serving.self, callRef, indexes, answered, serving.opts none incarnation⟩)
    else none
  | .log callRef => (serving.writing.get callRef).map fun writing => serving.log callRef writing
  | .elsewhere operation =>
    if operation.flowOf.any fun flow => decide (flow ≠ (serving.caller, .bak)) then
      some { serving with
        store := { serving.store with changelog := serving.store.changelog.step operation } }
    else none
  | .tick laterMs =>
    if serving.nowMs ≤ laterMs ∧ serving.keepsBodies laterMs = true
      then some { serving with nowMs := laterMs }
    else none
  | .advance noopDue =>
    ((serving.nextEvent noopDue).bind (ServeFlow.step serving.store.changelog serving.flow)).map
      fun stepped =>
      { serving with
        store := { serving.store with changelog := stepped.1 }
        flow := stepped.2.1
        sent := serving.sent ++ stepped.2.2 }

/-! ### What was sent -/

/-- The data frames sent, in order. -/
def sentFrames : List (Built ℕ) := serving.sent.filterMap Sent.built

/-- The last frame of a call that was sent. -/
def lastFrame (callRef : String) : Option (Built ℕ) :=
  (serving.sentFrames.filter fun built => decide (built.frame.callRef = callRef)).getLast?

/-- The flow drains its tail now and the snapshot finds no entry above the cursor. -/
def caughtUp : Bool :=
  decide (serving.flow.phase = .drain) &&
    (serving.store.changelog.drain serving.flow.peer serving.flow.partition serving.flow.cursor
      serving.flow.batch).2.isEmpty

end Serving

end SipServer.Repl
