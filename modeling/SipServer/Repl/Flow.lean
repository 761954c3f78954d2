/-
Module: SipServer.Repl.Flow
Purpose: One flow a node serves to a pulling peer (`ReplServer::serve_flow` in `b2bua/src/repl/server.rs`,
  the bootstrap scan in `server/bootstrap.rs`, the drain in `changelog/drain.rs`), step by step: a step is
  what happens between two lock acquisitions, body reads or sends.
Trusted boundary: translated from the source
-/
import SipServer.Repl.Changelog

namespace SipServer.Repl

/-!
Bodies are of an open type `Body`, with the metadata a frame carries beside them. A body read is an event
that brings what the store answered, so that writes can fall between any two of them. A frame also carries,
for the observer only, the node counter its contents stand for: the counter when the body was read, or the
delete's own.

Left out: a frame the transport cannot encode, which the flow skips, and the timing of the idle `Noop`.
-/

/-- A body as the store answers it, with its call's incarnation. -/
structure StoredEntry (Body : Type) where
  body : Body
  incarnation : Option String
deriving Repr, DecidableEq

/-- `Frame::Data`. -/
structure DataFrame (Body : Type) where
  position : Watermark
  op : Op
  partition : Partition
  callRef : String
  body : Option Body
  answered : Bool
  incarnation : Option String
deriving Repr, DecidableEq

/-- A delete frame: no body, the answer and the incarnation its entry states. -/
def deleteFrame {Body : Type} (position : Watermark) (partition : Partition) (callRef : String)
    (answered : Bool) (incarnation : Option String) : DataFrame Body :=
  ⟨position, .delete, partition, callRef, none, answered, incarnation⟩

/-- The put frame of a stored body. -/
def putFrame {Body : Type} (position : Watermark) (partition : Partition) (callRef : String)
    (stored : StoredEntry Body) : DataFrame Body :=
  ⟨position, .put, partition, callRef, some stored.body, false, stored.incarnation⟩

/-- A frame with the node counter its contents stand for. -/
structure Built (Body : Type) where
  frame : DataFrame Body
  covers : ℕ
deriving Repr, DecidableEq

/-- What a flow puts on the wire. -/
inductive Sent (Body : Type) where
  | data (built : Built Body)
  | noop (position : Watermark)
  | reset
deriving Repr, DecidableEq

/-- Where a flow stands. -/
inductive Phase (Body : Type) where
  /-- The serve task is registered; the reset test is next. -/
  | starting (since : Watermark)
  | scanHead
  | scanMark (w : Watermark)
  | scanKeys (w : Watermark)
  /-- The keys of the group being read, the later ones, and the group's frames so far. -/
  | scan (w : Watermark) (group later : List String) (frames : List (Built Body))
  | drain
  /-- The snapshotted entries not read yet, and the frames built so far. -/
  | read (due : List Due) (built : List (Built Body))
  /-- The body of `due` was gone when the node counter stood at `readAt`; its entry is looked up next. -/
  | vanished (due : Due) (readAt : ℕ) (rest : List Due) (built : List (Built Body))
  /-- The frames not sent yet, of `count` the drain yielded. -/
  | send (frames : List (Built Body)) (count : ℕ)
  | idle
  | ended
deriving Repr, DecidableEq

/-- The phase after a read: on to the next entry, or to sending. -/
def Phase.reading {Body : Type} (due : List Due) (built : List (Built Body)) : Phase Body :=
  match due with
  | [] => .send built built.length
  | _ :: _ => .read due built

/-- The phase after a group of keys was read and sent: on to the next group, or to the tail. -/
def Phase.scanning {Body : Type} (w : Watermark) (chunk : ℕ) (later : List String) : Phase Body :=
  match later with
  | [] => .drain
  | _ :: _ => .scan w (later.take chunk) (later.drop chunk) []

/-- `BATCH`: the entries one drain takes. -/
def batchLimit : ℕ := 500

/-- `BOOTSTRAP_CHUNK`: the keys one batch of a scan reads. -/
def bootstrapChunk : ℕ := 128

/-- One flow toward `peer` on `partition`, draining at most `batch` entries at a time. -/
structure ServeFlow (Body : Type) where
  peer : String
  partition : Partition
  batch : ℕ
  cursor : Watermark
  everCaughtUp : Bool
  streamedFullBatch : Bool
  phase : Phase Body
deriving Repr, DecidableEq

/-- What moves a flow on. -/
inductive FlowEvent (Body : Type) where
  | start
  | scanHead
  | scanMark
  | scanKeys (keys : List String)
  | scanRead (stored : Option (StoredEntry Body))
  | scanSend
  | snapshot
  | read (stored : Option (StoredEntry Body))
  | lookUp
  | send
  | settle (noopDue : Bool)
  | wake
deriving Repr, DecidableEq

/-- A peer opens a flow from `since`: the serve task is registered, and a cold pull noted. -/
def Changelog.pull (log : Changelog) (nowMs : ℤ) (peer : String) (identity : Option String)
    (partition : Partition) (since : Watermark) : Changelog :=
  let served := log.serving nowMs peer partition
  if since = .origin then served.noteColdPull peer identity else served

namespace ServeFlow

variable {Body : Type}

/-- The flow a pull from `since` starts. -/
def opened (peer : String) (partition : Partition) (batch : ℕ) (since : Watermark) : ServeFlow Body where
  peer := peer
  partition := partition
  batch := batch
  cursor := since
  everCaughtUp := false
  streamedFullBatch := false
  phase := .starting since

/-- The reset test, then where the tail or the scan starts. -/
def start (flow : ServeFlow Body) (log : Changelog) (since : Watermark) :
    ServeFlow Body × List (Sent Body) :=
  if log.needsReset flow.peer flow.partition since then ({ flow with phase := .ended }, [.reset])
  else if since = .origin then ({ flow with phase := .scanHead }, [])
  else if since.gen < log.gen then
    ({ flow with cursor := (log.openedAt flow.peer flow.partition).getD since, phase := .drain }, [])
  else ({ flow with cursor := since, phase := .drain }, [])

/-- Whether a `Noop` sent now is one of the catch-up edge: the flow's first, or the one after a full
    batch. -/
def edge (flow : ServeFlow Body) : Bool := !flow.everCaughtUp || flow.streamedFullBatch

/-- The drain's frames are sent: go on after a full batch, else announce being caught up and wait. -/
def settle (flow : ServeFlow Body) (count : ℕ) (noopDue : Bool) : ServeFlow Body × List (Sent Body) :=
  if count = flow.batch then ({ flow with streamedFullBatch := true, phase := .drain }, [])
  else if flow.edge || noopDue then
    ({ flow with everCaughtUp := true, streamedFullBatch := false, phase := .idle }, [.noop flow.cursor])
  else ({ flow with phase := .idle }, [])

/-- Read the body of the next snapshotted entry; a delete needs none. -/
def read (flow : ServeFlow Body) (log : Changelog) (due : Due) (rest : List Due) (built : List (Built Body))
    (stored : Option (StoredEntry Body)) : Phase Body :=
  let position : Watermark := ⟨log.gen, due.counter⟩
  match due.op, stored with
  | .delete, _ =>
    let frame := deleteFrame position flow.partition due.callRef due.answered due.incarnation
    .reading rest (built ++ [⟨frame, due.counter⟩])
  | .put, some entry =>
    let frame := putFrame position flow.partition due.callRef entry
    .reading rest (built ++ [⟨frame, log.counter⟩])
  | .put, none => .vanished due log.counter rest built

/-- The body was gone: a delete recorded since has an entry of its own, any other loss goes out as a
    delete. -/
def lookUp (flow : ServeFlow Body) (log : Changelog) (due : Due) (readAt : ℕ) (rest : List Due)
    (built : List (Built Body)) : Phase Body :=
  match log.current flow.peer flow.partition due.callRef with
  | some (.delete, _) => .reading rest built
  | current =>
    let position : Watermark := ⟨log.gen, due.counter⟩
    let frame := deleteFrame position flow.partition due.callRef (current.any (·.2)) none
    .reading rest (built ++ [⟨frame, readAt⟩])

/-- Read the body of the next key of a scan; a key whose body is gone is left out. -/
def scanRead (flow : ServeFlow Body) (log : Changelog) (w : Watermark) (key : String)
    (stored : Option (StoredEntry Body)) : List (Built Body) :=
  match stored with
  | some entry => [⟨putFrame w flow.partition key entry, log.counter⟩]
  | none => []

/-- One step of the flow: the changelog it leaves, the flow, and what it put on the wire. -/
def step (log : Changelog) (flow : ServeFlow Body) (event : FlowEvent Body) :
    Option (Changelog × ServeFlow Body × List (Sent Body)) :=
  match event, flow.phase with
  | .start, .starting since => some (log, (flow.start log since).1, (flow.start log since).2)
  | .scanHead, .scanHead => some (log, { flow with phase := .scanMark log.head }, [])
  | .scanMark, .scanMark w =>
    some (log.noteScanned flow.peer flow.partition w, { flow with phase := .scanKeys w }, [])
  | .scanKeys keys, .scanKeys w =>
    some (log, { flow with cursor := w, phase := .scanning w bootstrapChunk keys }, [])
  | .scanRead stored, .scan w (key :: group) later frames =>
    some (log,
      { flow with phase := .scan w group later (frames ++ flow.scanRead log w key stored) }, [])
  | .scanSend, .scan w [] later frames =>
    some (log, { flow with phase := .scanning w bootstrapChunk later }, frames.map .data)
  | .snapshot, .drain =>
    let drained := log.drain flow.peer flow.partition flow.cursor flow.batch
    some (drained.1, { flow with phase := .reading drained.2 [] }, [])
  | .read stored, .read (due :: rest) built =>
    some (log, { flow with phase := flow.read log due rest built stored }, [])
  | .lookUp, .vanished due readAt rest built =>
    some (log, { flow with phase := flow.lookUp log due readAt rest built }, [])
  | .send, .send (built :: frames) count =>
    some (log, { flow with cursor := built.frame.position, phase := .send frames count }, [.data built])
  | .settle noopDue, .send [] count =>
    some (log, (flow.settle count noopDue).1, (flow.settle count noopDue).2)
  | .wake, .idle => some (log, { flow with phase := .drain }, [])
  | _, _ => none

end ServeFlow

end SipServer.Repl
