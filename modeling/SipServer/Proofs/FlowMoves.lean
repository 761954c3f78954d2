/-
Module: SipServer.Proofs.FlowMoves
Purpose: Everything one step of a served flow can do, and that a step leaves the changelog indexed.
-/
import SipServer.Repl.Flow
import SipServer.Proofs.ChangelogStates

namespace SipServer.Repl

theorem Changelog.Indexed.pull {log : Changelog} (indexed : log.Indexed) (nowMs : ℤ) (peer : String)
    (identity : Option String) (partition : Partition) (since : Watermark) :
    (log.pull nowMs peer identity partition since).Indexed := by
  have served := indexed.step (.serve nowMs peer partition)
  unfold Changelog.pull
  split
  · exact served.step (.coldPull peer identity)
  · exact served

namespace ServeFlow

variable {Body : Type}

/-- What a step of `flow` over `log` does: the event, the changelog and the flow it leaves, and what it
    sends. -/
inductive Moves (log : Changelog) (flow : ServeFlow Body) :
    FlowEvent Body → Changelog → ServeFlow Body → List (Sent Body) → Prop
  | start {since : Watermark} (phase : flow.phase = .starting since) :
      Moves log flow .start log (flow.start log since).1 (flow.start log since).2
  | scanHead (phase : flow.phase = .scanHead) :
      Moves log flow .scanHead log { flow with phase := .scanMark log.head } []
  | scanMark {w : Watermark} (phase : flow.phase = .scanMark w) :
      Moves log flow .scanMark (log.noteScanned flow.peer flow.partition w)
        { flow with phase := .scanKeys w } []
  | scanKeys {w : Watermark} (keys : List String) (phase : flow.phase = .scanKeys w) :
      Moves log flow (.scanKeys keys) log
        { flow with cursor := w, phase := .scanning w bootstrapChunk keys } []
  | scanRead {w : Watermark} {key : String} {group later : List String} {frames : List (Built Body)}
      (stored : Option (StoredEntry Body)) (phase : flow.phase = .scan w (key :: group) later frames) :
      Moves log flow (.scanRead stored) log
        { flow with phase := .scan w group later (frames ++ flow.scanRead log w key stored) } []
  | scanSend {w : Watermark} {later : List String} {frames : List (Built Body)}
      (phase : flow.phase = .scan w [] later frames) :
      Moves log flow .scanSend log { flow with phase := .scanning w bootstrapChunk later } (frames.map .data)
  | snapshot (phase : flow.phase = .drain) :
      Moves log flow .snapshot (log.drain flow.peer flow.partition flow.cursor flow.batch).1
        { flow with
          phase := .reading (log.drain flow.peer flow.partition flow.cursor flow.batch).2 [] } []
  | read {due : Due} {rest : List Due} {built : List (Built Body)} (stored : Option (StoredEntry Body))
      (phase : flow.phase = .read (due :: rest) built) :
      Moves log flow (.read stored) log { flow with phase := flow.read log due rest built stored } []
  | lookUp {due : Due} {readAt : ℕ} {rest : List Due} {built : List (Built Body)}
      (phase : flow.phase = .vanished due readAt rest built) :
      Moves log flow .lookUp log { flow with phase := flow.lookUp log due readAt rest built } []
  | send {built : Built Body} {frames : List (Built Body)} {count : ℕ}
      (phase : flow.phase = .send (built :: frames) count) :
      Moves log flow .send log
        { flow with cursor := built.frame.position, phase := .send frames count } [.data built]
  | settle {count : ℕ} (noopDue : Bool) (phase : flow.phase = .send [] count) :
      Moves log flow (.settle noopDue) log (flow.settle count noopDue).1 (flow.settle count noopDue).2
  | wake (phase : flow.phase = .idle) : Moves log flow .wake log { flow with phase := .drain } []

theorem moves_of_step {log next : Changelog} {flow moved : ServeFlow Body} {event : FlowEvent Body}
    {sent : List (Sent Body)} (stepped : step log flow event = some (next, moved, sent)) :
    Moves log flow event next moved sent := by
  unfold step at stepped
  split at stepped <;> cases stepped
  case h_1 phase => exact .start phase
  case h_2 phase => exact .scanHead phase
  case h_3 phase => exact .scanMark phase
  case h_4 keys _ phase => exact .scanKeys keys phase
  case h_5 stored _ _ _ _ _ phase => exact .scanRead stored phase
  case h_6 phase => exact .scanSend phase
  case h_7 phase => exact .snapshot phase
  case h_8 stored _ _ _ phase => exact .read stored phase
  case h_9 phase => exact .lookUp phase
  case h_10 phase => exact .send phase
  case h_11 noopDue _ phase => exact .settle noopDue phase
  case h_12 phase => exact .wake phase

variable {log next : Changelog} {flow moved : ServeFlow Body} {event : FlowEvent Body}
  {sent : List (Sent Body)}

section

variable (moves : Moves log flow event next moved sent)

include moves

/-- A step leaves the changelog alone or does one operation on it, which drops no entry. -/
theorem Moves.operation : next = log ∨ ∃ operation, operation.Plain ∧ next = log.step operation := by
  cases moves with
  | scanMark phase => exact .inr ⟨.scan flow.peer flow.partition _, trivial, rfl⟩
  | snapshot phase => exact .inr ⟨.drain flow.peer flow.partition flow.cursor flow.batch, trivial, rfl⟩
  | _ => exact .inl rfl

theorem Moves.indexed (indexed : log.Indexed) : next.Indexed := by
  cases moves.operation with
  | inl same => exact same ▸ indexed
  | inr operated =>
    obtain ⟨operation, -, rfl⟩ := operated
    exact indexed.step operation

/-- A flow moves no entry. -/
theorem Moves.marks {peer : String} {partition : Partition}
    (callRef : String) : next.markOf peer partition callRef = log.markOf peer partition callRef := by
  cases moves with
  | @scanMark w phase =>
    have quiet : ¬ (Changelog.Operation.scan flow.peer flow.partition w).Remarks peer partition := id
    exact Changelog.markOf_step quiet callRef
  | snapshot phase =>
    have quiet : ¬ (Changelog.Operation.drain flow.peer flow.partition flow.cursor flow.batch).Remarks peer
      partition := id
    exact Changelog.markOf_step quiet callRef
  | _ => rfl

/-- A flow's peer, partition and batch limit never change. -/
theorem Moves.fixed :
    moved.peer = flow.peer ∧ moved.partition = flow.partition ∧ moved.batch = flow.batch := by
  cases moves with
  | start phase =>
    simp only [ServeFlow.start]
    split
    · exact ⟨rfl, rfl, rfl⟩
    split
    · exact ⟨rfl, rfl, rfl⟩
    · split <;> exact ⟨rfl, rfl, rfl⟩
  | settle noopDue phase =>
    simp only [ServeFlow.settle]
    split
    · exact ⟨rfl, rfl, rfl⟩
    · split <;> exact ⟨rfl, rfl, rfl⟩
  | _ => exact ⟨rfl, rfl, rfl⟩

end

end ServeFlow

end SipServer.Repl
