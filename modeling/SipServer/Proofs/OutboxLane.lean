/-
Module: SipServer.Proofs.OutboxLane
Purpose: While no push of a call starts beside another push or a release of it, one outbox at a time matters
  to the call: the latest made for it. The lane is that outbox with its drainer and the pushes and releases
  under way, and every step of the call is a step of its lane.
-/
import SipServer.Lib.Runs
import SipServer.Router.Outbox

namespace SipServer.Router

open SipServer.Lib

variable {Effect : Type} {number : ℕ} {drainer : Drainer Effect} {box : CallOutbox Effect} {effects : Effect}
  {change : ℤ} {wait : Option HoldTarget}

/-! ### The lane of a call -/

/-- The outbox of a release under way. -/
def Turn.outbox : Turn Effect → Option ℕ
  | .ready _ _ | .running _ => none
  | .found number | .taking number | .sending number _ => some number

/-- What matters of a call: whether its latest outbox is in the map, the outbox, its drainer, and what is
    under way. -/
structure Lane (Effect : Type) where
  mapped : Bool
  entries : List (Entry Effect)
  sending : Bool
  kick : Bool
  drainer : Drainer Effect
  turns : KeyMap ℕ (Turn Effect)
  pushed : List Effect
  ran : List Effect

/-- The steps of a lane, with what each adds to the published depth and whether it starts a push or a
    release. -/
inductive LaneStep : Lane Effect → Lane Effect → ℤ → Bool → Prop where
  | idle (lane : Lane Effect) : LaneStep lane lane 0 true
  -- Pushes.
  | queued {lane : Lane Effect} (entry : Entry Effect) (alone : ∀ turn, lane.turns.get turn = none)
      (mapped : lane.mapped = true) :
      LaneStep lane { lane with entries := lane.entries ++ [entry], pushed := lane.pushed ++ [entry.effects] } 1 true
  | opened {lane : Lane Effect} (entry : Entry Effect) (alone : ∀ turn, lane.turns.get turn = none)
      (unmapped : lane.mapped = false) :
      LaneStep lane { lane with
        mapped := true
        entries := [entry]
        sending := false
        kick := false
        drainer := .reading
        pushed := lane.pushed ++ [entry.effects] } 1 true
  | readied {lane : Lane Effect} (turn : ℕ) (effects : Effect) (released : Released)
      (alone : ∀ turn, lane.turns.get turn = none) (unmapped : lane.mapped = false) :
      LaneStep lane { lane with turns := lane.turns.insert turn (.ready effects released) } 0 true
  | begun {lane : Lane Effect} {turn : ℕ} {effects : Effect} {released : Released}
      (isTurn : lane.turns.get turn = some (.ready effects released)) :
      LaneStep lane { lane with
        turns := lane.turns.insert turn (.running effects)
        pushed := lane.pushed ++ [effects]
        ran := lane.ran ++ [effects] } 1 false
  | finished {lane : Lane Effect} {turn : ℕ} {effects : Effect}
      (isTurn : lane.turns.get turn = some (.running effects)) :
      LaneStep lane { lane with turns := lane.turns.remove turn } (-1) false
  -- Releases.
  | found {lane : Lane Effect} (turn number : ℕ) (fresh : lane.turns.get turn = none) (mapped : lane.mapped = true) :
      LaneStep lane { lane with turns := lane.turns.insert turn (.found number) } 0 true
  | locked {lane : Lane Effect} {turn number : ℕ} (isTurn : lane.turns.get turn = some (.found number))
      (free : lane.sending = false) :
      LaneStep lane { lane with sending := true, turns := lane.turns.insert turn (.taking number) } 0 false
  | took {lane : Lane Effect} {turn number : ℕ} {entry : Entry Effect} {rest : List (Entry Effect)}
      (isTurn : lane.turns.get turn = some (.taking number)) (entries : lane.entries = entry :: rest) :
      LaneStep lane { lane with
        entries := rest
        turns := lane.turns.insert turn (.sending number entry.effects)
        ran := lane.ran ++ [entry.effects] } 0 false
  | kicked {lane : Lane Effect} {turn number : ℕ} (isTurn : lane.turns.get turn = some (.taking number))
      (entries : lane.entries = []) :
      LaneStep lane { lane with kick := true, sending := false, turns := lane.turns.remove turn } 0 false
  | sent {lane : Lane Effect} {turn number : ℕ} {effects : Effect}
      (isTurn : lane.turns.get turn = some (.sending number effects)) :
      LaneStep lane { lane with turns := lane.turns.insert turn (.taking number) } (-1) false
  -- The drainer.
  | readNone {lane : Lane Effect} (reading : lane.drainer = .reading) (entries : lane.entries = []) :
      LaneStep lane { lane with drainer := .leaving } 0 false
  | readHead {lane : Lane Effect} {entry : Entry Effect} {rest : List (Entry Effect)} (drainer : Drainer Effect)
      (reading : lane.drainer = .reading) (entries : lane.entries = entry :: rest)
      (toEntry : drainer = .locking entry.id .atOnce ∨ drainer = .waiting entry.id) :
      LaneStep lane { lane with drainer := drainer } 0 false
  | left {lane : Lane Effect} (leaving : lane.drainer = .leaving) (entries : lane.entries = []) :
      LaneStep lane { lane with mapped := false, drainer := .ended } 0 false
  | stayed {lane : Lane Effect} (leaving : lane.drainer = .leaving) (entries : lane.entries ≠ []) :
      LaneStep lane { lane with drainer := .reading } 0 false
  | waited {lane : Lane Effect} {id : ℕ} (released : Released) (waiting : lane.drainer = .waiting id) :
      LaneStep lane { lane with drainer := .locking id released } 0 false
  | woken {lane : Lane Effect} {id : ℕ} (waiting : lane.drainer = .waiting id) (kick : lane.kick = true) :
      LaneStep lane { lane with kick := false, drainer := .reading } 0 false
  | drainerLocked {lane : Lane Effect} {id : ℕ} {released : Released} (locking : lane.drainer = .locking id released)
      (free : lane.sending = false) :
      LaneStep lane { lane with sending := true, drainer := .taking id released } 0 false
  | drainerTook {lane : Lane Effect} {released : Released} {entry : Entry Effect} {rest : List (Entry Effect)}
      (taking : lane.drainer = .taking entry.id released) (entries : lane.entries = entry :: rest) :
      LaneStep lane { lane with
        entries := rest
        drainer := .sending entry.effects
        ran := lane.ran ++ [entry.effects] } 0 false
  | missed {lane : Lane Effect} {id : ℕ} {released : Released} (taking : lane.drainer = .taking id released)
      (gone : ∀ entry ∈ lane.entries.head?, entry.id ≠ id) :
      LaneStep lane { lane with sending := false, drainer := .reading } 0 false
  | drainerSent {lane : Lane Effect} {effects : Effect} (sending : lane.drainer = .sending effects) :
      LaneStep lane { lane with sending := false, drainer := .reading } (-1) false

namespace CallEffects

variable {call next : CallEffects Effect}

/-- The number of the outbox made last for the call. -/
def latest (call : CallEffects Effect) : ℕ := call.created - 1

def lane (call : CallEffects Effect) : Lane Effect where
  mapped := call.outbox.isSome
  entries := (call.outboxes call.latest).entries
  sending := (call.outboxes call.latest).sending
  kick := (call.outboxes call.latest).kick
  drainer := call.drainers call.latest
  turns := call.turns
  pushed := call.pushed
  ran := call.ran.map Prod.fst

/-- Only the latest outbox holds anything, has a drainer, is in the map or is being released. -/
structure Single (call : CallEffects Effect) : Prop where
  older : ∀ number, number ≠ call.latest → (call.outboxes number).entries = [] ∧ call.drainers number = .ended
  mapped : ∀ number, call.outbox = some number → number = call.latest ∧ 0 < call.created
  turns : ∀ turn held number, call.turns.get turn = some held → held.outbox = some number → number = call.latest
  unmapped : call.outbox = none →
    (call.outboxes call.latest).entries = [] ∧ call.drainers call.latest = .ended

/-- The event starts a push or a release. -/
def starts : OutboxEvent Effect → Bool
  | .push .. | .release _ => true
  | .proceed _ | .drain _ _ => false

/-- A push starts while no other push and no release of its call is under way. -/
def Alone (call : CallEffects Effect) : OutboxEvent Effect → Prop
  | .push .. => ∀ turn, call.turns.get turn = none
  | _ => True

/-! ### Updates of the latest outbox -/

@[simp] theorem lane_setOutbox :
    (call.setOutbox call.latest box).lane =
      { call.lane with entries := box.entries, sending := box.sending, kick := box.kick } := by
  simp [lane, latest, setOutbox]

@[simp] theorem lane_setDrainer :
    (call.setDrainer call.latest drainer).lane = { call.lane with drainer := drainer } := by
  simp [lane, latest, setDrainer]

@[simp] theorem lane_setTurn {turn : Turn Effect} :
    (call.setTurn number turn).lane = { call.lane with turns := call.turns.insert number turn } := rfl

@[simp] theorem lane_endTurn :
    (call.endTurn number).lane = { call.lane with turns := call.turns.remove number } := rfl

@[simp] theorem lane_begin {released : Released} :
    (call.begin effects released).lane = { call.lane with ran := call.lane.ran ++ [effects] } := by
  simp [lane, latest, begin]

section

variable (single : Single call)

include single

/-- The latest outbox may change, an unmapped one only to empty. -/
theorem Single.setOutbox (box : CallOutbox Effect)
    (unmapped : call.outbox = none → box.entries = []) : Single (call.setOutbox call.latest box) where
  older := by
    intro number apart
    have elsewhere : number ≠ call.latest := apart
    simp only [CallEffects.setOutbox, Function.update_of_ne elsewhere]
    exact single.older number elsewhere
  mapped := single.mapped
  turns := single.turns
  unmapped := by
    intro none
    refine ⟨?_, (single.unmapped none).2⟩
    show (Function.update call.outboxes call.latest box call.latest).entries = []
    rw [Function.update_self]
    exact unmapped none

/-- The latest drainer may change while its outbox is mapped. -/
theorem Single.setDrainer (drainer : Drainer Effect) (mapped : call.outbox ≠ none) :
    Single (call.setDrainer call.latest drainer) where
  older := by
    intro number apart
    have elsewhere : number ≠ call.latest := apart
    simp only [CallEffects.setDrainer, Function.update_of_ne elsewhere]
    exact single.older number elsewhere
  mapped := single.mapped
  turns := single.turns
  unmapped := fun none => absurd none mapped

/-- A turn may wait on the latest outbox. -/
theorem Single.setTurn (number : ℕ) (turn : Turn Effect)
    (onLatest : ∀ outbox, turn.outbox = some outbox → outbox = call.latest) : Single (call.setTurn number turn) where
  older := single.older
  mapped := single.mapped
  turns := by
    intro other held outbox found
    rcases KeyMap.of_get_insert found with ⟨-, rfl⟩ | ⟨-, found⟩
    · exact onLatest outbox
    · exact single.turns other held outbox found
  unmapped := single.unmapped

theorem Single.endTurn (number : ℕ) : Single (call.endTurn number) where
  older := single.older
  mapped := single.mapped
  turns := by
    intro other held outbox found
    obtain ⟨-, found⟩ := KeyMap.of_get_remove found
    exact single.turns other held outbox found
  unmapped := single.unmapped

theorem Single.noted (pushed : List Effect) (ran : List (Effect × Released)) :
    Single { call with pushed := pushed, ran := ran } :=
  ⟨single.older, single.mapped, single.turns, single.unmapped⟩

/-- A drainer that can step is the latest outbox's, and that outbox is in the map. -/
theorem Single.drained (live : call.drainers number ≠ .ended) :
    number = call.latest ∧ call.outbox = some call.latest := by
  have isLatest : number = call.latest := by
    by_contra apart
    exact live (single.older number apart).2
  subst isLatest
  refine ⟨rfl, ?_⟩
  cases isOutbox : call.outbox with
  | none => exact absurd (single.unmapped isOutbox).2 live
  | some mapped => rw [(single.mapped mapped isOutbox).1]

end

/-! ### Every step of a call is a step of its lane -/

section

variable (single : Single call)

include single

/-- A push onto the mapped outbox. -/
theorem Single.pushOnto (alone : ∀ turn, call.turns.get turn = none) (mapped : call.outbox = some number) :
    Single (call.queueOn number wait effects) ∧
      LaneStep call.lane (call.queueOn number wait effects).lane 1 true := by
  obtain ⟨rfl, -⟩ := single.mapped number mapped
  constructor
  · refine (single.setOutbox ((call.outboxes call.latest).queue wait effects) ?_).noted _ _
    rw [mapped]
    exact nofun
  · have isLane : (call.queueOn call.latest wait effects).lane = { call.lane with
        entries := call.lane.entries ++ [⟨(call.outboxes call.latest).nextId, wait, effects⟩]
        pushed := call.lane.pushed ++ [effects] } := by
      simp [lane, latest, queueOn, CallEffects.setOutbox, CallOutbox.queue]
    rw [isLane]
    exact .queued ⟨_, wait, effects⟩ alone (by rw [lane, mapped]; rfl)

/-- A push that opens an outbox. -/
theorem Single.pushOpening (alone : ∀ turn, call.turns.get turn = none) (unmapped : call.outbox = none) :
    Single (call.opened.queueOn call.created wait effects) ∧
      LaneStep call.lane (call.opened.queueOn call.created wait effects).lane 1 true := by
  have quiet : ∀ number, (call.outboxes number).entries = [] ∧ call.drainers number = .ended := by
    intro number
    by_cases isLatest : number = call.latest
    · exact isLatest ▸ single.unmapped unmapped
    · exact single.older number isLatest
  constructor
  · refine ⟨?_, ?_, ?_, nofun⟩
    · intro number apart
      have isNew : number ≠ call.created := apart
      simp only [queueOn, opened, CallEffects.setOutbox, CallEffects.setDrainer, Function.update_of_ne isNew]
      exact quiet number
    · intro number isOutbox
      exact ⟨(Option.some.inj isOutbox).symm, Nat.succ_pos _⟩
    · intro turn held number found
      cases (alone turn).symm.trans found
  · have isLane : (call.opened.queueOn call.created wait effects).lane = { call.lane with
        mapped := true
        entries := [⟨0, wait, effects⟩]
        sending := false
        kick := false
        drainer := .reading
        pushed := call.lane.pushed ++ [effects] } := by
      simp [lane, latest, queueOn, opened, CallEffects.setOutbox, CallEffects.setDrainer, CallOutbox.queue,
        CallOutbox.new]
    rw [isLane]
    exact .opened ⟨0, wait, effects⟩ alone (by rw [lane, unmapped]; rfl)

theorem Single.push (level : SyncLevel) (turn : ℕ) (effects : Effect)
    (wait : Option HoldTarget) (applied : Bool) (alone : ∀ turn, call.turns.get turn = none) :
    let pushed := call.push level turn effects wait applied
    Single pushed.1 ∧ LaneStep call.lane pushed.1.lane pushed.2 true := by
  have readied (released : Released) (unmapped : call.outbox = none) :
      Single (call.setTurn turn (.ready effects released)) ∧
        LaneStep call.lane (call.setTurn turn (.ready effects released)).lane 0 true :=
    ⟨single.setTurn turn _ nofun, .readied turn effects released alone (by rw [lane, unmapped]; rfl)⟩
  simp only [CallEffects.push]
  generalize (if level = .applied then wait else none) = wait
  split
  · rename_i unmapped
    exact single.pushOpening alone unmapped
  · rename_i mapped
    exact single.pushOnto alone mapped
  · rename_i unmapped
    exact readied .atOnce unmapped
  · rename_i unmapped
    exact readied .applied unmapped

/-- A turn goes on. -/
theorem Single.proceed {turn : ℕ} {held : Turn Effect}
    (isTurn : call.turns.get turn = some held) (stepped : call.proceed turn held = some (next, change)) :
    Single next ∧ LaneStep call.lane next.lane change false := by
  cases held with
  | ready effects released =>
    cases stepped
    refine ⟨(single.noted _ _).setTurn turn _ nofun, ?_⟩
    have isStep : LaneStep call.lane _ 1 false := .begun isTurn
    simpa [lane, latest, begin, CallEffects.setTurn] using isStep
  | running effects =>
    cases stepped
    exact ⟨single.endTurn turn, .finished isTurn⟩
  | found number =>
    obtain rfl := single.turns turn _ number isTurn rfl
    simp only [CallEffects.proceed] at stepped
    split at stepped
    · cases stepped
    rename_i free
    cases stepped
    refine ⟨(single.setOutbox _ ?_).setTurn turn _ ?_, ?_⟩
    · exact fun none => (single.unmapped none).1
    · exact fun _ isOutbox => (Option.some.inj isOutbox).symm
    · rw [lane_setTurn, lane_setOutbox]
      exact .locked isTurn ((Bool.not_eq_true _).mp free)
  | taking number =>
    obtain rfl := single.turns turn _ number isTurn rfl
    simp only [CallEffects.proceed] at stepped
    split at stepped
    · rename_i entry rest entries
      cases stepped
      refine ⟨((single.setOutbox _ fun none => ?_).noted _ _).setTurn turn _ ?_, ?_⟩
      · rw [(single.unmapped none).1] at entries
        cases entries
      · exact fun _ isOutbox => (Option.some.inj isOutbox).symm
      · rw [lane_setTurn, lane_begin, lane_setOutbox]
        exact .took isTurn entries
    · rename_i entries
      cases stepped
      refine ⟨(single.setOutbox _ ?_).endTurn turn, ?_⟩
      · exact fun _ => entries
      rw [lane_endTurn, lane_setOutbox]
      exact .kicked isTurn entries
  | sending number effects =>
    obtain rfl := single.turns turn _ number isTurn rfl
    cases stepped
    exact ⟨single.setTurn turn _ fun _ isOutbox => (Option.some.inj isOutbox).symm, .sent isTurn⟩

/-- A drainer's step that leaves the outbox in the map. -/
theorem Single.redrained (mapped : call.outbox = some call.latest)
    : Single ((call.setOutbox call.latest box).setDrainer call.latest drainer) := by
  have isMapped : call.outbox ≠ none := by
    rw [mapped]
    exact nofun
  exact (single.setOutbox box fun none => absurd none isMapped).setDrainer drainer isMapped

end

theorem lane_redrained :
    ((call.setOutbox call.latest box).setDrainer call.latest drainer).lane =
      { call.lane with
        entries := box.entries
        sending := box.sending
        kick := box.kick
        drainer := drainer } := by
  simp [lane, latest, setOutbox, setDrainer]

/-- The drainer that found nothing under the map lock takes its outbox out of the map. -/
theorem Single.forgotten (single : Single call) (mapped : call.outbox = some call.latest)
    (leaving : call.drainers call.latest = .leaving) (entries : (call.outboxes call.latest).entries = []) :
    let gone := (call.forget call.latest).1.setDrainer call.latest .ended
    Single gone ∧ LaneStep call.lane gone.lane (call.forget call.latest).2 false := by
  constructor
  · refine ⟨fun number apart => ?_, ?_, single.turns, fun _ => ?_⟩
    · have elsewhere : number ≠ call.latest := apart
      simp only [forget, CallEffects.setOutbox, CallEffects.setDrainer, Function.update_of_ne elsewhere]
      exact single.older number elsewhere
    · simp [forget, mapped, CallEffects.setDrainer]
    · constructor
      · show (Function.update call.outboxes call.latest _ call.latest).entries = []
        rw [Function.update_self]
      · show Function.update call.drainers call.latest _ call.latest = _
        rw [Function.update_self]
  · have isLane : ((call.forget call.latest).1.setDrainer call.latest .ended).lane =
        { call.lane with mapped := false, drainer := .ended } := by
      simpa [lane, latest, forget, mapped, CallEffects.setOutbox, CallEffects.setDrainer] using entries.symm
    rw [isLane, forget, entries]
    exact .left leaving entries

/-- The drainer goes on. -/
theorem Single.drain (single : Single call) {released : Option Released}
    (stepped : call.drain number released = some (next, change)) :
    Single next ∧ LaneStep call.lane next.lane change false := by
  have live : call.drainers number ≠ .ended := by
    intro ended
    simp only [CallEffects.drain, ended] at stepped
    cases stepped
  obtain ⟨rfl, mapped⟩ := single.drained live
  have isMapped : call.outbox ≠ none := by
    rw [mapped]
    exact nofun
  have drains {drainer : Drainer Effect} (step : LaneStep call.lane { call.lane with drainer } 0 false) :
      Single (call.setDrainer call.latest drainer) ∧
        LaneStep call.lane (call.setDrainer call.latest drainer).lane 0 false := by
    rw [lane_setDrainer]
    exact ⟨single.setDrainer _ isMapped, step⟩
  cases state : call.drainers call.latest with
  | ended => exact absurd state live
  | reading =>
    simp only [drain, state] at stepped
    split at stepped <;> cases stepped
    · rename_i entries
      exact drains (.readNone state entries)
    · rename_i entries
      exact drains (.readHead _ state entries (.inl rfl))
    · rename_i entries
      exact drains (.readHead _ state entries (.inr rfl))
  | leaving =>
    simp only [drain, state] at stepped
    split at stepped <;> cases stepped
    · rename_i entries
      exact single.forgotten mapped state entries
    rename_i entries
    exact drains (.stayed state entries)
  | waiting id =>
    simp only [drain, state] at stepped
    split at stepped
    · cases stepped
      exact drains (.waited _ state)
    split at stepped
    · rename_i kick
      cases stepped
      refine ⟨single.redrained mapped, ?_⟩
      rw [lane_redrained]
      exact .woken state kick
    · cases stepped
  | locking id reason =>
    simp only [CallEffects.drain, state] at stepped
    split at stepped
    · cases stepped
    rename_i free
    cases stepped
    refine ⟨single.redrained mapped, ?_⟩
    rw [lane_redrained]
    exact .drainerLocked state ((Bool.not_eq_true _).mp free)
  | taking id reason =>
    simp only [CallEffects.drain, state] at stepped
    split at stepped
    · rename_i entry rest entries
      split at stepped <;> cases stepped
      · rename_i isHead
        refine ⟨((single.redrained mapped).noted _ _), ?_⟩
        have isStep : LaneStep call.lane _ 0 false := .drainerTook (isHead ▸ state) entries
        simpa [lane, latest, begin, CallEffects.setOutbox, CallEffects.setDrainer] using isStep
      rename_i notHead
      refine ⟨single.redrained mapped, ?_⟩
      rw [lane_redrained]
      refine .missed state fun head isFirst => ?_
      rw [lane, entries] at isFirst
      cases isFirst
      exact notHead
    · rename_i entries
      cases stepped
      refine ⟨single.redrained mapped, ?_⟩
      rw [lane_redrained]
      refine .missed state fun head isFirst => ?_
      rw [lane, entries] at isFirst
      cases isFirst
  | sending effects =>
    simp only [CallEffects.drain, state] at stepped
    cases stepped
    refine ⟨single.redrained mapped, ?_⟩
    rw [lane_redrained]
    exact .drainerSent state

/-- While no push starts beside another push or a release of its call, every step of the call is a step of
    its lane. -/
theorem Single.step (single : Single call) {level : SyncLevel} {event : OutboxEvent Effect} (alone : call.Alone event)
    (stepped : call.step level event = some (next, change)) :
    Single next ∧ LaneStep call.lane next.lane change (starts event) := by
  cases event with
  | push turn effects wait applied =>
    simp only [CallEffects.step, alone turn] at stepped
    obtain ⟨rfl, rfl⟩ := Prod.mk.inj (Option.some.inj stepped)
    exact single.push level turn effects wait applied alone
  | release turn =>
    simp only [CallEffects.step] at stepped
    split at stepped
    · rename_i number fresh mapped
      cases stepped
      obtain ⟨rfl, -⟩ := single.mapped number mapped
      refine ⟨single.setTurn turn _ fun _ isOutbox => (Option.some.inj isOutbox).symm, ?_⟩
      exact .found turn _ fresh (by rw [lane, mapped]; rfl)
    · cases stepped
      exact ⟨single, .idle _⟩
    · cases stepped
  | proceed turn =>
    obtain ⟨held, isTurn, proceeded⟩ := Option.bind_eq_some_iff.1 stepped
    exact single.proceed isTurn proceeded
  | drain number released => exact single.drain stepped

theorem new_single : Single (new : CallEffects Effect) where
  older := fun _ _ => ⟨rfl, rfl⟩
  mapped := nofun
  turns := nofun
  unmapped := fun _ => ⟨rfl, rfl⟩

end CallEffects

end SipServer.Router
