/-
Module: SipServer.Proofs.Compared
Purpose: Two records agree on every compared field exactly when they are one record at rest, that is with
  every exempt field blanked; the merge of the exempt fields leaves a record at rest as it was, unless it
  brings in a release the container does not owe.
-/
import SipServer.Call.Compared
import Mathlib.Tactic.Tauto

namespace SipServer.Call

variable {Data : Type}

/-! ### Records with their exempt fields blanked -/

def RetainedEmission.atRest (emission : RetainedEmission Data) : RetainedEmission Data :=
  { emission with
    repeats := match emission.repeats with
      | .paced ladderClass _ => .paced ladderClass 0
      | .onTrigger => .onTrigger }

def Unacked2xx.atRest (answer : Unacked2xx Data) : Unacked2xx Data :=
  { answer with emission := answer.emission.atRest }

def InviteExchange.atRest (exchange : InviteExchange Data) : InviteExchange Data :=
  { exchange with answered2xx := exchange.answered2xx.map Unacked2xx.atRest }

def RequestRecord.atRest (record : RequestRecord Data) : RequestRecord Data :=
  { record with invite := record.invite.map InviteExchange.atRest }

def Dialog.atRest (dialog : Dialog Data) : Dialog Data :=
  { dialog with
    ourCseq := 0
    peerCseq := none
    requests := (dialog.requests.filter fun record => !record.isKeepalive).map RequestRecord.atRest
    sentInvite := dialog.sentInvite.map RequestRecord.atRest
    answeredInvite := dialog.answeredInvite.map RequestRecord.atRest }

def Leg.atRest (leg : Leg Data) : Leg Data :=
  { leg with
    dialogs := leg.dialogs.map Dialog.atRest
    invite := leg.invite.map RequestRecord.atRest
    messages := ⟨[], 0⟩ }

def Shown.atRest (shown : Shown Data) : Shown Data :=
  { shown with
    ladder := match shown.ladder with
      | .repeating emission => .repeating emission.atRest
      | ladder => ladder }

def Provisional.atRest (provisional : Provisional Data) : Provisional Data :=
  { provisional with shown := provisional.shown.map Shown.atRest }

def CallLimiterState.atRest (state : CallLimiterState) : CallLimiterState := { state with change := 0 }

/-- The record at rest. The exempt fields no blank value stands for are taken from `blank`. -/
def Record.atRest (call blank : Record Data) : Record Data :=
  { call with
    aLeg := call.aLeg.atRest
    bLegs := call.bLegs.map Leg.atRest
    limiter := call.limiter.atRest
    timers := call.timers.filter fun timer => !exemptTimer timer
    timerGeneration := 0
    cdrEvents := []
    trace := blank.trace
    messageCount := none
    provisionals := call.provisionals.map Provisional.atRest
    messageSeq := 0
    messageTurn := 0
    legSpace := blank.legSpace
    answered := [] }

/-! ### The comparison is equality at rest -/

/-- Pairwise agreement under a comparison that reads a normal form is equality of the normal forms. -/
theorem allPairs_iff {Item Normal : Type} {same : Item → Item → Bool} {normal : Item → Normal}
    (reads : ∀ x y, same x y = true ↔ normal x = normal y) (left right : List Item) :
    allPairs left right same = true ↔ left.map normal = right.map normal := by
  induction left generalizing right with
  | nil => cases right <;> simp [allPairs]
  | cons x left hypothesis =>
    cases right with
    | nil => simp [allPairs]
    | cons y right =>
      have step := hypothesis right
      simp only [allPairs, List.length_cons, List.zip_cons_cons, List.all_cons, Bool.and_eq_true,
        decide_eq_true_eq, Nat.add_right_cancel_iff, List.map_cons, List.cons.injEq, ← reads, ← step]
      tauto

/-- An optional field reads as its value does. -/
theorem sameOption_iff {Item Normal : Type} {same : Item → Item → Bool} {normal : Item → Normal}
    (reads : ∀ x y, same x y = true ↔ normal x = normal y) (left right : Option Item) :
    sameOption left right same = true ↔ left.map normal = right.map normal := by
  cases left <;> cases right <;> simp [sameOption, reads]

variable [DecidableEq Data] {leg : Leg Data}

/-- A retained emission is the same at rest. -/
theorem sameAtRest_iff {left right : RetainedEmission Data} :
    left.sameAtRest right = true ↔ left.atRest = right.atRest := by
  cases left with
  | mk leftRepeats leftRest =>
    cases right with
    | mk rightRepeats rightRest =>
      cases leftRepeats <;> cases rightRepeats <;>
        simp [RetainedEmission.sameAtRest, RetainedEmission.atRest, and_comm]

/-- `same2xx` is equality at rest, as is each comparison below. -/
theorem same2xx_iff (left right : Unacked2xx Data) :
    same2xx left right = true ↔ left.atRest = right.atRest := by
  simp [same2xx, Unacked2xx.atRest, sameAtRest_iff, and_comm]

theorem sameExchange_iff (left right : InviteExchange Data) :
    sameExchange left right = true ↔ left.atRest = right.atRest := by
  simp [sameExchange, InviteExchange.atRest, sameOption_iff same2xx_iff, and_assoc]

theorem sameRecord_iff (left right : RequestRecord Data) :
    sameRecord left right = true ↔ left.atRest = right.atRest := by
  simp only [sameRecord, RequestRecord.atRest, sameOption_iff sameExchange_iff, Bool.and_eq_true,
    decide_eq_true_eq, RequestRecord.mk.injEq]
  tauto

theorem sameDialog_iff (left right : Dialog Data) :
    sameDialog left right = true ↔ left.atRest = right.atRest := by
  simp [sameDialog, Dialog.atRest, allPairs_iff sameRecord_iff, sameOption_iff sameRecord_iff, and_assoc]

theorem sameLeg_iff (left right : Leg Data) : sameLeg left right = true ↔ left.atRest = right.atRest := by
  simp [sameLeg, Leg.atRest, allPairs_iff sameDialog_iff, sameOption_iff sameRecord_iff, and_assoc]

theorem sameShown_iff (left right : Shown Data) :
    sameShown left right = true ↔ left.atRest = right.atRest := by
  cases left with
  | mk leftLadder leftRest =>
    cases right with
    | mk rightLadder rightRest =>
      cases leftLadder <;> cases rightLadder <;> simp [sameShown, Shown.atRest, sameAtRest_iff, and_comm]

theorem sameProvisional_iff (left right : Provisional Data) :
    sameProvisional left right = true ↔ left.atRest = right.atRest := by
  simp [sameProvisional, Provisional.atRest, sameOption_iff sameShown_iff, and_comm]

theorem sameButChange_iff (left right : CallLimiterState) :
    left.sameButChange right = true ↔ left.atRest = right.atRest := by
  cases left
  cases right
  simp [CallLimiterState.sameButChange, CallLimiterState.atRest]

namespace Record

/-- Two records agree on every compared field exactly when they are the same record at rest. -/
theorem sameState_iff (blank left right : Record Data) :
    left.sameState right = true ↔ left.atRest blank = right.atRest blank := by
  simp [sameState, atRest, sameLeg_iff, allPairs_iff sameLeg_iff, sameButChange_iff,
    allPairs_iff sameProvisional_iff, and_assoc]

theorem sameState_refl {call : Record Data} : call.sameState call = true :=
  (sameState_iff call call call).mpr rfl

theorem sameState_symm {left right : Record Data} (same : left.sameState right = true) :
    right.sameState left = true :=
  (sameState_iff left right left).mpr ((sameState_iff left left right).mp same).symm

theorem sameState_trans {left middle right : Record Data} (first : left.sameState middle = true)
    (second : middle.sameState right = true) : left.sameState right = true :=
  (sameState_iff left left right).mpr
    (((sameState_iff left left middle).mp first).trans ((sameState_iff left middle right).mp second))

end Record

/-! ### The merge changes no compared field -/

omit [DecidableEq Data] in
theorem raiseDialog_atRest {theirs : List (Dialog Data)} {dialog : Dialog Data} :
    (raiseDialog theirs dialog).atRest = dialog.atRest := by
  unfold raiseDialog
  split <;> rfl

omit [DecidableEq Data] in
theorem raiseLeg_atRest {incoming : Record Data} : (raiseLeg leg incoming).atRest = leg.atRest := by
  unfold raiseLeg
  split
  · rfl
  · simp [Leg.atRest, raiseDialog_atRest]

theorem mergeRing_atRest {other : Record Data} : (Record.mergeRing other leg).atRest = leg.atRest := rfl

/-- A limiter state that owes whatever release the other owes merges to itself, at rest. -/
theorem mergeChange_atRest {state other : CallLimiterState}
    (owed : other.releaseOwed = true → state.releaseOwed = true) :
    (state.mergeChange other).atRest = state.atRest := by
  have kept : (state.releaseOwed || other.releaseOwed) = state.releaseOwed := by
    cases otherOwes : other.releaseOwed with
    | false => rw [Bool.or_false]
    | true => rw [owed otherOwes, Bool.or_true]
  simp only [CallLimiterState.mergeChange, CallLimiterState.atRest, kept]

namespace Record

/-- Merging in the exempt fields of a copy that owes no release the container does not owe leaves the
    container as it was at rest. -/
theorem mergeExempt_atRest {blank : Record Data} {container other : Record Data}
    (owed : other.limiter.releaseOwed = true → container.limiter.releaseOwed = true) :
    (container.mergeExempt other).atRest blank = container.atRest blank := by
  have legs : ((container.bLegs.map fun leg => raiseLeg leg other).map (mergeRing other)).map Leg.atRest =
      container.bLegs.map Leg.atRest := by
    simp [mergeRing_atRest, raiseLeg_atRest]
  simp only [mergeExempt, raiseSequences, atRest, mergeRing_atRest, raiseLeg_atRest, legs, mergeChange_atRest owed]

theorem mergeExempt_sameState {container other : Record Data}
    (owed : other.limiter.releaseOwed = true → container.limiter.releaseOwed = true) :
    (container.mergeExempt other).sameState container = true :=
  (sameState_iff container _ _).mpr (mergeExempt_atRest owed)

/-- Records that agree owe the same release. -/
theorem releaseOwed_of_sameState {left right : Record Data} (same : left.sameState right = true) :
    left.limiter.releaseOwed = right.limiter.releaseOwed := by
  have rest := (sameState_iff left left right).mp same
  have limiters : left.limiter.atRest = right.limiter.atRest := congrArg limiter rest
  have owed : left.limiter.atRest.releaseOwed = right.limiter.atRest.releaseOwed := by rw [limiters]
  exact owed

end Record

end SipServer.Call
