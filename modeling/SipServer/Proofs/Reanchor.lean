/-
Module: SipServer.Proofs.Reanchor
Purpose: Moving the instants of a call is an action of the offsets on its record, and so a meeting that keeps
  the stored copy leaves its instants where they were.
-/
import SipServer.Proofs.MergeExempt
import SipServer.Store.Reanchor

namespace SipServer.Call

variable {Data : Type} {first second : ℤ → ℤ}

/-! ### The instants of a call, and its other fields

Both are listed field by field, apart from the move.
-/

/-- The send times of the NOTIFYs in flight and the deadlines of the request records. -/
def Dialog.instants (dialog : Dialog Data) : List ℤ :=
  (dialog.subscriptions.filterMap (·.notify)).map (·.atMs) ++ dialog.requests.filterMap (·.deadlineMs)

/-- When the INVITE of the record was dialled, and its final answer came. -/
def RequestRecord.dialledAt (record : RequestRecord Data) : List ℤ :=
  match record.invite with
  | some ⟨_, some invite, _⟩ => invite.sentAtMs :: invite.finalAtMs.toList
  | _ => []

def Leg.instants (leg : Leg Data) : List ℤ :=
  leg.invite.toList.flatMap RequestRecord.dialledAt ++ leg.messages.entries.map (·.atMs) ++
    leg.dialogs.flatMap Dialog.instants

def OffTurnRequest.instant : OffTurnRequest Data → Option ℤ
  | .refer sentAtMs _ => some sentAtMs
  | .other _ => none

/-- Every absolute instant a call holds. -/
def Record.instants (call : Record Data) : List ℤ :=
  call.timers.map (·.fireAt) ++ [call.createdAt] ++ (call.cdrEvents ++ call.decisionLog ++ call.termination.toList ++
      call.transfer.toList ++ call.reroute.toList ++ call.answered).map (·.atMs) ++
    call.awaited.filterMap (·.instant) ++ call.aLeg.instants ++ call.bLegs.flatMap Leg.instants

def OffTurnRequest.others : OffTurnRequest Data → Bool × Data
  | .refer _ rest => (true, rest)
  | .other rest => (false, rest)

def Dialog.others (dialog : Dialog Data) :=
  (dialog.ourTag, dialog.peerTag, dialog.ourCseq, dialog.peerCseq,
    dialog.requests.map fun record =>
      (record.method, record.origin, record.author, record.deadlineMs.isSome, record.invite, record.rest),
    dialog.sentInvite, dialog.answeredInvite,
    dialog.subscriptions.map fun subscription => (subscription.notify.map (·.rest), subscription.rest), dialog.rest)

def Leg.others (leg : Leg Data) :=
  (leg.legId, leg.dialogs.map Dialog.others,
    leg.invite.map fun record => (record.method, record.origin, record.author, record.deadlineMs,
      record.invite.map fun exchange => (exchange.answered2xx,
        exchange.dialled.map fun invite => (invite.finalAtMs.isSome, invite.rest), exchange.rest), record.rest),
    leg.messages.entries.map fun entry => (entry.seq, entry.rest), leg.messages.dropped, leg.rest)

/-- Every field of a call that is no instant. -/
def Record.others (call : Record Data) :=
  (call.aLeg.others, call.bLegs.map Leg.others, call.limiter,
    call.timers.map fun timer => (timer.timerType, timer.rest), call.timerGeneration, call.cdrEvents.map (·.rest),
    call.trace, call.messageCount, call.transfer.map (·.rest), call.reroute.map (·.rest), call.provisionals,
    call.messageSeq, call.decisionLog.map (·.rest), call.termination.map (·.rest), call.messageTurn, call.legSpace,
    call.answered.map (·.rest), call.awaited.map OffTurnRequest.others, call.rest)

/-! ### A move of the instants moves each of them, and nothing else -/

section

variable {shift : ℤ → ℤ}

@[simp] theorem OffTurnRequest.instant_mapInstant (request : OffTurnRequest Data) :
    (request.mapInstant shift).instant = request.instant.map shift := by
  cases request <;> rfl

@[simp] theorem OffTurnRequest.others_mapInstant (request : OffTurnRequest Data) :
    (request.mapInstant shift).others = request.others := by
  cases request <;> rfl

@[simp] theorem Dialog.instants_mapInstants (dialog : Dialog Data) :
    (dialog.mapInstants shift).instants = dialog.instants.map shift := by
  simp [instants, mapInstants, RequestRecord.mapDeadline, Timed.mapInstant, List.filterMap_map, List.map_filterMap,
    Function.comp_def]

@[simp] theorem Dialog.others_mapInstants (dialog : Dialog Data) :
    (dialog.mapInstants shift).others = dialog.others := by
  simp [others, mapInstants, RequestRecord.mapDeadline, Timed.mapInstant, Function.comp_def]

@[simp] theorem RequestRecord.dialledAt_mapDialled (record : RequestRecord Data) :
    (record.mapDialled shift).dialledAt = record.dialledAt.map shift := by
  obtain ⟨method, origin, author, deadlineMs, _ | ⟨answered2xx, _ | ⟨sentAtMs, _ | finalAtMs, rest⟩, others⟩, last⟩ :=
    record <;> rfl

@[simp] theorem Leg.instants_mapInstants (leg : Leg Data) :
    (leg.mapInstants shift).instants = leg.instants.map shift := by
  simp [instants, mapInstants, Option.toList_map, List.flatMap_map, List.map_flatMap, Function.comp_def]

@[simp] theorem Leg.others_mapInstants (leg : Leg Data) : (leg.mapInstants shift).others = leg.others := by
  simp [others, mapInstants, RequestRecord.mapDialled, Function.comp_def]

namespace Record

/-- Every instant of the call is shifted. -/
theorem instants_mapInstants (call : Record Data) : (call.mapInstants shift).instants = call.instants.map shift := by
  simp [instants, mapInstants, Timed.mapInstant, Option.toList_map, List.filterMap_map, List.map_filterMap,
    List.flatMap_map, List.map_flatMap, Function.comp_def]

/-- No other field is. -/
theorem others_mapInstants (call : Record Data) : (call.mapInstants shift).others = call.others := by
  simp [others, mapInstants, Timed.mapInstant, Function.comp_def]

end Record

end

/-! ### A move that leaves the instants leaves the call -/

section

variable {shift : ℤ → ℤ}

theorem map_fixed {Value : Type} {values : List Value} {move : Value → Value}
    (fixed : ∀ value ∈ values, move value = value) : values.map move = values :=
  (List.map_congr_left fixed).trans (List.map_id values)

theorem map_fixed_option {Value : Type} {value : Option Value} {move : Value → Value}
    (fixed : ∀ inner, value = some inner → move inner = inner) : value.map move = value :=
  (Option.map_congr fixed).trans (Option.map_id_apply ..)

theorem Timed.mapInstant_fixed {timed : Timed Data} (fixed : shift timed.atMs = timed.atMs) :
    timed.mapInstant shift = timed := by
  rw [mapInstant, fixed]

theorem RequestRecord.mapDialled_fixed {record : RequestRecord Data}
    (fixed : ∀ instant ∈ record.dialledAt, shift instant = instant) : record.mapDialled shift = record := by
  obtain ⟨method, origin, author, deadlineMs, _ | ⟨answered2xx, _ | ⟨sentAtMs, _ | finalAtMs, rest⟩, others⟩, last⟩ :=
    record <;> simp_all [dialledAt, mapDialled]

theorem Dialog.mapInstants_fixed {dialog : Dialog Data}
    (fixed : ∀ instant ∈ dialog.instants, shift instant = instant) : dialog.mapInstants shift = dialog := by
  simp only [instants, List.mem_append, or_imp, forall_and, List.forall_mem_map, List.mem_filterMap,
    forall_exists_index, and_imp] at fixed
  obtain ⟨notifies, deadlines⟩ := fixed
  have requests : dialog.requests.map (RequestRecord.mapDeadline shift) = dialog.requests :=
    map_fixed fun record member => by
      rw [RequestRecord.mapDeadline, map_fixed_option fun deadlineMs found =>
        deadlines deadlineMs record member found]
  have subscriptions : dialog.subscriptions.map (fun subscription =>
      { subscription with notify := subscription.notify.map (·.mapInstant shift) }) = dialog.subscriptions :=
    map_fixed fun subscription member => by
      rw [map_fixed_option fun notify found => Timed.mapInstant_fixed (notifies notify subscription member found)]
  rw [mapInstants, requests, subscriptions]

theorem Leg.mapInstants_fixed {leg : Leg Data} (fixed : ∀ instant ∈ leg.instants, shift instant = instant) :
    leg.mapInstants shift = leg := by
  simp only [instants, List.mem_append, or_imp, forall_and, List.forall_mem_map, List.mem_flatMap, Option.mem_toList,
    forall_exists_index, and_imp] at fixed
  obtain ⟨⟨dialled, messages⟩, dialogs⟩ := fixed
  have entries : leg.messages.entries.map (fun entry => { entry with atMs := shift entry.atMs }) =
    leg.messages.entries :=
    map_fixed fun entry member => by rw [messages entry member]
  rw [mapInstants, entries,
    map_fixed_option fun record found => RequestRecord.mapDialled_fixed fun instant => dialled instant record found,
    map_fixed fun dialog member => Dialog.mapInstants_fixed fun instant => dialogs instant dialog member]

theorem OffTurnRequest.mapInstant_fixed {request : OffTurnRequest Data}
    (fixed : ∀ instant, request.instant = some instant → shift instant = instant) :
    request.mapInstant shift = request := by
  cases request with
  | refer sentAtMs rest => rw [mapInstant, fixed sentAtMs rfl]
  | other rest => rfl

/-- A shift that fixes every instant of a call fixes the call. -/
theorem Record.mapInstants_fixed {call : Record Data} (fixed : ∀ instant ∈ call.instants, shift instant = instant) :
    call.mapInstants shift = call := by
  simp only [instants, List.mem_append, or_imp, forall_and, List.forall_mem_map, List.mem_filterMap,
    List.mem_flatMap, Option.mem_toList, forall_exists_index, and_imp, List.mem_singleton, forall_eq] at fixed
  obtain ⟨⟨⟨⟨⟨timers, created⟩, ⟨⟨⟨⟨cdrs, decisions⟩, termination⟩, transfer⟩, reroute⟩, answers⟩, requests⟩, aLeg⟩,
    bLegs⟩ := fixed
  have ledger : call.timers.map (fun timer => { timer with fireAt := shift timer.fireAt }) = call.timers :=
    map_fixed fun timer member => by rw [timers timer member]
  rw [mapInstants, created, ledger, Leg.mapInstants_fixed aLeg,
    map_fixed fun event member => Timed.mapInstant_fixed (cdrs event member),
    map_fixed fun mark member => Timed.mapInstant_fixed (decisions mark member),
    map_fixed_option fun record found => Timed.mapInstant_fixed (termination record found),
    map_fixed_option fun record found => Timed.mapInstant_fixed (transfer record found),
    map_fixed_option fun record found => Timed.mapInstant_fixed (reroute record found),
    map_fixed fun answer member => Timed.mapInstant_fixed (answers answer member),
    map_fixed fun request member => OffTurnRequest.mapInstant_fixed fun instant => requests instant request member,
    map_fixed fun leg member => Leg.mapInstants_fixed fun instant => bLegs instant leg member]

end

/-! ### One move after another -/

@[simp] theorem Timed.mapInstant_mapInstant (timed : Timed Data) :
    (timed.mapInstant first).mapInstant second = timed.mapInstant fun instant => second (first instant) := rfl

@[simp] theorem OffTurnRequest.mapInstant_mapInstant (request : OffTurnRequest Data) :
    (request.mapInstant first).mapInstant second = request.mapInstant fun instant => second (first instant) := by
  cases request <;> rfl

@[simp] theorem RequestRecord.mapDialled_mapDialled (record : RequestRecord Data) :
    (record.mapDialled first).mapDialled second = record.mapDialled fun instant => second (first instant) := by
  simp [mapDialled, Function.comp_def]

@[simp] theorem Dialog.mapInstants_mapInstants (dialog : Dialog Data) :
    (dialog.mapInstants first).mapInstants second = dialog.mapInstants fun instant => second (first instant) := by
  simp [mapInstants, RequestRecord.mapDeadline, Function.comp_def]

@[simp] theorem Leg.mapInstants_mapInstants (leg : Leg Data) :
    (leg.mapInstants first).mapInstants second = leg.mapInstants fun instant => second (first instant) := by
  simp [mapInstants, Function.comp_def]

namespace Record

variable {call before after : Record Data} {offsetMs further : ℤ}

/-- Two shifts of a call are one. -/
theorem mapInstants_mapInstants :
    (call.mapInstants first).mapInstants second = call.mapInstants fun instant => second (first instant) := by
  simp [mapInstants, Function.comp_def]

end Record

/-- The value is an `i64`. -/
def IsI64 (value : ℤ) : Prop := -2 ^ 63 ≤ value ∧ value < 2 ^ 63

instance (value : ℤ) : Decidable (IsI64 value) := inferInstanceAs (Decidable (_ ∧ _))

/-- A sum within 64 bits does not saturate. -/
theorem saturatingAdd_eq {left right : ℤ} (whole : IsI64 (left + right)) :
    saturatingAdd left right = left + right := by
  obtain ⟨low, high⟩ := whole
  unfold saturatingAdd
  rw [min_eq_right (by omega), max_eq_right low]

namespace Record

variable {call before after : Record Data} {offsetMs further : ℤ}

/-- Every instant of the call is an `i64`, and none saturates when moved by `offsetMs`. -/
def Fits (call : Record Data) (offsetMs : ℤ) : Prop :=
  ∀ instant ∈ call.instants, IsI64 instant ∧ IsI64 (instant + offsetMs)

/-- A move of a call whose instants are `i64`s, whether it is by nothing or not. -/
theorem Fits.shiftInstants_eq (fits : call.Fits offsetMs) :
    call.shiftInstants further = call.mapInstants (saturatingAdd · further) := by
  unfold shiftInstants
  split
  · rename_i nothing
    refine (mapInstants_fixed fun instant member => ?_).symm
    rw [nothing, saturatingAdd_eq (by rw [add_zero]; exact (fits instant member).1), add_zero]
  · rfl

/-- Within 64 bits a shift adds the offset to every instant. -/
theorem Fits.shiftInstants_add (fits : call.Fits offsetMs) :
    call.shiftInstants offsetMs = call.mapInstants (· + offsetMs) := by
  have moved : (call.mapInstants (· + offsetMs)).mapInstants
      (fun instant => saturatingAdd (instant - offsetMs) offsetMs) =
      call.mapInstants (· + offsetMs) := by
    apply mapInstants_fixed
    rw [instants_mapInstants, List.forall_mem_map]
    intro instant member
    rw [add_sub_cancel_right, saturatingAdd_eq (fits instant member).2]
  rw [fits.shiftInstants_eq, ← moved, mapInstants_mapInstants]
  simp only [add_sub_cancel_right]

/-- Shifts of a call add up. -/
theorem Fits.shiftInstants_shiftInstants (fits : call.Fits offsetMs) (further : ℤ) :
    (call.shiftInstants offsetMs).shiftInstants further = call.shiftInstants (offsetMs + further) := by
  by_cases nothing : further = 0
  · subst nothing
    rw [add_zero]
    rfl
  · rw [fits.shiftInstants_add, fits.shiftInstants_eq, shiftInstants, if_neg nothing, mapInstants_mapInstants]
    simp only [saturatingAdd, add_assoc]

/-- A shift is undone by its opposite. -/
theorem Fits.shiftInstants_back (fits : call.Fits offsetMs) :
    (call.shiftInstants offsetMs).shiftInstants (-offsetMs) = call := by
  rw [fits.shiftInstants_shiftInstants, add_neg_cancel]
  rfl

end Record

/-! ### What a merge keeps -/

/-- Every instant of a leg is where it was: only sequences may be higher and messages more. -/
structure Leg.Keeps (before after : Leg Data) : Prop where
  invite : after.invite = before.invite
  entries : before.messages.entries ⊆ after.messages.entries
  dialogs : List.Forall₂ (fun old new : Dialog Data =>
    { new with ourCseq := old.ourCseq, peerCseq := old.peerCseq } = old)
    before.dialogs after.dialogs

/-- Every instant of a call is where it was: the other record may only have more events and messages. -/
structure Record.Keeps (before after : Record Data) : Prop where
  fields : (after.timers, after.createdAt, after.decisionLog, after.termination, after.transfer, after.reroute,
    after.answered, after.awaited) = (before.timers, before.createdAt, before.decisionLog, before.termination,
    before.transfer, before.reroute, before.answered, before.awaited)
  cdrEvents : before.cdrEvents ⊆ after.cdrEvents
  legs : List.Forall₂ Leg.Keeps before.everyLeg after.everyLeg

theorem Leg.Keeps.refl (leg : Leg Data) : leg.Keeps leg :=
  ⟨rfl, List.Subset.refl _, List.forall₂_same.2 fun _ _ => rfl⟩

theorem Record.Keeps.refl (call : Record Data) : call.Keeps call :=
  ⟨rfl, List.Subset.refl _, List.forall₂_same.2 fun leg _ => .refl leg⟩

theorem Leg.Keeps.mapInstants {before after : Leg Data} (keeps : before.Keeps after) (shift : ℤ → ℤ) :
    (before.mapInstants shift).Keeps (after.mapInstants shift) where
  invite := congrArg (Option.map _) keeps.invite
  entries := List.map_subset _ keeps.entries
  dialogs := by
    refine List.forall₂_map_left_iff.2 (List.forall₂_map_right_iff.2 (keeps.dialogs.imp ?_))
    exact fun old new same => congrArg (Dialog.mapInstants shift) same

namespace Record

variable {before after call : Record Data}

/-- What is kept is kept in every frame. -/
theorem Keeps.shiftInstants (keeps : before.Keeps after) (offsetMs : ℤ) :
    (before.shiftInstants offsetMs).Keeps (after.shiftInstants offsetMs) := by
  unfold Record.shiftInstants
  split
  · exact keeps
  refine ⟨?_, List.map_subset _ keeps.cdrEvents, ?_⟩
  · have fields := keeps.fields
    simp only [Prod.mk.injEq] at fields
    simp [mapInstants, fields]
  obtain ⟨-, -, legs⟩ := keeps
  unfold everyLeg at legs ⊢
  obtain ⟨aLeg, bLegs⟩ := List.forall₂_cons.1 legs
  refine .cons (aLeg.mapInstants _) (List.forall₂_map_left_iff.2 (List.forall₂_map_right_iff.2 (bLegs.imp ?_)))
  exact fun old new kept => kept.mapInstants _

variable [DecidableEq Data]

/-- A leg's merge keeps what the leg said. -/
theorem mergeLeg_keeps (other : Record Data) (leg : Leg Data) : leg.Keeps (mergeLeg other leg) := by
  cases found : other.findLeg leg.legId with
  | none =>
    rw [mergeLeg_of_none found]
    exact .refl leg
  | some theirs =>
    rw [mergeLeg_of_some found]
    refine ⟨rfl, subset_unionRing, List.forall₂_map_right_iff.2 (List.forall₂_same.2 fun dialog _ => ?_)⟩
    unfold raiseDialog
    split <;> rfl

/-- A merge keeps what the call said. -/
theorem mergeExempt_keeps (other : Record Data) : call.Keeps (call.mergeExempt other) := by
  rw [mergeExempt_eq]
  refine ⟨rfl, subset_unionOneForOne, ?_⟩
  exact .cons (mergeLeg_keeps other _) (List.forall₂_map_right_iff.2
    (List.forall₂_same.2 fun leg _ => mergeLeg_keeps other leg))

end Record

end SipServer.Call

namespace SipServer.Store

open SipServer.Call

variable {Data : Type} [DecidableEq Data] {merged : Enveloped Data}

namespace StoredCopy

variable {stored : StoredCopy Data} {nowMs originNowMs : ℤ} {incoming : Enveloped Data} {primaryIncoming : Bool}

omit [DecidableEq Data] in
/-- Written back under the origin it was read with, a copy keeps its offset. -/
theorem skewOffsetMs_keepMerged : (stored.keepMerged nowMs merged).skewOffsetMs = stored.skewOffsetMs := by
  unfold keepMerged
  split
  · simp [heldOriginNowMs]
  · rfl

omit [DecidableEq Data] in
theorem keepMerged_keeps (keeps : stored.copy.call.Keeps merged.call) :
    stored.copy.call.Keeps (stored.keepMerged nowMs merged).copy.call := by
  unfold keepMerged
  split
  · exact keeps
  · exact .refl _

/-- The held copy that stands has its instants and the incoming one's exempt fields. -/
theorem meet_held_keeps {held : Enveloped Data} (met : meet held incoming primaryIncoming = .held merged) :
    held.call.Keeps merged.call := by
  unfold meet at met
  split at met
  · split at met
    · cases met
      exact Record.mergeExempt_keeps _
    · cases met
    · split at met
      · cases met
      cases met
      exact Record.mergeExempt_keeps _
    · cases met
  · cases met
    exact .refl _

/-- A meeting leaves the instants of the copy stored, and the frame they are read in. -/
theorem meetStored_keeps (fits : stored.copy.call.Fits (stored.frameGap nowMs originNowMs)) :
    stored.copy.call.Keeps (stored.meetStored nowMs incoming primaryIncoming originNowMs).2.copy.call ∧
      (stored.meetStored nowMs incoming primaryIncoming originNowMs).2.skewOffsetMs = stored.skewOffsetMs := by
  unfold meetStored
  dsimp only
  split
  · exact ⟨.refl _, rfl⟩
  · rename_i merged met
    have keeps := (meet_held_keeps met).shiftInstants (-stored.frameGap nowMs originNowMs)
    rw [fits.shiftInstants_back] at keeps
    exact ⟨keepMerged_keeps keeps, skewOffsetMs_keepMerged⟩
  · exact ⟨.refl _, rfl⟩

end StoredCopy

/-- Moving the instants of a call by one offset and then by another moves them by the sum, moving them by
    nothing changes nothing, and a move adds the offset to each instant and changes no other field, as long
    as none saturates; so a meeting that keeps the copy stored leaves its instants as they were, in the frame
    they were in, whatever the clock of the incoming frame read. -/
theorem reanchoring_acts_on_calls (call : Record Data) {offsetMs : ℤ} (fits : call.Fits offsetMs) (furtherMs : ℤ) :
    (call.shiftInstants offsetMs).shiftInstants furtherMs = call.shiftInstants (offsetMs + furtherMs) ∧
      call.shiftInstants 0 = call ∧
      (call.shiftInstants offsetMs).instants = call.instants.map (· + offsetMs) ∧
      (call.shiftInstants offsetMs).others = call.others ∧
      ∀ (stored : StoredCopy Data) (nowMs originNowMs : ℤ) (incoming : Enveloped Data) (primaryIncoming : Bool),
        stored.copy.call = call → stored.frameGap nowMs originNowMs = offsetMs →
        (stored.meetStored nowMs incoming primaryIncoming originNowMs).1 = none →
          call.Keeps (stored.meetStored nowMs incoming primaryIncoming originNowMs).2.copy.call ∧
            (stored.meetStored nowMs incoming primaryIncoming originNowMs).2.skewOffsetMs = stored.skewOffsetMs := by
  refine ⟨fits.shiftInstants_shiftInstants furtherMs, rfl, ?_, ?_, ?_⟩
  · rw [fits.shiftInstants_add, Record.instants_mapInstants]
  · rw [fits.shiftInstants_add, Record.others_mapInstants]
  rintro stored nowMs originNowMs incoming primaryIncoming rfl rfl -
  exact StoredCopy.meetStored_keeps fits

/-- A copy written five seconds behind this node's clock meets one written two seconds behind, and is
    kept. -/
theorem reanchoring_acts_on_kept_call :
    let call : Record ℕ := { (default : Record ℕ) with createdAt := 5000, timers := [⟨.keepalive, 9000, 0⟩] }
    let stored : StoredCopy ℕ := ⟨⟨call, some (.new "w0" "w1" 2 0)⟩, some 5000⟩
    let incoming : Enveloped ℕ := ⟨{ (default : Record ℕ) with messageSeq := 7 }, some (.new "w0" "w1" 1 0)⟩
    let met := stored.meetStored 10000 incoming false 8000
    met.1 = none ∧ met.2.copy.call.messageSeq = 7 ∧ met.2.copy.call.timers = call.timers ∧
      (call.shiftInstants 3000).shiftInstants (-3000) = call ∧
        (call.shiftInstants 3000).instants = [12000, 8000] := by
  intro call stored incoming met
  have fits : call.Fits 3000 := by
    unfold Record.Fits
    decide
  obtain ⟨acts, -, moves, -, keeps⟩ := reanchoring_acts_on_calls call fits (-3000)
  obtain ⟨kept, -⟩ := keeps stored 10000 8000 incoming false rfl (by decide) (by decide)
  exact ⟨by decide, by decide, congrArg Prod.fst kept.fields, acts, moves⟩

end SipServer.Store
