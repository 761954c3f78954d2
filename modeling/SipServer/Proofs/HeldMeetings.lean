/-
Module: SipServer.Proofs.HeldMeetings
Purpose: The router sees each call's frames in order: holding back the refused copies of a batch only drops
  each copy that the call's next frame of the batch, a refused copy as well, replaces.
-/
import SipServer.Repl.HeldMeetings

namespace SipServer.Repl

open SipServer.Store

variable {Body : Type} {cmd : ReplCommand Body}

/-! ### What the router is to hear -/

/-- A copy the store refused once the bootstrap is over: a put of a split, or on a reclaim flow one the
    stored copy contains. -/
def Signalled.refusedCopy (frame : Signalled Body) (reclaim bootstrapped : Bool) : Bool :=
  match frame.write with
  | .put _ => bootstrapped && (frame.outcome = .refused || (reclaim && frame.outcome = .dominated))
  | .delete _ => false

/-- What the router is to hear of a frame: a refused copy with its body, an applied put of a reclaimed call
    after the bootstrap, an applied delete of one, and on a backup's flow the applied writes of a takeover
    copy it serves. -/
def Signalled.expected (frame : Signalled Body) (reclaim bootstrapped : Bool) : Option (ReplCommand Body) :=
  let applied := decide (frame.outcome = .applied)
  match frame.write, reclaim with
  | .put body, true =>
    if frame.refusedCopy true bootstrapped then some (.reverseFlushRefused frame.callRef body frame.originNowMs)
    else if bootstrapped && applied then some (.reclaimCall frame.callRef) else none
  | .put body, false =>
    if frame.refusedCopy false bootstrapped then some (.forwardFlushRefused frame.callRef body frame.originNowMs)
    else if applied && frame.servesTakeover then some (.forwardFlushApplied frame.callRef frame.write) else none
  | .delete incarnation, true => if applied then some (.reverseDeleteApplied frame.callRef incarnation) else none
  | .delete _, false =>
    if applied && frame.servesTakeover then some (.forwardFlushApplied frame.callRef frame.write) else none

/-- The command of a frame is what the router is to hear of it. -/
theorem Handing.command_eq (handing : Handing Body) (frame : Signalled Body) :
    command handing.mode handing.bootstrapped frame = frame.expected handing.reclaim handing.bootstrapped := by
  obtain ⟨reclaim, bootstrapped, -, -⟩ := handing
  obtain ⟨outcome, callRef, write, originNowMs, servesTakeover⟩ := frame
  cases write <;> cases reclaim <;> cases bootstrapped <;> cases outcome <;> cases servesTakeover <;> rfl

/-- The refused copies are the frames the router hears of as refused. -/
theorem Signalled.refusedCopy_eq (frame : Signalled Body) (reclaim bootstrapped : Bool) :
    frame.refusedCopy reclaim bootstrapped = (frame.expected reclaim bootstrapped).any ReplCommand.isRefused := by
  obtain ⟨outcome, callRef, write, originNowMs, servesTakeover⟩ := frame
  cases write <;> cases reclaim <;> cases bootstrapped <;> cases outcome <;> cases servesTakeover <;> rfl

/-- The command of a frame is about its call. -/
theorem callRef_of_command {mode : ApplyMode} {bootstrapped : Bool} {frame : Signalled Body}
    (isCommand : command mode bootstrapped frame = some cmd) : cmd.callRef = some frame.callRef := by
  unfold command at isCommand
  grind [ReplCommand.callRef]

namespace HeldMeetings

/-- The copies held of a call. -/
def heldOf (held : HeldMeetings Body) (callRef : String) : List (ReplCommand Body) :=
  (held.filter (fun entry => entry.1 = callRef)).map (·.2)

/-- One refused copy a call is held, each under its own call. -/
structure Sound (held : HeldMeetings Body) : Prop where
  once : (held.map (·.1)).Nodup
  refused : ∀ entry ∈ held, entry.2.isRefused = true ∧ entry.2.callRef = some entry.1

variable {held : HeldMeetings Body} {callRef : String} {cmd : ReplCommand Body}

theorem heldOf_absent (absent : callRef ∉ held.map (·.1)) : heldOf held callRef = [] := by
  have none : held.filter (fun entry => entry.1 = callRef) = [] := by
    rw [List.filter_eq_nil_iff]
    intro entry member same
    exact absent (List.mem_map.mpr ⟨entry, member, of_decide_eq_true same⟩)
  rw [heldOf, none, List.map_nil]

/-- What a call holds is one refused copy or nothing. -/
theorem Sound.heldOf_cases (sound : Sound held) (callRef : String) :
    heldOf held callRef = [] ∨ ∃ cmd, heldOf held callRef = [cmd] ∧ cmd.isRefused = true := by
  obtain ⟨once, refused⟩ := sound
  induction held with
  | nil => exact .inl rfl
  | cons entry rest ih =>
    obtain ⟨fresh, once⟩ := List.nodup_cons.mp once
    by_cases here : entry.1 = callRef
    · have rest : heldOf rest callRef = [] := heldOf_absent (here ▸ fresh)
      refine .inr ⟨entry.2, ?_, (refused entry (by simp)).1⟩
      simpa [heldOf, here] using rest
    · have later := ih once (fun other member => refused other (List.mem_cons_of_mem _ member))
      simpa [heldOf, here] using later

theorem take_eq (once : (held.map (·.1)).Nodup) (callRef : String) :
    (take held callRef).1.toList = heldOf held callRef ∧
      (take held callRef).2 = held.filter (fun entry => entry.1 ≠ callRef) := by
  induction held with
  | nil => exact ⟨rfl, rfl⟩
  | cons entry rest ih =>
    obtain ⟨fresh, once⟩ := List.nodup_cons.mp once
    by_cases here : entry.1 = callRef
    · have absent : ∀ other ∈ rest, other.1 ≠ callRef :=
        fun other member same => fresh (List.mem_map.mpr ⟨other, member, same.trans here.symm⟩)
      have kept : rest.filter (fun entry => !decide (entry.1 = callRef)) = rest :=
        List.filter_eq_self.mpr (by simpa using absent)
      have none : heldOf rest callRef = [] := heldOf_absent (here ▸ fresh)
      unfold heldOf at none
      simp [take, heldOf, here, kept, none]
    · have later := ih once
      simpa [take, heldOf, here] using later

theorem Sound.dropped (sound : Sound held) (callRef : String) :
    Sound (held.filter (fun entry => entry.1 ≠ callRef)) where
  once := sound.once.sublist (List.Sublist.map _ List.filter_sublist)
  refused entry member := sound.refused entry (List.mem_of_mem_filter member)

theorem Sound.hold (sound : Sound held) (isRefused : cmd.isRefused = true) (about : cmd.callRef = some callRef) :
    Sound (hold held callRef cmd) where
  once := by
    rw [HeldMeetings.hold, List.map_append, List.nodup_append]
    refine ⟨(sound.dropped callRef).once, by simp, ?_⟩
    simp +contextual
  refused entry member := by
    rcases List.mem_append.mp member with kept | new
    · exact (sound.dropped callRef).refused entry kept
    obtain rfl := List.mem_singleton.mp new
    exact ⟨isRefused, about⟩

theorem heldOf_dropped (other : String) :
    heldOf (held.filter (fun entry => entry.1 ≠ callRef)) other = if other = callRef then []
      else heldOf held other := by
  unfold heldOf
  rw [List.filter_filter]
  by_cases same : other = callRef
  · simp [same]
  rw [if_neg same]
  congr 2
  grind

theorem heldOf_hold (other : String) :
    heldOf (hold held callRef cmd) other = if other = callRef then [cmd] else heldOf held other := by
  have kept : heldOf (held.filter (fun entry => entry.1 ≠ callRef)) other = if other = callRef then []
    else heldOf held other :=
    heldOf_dropped other
  unfold hold heldOf at *
  rw [List.filter_append, List.map_append, kept]
  by_cases same : other = callRef
  · simp [same]
  · simp [same, Ne.symm same]

end HeldMeetings

namespace Handing

open HeldMeetings

/-- What a stream brings a call: a frame, whether it is a refused copy and what the router is to hear of it,
    or the end of a batch. -/
inductive Entry (Body : Type) where
  | frame (refused : Bool) (cmd : Option (ReplCommand Body))
  | batchEnd

/-- What a stream brings a call, in order; its bootstrap is over at a `Noop` and after a warm pull. -/
def entries (callRef : String) (reclaim bootstrapped : Bool) : List (Event Body) → List (Entry Body)
  | [] => []
  | .data frame :: events =>
    (if frame.callRef = callRef then
      [.frame (frame.refusedCopy reclaim bootstrapped) (frame.expected reclaim bootstrapped)] else []) ++
      entries callRef reclaim bootstrapped events
  | .noop :: events => .batchEnd :: entries callRef reclaim true events
  | .quiet :: events => .batchEnd :: entries callRef reclaim bootstrapped events
  | .hardTimeout :: events => entries callRef reclaim bootstrapped events
  | .ended warm :: events => .batchEnd :: entries callRef reclaim warm events

/-- The call's next frame of the batch is a refused copy. -/
def refusedNext : List (Entry Body) → Bool
  | .frame refused _ :: _ => refused
  | _ => false

/-- What the router is to hear of a call's frames in order, each run of refused copies within a batch by its
    last one. -/
def represented : List (Entry Body) → List (ReplCommand Body)
  | [] => []
  | .batchEnd :: rest => represented rest
  | .frame refused cmd :: rest => (if refused && refusedNext rest then [] else cmd.toList) ++ represented rest

/-- The commands sent about a call. -/
def sentOf (handing : Handing Body) (callRef : String) : List (ReplCommand Body) :=
  handing.sent.filter (fun cmd => cmd.callRef = some callRef)

variable {handing : Handing Body} {callRef : String}

/-- The copy a call holds, as the frame it came by, before what the run still brings. -/
def ahead (handing : Handing Body) (callRef : String) (rest : List (Entry Body)) : List (Entry Body) :=
  (heldOf handing.held callRef).map (fun cmd => .frame true (some cmd)) ++ rest

/-- A held copy goes up before anything but a refused copy of the call. -/
theorem represented_ahead (sound : Sound handing.held) {rest : List (Entry Body)}
    (overtakes : refusedNext rest = false) :
    represented (handing.ahead callRef rest) = heldOf handing.held callRef ++ represented rest := by
  unfold ahead
  rcases sound.heldOf_cases callRef with none | ⟨cmd, one, -⟩
  · rw [none]
    rfl
  · rw [one]
    simp [represented, overtakes]

/-- A refused copy takes the place of the one held. -/
theorem represented_ahead_refused (sound : Sound handing.held) (rest : List (Entry Body)) :
    represented (handing.ahead callRef (.frame true (some cmd) :: rest)) =
      represented (.frame true (some cmd) :: rest) := by
  unfold ahead
  rcases sound.heldOf_cases callRef with none | ⟨earlier, one, -⟩
  · rw [none]
    rfl
  · rw [one]
    rfl

/-- Releasing the batch hands over what each call holds. -/
theorem sentOf_releaseMeetings (sound : Sound handing.held) (callRef : String) :
    handing.releaseMeetings.sentOf callRef = handing.sentOf callRef ++ heldOf handing.held callRef := by
  have about : ∀ held : HeldMeetings Body, (∀ entry ∈ held, entry.2.callRef = some entry.1) →
      (held.map (·.2)).filter (fun cmd => cmd.callRef = some callRef) = heldOf held callRef := by
    intro held named
    unfold heldOf
    rw [List.filter_map]
    congr 1
    apply List.filter_congr
    intro entry member
    simp [named entry member]
  simp only [sentOf, releaseMeetings, List.filter_append,
    about handing.held (fun entry member => (sound.refused entry member).2)]

/-- The copy a frame's call holds goes up. -/
def overtake (handing : Handing Body) (callRef : String) : Handing Body :=
  { handing with
    held := handing.held.filter (fun entry => entry.1 ≠ callRef)
    sent := handing.sent ++ heldOf handing.held callRef }

section

variable (sound : Sound handing.held)

include sound

theorem sentOf_overtake (other : String) :
    (handing.overtake callRef).sentOf other =
      handing.sentOf other ++ if other = callRef then heldOf handing.held callRef else [] := by
  have named : ∀ cmd ∈ heldOf handing.held callRef, cmd.callRef = some callRef := by
    intro cmd member
    obtain ⟨entry, filtered, rfl⟩ := List.mem_map.mp member
    obtain ⟨member, same⟩ := List.mem_filter.mp filtered
    rw [(sound.refused entry member).2, of_decide_eq_true same]
  unfold sentOf overtake
  rw [List.filter_append]
  congr 1
  split
  · rename_i same
    exact List.filter_eq_self.mpr fun cmd member => by simp [named cmd member, same]
  · rename_i apart
    exact List.filter_eq_nil_iff.mpr fun cmd member => by simp [named cmd member, Ne.symm apart]

/-- What a frame hands up and holds, by its command. -/
theorem signal_eq (frame : Signalled Body) :
    handing.signal frame =
      match command handing.mode handing.bootstrapped frame with
      | none => handing.overtake frame.callRef
      | some cmd =>
        if cmd.isRefused then { handing with held := hold handing.held frame.callRef cmd }
        else (handing.overtake frame.callRef).send cmd := by
  obtain ⟨taken, left⟩ := take_eq sound.once frame.callRef
  unfold signal overtake
  simp only [← taken, ← left]
  cases command handing.mode handing.bootstrapped frame <;> rfl

theorem signal_sound (frame : Signalled Body) : Sound (handing.signal frame).held := by
  rw [signal_eq sound]
  split
  · exact sound.dropped frame.callRef
  rename_i cmd isCommand
  split
  · rename_i isRefused
    exact sound.hold isRefused (callRef_of_command isCommand)
  · exact sound.dropped frame.callRef

/-- A frame: what its call held and its own command go up in order. -/
theorem signal_represented (frame : Signalled Body) (callRef : String)
    (rest : List (Entry Body)) :
    handing.sentOf callRef ++ represented (handing.ahead callRef ((if frame.callRef = callRef then
        [.frame (frame.refusedCopy handing.reclaim handing.bootstrapped)
          (frame.expected handing.reclaim handing.bootstrapped)] else []) ++ rest)) =
      (handing.signal frame).sentOf callRef ++ represented ((handing.signal frame).ahead callRef rest) := by
  have overtaken : (handing.overtake frame.callRef).ahead callRef rest =
      if callRef = frame.callRef then rest else handing.ahead callRef rest := by
    unfold ahead overtake
    rw [heldOf_dropped]
    split <;> rfl
  rw [signal_eq sound, frame.refusedCopy_eq, ← handing.command_eq]
  cases isCommand : command handing.mode handing.bootstrapped frame with
  | none =>
    rw [sentOf_overtake sound, overtaken]
    by_cases same : callRef = frame.callRef
    · subst same
      rw [if_pos rfl, if_pos rfl, if_pos rfl, represented_ahead sound rfl, List.append_assoc]
      rfl
    · simp [same, Ne.symm same]
  | some cmd =>
    have about := callRef_of_command isCommand
    rw [Option.any_some]
    dsimp only
    cases isRefused : cmd.isRefused with
    | true =>
      have held : ahead { handing with held := hold handing.held frame.callRef cmd } callRef rest =
          if callRef = frame.callRef then .frame true (some cmd) :: rest else handing.ahead callRef rest := by
        unfold ahead
        rw [heldOf_hold]
        split <;> rfl
      rw [if_pos rfl, held]
      by_cases same : callRef = frame.callRef
      · subst same
        rw [if_pos rfl, if_pos rfl, List.singleton_append, represented_ahead_refused sound]
        rfl
      · simp [same, Ne.symm same, sentOf]
    | false =>
      have sends : ((handing.overtake frame.callRef).send cmd).sentOf callRef =
          (handing.overtake frame.callRef).sentOf callRef ++ if callRef = frame.callRef then [cmd] else [] := by
        by_cases same : callRef = frame.callRef
        · simp [sentOf, send, about, same]
        · simp [sentOf, send, about, same, Ne.symm same]
      have onward : ((handing.overtake frame.callRef).send cmd).ahead callRef rest =
          (handing.overtake frame.callRef).ahead callRef rest := rfl
      rw [if_neg Bool.false_ne_true, sends, onward, sentOf_overtake sound, overtaken]
      by_cases same : callRef = frame.callRef
      · subst same
        have overtakes : refusedNext (.frame false (some cmd) :: rest) = false := rfl
        simp [represented_ahead sound overtakes, represented]
      · simp [same, Ne.symm same]

/-- The batch is read whole: what each call held goes up. -/
theorem releaseMeetings_represented (callRef : String) (rest : List (Entry Body)) :
    handing.sentOf callRef ++ represented (handing.ahead callRef (.batchEnd :: rest)) =
      handing.releaseMeetings.sentOf callRef ++ represented rest := by
  rw [represented_ahead sound rfl, sentOf_releaseMeetings sound, List.append_assoc]
  rfl

/-- What the stream still brings a call of this puller. -/
def brings (handing : Handing Body) (callRef : String) (events : List (Event Body)) : List (Entry Body) :=
  entries callRef handing.reclaim handing.bootstrapped events

/-- One step: what it sends about a call and what it leaves held stand for what was held and what it
    brings. -/
theorem step_represented (event : Event Body) (callRef : String) (events : List (Event Body)) :
    Sound (handing.step event).held ∧
      handing.sentOf callRef ++ represented (handing.ahead callRef (handing.brings callRef (event :: events))) =
        (handing.step event).sentOf callRef ++
          represented ((handing.step event).ahead callRef ((handing.step event).brings callRef events)) := by
  have empty : Sound ([] : HeldMeetings Body) := ⟨List.nodup_nil, nofun⟩
  cases event with
  | data frame =>
    refine ⟨signal_sound sound frame, (signal_represented sound frame callRef _).trans ?_⟩
    have same : (handing.signal frame).brings callRef events = handing.brings callRef events := by
      rw [signal_eq sound]
      split
      · rfl
      · split <;> rfl
    rw [step, same]
    rfl
  | noop =>
    refine ⟨empty, (releaseMeetings_represented sound callRef _).trans ?_⟩
    dsimp only [step]
    split
    · have unnamed : (handing.sent ++ [ReplCommand.reclaimAll]).filter (fun cmd => cmd.callRef = some callRef) =
          handing.sentOf callRef := by simp [sentOf, ReplCommand.callRef]
      simp only [sentOf, releaseMeetings, send, List.filter_append] at unnamed ⊢
      rw [unnamed]
      rfl
    · rfl
  | quiet | ended => exact ⟨empty, releaseMeetings_represented sound callRef _⟩
  | hardTimeout =>
    dsimp only [step]
    split
    · refine ⟨sound, ?_⟩
      have sent : (handing.send .reclaimAll).sentOf callRef = handing.sentOf callRef := by
        simp [sentOf, send, ReplCommand.callRef]
      rw [sent]
      rfl
    · exact ⟨sound, rfl⟩

/-- A whole run. -/
theorem run_represented (callRef : String) (events : List (Event Body)) :
    Sound (handing.run events).held ∧
      handing.sentOf callRef ++ represented (handing.ahead callRef (handing.brings callRef events)) =
        (handing.run events).sentOf callRef ++ heldOf (handing.run events).held callRef := by
  induction events generalizing handing with
  | nil => exact ⟨sound, by rw [brings, entries, represented_ahead sound rfl, represented, List.append_nil]; rfl⟩
  | cons event events ih =>
    obtain ⟨soundNext, stepped⟩ := step_represented sound event callRef events
    obtain ⟨soundLast, ran⟩ := ih soundNext
    exact ⟨soundLast, stepped.trans ran⟩

end

/-- For every stream: the commands sent about a call, then the copy of it still held, are those of its frames
    in order with each run of refused copies in a batch by its last; once a batch is released nothing is held
    back. -/
theorem frames_reach_router_in_order (reclaim warm : Bool) (events : List (Event Body)) (callRef : String) :
    (run (new reclaim warm) events).sentOf callRef ++ heldOf (run (new reclaim warm) events).held callRef =
        represented (entries callRef reclaim warm events) ∧
      ∀ event, event.endsBatch = true →
        ((run (new reclaim warm) events).step event).held = [] ∧
          ((run (new reclaim warm) events).step event).sentOf callRef =
            represented (entries callRef reclaim warm (events ++ [event])) := by
  have empty : Sound (new reclaim warm : Handing Body).held := ⟨List.nodup_nil, nofun⟩
  have whole : ∀ events : List (Event Body), (run (new reclaim warm) events).sentOf callRef ++
      heldOf (run (new reclaim warm) events).held callRef = represented (entries callRef reclaim warm events) :=
    fun events => (run_represented empty callRef events).2.symm
  refine ⟨whole events, fun event ends => ?_⟩
  have released : ((run (new reclaim warm) events).step event).held = [] := by
    cases event with
    | data frame => cases ends
    | hardTimeout => cases ends
    | noop | quiet | ended => rfl
  have last := whole (events ++ [event])
  rw [run, List.foldl_concat, ← run, released] at last
  exact ⟨released, (List.append_nil _).symm.trans last⟩

/-- A put of a call with a one-letter body. -/
def putOf (callRef body : String) (outcome : ApplyOutcome) : Event String :=
  .data ⟨outcome, callRef, .put body, 0, false⟩

/-- Of two refused copies of `c` with one of `d` between them the router hears the later, before the applied
    put that follows; after the batch it hears of the next refused copy too. -/
theorem last_refused_copy_sent :
    let events := [putOf "c" "1" .refused, putOf "d" "2" .refused, putOf "c" "3" .refused, putOf "c" "4" .applied,
      putOf "c" "5" .dominated, .quiet, putOf "c" "6" .refused]
    ((run (new true true) events).step .noop).sentOf "c" = [.reverseFlushRefused "c" "3" 0, .reclaimCall "c",
      .reverseFlushRefused "c" "5" 0, .reverseFlushRefused "c" "6" 0] :=
  ((frames_reach_router_in_order true true _ "c").2 .noop rfl).2

end Handing

end SipServer.Repl
