/-
Module: SipServer.Proofs.Refusals
Purpose: What the memo of refusals keeps in every run whose refusals find the identity not held, not lapsed
  in the memo and not refused at the same instant before, and the runs that show each of the three conditions
  needed.
-/
import Mathlib.Data.List.Perm.Subperm
import SipServer.Txn.Refusals

namespace SipServer.Txn

open SipServer.Lib SipServer.Retransmit Judgement

variable {now max : ℕ} {key : Identity}

namespace Memo

/-- What `expire` drops is the front of the queue: each entry lapsed or past the capacity as it goes, the
    rest neither. -/
structure Expires (max now : ℕ) (order : List (ℕ × Identity)) (refused : KeyMap Identity ℕ)
    (dropped kept : List (ℕ × Identity)) (left : KeyMap Identity ℕ) : Prop where
  split : order = dropped ++ kept
  due : ∀ i (within : i < dropped.length), timerB ≤ now - dropped[i].1 ∨ max < order.length - i
  bounded : kept.length ≤ max
  recent : ∀ entry ∈ kept.head?, now - entry.1 < timerB
  left : ∀ key instant, left.get key = some instant ↔ refused.get key = some instant ∧ (instant, key) ∉ dropped

theorem expireOrder_expires (order : List (ℕ × Identity)) (refused : KeyMap Identity ℕ) :
    ∃ dropped, Expires max now order refused dropped (expireOrder max now order refused).1
      (expireOrder max now order refused).2 := by
  induction order generalizing refused with
  | nil => exact ⟨[], rfl, nofun, Nat.zero_le _, nofun, by simp [expireOrder]⟩
  | cons entry rest ih =>
    obtain ⟨instant, key⟩ := entry
    unfold expireOrder
    split
    · rename_i keeps
      exact ⟨[], rfl, nofun, keeps.2, by simpa using keeps.1, by simp⟩
    rename_i goes
    obtain ⟨dropped, split, due, bounded, recent, left⟩ :=
      ih (if refused.get key = some instant then refused.remove key else refused)
    refine ⟨(instant, key) :: dropped, congrArg (_ :: ·) split, ?_, bounded, recent, ?_⟩
    · intro i within
      cases i with
      | zero =>
        simp only [List.getElem_cons_zero, List.length_cons]
        omega
      | succ i =>
        have later := due i (by simpa using within)
        simpa using later
    · intro other at_
      rw [left]
      clear left recent bounded due split goes ih
      split <;> grind [KeyMap.get_remove]

/-- The queue is in order, a remembered refusal is where the observer counts it to be, and one that stands is
    remembered. -/
structure Queued (memo : Memo) (clock : ℕ) (standing : Identity → Option (ℕ × ℕ)) : Prop where
  sorted : memo.order.Pairwise (fun earlier later => earlier.1 ≤ later.1)
  past : ∀ entry ∈ memo.order, entry.1 ≤ clock
  known : ∀ key instant, memo.refused.get key = some instant → ∃ since, standing key = some (instant, since) ∧
    (instant, key) ∈ memo.order ∧ memo.order.idxOf (instant, key) + since + 1 = memo.order.length
  stands : ∀ key instant since, standing key = some (instant, since) → since < memo.max → clock < instant + timerB →
    memo.refused.get key = some instant

variable {memo : Memo} {clock : ℕ} {standing : Identity → Option (ℕ × ℕ)}

theorem expire_expires (memo : Memo) (now : ℕ) :
    ∃ dropped, Expires memo.max now memo.order memo.refused dropped (memo.expire now).order
      (memo.expire now).refused :=
  expireOrder_expires memo.order memo.refused

section

variable (queued : memo.Queued clock standing) (later : clock ≤ now)

include queued later

/-- After `expire` the queue is within the capacity and no refusal it remembers has lapsed. -/
theorem Queued.expire :
    (memo.expire now).Queued now standing ∧ (memo.expire now).order.length ≤ memo.max ∧
      ∀ key instant, (memo.expire now).refused.get key = some instant →
        memo.refused.get key = some instant ∧ now < instant + timerB := by
  obtain ⟨sorted, past, known, stands⟩ := queued
  obtain ⟨dropped, split, due, bounded, recent, left⟩ := expire_expires memo now
  rw [split] at sorted past
  have keptSorted := (List.pairwise_append.mp sorted).2.1
  -- a remembered refusal is in what is kept, as far from its end as it was
  have kept : ∀ key instant, (memo.expire now).refused.get key = some instant →
      ∃ since, standing key = some (instant, since) ∧ (instant, key) ∈ (memo.expire now).order ∧
        (memo.expire now).order.idxOf (instant, key) + since + 1 = (memo.expire now).order.length := by
    intro key instant isRefused
    obtain ⟨wasRefused, notDropped⟩ := (left key instant).mp isRefused
    obtain ⟨since, isStanding, member, place⟩ := known key instant wasRefused
    rw [split] at member place
    rw [List.idxOf_append_of_notMem notDropped, List.length_append] at place
    exact ⟨since, isStanding, (List.mem_append.mp member).resolve_left notDropped, by omega⟩
  refine ⟨⟨keptSorted, ?_, kept, ?_⟩, bounded, ?_⟩
  · exact fun entry member => (past entry (List.mem_append_right _ member)).trans later
  · intro key instant since isStanding fits fresh
    have wasRefused := stands key instant since isStanding fits (later.trans_lt fresh)
    obtain ⟨_, isStanding', member, place⟩ := known key instant wasRefused
    cases isStanding.symm.trans isStanding'
    refine (left key instant).mpr ⟨wasRefused, fun isDropped => ?_⟩
    -- what drops it is neither its age nor the capacity
    have within : dropped.idxOf (instant, key) < dropped.length := List.idxOf_lt_length_of_mem isDropped
    have goes := due _ within
    rw [List.getElem_idxOf within] at goes
    rw [split, List.idxOf_append_of_mem isDropped] at place
    rw [split] at goes
    have capacity : since < memo.max := fits
    have positive : 0 < timerB := by decide
    omega
  · intro key instant isRefused
    obtain ⟨-, -, member, -⟩ := kept key instant isRefused
    refine ⟨((left key instant).mp isRefused).1, ?_⟩
    cases front : (memo.expire now).order with
    | nil => simp [front] at member
    | cons first rest =>
      rw [front] at member keptSorted
      have fresh : now - first.1 < timerB := recent first (by rw [front]; rfl)
      have after : first.1 ≤ instant := by
        rcases List.mem_cons.mp member with rfl | behind
        · exact le_refl _
        · exact (List.pairwise_cons.mp keptSorted).1 _ behind
      omega

/-- A refusal newly recorded: it stands, and the others have one more after them. -/
theorem Queued.push (unrefused : memo.refused.get key = none)
    (apart : (now, key) ∉ memo.order) :
    Queued { memo with refused := memo.refused.insert key now, order := memo.order ++ [(now, key)] } now
      (fun other => if other = key then some (now, 0) else (standing other).map fun stand =>
        (stand.1, stand.2 + 1)) where
  sorted := by
    refine List.pairwise_append.mpr ⟨queued.sorted, List.pairwise_singleton _ _, fun earlier member last isLast => ?_⟩
    obtain rfl := List.mem_singleton.mp isLast
    exact (queued.past earlier member).trans later
  past entry member := by
    rcases List.mem_append.mp member with old | new
    · exact (queued.past entry old).trans later
    obtain rfl := List.mem_singleton.mp new
    exact le_refl _
  known other instant isRefused := by
    rcases KeyMap.of_get_insert isRefused with ⟨rfl, rfl⟩ | ⟨same, isRefused⟩
    · exact ⟨0, if_pos rfl, by simp, by simp [List.idxOf_append_of_notMem apart]⟩
    obtain ⟨since, isStanding, member, place⟩ := queued.known other instant isRefused
    refine ⟨since + 1, by simp [same, isStanding], List.mem_append_left _ member, ?_⟩
    rw [List.idxOf_append_of_mem member, List.length_append, List.length_singleton]
    omega
  stands other instant since isStanding fits fresh := by
    rw [KeyMap.get_insert]
    by_cases same : other = key
    · rw [if_pos same] at isStanding ⊢
      exact (congrArg (Option.map Prod.fst) isStanding :)
    rw [if_neg same] at isStanding ⊢
    obtain ⟨stand, was, isNow⟩ := Option.map_eq_some_iff.mp isStanding
    cases isNow
    exact queued.stands other _ _ was (Nat.lt_of_succ_lt fits) (later.trans_lt fresh)

/-- Clearing a refusal leaves the others where they are. -/
theorem Queued.clear :
    Queued { memo with refused := memo.refused.remove key } now (Function.update standing key none) where
  sorted := queued.sorted
  past entry member := (queued.past entry member).trans later
  known other instant isRefused := by
    obtain ⟨same, isRefused⟩ := KeyMap.of_get_remove isRefused
    rw [Function.update_of_ne same]
    exact queued.known other instant isRefused
  stands other instant since isStanding fits fresh := by
    by_cases same : other = key
    · rw [same, Function.update_self] at isStanding
      cases isStanding
    rw [Function.update_of_ne same] at isStanding
    exact (KeyMap.get_remove ..).trans
      ((if_neg same).trans (queued.stands other instant since isStanding fits (later.trans_lt fresh)))

end

end Memo

namespace Watch

/-- What a call must find: an admission refuses an identity that is not held, `refuse` finds no refusal of it
    that lapsed in the memo, and neither records one at the instant of an earlier one the identity no longer
    stands under. -/
def Careful (watch : Watch) (event : ℕ × RefusalCall) : Prop :=
  match event.2 with
  | .refuse key =>
    (∀ instant, watch.memo.refused.get key = some instant → event.1 < instant + timerB) ∧
      ((event.1, key) ∈ watch.memo.order → watch.memo.refused.get key = some event.1)
  | .admitInvite key true _ =>
    watch.memo.held.get key = none ∧ ((event.1, key) ∈ watch.memo.order → watch.memo.refused.get key = some event.1)
  | _ => True

/-- The holds of each identity: those taken less those released. -/
def Counted (held : KeyMap Identity ℕ) (taken released : Identity → ℕ) : Prop :=
  ∀ key, released key ≤ taken key ∧
    held.get key = if taken key = released key then none else some (taken key - released key)

structure Sound (watch : Watch) : Prop where
  queued : watch.memo.Queued watch.clock watch.standing
  bounded : watch.memo.order.length ≤ watch.memo.max
  apart : ∀ key, (watch.memo.refused.get key).isSome → watch.memo.held.get key = none
  counted : Counted watch.memo.held watch.taken watch.released

/-- What is said of the memo in a state, and of what `refused` answers from then on. -/
structure Keeps (watch : Watch) : Prop where
  apart : ∀ key, ¬ ((watch.memo.refused.get key).isSome ∧ (watch.memo.held.get key).isSome)
  counted : Counted watch.memo.held watch.taken watch.released
  bounded : watch.memo.refused.size ≤ watch.memo.max
  stays : ∀ key instant since now, watch.standing key = some (instant, since) → watch.clock ≤ now →
    now < instant + timerB → since < watch.memo.max → (watch.memo.step now (.refused key)).1 = .isRefused true
  lapses : ∀ key now, watch.clock ≤ now → (watch.memo.step now (.refused key)).1 = .isRefused true →
    ∃ instant since, watch.standing key = some (instant, since) ∧ now < instant + timerB

variable {watch next : Watch}

section

variable (sound : watch.Sound)

include sound

theorem Sound.keeps : watch.Keeps where
  apart key both := by
    rw [sound.apart key both.1] at both
    exact Bool.false_ne_true both.2
  counted := sound.counted
  bounded := by
    have subset : watch.memo.refused.keys ⊆ watch.memo.order.map (·.2) := by
      intro key member
      obtain ⟨instant, isRefused⟩ := Option.isSome_iff_exists.mp (KeyMap.mem_keys_iff.mp member)
      obtain ⟨-, -, queued, -⟩ := sound.queued.known key instant isRefused
      exact List.mem_map.mpr ⟨_, queued, rfl⟩
    have fits := (List.subperm_of_subset watch.memo.refused.nodupKeys subset).length_le
    rw [List.length_map] at fits
    exact fits.trans sound.bounded
  stays key instant since now isStanding later fresh fits := by
    have remembered := (sound.queued.expire later).1.stands key instant since isStanding fits fresh
    simp [Memo.step, Memo.holdsRefusal, remembered]
  lapses key now later isRefused := by
    obtain ⟨instant, remembered⟩ := Option.isSome_iff_exists.mp (Answer.isRefused.inj isRefused)
    obtain ⟨queued, -, recent⟩ := sound.queued.expire later
    obtain ⟨since, isStanding, -⟩ := queued.known key instant remembered
    exact ⟨instant, since, isStanding, (recent key instant remembered).2⟩

/-- Time passes. -/
theorem Sound.tick (later : watch.clock ≤ now) : Sound { watch with clock := now } :=
  { sound with queued := { sound.queued with
      past := fun entry member => (sound.queued.past entry member).trans later
      stands := fun key instant since isStanding fits fresh =>
        sound.queued.stands key instant since isStanding fits (later.trans_lt fresh) } }

theorem Sound.expire (later : watch.clock ≤ now) :
    Sound { watch with memo := watch.memo.expire now, clock := now } := by
  obtain ⟨queued, bounded, recent⟩ := sound.queued.expire later
  refine ⟨queued, bounded, fun key isSome => ?_, sound.counted⟩
  obtain ⟨instant, isRefused⟩ := Option.isSome_iff_exists.mp isSome
  exact sound.apart key (Option.isSome_iff_exists.mpr ⟨instant, (recent key instant isRefused).1⟩)

/-- A remembered refusal has fewer than `max` recorded after it. -/
theorem Sound.known {instant : ℕ} (isRefused : watch.memo.refused.get key = some instant) :
    ∃ since, watch.standing key = some (instant, since) ∧ since < watch.memo.max := by
  obtain ⟨since, isStanding, -, place⟩ := sound.queued.known key instant isRefused
  have bounded := sound.bounded
  exact ⟨since, isStanding, by omega⟩

theorem Sound.remember (later : watch.clock ≤ now) (unheld : watch.memo.held.get key = none)
    (fresh : ∀ instant, watch.memo.refused.get key = some instant → now < instant + timerB)
    (once : (now, key) ∈ watch.memo.order → watch.memo.refused.get key = some now) :
    Sound { watch with memo := (watch.memo.remember now key).2, clock := now, standing := watch.refuse now key } := by
  have positive : 0 < timerB := by decide
  cases isRefused : watch.memo.refused.get key with
  | some instant =>
    -- a copy of a refused INVITE: nothing is recorded
    obtain ⟨since, isStanding, fits⟩ := sound.known isRefused
    have soon := fresh instant isRefused
    have stays : watch.refuse now key = watch.standing := by
      unfold refuse
      rw [isStanding]
      exact if_pos (decide_eq_true ⟨by omega, fits⟩)
    have expired : (watch.memo.remember now key).2 = watch.memo.expire now := by simp [Memo.remember, isRefused]
    rw [stays, expired]
    exact sound.expire later
  | none =>
    have renews : watch.refuse now key = fun other =>
        if other = key then some (now, 0) else (watch.standing other).map fun stand => (stand.1, stand.2 + 1) := by
      unfold refuse
      cases isStanding : watch.standing key with
      | none => rfl
      | some stand =>
        refine if_neg fun stands => ?_
        obtain ⟨soon, fits⟩ := of_decide_eq_true stands
        have recent : watch.clock < stand.1 + timerB := by omega
        cases isRefused.symm.trans (sound.queued.stands key _ _ isStanding fits recent)
    have pushed := sound.queued.push later isRefused (fun member => by cases isRefused.symm.trans (once member))
    obtain ⟨queued, bounded, recent⟩ := pushed.expire (le_refl now)
    have result : (watch.memo.remember now key).2 = Memo.expire
        { watch.memo with
          refused := watch.memo.refused.insert key now, order := watch.memo.order ++ [(now, key)] } now := by
      simp [Memo.remember, isRefused]
    rw [renews, result]
    refine ⟨queued, bounded, fun other isSome => ?_, sound.counted⟩
    obtain ⟨instant, isOther⟩ := Option.isSome_iff_exists.mp isSome
    have was := (recent other instant isOther).1
    rw [KeyMap.get_insert] at was
    by_cases same : other = key
    · exact same ▸ unheld
    rw [if_neg same] at was
    exact sound.apart other (Option.isSome_iff_exists.mpr ⟨instant, was⟩)

end

section Counts

variable {held : KeyMap Identity ℕ} {taken released : Identity → ℕ}

theorem Counted.hold (counted : Counted held taken released) (key : Identity) :
    Counted (held.insert key ((held.get key).getD 0 + 1)) (Function.update taken key (taken key + 1)) released := by
  intro other
  obtain ⟨le, count⟩ := counted other
  rw [KeyMap.get_insert]
  by_cases same : other = key
  · grind
  · simp only [Function.update_of_ne same, if_neg same]
    exact ⟨le, count⟩

theorem Counted.release (counted : Counted held taken released) {count : ℕ} (isHeld : held.get key = some count) :
    Counted (if count - 1 = 0 then held.remove key else held.insert key (count - 1))
      taken (Function.update released key (released key + 1)) := by
  have own : ∀ other, (if count - 1 = 0 then held.remove key else held.insert key (count - 1)).get other =
      if other = key then (if count - 1 = 0 then none else some (count - 1)) else held.get other := by
    intro other
    split <;> simp
  intro other
  obtain ⟨le, isCount⟩ := counted other
  rw [own]
  by_cases same : other = key
  · grind
  · simp only [Function.update_of_ne same, if_neg same]
    exact ⟨le, isCount⟩

end Counts

/-- One more hold of an identity that is not refused. -/
theorem Sound.hold (sound : watch.Sound) (unrefused : watch.memo.refused.get key = none) :
    Sound { watch with
      memo := watch.memo.hold key
      taken := Function.update watch.taken key (watch.taken key + 1) } := by
  refine ⟨⟨sound.queued.1, sound.queued.2, sound.queued.3, sound.queued.4⟩, sound.bounded, fun other isSome => ?_,
    sound.counted.hold key⟩
  have apart : other ≠ key := by
    rintro rfl
    exact Bool.false_ne_true ((congrArg Option.isSome unrefused).symm.trans isSome)
  exact (KeyMap.get_insert ..).trans ((if_neg apart).trans (sound.apart other isSome))

/-- A hold of an identity is released. -/
theorem Sound.release (sound : watch.Sound) {count : ℕ} (isHeld : watch.memo.held.get key = some count) :
    Sound { watch with
      memo := watch.memo.release key
      released := Function.update watch.released key (watch.released key + 1) } := by
  have result : watch.memo.release key = { watch.memo with
      held := if count - 1 = 0 then watch.memo.held.remove key else watch.memo.held.insert key (count - 1) } := by
    unfold Memo.release
    rw [isHeld]
    dsimp only
    split <;> rfl
  rw [result]
  refine ⟨⟨sound.queued.1, sound.queued.2, sound.queued.3, sound.queued.4⟩, sound.bounded, fun other isSome => ?_,
    sound.counted.release isHeld⟩
  have unheld := sound.apart other isSome
  have apart : other ≠ key := by
    rintro rfl
    cases unheld.symm.trans isHeld
  split <;> simp [apart, unheld]

/-- One call of a careful run. -/
theorem Sound.step {event : ℕ × RefusalCall} (sound : watch.Sound) (careful : watch.Careful event)
    (stepped : watch.step event = some next) : next.Sound := by
  obtain ⟨now, call⟩ := event
  unfold Watch.step at stepped
  split at stepped
  · cases stepped
  rename_i clocked
  have later : watch.clock ≤ now := Nat.not_lt.mp clocked
  cases stepped
  cases call with
  | refuse key =>
    obtain ⟨fresh, once⟩ := careful
    dsimp only [Memo.step]
    cases isHeld : watch.memo.held.get key with
    | some count => exact sound.tick later
    | none => exact sound.remember later isHeld fresh once
  | refused key => exact sound.expire later
  | hold key =>
    have cleared : Sound { watch with
        memo := { watch.memo with refused := watch.memo.refused.remove key }
        clock := now
        standing := Function.update watch.standing key none } := by
      refine ⟨sound.queued.clear later, sound.bounded, fun other isSome => ?_, sound.counted⟩
      exact sound.apart other (KeyMap.isSome_of_get_remove isSome).2
    exact cleared.hold (by simp)
  | release key =>
    dsimp only [Memo.step]
    cases isHeld : watch.memo.held.get key with
    | some count => exact (sound.tick later).release isHeld
    | none =>
      have same : watch.memo.release key = watch.memo := by
        unfold Memo.release
        rw [isHeld]
      rw [same]
      exact sound.tick later
  | admitInvite key refuse initial =>
    have expired := sound.expire later
    cases isRefused : (watch.memo.expire now).refused.get key with
    | some instant => simpa [Memo.step, Memo.holdsRefusal, isRefused] using expired
    | none =>
      cases refuse with
      | true =>
        obtain ⟨unheld, once⟩ := careful
        -- an entry of this instant would be the refusal the identity stands under, and remembered
        have fresh : (now, key) ∉ (watch.memo.expire now).order := by
          intro member
          obtain ⟨dropped, split, -⟩ := watch.memo.expire_expires now
          obtain ⟨since, isStanding, fits⟩ := sound.known (once (split ▸ List.mem_append_right dropped member))
          cases isRefused.symm.trans (expired.queued.stands key now since isStanding fits
            (Nat.lt_add_of_pos_right (by decide)))
        have result : Sound { watch with
            memo := ((watch.memo.expire now).remember now key).2
            clock := now
            standing := watch.refuse now key } :=
          expired.remember (le_refl now) unheld (fun instant is => by cases isRefused.symm.trans is)
            (fun member => absurd member fresh)
        simpa [Memo.step, Memo.holdsRefusal, isRefused] using result
      | false =>
        cases initial with
        | true => simpa [Memo.step, Memo.holdsRefusal, isRefused] using expired.hold isRefused
        | false => simpa [Memo.step, Memo.holdsRefusal, isRefused] using expired

theorem new_sound (max : ℕ) : (new max).Sound where
  queued := ⟨List.Pairwise.nil, nofun, nofun, nofun⟩
  bounded := Nat.zero_le max
  apart := nofun
  counted _ := ⟨le_refl 0, rfl⟩

/-- In every run whose calls are all careful, in every state. -/
theorem refused_or_held (max : ℕ) (events : List (ℕ × RefusalCall)) (watch : Watch)
    (ran : run step (new max) events = some watch) (careful : AllSteps step Careful (new max) events) : watch.Keeps :=
  (run_invariant_of_steps Sound (fun _ _ _ sound isCareful stepped => sound.step isCareful stepped) careful ran
    (new_sound max)).keeps

def invite : Identity := ("z9hG4bK1", "c1", "t1")

/-- A refusal repeated as a copy, cleared by a hold and recorded again later. -/
def refusedHeldRefused : List (ℕ × RefusalCall) :=
  [(0, .refuse invite), (10, .refuse invite), (20, .hold invite), (30, .release invite), (40, .refuse invite)]

theorem refused_again_later :
    ∃ watch, run step (new 2) refusedHeldRefused = some watch ∧ AllSteps step Careful (new 2) refusedHeldRefused ∧
      watch.standing invite = some (40, 0) ∧ watch.Keeps := by
  have careful : AllSteps step Careful (new 2) refusedHeldRefused := by
    refine .cons ⟨nofun, by decide⟩ rfl (.cons ⟨fun instant isRefused => ?_, by decide⟩ rfl (.cons trivial rfl
      (.cons trivial rfl (.cons ⟨nofun, by decide⟩ rfl trivial))))
    obtain rfl : 0 = instant := Option.some.inj isRefused
    decide
  exact ⟨_, rfl, careful, rfl, refused_or_held 2 refusedHeldRefused _ rfl careful⟩

/-- An identity refused while held, one refused again once its refusal lapsed and remembered no more, and one
    forgotten with a single refusal after it where two fit: it was cleared and refused again at one
    instant. -/
theorem careless_refusals :
    ((run step (new 2) [(0, .admitInvite invite false true), (1, .admitInvite invite true true)]).map fun watch =>
      ((watch.memo.refused.get invite).isSome, (watch.memo.held.get invite).isSome)) = some (true, true) ∧
    ((run step (new 2) [(0, .refuse invite), (40000, .refuse invite)]).map fun watch =>
      (watch.standing invite, (watch.memo.step 40001 (.refused invite)).1)) =
        some (some (40000, 0), .isRefused false) ∧
    ((run step (new 2) [(0, .refuse invite), (0, .hold invite), (0, .release invite), (0, .refuse invite),
      (1, .refuse ("z9hG4bK2", "c2", "t2"))]).map fun watch =>
      (watch.standing invite, (watch.memo.step 2 (.refused invite)).1)) = some (some (0, 1), .isRefused false) := by
  decide

end Watch

end SipServer.Txn
