/-
Module: SipServer.Proofs.RefusedReplicas
Purpose: The refusals a backup remembers: its two maps stay inverse, there are never more than the most it
  keeps, and a refusal is answered so until it is cleared, reaped or forgotten for as many later ones, the
  oldest first.
-/
import Mathlib.Order.Interval.Finset.Nat
import SipServer.Store.Replicating

namespace SipServer.Store

open SipServer.Lib

/-! ### Runs -/

/-- What is done to the refusals; a query changes nothing. -/
inductive RefusalCall where
  | refuse (callRef : String) (incarnation : Option String) (primary : String) (nowMs : ℤ)
  | refuses (callRef : String) (incarnation : Option String)
  | clear (callRef : String)
  | clearPrimary (primary : String)
  | reap (nowMs : ℤ)

/-- The call ends a refusal of `callRef`: it clears or reaps it, or refuses the call again. -/
def RefusalCall.Ends (callRef primary : String) (expiryAtMs : ℤ) : RefusalCall → Prop
  | .refuse other _ _ _ | .clear other => other = callRef
  | .refuses _ _ => False
  | .clearPrimary other => primary = other
  | .reap nowMs => expiryAtMs ≤ nowMs

def RefusalCall.isRefuse : RefusalCall → Bool
  | .refuse .. => true
  | _ => false

/-- The refusals, with the calls refused so far in order. -/
structure Refusing where
  replicas : RefusedReplicas
  recorded : List String

namespace Refusing

def step (refusing : Refusing) : RefusalCall → Refusing
  | .refuse callRef incarnation primary nowMs =>
    ⟨refusing.replicas.refuse callRef incarnation primary nowMs, refusing.recorded ++ [callRef]⟩
  | .refuses _ _ => refusing
  | .clear callRef => { refusing with replicas := refusing.replicas.clear callRef }
  | .clearPrimary primary => { refusing with replicas := refusing.replicas.clearPrimary primary }
  | .reap nowMs => { refusing with replicas := refusing.replicas.reap nowMs }

/-- What every call keeps: the two maps inverse, each refusal at its number among those recorded, and the
    bound. -/
structure Sound (replicas : RefusedReplicas) (recorded : List String) : Prop where
  inverse : ∀ seq callRef, (seq, callRef) ∈ replicas.order ↔
    ∃ refusal, replicas.byRef.get callRef = some refusal ∧ refusal.seq = seq
  numbered : ∀ seq callRef, (seq, callRef) ∈ replicas.order → recorded[seq]? = some callRef
  next : replicas.nextSeq = recorded.length
  atMost : replicas.byRef.size ≤ refusalsMax

variable {replicas : RefusedReplicas} {recorded : List String} {callRef : String} {refusal : Refusal} {seq : ℕ}

theorem size_remove {byRef : KeyMap String Refusal} (found : byRef.get callRef = some refusal) :
    (byRef.remove callRef).size + 1 = byRef.size := by
  have member := KeyMap.mem_keys_of_get found
  have positive := List.length_pos_of_mem member
  unfold KeyMap.size KeyMap.remove
  rw [AList.keys_erase, List.length_erase_of_mem member]
  omega

section

variable (sound : Sound replicas recorded)

include sound

/-- One refusal goes from both maps. -/
theorem Sound.removed (found : replicas.byRef.get callRef = some refusal) :
    Sound { replicas with
      byRef := replicas.byRef.remove callRef, order := replicas.order.remove refusal.seq } recorded where
  inverse seq other := by
    rw [SortedMap.mem_remove, sound.inverse, KeyMap.get_remove]
    have isEntry := (sound.inverse refusal.seq callRef).2 ⟨refusal, found, rfl⟩
    by_cases same : other = callRef
    · subst same
      simp only [found, Option.some.injEq, if_true, reduceCtorEq, false_and, exists_false, iff_false,
        not_and, not_not]
      rintro ⟨_, rfl, rfl⟩
      rfl
    · rw [if_neg same]
      refine ⟨fun kept => kept.1, fun stored => ⟨stored, fun isSeq => same ?_⟩⟩
      obtain rfl : seq = refusal.seq := isSeq
      exact SortedMap.value_unique ((sound.inverse _ _).2 stored) isEntry
  numbered seq other member := sound.numbered seq other ((SortedMap.mem_remove _ _ _).1 member).1
  next := sound.next
  atMost := by
    have size := size_remove found
    have atMost := sound.atMost
    simp only
    omega

theorem Sound.clear (callRef : String) : Sound (replicas.clear callRef) recorded := by
  unfold RefusedReplicas.clear
  split
  · exact sound
  · rename_i refusal found
    exact sound.removed found

theorem Sound.clearEach (gone : List String) : Sound (gone.foldl RefusedReplicas.clear replicas) recorded := by
  induction gone generalizing replicas with
  | nil => exact sound
  | cons callRef gone ih => exact ih (sound.clear callRef)

/-- As many refusals as there are from the oldest on were recorded since. -/
theorem Sound.size_le (oldest : ∀ other otherRef, (other, otherRef) ∈ replicas.order → seq ≤ other) :
    replicas.byRef.size ≤ recorded.length - seq := by
  rw [← sound.next, ← Nat.card_Ico, KeyMap.size, ← List.toFinset_card_of_nodup replicas.byRef.keys_nodup]
  have stored : ∀ callRef ∈ replicas.byRef.keys.toFinset, ∃ refusal, replicas.byRef.get callRef = some refusal :=
    fun callRef member => Option.isSome_iff_exists.1 (KeyMap.mem_keys_iff.1 (List.mem_toFinset.1 member))
  refine Finset.card_le_card_of_injOn (fun callRef => ((replicas.byRef.get callRef).map Refusal.seq).getD 0) ?_ ?_
  · intro callRef member
    obtain ⟨refusal, found⟩ := stored callRef member
    have entry := (sound.inverse refusal.seq callRef).2 ⟨refusal, found, rfl⟩
    have below := (List.getElem?_eq_some_iff.1 (sound.numbered _ _ entry)).1
    simp only [found, Option.map_some, Option.getD_some, Finset.coe_Ico, Set.mem_Ico]
    exact ⟨oldest _ _ entry, sound.next ▸ below⟩
  · intro callRef member other otherMember same
    obtain ⟨refusal, found⟩ := stored callRef member
    obtain ⟨otherRefusal, otherFound⟩ := stored other otherMember
    simp only [found, otherFound, Option.map_some, Option.getD_some] at same
    exact SortedMap.value_unique ((sound.inverse refusal.seq callRef).2 ⟨refusal, found, rfl⟩)
      ((sound.inverse refusal.seq other).2 ⟨otherRefusal, otherFound, same.symm⟩)

/-- The loop makes room by forgetting the oldest refusal, if there is no room. -/
theorem Sound.evict :
    let room := replicas.evict replicas.order.pairs
    room = replicas ∧ replicas.byRef.size < refusalsMax ∨
      ∃ oldest refusal, replicas.byRef.get oldest = some refusal ∧ refusalsMax ≤ replicas.byRef.size ∧
        (∀ other otherRef, (other, otherRef) ∈ replicas.order → refusal.seq ≤ other) ∧
        room = { replicas with
          byRef := replicas.byRef.remove oldest, order := replicas.order.remove refusal.seq } := by
  have atMost := sound.atMost
  have ascending := replicas.order.ascending
  have isOrder : ∀ pair, pair ∈ replicas.order ↔ pair ∈ replicas.order.pairs := fun _ => Iff.rfl
  generalize replicas.order.pairs = pairs at ascending isOrder
  cases pairs with
  | nil =>
    refine .inl ⟨rfl, ?_⟩
    have none : replicas.byRef.size ≤ recorded.length - recorded.length :=
      sound.size_le fun other otherRef member => nomatch (isOrder _).1 member
    unfold refusalsMax
    omega
  | cons first later =>
    obtain ⟨seq, oldest⟩ := first
    obtain ⟨refusal, found, rfl⟩ := (sound.inverse seq oldest).1 ((isOrder _).2 List.mem_cons_self)
    have size := size_remove found
    unfold RefusedReplicas.evict
    split
    · rename_i full
      refine .inr ⟨oldest, refusal, found, full, ?_, ?_⟩
      · intro other otherRef member
        cases (isOrder _).1 member with
        | head => exact le_rfl
        | tail _ inLater => exact (List.rel_of_pairwise_cons ascending inLater).le
      · cases later with
        | nil => rfl
        | cons => exact if_neg (by simp only; omega)
    · rename_i room
      exact .inl ⟨rfl, Nat.lt_of_not_le room⟩

theorem Sound.refuse (absent : replicas.byRef.get callRef = none) (room : replicas.byRef.size < refusalsMax)
    (isSeq : refusal.seq = replicas.nextSeq) :
    Sound ⟨replicas.byRef.insert callRef refusal, replicas.order.insert replicas.nextSeq callRef,
      replicas.nextSeq + 1⟩ (recorded ++ [callRef]) where
  inverse seq other := by
    have fresh : (seq, other) ∈ replicas.order → seq ≠ replicas.nextSeq := fun member =>
      (sound.next ▸ (List.getElem?_eq_some_iff.1 (sound.numbered seq other member)).1).ne
    rw [SortedMap.mem_insert, KeyMap.get_insert]
    by_cases same : other = callRef
    · subst same
      have notOld : ¬ (seq, other) ∈ replicas.order := by
        rw [sound.inverse, absent]
        rintro ⟨_, ⟨⟩, _⟩
      simp [notOld, isSeq, eq_comm]
    · rw [if_neg same, ← sound.inverse]
      refine ⟨fun kept => ?_, fun kept => .inr ⟨kept, fresh kept⟩⟩
      obtain isNew | old := kept
      · exact absurd (Prod.mk.inj isNew).2 same
      · exact old.1
  numbered seq other member := by
    obtain isNew | ⟨old, -⟩ := (SortedMap.mem_insert _ _ _ _).1 member
    · cases isNew
      rw [sound.next, List.getElem?_append_right le_rfl, Nat.sub_self]
      rfl
    · have isOld := sound.numbered seq other old
      rw [List.getElem?_append_left (List.getElem?_eq_some_iff.1 isOld).1]
      exact isOld
  next := by rw [List.length_append, sound.next, List.length_singleton]
  atMost := by
    have shorter : (replicas.byRef.keys.erase callRef).length ≤ replicas.byRef.size := List.length_erase_le
    simp only [KeyMap.size, KeyMap.insert, AList.keys_insert, List.length_cons]
    omega

end

theorem get_clear (replicas : RefusedReplicas) (callRef other : String) :
    (replicas.clear callRef).byRef.get other = if other = callRef then none else replicas.byRef.get other := by
  unfold RefusedReplicas.clear
  split
  · rename_i absent
    split
    · rename_i same
      exact same ▸ absent
    · rfl
  · exact KeyMap.get_remove ..

/-- What one more refusal leaves: it is recorded under the next number, the bound holds, and a refusal of
    another call is kept as it was, or goes as the oldest, when as many as the bound allows were recorded
    after it. -/
theorem Sound.refused (sound : Sound replicas recorded) (callRef : String) (incarnation : Option String)
    (primary : String) (nowMs : ℤ) :
    let after := replicas.refuse callRef incarnation primary nowMs
    Sound after (recorded ++ [callRef]) ∧
      after.byRef.get callRef = some ⟨incarnation, primary, nowMs + refusalTtlMs, recorded.length⟩ ∧
      ∀ other refusal, other ≠ callRef → replicas.byRef.get other = some refusal →
        after.byRef.get other = some refusal ∨ after.byRef.get other = none ∧
          refusal.seq + 1 + refusalsMax ≤ (recorded ++ [callRef]).length ∧
          ∀ kept keptRefusal, after.byRef.get kept = some keptRefusal → refusal.seq < keptRefusal.seq := by
  have cleared := sound.clear callRef
  have absent : (replicas.clear callRef).byRef.get callRef = none := (get_clear ..).trans (if_pos rfl)
  have stored : ∀ other, other ≠ callRef → (replicas.clear callRef).byRef.get other = replicas.byRef.get other :=
    fun other apart => (get_clear ..).trans (if_neg apart)
  unfold RefusedReplicas.refuse
  generalize replicas.clear callRef = before at cleared absent stored
  obtain ⟨same, room⟩ | ⟨oldest, evicted, isOldest, full, first, isRoom⟩ := cleared.evict
  · simp only [same]
    refine ⟨cleared.refuse absent room rfl, by simp [cleared.next], fun other refusal apart found => .inl ?_⟩
    rw [KeyMap.get_insert, if_neg apart, stored other apart, found]
  · simp only [isRoom]
    have size := size_remove isOldest
    have atMost := cleared.atMost
    have count := cleared.size_le first
    have entry := (cleared.inverse evicted.seq oldest).2 ⟨evicted, isOldest, rfl⟩
    have below := (List.getElem?_eq_some_iff.1 (cleared.numbered _ _ entry)).1
    refine ⟨(cleared.removed isOldest).refuse ?_ (by simp only; omega) rfl, by simp [cleared.next],
      fun other refusal apart found => ?_⟩
    · rw [KeyMap.get_remove, absent, ite_self]
    rw [KeyMap.get_insert, if_neg apart, KeyMap.get_remove, stored other apart, found]
    split
    · rename_i isGone
      subst isGone
      cases (stored other apart).symm.trans isOldest |>.symm.trans found
      refine .inr ⟨rfl, by rw [List.length_append, List.length_singleton]; omega, fun kept keptRefusal isKept => ?_⟩
      rcases KeyMap.of_get_insert isKept with ⟨-, rfl⟩ | ⟨-, isKept⟩
      · exact cleared.next ▸ below
      obtain ⟨differ, isKept⟩ := KeyMap.of_get_remove isKept
      have keptEntry := (cleared.inverse keptRefusal.seq kept).2 ⟨keptRefusal, isKept, rfl⟩
      refine lt_of_le_of_ne (first _ _ keptEntry) fun equal => differ ?_
      exact SortedMap.value_unique (equal ▸ keptEntry) entry
    · exact .inl rfl

/-- Clearing other calls leaves a call's refusal. -/
theorem get_clearEach {gone : List String} (spared : callRef ∉ gone) :
    (gone.foldl RefusedReplicas.clear replicas).byRef.get callRef = replicas.byRef.get callRef := by
  induction gone generalizing replicas with
  | nil => rfl
  | cons first gone ih =>
    obtain ⟨apart, spared⟩ := not_or.1 (List.mem_cons.not.1 spared)
    rw [List.foldl_cons, ih spared, get_clear, if_neg apart]

section

variable {refusing : Refusing} (sound : Sound refusing.replicas refusing.recorded)

include sound

theorem Sound.step (call : RefusalCall) :
    Sound (refusing.step call).replicas (refusing.step call).recorded := by
  cases call with
  | refuse callRef incarnation primary nowMs => exact (sound.refused callRef incarnation primary nowMs).1
  | refuses => exact sound
  | clear callRef => exact sound.clear callRef
  | clearPrimary | reap => exact sound.clearEach _

/-- A refusal stays under every call that does not end it, as long as there is room for one more. -/
theorem Sound.stays_step (found : refusing.replicas.byRef.get callRef = some refusal) {call : RefusalCall}
    (spared : ¬ call.Ends callRef refusal.primary refusal.expiryAtMs)
    (recent : refusing.recorded.length + [call].countP RefusalCall.isRefuse < refusal.seq + 1 + refusalsMax) :
    (refusing.step call).replicas.byRef.get callRef = some refusal := by
  cases call with
  | refuse other incarnation primary nowMs =>
    have room : refusing.recorded.length + 1 < refusal.seq + 1 + refusalsMax := recent
    obtain kept | ⟨-, gone, -⟩ :=
      (sound.refused other incarnation primary nowMs).2.2 callRef refusal (fun same => spared same.symm) found
    · exact kept
    · rw [List.length_append, List.length_singleton] at gone
      omega
  | refuses => exact found
  | clear other => exact ((get_clear ..).trans (if_neg fun same => spared same.symm)).trans found
  | clearPrimary | reap =>
    refine (get_clearEach fun gone => ?_).trans found
    have isGone := (List.mem_filter.1 gone).2
    rw [found, Option.any_some, decide_eq_true_eq] at isGone
    exact spared isGone

theorem Sound.run (calls : List RefusalCall) :
    Sound (calls.foldl Refusing.step refusing).replicas (calls.foldl Refusing.step refusing).recorded := by
  induction calls generalizing refusing with
  | nil => exact sound
  | cons call calls ih => exact ih (sound.step call)

theorem Sound.stays {later : List RefusalCall} (found : refusing.replicas.byRef.get callRef = some refusal)
    (spared : ∀ call ∈ later, ¬ call.Ends callRef refusal.primary refusal.expiryAtMs)
    (recent : refusing.recorded.length + later.countP RefusalCall.isRefuse < refusal.seq + 1 + refusalsMax) :
    (later.foldl Refusing.step refusing).replicas.byRef.get callRef = some refusal := by
  induction later generalizing refusing with
  | nil => exact found
  | cons call later ih =>
    have counts : (call :: later).countP RefusalCall.isRefuse =
        [call].countP RefusalCall.isRefuse + later.countP RefusalCall.isRefuse := by
      rw [← List.countP_append, List.singleton_append]
    have grown : (refusing.step call).recorded.length =
        refusing.recorded.length + [call].countP RefusalCall.isRefuse := by
      cases call <;> simp [Refusing.step, RefusalCall.isRefuse]
    refine ih (sound.step call) (sound.stays_step found (spared call List.mem_cons_self) (by omega)) ?_ (by omega)
    exact fun other member => spared other (List.mem_cons_of_mem _ member)

end

end Refusing

/-- Over every sequence of refusals, queries and clearings: the map by call and the order are inverse, with
    each refusal at its number among those recorded; at most `REFUSALS_MAX` are remembered; one more refusal
    makes the backup forget another call's refusal only when that many were recorded after it and every one
    kept is later; and a refusal is recorded and answered so until a call ends it or that many later ones are
    recorded. -/
theorem refused_replicas_in_order (calls : List RefusalCall) :
    let refusing := calls.foldl Refusing.step ⟨.new, []⟩
    Refusing.Sound refusing.replicas refusing.recorded ∧
      (∀ callRef incarnation primary nowMs other refusal, other ≠ callRef →
        refusing.replicas.byRef.get other = some refusal →
        let after := refusing.step (.refuse callRef incarnation primary nowMs)
        after.replicas.byRef.get other = none →
          refusal.seq + 1 + refusalsMax ≤ after.recorded.length ∧
            ∀ kept keptRefusal, after.replicas.byRef.get kept = some keptRefusal → refusal.seq < keptRefusal.seq) ∧
      ∀ callRef incarnation primary nowMs (later : List RefusalCall),
        (∀ call ∈ later, ¬ RefusalCall.Ends callRef primary (nowMs + refusalTtlMs) call) →
        later.countP RefusalCall.isRefuse < refusalsMax →
        let after := later.foldl Refusing.step (refusing.step (.refuse callRef incarnation primary nowMs))
        after.replicas.byRef.get callRef =
            some ⟨incarnation, primary, nowMs + refusalTtlMs, refusing.recorded.length⟩ ∧
          ∀ other, after.replicas.refuses callRef other =
            (other.isNone || incarnation.isNone || decide (incarnation = other)) := by
  have sound : Refusing.Sound RefusedReplicas.new [] :=
    ⟨by simp [RefusedReplicas.new], by simp [RefusedReplicas.new], rfl, Nat.zero_le _⟩
  have reached := @Refusing.Sound.run ⟨.new, []⟩ sound calls
  refine ⟨reached, fun callRef incarnation primary nowMs other refusal apart found gone => ?_,
    fun callRef incarnation primary nowMs later spared few => ?_⟩
  · obtain kept | ⟨-, forgotten⟩ :=
      (reached.refused callRef incarnation primary nowMs).2.2 other refusal apart found
    · cases kept.symm.trans gone
    · exact forgotten
  · obtain ⟨next, recorded, -⟩ := reached.refused callRef incarnation primary nowMs
    have stays := @Refusing.Sound.stays _ _
      ((calls.foldl Refusing.step ⟨.new, []⟩).step (.refuse callRef incarnation primary nowMs)) next later recorded
      spared (by simp only [Refusing.step, List.length_append, List.length_singleton]; omega)
    refine ⟨stays, fun other => ?_⟩
    rw [RefusedReplicas.refuses, stays]
    rfl

/-- Another call's refusal, a reap before the lapse and another call's clearing leave the refusal as it
    was. -/
theorem refused_until_lapse :
    let after := [.refuse "d" none "w1" 5, .reap 9000, .clear "d"].foldl Refusing.step
      ((⟨.new, []⟩ : Refusing).step (.refuse "c" (some "i") "w0" 0))
    after.replicas.refuses "c" (some "i") = true ∧ after.replicas.refuses "c" (some "j") = false := by
  have spared : ∀ call ∈ [RefusalCall.refuse "d" none "w1" 5, .reap 9000, .clear "d"],
      ¬ RefusalCall.Ends "c" "w0" (0 + refusalTtlMs) call := by
    simp [RefusalCall.Ends, refusalTtlMs]
  have stays := ((refused_replicas_in_order []).2.2 "c" (some "i") "w0" 0 _ spared (by decide)).2
  exact ⟨(stays (some "i")).trans rfl, (stays (some "j")).trans rfl⟩

end SipServer.Store
