/-
Module: SipServer.Proofs.IndexKey
Purpose: A key of the routing index names the side of the B2BUA and the identity it was written for, a call
  owns it exactly when it holds the leg, and a call reference is read back as it was derived.
-/
import SipServer.Call.IndexKey

namespace SipServer.Index

theorem splitOnce_append {separator : Char} {before : Text} (free : separator ∉ before) (after : Text) :
    splitOnce separator (before ++ separator :: after) = some (before, after) := by
  induction before with
  | nil => simp [splitOnce]
  | cons char rest ih =>
    obtain ⟨differ, freeRest⟩ := not_or.1 (List.mem_cons.not.1 free)
    simp [splitOnce, Ne.symm differ, ih freeRest]

theorem of_splitOnce {separator : Char} {text before after : Text}
    (split : splitOnce separator text = some (before, after)) : text = before ++ separator :: after := by
  induction text generalizing before with
  | nil => cases split
  | cons char rest ih =>
    unfold splitOnce at split
    split at split
    · rename_i isSeparator
      cases split
      rw [isSeparator]
      rfl
    · obtain ⟨⟨front, back⟩, isSplit, same⟩ := Option.map_eq_some_iff.1 split
      cases same
      rw [ih isSplit]
      rfl

theorem not_mem_of_splitOnce {separator : Char} {text before after : Text}
    (split : splitOnce separator text = some (before, after)) : separator ∉ before := by
  intro holds
  obtain ⟨front, back, rfl, free⟩ := List.eq_append_cons_of_mem holds
  rw [of_splitOnce split, List.append_assoc, List.cons_append, splitOnce_append free] at split
  simp at split

/-- No bar in the text. -/
def BarFree (text : Text) : Prop := '|' ∉ text

instance (text : Text) : Decidable (BarFree text) := inferInstanceAs (Decidable ('|' ∉ text))

/-- A bar is no word character, so no Call-ID the parser accepts holds one. -/
theorem BarFree.of_isCallId {value : Text} (accepted : isCallId value = true) : BarFree value := by
  have word {text : Text} (isWord : (!text.isEmpty && text.all isWordChar) = true) : '|' ∉ text := by
    intro holds
    have isChar := List.all_eq_true.1 (Bool.and_eq_true_iff.1 isWord).2 _ holds
    revert isChar
    decide
  unfold isCallId at accepted
  split at accepted
  · rename_i name host split
    obtain ⟨isName, isHost⟩ := Bool.and_eq_true_iff.1 accepted
    rw [of_splitOnce split]
    simp [BarFree, word isName, word isHost]
  · exact word accepted

/-- What a kind's key keeps of an identity. -/
def KeyKind.uses (kind : KeyKind) (identity : Text × Text) : Text × Option Text :=
  (identity.1, if kind = .bLeg then none else some identity.2)

/-- Two keys are the same text only when kind and identity are the same. -/
theorem writeKey_eq_iff {kind kind' : KeyKind} {callId callId' tag tag' : Text} (free : BarFree callId)
    (free' : BarFree callId') :
    writeKey kind callId tag = writeKey kind' callId' tag' ↔
      kind = kind' ∧ kind.uses (callId, tag) = kind'.uses (callId', tag') := by
  have tagged : callId ++ '|' :: tag = callId' ++ '|' :: tag' ↔ callId = callId' ∧ tag = tag' := by
    refine ⟨fun same => ?_, fun ⟨same, sameTag⟩ => same ▸ sameTag ▸ rfl⟩
    have split := splitOnce_append free tag
    rw [same, splitOnce_append free' tag'] at split
    cases split
    exact ⟨rfl, rfl⟩
  -- what stands before a tag holds no bar, so a key without one is no key with one
  have bare : callId ≠ callId' ++ '|' :: tag' := by
    rintro rfl
    exact free (List.mem_append_right _ List.mem_cons_self)
  have bare' : callId ++ '|' :: tag ≠ callId' := by
    rintro rfl
    exact free' (List.mem_append_right _ List.mem_cons_self)
  cases kind <;> cases kind' <;> simp [writeKey, KeyKind.uses, tagged, bare, bare']

theorem writeKey_ne_callbackKey {kind : KeyKind} {callId tag context : Text} :
    writeKey kind callId tag ≠ callbackKey context := by
  cases kind <;> simp [writeKey, callbackKey]

/-- No Call-ID of the call holds a bar. -/
structure Call.BarFree (call : Call) : Prop where
  aLeg : Index.BarFree call.aLeg.callId
  bLegs : ∀ leg ∈ call.bLegs, Index.BarFree leg.callId

theorem mem_callIndexKeys {call : Call} {key : Text} :
    key ∈ callIndexKeys call ↔ key = writeKey .aLeg call.aLeg.callId call.fromTag ∨
      (∃ leg ∈ call.bLegs, (∃ ourTag, leg.outboundInvite = some ourTag ∧ writeKey .bLocal leg.callId ourTag = key) ∨
        key = writeKey .bLeg leg.callId [] ∨
        ∃ dialog, (dialog ∈ leg.dialogs ∧ dialog.peerTag ≠ []) ∧ writeKey .bDialog leg.callId dialog.peerTag = key) ∨
      ∃ context, call.callbackContext = some context ∧ callbackKey context = key := by
  simp [callIndexKeys]

/-- What a call holds where a lookup of a kind finds a leg of it. -/
theorem owningLeg_isSome {lookup : IndexLookup} {kind : KeyKind} {call : Call} :
    (lookup.owningLeg kind call).isSome = true ↔
      match kind with
      | .aLeg => call.aLeg.callId = lookup.identity.1 ∧ call.fromTag = lookup.identity.2
      | .bDialog => ∃ leg ∈ call.bLegs, leg.callId = lookup.identity.1 ∧
          ∃ dialog ∈ leg.dialogs, dialog.peerTag = lookup.identity.2
      | .bLeg => ∃ leg ∈ call.bLegs, leg.callId = lookup.identity.1
      | .bLocal => False := by
  cases kind <;> simp [IndexLookup.owningLeg, List.find?_isSome]

/-- A call owns a lookup's key exactly when it holds the leg the key stands for. -/
theorem key_mem_callIndexKeys {call : Call} (free : call.BarFree) {lookup : IndexLookup} {kind : KeyKind}
    (freeId : BarFree lookup.identity.1) (tagged : lookup.identity.2 ≠ []) (resolves : kind ≠ .bLocal) :
    lookup.key kind ∈ callIndexKeys call ↔ (lookup.owningLeg kind call).isSome = true := by
  rw [mem_callIndexKeys, owningLeg_isSome]
  constructor
  · rintro (same | ⟨leg, member, ⟨_, _, same⟩ | same | ⟨dialog, ⟨among, _⟩, same⟩⟩ | ⟨_, _, same⟩)
    · obtain ⟨rfl, same⟩ := (writeKey_eq_iff freeId free.aLeg).1 same
      simp only [KeyKind.uses, Prod.mk.injEq] at same
      exact ⟨same.1.symm, (Option.some.inj same.2).symm⟩
    · exact absurd ((writeKey_eq_iff freeId (free.bLegs leg member)).1 same.symm).1 resolves
    · obtain ⟨rfl, same⟩ := (writeKey_eq_iff freeId (free.bLegs leg member)).1 same
      exact ⟨leg, member, (Prod.mk.inj same).1.symm⟩
    · obtain ⟨rfl, same⟩ := (writeKey_eq_iff freeId (free.bLegs leg member)).1 same.symm
      simp only [KeyKind.uses, Prod.mk.injEq] at same
      exact ⟨leg, member, same.1.symm, dialog, among, (Option.some.inj same.2).symm⟩
    · exact absurd same.symm writeKey_ne_callbackKey
  · intro holds
    cases kind with
    | aLeg => exact .inl (by rw [IndexLookup.key, holds.1, holds.2])
    | bDialog =>
      obtain ⟨leg, member, isId, dialog, among, isTag⟩ := holds
      refine .inr (.inl ⟨leg, member, .inr (.inr ⟨dialog, ⟨among, isTag ▸ tagged⟩, ?_⟩)⟩)
      rw [IndexLookup.key, isId, isTag]
    | bLeg =>
      obtain ⟨leg, member, isId⟩ := holds
      exact .inr (.inl ⟨leg, member, .inr (.inl (by rw [IndexLookup.key, isId]; rfl))⟩)
    | bLocal => exact absurd rfl resolves

/-- A call reference is read back as it was derived from parts that are not empty. -/
theorem parseCallRef_deriveCallRef {ordinal callId tag : Text} (freeOrdinal : BarFree ordinal)
    (freeId : BarFree callId) (filled : ordinal ≠ [] ∧ callId ≠ [] ∧ tag ≠ []) :
    parseCallRef (deriveCallRef ordinal callId tag) = some ⟨ordinal, callId, tag⟩ := by
  simp [parseCallRef, deriveCallRef, splitOnce_append freeOrdinal, splitOnce_append freeId, filled]

/-- An index key names its owner, and a call reference its parts. -/
theorem routing_key_names_owner :
    (∀ call : Call, call.BarFree → ∀ (lookup : IndexLookup) (kind : KeyKind), BarFree lookup.identity.1 →
      lookup.identity.2 ≠ [] → kind ≠ .bLocal →
        (lookup.key kind ∈ callIndexKeys call ↔ (lookup.owningLeg kind call).isSome = true)) ∧
    (∀ (one other : IndexLookup) (kind kind' : KeyKind), BarFree one.identity.1 → BarFree other.identity.1 →
      one.key kind = other.key kind' → kind = kind' ∧ kind.uses one.identity = kind'.uses other.identity) ∧
    (∀ (lookup : IndexLookup) (kind : KeyKind), BarFree lookup.identity.1 → kind ≠ .bLocal →
      (∀ context, lookup.key kind ≠ callbackKey context) ∧
        ∀ callId ourTag, BarFree callId → lookup.key kind ≠ writeKey .bLocal callId ourTag) ∧
    ∀ ordinal callId tag, BarFree ordinal → BarFree callId → ordinal ≠ [] → callId ≠ [] → tag ≠ [] →
      parseCallRef (deriveCallRef ordinal callId tag) = some ⟨ordinal, callId, tag⟩ := by
  refine ⟨fun call free lookup kind => key_mem_callIndexKeys free, fun one other kind kind' free free' same => ?_,
    fun lookup kind free resolves => ⟨fun context => writeKey_ne_callbackKey, fun callId ourTag free' same => ?_⟩,
    fun ordinal callId tag freeOrdinal freeId isOrdinal isCallId isTag => ?_⟩
  · exact (writeKey_eq_iff free free').1 same
  · exact resolves ((writeKey_eq_iff free free').1 same).1
  · exact parseCallRef_deriveCallRef freeOrdinal freeId ⟨isOrdinal, isCallId, isTag⟩

/-- A call with one outgoing leg, ringing under one tag. -/
def ringingCall : Call :=
  ⟨⟨['a'], ['c'], none, []⟩, ['f'], [⟨['b'], ['d'], some ['t'], [⟨['p']⟩]⟩], none⟩

/-- A response from the ringing party is found under its dialog, and the call's reference reads back. -/
theorem ringing_party_names_call :
    ((IndexLookup.peer ['d'] ['p']).key .bDialog ∈ callIndexKeys ringingCall ∧
      (IndexLookup.peer ['d'] ['p']).owningLeg .bDialog ringingCall = some ['b']) ∧
      parseCallRef (deriveCallRef ['w', '0'] ['c'] ['f']) = some ⟨['w', '0'], ['c'], ['f']⟩ := by
  obtain ⟨owns, _, _, reads⟩ := routing_key_names_owner
  have free {callId : Text} (accepted : isCallId callId = true) : BarFree callId := .of_isCallId accepted
  refine ⟨⟨(owns ringingCall ⟨free (by decide), ?_⟩ _ .bDialog (free (by decide)) (by decide) (by decide)).2
    rfl, rfl⟩, ?_⟩
  · exact List.forall_mem_singleton.2 (free (by decide))
  · exact reads _ _ _ (by decide) (free (by decide)) (by decide) (by decide) (by decide)

/-- A reference derived from no ordinal is not read back. -/
theorem empty_ordinal_not_read_back : BarFree [] ∧ parseCallRef (deriveCallRef [] ['c'] ['f']) = none := by
  exact ⟨nofun, rfl⟩

/-- A reference is read into its parts exactly when it was derived from them, none is empty, and no bar
    stands in the first two. -/
theorem reads_exactly_derived {reference primary callId tag : Text} :
    parseCallRef reference = some ⟨primary, callId, tag⟩ ↔ reference = deriveCallRef primary callId tag ∧
      BarFree primary ∧ BarFree callId ∧ primary ≠ [] ∧ callId ≠ [] ∧ tag ≠ [] := by
  constructor
  · intro read
    obtain ⟨_, first, read⟩ := Option.bind_eq_some_iff.1 read
    obtain ⟨_, second, read⟩ := Option.bind_eq_some_iff.1 read
    simp only [Bool.or_eq_true, List.isEmpty_iff, Option.ite_none_left_eq_some, not_or] at read
    obtain ⟨⟨⟨named, called⟩, tagged⟩, read⟩ := read
    cases read
    rw [of_splitOnce first, of_splitOnce second]
    exact ⟨rfl, not_mem_of_splitOnce first, not_mem_of_splitOnce second, named, called, tagged⟩
  · rintro ⟨rfl, free, freeId, filled⟩
    exact parseCallRef_deriveCallRef free freeId filled

end SipServer.Index
