/-
Module: SipServer.Proofs.CallMapsCut
Purpose: What one reconcile pass repairs after operations a panic may have cut between two of their map
  writes.
-/
import SipServer.Proofs.CallMaps

namespace SipServer.Store

open SipServer.Lib

/-- An operation that completes, or that a panic cuts after a number of its map writes. -/
structure Attempt (Data : Type) where
  operation : Operation Data
  made : Option ℕ

namespace Inner

variable {Data : Type} {inner after : Inner Data} {order : List String} {callRef : String}

/-! ### The walk -/

/-- What the walk over the resident calls keeps: no entry of another call, and those it met stamped and
    indexed. -/
structure Walked (base : Inner Data) (met : List String) (state : Inner Data) : Prop where
  calls : state.calls = base.calls
  topologies : state.topologies = base.topologies
  takeover : state.takeover = base.takeover
  uncounted : state.uncounted = base.uncounted
  touched : ∀ callRef, (state.touched.get callRef).isSome → base.resident callRef
  indexed : ∀ callRef, (state.indexed.get callRef).isSome → base.resident callRef
  routes : ∀ key callRef, state.sipIndex.get key = some callRef → base.resident callRef
  stamped : ∀ callRef ∈ met, base.resident callRef → (state.touched.get callRef).isSome
  listed : ∀ callRef ∈ met, base.resident callRef → (state.indexed.get callRef).isSome

/-- Keys no call holds go to the call. -/
theorem mem_of_orInsert {keys : List String} {index : KeyMap String String} {key owner : String}
    (found : (keys.foldl (fun index key => if (index.get key).isSome then index
      else index.insert key callRef) index).get key =
      some owner) : owner = callRef ∨ index.get key = some owner := by
  induction keys generalizing index with
  | nil => exact .inr found
  | cons first keys ih =>
    rw [List.foldl_cons] at found
    obtain isCall | earlier := ih found
    · exact .inl isCall
    split at earlier
    · exact .inr earlier
    rw [KeyMap.get_insert] at earlier
    split at earlier
    · exact .inl (Option.some.inj earlier).symm
    · exact .inr earlier

namespace Walked

variable {base state : Inner Data} {met : List String} {callRef : String}

/-- A resident call met: entries of it may be added. -/
theorem extend (walked : Walked base met state) (resident : base.resident callRef) {touched : KeyMap String ℤ}
    {indexed : KeyMap String (List String)} {sipIndex : KeyMap String String}
    (isTouched : ∀ other, (touched.get other).isSome ↔ (state.touched.get other).isSome ∨ other = callRef)
    (isIndexed : ∀ other, (indexed.get other).isSome ↔ (state.indexed.get other).isSome ∨ other = callRef)
    (routes : ∀ key owner, sipIndex.get key = some owner → owner = callRef ∨ state.sipIndex.get key = some owner) :
    Walked base (callRef :: met) { state with touched, indexed, sipIndex } where
  calls := walked.calls
  topologies := walked.topologies
  takeover := walked.takeover
  uncounted := walked.uncounted
  touched other stamped := by
    obtain old | rfl := (isTouched other).1 stamped
    · exact walked.touched other old
    · exact resident
  indexed other listed := by
    obtain old | rfl := (isIndexed other).1 listed
    · exact walked.indexed other old
    · exact resident
  routes key owner found := by
    obtain rfl | old := routes key owner found
    · exact resident
    · exact walked.routes key owner old
  stamped other isMet here := by
    refine (isTouched other).2 ?_
    obtain rfl | earlier := List.mem_cons.1 isMet
    · exact .inr rfl
    · exact .inl (walked.stamped other earlier here)
  listed other isMet here := by
    refine (isIndexed other).2 ?_
    obtain rfl | earlier := List.mem_cons.1 isMet
    · exact .inr rfl
    · exact .inl (walked.listed other earlier here)

/-- A map that holds a key, or to which it is added. -/
theorem isSome_ensured {Value : Type} (entries : KeyMap String Value) (callRef : String) (value : Value)
    (other : String) :
    ((if (entries.get callRef).isSome then entries else entries.insert callRef value).get other).isSome ↔
      (entries.get other).isSome ∨ other = callRef := by
  split
  · rename_i stored
    refine ⟨.inl, ?_⟩
    rintro (here | rfl)
    · exact here
    · exact stored
  · by_cases same : other = callRef <;> simp [same]

theorem readd {state : Inner Data × Reconciled} (walked : Walked base met state.1) (nowMs : ℤ) (callRef : String) :
    Walked base (callRef :: met) (readd nowMs state callRef).1 := by
  obtain ⟨inner, fixed⟩ := state
  unfold Inner.readd
  dsimp only
  cases stored : inner.calls.get callRef with
  | none =>
    have absent : ¬ base.resident callRef := by
      rw [resident, ← walked.calls, stored]
      exact Bool.false_ne_true
    refine { walked with stamped := fun other isMet here => ?_, listed := fun other isMet here => ?_ }
    · obtain rfl | earlier := List.mem_cons.1 isMet
      · exact absurd here absent
      · exact walked.stamped other earlier here
    · obtain rfl | earlier := List.mem_cons.1 isMet
      · exact absurd here absent
      · exact walked.listed other earlier here
  | some call =>
    have resident : base.resident callRef := by
      rw [resident, ← walked.calls, stored]
      rfl
    have touched := isSome_ensured inner.touched callRef nowMs
    have indexed := isSome_ensured inner.indexed callRef (callIndexKeys call)
    have kept (key owner : String) (found : inner.sipIndex.get key = some owner) :
        owner = callRef ∨ inner.sipIndex.get key = some owner := .inr found
    by_cases hasStamp : (inner.touched.get callRef).isSome <;>
      by_cases hasKeys : (inner.indexed.get callRef).isSome <;>
      simp only [hasStamp, hasKeys, if_true, if_false, Bool.false_eq_true] at touched indexed ⊢
    · exact walked.extend resident touched indexed kept
    · exact walked.extend resident touched indexed fun key owner => mem_of_orInsert
    · exact walked.extend resident touched indexed kept
    · exact walked.extend resident touched indexed fun key owner => mem_of_orInsert

theorem walk (walked : Walked base met state) (fixed : Reconciled) (nowMs : ℤ) (order : List String) :
    Walked base (order.reverse ++ met) (order.foldl (Inner.readd nowMs) (state, fixed)).1 := by
  induction order generalizing state fixed met with
  | nil => exact walked
  | cons callRef order ih =>
    rw [List.reverse_cons, List.append_assoc]
    exact ih (@readd _ _ _ (state, fixed) walked nowMs callRef) _

end Walked

/-- What a pass is for: the maps agree, up to which keys a call's list holds. -/
structure Repaired (inner : Inner Data) : Prop where
  touched : ∀ callRef, (inner.touched.get callRef).isSome ↔ (inner.calls.get callRef).isSome
  indexed : ∀ callRef, (inner.indexed.get callRef).isSome ↔ (inner.calls.get callRef).isSome
  topologies : ∀ callRef, (inner.topologies.get callRef).isSome → (inner.calls.get callRef).isSome
  takeover : ∀ callRef ∈ inner.takeover, (inner.calls.get callRef).isSome
  routes : ∀ key callRef, inner.sipIndex.get key = some callRef → (inner.calls.get callRef).isSome
  uncounted : inner.uncounted = inner.calls.total fun call => if call.runsUncounted then 1 else 0

/-- What is retained is resident. -/
theorem resident_of_retain {Value : Type} {entries : KeyMap String Value}
    (stored : ((inner.retain entries).get callRef).isSome) : inner.resident callRef := by
  rw [retain, KeyMap.get_filterMap] at stored
  obtain ⟨value, found⟩ := Option.isSome_iff_exists.1 stored
  obtain ⟨held, _, isKept⟩ := Option.bind_eq_some_iff.1 found
  split at isKept
  · assumption
  · cases isKept

/-- The walk mends every map but the tally, whatever it finds. -/
theorem repaired_reconcileInner {nowMs : ℤ} (complete : ∀ callRef, (inner.calls.get callRef).isSome → callRef ∈ order)
    (marks : ∀ callRef ∈ inner.takeover, (inner.calls.get callRef).isSome) (counted : inner.uncounted = inner.tally) :
    (inner.reconcileInner nowMs order).1.Repaired := by
  have start : Walked inner.retained [] inner.retained := by
    refine
      { calls := rfl, topologies := rfl, takeover := rfl, uncounted := rfl
        touched := fun callRef stamped => resident_of_retain stamped
        indexed := fun callRef listed => resident_of_retain listed
        routes := fun key owner found => ?_
        stamped := List.forall_mem_nil _
        listed := List.forall_mem_nil _ }
    change inner.retainKeys.get key = some owner at found
    rw [retainKeys, KeyMap.get_filterMap] at found
    obtain ⟨held, _, isKept⟩ := Option.bind_eq_some_iff.1 found
    split at isKept
    · cases isKept
      assumption
    · cases isKept
  unfold reconcileInner
  dsimp only
  generalize (Reconciled.mk _ _ _ _ _ _) = fixed
  have walked := start.walk fixed nowMs order
  generalize (order.foldl (readd nowMs) (inner.retained, fixed)).1 = final at walked
  have met {callRef : String} (resident : (inner.calls.get callRef).isSome) : callRef ∈ order.reverse ++ [] := by
    simpa using complete callRef resident
  have calls : final.calls = inner.calls := walked.calls
  refine
    { touched := fun callRef => ⟨fun stamped => ?_, fun resident => ?_⟩
      indexed := fun callRef => ⟨fun listed => ?_, fun resident => ?_⟩
      topologies := fun callRef placed => ?_
      takeover := fun callRef marked => ?_
      routes := fun key callRef found => ?_
      uncounted := ?_ }
  · exact calls ▸ walked.touched callRef stamped
  · rw [calls] at resident
    exact walked.stamped callRef (met resident) resident
  · exact calls ▸ walked.indexed callRef listed
  · rw [calls] at resident
    exact walked.listed callRef (met resident) resident
  · rw [walked.topologies] at placed
    exact calls ▸ resident_of_retain placed
  · rw [walked.takeover] at marked
    exact calls ▸ marks callRef marked
  · exact calls ▸ walked.routes key callRef found
  · rw [walked.uncounted, calls]
    exact counted.trans inner.tally_eq

/-- One pass over maps that cover the call map repairs them. -/
theorem repaired_reconcile (covered : inner.Covered) {nowMs : ℤ}
    (complete : ∀ callRef, (inner.calls.get callRef).isSome → callRef ∈ order) :
    (inner.reconcile nowMs order).1.Repaired := by
  have marks : ∀ callRef ∈ inner.takeover.filter (inner.resident ·), (inner.calls.get callRef).isSome :=
    fun callRef member => (Finset.mem_filter.1 member).2
  unfold reconcile
  dsimp only
  split
  · rename_i sizes
    have touched (callRef : String) (stamped : (inner.touched.get callRef).isSome) :
      (inner.calls.get callRef).isSome :=
      KeyMap.isSome_of_size_le covered.stamped sizes.1.le stamped
    have indexed (callRef : String) (listed : (inner.indexed.get callRef).isSome) :
      (inner.calls.get callRef).isSome :=
      KeyMap.isSome_of_size_le covered.listed sizes.2.le listed
    refine
      { touched := fun callRef => ⟨touched callRef, covered.stamped callRef⟩
        indexed := fun callRef => ⟨indexed callRef, covered.listed callRef⟩
        topologies := fun callRef placed => touched callRef (covered.placed callRef placed)
        takeover := marks
        routes := fun key callRef found => ?_
        uncounted := covered.counted.trans inner.tally_eq }
    obtain ⟨keys, listed, _⟩ := covered.routed key callRef found
    exact indexed callRef (listed ▸ rfl)
  · exact repaired_reconcileInner complete marks covered.counted

/-! ### Cuts -/

variable [DecidableEq Data]

def attempt (selfOrdinal : String) (inner : Inner Data) (attempt : Attempt Data) : Option (Inner Data) :=
  match attempt.made with
  | none => some (inner.perform selfOrdinal attempt.operation)
  | some made => some (inner.cut selfOrdinal attempt.operation made)

/-- A cut leaves the writes of the routing index that an operation makes done or not begun, and does not part
    the write of the call map from the move of the tally it owes. -/
def CutBetween (selfOrdinal : String) (inner : Inner Data) (attempt : Attempt Data) : Prop :=
  ∀ made, attempt.made = some made → ∃ whole, (inner.writes selfOrdinal attempt.operation).take made =
    ((inner.blocks selfOrdinal attempt.operation).take whole).flatten

theorem Covered.attempt (covered : inner.Covered) {selfOrdinal : String} {attempt : Attempt Data}
    (between : inner.CutBetween selfOrdinal attempt) (attempted : inner.attempt selfOrdinal attempt = some after) :
    after.Covered := by
  obtain ⟨operation, made⟩ := attempt
  cases made with
  | none =>
    cases attempted
    exact covered.perform selfOrdinal operation
  | some made =>
    cases attempted
    obtain ⟨whole, isWhole⟩ := between made rfl
    unfold cut
    rw [isWhole]
    exact (covered.through selfOrdinal operation).take whole

/-- From maps that agree, through any operations, each complete or cut between blocks: one reconcile pass
    repairs them. -/
theorem reconcile_repairs {selfOrdinal : String} {start final : Inner Data} {attempts : List (Attempt Data)}
    {nowMs : ℤ} {order : List String} (agrees : start.Agrees)
    (between : AllSteps (attempt selfOrdinal) (CutBetween selfOrdinal) start attempts)
    (ran : run (attempt selfOrdinal) start attempts = some final)
    (complete : ∀ callRef, (final.calls.get callRef).isSome → callRef ∈ order) :
    (final.reconcile nowMs order).1.Repaired := by
  refine repaired_reconcile ?_ complete
  refine run_invariant_of_steps Covered ?_ between ran (agrees_iff.1 agrees).1
  exact fun state attempt next covered between attempted => covered.attempt between attempted

/-- A create cut after its stamp, one that completes, and a drop cut after the keys. -/
def cutBetweenBlocks : List (Attempt Unit) :=
  [⟨.create (uncountedCall "one") none 0, some 3⟩, ⟨.create (uncountedCall "two") none 1, none⟩,
    ⟨.dropLocal "two", some 5⟩]

theorem reconcile_repairs_cut_create_and_drop :
    ∃ final, run (attempt "w1") .new cutBetweenBlocks = some final ∧ final.touched.size = 2 ∧
      (final.reconcile 9 []).1.Repaired := by
  refine ⟨_, rfl, rfl, ?_⟩
  refine @reconcile_repairs _ _ "w1" .new _ cutBetweenBlocks 9 [] agrees_new ?_ rfl ?_
  · refine .cons ?_ rfl (.cons ?_ rfl (.cons ?_ rfl trivial))
    · rintro made ⟨⟩
      exact ⟨2, rfl⟩
    · exact nofun
    · rintro made ⟨⟩
      exact ⟨2, rfl⟩
  · intro callRef resident
    cases resident

/-- A create cut before the call is put leaves its tally, and one cut after its first key leaves that key. -/
theorem reconcile_misses_cut_create :
    (∃ final : Inner Unit, run (attempt "w1") .new [⟨.create (uncountedCall "one") none 0, some 5⟩] = some final ∧
      (final.reconcile 9 []).1.calls.size = 0 ∧ (final.reconcile 9 []).1.uncounted = 1 ∧
      ¬(final.reconcile 9 []).1.Repaired) ∧
    ∃ final : Inner Unit, run (attempt "w1") .new [⟨.create (uncountedCall "one") none 0, some 1⟩] = some final ∧
      (final.reconcile 9 []).1.sipIndex.get "a:id|tag" = some "one" ∧
      (final.reconcile 9 []).1.calls.get "one" = none ∧ ¬(final.reconcile 9 []).1.Repaired := by
  refine ⟨⟨_, rfl, rfl, rfl, fun repaired => ?_⟩, _, rfl, rfl, rfl, fun repaired => ?_⟩
  · cases repaired.uncounted
  · cases repaired.routes "a:id|tag" "one" rfl

end Inner

end SipServer.Store
