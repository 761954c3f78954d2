/-
Module: SipServer.Proofs.LatePrack
Purpose: In every run the book answers a late PRACK exactly when the call of its dialog, as released within
  the window, would have, once.
-/
import SipServer.Router.LatePrack

namespace SipServer.Prack

open SipServer.Lib

variable {key : DialogKey} {rack : Rack} {now : ℕ}

/-- Of entries no two of which meet a condition, a search finds the one that does. -/
theorem find?_eq_some_of_apart {Entry : Type*} {entries : List Entry} {entry : Entry} {meets : Entry → Bool}
    (apart : entries.Pairwise fun one other => meets one → ¬meets other) (member : entry ∈ entries)
    (met : meets entry) : entries.find? meets = some entry := by
  obtain ⟨before, after, rfl⟩ := List.append_of_mem member
  refine List.find?_eq_some_iff_append.2 ⟨met, before, after, rfl, fun one isBefore => ?_⟩
  have earlier : meets one → ¬meets entry := (List.pairwise_append.1 apart).2.2 one isBefore entry List.mem_cons_self
  simpa using fun here => earlier here met

namespace Call

variable {call : Call}

/-- No number is shown twice in a dialog. -/
def Numbered (call : Call) : Prop :=
  call.provisionals.Pairwise fun one other => ∀ shown ∈ one.shown, ∀ later ∈ other.shown,
    shown.tag = later.tag → shown.rack ≠ later.rack

/-- The dialogs and numbers a first PRACK draws 200 for. -/
def answerables (call : Call) : List (DialogKey × Rack) := call.provisionals.filterMap call.answerable

theorem answerable_eq_some {provisional : Provisional} : call.answerable provisional = some (key, rack) ↔ ∃ shown,
    provisional.shown = some shown ∧ (shown.ladder ≠ .acknowledged ∧ call.owedByResponder provisional = .answer200) ∧
      (call.shownCallId shown.tag, shown.tag) = key ∧ shown.rack = rack := by
  cases isShown : provisional.shown <;> simp [answerable, isShown, and_assoc]

/-- A first PRACK draws 200 for what the live call would: numbers are unique in a dialog, so the search finds
    the same provisional. -/
theorem mem_answerables_iff (numbered : call.Numbered) : (key, rack) ∈ call.answerables ↔
    call.shownCallId key.2 = key.1 ∧ call.prackDisposition key.2 rack true none = .answer200 := by
  constructor
  · intro answerable
    obtain ⟨provisional, member, isEntry⟩ := List.mem_filterMap.1 answerable
    obtain ⟨shown, isShown, owed, rfl, rfl⟩ := answerable_eq_some.1 isEntry
    have named : call.namedBy shown.tag shown.rack true = some provisional := by
      refine find?_eq_some_of_apart (numbered.imp fun apart here there => ?_) member (by simp [isShown])
      obtain ⟨one, isOne, sameOne⟩ := (Option.any_eq_true _ _).1 here
      obtain ⟨other, isOther, sameOther⟩ := (Option.any_eq_true _ _).1 there
      simp only [Bool.and_eq_true, decide_eq_true_eq] at sameOne sameOther
      exact apart one isOne other isOther (sameOne.1.trans sameOther.1.symm) (sameOne.2.trans sameOther.2.symm)
    simp [prackDisposition, named, isShown, owed]
  · rintro ⟨callId, answered⟩
    unfold prackDisposition at answered
    cases named : call.namedBy key.2 rack true with
    | none => simp [named] at answered
    | some provisional =>
      have found := List.find?_some named
      obtain ⟨shown, isShown, same⟩ := (Option.any_eq_true _ _).1 found
      simp only [Bool.and_eq_true, decide_eq_true_eq] at same
      simp only [named, isShown, Option.any_some, decide_eq_true_eq] at answered
      split at answered
      · cases answered
      rename_i owed
      exact List.mem_filterMap.2 ⟨provisional, List.mem_of_find?_eq_some named, answerable_eq_some.2
        ⟨shown, isShown, ⟨by simpa using owed, answered⟩, by rw [same.1, callId], same.2⟩⟩

/-- The numbers of one dialog among those. -/
def racksOf (key : DialogKey) (entries : List (DialogKey × Rack)) : List Rack :=
  entries.filterMap fun entry => if entry.1 = key then some entry.2 else none

theorem mem_racksOf {entries : List (DialogKey × Rack)} : rack ∈ racksOf key entries ↔ (key, rack) ∈ entries := by
  simp [racksOf]

/-- A first PRACK of the dialog may draw 200. -/
def AnswersIn (call : Call) (key : DialogKey) : Prop := racksOf key call.answerables ≠ []

instance : Decidable (call.AnswersIn key) := inferInstanceAs (Decidable (_ ≠ _))

theorem get_grouped (entries : List (DialogKey × Rack)) (out : KeyMap DialogKey (List Rack)) :
    (entries.foldl (fun out entry => out.insert entry.1 ((out.get entry.1).getD [] ++ [entry.2])) out).get key =
      if racksOf key entries = [] then out.get key else some ((out.get key).getD [] ++ racksOf key entries) := by
  induction entries generalizing out with
  | nil => rfl
  | cons entry rest ih =>
    have racks : racksOf key (entry :: rest) = if entry.1 = key then entry.2 :: racksOf key rest
        else racksOf key rest := by
      by_cases same : entry.1 = key <;> simp [racksOf, same]
    rw [List.foldl_cons, ih, KeyMap.get_insert, racks]
    by_cases same : entry.1 = key
    · subst same
      by_cases none_ : racksOf entry.1 rest = [] <;> simp [none_]
    · simp [same, Ne.symm same]

/-- Numbers unique in each dialog are listed once. -/
theorem nodup_racksOf (numbered : call.Numbered) : (racksOf key call.answerables).Nodup := by
  refine List.Nodup.filterMap (fun one other number here there => ?_) (numbered.filterMap _ fun one other apart => ?_)
  · rw [Option.mem_def, Option.ite_none_right_eq_some] at here there
    exact Prod.ext (here.1.trans there.1.symm) (Option.some.inj (here.2.trans there.2.symm))
  · rintro entry here _ there rfl
    obtain ⟨shown, isShown, -, isKey, isRack⟩ := answerable_eq_some.1 here
    obtain ⟨later, isLater, -, sameKey, sameRack⟩ := answerable_eq_some.1 there
    exact apart shown isShown later isLater (congrArg Prod.snd (isKey.trans sameKey.symm))
      (isRack.trans sameRack.symm)

end Call

namespace Book

variable {book : Book}

/-- Every dialog kept has its expiry in the queue, and the queue is in order. -/
structure Queued (book : Book) : Prop where
  sorted : book.expiry.Pairwise fun earlier later => earlier.1 ≤ later.1
  queued : ∀ key value, book.racks.get key = some value → (value.1, key) ∈ book.expiry

/-- Pruning leaves the dialogs whose window is open. -/
theorem prune_spec (kept : book.Queued) : (book.prune now).Queued ∧ (book.prune now).expiry ⊆ book.expiry ∧
    ∀ key, (book.prune now).racks.get key = (book.racks.get key).filter (now < ·.1) := by
  obtain ⟨racks, expiry⟩ := book
  unfold prune
  induction expiry generalizing racks with
  | nil =>
    refine ⟨kept, List.Subset.refl _, fun key => ?_⟩
    cases stored : racks.get key with
    | none => exact stored
    | some value => cases kept.queued key value stored
  | cons entry rest ih =>
    obtain ⟨until_, key⟩ := entry
    obtain ⟨first, sorted⟩ := List.pairwise_cons.1 kept.sorted
    dsimp only at *
    unfold pruneFrom
    split
    · rename_i lapsed
      -- a dialog kept anew under the same key has its own entry further on
      have left : ∀ other, ((if (racks.get key).any (·.1 = until_) then racks.remove key else racks).get other) =
          (racks.get other).filter fun value => (value.1, other) ≠ (until_, key) := by
        intro other
        by_cases same : other = key
        · subst same
          cases stored : racks.get other with
          | none => simp [stored]
          | some value => by_cases here : value.1 = until_ <;> simp [here, stored, Option.filter]
        · split <;> cases stored : racks.get other <;> simp [same, stored, Option.filter]
      obtain ⟨keptRest, within, gets⟩ := ih _ ⟨sorted, fun other value stored => by
        rw [left] at stored
        obtain ⟨stored, apart⟩ := Option.filter_eq_some_iff.1 stored
        exact (List.mem_cons.1 (kept.queued other value stored)).resolve_left (of_decide_eq_true apart)⟩
      refine ⟨keptRest, fun _ member => List.mem_cons_of_mem _ (within member), fun other => ?_⟩
      rw [gets, left, Option.filter_filter]
      refine congrFun (congrArg Option.filter <| funext fun value => ?_) _
      by_cases open_ : now < value.1
      · simp [open_, Nat.ne_of_gt (Nat.lt_of_le_of_lt lapsed open_)]
      · simp [open_]
    · rename_i lasts
      refine ⟨kept, List.Subset.refl _, fun other => ?_⟩
      cases stored : racks.get other with
      | none => simp
      | some value =>
        obtain here | later := List.mem_cons.1 (kept.queued other value stored)
        · cases here
          simp [Option.filter, lasts]
        · simp [Option.filter, Nat.lt_of_lt_of_le (Nat.lt_of_not_le lasts) (first _ later)]

theorem get_insertAll (shown : KeyMap DialogKey (List Rack)) (racks : KeyMap DialogKey (ℕ × List Rack)) (until_ : ℕ) :
    (shown.entries.foldl (fun racks entry => racks.insert entry.1 (until_, entry.2)) racks).get key =
      ((shown.get key).map (until_, ·)).or (racks.get key) := by
  obtain ⟨entries, nodup⟩ := shown
  change _ = ((entries.dlookup key).map (until_, ·)).or _
  induction entries generalizing racks with
  | nil => rfl
  | cons entry rest ih =>
    obtain ⟨shown, numbers⟩ := entry
    obtain ⟨fresh, nodup⟩ := List.nodupKeys_cons.1 nodup
    rw [List.foldl_cons, ih _ nodup, KeyMap.get_insert]
    by_cases same : key = shown
    · subst same
      simp [List.dlookup_eq_none.2 fresh]
    · simp [same]

end Book

/-- The numbers of a dialog the PRACKs answered since the release have left. -/
def Release.left (release : Release) (key : DialogKey) : List Rack :=
  (Call.racksOf key release.call.answerables).filter fun rack => (key, rack) ∉ release.answered

/-- What the newest release with a dialog leaves of it. -/
def newest (releases : List Release) (key : DialogKey) : Option (ℕ × List Rack) :=
  (releases.find? (·.call.AnswersIn key)).map fun release => (release.atMs + windowMs, release.left key)

theorem newest_release {call : Call} {releases : List Release} : newest (⟨call, now, []⟩ :: releases) key =
    ((call.answerableShown.get key).map (now + windowMs, ·)).or (newest releases key) := by
  have shown : call.answerableShown.get key = _ := Call.get_grouped call.answerables ∅
  by_cases none_ : Call.racksOf key call.answerables = [] <;>
    simp [newest, Release.left, shown, Call.AnswersIn, none_]

/-- An answered PRACK takes its numbers off, in its own dialog. -/
theorem newest_answered {releases : List Release} (numbered : ∀ release ∈ releases, release.call.Numbered)
    (other : DialogKey) :
    newest (releases.map fun release => { release with answered := (key, rack) :: release.answered }) other =
      (newest releases other).map fun left => (left.1, if other = key then left.2.erase rack else left.2) := by
  unfold newest
  rw [List.find?_map, Option.map_map, Option.map_map]
  refine Option.map_congr fun release found => ?_
  have nodup := @Call.nodup_racksOf other _ (numbered release (List.mem_of_find?_eq_some found))
  refine Prod.ext rfl ?_
  by_cases same : other = key
  · subst same
    simp [Release.left, (nodup.filter _).erase_eq_filter, List.filter_filter, bne, beq_eq_decide]
  · simp [Release.left, same]

namespace Watch

variable {watch next : Watch}

/-- A released call shows no number twice in a dialog, and answers in no dialog an earlier one does. -/
def Apart (watch : Watch) (event : ℕ × Event) : Prop :=
  match event.2 with
  | .release call =>
    call.Numbered ∧ ∀ release ∈ watch.releases, ∀ key, release.call.AnswersIn key → ¬call.AnswersIn key
  | .prack .. => True

/-- The book is, up to what has lapsed, what the newest releases leave. -/
structure Kept (watch : Watch) : Prop extends watch.book.Queued where
  bounded : ∀ entry ∈ watch.book.expiry, entry.1 ≤ watch.clock + windowMs
  newest : ∀ key, (watch.book.racks.get key).filter (watch.clock < ·.1) =
    (newest watch.releases key).filter (watch.clock < ·.1)
  numbered : ∀ release ∈ watch.releases, release.call.Numbered
  apart : watch.releases.Pairwise fun later earlier => ∀ key, earlier.call.AnswersIn key → ¬later.call.AnswersIn key

theorem Kept.later (kept : watch.Kept) (forward : watch.clock ≤ now) :
    (watch.book.racks.get key).filter (now < ·.1) = (Prack.newest watch.releases key).filter (now < ·.1) := by
  have both (stored : Option (ℕ × List Rack)) : stored.filter (now < ·.1) =
      (stored.filter (watch.clock < ·.1)).filter (now < ·.1) := by
    rw [Option.filter_filter]
    refine congrFun (congrArg Option.filter <| funext fun value => ?_) _
    by_cases open_ : now < value.1 <;> simp [open_, Nat.lt_of_le_of_lt forward]
  rw [both, kept.newest, ← both]

theorem Kept.new : new.Kept where
  sorted := .nil
  queued := nofun
  bounded := nofun
  newest := fun _ => rfl
  numbered := nofun
  apart := .nil

theorem Kept.forward (kept : watch.Kept) (forward : watch.clock ≤ now) : Kept { watch with clock := now } :=
  { kept with
    bounded := fun entry member => (kept.bounded entry member).trans (Nat.add_le_add_right forward _)
    newest := fun _ => kept.later forward }

theorem Kept.pruned (kept : watch.Kept) : Kept { watch with book := watch.book.prune watch.clock } := by
  obtain ⟨queued, within, gets⟩ := @Book.prune_spec watch.clock _ kept.toQueued
  refine
    { queued, kept with
      bounded := fun entry member => kept.bounded entry (within member), newest := fun key => ?_ }
  rw [gets, Option.filter_filter]
  simpa using kept.newest key

theorem Kept.released (kept : watch.Kept) {call : Call} (apart : watch.Apart (watch.clock, .release call)) :
    Kept ⟨⟨call.answerableShown.entries.foldl
      (fun racks entry => racks.insert entry.1 (watch.clock + windowMs, entry.2)) watch.book.racks,
      watch.book.expiry ++ call.answerableShown.keys.map (watch.clock + windowMs, ·)⟩, watch.clock,
      ⟨call, watch.clock, []⟩ :: watch.releases⟩ where
  sorted := by
    refine List.pairwise_append.2 ⟨kept.sorted,
      List.pairwise_map.2 (List.pairwise_of_forall fun _ _ => Nat.le_refl _), ?_⟩
    intro old isOld new isNew
    obtain ⟨key, -, rfl⟩ := List.mem_map.1 isNew
    exact kept.bounded old isOld
  queued key value stored := by
    rw [Book.get_insertAll] at stored
    cases shown : call.answerableShown.get key with
    | none =>
      rw [shown] at stored
      exact List.mem_append_left _ (kept.queued key value stored)
    | some racks =>
      rw [shown] at stored
      cases stored
      exact List.mem_append_right _ (List.mem_map.2 ⟨key, KeyMap.mem_keys_of_get shown, rfl⟩)
  bounded entry member := by
    obtain old | new := List.mem_append.1 member
    · exact kept.bounded entry old
    obtain ⟨key, -, rfl⟩ := List.mem_map.1 new
    exact Nat.le_refl _
  newest key := by
    rw [Book.get_insertAll, newest_release]
    cases call.answerableShown.get key with
    | none => exact kept.newest key
    | some racks => rfl
  numbered := List.forall_mem_cons.2 ⟨apart.1, kept.numbered⟩
  apart := List.pairwise_cons.2 ⟨apart.2, kept.apart⟩

theorem Kept.answered (kept : watch.Kept) {until_ : ℕ} {racks : List Rack}
    (stored : watch.book.racks.get key = some (until_, racks)) :
    Kept ⟨{ watch.book with racks := watch.book.racks.insert key (until_, racks.erase rack) }, watch.clock,
      watch.releases.map fun release => { release with answered := (key, rack) :: release.answered }⟩ where
  sorted := kept.sorted
  queued other value here := by
    rcases KeyMap.of_get_insert here with ⟨same, rfl⟩ | ⟨-, here⟩
    · exact same ▸ kept.queued key _ stored
    · exact kept.queued other value here
  bounded := kept.bounded
  newest other := by
    have gets : (watch.book.racks.insert key (until_, racks.erase rack)).get other = (watch.book.racks.get other).map
        fun left => (left.1, if other = key then left.2.erase rack else left.2) := by
      by_cases same : other = key
      · simp [same, stored]
      · simp [same]
    rw [gets, newest_answered kept.numbered, Option.filter_map, Option.filter_map]
    exact congrArg _ (kept.newest other)
  numbered := by simpa using kept.numbered
  apart := by simpa [List.pairwise_map] using kept.apart

/-- Every dialog kept is in its window. -/
def Open (watch : Watch) : Prop := ∀ key value, watch.book.racks.get key = some value → watch.clock < value.1

theorem Kept.pruned_open (kept : watch.Kept) : Open { watch with book := watch.book.prune watch.clock } := by
  intro key value stored
  rw [(Book.prune_spec kept.toQueued).2.2] at stored
  exact of_decide_eq_true (Option.filter_eq_some_iff.1 stored).2

/-- Whether the event prunes: a release that keeps something, a PRACK that is looked up. -/
def LooksUp : Event → Prop
  | .release call => call.answerableShown.keys ≠ []
  | .prack _ _ namesInvite => namesInvite = true

theorem Kept.step {event : ℕ × Event} (kept : watch.Kept) (apart : watch.Apart event)
    (stepped : watch.step event = some next) : next.Kept ∧ next.clock = event.1 ∧ (LooksUp event.2 → next.Open) := by
  obtain ⟨now, event⟩ := event
  unfold Watch.step at stepped
  split at stepped
  · cases stepped
  rename_i forward
  have kept := kept.forward (Nat.le_of_not_lt forward)
  cases event with
  | release call =>
    cases stepped
    by_cases none_ : call.answerableShown.keys = []
    · refine ⟨?_, rfl, fun keeps => absurd none_ keeps⟩
      simpa [Book.remember, Book.keep, none_, List.map_eq_nil_iff.1 none_] using kept.released apart
    have released := kept.pruned.released apart
    simp only [Book.remember, Book.keep, List.isEmpty_iff, none_, if_false]
    refine ⟨released, trivial, fun _ key value stored => ?_⟩
    rw [Book.get_insertAll] at stored
    cases shown : call.answerableShown.get key with
    | none => exact kept.pruned_open key value (by simpa [shown] using stored)
    | some racks =>
      rw [shown] at stored
      cases stored
      exact Nat.lt_add_of_pos_right (by decide)
  | prack key rack namesInvite =>
    cases namesInvite with
    | false =>
      cases stepped
      exact ⟨kept, rfl, by rintro ⟨⟩⟩
    | true =>
      simp only [Book.answers, Book.take, if_true] at stepped
      cases stored : (watch.book.prune now).racks.get key with
      | none =>
        simp only [stored] at stepped
        cases stepped
        exact ⟨kept.pruned, rfl, fun _ => kept.pruned_open⟩
      | some value =>
        simp only [stored] at stepped
        split at stepped <;> cases stepped
        · refine ⟨kept.pruned.answered stored, rfl, fun _ other left here => ?_⟩
          rcases KeyMap.of_get_insert here with ⟨-, rfl⟩ | ⟨-, here⟩
          · exact kept.pruned_open key value stored
          · exact kept.pruned_open other left here
        · exact ⟨kept.pruned, rfl, fun _ => kept.pruned_open⟩

/-- Of releases that share no dialog, the newest with a dialog is the one with it. -/
theorem Kept.newest_eq_some (kept : watch.Kept) {value : ℕ × List Rack} :
    Prack.newest watch.releases key = some value ↔
    ∃ release ∈ watch.releases, release.call.AnswersIn key ∧ (release.atMs + windowMs, release.left key) = value := by
  refine Option.map_eq_some_iff.trans <| exists_congr fun release => ?_
  rw [← and_assoc]
  refine and_congr_left fun _ => ⟨fun found => ?_, fun ⟨member, answers⟩ => ?_⟩
  · exact ⟨List.mem_of_find?_eq_some found, of_decide_eq_true (List.find?_some found :)⟩
  · refine find?_eq_some_of_apart (kept.apart.imp fun apart here there => ?_) member (decide_eq_true answers)
    exact apart key (of_decide_eq_true there) (of_decide_eq_true here)

/-- In every run of releases of calls that share no dialog, the book answers a PRACK exactly when the call of
    its dialog was released less than the window ago, would draw 200 for it as released, and no PRACK like it
    was answered since; and after a release that keeps something, or a lookup, only dialogs in their window
    are kept. -/
theorem late_prack_answered_as_call_would {events : List (ℕ × Event)} (ran : run Watch.step .new events = some watch)
    (apart : AllSteps Watch.step Apart .new events) (forward : watch.clock ≤ now) :
    (∀ key rack namesInvite, (watch.book.answers key rack namesInvite now).1 = true ↔
      ∃ release ∈ watch.releases, now < release.atMs + windowMs ∧ release.call.shownCallId key.2 = key.1 ∧
        release.call.prackDisposition key.2 rack namesInvite none = .answer200 ∧ (key, rack) ∉ release.answered) ∧
      ∀ event next, watch.Apart (now, event) → LooksUp event → watch.step (now, event) = some next →
        ∀ dialog value, next.book.racks.get dialog = some value →
          ∃ release ∈ next.releases, release.call.AnswersIn dialog ∧ now < release.atMs + windowMs := by
  have kept : watch.Kept := run_invariant_of_steps Kept
    (fun _ _ _ kept apart stepped => (kept.step apart stepped).1) apart
    ran .new
  constructor
  · intro key rack namesInvite
    cases namesInvite with
    | false => simp [Book.answers, Call.prackDisposition, Call.namedBy]
    | true =>
      have gets := ((Book.prune_spec kept.toQueued).2.2 key).trans (kept.later forward)
      trans ∃ value, (Prack.newest watch.releases key).filter (now < ·.1) = some value ∧ rack ∈ value.2
      · rw [← gets]
        simp only [Book.answers, Book.take, if_true]
        cases (watch.book.prune now).racks.get key with
        | none => simp
        | some value => by_cases here : rack ∈ value.2 <;> simp [here]
      · simp only [Option.filter_eq_some_iff, kept.newest_eq_some, decide_eq_true_eq]
        constructor
        · rintro ⟨_, ⟨⟨release, member, -, rfl⟩, lasts⟩, here⟩
          obtain ⟨here, fresh⟩ := List.mem_filter.1 here
          obtain ⟨callId, draws⟩ := (Call.mem_answerables_iff (kept.numbered release member)).1
            (Call.mem_racksOf.1 here)
          exact ⟨release, member, lasts, callId, draws, of_decide_eq_true fresh⟩
        · rintro ⟨release, member, lasts, callId, draws, fresh⟩
          have here := Call.mem_racksOf.2
            ((Call.mem_answerables_iff (kept.numbered release member)).2 ⟨callId, draws⟩)
          exact ⟨_, ⟨⟨release, member, List.ne_nil_of_mem here, rfl⟩, lasts⟩,
            List.mem_filter.2 ⟨here, decide_eq_true fresh⟩⟩
  · intro event next apart looksUp stepped dialog value stored
    obtain ⟨keptNext, rfl, isOpen⟩ := kept.step apart stepped
    have lasts := isOpen looksUp dialog value stored
    have left := keptNext.newest dialog
    rw [stored, Option.filter_some, decide_eq_true lasts, if_pos rfl, eq_comm, Option.filter_eq_some_iff] at left
    obtain ⟨release, member, answers, rfl⟩ := keptNext.newest_eq_some.1 left.1
    exact ⟨release, member, answers, lasts⟩

/-- A call that rings at two targets when it is released. -/
def ringing (callId tag : String) : Call where
  aLeg := ⟨"a", callId, none, [⟨tag, "caller", .early⟩]⟩
  bLegs := []
  provisionals := [⟨"b", "callee", .waived, some ⟨tag, (1, 1), .repeating⟩⟩,
    ⟨"b", "other", .waived, some ⟨tag, (2, 1), .repeating⟩⟩]

/-- Two calls are released, and a PRACK of the first is answered. -/
def releasedTwice : List (ℕ × Event) :=
  [(0, .release (ringing "one@host" "first")), (10, .release (ringing "two@host" "second")),
    (20, .prack ("one@host", "first") (1, 1) true)]

theorem releasedTwice_apart : AllSteps step Apart .new releasedTwice := by
  have one : ∀ entry ∈ (ringing "one@host" "first").answerables, entry.1.1 = "one@host" := by decide
  have two : ∀ entry ∈ (ringing "two@host" "second").answerables, entry.1.1 = "two@host" := by decide
  refine .cons ⟨by unfold Call.Numbered; decide, nofun⟩ rfl (.cons ⟨by unfold Call.Numbered; decide, ?_⟩ rfl
    (.cons trivial rfl trivial))
  rintro release member key first second
  cases List.mem_singleton.1 member
  obtain ⟨_, inFirst⟩ := List.exists_mem_of_ne_nil _ first
  obtain ⟨_, inSecond⟩ := List.exists_mem_of_ne_nil _ second
  have isOne := one _ (Call.mem_racksOf.1 inFirst)
  have isTwo := two _ (Call.mem_racksOf.1 inSecond)
  exact absurd (isOne.symm.trans isTwo) (by decide)

/-- Asked again, the PRACK is not answered; the other one of its dialog and those of the second call are. -/
theorem released_ringing_answers : ∃ watch, run Watch.step .new releasedTwice = some watch ∧
    (watch.book.answers ("one@host", "first") (1, 1) true 30).1 = false ∧
    (watch.book.answers ("one@host", "first") (2, 1) true 30).1 = true ∧
    (watch.book.answers ("two@host", "second") (1, 1) true 30).1 = true := by
  refine ⟨_, rfl, ?_⟩
  have answers := (@late_prack_answered_as_call_would 30 _ _ rfl releasedTwice_apart (by decide)).1
  refine ⟨?_, (answers _ _ _).2 ⟨_, List.mem_cons_of_mem _ List.mem_cons_self, ?_⟩,
    (answers _ _ _).2 ⟨_, List.mem_cons_self, ?_⟩⟩
  · rw [Bool.eq_false_iff, Ne, answers]
    rintro ⟨release, member, -, isCall, -, fresh⟩
    rcases List.mem_cons.1 member with rfl | earlier
    · exact absurd isCall (by decide)
    · cases List.mem_singleton.1 earlier
      exact fresh List.mem_cons_self
  · decide
  · decide

end Watch

end SipServer.Prack
