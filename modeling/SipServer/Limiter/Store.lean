/-
Module: SipServer.Limiter.Store
Purpose: The admission store of the call limiter (`call-limiter/src/store.rs`): per-call sets of
  limiter ids, per-id live counts, fences, change markers, their leases and the sweep that drops
  what lapsed.
Trusted boundary: translated from the source
-/
import SipServer.Lib.KeyMap
import SipServer.Lib.Deadlines
import SipServer.Lib.Runs

namespace SipServer.Limiter

open SipServer.Lib

/-!
Every public operation reads the clock, takes the store's lock, sweeps and then does its work, so an
operation is a function of the state and of the instant it read. Instants are `i64` milliseconds and
change numbers `u64` in the source; neither gets near its bound, so both are unbounded here.
-/

/-- One limiter entry to admit: an id and its cap. -/
structure AdmitEntry where
  id : String
  limit : ℤ
deriving Repr, DecidableEq

/-- The set the server holds for a key, under the change number it is stated with. -/
structure HeldSet where
  change : ℕ
  entries : List AdmitEntry
deriving Repr, DecidableEq

/-- `HeldSet::default()`. -/
instance : Inhabited HeldSet := ⟨⟨0, []⟩⟩

/-- The longest lease a limiter server runs, in seconds. -/
def maxLeaseSec : ℤ := 86400

/-- The store's lease. The runner refuses a lease outside `1..=MAX_LEASE_SEC`. -/
structure LimiterConfig where
  leaseSec : ℤ
  positive : 1 ≤ leaseSec
  bounded : leaseSec ≤ maxLeaseSec
deriving DecidableEq

/-- Why a key is fenced against refresh. -/
inductive Fence where
  | released
  | dropped (change : ℕ)
deriving Repr, DecidableEq

/-- The outcome of one admit. -/
inductive AdmitResult where
  | admitted
  | rejected (limiterId : String) (held : HeldSet)
  | superseded (held : HeldSet)
  | released
deriving Repr, DecidableEq

/-- What one refresh did. -/
inductive RefreshResult where
  | extended
  | reregistered
  | released
  | dropped
deriving Repr, DecidableEq

/-- The outcome of one refresh and the set held for the key after it. -/
structure Refreshed where
  result : RefreshResult
  held : Option HeldSet
deriving Repr, DecidableEq

/-- One call's holds: its entries in list order, the change number they stand under, its lease, and
    the one deadline queued for it. -/
structure CallSet where
  entries : List AdmitEntry
  change : ℕ
  leaseExpiresAtMs : ℤ
  pendingDeadlineMs : ℤ
deriving Repr, DecidableEq

/-- The store's state behind its lock. -/
structure Inner where
  calls : KeyMap String CallSet
  counts : KeyMap String ℤ
  fences : KeyMap String (Fence × ℤ)
  setDeadlines : Deadlines String
  markers : KeyMap String (ℕ × ℤ)
  markerDeadlines : Deadlines String
  fenceDeadlines : Deadlines String
  leaseExpiredCalls : ℕ
  leaseExpiredHolds : ℕ
  reregisteredCalls : ℕ
  admitReregisteredCalls : ℕ
  releasesTotal : ℕ
  admitsRefusedReleased : ℕ
deriving DecidableEq

/-- The keyed store. -/
structure CallStore where
  inner : Inner
  cfg : LimiterConfig
deriving DecidableEq

namespace LimiterConfig

/-- The lease in milliseconds; `saturating_mul` does not saturate below `MAX_LEASE_SEC`. -/
def leaseMs (cfg : LimiterConfig) : ℤ := cfg.leaseSec * 1000

theorem leaseMs_pos (cfg : LimiterConfig) : 0 < cfg.leaseMs := by
  have := cfg.positive
  unfold leaseMs
  omega

end LimiterConfig

namespace Inner

/-- The state of a new store. -/
def new : Inner where
  calls := ∅
  counts := ∅
  fences := ∅
  setDeadlines := .empty
  markers := ∅
  markerDeadlines := .empty
  fenceDeadlines := .empty
  leaseExpiredCalls := 0
  leaseExpiredHolds := 0
  reregisteredCalls := 0
  admitReregisteredCalls := 0
  releasesTotal := 0
  admitsRefusedReleased := 0

/-! ### Counts and sets -/

/-- `*counts.entry(id).or_insert(0) += 1`. -/
def countHold (counts : KeyMap String ℤ) (entry : AdmitEntry) : KeyMap String ℤ :=
  counts.insert entry.id ((counts.get entry.id).getD 0 + 1)

/-- Take one hold from its id's count; a count that reaches zero is removed. -/
def uncountHold (counts : KeyMap String ℤ) (entry : AdmitEntry) : KeyMap String ℤ :=
  match counts.get entry.id with
  | none => counts
  | some count =>
    if count - 1 ≤ 0 then counts.remove entry.id else counts.insert entry.id (count - 1)

variable (inner : Inner) (key : String)

/-- Count `entries` for `key` under `change` and a lease ending at `leaseExpiresAtMs`. -/
def insertSet (entries : List AdmitEntry) (change : ℕ)
    (leaseExpiresAtMs : ℤ) : Inner :=
  { inner with
    counts := entries.foldl countHold inner.counts
    calls := inner.calls.insert key
      { entries, change, leaseExpiresAtMs, pendingDeadlineMs := leaseExpiresAtMs }
    setDeadlines := inner.setDeadlines.push leaseExpiresAtMs key }

/-- Remove the call's set, if any, and its holds from the counts; answers how many holds went. -/
def dropSet : Inner × ℕ :=
  match inner.calls.get key with
  | none => (inner, 0)
  | some set =>
    ({ inner with
        calls := inner.calls.remove key
        counts := set.entries.foldl uncountHold inner.counts },
      set.entries.length)

/-- Fence `key` as `why`, until `lapsesAtMs`. -/
def fence (why : Fence) (lapsesAtMs : ℤ) : Inner :=
  { inner with
    fences := inner.fences.insert key (why, lapsesAtMs)
    fenceDeadlines := inner.fenceDeadlines.push lapsesAtMs key }

/-- `markers.remove(key)`. -/
def dropMarker : Inner :=
  { inner with markers := inner.markers.remove key }

/-- `fences.remove(key)`. -/
def dropFence : Inner :=
  { inner with fences := inner.fences.remove key }

/-! ### The change number known for a key -/

/-- The change number the store knows for `key`: its set's, its drop fence's, or its marker's. -/
def knownChange : Option ℕ :=
  match inner.calls.get key with
  | some set => some set.change
  | none =>
    match inner.fences.get key with
    | some (.dropped change, _) => some change
    | _ => (inner.markers.get key).map (fun marker => marker.1)

/-- Record `change` for `key` on its set, else on its drop fence, else on a marker lapsing at
    `lapsesAtMs`. The set and the fence keep the lease they had. -/
def recordChange (change : ℕ) (lapsesAtMs : ℤ) : Inner :=
  match inner.calls.get key with
  | some set => { inner with calls := inner.calls.insert key { set with change } }
  | none =>
    match inner.fences.get key with
    | some (.dropped _, lapses) =>
      { inner with fences := inner.fences.insert key (.dropped change, lapses) }
    | _ =>
      { inner with
        markers := inner.markers.insert key (change, lapsesAtMs)
        markerDeadlines := inner.markerDeadlines.push lapsesAtMs key }

/-- The entries of the set held for `key`. -/
def ownEntries : List AdmitEntry :=
  ((inner.calls.get key).map (fun set => set.entries)).getD []

/-- The set held for `key`, stated under the number the store knows for it. -/
def heldSet : HeldSet where
  change := (inner.knownChange key).getD 0
  entries := inner.ownEntries key

/-- Whether `key` was released within the last lease. -/
def releaseFenced : Bool :=
  (inner.fences.get key).any (fun fence => fence.1 = .released)

/-! ### Re-creating a set -/

/-- Whether an admit or a refresh of `key` carrying `entries` re-creates its set. -/
def reregisters (entries : List AdmitEntry) : Bool :=
  !entries.isEmpty && (inner.calls.get key).isNone && (inner.fences.get key).isNone

/-- Re-create `key`'s set from `entries` under `change` with no cap check. A marker's number is the
    key's latest: the re-created set keeps it. -/
def reregister (change : ℕ) (entries : List AdmitEntry)
    (leaseExpiresAtMs : ℤ) : Inner :=
  let known := ((inner.markers.get key).map (fun marker => max marker.1 change)).getD change
  (inner.dropMarker key).insertSet key entries known leaseExpiresAtMs

/-! ### Sweeping -/

/-- One turn of the loop over the set deadlines; `none` is its `break`. -/
def sweepSet (nowMs : ℤ) (inner : Inner) : Option Inner :=
  match inner.setDeadlines.peek with
  | none => none
  | some (deadline, key) =>
    if nowMs < deadline then none
    else
      let popped := { inner with setDeadlines := inner.setDeadlines.pop }
      match (inner.calls.get key).filter (fun set => set.pendingDeadlineMs = deadline) with
      | none => some popped
      | some set =>
        if nowMs < set.leaseExpiresAtMs then
          -- the lease moved past the deadline: queue it again at the lease
          some { popped with
            calls := popped.calls.insert key
              { set with pendingDeadlineMs := set.leaseExpiresAtMs }
            setDeadlines := popped.setDeadlines.push set.leaseExpiresAtMs key }
        else
          let dropped := popped.dropSet key
          some { dropped.1 with
            leaseExpiredCalls := dropped.1.leaseExpiredCalls + 1
            leaseExpiredHolds := dropped.1.leaseExpiredHolds + dropped.2 }

/-- One turn of the loop over the fences' or the markers' lapse instants. -/
def sweepLapsed {Kind : Type} (nowMs : ℤ) :
    Deadlines String × KeyMap String (Kind × ℤ) →
      Option (Deadlines String × KeyMap String (Kind × ℤ))
  | (deadlines, entries) =>
    match deadlines.peek with
    | none => none
    | some (deadline, key) =>
      if nowMs < deadline then none
      else if (entries.get key).any (fun entry => entry.2 = deadline) then
        some (deadlines.pop, entries.remove key)
      else
        some (deadlines.pop, entries)

/-- Drop every set whose lease lapsed and every fence and marker past its lease. Each loop turns
    once for each deadline it finds due, so the queue's size is fuel enough. -/
def sweep (inner : Inner) (nowMs : ℤ) : Inner :=
  let inner := loop (sweepSet nowMs) inner.setDeadlines.size inner
  let fences :=
    loop (sweepLapsed nowMs) inner.fenceDeadlines.size (inner.fenceDeadlines, inner.fences)
  let markers :=
    loop (sweepLapsed nowMs) inner.markerDeadlines.size (inner.markerDeadlines, inner.markers)
  { inner with
    fenceDeadlines := fences.1
    fences := fences.2
    markerDeadlines := markers.1
    markers := markers.2 }

/-! ### Admit, release and refresh, after the sweep -/

/-- How many entries of a list name an id. -/
def multiplicity (entries : List AdmitEntry) (id : String) : ℕ :=
  entries.countP (fun entry => entry.id = id)

/-- The first entry at its cap. Every entry is checked against its own cap with the whole list's
    effect on its id; only an id the call adds slots to can refuse. -/
def refused (entries : List AdmitEntry) : Option AdmitEntry :=
  entries.find? fun entry =>
    let old := multiplicity (inner.ownEntries key) entry.id
    let new := multiplicity entries entry.id
    decide (old < new) &&
      decide (entry.limit < (inner.counts.get entry.id).getD 0 - (old : ℤ) + (new : ℤ))

/-- A key with no set and no fence lost the call's set: re-create what the admit carries. -/
def carry (held : HeldSet) (leaseExpiresAtMs : ℤ) : Inner :=
  if inner.reregisters key held.entries then
    let again := inner.reregister key held.change held.entries leaseExpiresAtMs
    { again with admitReregisteredCalls := again.admitReregisteredCalls + 1 }
  else inner

/-- What a refusal does to the key: the drop `release_on_refusal` asks for, else only the number. -/
def refuse (change : ℕ) (releaseOnRefusal : Bool)
    (lapsesAtMs : ℤ) : Inner :=
  if releaseOnRefusal then
    (((inner.dropSet key).1.dropMarker key).fence key (.dropped change) lapsesAtMs)
  else
    inner.recordChange key change lapsesAtMs

/-- What an admission does to the key: its set becomes `entries`, an empty list fences it. -/
def replaceSet (change : ℕ) (entries : List AdmitEntry)
    (leaseExpiresAtMs : ℤ) : Inner :=
  let bare := ((inner.dropSet key).1.dropFence key).dropMarker key
  if entries.isEmpty then bare.fence key (.dropped change) leaseExpiresAtMs
  else bare.insertSet key entries change leaseExpiresAtMs

/-- `admit_carrying` past its sweep, with `leaseExpiresAtMs` one lease after the instant read. -/
def admitSet (change : ℕ) (held : HeldSet)
    (entries : List AdmitEntry) (releaseOnRefusal : Bool) (leaseExpiresAtMs : ℤ) :
    Inner × AdmitResult :=
  if inner.releaseFenced key then
    ({ inner with admitsRefusedReleased := inner.admitsRefusedReleased + 1 }, .released)
  else if (inner.knownChange key).any (fun known => change ≤ known) then
    (inner, .superseded (inner.heldSet key))
  else
    let inner := inner.carry key held leaseExpiresAtMs
    match inner.refused key entries with
    | some entry =>
      let inner := inner.refuse key change releaseOnRefusal leaseExpiresAtMs
      (inner, .rejected entry.id (inner.heldSet key))
    | none => (inner.replaceSet key change entries leaseExpiresAtMs, .admitted)

/-- One key of `release`, past its sweep. -/
def release (fencedUntilMs : ℤ) (inner : Inner) (key : String) : Inner :=
  let inner := { inner with releasesTotal := inner.releasesTotal + 1 }
  if inner.releaseFenced key then inner
  else ((inner.dropSet key).1.dropMarker key).fence key .released fencedUntilMs

/-- Refresh one call: extend its lease, or re-create its set when the store holds none and the key
    is not fenced. -/
def refresh (change : ℕ) (entries : List AdmitEntry)
    (leaseExpiresAtMs : ℤ) : Inner × Refreshed :=
  match inner.calls.get key with
  | some set =>
    let inner := { inner with calls := inner.calls.insert key { set with leaseExpiresAtMs } }
    (inner, ⟨.extended, some (inner.heldSet key)⟩)
  | none =>
    if inner.reregisters key entries then
      let again := inner.reregister key change entries leaseExpiresAtMs
      let inner := { again with reregisteredCalls := again.reregisteredCalls + 1 }
      (inner, ⟨.reregistered, some (inner.heldSet key)⟩)
    else
      match inner.fences.get key with
      | some (.dropped _, _) => (inner, ⟨.dropped, some (inner.heldSet key)⟩)
      | _ => (inner, ⟨.released, none⟩)

/-- The calls of one refresh request in order, one outcome each. -/
def refreshEach (leaseExpiresAtMs : ℤ) :
    Inner → List (String × ℕ × List AdmitEntry) → Inner × List Refreshed
  | inner, [] => (inner, [])
  | inner, (key, change, entries) :: calls =>
    let first := inner.refresh key change entries leaseExpiresAtMs
    let rest := refreshEach leaseExpiresAtMs first.1 calls
    (rest.1, first.2 :: rest.2)

end Inner

/-! ### The public operations -/

namespace CallStore

/-- A store that holds nothing. -/
def new (cfg : LimiterConfig) : CallStore := ⟨Inner.new, cfg⟩

variable (store : CallStore) (nowMs : ℤ)

/-- The end of a lease that starts at `nowMs`. -/
def leaseEnd : ℤ := nowMs + store.cfg.leaseMs

/-- Replace the call's set with `entries` under `change`, checked net of its current set. -/
def admitCarrying (key : String) (change : ℕ) (held : HeldSet)
    (entries : List AdmitEntry) (releaseOnRefusal : Bool) : CallStore × AdmitResult :=
  let answer := (store.inner.sweep nowMs).admitSet key change held entries releaseOnRefusal
    (store.leaseEnd nowMs)
  ({ store with inner := answer.1 }, answer.2)

/-- Release every call of `keys` in one step. -/
def release (keys : List String) : CallStore :=
  { store with
    inner := keys.foldl (Inner.release (store.leaseEnd nowMs)) (store.inner.sweep nowMs) }

/-- Refresh every call of `calls` in one step: one outcome per call, in order. -/
def refreshAll (calls : List (String × ℕ × List AdmitEntry)) : CallStore × List Refreshed :=
  let answer := Inner.refreshEach (store.leaseEnd nowMs) (store.inner.sweep nowMs) calls
  ({ store with inner := answer.1 }, answer.2)

/-- Drop every lapsed set, fence and marker now; answers how many sets lapsed. -/
def sweepNow : CallStore × ℕ :=
  let inner := store.inner.sweep nowMs
  ({ store with inner }, inner.leaseExpiredCalls - store.inner.leaseExpiredCalls)

/-- The set the store holds for `key`; none for a released key. -/
def heldSet (key : String) : CallStore × Option HeldSet :=
  let inner := store.inner.sweep nowMs
  ({ store with inner }, if inner.releaseFenced key then none else some (inner.heldSet key))

/-- The live count `id` holds over every call's set. -/
def held (id : String) : CallStore × ℤ :=
  let inner := store.inner.sweep nowMs
  ({ store with inner }, (inner.counts.get id).getD 0)

/-- The number of calls holding a set. -/
def calls : CallStore × ℕ :=
  let inner := store.inner.sweep nowMs
  ({ store with inner }, inner.calls.keys.length)

/-- One request to the store. -/
inductive Operation where
  | admitCarrying (key : String) (change : ℕ) (held : HeldSet) (entries : List AdmitEntry)
      (releaseOnRefusal : Bool)
  | release (keys : List String)
  | refreshAll (calls : List (String × ℕ × List AdmitEntry))
  | sweepNow
  | heldSet (key : String)
  | held (id : String)
  | calls
deriving Repr, DecidableEq

/-- A request and the clock reading it runs at. -/
structure Request where
  nowMs : ℤ
  operation : Operation
deriving Repr, DecidableEq

/-- The store after a request. -/
def serve (store : CallStore) (request : Request) : CallStore :=
  match request.operation with
  | .admitCarrying key change held entries releaseOnRefusal =>
    (store.admitCarrying request.nowMs key change held entries releaseOnRefusal).1
  | .release keys => store.release request.nowMs keys
  | .refreshAll calls => (store.refreshAll request.nowMs calls).1
  | .sweepNow => (store.sweepNow request.nowMs).1
  | .heldSet key => (store.heldSet request.nowMs key).1
  | .held id => (store.held request.nowMs id).1
  | .calls => (store.calls request.nowMs).1

/-- The store as a system: every request can be served in every state. -/
def step (store : CallStore) (request : Request) : Option CallStore :=
  some (store.serve request)

end CallStore

end SipServer.Limiter
