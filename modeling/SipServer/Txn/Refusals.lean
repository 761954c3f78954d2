/-
Module: SipServer.Txn.Refusals
Purpose: The node's memo of the INVITE identities it refused and of those a live server transaction holds
  (`sip-txn/src/layer/refusals.rs`), and its runs as an observer follows them.
Trusted boundary: translated from the source
-/
import SipServer.Lib.KeyMap
import SipServer.Lib.Runs
import SipServer.Retransmit.Ladder

namespace SipServer.Txn

open SipServer.Lib SipServer.Retransmit

/-- Branch, Call-ID and From-tag of an INVITE, which the memo keys by a hash taken to tell identities
    apart. -/
abbrev Identity := String × String × String

/-- The identities refused in the last 64·T1, with their refusal instant and in refusal order, and those
    held, with the number of transactions that hold each. The lock-free mirror of whether any is refused is
    left out. -/
structure Memo where
  refused : KeyMap Identity ℕ
  order : List (ℕ × Identity)
  held : KeyMap Identity ℕ
  max : ℕ

namespace Memo

/-- The loop of `expire` over the order queue. -/
def expireOrder (max now : ℕ) :
    List (ℕ × Identity) → KeyMap Identity ℕ → List (ℕ × Identity) × KeyMap Identity ℕ
  | [], refused => ([], refused)
  | (instant, key) :: rest, refused =>
    if now - instant < timerB ∧ rest.length + 1 ≤ max then ((instant, key) :: rest, refused)
    else expireOrder max now rest (if refused.get key = some instant then refused.remove key else refused)

/-- Forget the refusals that lapsed, and the oldest past the capacity. -/
def expire (memo : Memo) (now : ℕ) : Memo :=
  let (order, refused) := expireOrder memo.max now memo.order memo.refused
  { memo with order, refused }

def holdsRefusal (memo : Memo) (now : ℕ) (key : Identity) : Bool × Memo :=
  (((memo.expire now).refused.get key).isSome, memo.expire now)

/-- Remember a refusal; true when none of the identity was remembered. -/
def remember (memo : Memo) (now : ℕ) (key : Identity) : Bool × Memo :=
  let first := (memo.refused.get key).isNone
  let memo :=
    if first then { memo with refused := memo.refused.insert key now, order := memo.order ++ [(now, key)] }
    else memo
  (first, memo.expire now)

/-- One more transaction holds the identity. -/
def hold (memo : Memo) (key : Identity) : Memo :=
  { memo with held := memo.held.insert key ((memo.held.get key).getD 0 + 1) }

/-- One transaction less holds the identity. -/
def release (memo : Memo) (key : Identity) : Memo :=
  match memo.held.get key with
  | none => memo
  | some count =>
    if count - 1 = 0 then { memo with held := memo.held.remove key }
    else { memo with held := memo.held.insert key (count - 1) }

end Memo

/-- A call on the shared refusals; an admission says whether its caller refuses and whether the INVITE is
    initial. -/
inductive RefusalCall where
  | refuse (key : Identity)
  | refused (key : Identity)
  | admitInvite (key : Identity) (refuse initial : Bool)
  | hold (key : Identity)
  | release (key : Identity)
deriving Repr, DecidableEq

/-- What a call answers. -/
inductive Judgement.Answer where
  /-- A live transaction holds the INVITE. -/
  | held
  | refused (first : Bool)
  | isRefused (refused : Bool)
  /-- A copy of a refused INVITE. -/
  | repeat_
  | admitted (held : Bool)
  | done
deriving Repr, DecidableEq

namespace Memo

open Judgement

/-- One call, at an instant. -/
def step (memo : Memo) (now : ℕ) : RefusalCall → Answer × Memo
  | .refuse key =>
    if (memo.held.get key).isSome then (.held, memo)
    else
      let (first, memo) := memo.remember now key
      (.refused first, memo)
  | .refused key =>
    let (refused, memo) := memo.holdsRefusal now key
    (.isRefused refused, memo)
  | .admitInvite key refuse initial =>
    let (refused, memo) := memo.holdsRefusal now key
    if refused then (.repeat_, memo)
    else if refuse then
      let (first, memo) := memo.remember now key
      (.refused first, memo)
    else if initial then (.admitted true, memo.hold key)
    else (.admitted false, memo)
  | .hold key => (.done, ({ memo with refused := memo.refused.remove key } : Memo).hold key)
  | .release key => (.done, memo.release key)

def new (max : ℕ) : Memo := ⟨∅, [], ∅, max⟩

end Memo

/-- The memo as an observer follows it: the clock, the holds taken and released of each identity, and the
    refusal each stands under, by its instant and the number of refusals recorded since. -/
structure Watch where
  memo : Memo
  clock : ℕ
  taken : Identity → ℕ
  released : Identity → ℕ
  standing : Identity → Option (ℕ × ℕ)

namespace Watch

/-- An identity was refused: it stands under this refusal, and every other that stands has one more after it,
    unless it stands under one that has neither lapsed nor `max` refusals after it. -/
def refuse (watch : Watch) (now : ℕ) (key : Identity) : Identity → Option (ℕ × ℕ) :=
  if (watch.standing key).any fun stand => now - stand.1 < timerB ∧ stand.2 < watch.memo.max
  then watch.standing
  else fun other =>
    if other = key then some (now, 0) else (watch.standing other).map fun stand => (stand.1, stand.2 + 1)

def step (watch : Watch) (event : ℕ × RefusalCall) : Option Watch :=
  if event.1 < watch.clock then none
  else
    let (answer, memo) := watch.memo.step event.1 event.2
    let next := { watch with memo, clock := event.1 }
    some <| match event.2, answer with
      | .refuse key, .refused _ | .admitInvite key _ _, .refused _ =>
        { next with standing := watch.refuse event.1 key }
      | .admitInvite key _ _, .admitted true =>
        { next with taken := Function.update watch.taken key (watch.taken key + 1) }
      | .hold key, _ =>
        { next with
          taken := Function.update watch.taken key (watch.taken key + 1)
          standing := Function.update watch.standing key none }
      | .release key, _ =>
        if (watch.memo.held.get key).isSome then
          { next with released := Function.update watch.released key (watch.released key + 1) }
        else next
      | _, _ => next

def new (max : ℕ) : Watch := ⟨.new max, 0, fun _ => 0, fun _ => 0, fun _ => none⟩

end Watch

end SipServer.Txn
