/-
Module: SipServer.Store.Reanchor
Purpose: A stored copy and an incoming one meeting in one clock frame (`meet_stored` in
  `b2bua/src/repl/puller/apply/store_meeting.rs`), with the offset the store keeps for a body
  (`b2bua/src/repl/store/write.rs`).
Trusted boundary: translated from the source
-/
import SipServer.Call.Instants
import SipServer.Store.Containment

namespace SipServer.Store

open SipServer.Call

/-!
The clock stands still during a meeting, and the differences of its readings are unbounded here. Left out: a
copy that cannot be read or written out, which leaves the store as it is.
-/

/-- The copy stored for a call, and this node's clock minus the clock its instants were written on, when that
    is another node's. -/
structure StoredCopy (Data : Type) where
  copy : Enveloped Data
  skewOffsetMs : Option ℤ
deriving DecidableEq

variable {Data : Type} [DecidableEq Data]

namespace StoredCopy

/-- The clock the copy's instants were written on, read now. -/
def heldOriginNowMs (stored : StoredCopy Data) (nowMs : ℤ) : Option ℤ := stored.skewOffsetMs.map (nowMs - ·)

/-- How far the stored copy's instants move into the frame of a copy whose sender's clock read
    `originNowMs`. -/
def frameGap (stored : StoredCopy Data) (nowMs originNowMs : ℤ) : ℤ :=
  reanchorOffset (stored.skewOffsetMs.getD 0) - reanchorOffset (nowMs - originNowMs)

/-- The stored copy with an incoming one's exempt fields merged in, written back in its own frame. -/
def keepMerged (stored : StoredCopy Data) (nowMs : ℤ) (merged : Enveloped Data) : StoredCopy Data :=
  match merged.topology with
  | some _ => ⟨merged, (stored.heldOriginNowMs nowMs).map (nowMs - ·)⟩
  | none => stored

/-- The stored copy meets `incoming`: what is taken of the incoming copy, if it stands, and the copy then
    stored. -/
def meetStored (stored : StoredCopy Data) (nowMs : ℤ) (incoming : Enveloped Data) (primaryIncoming : Bool)
    (originNowMs : ℤ) : Option (Enveloped Data) × StoredCopy Data :=
  let gap := stored.frameGap nowMs originNowMs
  let held := { stored.copy with call := stored.copy.call.shiftInstants gap }
  match meet held incoming primaryIncoming with
  | .incoming merged => (some merged, stored)
  | .held merged => (none, stored.keepMerged nowMs { merged with call := merged.call.shiftInstants (-gap) })
  | .diverged => (none, stored)

end StoredCopy

end SipServer.Store
