/-
Module: SipServer.Call.IndexKey
Purpose: The keys of the SIP routing index and the leg a lookup finds (`call/src/index_key.rs`), the call
  reference (`call/src/callref.rs`), and the Call-IDs the parser accepts
  (`sip-message/src/parser/custom/dialog_ids.rs`).
Trusted boundary: translated from the source
-/
import Mathlib.Data.List.Basic

namespace SipServer.Index

/-- Text as the keys write it. -/
abbrev Text := List Char

/-- `str::split_once`. -/
def splitOnce (separator : Char) : Text → Option (Text × Text)
  | [] => none
  | char :: rest =>
    if char = separator then some ([], rest)
    else (splitOnce separator rest).map fun (before, after) => (char :: before, after)

/-! What the parser accepts -/

def isTokenChar (char : Char) : Bool :=
  char.isAlphanum || ['-', '.', '!', '%', '*', '_', '+', '\x60', '\'', '~'].contains char

def isWordChar (char : Char) : Bool :=
  isTokenChar char || ['(', ')', '<', '>', ':', '\\', '"', '/', '[', ']', '?', '\x7b', '\x7d'].contains char

/-- `callid = word [ "@" word ]`. -/
def isCallId (value : Text) : Bool :=
  let word (text : Text) := !text.isEmpty && text.all isWordChar
  match splitOnce '@' value with
  | some (name, host) => word name && word host
  | none => word value

/-! The call as its index keys read it -/

structure Dialog where
  peerTag : Text
deriving Repr, DecidableEq, Inhabited

structure Leg where
  legId : Text
  callId : Text
  /-- This stack's tag in the INVITE it dialled the leg with. -/
  outboundInvite : Option Text
  dialogs : List Dialog
deriving Repr, DecidableEq, Inhabited

structure Call where
  aLeg : Leg
  /-- The caller's tag, from the INVITE of the incoming leg. -/
  fromTag : Text
  bLegs : List Leg
  callbackContext : Option Text
deriving Repr, DecidableEq, Inhabited

/-! Keys -/

/-- The namespaces of the per-identity keys. -/
inductive KeyKind where
  | aLeg
  | bDialog
  | bLocal
  | bLeg
deriving Repr, DecidableEq

def writeKey (kind : KeyKind) (callId tag : Text) : Text :=
  let (namespace_, tagged) := match kind with
    | .aLeg => (['a', ':'], true)
    | .bDialog => (['b', ':'], true)
    | .bLocal => (['b', 'l', ':'], true)
    | .bLeg => (['b', ':'], false)
  namespace_ ++ callId ++ if tagged then '|' :: tag else []

/-- The callback context a decision attached to the call. -/
def callbackKey (context : Text) : Text := ['c', 't', 'x', ':'] ++ context

/-- Every index key a call owns. -/
def callIndexKeys (call : Call) : List Text :=
  [writeKey .aLeg call.aLeg.callId call.fromTag] ++
    call.bLegs.flatMap (fun leg =>
      (leg.outboundInvite.map (writeKey .bLocal leg.callId)).toList ++ [writeKey .bLeg leg.callId []] ++
        (leg.dialogs.filter (!·.peerTag.isEmpty)).map (writeKey .bDialog leg.callId ·.peerTag)) ++
    (call.callbackContext.map callbackKey).toList

/-- What a message names its call by, when it carries no `callRef` of ours. -/
inductive IndexLookup where
  | cancel (callId fromTag : Text)
  | invite (callId fromTag : Text)
  | peer (callId tag : Text)

namespace IndexLookup

def identity : IndexLookup → Text × Text
  | .cancel callId fromTag | .invite callId fromTag => (callId, fromTag)
  | .peer callId tag => (callId, tag)

def key (lookup : IndexLookup) (kind : KeyKind) : Text := writeKey kind lookup.identity.1 lookup.identity.2

/-- The leg of a call that owns the lookup's key of a kind. -/
def owningLeg (lookup : IndexLookup) (kind : KeyKind) (call : Call) : Option Text :=
  let (callId, tag) := lookup.identity
  let outgoing := call.bLegs.filter (·.callId = callId)
  match kind with
  | .aLeg => if call.aLeg.callId = callId ∧ call.fromTag = tag then some call.aLeg.legId else none
  | .bDialog => (outgoing.find? (·.dialogs.any (·.peerTag = tag))).map (·.legId)
  | .bLeg => outgoing.head?.map (·.legId)
  | .bLocal => none

end IndexLookup

/-! The call reference -/

structure ParsedCallRef where
  primary : Text
  callId : Text
  fromTag : Text
deriving Repr, DecidableEq

def deriveCallRef (primaryOrdinal aLegCallId aLegFromTag : Text) : Text :=
  primaryOrdinal ++ '|' :: (aLegCallId ++ '|' :: aLegFromTag)

def parseCallRef (reference : Text) : Option ParsedCallRef := do
  let (primary, rest) ← splitOnce '|' reference
  let (callId, fromTag) ← splitOnce '|' rest
  if primary.isEmpty || callId.isEmpty || fromTag.isEmpty then none
  else some ⟨primary, callId, fromTag⟩

end SipServer.Index
