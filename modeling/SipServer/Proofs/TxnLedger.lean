/-
Module: SipServer.Proofs.TxnLedger
Purpose: How the ledger sees the owner's bookkeeping: timers, queues and books leave it as it is, and a
  change to a transaction's record shows as a change to where it stands.
-/
import SipServer.Txn.Ledger

namespace SipServer.Txn

open SipServer.Lib SipServer.Retransmit

variable {ledger : Ledger}

namespace Ledger

variable {branch : Branch} {key : ServerTxnKey} {finish change : Transaction → Transaction} {head : NewTransaction}
variable {standing : ClientStanding} {notes : List Note}

variable {why : Hold}

@[simp] theorem say_nil (ledger : Ledger) : ledger.say [] = ledger := by simp [say]

@[simp] theorem say_say (ledger : Ledger) (first second : List Note) :
    (ledger.say first).say second = ledger.say (first ++ second) := by simp [say]

@[simp] theorem owe_nil : ledger.owe [] = ledger := by simp [owe]

@[simp] theorem setClient_say {standing : Option ClientStanding} :
    (ledger.say notes).setClient branch standing = (ledger.setClient branch standing).say notes := rfl

@[simp] theorem setServer_say (ledger : Ledger) (notes : List Note) (key : ServerTxnKey)
    (standing : Option ServerStanding) :
    (ledger.say notes).setServer key standing = (ledger.setServer key standing).say notes := rfl

@[simp] theorem setClient_setClient {first second : Option ClientStanding} :
    (ledger.setClient branch first).setClient branch second = ledger.setClient branch second := by
  simp [setClient]

@[simp] theorem clients_setClient {standing : Option ClientStanding} :
    (ledger.setClient branch standing).clients branch = standing := by
  simp [setClient]

@[simp] theorem servers_setServer (ledger : Ledger) (key : ServerTxnKey) (standing : Option ServerStanding) :
    (ledger.setServer key standing).servers key = standing := by
  simp [setServer]

@[simp] theorem clients_say (ledger : Ledger) (notes : List Note) : (ledger.say notes).clients = ledger.clients := rfl

@[simp] theorem servers_say : (ledger.say notes).servers = ledger.servers := rfl

/-- Setting a standing that is already there changes nothing. -/
theorem setClient_self {standing : Option ClientStanding}
    (stands : ledger.clients branch = standing) : ledger.setClient branch standing = ledger := by
  subst stands
  simp [setClient]

theorem setServer_self {standing : Option ServerStanding}
    (stands : ledger.servers key = standing) : ledger.setServer key standing = ledger := by
  subst stands
  simp [setServer]

end Ledger

namespace Owner

variable (owner : Owner) {txn : Transaction} {key : ServerTxnKey} {event : TransactionEvent} {branch : Branch}
  {id : TxnId} {count : ℕ} {change : Transaction → Transaction}

/-! ### What the ledger does not see -/

@[simp] theorem ledger_say (note : Note) : (owner.say note).ledger = owner.ledger.say [note] := rfl

@[simp] theorem ledger_arm {timer : Timer} {delay : ℕ} : (owner.arm timer delay).2.ledger = owner.ledger := rfl

@[simp] theorem ledger_armAt (timer : Timer) (deadline : ℕ) :
    (owner.armAt timer deadline).2.ledger = owner.ledger := rfl

@[simp] theorem ledger_cancelTimer (key : Option TimerKey) : (owner.cancelTimer key).ledger = owner.ledger := by
  cases key <;> rfl

@[simp] theorem ledger_cancelTimers : (owner.cancelTimers txn).ledger = owner.ledger := by
  simp [cancelTimers]

@[simp] theorem ledger_armEventRetry : owner.armEventRetry.ledger = owner.ledger := by
  unfold armEventRetry
  split <;> rfl

@[simp] theorem ledger_defer {emission : Emission} : (owner.defer emission).ledger = owner.ledger :=
  ledger_armEventRetry _

/-- An offered event is told, queued or not. -/
@[simp] theorem ledger_offer {about : Option ℕ} {critical : Bool} :
    (owner.offer about event critical).2.ledger = owner.ledger.say [.event about event] := by
  unfold offer
  dsimp only
  split
  · exact ledger_defer _
  split
  · rfl
  split
  · exact ledger_defer _
  · rfl

@[simp] theorem ledger_emit (about : Option ℕ) (event : TransactionEvent) :
    (owner.emit about event).2.ledger = owner.ledger.say [.event about event] :=
  ledger_offer owner

@[simp] theorem ledger_emitCritical (about : Option ℕ) (event : TransactionEvent) :
    (owner.emitCritical about event).ledger = owner.ledger.say [.event about event] :=
  ledger_offer owner

/-- A second offer tells nothing new. -/
theorem ledger_reoffer {emissions : List Emission} : (owner.reoffer emissions).ledger = owner.ledger := by
  induction emissions generalizing owner with
  | nil => rfl
  | cons emission rest ih =>
    unfold reoffer
    split
    · exact ih _
    · rfl

@[simp] theorem ledger_flushDeferred : owner.flushDeferred.ledger = owner.ledger := by
  unfold flushDeferred
  dsimp only
  split
  · exact ledger_reoffer owner
  · rw [ledger_armEventRetry, ledger_reoffer]

@[simp] theorem ledger_trackCallRef {callRef : Option CallRef} :
    (owner.trackCallRef callRef id).ledger = owner.ledger := by
  cases callRef <;> rfl

@[simp] theorem ledger_untrackCallRef (callRef : Option CallRef) (id : TxnId) :
    (owner.untrackCallRef callRef id).ledger = owner.ledger := by
  unfold untrackCallRef
  split
  · rfl
  split
  · rfl
  · split <;> rfl

@[simp] theorem ledger_quiesceIfLast (callRef : CallRef) : (owner.quiesceIfLast callRef).ledger = owner.ledger := by
  unfold quiesceIfLast
  split <;> rfl

@[simp] theorem ledger_settleAccepted : (owner.settleAccepted branch).ledger = owner.ledger := by
  unfold settleAccepted
  split
  · rfl
  split
  · rfl
  split
  · exact ledger_quiesceIfLast _ _
  · rfl

@[simp] theorem ledger_countDroppedCancel : (owner.countDroppedCancel txn).ledger = owner.ledger := by
  unfold countDroppedCancel
  split <;> rfl

@[simp] theorem ledger_rememberUasTag {callId fromTag : String} {tag : Tag} :
    (owner.rememberUasTag callId fromTag tag).ledger = owner.ledger := rfl

@[simp] theorem ledger_heldCancelsFlushed :
    ({ owner with heldCancelsFlushed := count } : Owner).ledger = owner.ledger := rfl

@[simp] theorem ledger_heldCancelsDropped :
    ({ owner with heldCancelsDropped := count } : Owner).ledger = owner.ledger := rfl

@[simp] theorem ledger_cancelsHeld : ({ owner with cancelsHeld := count } : Owner).ledger = owner.ledger := rfl

@[simp] theorem ledger_ids : ({ owner with ids := count } : Owner).ledger = owner.ledger := rfl

@[simp] theorem ledger_heldCancels (held : KeyMap HeldAs ServerTxnKey) :
    ({ owner with heldCancels := held } : Owner).ledger = owner.ledger := rfl

/-! ### Records as standings -/

/-- A client record stands in the ledger. -/
theorem ledger_client {owner : Owner} (found : owner.clients.get branch = some txn) :
    owner.ledger.clients branch = some txn.clientStanding := by
  simp [ledger, found]

theorem ledger_server {owner : Owner} (found : owner.servers.get key = some txn) :
    owner.ledger.servers key = some txn.serverStanding := by
  simp [ledger, found]

/-- A change of a client record is one of its standing. -/
theorem ledger_modifyClient :
    (owner.modifyClient branch change).ledger =
      owner.ledger.setClient branch ((owner.clients.get branch).map (fun txn => (change txn).clientStanding)) := by
  refine Ledger.ext (funext fun other => ?_) rfl rfl rfl rfl
  by_cases same : other = branch
  · subst same
    simp [ledger, modifyClient, Ledger.setClient, Function.comp_def]
  · simp [ledger, modifyClient, Ledger.setClient, same]

theorem ledger_modifyServer :
    (owner.modifyServer key change).ledger =
      owner.ledger.setServer key ((owner.servers.get key).map (fun txn => (change txn).serverStanding)) := by
  refine Ledger.ext rfl (funext fun other => ?_) rfl rfl rfl
  by_cases same : other = key
  · subst same
    simp [ledger, modifyServer, Ledger.setServer, Function.comp_def]
  · simp [ledger, modifyServer, Ledger.setServer, same]

/-- A change of the record that leaves the standing is not seen. -/
theorem ledger_modifyClient_same {owner : Owner}
    (same : ∀ txn, owner.clients.get branch = some txn → (change txn).clientStanding = txn.clientStanding) :
    (owner.modifyClient branch change).ledger = owner.ledger := by
  rw [ledger_modifyClient]
  refine Ledger.setClient_self ?_
  cases found : owner.clients.get branch with
  | none => simp [ledger, found]
  | some txn => simp [ledger, found, same txn found]

/-- The same of a server. -/
theorem ledger_modifyServer_same {owner : Owner}
    (same : ∀ txn, owner.servers.get key = some txn → (change txn).serverStanding = txn.serverStanding) :
    (owner.modifyServer key change).ledger = owner.ledger := by
  rw [ledger_modifyServer]
  refine Ledger.setServer_self ?_
  cases found : owner.servers.get key with
  | none => simp [ledger, found]
  | some txn => simp [ledger, found, same txn found]

/-- A change that shows in neither standing leaves the ledger. -/
theorem ledger_modifyTxn_same {owner : Owner} (client : ∀ txn, (change txn).clientStanding = txn.clientStanding)
    (server : ∀ txn, (change txn).serverStanding = txn.serverStanding) :
    (owner.modifyTxn id change).ledger = owner.ledger := by
  cases id with
  | client branch => exact ledger_modifyClient_same (fun txn _ => client txn)
  | server key => exact ledger_modifyServer_same (fun txn _ => server txn)

@[simp] theorem ledger_armDeadline : (owner.armDeadline id).ledger = owner.ledger := by
  unfold armDeadline
  split
  · rfl
  rw [ledger_modifyTxn_same]
  · exact ledger_cancelTimer owner _
  · exact fun _ => rfl
  · exact fun _ => rfl

/-- Held for `why`, a lifetime has given up just when that is the reason. -/
theorem gaveUp_hold {lifetime : Lifetime} {till : ℕ} :
    (lifetime.hold why till).gaveUp = decide (why = .gaveUp) := by
  cases lifetime with
  | active | held => cases why <;> rfl

/-- Of a client's hold the ledger sees why it is held. -/
theorem ledger_holdFor_client {left : ℕ} :
    (owner.holdFor (.client branch) why left).ledger =
      owner.ledger.setClient branch ((owner.clients.get branch).map (fun txn =>
        { txn.clientStanding with gaveUp := decide (why = .gaveUp) })) := by
  unfold holdFor
  rw [ledger_armDeadline]
  refine (ledger_modifyClient owner).trans ?_
  simp only [Transaction.clientStanding, gaveUp_hold]

/-- Of a server's hold it sees nothing. -/
@[simp] theorem ledger_holdFor_server {left : ℕ} :
    (owner.holdFor (.server key) why left).ledger = owner.ledger := by
  unfold holdFor
  rw [ledger_armDeadline]
  exact ledger_modifyServer_same fun _ _ => rfl

@[simp] theorem ledger_hold_server : (owner.hold (.server key) why).ledger = owner.ledger :=
  ledger_holdFor_server owner

/-! ### Entering and leaving -/

/-- A transaction that leaves owes the answers it still holds. -/
theorem ledger_settleLeaving :
    (owner.settleLeaving id txn).ledger = owner.ledger.owe (owedBy txn.serial txn.unsentCancel) := by
  unfold settleLeaving
  cases held : txn.unsentCancel with
  | none =>
    simp only [owedBy, Option.map_none, Option.getD_none, Ledger.owe_nil]
    split <;> rfl
  | some answers =>
    simp only [owedBy, Option.map_some, Option.getD_some]
    split <;> simp [oweHeldCancel, ledger, Ledger.owe, UnsentCancel.sends, rememberUasTag]

/-- A client that leaves stands no more. -/
theorem ledger_deleteTxn_client {owner : Owner} (found : owner.clients.get branch = some txn) :
    (owner.deleteTxn (.client branch)).2.ledger =
      (owner.ledger.setClient branch none).owe (owedBy txn.serial txn.unsentCancel) := by
  have dropped : (owner.dropTxn (.client branch)).ledger = owner.ledger.setClient branch none := by
    refine Ledger.ext (funext fun other => ?_) rfl rfl rfl rfl
    by_cases same : other = branch <;> simp [ledger, dropTxn, Ledger.setClient, same]
  have isTxn : owner.txn (.client branch) = some txn := found
  unfold deleteTxn
  rw [isTxn]
  dsimp only
  split <;> simp [ledger_settleLeaving, dropped]

theorem ledger_deleteTxn_server {owner : Owner} (found : owner.servers.get key = some txn) :
    (owner.deleteTxn (.server key)).2.ledger =
      (owner.ledger.setServer key none).owe (owedBy txn.serial txn.unsentCancel) := by
  have dropped : (owner.dropTxn (.server key)).ledger = owner.ledger.setServer key none := by
    refine Ledger.ext rfl (funext fun other => ?_) rfl rfl rfl
    by_cases same : other = key <;> simp [ledger, dropTxn, Ledger.setServer, same]
  have isTxn : owner.txn (.server key) = some txn := found
  unfold deleteTxn
  rw [isTxn]
  dsimp only
  split <;> simp [ledger_settleLeaving, dropped]

theorem deleteTxn_none {owner : Owner} (absent : owner.txn id = none) : (owner.deleteTxn id).2 = owner := by
  unfold deleteTxn
  rw [absent]

/-- The ledger sees a transaction put in the map, whatever was displaced. -/
theorem ledger_setTxn : (owner.setTxn txn).ledger = (owner.putTxn txn.id txn).ledger := by
  unfold setTxn
  dsimp only
  split <;> simp

theorem ledger_putTxn_client :
    (owner.putTxn (.client branch) txn).ledger = owner.ledger.setClient branch (some txn.clientStanding) := by
  refine Ledger.ext (funext fun other => ?_) rfl rfl rfl rfl
  by_cases same : other = branch <;> simp [ledger, putTxn, Ledger.setClient, same]

theorem ledger_putTxn_server :
    (owner.putTxn (.server key) txn).ledger = owner.ledger.setServer key (some txn.serverStanding) := by
  refine Ledger.ext rfl (funext fun other => ?_) rfl rfl rfl
  by_cases same : other = key <;> simp [ledger, putTxn, Ledger.setServer, same]

/-- The record a new transaction enters the map with, its backstop running. -/
def freshTxn (head : NewTransaction) : Transaction :=
  .new head owner.opened owner.now (.active (deadlineAfter owner.now
    (match head.kind with
      | .invite => owner.config.inviteInitialTimeoutMs + txnMaxAge
      | .nonInvite => txnMaxAge)))

/-- A client opened stands, and counts as opened. -/
theorem ledger_openTxnWith_client (named : head.id = .client branch) (keeps : ∀ txn, (finish txn).id = txn.id) :
    (owner.openTxnWith head finish).ledger =
      (owner.ledger.setClient branch (some (finish (owner.freshTxn head)).clientStanding)).opens := by
  have id : (finish (owner.freshTxn head)).id = .client branch := (keeps _).trans named
  unfold openTxnWith
  rw [ledger_setTxn]
  change (putTxn _ (finish (owner.freshTxn head)).id _).ledger = _
  rw [id, ledger_putTxn_client]
  rfl

theorem ledger_openTxnWith_server (named : head.id = .server key) (keeps : ∀ txn, (finish txn).id = txn.id) :
    (owner.openTxnWith head finish).ledger =
      (owner.ledger.setServer key (some (finish (owner.freshTxn head)).serverStanding)).opens := by
  have id : (finish (owner.freshTxn head)).id = .server key := (keeps _).trans named
  unfold openTxnWith
  rw [ledger_setTxn]
  change (putTxn _ (finish (owner.freshTxn head)).id _).ledger = _
  rw [id, ledger_putTxn_server]
  rfl

/-- A server transaction just opened stands as it entered. -/
theorem servers_openTxnWith (named : head.id = .server key) (keeps : ∀ txn, (finish txn).id = txn.id) :
    (owner.openTxnWith head finish).ledger.servers key = some (finish (owner.freshTxn head)).serverStanding := by
  rw [ledger_openTxnWith_server owner named keeps]
  exact Ledger.servers_setServer ..

theorem ledger_openTxn_client (named : head.id = .client branch) :
    (owner.openTxn head).ledger =
      (owner.ledger.setClient branch (some (owner.freshTxn head).clientStanding)).opens :=
  ledger_openTxnWith_client owner named (fun _ => rfl)

theorem ledger_openTxn_server (named : head.id = .server key) :
    (owner.openTxn head).ledger =
      (owner.ledger.setServer key (some (owner.freshTxn head).serverStanding)).opens :=
  ledger_openTxnWith_server owner named (fun _ => rfl)

/-! ### The ledger alone says what a change does -/

/-- A change known by what it does to the standing. -/
theorem ledger_modifyClient_of {owner : Owner} (stands : owner.ledger.clients branch = some standing)
    (acts : ClientStanding → ClientStanding) (same : ∀ txn, (change txn).clientStanding = acts txn.clientStanding) :
    (owner.modifyClient branch change).ledger = owner.ledger.setClient branch (some (acts standing)) := by
  obtain ⟨txn, found, rfl⟩ := Option.map_eq_some_iff.1 stands
  rw [ledger_modifyClient, found, Option.map_some, same]

/-- A hold of a client that stands. -/
theorem ledger_hold_client {owner : Owner} (stands : owner.ledger.clients branch = some standing) :
    (owner.hold (.client branch) why).ledger =
      owner.ledger.setClient branch (some { standing with gaveUp := decide (why = .gaveUp) }) := by
  obtain ⟨txn, found, rfl⟩ := Option.map_eq_some_iff.1 stands
  unfold hold
  rw [ledger_holdFor_client, found, Option.map_some]

/-- A hold right after a change of the standing. -/
theorem ledger_hold_set {owner : Owner} (set : owner.ledger = ledger.setClient branch (some standing)) :
    (owner.hold (.client branch) why).ledger =
      ledger.setClient branch (some { standing with gaveUp := decide (why = .gaveUp) }) := by
  have stands : owner.ledger.clients branch = some standing := by
    rw [set]
    exact Ledger.clients_setClient ..
  rw [ledger_hold_client stands, set, Ledger.setClient_setClient]

/-! ### Moves of the owner -/

/-- The ledger of one state leads to that of another. -/
def Moves (leave : ClientStanding → Prop) (before after : Owner) : Prop :=
  Ledger.Steps leave before.ledger after.ledger

/-- The transaction at a branch, if there is one, may leave. -/
def MayLeave (leave : ClientStanding → Prop) (branch : Branch) : Prop :=
  ∀ standing, owner.ledger.clients branch = some standing → leave standing

/-- A condition on leaving that asks at most for the ACK of an INVITE. -/
structure AsksAck (leave : ClientStanding → Prop) : Prop where
  acked : ∀ standing, standing.unsentAck = none → leave standing
  nonInvite : ∀ standing, standing.kind = .nonInvite → leave standing
  steady : ∀ standing next, leave standing → next.kind = standing.kind →
    next.unsentAck = standing.unsentAck → leave next

namespace Moves

variable {leave : ClientStanding → Prop} {before middle after : Owner}

theorem refl (owner : Owner) : Moves leave owner owner := Relation.ReflTransGen.refl

/-- Where the ledger is the same nothing moved. -/
theorem of_ledger (same : after.ledger = before.ledger) : Moves leave before after := by
  unfold Moves
  rw [same]

theorem trans (first : Moves leave before middle) (second : Moves leave middle after) : Moves leave before after :=
  Relation.ReflTransGen.trans first second

/-- What the ledger does not see may follow. -/
theorem then_same (first : Moves leave before middle) (same : after.ledger = middle.ledger) :
    Moves leave before after :=
  first.trans (of_ledger same)

/-- A note no transaction speaks for may be said. -/
theorem remarks {owner : Owner} {note : Note} (aside : note.Aside) : Moves leave owner (owner.say note) :=
  .single (.aside owner.ledger aside)

section

variable (stands : before.ledger.clients branch = some standing)

include stands

/-- One move of a client that stays. -/
theorem client {next : ClientStanding} (move : ClientMove leave standing (some next) notes)
    (result : after.ledger = (before.ledger.setClient branch (some next)).say notes) : Moves leave before after := by
  have step := Ledger.Step.client stands move
  rw [Ledger.leaving, Ledger.owe_nil] at step
  unfold Moves
  rw [result]
  exact .single step

/-- A client transaction speaks and stays where it stands. -/
theorem speaks (move : ClientMove leave standing (some standing) notes)
    (result : after.ledger = before.ledger.say notes) : Moves leave before after :=
  client stands move (by rw [result, Ledger.setClient_self stands])

/-- One move of a client that leaves. -/
theorem clientLeaves (move : ClientMove leave standing none notes) (result : after.ledger =
      ((before.ledger.setClient branch none).owe (owedBy standing.serial standing.answers)).say notes) :
    Moves leave before after := by
  unfold Moves
  rw [result]
  exact .single (.client stands move)

end

/-- One move of a server that stays. -/
theorem server {standing next : ServerStanding} (stands : before.ledger.servers key = some standing)
    (move : ServerMove standing (some next) notes)
    (result : after.ledger = (before.ledger.setServer key (some next)).say notes) : Moves leave before after := by
  have step := @Ledger.Step.server leave _ _ _ _ _ stands move
  rw [Ledger.leaving, Ledger.owe_nil] at step
  unfold Moves
  rw [result]
  exact .single step

/-- A server that stands may tell something. -/
theorem serverSpeaks {standing : ServerStanding} (stands : before.ledger.servers key = some standing)
    (move : ServerMove standing (some standing) notes)
    (result : after.ledger = before.ledger.say notes) : Moves leave before after :=
  server stands move (by rw [result, Ledger.setServer_self stands])

/-- A loop moves when each of its rounds does. -/
theorem foldl {Item : Type} {round : Owner → Item → Owner} (each : ∀ owner item, Moves leave owner (round owner item))
    (items : List Item) (owner : Owner) : Moves leave owner (items.foldl round owner) := by
  induction items generalizing owner with
  | nil => exact refl owner
  | cons item items ih => exact (each owner item).trans (ih _)

end Moves

variable {leave : ClientStanding → Prop}

/-- An event of no client transaction. -/
theorem emitCritical_moves {owner : Owner} : Moves leave owner (owner.emitCritical none event) := by
  unfold Moves
  rw [ledger_emitCritical]
  exact .single (.aside _ trivial)

theorem emit_moves {owner : Owner} : Moves leave owner (owner.emit none event).2 := by
  unfold Moves
  rw [ledger_emit]
  exact .single (.aside _ trivial)

/-- A client may be deleted where it may leave. -/
theorem deleteClient_moves {owner : Owner} (may : owner.MayLeave leave branch) :
    Moves leave owner (owner.deleteTxn (.client branch)).2 := by
  cases found : owner.clients.get branch with
  | none =>
    have absent : owner.txn (.client branch) = none := found
    exact .of_ledger (by rw [deleteTxn_none absent])
  | some txn =>
    refine .clientLeaves (ledger_client found) (.leaves (may _ (ledger_client found))) ?_
    rw [ledger_deleteTxn_client found, Ledger.say_nil]
    rfl

/-- A server may always be deleted. -/
theorem deleteServer_moves (owner : Owner) (key : ServerTxnKey) :
    Moves leave owner (owner.deleteTxn (.server key)).2 := by
  cases found : owner.servers.get key with
  | none =>
    have absent : owner.txn (.server key) = none := found
    exact .of_ledger (by rw [deleteTxn_none absent])
  | some txn =>
    have step := @Ledger.Step.server leave _ _ _ _ _ (ledger_server found) .leaves
    rw [Ledger.say_nil] at step
    unfold Moves
    rw [ledger_deleteTxn_server found]
    exact .single step

/-- A client may open where the one it displaces may leave. -/
theorem openClientTxn_moves {owner : Owner} (named : head.id = .client branch)
    (keeps : ∀ txn, (finish txn).id = txn.id)
    (fresh : owner.ledger.ClientFresh (finish (owner.freshTxn head)).clientStanding)
    (may : owner.MayLeave leave branch) :
    Moves leave owner (owner.openTxnWith head finish) := by
  unfold Moves
  rw [ledger_openTxnWith_client owner named keeps]
  exact .single (.clientOpens fresh may)

/-- A server may open. -/
theorem openServerTxn_moves {owner : Owner} (named : head.id = .server key) (keeps : ∀ txn, (finish txn).id = txn.id)
    (fresh : owner.ledger.ServerFresh (finish (owner.freshTxn head)).serverStanding []) :
    Moves leave owner (owner.openTxnWith head finish) := by
  have step := @Ledger.Step.serverOpens leave _ key _ _ fresh
  rw [Ledger.say_nil] at step
  unfold Moves
  rw [ledger_openTxnWith_server owner named keeps]
  exact .single step

end Owner

end SipServer.Txn
