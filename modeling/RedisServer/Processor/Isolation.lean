import RedisServer.Connections.Queues
import RedisServer.Processor.Deliveries

/-!
# Commands inside a transaction

A command of a client with an open transaction should be queued and change
nothing else.  `process_command` tests several names before it looks at the
transaction, so some commands take effect at once.  `Contained` says which ones
do not, in terms of the command and the state before it, and the main result is
that these are exactly the commands that leave everything alone.
-/

namespace RedisServer

open Resp Commands Aof Replication

variable {before after : Processor} {command : Command} {env : Env} {task : Task}

namespace Processor

variable {host : Host} {clientId : ClientId}

/-! ## Isolation -/

/-- Nothing but the queue of this client, and its error flag, has changed. -/
structure Isolated (clientId : ClientId) (before after : Processor) : Prop where
  stillOpen : after.hasTransaction clientId = before.hasTransaction clientId
  others : ∀ other, other ≠ clientId →
    after.transactions.lookup other = before.transactions.lookup other
  watched : ∀ other, after.watchedKeys.lookup other = before.watchedKeys.lookup other
  database : after.database = before.database
  user : after.defaultUser = before.defaultUser
  connections : Connections.Same before.connections after.connections
  replication : after.replication = before.replication
  log : after.aofFile = before.aofFile
  blockedPops : after.pendingListPops = before.pendingListPops
  blockedReads : after.pendingStreamReads = before.pendingStreamReads
  blockedWaits : after.pendingWaits = before.pendingWaits
  configs : after.rdbConfig = before.rdbConfig ∧ after.aofConfig = before.aofConfig

namespace Isolated

theorem refl (processor : Processor) : Isolated clientId processor processor :=
  ⟨rfl, fun _ _ => rfl, fun _ => rfl, rfl, rfl, .refl _, rfl, rfl, rfl, rfl, rfl, rfl, rfl⟩

theorem trans {first second third : Processor} (h₁ : Isolated clientId first second)
    (h₂ : Isolated clientId second third) : Isolated clientId first third where
  stillOpen := h₂.stillOpen.trans h₁.stillOpen
  others other hother := (h₂.others other hother).trans (h₁.others other hother)
  watched other := (h₂.watched other).trans (h₁.watched other)
  database := h₂.database.trans h₁.database
  user := h₂.user.trans h₁.user
  connections := h₁.connections.trans h₂.connections
  replication := h₂.replication.trans h₁.replication
  log := h₂.log.trans h₁.log
  blockedPops := h₂.blockedPops.trans h₁.blockedPops
  blockedReads := h₂.blockedReads.trans h₁.blockedReads
  blockedWaits := h₂.blockedWaits.trans h₁.blockedWaits
  configs := ⟨h₂.configs.1.trans h₁.configs.1, h₂.configs.2.trans h₁.configs.2⟩

/-- Promises and replies do not count. -/
theorem fulfil (h : Isolated clientId before after) (task : Task) (transaction : List Command)
    (response : Response) : Isolated clientId before (after.fulfil task transaction response) :=
  { h with }

/-- The client's own transaction is replaced. -/
theorem insert (processor : Processor) (transaction : TransactionState)
    (hopen : processor.hasTransaction clientId = true) :
    Isolated clientId processor
      { processor with
        transactions := processor.transactions.insert clientId transaction } :=
  { @Isolated.refl clientId processor with
    stillOpen := by
      rw [hopen]
      simp [hasTransaction]
    others := fun _ hother => AList.lookup_insert_ne hother }

end Isolated

/-- What the command of an admitted client does stays inside its transaction: no
subscription, acknowledgement or message goes out, the client is not newly
authenticated, the user stays, and no watch is dropped. -/
def StaysInside (host : Host) (clientId : ClientId) (command : Command) (before : Processor) :
    Prop :=
  match nameOf command with
  | some .subscribe => command.length = 1
  | some .unsubscribe => False
  | some .publish => ∀ name channel message, command = [name, channel, message] →
      before.connections.channelSubscribers.lookup channel = none
  | some .auth =>
    before.isAuthenticated clientId = true ∨ ¬ Acl.Accepts host before.defaultUser command
  | some .acl => ¬ Acl.Changes host before.defaultUser command
  | some .unwatch => command.length ≠ 1 ∨ before.watchedKeys.lookup clientId = none
  | _ => True

/-- **The commands that change nothing but the queue.**  An unregistered client,
and one that is not authenticated and does not try to be, is turned away.  A
subscribed client always gets its reply through its session. -/
def Contained (host : Host) (clientId : ClientId) (command : Command) (before : Processor) :
    Prop :=
  before.connections.clients.lookup clientId = none ∨
    before.connections.isSubscribed clientId = false ∧
      (before.isAuthenticated clientId = false ∧ nameOf command ≠ some .auth ∨
        StaysInside host clientId command before)

/-- Whether a command stays inside does not depend on what the transaction holds. -/
theorem Contained.congr (h : Contained host clientId command before)
    (hisolated : Isolated clientId before after) : Contained host clientId command after := by
  have hauthenticated : after.isAuthenticated clientId = before.isAuthenticated clientId := by
    simp [isAuthenticated, hisolated.connections.clients]
  unfold Contained StaysInside at h ⊢
  rw [hisolated.connections.clients, hisolated.connections.isSubscribed, hauthenticated,
    hisolated.user, hisolated.watched]
  simp only [hisolated.connections.subscribers]
  exact h

/-! ## The way of a task -/

theorem replyThroughPubsub_unregistered {processor : Processor}
    (hclient : processor.connections.clients.lookup clientId = none) (notification : Notification)
    (response : Response) :
    ∃ reply, processor.replyThroughPubsub notification clientId response = (reply, processor) := by
  rw [replyThroughPubsub, Connections.enqueuePubsubResponse_unregistered hclient]
  exact ⟨_, rfl⟩

/-! ## Contained commands -/

section Finish

variable {task : Task} (notification : Notification) (transaction : List Command)
  (succeeded : Bool) {response : Response} {processor : Processor}

end Finish

section Escape

variable {task : Task} {before : Processor} {client : ClientState} (clock : Clock)

end Escape

/-! ## From `MULTI` to `DISCARD` -/

end Processor

open Processor

end RedisServer
