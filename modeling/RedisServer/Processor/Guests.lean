import RedisServer.Processor.Deliveries

/-!
# The clients of a replica

A replica processes the commands of its master under an id of its own, and it
refuses the writes of its clients.  So a client can make it look at keys, which
may remove expired entries, and can change what it keeps for this client; it
touches neither the log, nor the offset, nor what the link to the master has
queued, watches or waits for.  `Guest` says so for one step.
-/

namespace RedisServer

open Resp KeyedStore Commands Aof Replication Connections

variable {before after processor : Processor} {host : Host} {Timely : Clock → Prop} {task : Task}
  {clientId : ClientId} {env : Env}

/-- The entries that have expired may be removed by a look, each at its own time. -/
abbrev Looks (Timely : Clock → Prop) : Database → Database → Prop :=
  Relation.ReflTransGen fun before after =>
    ∃ clock, Timely clock ∧ Purges (Entry.expired clock) before after

/-- The event is a command that writes nothing. -/
def Event.Reads (host : Host) : Event → Prop
  | .executed command _ => isWriteCommand host command = false
  | .loaded _ => False

theorem Event.Reads.writes {event : Event} (h : event.Reads host) : event.writes host = [] := by
  cases event with
  | executed command response =>
    have hread : isWriteCommand host command = false := h
    simp [Event.writes, effective, hread]
  | loaded key => exact h.elim

/-- Commands that write nothing only look. -/
theorem History.looks {before after : Database} {events : List Event}
    (h : History host Timely before events after) (hreads : ∀ event ∈ events, event.Reads host) :
    Looks Timely before after := by
  induction h with
  | done _ => exact .refl
  | looked htimely hpurges _ ih => exact .head ⟨_, htimely, hpurges⟩ (ih hreads)
  | @executed clock command response before middle after events htimely hchange _ ih =>
    have hread : isWriteCommand host command = false :=
      hreads (.executed command response) (by simp)
    have hrest := ih fun event hevent => hreads event (by simp [hevent])
    cases hchange with
    | looked _ hpurges => exact .head ⟨_, htimely, hpurges⟩ hrest
    | wrote _ _ _ heffective _ _ _ _ => simp [effective, hread] at heffective
  | @loaded _ key _ _ _ _ _ _ _ _ => exact (hreads (.loaded key) (by simp)).elim

namespace Processor

/-- The id under which the commands of the master are processed. -/
def replicationClientId : ClientId := 0

end Processor

open Processor

namespace Task

/-- The command came through the link to the master. -/
structure FromLink (task : Task) : Prop where
  source : task.source = .master
  clientId : task.clientId = replicationClientId

/-- The command came from a client. -/
structure FromGuest (task : Task) : Prop where
  source : task.source = .client
  clientId : task.clientId ≠ replicationClientId

def isLink (task : Task) : Bool := decide (task.source = .master)

theorem FromGuest.isLink (h : task.FromGuest) : task.isLink = false := by
  simp [Task.isLink, h.source]

end Task

namespace Processor

variable {host : Host} {Timely : Clock → Prop}

/-- No client has queued a write. -/
def QueuesReads (host : Host) (processor : Processor) : Prop :=
  ∀ clientId transaction, clientId ≠ replicationClientId →
    processor.transactions.lookup clientId = some transaction →
    ∀ command ∈ transaction.commands, isWriteCommand host command = false

/-- **A replica that serves its clients**: they have queued no writes, only the link
is blocked in a `BLPOP`, and nobody in a `WAIT`. -/
structure Hosting (host : Host) (processor : Processor) : Prop where
  role : processor.replication.role = .replica
  queued : processor.QueuesReads host
  pops : ∀ pending ∈ processor.pendingListPops, pending.task.FromLink
  reads : ∀ pending ∈ processor.pendingStreamReads,
    pending.task.FromLink ∨ pending.task.FromGuest
  waits : processor.pendingWaits = []
  stranger : Stranger replicationClientId processor.connections

/-- **What a client can do to a replica.** -/
structure Guest (host : Host) (Timely : Clock → Prop) (before after : Processor) : Prop where
  looked : Looks Timely before.database after.database
  role : after.replication.role = before.replication.role
  replicationId : after.replication.replicationId = before.replication.replicationId
  offset : after.replication.offset = before.replication.offset
  aofFile : after.aofFile = before.aofFile
  appendErrors : after.appendErrors = before.appendErrors
  rdbConfig : after.rdbConfig = before.rdbConfig
  aofConfig : after.aofConfig = before.aofConfig
  transaction : after.transactions.lookup replicationClientId =
    before.transactions.lookup replicationClientId
  watched : after.watchedKeys.lookup replicationClientId =
    before.watchedKeys.lookup replicationClientId
  queued : before.QueuesReads host → after.QueuesReads host
  pops : after.pendingListPops = before.pendingListPops
  reads : after.pendingStreamReads.filter (·.task.isLink) =
    before.pendingStreamReads.filter (·.task.isLink)
  newReads : ∀ pending ∈ after.pendingStreamReads,
    pending ∈ before.pendingStreamReads ∨ pending.task.FromGuest
  waits : after.pendingWaits = before.pendingWaits
  stranger : Stranger replicationClientId before.connections →
    Stranger replicationClientId after.connections
  replies : ∃ answered, after.replies = before.replies ++ answered ∧
    ∀ reply ∈ answered, reply.task.isLink = false

theorem Hosting.guest (h : before.Hosting host) (hguest : Guest host Timely before after) :
    after.Hosting host where
  role := hguest.role.trans h.role
  queued := hguest.queued h.queued
  pops := hguest.pops ▸ h.pops
  reads pending hpending := (hguest.newReads pending hpending).elim (h.reads pending) .inr
  waits := hguest.waits.trans h.waits
  stranger := hguest.stranger h.stranger

namespace Guest

theorem refl (processor : Processor) : Guest host Timely processor processor where
  looked := .refl
  role := rfl
  replicationId := rfl
  offset := rfl
  aofFile := rfl
  appendErrors := rfl
  rdbConfig := rfl
  aofConfig := rfl
  transaction := rfl
  watched := rfl
  queued := id
  pops := rfl
  reads := rfl
  newReads _ := .inl
  waits := rfl
  stranger := id
  replies := ⟨[], by simp⟩

theorem trans {first second third : Processor} (h₁ : Guest host Timely first second)
    (h₂ : Guest host Timely second third) : Guest host Timely first third where
  looked := h₁.looked.trans h₂.looked
  role := h₂.role.trans h₁.role
  replicationId := h₂.replicationId.trans h₁.replicationId
  offset := h₂.offset.trans h₁.offset
  aofFile := h₂.aofFile.trans h₁.aofFile
  appendErrors := h₂.appendErrors.trans h₁.appendErrors
  rdbConfig := h₂.rdbConfig.trans h₁.rdbConfig
  aofConfig := h₂.aofConfig.trans h₁.aofConfig
  transaction := h₂.transaction.trans h₁.transaction
  watched := h₂.watched.trans h₁.watched
  queued := h₂.queued ∘ h₁.queued
  pops := h₂.pops.trans h₁.pops
  reads := h₂.reads.trans h₁.reads
  newReads pending hpending := (h₂.newReads pending hpending).elim (h₁.newReads pending) .inr
  waits := h₂.waits.trans h₁.waits
  stranger := h₂.stranger ∘ h₁.stranger
  replies := by
    obtain ⟨answered₁, hreplies₁, hguests₁⟩ := h₁.replies
    obtain ⟨answered₂, hreplies₂, hguests₂⟩ := h₂.replies
    refine ⟨answered₁ ++ answered₂, by rw [hreplies₂, hreplies₁, List.append_assoc], ?_⟩
    intro reply hreply
    exact (List.mem_append.mp hreply).elim (hguests₁ reply) (hguests₂ reply)

variable (processor : Processor)

/-! ### Single updates -/

theorem looks {database : Database} (hlooked : Looks Timely processor.database database)
    (events : List Event) :
    Guest host Timely processor { processor with database, events } :=
  { @refl host Timely processor with looked := hlooked }

theorem purges {clock : Clock} (htimely : Timely clock) {database : Database}
    (hpurges : Purges (Entry.expired clock) processor.database database) :
    Guest host Timely processor { processor with database } :=
  looks processor (.single ⟨_, htimely, hpurges⟩) processor.events

theorem connections {connections : Connections}
    (hstranger : Stranger replicationClientId processor.connections →
      Stranger replicationClientId connections) :
    Guest host Timely processor { processor with connections } :=
  { @refl host Timely processor with stranger := hstranger }

theorem defaultUser (defaultUser : User) :
    Guest host Timely processor { processor with defaultUser } :=
  { @refl host Timely processor with }

theorem nextPromise (nextPromise : ℕ) :
    Guest host Timely processor { processor with nextPromise } :=
  { @refl host Timely processor with }

theorem replication {replication : Replication}
    (hrole : replication.role = processor.replication.role)
    (hid : replication.replicationId = processor.replication.replicationId)
    (hoffset : replication.offset = processor.replication.offset) :
    Guest host Timely processor { processor with replication } :=
  { @refl host Timely processor with role := hrole, replicationId := hid, offset := hoffset }

theorem transactions {transactions : AList fun _ : ClientId => TransactionState}
    (hlink : transactions.lookup replicationClientId =
      processor.transactions.lookup replicationClientId)
    (hqueued : processor.QueuesReads host → { processor with transactions }.QueuesReads host) :
    Guest host Timely processor { processor with transactions } :=
  { @refl host Timely processor with transaction := hlink, queued := hqueued }

theorem watchedKeys {watchedKeys : AList fun _ : ClientId => AList fun _ : Bytes => ℕ}
    (hlink : watchedKeys.lookup replicationClientId =
      processor.watchedKeys.lookup replicationClientId) :
    Guest host Timely processor { processor with watchedKeys } :=
  { @refl host Timely processor with watched := hlink }

theorem fulfil (htask : task.isLink = false) (transaction : List Command) (response : Response) :
    Guest host Timely processor (processor.fulfil task transaction response) :=
  { @refl host Timely processor with replies := ⟨_, rfl, by simpa using htask⟩ }

theorem awaits {pending : PendingStreamRead} (hpending : pending.task.FromGuest) :
    Guest host Timely processor
      { processor with pendingStreamReads := processor.pendingStreamReads ++ [pending] } :=
  { @refl host Timely processor with
    reads := by simp [List.filter_append, hpending.isLink]
    newReads := by
      intro other hother
      rcases List.mem_append.mp hother with hother | hother
      · exact .inl hother
      · obtain rfl := List.mem_singleton.mp hother
        exact .inr hpending }

end Guest

/-! ## The transactions of the clients -/

theorem QueuesReads.insert (h : processor.QueuesReads host) {transaction : TransactionState}
    (hcommands : ∀ command ∈ transaction.commands, isWriteCommand host command = false) :
    { processor with
      transactions := processor.transactions.insert clientId transaction }.QueuesReads host := by
  intro other queued hother hlookup
  by_cases heq : other = clientId
  · subst heq
    simp only [AList.lookup_insert, Option.some.injEq] at hlookup
    subst hlookup
    exact hcommands
  · exact h other queued hother (by rwa [AList.lookup_insert_ne heq] at hlookup)

theorem QueuesReads.erase (h : processor.QueuesReads host) (clientId : ClientId) :
    { processor with
      transactions := processor.transactions.erase clientId }.QueuesReads host := by
  intro other queued hother hlookup
  by_cases heq : other = clientId
  · subst heq
    simp at hlookup
  · exact h other queued hother (by rwa [AList.lookup_erase_ne heq] at hlookup)

section Transactions

variable {clientId : ClientId} (hclient : clientId ≠ replicationClientId) (processor : Processor)
include hclient

theorem guest_insert {transaction : TransactionState}
    (hcommands : processor.QueuesReads host →
      ∀ command ∈ transaction.commands, isWriteCommand host command = false) :
    Guest host Timely processor
      { processor with transactions := processor.transactions.insert clientId transaction } :=
  .transactions processor (AList.lookup_insert_ne hclient.symm) fun h => h.insert (hcommands h)

theorem guest_erase :
    Guest host Timely processor
      { processor with transactions := processor.transactions.erase clientId } :=
  .transactions processor (AList.lookup_erase_ne hclient.symm) fun h => h.erase clientId

theorem guest_unwatch :
    Guest host Timely processor
      { processor with watchedKeys := processor.watchedKeys.erase clientId } :=
  .watchedKeys processor (AList.lookup_erase_ne hclient.symm)

end Transactions

/-! ## Commands -/

/-- The commands of a transaction write nothing, as events. -/
theorem reads_zipWith {commands : List Command} {responses : List Response}
    (hcommands : ∀ command ∈ commands, isWriteCommand host command = false) :
    ∀ event ∈ List.zipWith Event.executed commands responses, event.Reads host := by
  intro event hevent
  simp only [List.mem_iff_getElem, List.getElem_zipWith] at hevent
  obtain ⟨index, hindex, rfl⟩ := hevent
  exact hcommands _ (List.getElem_mem _)

section Command

variable {env : CommandEnv} (htimely : env.OnTime Timely) {clientId : ClientId}
  (hclient : clientId ≠ replicationClientId) {before : Processor} (hhosting : before.Hosting host)
include htimely hclient hhosting

theorem guest_exec {response : Response}
    (h : ExecOutcome host env clientId .client before response after) :
    Guest host Timely before after := by
  have hclosed : ∀ changed database,
      watchedKeyChanged (before.watchedBy clientId) env.watchClock before.database =
        (changed, database) →
      Guest host Timely before (before.closeTransaction clientId database) := by
    intro changed database hcheck
    have hhistory : History host Timely before.database [] _ :=
      history_watchedKeyChanged (before.watchedBy clientId) env.watchClock htimely.watchClock
        before.database
    rw [hcheck] at hhistory
    exact (Guest.looks before (hhistory.looks (by simp)) before.events).trans
      ((guest_erase hclient _).trans (guest_unwatch hclient _))
  cases h with
  | withoutMulti _ => exact .refl _
  | aborted _ hcheck _ => exact hclosed _ _ hcheck
  | conflicted _ hcheck _ => exact hclosed _ _ hcheck
  | empty _ hcheck _ _ => exact hclosed _ _ hcheck
  | @ran transaction database responses logged middle _ _ htransaction hcheck _ _ hexecute
      hpropagate =>
    -- The clients of a replica have queued no writes, so there is nothing to propagate.
    have hreads := @reads_zipWith host _ responses
      (hhosting.queued clientId transaction hclient htransaction)
    obtain ⟨final, rfl, hhistory, -, hlogged⟩ := executeCommands_spec htimely.clock hexecute
    have hnone : logged = [] := by
      rw [hlogged, List.flatMap_eq_nil_iff.mpr fun event hevent => (hreads event hevent).writes]
      exact ite_self _
    subst hnone
    rw [propagateTransaction, if_pos rfl] at hpropagate
    cases hpropagate
    exact (hclosed _ _ hcheck).trans (.looks _ (hhistory.looks hreads) _)

/-- **A command of a client that is no write.** -/
theorem guest_command {command : Command} (hread : isWriteCommand host command = false)
    {response : Response}
    (h : before.processCommand host env clientId command .client = some (response, after)) :
    Guest host Timely before after := by
  cases processCommand_cases h with
  | answered _ => exact .refl _
  | connected connections _ =>
    have hmoves : Moves clientId (fun _ => True) before.connections connections :=
      moves_processCommand announces_true h
    exact .connections before fun hstranger => hstranger.moves hmoves
  | changedUser defaultUser _ => exact .defaultUser before defaultUser
  | @watching keys watched database _ _ _ _ hwatch =>
    have hhistory : History host Timely before.database [] (watchKeys keys env.watchClock
        ((before.watchedKeys.lookup clientId).getD ∅) before.database).2 :=
      history_watchKeys _ _ htimely.watchClock _ _
    rw [hwatch] at hhistory
    have hlooked : Guest host Timely before { before with database } :=
      .looks before (hhistory.looks (by simp)) before.events
    exact hlooked.trans (.watchedKeys _ (AList.lookup_insert_ne hclient.symm))
  | unwatched _ _ => exact guest_unwatch hclient before
  | opened _ _ _ => exact guest_insert hclient before (by simp)
  | discarded _ _ _ => exact (guest_erase hclient before).trans (guest_unwatch hclient _)
  | transacted _ houtcome => exact guest_exec htimely hclient hhosting houtcome
  | @queued transaction _ htransaction =>
    refine guest_insert hclient before fun hqueued queued hmem => ?_
    rcases List.mem_append.mp hmem with hmem | hmem
    · exact hqueued clientId transaction hclient htransaction queued hmem
    · rwa [List.mem_singleton.mp hmem]
  | ran _ _ _ hrun =>
    obtain ⟨⟨reply, database⟩, hdispatch, hafter⟩ := Option.map_eq_some_iff.mp hrun
    cases hafter
    have hhistory : History host Timely before.database [.executed command response] database :=
      .executed (htimely.clock 0) (dispatch_cases hdispatch) (.done _)
    exact .looks before (hhistory.looks (by simpa [Event.Reads] using hread)) _

end Command

/-! ## Tasks -/

theorem XreadOutcome.guest (h : XreadOutcome env task before after) (htimely : env.OnTime Timely)
    (htask : task.FromGuest) : Guest host Timely before after := by
  have hclock := htimely.command.clock 0
  cases h with
  | refused _ => exact .fulfil before htask.isLink _ _
  | failed _ hread | found _ hread | nothing _ hread =>
    exact (Guest.purges before hclock (purges_of_read hread)).trans (.fulfil _ htask.isLink _ _)
  | waits _ hread _ =>
    exact (Guest.purges before hclock (purges_of_read hread)).trans (.awaits _ htask)

/-- **A task of a client.** -/
theorem guest_processTask (htimely : env.OnTime Timely) (htask : task.FromGuest)
    (hhosting : before.Hosting host) (h : before.processTask host env task = some after) :
    Guest host Timely before after := by
  have hmoves : Moves task.clientId (fun _ => True) before.connections after.connections :=
    moved_processTask h
  have hanswer : ∀ (state : Processor) transaction response,
      Guest host Timely state (state.fulfil task transaction response) :=
    fun state transaction response => .fulfil state htask.isLink transaction response
  cases processTask_cases h with
  | refused connections _ _ _ =>
    exact (Guest.connections before fun hstranger => hstranger.moves hmoves).trans (hanswer _ _ _)
  | rejected _ =>
    unfold rejectReplicaWrite
    cases htransaction : before.transactions.lookup task.clientId with
    | none => exact hanswer _ _ _
    | some transaction =>
      have hinsert : Guest host Timely before { before with
          transactions := before.transactions.insert task.clientId
            { transaction with hasError := true } } :=
        guest_insert htask.clientId before fun hqueued =>
          hqueued _ transaction htask.clientId htransaction
      exact hinsert.trans (hanswer _ _ _)
  | popped hname _ _ hserved =>
    have hwrite : isWriteCommand host task.command = true := isWriteCommand_of_name hname
    exact absurd ⟨hhosting.role, htask.source, hwrite⟩ hserved
  | read _ houtcome _ => exact houtcome.guest htimely htask
  | waited _ houtcome _ =>
    cases houtcome with
    | refused _ => exact hanswer _ _ _
    | answered _ hmaster _ | waits _ hmaster _ => cases hmaster.symm.trans hhosting.role
  | @direct response middle _ hcommand hserved =>
    have hread : isWriteCommand host task.command = false :=
      Bool.eq_false_iff.mpr fun hwrite => hserved ⟨hhosting.role, htask.source, hwrite⟩
    rw [htask.source] at hcommand
    have hguest := guest_command htimely.command htask.clientId hhosting hread hcommand
    rw [hread, Bool.and_false] at hmoves ⊢
    rw [propagateDirect_read] at hmoves ⊢
    have hend := finishTask_cases env.replyNotification task (before.transactionOf task)
      (!responseIsError response) response middle
    generalize Processor.finishTask env.replyNotification task _ _ response middle = after
      at hend hmoves ⊢
    cases hend with
    | replied hoffset _ =>
      obtain rfl := hoffset.resolve_right (by simp [htask.source])
      exact hguest.trans (hanswer _ _ _)
    | published _ _ _ =>
      obtain ⟨reply, -, hreply⟩ :=
        replyThroughPubsub_eq env.replyNotification task.clientId response middle
      generalize (middle.connections.enqueuePubsubResponse env.replyNotification task.clientId
        response).2 = connections at hreply
      rw [hreply] at hmoves ⊢
      -- The connections of a stranger survive both the command and its reply.
      have hconnections : Guest host Timely before { middle with connections } :=
        { hguest with stranger := fun hstranger => hstranger.moves hmoves }
      exact hconnections.trans (hanswer _ _ _)

/-! ## Departures -/

/-- Nobody but the departing client loses a blocked command. -/
theorem guest_cancelPendingCommands (hclient : clientId ≠ replicationClientId)
    (hhosting : processor.Hosting host) :
    Guest host Timely processor (processor.cancelPendingCommands clientId) := by
  have hpops : ∀ pending ∈ processor.pendingListPops, pending.task.clientId ≠ clientId := by
    intro pending hpending heq
    exact hclient (heq.symm.trans (hhosting.pops pending hpending).clientId)
  have hreads : ∀ pending ∈ processor.pendingStreamReads, pending.task.clientId = clientId →
      pending.task.isLink = false := by
    intro pending hpending heq
    rcases hhosting.reads pending hpending with hlink | hguest
    · exact absurd (heq.symm.trans hlink.clientId) hclient
    · exact hguest.isLink
  have hkept : processor.pendingListPops.filter
      (fun pending => !decide (pending.task.clientId = clientId)) = processor.pendingListPops :=
    List.filter_eq_self.mpr fun pending hpending => by simpa using hpops pending hpending
  rw [cancelPendingCommands_eq, hkept, hhosting.waits]
  exact
    { @Guest.refl host Timely processor with
      reads := by
        rw [List.filter_filter]
        refine List.filter_congr fun pending hpending => ?_
        by_cases heq : pending.task.clientId = clientId
        · simp [heq, hreads pending hpending heq]
        · simp [heq]
      newReads := fun pending hpending => .inl (List.mem_of_mem_filter hpending)
      waits := hhosting.waits.symm
      replies := by
        refine ⟨_, rfl, fun reply hreply => ?_⟩
        obtain ⟨task, htask, rfl⟩ := List.mem_map.mp hreply
        simp only [blockedTasks, hhosting.waits, List.mem_filter, List.mem_append, List.mem_map,
          List.map_nil, List.not_mem_nil, or_false, decide_eq_true_eq] at htask
        obtain ⟨⟨pending, hpending, rfl⟩ | ⟨pending, hpending, rfl⟩, heq⟩ := htask
        · exact absurd heq (hpops pending hpending)
        · exact hreads pending hpending heq }

theorem guest_processClientUnregistration (hclient : clientId ≠ replicationClientId)
    (hhosting : processor.Hosting host) :
    Guest host Timely processor (processor.processClientUnregistration clientId) := by
  refine (guest_cancelPendingCommands hclient hhosting).trans ?_
  unfold processClientUnregistration
  refine (Guest.connections _ fun hstranger => hstranger.unregister clientId).trans ?_
  refine (guest_erase hclient _).trans ((guest_unwatch hclient _).trans ?_)
  exact .replication _ rfl rfl rfl

end Processor

/-! ## Phases -/

/-- The task belongs to a client of the replica. -/
def ProcessorTask.IsGuest : ProcessorTask → Prop
  | .command clientId _ source _ => source = .client ∧ clientId ≠ replicationClientId
  | .registerClient clientId _ | .unregisterClient clientId => clientId ≠ replicationClientId
  | .registerReplica _ | .acknowledgeReplica _ _ => True
  | _ => False

/-- **Whatever a client asks for.** -/
theorem guest_task (htimely : env.OnTime Timely) {work : ProcessorTask} (hwork : work.IsGuest)
    (hhosting : before.Hosting host) (h : work.perform host env before = some after) :
    Guest host Timely before after := by
  cases work with
  | command clientId words source replicationBytes =>
    have hpromise : Guest host Timely before
        { before with nextPromise := before.nextPromise + 1 } := .nextPromise before _
    exact hpromise.trans (guest_processTask htimely ⟨hwork.1, hwork.2⟩
      (hhosting.guest hpromise) h)
  | registerReplica clientId =>
    cases h
    exact .replication before rfl rfl rfl
  | acknowledgeReplica clientId offset =>
    cases h
    exact .replication before rfl rfl rfl
  | registerClient clientId session =>
    cases h
    exact .connections before fun hstranger =>
      ⟨(AList.lookup_insert_ne (Ne.symm hwork)).trans hstranger.unregistered,
        hstranger.unsubscribed⟩
  | unregisterClient clientId =>
    cases h
    exact guest_processClientUnregistration hwork hhosting
  | _ => exact hwork.elim

/-- The threads of the connections touch sessions only. -/
theorem guest_external (event : External) (processor : Processor) :
    Guest host Timely processor (event.perform processor) := by
  have hsession : ∀ session update, Guest host Timely processor { processor with
      replication := processor.replication.updateSession session update } := by
    intro session update
    unfold Replication.updateSession
    split
    · exact .refl processor
    · exact .replication processor rfl rfl rfl
  have hconnections : ∀ sessions, Guest host Timely processor { processor with
      connections := { processor.connections with sessions } } :=
    fun sessions => .connections processor fun hstranger =>
      ⟨hstranger.unregistered, hstranger.unsubscribed⟩
  cases event with
  | createSession session =>
    simp only [External.perform]
    split
    · exact .refl processor
    · exact hconnections _
  | popFrame session =>
    simp only [External.perform]
    split
    · exact .refl processor
    · exact hconnections _
  | dropSession session => exact hconnections _
  | sendFrame session => exact hsession session _
  | closeReplica session => exact hsession session _
  | dropReplica session => exact .replication processor rfl rfl rfl

/-! ## Passes

While the link waits for nothing, the passes are the clients' business too. -/

namespace Processor

variable {host : Host} {Timely : Clock → Prop}

/-- The link waits for nothing. -/
structure LinkIdle (processor : Processor) : Prop where
  pops : processor.pendingListPops = []
  reads : ∀ pending ∈ processor.pendingStreamReads, pending.task.FromGuest

theorem LinkIdle.guest (h : before.LinkIdle) (hguest : Guest host Timely before after) :
    after.LinkIdle where
  pops := hguest.pops.trans h.pops
  reads pending hpending := (hguest.newReads pending hpending).elim (h.reads pending) id

theorem filter_isLink {pending : List PendingStreamRead}
    (h : ∀ item ∈ pending, item.task.FromGuest) : pending.filter (·.task.isLink) = [] :=
  List.filter_eq_nil_iff.mpr fun item hitem => by simp [(h item hitem).isLink]

/-- The clients' reads are replaced by others of theirs. -/
theorem LinkIdle.setReads (h : processor.LinkIdle) {pending : List PendingStreamRead}
    (hpending : ∀ item ∈ pending, item.task.FromGuest) :
    Guest host Timely processor { processor with pendingStreamReads := pending } :=
  { @Guest.refl host Timely processor with
    reads := by rw [filter_isLink hpending, filter_isLink h.reads]
    newReads := fun item hitem => .inr (hpending item hitem) }

theorem ReadRetry.guest {clock : Clock} (htimely : Timely clock) {pending : PendingStreamRead}
    (hpending : pending.task.FromGuest) {outcome : Option PendingStreamRead × Processor}
    (h : ReadRetry clock pending processor outcome) : Guest host Timely processor outcome.2 := by
  cases h with
  | failed hread | found hread =>
    exact (Guest.purges processor htimely (purges_of_read hread)).trans
      (.fulfil _ hpending.isLink _ _)
  | kept hread => exact .purges processor htimely (purges_of_read hread)

theorem guest_retryPendingStreamReads {clocks : Stream' Clock}
    (htimely : ∀ n, Timely (clocks.get n)) (hidle : processor.LinkIdle) :
    Guest host Timely processor (processor.retryPendingStreamReads clocks) := by
  have hscan : Guest host Timely processor
      (Scan.scan retryStreamRead clocks processor.pendingStreamReads processor).2 :=
    Scan.scan_relation Guest.refl (fun _ _ _ h₁ h₂ => h₁.trans h₂)
      (fun _ _ state hclock hpending => (retryStreamRead_cases _ _ state).guest hclock hpending)
      clocks htimely _ hidle.reads processor
  have hkept : ∀ kept ∈
      (Scan.scan retryStreamRead clocks processor.pendingStreamReads processor).1,
      kept.task.FromGuest := by
    refine Scan.mem_scan (fun clock pending state kept hpending hvisit => ?_) _ _ _ hidle.reads
    rw [((retryStreamRead_cases clock pending state).kept_eq hvisit).1]
    exact hpending
  exact hscan.trans ((hidle.guest hscan).setReads hkept)

theorem guest_expirePendingStreamReads (now : Int) (hidle : processor.LinkIdle) :
    Guest host Timely processor (processor.expirePendingStreamReads now) := by
  have hkept : ∀ pending ∈ processor.pendingStreamReads.filter
      (fun pending => !isOver now pending.deadline), pending.task.FromGuest :=
    fun pending hpending => hidle.reads pending (List.mem_of_mem_filter hpending)
  rw [expirePendingStreamReads, scan_expireIn]
  have hreplies : Guest host Timely processor { processor with
      replies := processor.replies ++ dismissals PendingStreamRead.task .nullArray
        (processor.pendingStreamReads.filter fun pending => isOver now pending.deadline) } := by
    refine { @Guest.refl host Timely processor with replies := ⟨_, rfl, fun reply hreply => ?_⟩ }
    obtain ⟨pending, hpending, rfl⟩ := List.mem_map.mp hreply
    exact (hidle.reads pending (List.mem_of_mem_filter hpending)).isLink
  exact hreplies.trans ((hidle.guest hreplies).setReads hkept)

end Processor

/-- The readings of the clocks in a phase. -/
def Phase.OnTime (Timely : Clock → Prop) : Phase → Prop
  | .task env _ => env.OnTime Timely
  | .retryListPops inputs => ∀ n, Timely (inputs.get n).1
  | .retryStreamReads clocks => ∀ n, Timely (clocks.get n)
  | _ => True

/-- No command of the master is processed in this phase. -/
def Phase.IsGuest : Phase → Prop
  | .task _ work => work.IsGuest
  | _ => True

/-- **A phase in which the link has no part.** -/
theorem guest_phase {phase : Phase} (htimely : phase.OnTime Timely) (hguest : phase.IsGuest)
    (hhosting : before.Hosting host) (hidle : before.LinkIdle)
    (h : phase.perform host before = some after) : Guest host Timely before after := by
  cases phase with
  | task env work => exact guest_task htimely hguest hhosting h
  | retryListPops inputs =>
    cases h
    simp only [retryPendingListPops, hidle.pops, Scan.scan_nil]
    exact { @Guest.refl host Timely before with pops := hidle.pops.symm }
  | retryStreamReads clocks =>
    cases h
    exact guest_retryPendingStreamReads htimely hidle
  | retryWaits =>
    cases h
    simp only [retryPendingWaits, hhosting.waits, Scan.scan_nil]
    exact { @Guest.refl host Timely before with waits := hhosting.waits.symm }
  | expireListPops now =>
    cases h
    simp only [expirePendingListPops, hidle.pops, Scan.scan_nil]
    exact { @Guest.refl host Timely before with pops := hidle.pops.symm }
  | expireStreamReads now =>
    cases h
    exact guest_expirePendingStreamReads now hidle
  | expireWaits now =>
    cases h
    simp only [expirePendingWaits, hhosting.waits, Scan.scan_nil]
    exact { @Guest.refl host Timely before with waits := hhosting.waits.symm }
  | external event =>
    cases h
    exact guest_external event before

/-- Phases in which the link has no part, one after the other. -/
theorem guest_run {phases : List Phase} (htimely : ∀ phase ∈ phases, phase.OnTime Timely)
    (hguests : ∀ phase ∈ phases, phase.IsGuest) (hhosting : before.Hosting host)
    (hidle : before.LinkIdle) (h : runPhases host phases before = some after) :
    Guest host Timely before after := by
  have hstep : ∀ (phase : Phase) (state next : Processor),
      (phase.OnTime Timely ∧ phase.IsGuest) → (state.Hosting host ∧ state.LinkIdle) →
      phase.perform host state = some next →
        (next.Hosting host ∧ next.LinkIdle) ∧ Guest host Timely state next := by
    rintro phase state next ⟨hclock, hphase⟩ ⟨hstate, hwaits⟩ hnext
    have hguest := guest_phase hclock hphase hstate hwaits hnext
    exact ⟨⟨hstate.guest hguest, hwaits.guest hguest⟩, hguest⟩
  exact (Runs.run_relation Guest.refl (fun _ _ _ h₁ h₂ => h₁.trans h₂) hstep
    (fun phase hphase => ⟨htimely phase hphase, hguests phase hphase⟩) ⟨hhosting, hidle⟩ h).2

end RedisServer
