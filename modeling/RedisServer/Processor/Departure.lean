import RedisServer.Processor.Guests
import RedisServer.Processor.Subscriptions

/-!
# A client leaves

What the processor keeps for a client is spread over ten containers.  When the
client is unregistered, all of them forget it (`Absent`), its blocked commands are
answered, and what they hold for anybody else stays as it was (`Untouched`).

The subscribers of a channel are found through the channels of the client only,
so that this rests on the two maps of the subscriptions mirroring each other.
-/

namespace RedisServer

open Resp Commands Aof Connections

namespace Processor

/-- **Nothing mentions the client.** -/
structure Absent (clientId : ClientId) (processor : Processor) : Prop where
  client : processor.connections.clients.lookup clientId = none
  subscriptions : processor.connections.clientSubscriptions.lookup clientId = none
  subscribers : ∀ channel, clientId ∉ processor.connections.subscribersOf channel
  transaction : processor.transactions.lookup clientId = none
  watchedKeys : processor.watchedKeys.lookup clientId = none
  writeOffset : processor.replication.clientWriteOffsets.lookup clientId = none
  acknowledgedOffset : processor.replication.acknowledgedOffsets.lookup clientId = none
  pops : ∀ pending ∈ processor.pendingListPops, pending.task.clientId ≠ clientId
  reads : ∀ pending ∈ processor.pendingStreamReads, pending.task.clientId ≠ clientId
  waits : ∀ pending ∈ processor.pendingWaits, pending.task.clientId ≠ clientId

/-- **The client has what it had**, its blocked commands in the same order. -/
structure Untouched (clientId : ClientId) (before after : Processor) : Prop where
  client : after.connections.clients.lookup clientId =
    before.connections.clients.lookup clientId
  subscriptions : after.connections.clientSubscriptions.lookup clientId =
    before.connections.clientSubscriptions.lookup clientId
  subscribers : ∀ channel, clientId ∈ after.connections.subscribersOf channel ↔
    clientId ∈ before.connections.subscribersOf channel
  transaction : after.transactions.lookup clientId = before.transactions.lookup clientId
  watchedKeys : after.watchedKeys.lookup clientId = before.watchedKeys.lookup clientId
  writeOffset : after.replication.clientWriteOffsets.lookup clientId =
    before.replication.clientWriteOffsets.lookup clientId
  acknowledgedOffset : after.replication.acknowledgedOffsets.lookup clientId =
    before.replication.acknowledgedOffsets.lookup clientId
  pops : after.pendingListPops.filter (fun pending => pending.task.clientId = clientId) =
    before.pendingListPops.filter fun pending => pending.task.clientId = clientId
  reads : after.pendingStreamReads.filter (fun pending => pending.task.clientId = clientId) =
    before.pendingStreamReads.filter fun pending => pending.task.clientId = clientId
  waits : after.pendingWaits.filter (fun pending => pending.task.clientId = clientId) =
    before.pendingWaits.filter fun pending => pending.task.clientId = clientId

section Unregistration

variable (clientId : ClientId) (processor : Processor)

/-- The departure, queue by queue. -/
theorem processClientUnregistration_eq :
    processor.processClientUnregistration clientId =
      { processor with
        pendingListPops := processor.pendingListPops.filter
          fun pending => !decide (pending.task.clientId = clientId)
        pendingStreamReads := processor.pendingStreamReads.filter
          fun pending => !decide (pending.task.clientId = clientId)
        pendingWaits := processor.pendingWaits.filter
          fun pending => !decide (pending.task.clientId = clientId)
        replies := processor.replies ++ (processor.blockedTasks clientId).map
          fun task => ⟨task, [], .noResponse⟩
        connections := processor.connections.unregister clientId
        transactions := processor.transactions.erase clientId
        watchedKeys := processor.watchedKeys.erase clientId
        replication := processor.replication.forgetClient clientId } := by
  rw [processClientUnregistration, cancelPendingCommands_eq]

/-- A queue keeps the commands of the others in their order. -/
theorem filter_other {Pending : Type} (taskOf : Pending → Task) {other : ClientId}
    (hother : other ≠ clientId) (items : List Pending) :
    (items.filter fun pending => !decide ((taskOf pending).clientId = clientId)).filter
        (fun pending => (taskOf pending).clientId = other) =
      items.filter fun pending => (taskOf pending).clientId = other := by
  rw [List.filter_filter]
  refine List.filter_congr fun pending _ => ?_
  by_cases heq : (taskOf pending).clientId = other
  · simp [heq, hother]
  · simp [heq]

end Unregistration

/-- **Unregistration leaves no trace and touches nobody else.** -/
theorem unregistration_leaves_no_trace (host : Host) (role : ReplicationRole)
    (replicationId : Bytes) (defaultUser : User) (rdbConfig : RdbConfig) (aofConfig : AofConfig)
    (phases : List Phase) {before : Processor}
    (hrun : runPhases host phases
      (Processor.start role replicationId defaultUser rdbConfig aofConfig) = some before)
    (clientId : ClientId) :
    (before.processClientUnregistration clientId).Absent clientId ∧
    (before.processClientUnregistration clientId).replies =
      before.replies ++ (before.blockedTasks clientId).map (fun task => ⟨task, [], .noResponse⟩) ∧
    (∀ other, other ≠ clientId →
      Untouched other before (before.processClientUnregistration clientId)) ∧
    (before.processClientUnregistration clientId).database = before.database := by
  have hmirrored : before.connections.Mirrored := mirrored_run (mirrored_start _ _ _ _ _) hrun
  obtain ⟨-, hsubscribers⟩ := hmirrored.unregister clientId
  obtain ⟨channelSubscribers, hunregister⟩ := unregister_eq clientId before.connections
  have hkept : ∀ {Pending : Type} (taskOf : Pending → Task) (items : List Pending),
      ∀ pending ∈ items.filter (fun pending => !decide ((taskOf pending).clientId = clientId)),
        (taskOf pending).clientId ≠ clientId := by
    intro Pending taskOf items pending hpending
    simpa using (List.mem_filter.mp hpending).2
  rw [processClientUnregistration_eq]
  refine ⟨?_, rfl, fun other hother => ?_, rfl⟩
  · exact {
      client := by simp only [hunregister, AList.lookup_erase]
      subscriptions := by simp only [hunregister, AList.lookup_erase]
      subscribers := fun channel hmem => ((hsubscribers channel clientId).mp hmem).2 rfl
      transaction := AList.lookup_erase _ _
      watchedKeys := AList.lookup_erase _ _
      writeOffset := AList.lookup_erase _ _
      acknowledgedOffset := AList.lookup_erase _ _
      pops := hkept _ _
      reads := hkept _ _
      waits := hkept _ _ }
  · exact {
      client := by simp only [hunregister, AList.lookup_erase_ne hother]
      subscriptions := by simp only [hunregister, AList.lookup_erase_ne hother]
      subscribers := fun channel =>
        (hsubscribers channel other).trans ⟨And.left, fun hmem => ⟨hmem, hother⟩⟩
      transaction := AList.lookup_erase_ne hother
      watchedKeys := AList.lookup_erase_ne hother
      writeOffset := AList.lookup_erase_ne hother
      acknowledgedOffset := AList.lookup_erase_ne hother
      pops := filter_other clientId _ hother _
      reads := filter_other clientId _ hother _
      waits := filter_other clientId _ hother _ }

/-- One client listens to a channel, another one waits for a list. -/
def departingRun : List Phase :=
  .external (.createSession 7) :: .external (.createSession 8) ::
    stillRun ⟨0, 0⟩
      [.registerClient 1 7, .registerClient 2 8,
        .ofClient 1 (["SUBSCRIBE", "news"].map ascii),
        .ofClient 2 (["BLPOP", "jobs", "0"].map ascii)]

/-- The second client leaves, and the first one stays on its channel. -/
theorem unregistration_leaves_no_trace_waiting :
    ∃ before : Processor,
      runPhases Host.plain departingRun (Processor.start .master [] (User.default none) {} {}) =
        some before ∧
      (before.blockedTasks 2).length = 1 ∧
      1 ∈ before.connections.subscribersOf (ascii "news") ∧
      (before.processClientUnregistration 2).Absent 2 ∧
      1 ∈ (before.processClientUnregistration 2).connections.subscribersOf (ascii "news") := by
  have hsample : ∃ before, runPhases Host.plain departingRun
      (Processor.start .master [] (User.default none) {} {}) = some before ∧
        (before.blockedTasks 2).length = 1 ∧
        1 ∈ before.connections.subscribersOf (ascii "news") := by
    decide +kernel
  obtain ⟨before, hrun, hblocked, hmem⟩ := hsample
  obtain ⟨habsent, -, hothers, -⟩ :=
    unregistration_leaves_no_trace Host.plain _ _ _ _ _ _ hrun 2
  exact ⟨before, hrun, hblocked, hmem, habsent,
    ((hothers 1 (by decide)).subscribers _).mpr hmem⟩

end Processor

end RedisServer
