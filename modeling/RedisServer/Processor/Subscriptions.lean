import RedisServer.Connections.Mirror
import RedisServer.Processor.Deliveries

/-!
# Subscriptions along a run

The worker touches the connections in a command, when a client arrives or leaves,
and in the recovery from a log; its passes over the queues leave them alone.  So
the two maps of the subscriptions mirror each other in every state that a run
reaches, and the counts in the acknowledgements are right.
-/

namespace RedisServer

open Resp Commands Aof Connections

variable {before after : Processor}

namespace Processor

variable {host : Host}

theorem mirrored_processCommand {env : CommandEnv} {clientId : ClientId} {command : Command}
    {source : CommandSource} {response : Response} (hmirrored : before.connections.Mirrored)
    (h : before.processCommand host env clientId command source = some (response, after)) :
    after.connections.Mirrored := by
  have hdelivery := delivery_processCommand h
  generalize after.connections = connections at hdelivery ⊢
  cases hdelivery with
  | apart _ => exact hmirrored
  | subscribed _ => exact hmirrored.subscribe _ clientId command
  | unsubscribed _ => exact hmirrored.unsubscribe _ clientId command
  | published _ => exact hmirrored.publish _ command
  | authenticated _ => exact hmirrored.authenticate host _ clientId command

theorem mirrored_processTask {env : Env} {task : Task} {before after : Processor}
    (hmirrored : before.connections.Mirrored) (h : before.processTask host env task = some after) :
    after.connections.Mirrored := by
  have hdelivery := delivery_processTask h
  generalize after.connections = connections at hdelivery
  cases hdelivery with
  | quiet _ => exact hmirrored
  | refused _ _ => exact hmirrored.enqueuePubsubResponse _ _ _
  | commanded _ hcommand => exact mirrored_processCommand hmirrored hcommand
  | answered _ _ hcommand =>
    exact (mirrored_processCommand hmirrored hcommand).enqueuePubsubResponse _ _ _

theorem mirrored_processAofInitialization {envs : Stream' CommandEnv} {file : AppendOnlyFile}
    {commands : List Command} {result : Except Bytes Unit} (hmirrored : before.connections.Mirrored)
    (h : before.processAofInitialization host envs file commands = some (result, after)) :
    after.connections.Mirrored := by
  obtain ⟨replayed, middle, log, hreplay, -, rfl⟩ := processAofInitialization_cases h
  have hmiddle := replay_invariant (fun state : Processor => state.connections.Mirrored)
    (fun _ hfirst hcommand => mirrored_processCommand hfirst hcommand) hmirrored hreplay
  exact hmiddle

end Processor

open Processor

theorem mirrored_perform {host : Host} {phase : Phase} (hmirrored : before.connections.Mirrored)
    (h : phase.perform host before = some after) : after.connections.Mirrored := by
  rcases perform_cases h with ⟨env, work, rfl, hwork⟩ | ⟨event, rfl, rfl⟩ | ⟨-, -, hpass⟩
  · cases work with
    | command clientId words source replicationBytes =>
      exact @mirrored_processTask host env _
        { before with nextPromise := before.nextPromise + 1 } after hmirrored hwork
    | unregisterClient clientId =>
      cases hwork
      have hsame := (attempts_cancelPendingCommands host clientId before).accounts.connections
      exact ((hsame ▸ hmirrored).unregister clientId).1
    | initializeAof file commands =>
      obtain ⟨⟨result, final⟩, hinit, rfl⟩ := Option.map_eq_some_iff.mp hwork
      exact mirrored_processAofInitialization hmirrored hinit
    | _ =>
      cases hwork
      exact hmirrored
  · obtain ⟨sessions, replication, hevent⟩ := external_perform_eq event before
    rw [hevent]
    exact hmirrored
  · exact hpass.accounts.connections ▸ hmirrored

theorem mirrored_run {host : Host} {phases : List Phase} (hmirrored : before.connections.Mirrored)
    (h : runPhases host phases before = some after) : after.connections.Mirrored :=
  Runs.run_invariant (fun _ _ _ (_ : True) hstate hstep => mirrored_perform hstate hstep)
    (fun _ _ => trivial) hmirrored h

theorem mirrored_start (role : ReplicationRole) (replicationId : Bytes) (defaultUser : User)
    (rdbConfig : RdbConfig) (aofConfig : AofConfig) :
    (Processor.start role replicationId defaultUser rdbConfig aofConfig).connections.Mirrored :=
  Index.Mirror.empty

/-- The frame that acknowledges an `UNSUBSCRIBE` without channels. -/
def Connections.farewell (clientId : ClientId) (connections : Connections) : Bytes :=
  if connections.channelsOf clientId = [] then
    acknowledgement (ascii "unsubscribe") .nullBulkString (connections.channelCount clientId)
  else
    acknowledgements (ascii "unsubscribe") clientId (Connections.unsubscribeAll clientId)
      (connections.channelsOf clientId) connections

/-- **The two maps of the subscriptions mirror each other in every reachable state**,
neither holds an empty set, and every acknowledgement counts the channels that its
client has at that point of its command. -/
theorem subscriptions_mirror (host : Host) (role : ReplicationRole) (replicationId : Bytes)
    (defaultUser : User) (rdbConfig : RdbConfig) (aofConfig : AofConfig) (phases : List Phase)
    {final : Processor}
    (hrun : runPhases host phases
      (Processor.start role replicationId defaultUser rdbConfig aofConfig) = some final) :
    (∀ clientId channel,
      clientId ∈ final.connections.subscribersOf channel ↔
        channel ∈ final.connections.channelsOf clientId) ∧
    (∀ channel, final.connections.channelSubscribers.lookup channel ≠ some []) ∧
    (∀ clientId, final.connections.clientSubscriptions.lookup clientId ≠ some []) ∧
    ∀ clientId client pending, final.connections.clients.lookup clientId = some client →
      final.connections.sessions.lookup client.pubsubSession = some pending →
      (∀ word channels, channels ≠ [] →
        (final.connections.subscribe none clientId (word :: channels)).2.sessions.lookup
            client.pubsubSession =
          some (pending ++ [acknowledgements (ascii "subscribe") clientId
            (Connections.subscribeAll clientId) channels final.connections])) ∧
      (∀ word channels, channels ≠ [] →
        (final.connections.unsubscribe none clientId (word :: channels)).2.sessions.lookup
            client.pubsubSession =
          some (pending ++ [acknowledgements (ascii "unsubscribe") clientId
            (Connections.unsubscribeAll clientId) channels final.connections])) ∧
      ∀ word, (final.connections.unsubscribe none clientId [word]).2.sessions.lookup
          client.pubsubSession =
        some (pending ++ [final.connections.farewell clientId]) := by
  have h : final.connections.Mirrored := mirrored_run (mirrored_start _ _ _ _ _) hrun
  refine ⟨fun clientId channel => (h.mem_iff clientId channel).symm,
    fun channel hempty => (h.tidy' channel [] hempty).1 rfl,
    fun clientId hempty => (h.tidy clientId [] hempty).1 rfl, ?_⟩
  intro clientId client pending hclient hsession
  refine ⟨fun word channels hchannels => ?_, fun word channels hchannels => ?_, fun word => ?_⟩
  · obtain ⟨channel, rest, rfl⟩ := List.exists_cons_of_ne_nil hchannels
    rw [Connections.subscribe, (sessions_acknowledge hclient hsession).2,
      (h.subscribeAll clientId _).2]
    exact AList.lookup_insert _
  · obtain ⟨channel, rest, rfl⟩ := List.exists_cons_of_ne_nil hchannels
    rw [Connections.unsubscribe, (sessions_acknowledge hclient hsession).2]
    simp only
    rw [(h.unsubscribeAll clientId _).2]
    exact AList.lookup_insert _
  · rw [Connections.unsubscribe, (sessions_acknowledge hclient hsession).2]
    simp only
    unfold farewell
    cases hlookup : final.connections.clientSubscriptions.lookup clientId with
    | none =>
      have hnone : final.connections.channelsOf clientId = [] := Index.members_of_none hlookup
      rw [if_pos hnone, h.count_eq, hnone]
      exact AList.lookup_insert _
    | some channels =>
      have hchannels : final.connections.channelsOf clientId = channels :=
        Index.members_of_lookup hlookup
      have hsome : channels ≠ [] := (h.tidy clientId channels hlookup).1
      rw [hchannels, if_neg hsome]
      obtain ⟨channel, rest, rfl⟩ := List.exists_cons_of_ne_nil hsome
      simp only
      rw [(h.unsubscribeAll clientId _).2]
      exact AList.lookup_insert _

/-- A client arrives and subscribes to two channels, one of them twice. -/
def subscribingRun : List Phase :=
  .external (.createSession 7) ::
    stillRun ⟨0, 0⟩
      [.registerClient 1 7,
        .ofClient 1 (["SUBSCRIBE", "news", "sport", "news"].map ascii)]

/-- The counts of the next acknowledgements are two and one. -/
theorem subscriptions_mirror_sample :
    ∃ (final : Processor) (client : ClientState) (pending : List Bytes),
      runPhases Host.plain subscribingRun
        (Processor.start .master [] (User.default none) {} {}) = some final ∧
      1 ∈ final.connections.subscribersOf (ascii "news") ∧
      ascii "news" ∈ final.connections.channelsOf 1 ∧
      (final.connections.unsubscribe none 1 (["UNSUBSCRIBE", "none", "news"].map ascii)).2.sessions.lookup
          client.pubsubSession =
        some (pending ++
          [acknowledgement (ascii "unsubscribe") (.bulkString (ascii "none")) 2 ++
            acknowledgement (ascii "unsubscribe") (.bulkString (ascii "news")) 1]) := by
  have hsample : ∃ final, runPhases Host.plain subscribingRun
      (Processor.start .master [] (User.default none) {} {}) = some final ∧
        1 ∈ final.connections.subscribersOf (ascii "news") ∧
        acknowledgements (ascii "unsubscribe") 1 (Connections.unsubscribeAll 1)
          (["none", "news"].map ascii) final.connections =
            acknowledgement (ascii "unsubscribe") (.bulkString (ascii "none")) 2 ++
              acknowledgement (ascii "unsubscribe") (.bulkString (ascii "news")) 1 ∧
        ∃ client, final.connections.clients.lookup 1 = some client ∧
          (final.connections.sessions.lookup client.pubsubSession).isSome = true := by
    decide +kernel
  obtain ⟨final, hrun, hmem, hcounts, client, hclient, hqueue⟩ := hsample
  obtain ⟨pending, hsession⟩ := Option.isSome_iff_exists.mp hqueue
  obtain ⟨hmirror, -, -, hframes⟩ := subscriptions_mirror Host.plain _ _ _ _ _ _ hrun
  obtain ⟨-, hleave, -⟩ := hframes 1 client pending hclient hsession
  refine ⟨final, client, pending, hrun, hmem, (hmirror 1 _).mp hmem, ?_⟩
  rw [← hcounts]
  exact hleave (ascii "UNSUBSCRIBE") (["none", "news"].map ascii) (by decide)

end RedisServer
