import RedisServer.Processor.Guests
import RedisServer.Processor.Outsiders
import RedisServer.Server.Connection

/-!
# The authentication gate

`process_task` refuses every command but `AUTH` of a client that has not
authenticated.  The connection loop comes before it, though: a `PSYNC` of three words
is not submitted at all.  The connection is unregistered as a client and registered
as a replica, and what it sends from then on are acknowledgements.

The server here is the processor together with the threads of its connections, which
act in any order.  A connection that was accepted under a password is sealed off
(`Sealed`) as long as it has not authenticated and sends no such `PSYNC`, and the
`PSYNC` opens the seal.
-/

namespace RedisServer.Server

open Resp Commands Processor

variable {server next scripted final : TcpServer} {phases : List Phase} {steps : List Step}
  {env : Env}

/-! ## The server -/

/-- Where the thread of a connection is in `handle_connection`. -/
inductive Stage where
  | serving
  /-- No longer registered as a client, and not yet as a replica. -/
  | enlisting
  | replicating (session : SessionId)
deriving DecidableEq, Repr

/-- The processor and the connections that are open.  A connection owns one Pub/Sub
session, which is known by the id of its client. -/
structure TcpServer where
  processor : Processor
  stages : AList fun _ : ClientId => Stage := ∅
  nextClientId : ClientId := 1

/-- What `consume_replica_acknowledgements` takes from a command. -/
def acknowledgedOffset (command : Command) : Option ℕ :=
  match command with
  | [name, kind, offset] =>
    if name = CommandName.replconf.text ∧ kind = ascii "ACK" then parseUnsigned offset else none
  | _ => none

inductive Step where
  | accept (env : Env)
  /-- A connection has parsed a complete command. -/
  | receive (env : Env) (clientId : ClientId) (command : Command)
  /-- A connection that has received a `PSYNC` becomes a replica. -/
  | enlist (env : Env) (clientId : ClientId)
  /-- A connection takes a frame from its Pub/Sub session and sends it. -/
  | popFrame (clientId : ClientId)
  | close (env : Env) (clientId : ClientId)
  /-- The thread of a closed connection ends, and with it the Pub/Sub session. -/
  | drop (clientId : ClientId)
  /-- The worker goes through its queues, the link to the master or a sending thread
  acts; before the first connection, the data is recovered. -/
  | work (phase : Phase)

namespace TcpServer

/-- A phase that no connection asks for. -/
def isInternal (server : TcpServer) : Phase → Bool
  | .task _ (.command clientId _ source _) => clientId = replicationClientId && source = .master
  | .task _ (.installReplicationState _ _) | .task _ .getReplicationOffset => true
  | .task _ (.loadRdb _) | .task _ (.initializeAof _ _) => server.nextClientId = 1
  | .task _ _ => false
  | .external (.sendFrame _) | .external (.closeReplica _) | .external (.dropReplica _) => true
  | .external _ => false
  | _ => true

def enter (clientId : ClientId) (stage : Stage) (server : TcpServer) : TcpServer :=
  { server with stages := server.stages.insert clientId stage }

/-- The end of `handle_connection`, from any stage. -/
def leave (env : Env) (clientId : ClientId) (stage : Stage) (server : TcpServer) :
    List Phase × TcpServer :=
  let unregister : Phase := .task env (.unregisterClient clientId)
  (match stage with
    | .serving | .enlisting => [unregister]
    | .replicating session => [.external (.closeReplica session), unregister],
    { server with stages := server.stages.erase clientId })

end TcpServer

/-- What a step has the processor do, and what becomes of the connections. -/
def Step.script (server : TcpServer) : Step → Option (List Phase × TcpServer)
  | .accept env =>
    let clientId := server.nextClientId
    some ([.external (.createSession clientId), .task env (.registerClient clientId clientId)],
      { server.enter clientId .serving with nextClientId := clientId + 1 })
  | .receive env clientId command =>
    match server.stages.lookup clientId with
    | some .serving =>
      if startsReplication command then
        some ([.task env (.unregisterClient clientId)], server.enter clientId .enlisting)
      else some ([.task env (.ofClient clientId command)], server)
    | some (.replicating session) =>
      match acknowledgedOffset command with
      | some offset => some ([.task env (.acknowledgeReplica clientId offset)], server)
      | none => some (server.leave env clientId (.replicating session))
    | _ => none
  | .enlist env clientId =>
    if server.stages.lookup clientId = some .enlisting then
      some ([.task env (.registerReplica clientId)],
        server.enter clientId (.replicating server.processor.replication.nextSession))
    else none
  | .popFrame clientId =>
    if server.stages.lookup clientId = some .serving then
      some ([.external (.popFrame clientId)], server)
    else none
  | .close env clientId =>
    (server.stages.lookup clientId).map fun stage => server.leave env clientId stage
  | .drop clientId =>
    if server.stages.lookup clientId = none ∧ clientId < server.nextClientId then
      some ([.external (.dropSession clientId)], server)
    else none
  | .work phase => if server.isInternal phase then some ([phase], server) else none

def Step.perform (host : Host) (step : Step) (server : TcpServer) : Option TcpServer :=
  (step.script server).bind fun (phases, server) =>
    (runPhases host phases server.processor).map fun processor => { server with processor }

/-- The connection whose thread takes the step. -/
def Step.actor (server : TcpServer) : Step → Option ClientId
  | .accept _ => some server.nextClientId
  | .receive _ clientId _ | .enlist _ clientId | .popFrame clientId | .close _ clientId
  | .drop clientId => some clientId
  | .work _ => none

theorem Step.perform_cases {host : Host} {step : Step} (h : step.perform host server = some next) :
    ∃ phases scripted, step.script server = some (phases, scripted) ∧
      runPhases host phases scripted.processor = some next.processor ∧
      next = { scripted with processor := next.processor } := by
  obtain ⟨⟨phases, scripted⟩, hscript, hrun⟩ := Option.bind_eq_some_iff.mp h
  obtain ⟨processor, hprocessor, rfl⟩ := Option.map_eq_some_iff.mp hrun
  exact ⟨phases, scripted, hscript, hprocessor, rfl⟩

/-! ## The steps of others -/

variable {host : Host} {clientId : ClientId}

/-- The processor is not asked to do anything for a connection but by itself. -/
theorem spares_script {step : Step} (hactor : step.actor server ≠ some clientId)
    (hlink : clientId ≠ replicationClientId)
    (hscript : step.script server = some (phases, scripted)) :
    ∀ phase ∈ phases, ∀ processor : Processor,
      (server.nextClientId = 1 → processor.connections.clients.lookup clientId = none) →
        phase.Spares clientId processor := by
  have hother : ∀ {other}, some other ≠ some clientId → other ≠ clientId :=
    fun hne heq => hne (congrArg some heq)
  have hleave : ∀ env other stage, other ≠ clientId → ∀ phase ∈ (server.leave env other stage).1,
      ∀ processor, phase.Spares clientId processor := by
    intro env other stage hne phase hphase processor
    unfold TcpServer.leave at hphase
    cases stage with
    | serving | enlisting =>
      obtain rfl := List.mem_singleton.mp hphase
      exact hne
    | replicating session =>
      rcases List.mem_cons.mp hphase with rfl | hphase
      · trivial
      · obtain rfl := List.mem_singleton.mp hphase
        exact hne
  intro phase hphase processor hrecovery
  cases step with
  | accept env =>
    have hne := hother hactor
    cases hscript
    simp only [List.mem_cons, List.not_mem_nil, or_false] at hphase
    rcases hphase with rfl | rfl
    · exact hne
    · exact ⟨hne, rfl⟩
  | receive env other command =>
    have hne := hother hactor
    simp only [Step.script] at hscript
    split at hscript
    · split at hscript <;> cases hscript <;> obtain rfl := List.mem_singleton.mp hphase <;>
        exact hne
    · split at hscript
      · cases hscript
        obtain rfl := List.mem_singleton.mp hphase
        trivial
      · rename_i session _ _ _
        have heq := congrArg Prod.fst (Option.some.inj hscript)
        exact hleave env other (.replicating session) hne phase (heq ▸ hphase) processor
    · cases hscript
  | enlist env other =>
    have hne := hother hactor
    simp only [Step.script] at hscript
    split at hscript <;> cases hscript
    obtain rfl := List.mem_singleton.mp hphase
    exact hne
  | popFrame other =>
    have hne := hother hactor
    simp only [Step.script] at hscript
    split at hscript <;> cases hscript
    obtain rfl := List.mem_singleton.mp hphase
    exact hne
  | close env other =>
    have hne := hother hactor
    obtain ⟨stage, -, heq⟩ := Option.map_eq_some_iff.mp hscript
    exact hleave env other stage hne phase (congrArg Prod.fst heq ▸ hphase) processor
  | drop other =>
    have hne := hother hactor
    simp only [Step.script] at hscript
    split at hscript <;> cases hscript
    obtain rfl := List.mem_singleton.mp hphase
    exact hne
  | work internal =>
    simp only [Step.script] at hscript
    split at hscript <;> cases hscript
    rename_i hinternal
    obtain rfl := List.mem_singleton.mp hphase
    unfold TcpServer.isInternal at hinternal
    split at hinternal
    · -- The link to the master has an id that no connection gets.
      simp only [Bool.and_eq_true, decide_eq_true_eq] at hinternal
      exact hinternal.1 ▸ hlink.symm
    · trivial
    · trivial
    · trivial
    · exact hrecovery (of_decide_eq_true hinternal)
    · cases hinternal
    · trivial
    · trivial
    · trivial
    · cases hinternal
    · unfold Phase.Spares
      split <;> simp_all

theorem processor_script {step : Step} (hscript : step.script server = some (phases, scripted)) :
    scripted.processor = server.processor := by
  cases step with
  | receive env other command =>
    simp only [Step.script] at hscript
    split at hscript
    · split at hscript <;> cases hscript <;> rfl
    · split at hscript <;> cases hscript <;> rfl
    · cases hscript
  | close env other =>
    obtain ⟨stage, -, heq⟩ := Option.map_eq_some_iff.mp hscript
    cases heq
    rfl
  | accept env =>
    cases hscript
    rfl
  | enlist env other | popFrame other | drop other | work internal =>
    simp only [Step.script] at hscript
    split at hscript <;> cases hscript
    rfl

theorem spared_step {step : Step} (h : server.processor.Outside clientId)
    (hactor : step.actor server ≠ some clientId) (hlink : clientId ≠ replicationClientId)
    (hrecovery : server.nextClientId = 1 →
      server.processor.connections.clients.lookup clientId = none)
    (hstep : step.perform host server = some next) :
    Spared clientId server.processor next.processor := by
  obtain ⟨phases, scripted, hscript, hrun, -⟩ := Step.perform_cases hstep
  rw [processor_script hscript] at hrun
  refine spared_run h (fun phase hphase processor hunregistered => ?_) hrun
  exact spares_script hactor hlink hscript phase hphase processor
    fun hfirst => hunregistered (hrecovery hfirst)

/-- A step changes the stage of its own connection, which the server knows. -/
theorem stages_script {step : Step} (hscript : step.script server = some (phases, scripted)) :
    server.nextClientId ≤ scripted.nextClientId ∧
      (∀ other, step.actor server ≠ some other →
        scripted.stages.lookup other = server.stages.lookup other) ∧
      ∀ actor, step.actor server = some actor →
        actor < scripted.nextClientId ∨ ∃ stage, server.stages.lookup actor = some stage := by
  have hne : ∀ {actor other : ClientId}, some actor ≠ some other → other ≠ actor :=
    fun hne heq => hne (congrArg some heq.symm)
  cases step with
  | accept env =>
    cases hscript
    refine ⟨Nat.le_succ _, fun other hother => AList.lookup_insert_ne (hne hother), ?_⟩
    rintro _ ⟨⟩
    exact .inl (Nat.lt_succ_self _)
  | receive env actor command =>
    simp only [Step.script] at hscript
    split at hscript
    · rename_i hstage
      split at hscript <;> cases hscript
      · exact ⟨le_rfl, fun other hother => AList.lookup_insert_ne (hne hother),
          by rintro _ ⟨⟩; exact .inr ⟨_, hstage⟩⟩
      · exact ⟨le_rfl, fun _ _ => rfl, by rintro _ ⟨⟩; exact .inr ⟨_, hstage⟩⟩
    · rename_i hstage
      split at hscript <;> cases hscript
      · exact ⟨le_rfl, fun _ _ => rfl, by rintro _ ⟨⟩; exact .inr ⟨_, hstage⟩⟩
      · exact ⟨le_rfl, fun other hother => AList.lookup_erase_ne (hne hother),
          by rintro _ ⟨⟩; exact .inr ⟨_, hstage⟩⟩
    · cases hscript
  | enlist env actor =>
    simp only [Step.script] at hscript
    split at hscript <;> cases hscript
    rename_i hstage
    exact ⟨le_rfl, fun other hother => AList.lookup_insert_ne (hne hother),
      by rintro _ ⟨⟩; exact .inr ⟨_, hstage⟩⟩
  | popFrame actor =>
    simp only [Step.script] at hscript
    split at hscript <;> cases hscript
    rename_i hstage
    exact ⟨le_rfl, fun _ _ => rfl, by rintro _ ⟨⟩; exact .inr ⟨_, hstage⟩⟩
  | close env actor =>
    obtain ⟨stage, hstage, heq⟩ := Option.map_eq_some_iff.mp hscript
    cases heq
    exact ⟨le_rfl, fun other hother => AList.lookup_erase_ne (hne hother),
      by rintro _ ⟨⟩; exact .inr ⟨_, hstage⟩⟩
  | drop actor =>
    simp only [Step.script] at hscript
    split at hscript <;> cases hscript
    rename_i hclosed
    exact ⟨le_rfl, fun _ _ => rfl, by rintro _ ⟨⟩; exact .inl hclosed.2⟩
  | work phase =>
    simp only [Step.script] at hscript
    split at hscript <;> cases hscript
    exact ⟨le_rfl, fun _ _ => rfl, by rintro _ ⟨⟩⟩

/-! ## Connections to come -/

/-- Nothing is known of the clients that have not connected yet. -/
structure Pristine (server : TcpServer) : Prop where
  known : ∀ clientId stage, server.stages.lookup clientId = some stage →
    clientId < server.nextClientId
  positive : replicationClientId < server.nextClientId
  fresh : ∀ clientId, server.nextClientId ≤ clientId →
    server.processor.Outside clientId ∧
      server.processor.connections.clients.lookup clientId = none

theorem Pristine.step {step : Step} (h : Pristine server)
    (hstep : step.perform host server = some next) : Pristine next := by
  obtain ⟨phases, scripted, hscript, -, hnext⟩ := Step.perform_cases hstep
  obtain ⟨hgrows, hstages, hactor⟩ := stages_script hscript
  have hid : next.nextClientId = scripted.nextClientId := by rw [hnext]
  have hactor' : ∀ actor, step.actor server = some actor → actor < next.nextClientId := by
    intro actor hself
    rw [hid]
    rcases hactor actor hself with hlt | ⟨stage, hstage⟩
    · exact hlt
    · exact (h.known actor stage hstage).trans_le hgrows
  refine ⟨fun clientId stage hstage => ?_, ?_, fun clientId hle => ?_⟩
  · by_cases hself : step.actor server = some clientId
    · exact hactor' clientId hself
    · rw [hnext] at hstage
      rw [hid]
      exact (h.known clientId stage ((hstages clientId hself).symm.trans hstage)).trans_le hgrows
  · rw [hid]
    exact h.positive.trans_le hgrows
  · have hle' : server.nextClientId ≤ clientId := hgrows.trans (hid ▸ hle)
    obtain ⟨houtside, hunregistered⟩ := h.fresh clientId hle'
    have hspared : Spared clientId server.processor next.processor :=
      spared_step houtside (fun hself => (hactor' clientId hself).not_ge hle)
        (h.positive.trans_le hle').ne' (fun _ => hunregistered) hstep
    exact ⟨hspared.outside, hspared.unregistered hunregistered⟩

theorem Pristine.run (h : Pristine server)
    (hrun : Runs.run (Step.perform host) steps server = some final) : Pristine final :=
  Runs.run_invariant (fun _ _ _ (_ : True) hpristine hnext => hpristine.step hnext)
    (fun _ _ => trivial) h hrun

theorem pristine_start (role : ReplicationRole) (replicationId : Bytes) (defaultUser : User)
    (rdbConfig : RdbConfig) (aofConfig : AofConfig) :
    Pristine { processor := .start role replicationId defaultUser rdbConfig aofConfig } where
  known _ _ hstage := by cases hstage
  positive := Nat.zero_lt_one
  fresh clientId _ := by
    refine ⟨⟨⟨?_, ?_, rfl, ?_⟩, ?_, ?_⟩, rfl⟩
    · exact fun _ hclient => by cases hclient
    · exact fun _ _ hclient => by cases hclient
    · rintro ⟨_, _, hlookup, -⟩
      cases hlookup
    · exact fun _ htask => by cases htask
    · exact fun _ _ hfound => by cases hfound

/-! ## The seal -/

/-- What the clients of a server share has not changed. -/
structure Undisturbed (before after : Processor) : Prop where
  database : after.database = before.database
  defaultUser : after.defaultUser = before.defaultUser
  channelSubscribers :
    after.connections.channelSubscribers = before.connections.channelSubscribers
  clientSubscriptions :
    after.connections.clientSubscriptions = before.connections.clientSubscriptions
  transactions : after.transactions = before.transactions
  watchedKeys : after.watchedKeys = before.watchedKeys
  replication : after.replication = before.replication

/-- The step is part of the handling of a command of this connection. -/
def Step.handles (clientId : ClientId) : Step → Bool
  | .receive _ actor _ | .enlist _ actor => actor = clientId
  | _ => false

/-- **The connection is sealed off during a step.**  Its own commands disturb nothing
and are answered with the same error, and no step of others sends it anything. -/
structure Sealed (clientId : ClientId) (step : Step) (server next : TcpServer) : Prop where
  own : step.handles clientId = true → Undisturbed server.processor next.processor
  answer : ∀ env command, step = .receive env clientId command →
    nameOf command ≠ some .auth →
    next.processor.replies = server.processor.replies ++
      [⟨⟨server.processor.nextPromise, clientId, command, .client, 0⟩, [], Acl.noAuth⟩]
  others : step.actor server ≠ some clientId →
    SendsNothing clientId server.processor next.processor

/-- An `AUTH` of the client was successful. -/
def LoggedIn (clientId : ClientId) (processor : Processor) : Prop :=
  ∃ reply ∈ processor.replies, reply.task.clientId = clientId ∧
    nameOf reply.task.command = some .auth ∧ reply.response = Commands.ok

/-- The connection sends the command that hands it over to the replication code. -/
def Step.handsOver (clientId : ClientId) : Step → Bool
  | .receive _ actor command => actor = clientId && startsReplication command
  | _ => false

/-- The connection was accepted, and has neither authenticated nor been handed over. -/
structure Guarded (clientId : ClientId) (server : TcpServer) : Prop where
  outside : server.processor.Outside clientId
  serving : ∀ stage, server.stages.lookup clientId = some stage → stage = .serving
  known : clientId < server.nextClientId
  positive : replicationClientId < clientId

theorem Guarded.others {step : Step} (h : Guarded clientId server)
    (hactor : step.actor server ≠ some clientId) (hstep : step.perform host server = some next) :
    Guarded clientId next ∧ SendsNothing clientId server.processor next.processor := by
  obtain ⟨phases, scripted, hscript, -, hnext⟩ := Step.perform_cases hstep
  obtain ⟨hgrows, hstages, -⟩ := stages_script hscript
  have hspared : Spared clientId server.processor next.processor := by
    refine spared_step h.outside hactor h.positive.ne' (fun hfirst => ?_) hstep
    -- The first connection has been accepted.
    have hpositive := h.positive.trans_le (Nat.lt_succ_iff.mp (hfirst ▸ h.known))
    exact absurd hpositive (Nat.lt_irrefl _)
  refine ⟨⟨hspared.outside, fun stage hstage => ?_, ?_, h.positive⟩, hspared.silent⟩
  · rw [hnext] at hstage
    exact h.serving stage ((hstages clientId hactor).symm.trans hstage)
  · rw [hnext]
    exact h.known.trans_le hgrows

theorem Guarded.stage_receive {command : Command} (h : Guarded clientId server)
    (hstep : (Step.receive env clientId command).perform host server = some next) :
    server.stages.lookup clientId = some .serving := by
  obtain ⟨phases, scripted, hscript, -, -⟩ := Step.perform_cases hstep
  cases hstage : server.stages.lookup clientId with
  | none => simp [Step.script, hstage] at hscript
  | some stage => rw [h.serving stage hstage]

/-- **The gate holds in the processor.**  A command that is submitted disturbs nothing,
and is refused unless it is an `AUTH`. -/
theorem Guarded.receive {command : Command} (h : Guarded clientId server)
    (hcommand : startsReplication command = false)
    (hstep : (Step.receive env clientId command).perform host server = some next)
    (hout : ¬ LoggedIn clientId next.processor) :
    Guarded clientId next ∧ Sealed clientId (.receive env clientId command) server next := by
  obtain ⟨phases, scripted, hscript, hrun, hnext⟩ := Step.perform_cases hstep
  simp only [Step.script, h.stage_receive hstep, hcommand, Bool.false_eq_true, if_false,
    Option.some.injEq, Prod.mk.injEq] at hscript
  obtain ⟨rfl, rfl⟩ := hscript
  let task : Task := ⟨server.processor.nextPromise, clientId, command, .client, 0⟩
  let submitted : Processor :=
    { server.processor with nextPromise := server.processor.nextPromise + 1 }
  have htask : submitted.processTask host env task = some next.processor :=
    (Runs.run_singleton _ _).symm.trans hrun
  have hsubmitted : submitted.Outside clientId :=
    ⟨h.outside.connections, h.outside.idle, h.outside.unserved⟩
  have hguarded : next.processor.Outside clientId → Guarded clientId next := fun houtside =>
    ⟨houtside, by rw [hnext]; exact h.serving, by rw [hnext]; exact h.known, h.positive⟩
  have hself : ¬ (Step.receive env clientId command).actor server ≠ some clientId :=
    fun hother => hother rfl
  by_cases hname : nameOf command = some .auth
  · rw [processTask_auth hsubmitted env rfl rfl hname, Option.some.injEq] at htask
    have hanswer : ∀ env' command', Step.receive env clientId command =
        .receive env' clientId command' → nameOf command' ≠ some .auth →
        next.processor.replies = server.processor.replies ++
          [⟨⟨server.processor.nextPromise, clientId, command', .client, 0⟩, [], Acl.noAuth⟩] := by
      rintro _ _ ⟨⟩ hother
      exact absurd hname hother
    rcases authenticate_cases host submitted.defaultUser clientId task.command
      submitted.connections with hsame | ⟨hok, clients, hsame⟩
    · rw [hsame] at htask
      rw [← htask] at hguarded
      refine ⟨hguarded { hsubmitted with },
        fun _ => ?_, hanswer, fun hother => absurd hother hself⟩
      rw [← htask]
      exact ⟨rfl, rfl, rfl, rfl, rfl, rfl, rfl⟩
    · -- A successful login is what the client has not had.
      refine absurd ⟨⟨task, [], Commands.ok⟩, ?_, rfl, hname, rfl⟩ hout
      rw [← htask, hok]
      exact List.mem_append_right _ (List.mem_singleton_self _)
  · rw [processTask_outside hsubmitted env rfl rfl hname, Option.some.injEq] at htask
    rw [← htask] at hguarded
    refine ⟨hguarded { hsubmitted with },
      fun _ => ?_, ?_, fun hother => absurd hother hself⟩
    · rw [← htask]
      exact ⟨rfl, rfl, rfl, rfl, rfl, rfl, rfl⟩
    · rintro _ _ ⟨⟩ -
      rw [← htask]
      rfl

/-- The other things that the thread of a connection does. -/
theorem Guarded.own {step : Step} (h : Guarded clientId server)
    (hactor : step.actor server = some clientId) (hover : step.handsOver clientId = false)
    (hstep : step.perform host server = some next) (hout : ¬ LoggedIn clientId next.processor) :
    Guarded clientId next ∧ Sealed clientId step server next := by
  have hsealed : step.handles clientId = false →
      (∀ env command, step ≠ .receive env clientId command) →
      Sealed clientId step server next := fun hhandles hreceive =>
    ⟨fun hself => absurd (hself.symm.trans hhandles) (by decide),
      fun env command heq => absurd heq (hreceive env command), fun hother => absurd hactor hother⟩
  obtain ⟨phases, scripted, hscript, hrun, hnext⟩ := Step.perform_cases hstep
  cases step with
  | work phase => cases hactor
  | accept env =>
    -- The connection has been accepted already.
    exact absurd (Option.some.inj hactor) h.known.ne'
  | receive env actor command =>
    obtain rfl : actor = clientId := Option.some.inj hactor
    exact h.receive (by simpa [Step.handsOver] using hover) hstep hout
  | enlist env actor =>
    obtain rfl : actor = clientId := Option.some.inj hactor
    simp only [Step.script] at hscript
    split at hscript
    · rename_i hstage
      cases h.serving _ hstage
    · cases hscript
  | popFrame actor =>
    obtain rfl : actor = clientId := Option.some.inj hactor
    refine ⟨?_, hsealed rfl fun _ _ heq => by cases heq⟩
    simp only [Step.script] at hscript
    split at hscript <;> cases hscript
    have hperform := (Runs.run_singleton _ _).symm.trans hrun
    refine ⟨?_, by rw [hnext]; exact h.serving, by rw [hnext]; exact h.known, h.positive⟩
    rw [← Option.some.inj hperform]
    simp only [External.perform]
    split
    · exact h.outside
    · exact h.outside.sessions _
  | close env actor =>
    obtain rfl : actor = clientId := Option.some.inj hactor
    refine ⟨?_, hsealed rfl fun _ _ heq => by cases heq⟩
    obtain ⟨stage, hstage, heq⟩ := Option.map_eq_some_iff.mp hscript
    rw [h.serving stage hstage] at heq
    cases heq
    have hperform := (Runs.run_singleton _ _).symm.trans hrun
    refine ⟨?_, fun stage hstage => ?_, by rw [hnext]; exact h.known, h.positive⟩
    · rw [← Option.some.inj hperform]
      exact h.outside.unregister
    · rw [hnext] at hstage
      exact h.serving stage (Connections.lookup_of_erase hstage)
  | drop actor =>
    obtain rfl : actor = clientId := Option.some.inj hactor
    refine ⟨?_, hsealed rfl fun _ _ heq => by cases heq⟩
    simp only [Step.script] at hscript
    split at hscript <;> cases hscript
    have hperform := (Runs.run_singleton _ _).symm.trans hrun
    refine ⟨?_, by rw [hnext]; exact h.serving, by rw [hnext]; exact h.known, h.positive⟩
    rw [← Option.some.inj hperform]
    exact h.outside.sessions _

/-- A `PSYNC` is not answered with the error; it is not submitted at all. -/
theorem Guarded.not_sealed {step : Step} (h : Guarded clientId server)
    (hover : step.handsOver clientId = true) (hstep : step.perform host server = some next) :
    ¬ Sealed clientId step server next := by
  cases step with
  | receive env actor command =>
    simp only [Step.handsOver, Bool.and_eq_true, decide_eq_true_eq] at hover
    obtain ⟨rfl, hcommand⟩ := hover
    intro hsealed
    have hname : nameOf command ≠ some .auth := by
      have hhead : command.head? = some CommandName.psync.text :=
        of_decide_eq_true (Bool.and_eq_true_iff.mp hcommand).2
      rw [nameOf, hhead]
      decide
    have hanswer := hsealed.answer env command rfl hname
    obtain ⟨phases, scripted, hscript, hrun, -⟩ := Step.perform_cases hstep
    simp only [Step.script, h.stage_receive hstep, hcommand, if_true, Option.some.injEq,
      Prod.mk.injEq] at hscript
    obtain ⟨rfl, rfl⟩ := hscript
    -- Whoever is answered by a departure had a command waiting.
    obtain ⟨answered, hreplies, htasks⟩ :=
      answered_perform ((Runs.run_singleton _ _).symm.trans hrun)
    have hone := List.append_cancel_left (hreplies.symm.trans hanswer)
    have hmem : (⟨server.processor.nextPromise, actor, command, .client, 0⟩ : Task) ∈
        (answered.map Reply.task : Multiset Task) + next.processor.pendingTasks := by
      rw [hone]
      exact Multiset.mem_add.mpr (.inl (by simp))
    rw [htasks] at hmem
    refine h.outside.idle ⟨server.processor.nextPromise, actor, command, .client, 0⟩ ?_ rfl
    simpa [Phase.submits, TcpServer.enter] using hmem
  | _ => cases hover

/-- A connection that is accepted under a password is guarded from the start. -/
theorem guarded_accept {accepted : TcpServer} (h : Pristine server)
    (hpassword : server.processor.defaultUser.noPassword = false)
    (haccept : (Step.accept env).perform host server = some accepted) :
    Guarded server.nextClientId accepted := by
  obtain ⟨phases, scripted, hscript, hrun, haccepted⟩ := Step.perform_cases haccept
  obtain ⟨houtside, -⟩ := h.fresh server.nextClientId le_rfl
  cases hscript
  obtain ⟨created, hcreate, hregister⟩ := Runs.run_cons_eq_some.mp hrun
  have hregistered : created.processClientRegistration server.nextClientId server.nextClientId =
      accepted.processor := Option.some.inj ((Runs.run_singleton _ _).symm.trans hregister)
  have hcreated : created.Outside server.nextClientId ∧ created.defaultUser.noPassword = false := by
    rw [← Option.some.inj hcreate]
    simp only [External.perform]
    split
    · exact ⟨houtside, hpassword⟩
    · exact ⟨houtside.sessions _, hpassword⟩
  obtain ⟨⟨hconnections, hidle, hunserved⟩, hprotected⟩ := hcreated
  refine ⟨?_, fun stage hstage => ?_, ?_, h.positive⟩
  · rw [← hregistered]
    refine ⟨⟨fun client hclient => ?_, fun owner client hclient => ?_, hconnections.unsubscribed,
      hconnections.unheard⟩, hidle, hunserved⟩
    · have hfound := (AList.lookup_insert _).symm.trans hclient
      rw [← Option.some.inj hfound]
      exact hprotected
    · by_cases howner : owner = server.nextClientId
      · subst howner
        have hfound := (AList.lookup_insert _).symm.trans hclient
        rw [← Option.some.inj hfound]
      · exact hconnections.ownSession owner client
          ((AList.lookup_insert_ne howner).symm.trans hclient)
  · rw [haccepted] at hstage
    have hfound := (AList.lookup_insert _).symm.trans hstage
    exact (Option.some.inj hfound).symm
  · rw [haccepted]
    exact Nat.lt_succ_self _

/-! ## Whole runs -/

theorem replies_step {step : Step} (hstep : step.perform host server = some next) :
    server.processor.replies <+: next.processor.replies := by
  obtain ⟨phases, scripted, hscript, hrun, -⟩ := Step.perform_cases hstep
  rw [processor_script hscript] at hrun
  have hgrows : ∀ (phase : Phase) (state next : Processor), True → True →
      phase.perform host state = some next → True ∧ state.replies <+: next.replies :=
    fun _ _ _ _ _ hnext => ⟨trivial, replies_perform hnext⟩
  exact (@Runs.run_relation _ _ (Phase.perform host) (fun _ => True) (fun _ => True)
    (fun before after : Processor => before.replies <+: after.replies)
    (fun _ => List.prefix_refl _) (fun _ _ _ => List.IsPrefix.trans) hgrows _ _ _
    (fun _ _ => trivial) trivial hrun).2

theorem LoggedIn.run (h : LoggedIn clientId server.processor)
    (hrun : Runs.run (Step.perform host) steps server = some final) :
    LoggedIn clientId final.processor := by
  have hstep : ∀ (step : Step) (state next : TcpServer), True →
      LoggedIn clientId state.processor → step.perform host state = some next →
        LoggedIn clientId next.processor := by
    rintro step state next - ⟨reply, hreply, hrest⟩ hnext
    exact ⟨reply, (replies_step hnext).subset hreply, hrest⟩
  exact @Runs.run_invariant _ _ (Step.perform host) (fun _ => True)
    (fun server => LoggedIn clientId server.processor) hstep _ _ _ (fun _ _ => trivial) h hrun

/-- A guarded connection is sealed off in a run without a `PSYNC` of its own, and in
no other. -/
theorem Guarded.sealed_iff (h : Guarded clientId server)
    (hrun : Runs.run (Step.perform host) steps server = some final)
    (hout : ¬ LoggedIn clientId final.processor) :
    Runs.Along (Step.perform host)
        (fun step server => ∀ next, step.perform host server = some next →
          Sealed clientId step server next) steps server ↔
      ∀ step ∈ steps, step.handsOver clientId = false := by
  induction steps generalizing server with
  | nil => simp [Runs.Along]
  | cons step rest ih =>
    obtain ⟨next, hstep, hrest⟩ := Runs.run_cons_eq_some.mp hrun
    have hnow : ¬ LoggedIn clientId next.processor := fun hlogged => hout (hlogged.run hrest)
    rw [List.forall_mem_cons]
    cases hover : step.handsOver clientId with
    | true =>
      refine iff_of_false (fun halong => ?_) (by simp)
      exact h.not_sealed hover hstep (halong.1 next hstep)
    | false =>
      have hsealed : Guarded clientId next ∧ Sealed clientId step server next := by
        by_cases hactor : step.actor server = some clientId
        · exact h.own hactor hover hstep hnow
        · obtain ⟨hguarded, hsilent⟩ := h.others hactor hstep
          refine ⟨hguarded, fun hhandles => ?_, fun env command heq => ?_, fun _ => hsilent⟩
          · -- Only its own thread handles its commands.
            unfold Step.handles at hhandles
            split at hhandles <;> first | cases hhandles | skip
            all_goals exact absurd (congrArg some (of_decide_eq_true hhandles)) hactor
          · subst heq
            exact absurd rfl hactor
      have hnext : ∀ other, step.perform host server = some other → next = other :=
        fun other hother => Option.some.inj (hstep.symm.trans hother)
      constructor
      · intro halong
        exact ⟨rfl, (ih hsealed.1 hrest).mp (halong.2 next hstep)⟩
      · rintro ⟨-, hsteps⟩
        refine ⟨fun other hother => hnext other hother ▸ hsealed.2, fun other hother => ?_⟩
        exact hnext other hother ▸ (ih hsealed.1 hrest).mpr hsteps

/-- **The gate holds up to a `PSYNC`.**  Take any run of the server, a connection that
is accepted in it while the default user has a password, and what happens from then
on, as long as the connection has not authenticated.  It is sealed off in all of its
steps exactly if it sends no `PSYNC` of three words. -/
theorem gate_holds_iff (host : Host) (role : ReplicationRole) (replicationId : Bytes)
    (defaultUser : User) (rdbConfig : RdbConfig) (aofConfig : AofConfig)
    {earlier later : List Step} {server accepted final : TcpServer} {env : Env}
    (hearlier : Runs.run (Step.perform host) earlier
      { processor := .start role replicationId defaultUser rdbConfig aofConfig } = some server)
    (hpassword : server.processor.defaultUser.noPassword = false)
    (haccept : (Step.accept env).perform host server = some accepted)
    (hlater : Runs.run (Step.perform host) later accepted = some final)
    (hout : ¬ LoggedIn server.nextClientId final.processor) :
    Runs.Along (Step.perform host)
        (fun step server' => ∀ next, step.perform host server' = some next →
          Sealed server.nextClientId step server' next) later accepted ↔
      ∀ step ∈ later, step.handsOver server.nextClientId = false := by
  have hpristine : Pristine server :=
    (pristine_start role replicationId defaultUser rdbConfig aofConfig).run hearlier
  exact (guarded_accept hpristine hpassword haccept).sealed_iff hlater hout

/-- A server with a password. -/
def protectedServer : TcpServer where
  processor := .start .master [] (User.default (some (ascii "secret"))) {} {}

def stillStep (clientId : ClientId) (command : Command) : Step :=
  .receive (Env.still ⟨5, 5⟩) clientId command

/-- A connection tries a `GET` and a wrong password while another one writes. -/
def strangerSteps : List Step :=
  [stillStep 2 [ascii "GET", ascii "k"], stillStep 2 [ascii "AUTH", ascii "guess"],
    stillStep 1 [ascii "SET", ascii "k", ascii "v"]]

theorem gate_holds_iff_stranger :
    ∃ server accepted final,
      Runs.run (Step.perform Host.plain)
        [.accept (Env.still ⟨5, 5⟩), stillStep 1 [ascii "AUTH", ascii "secret"]]
        protectedServer = some server ∧
      (Step.accept (Env.still ⟨5, 5⟩)).perform Host.plain server = some accepted ∧
      Runs.run (Step.perform Host.plain) strangerSteps accepted = some final ∧
      final.processor.replies.length = 4 ∧
      Runs.Along (Step.perform Host.plain)
        (fun step server => ∀ next, step.perform Host.plain server = some next →
          Sealed 2 step server next) strangerSteps accepted := by
  have hruns : ∃ server, Runs.run (Step.perform Host.plain)
      [.accept (Env.still ⟨5, 5⟩), stillStep 1 [ascii "AUTH", ascii "secret"]]
      protectedServer = some server ∧ server.nextClientId = 2 ∧
        server.processor.defaultUser.noPassword = false ∧
        ∃ accepted, (Step.accept (Env.still ⟨5, 5⟩)).perform Host.plain server = some accepted ∧
        ∃ final, Runs.run (Step.perform Host.plain) strangerSteps accepted = some final ∧
          final.processor.replies.length = 4 ∧ ∀ reply ∈ final.processor.replies,
            reply.task.clientId = 2 →
              serializeResponse reply.response ≠ serializeResponse Commands.ok := by
    decide +kernel
  obtain ⟨server, hearlier, hid, hpassword, accepted, haccept, final, hlater, hlength,
    hreplies⟩ := hruns
  have hout : ¬ LoggedIn server.nextClientId final.processor := by
    rintro ⟨reply, hreply, hclient, -, hok⟩
    exact hreplies reply hreply (hclient.trans hid) (congrArg serializeResponse hok)
  have hgate := gate_holds_iff Host.plain .master [] (User.default (some (ascii "secret"))) {} {}
    hearlier hpassword haccept hlater hout
  rw [hid] at hgate
  exact ⟨server, accepted, final, hearlier, haccept, hlater, hlength,
    hgate.mpr (by decide)⟩

/-- An unauthenticated connection becomes a replica: it is sent what others write, and
the offsets that it acknowledges are noted. -/
theorem psync_passes_gate :
    ∃ relaying written acknowledged,
      Runs.run (Step.perform Host.plain)
        [.accept (Env.still ⟨5, 5⟩), .accept (Env.still ⟨5, 5⟩),
          stillStep 2 [ascii "AUTH", ascii "secret"],
          stillStep 1 [ascii "PSYNC", ascii "?", ascii "-1"], .enlist (Env.still ⟨5, 5⟩) 1]
        protectedServer = some relaying ∧
      (stillStep 2 [ascii "SET", ascii "k", ascii "v"]).perform Host.plain relaying =
        some written ∧
      (stillStep 1 [ascii "REPLCONF", ascii "ACK", ascii "27"]).perform Host.plain written =
        some acknowledged ∧
      ¬ LoggedIn 1 acknowledged.processor ∧
      ¬ SendsNothing 1 relaying.processor written.processor ∧
      ¬ Undisturbed written.processor acknowledged.processor := by
  have hruns : ∃ relaying, Runs.run (Step.perform Host.plain)
      [.accept (Env.still ⟨5, 5⟩), .accept (Env.still ⟨5, 5⟩),
        stillStep 2 [ascii "AUTH", ascii "secret"],
        stillStep 1 [ascii "PSYNC", ascii "?", ascii "-1"], .enlist (Env.still ⟨5, 5⟩) 1]
      protectedServer = some relaying ∧
      (∃ session, relaying.processor.replication.sessions.lookup 0 = some session ∧
        session.frames = []) ∧
      ∃ written, (stillStep 2 [ascii "SET", ascii "k", ascii "v"]).perform Host.plain relaying =
        some written ∧
      (∃ session, written.processor.replication.sessions.lookup 0 = some session ∧
        session.clientId = 1 ∧ session.frames ≠ []) ∧
      written.processor.replication.acknowledgedOffsets.lookup 1 = none ∧
      ∃ acknowledged, (stillStep 1 [ascii "REPLCONF", ascii "ACK", ascii "27"]).perform Host.plain
        written = some acknowledged ∧
      acknowledged.processor.replication.acknowledgedOffsets.lookup 1 = some 27 ∧
      ∀ reply ∈ acknowledged.processor.replies, reply.task.clientId ≠ 1 := by
    decide +kernel
  obtain ⟨relaying, hrelaying, ⟨earlier, hearlier, hempty⟩, written, hwritten,
    ⟨found, hfound, hself, hframes⟩, hunknown, acknowledged, hacknowledged, hknown, hreplies⟩ := hruns
  refine ⟨relaying, written, acknowledged, hrelaying, hwritten, hacknowledged, ?_, ?_, ?_⟩
  · rintro ⟨reply, hreply, hclient, -⟩
    exact hreplies reply hreply hclient
  · intro hsilent
    obtain ⟨earlier', hearlier', -, hsame⟩ := hsilent.relayed 0 found hfound hself
    rw [hearlier, Option.some.injEq] at hearlier'
    subst hearlier'
    exact hframes (hsame.trans hempty)
  · intro hundisturbed
    rw [hundisturbed.replication, hunknown] at hknown
    cases hknown

end RedisServer.Server
