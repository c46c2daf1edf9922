import RedisServer.Library.Scan
import RedisServer.Processor

/-!
# Tasks and the worker loop

`processTask` and the other task functions, the passes over the queues of
blocked commands, and the iterations of `run()` that put them together.

An iteration is a list of phases.  Between any two phases the threads of the
connections may act on the shared sessions; these are the `External` events.
-/

namespace RedisServer

open Resp Commands Aof

namespace Processor

/-! ## Blocking commands -/

def processBlpop (host : Host) (env : Env) (task : Task) (processor : Processor) : Processor :=
  match parseBlpop host task.command with
  | .error message => processor.fulfil task [] (.simpleError message)
  | .ok request =>
    match Database.popListElement env.clock.head request.key processor.database with
    | (.ok value, database) =>
      let response : Response := .array [request.key, value]
      let processor :=
        { processor with
          database, events := processor.events ++ [Event.executed task.command response] }
      match processor.persistBlockingPop env.disk task request.key with
      | (.error message, processor) => processor.fulfil task [] (misconf message)
      | (.ok (), processor) => processor.fulfil task [] response
    | (.error .wrongType, database) =>
      { processor with database }.fulfil task [] wrongTypeError
    | (.error _, database) =>
      { processor with
        database
        pendingListPops := processor.pendingListPops ++
          [⟨task, request.key, request.timeout.map (deadlineAfter env.now)⟩] }

def processXread (env : Env) (task : Task) (processor : Processor) : Processor :=
  match parseXread task.command with
  | .error message => processor.fulfil task [] (.simpleError message)
  | .ok readCommand =>
    match Database.readStreams env.clock.head readCommand.requests processor.database with
    | (.error error, _, database) =>
      { processor with database }.fulfil task [] (readStreamsError error)
    | (.ok results, requests, database) =>
      let processor := { processor with database }
      if results ≠ [] then processor.fulfil task [] (makeXreadResponse results)
      else
        match readCommand.mode with
        | .immediate => processor.fulfil task [] .nullArray
        | .blockIndefinitely =>
          { processor with
            pendingStreamReads := processor.pendingStreamReads ++ [⟨task, requests, none⟩] }
        | .blockWithTimeout timeout =>
          { processor with
            pendingStreamReads := processor.pendingStreamReads ++
              [⟨task, requests, some (deadlineAfter env.now timeout)⟩] }

structure WaitRequest where
  requiredReplicas : ℕ
  timeout : Option Int

def parseWaitRequest (command : Command) : Except Bytes WaitRequest :=
  match command with
  | [_, required, timeout] =>
    match parseUnsigned required, parseUnsigned timeout with
    | some requiredReplicas, some timeout =>
      if timeout > 2 ^ 63 - 1 then
        .error (ascii "ERR value is not an integer or out of range")
      else .ok ⟨requiredReplicas, if timeout ≠ 0 then some timeout else none⟩
    | _, _ => .error (ascii "ERR value is not an integer or out of range")
  | _ => .error (ascii "ERR wrong number of arguments for 'wait' command")

def getAckCommand : Command := [CommandName.replconf.text, ascii "GETACK", ascii "*"]

def processWait (env : Env) (task : Task) (processor : Processor) : Processor :=
  if processor.replication.role ≠ .master then
    processor.fulfil task []
      (.simpleError (ascii "ERR WAIT cannot be used with replica instances"))
  else
    match parseWaitRequest task.command with
    | .error message => processor.fulfil task [] (.simpleError message)
    | .ok request =>
      let targetOffset :=
        (processor.replication.clientWriteOffsets.lookup task.clientId).getD 0
      let (acknowledged, replication) :=
        processor.replication.countAcknowledgedReplicas targetOffset
      if targetOffset = 0 ∨ acknowledged ≥ request.requiredReplicas then
        { processor with replication }.fulfil task [] (.integer acknowledged)
      else
        { processor with
          replication := replication.appendReplicationFrame (serializeCommand getAckCommand)
          pendingWaits := processor.pendingWaits ++
            [⟨task, request.requiredReplicas, targetOffset,
              request.timeout.map (deadlineAfter env.now)⟩] }

/-! ## A command -/

/-- Send a reply through the Pub/Sub session of a client instead of its promise. -/
def replyThroughPubsub (notification : Notification) (clientId : ClientId) (response : Response)
    (processor : Processor) : Response × Processor :=
  match processor.connections.enqueuePubsubResponse notification clientId response with
  | (.ok (), connections) => (.noResponse, { processor with connections })
  | (.error message, connections) =>
    (.simpleError (ascii "ERR failed to queue Pub/Sub response: " ++ message),
      { processor with connections })

def notAllowedWhileSubscribed (command : Command) : Response :=
  .simpleError (ascii "ERR Can't execute '" ++ command.headD [] ++
    ascii "': only SUBSCRIBE, UNSUBSCRIBE and PING are allowed in this context")

def allowedWhileSubscribed (command : Command) : Bool :=
  match nameOf command with
  | some .subscribe | some .unsubscribe | some .ping => true
  | _ => false

/-- The commands that the `EXEC` of a task runs. -/
def transactionOf (task : Task) (processor : Processor) : List Command :=
  if nameOf task.command = some .exec then processor.queued task.clientId else []

/-- Log and replicate a direct write that took effect. -/
def propagateDirect (disk : Disk) (task : Task) (writeCommand : Bool)
    (response : Response) (processor : Processor) : Response × Processor :=
  let replicated := processor.replicates task.source && writeCommand
  let persisted := processor.persists task.source && writeCommand
  if (replicated || persisted) && writeModifiedDatabase task.command response then
    match processor.propagate persisted replicated disk task.clientId
      (serializeCommand (normalizeReplicationCommand task.command response)) with
    | (.error message, processor) => (misconf message, processor)
    | (.ok (), processor) => (response, processor)
  else (response, processor)

/-- What is left of `process_task` once the response is known. -/
def finishTask (notification : Notification) (task : Task) (transaction : List Command)
    (succeeded : Bool) (response : Response) (processor : Processor) : Processor :=
  let processor :=
    if task.source = .master ∧ succeeded then
      { processor with
        replication :=
          { processor.replication with
            offset := processor.replication.offset + task.replicationBytes } }
    else processor
  let (response, processor) :=
    match response with
    | .noResponse => (response, processor)
    | _ =>
      if task.source = CommandSource.client ∧
          processor.connections.isSubscribed task.clientId then
        processor.replyThroughPubsub notification task.clientId response
      else (response, processor)
  processor.fulfil task transaction response

/-- The part of `process_task` for the commands that do not block. -/
def processDirect (host : Host) (env : Env) (task : Task) (processor : Processor) :
    Option Processor :=
  let writeCommand :=
    !processor.hasTransaction task.clientId && isWriteCommand host task.command
  let transaction := processor.transactionOf task
  (processor.processCommand host env.toCommandEnv task.clientId task.command task.source).map
    fun (response, processor) =>
      let (propagated, processor) :=
        processor.propagateDirect env.disk task writeCommand response
      processor.finishTask env.replyNotification task transaction (!responseIsError response)
        propagated

/-- The write is refused because this server is a replica. -/
def rejectReplicaWrite (task : Task) (processor : Processor) : Processor :=
  let transactions :=
    match processor.transactions.lookup task.clientId with
    | none => processor.transactions
    | some transaction =>
      processor.transactions.insert task.clientId { transaction with hasError := true }
  { processor with transactions }.fulfil task []
    (.simpleError (ascii "READONLY You can't write against a read only replica."))

/-- A client that has not authenticated gets nothing but this. -/
def refuseUnauthenticated (notification : Notification) (task : Task) (processor : Processor) :
    Processor :=
  let (response, processor) :=
    if processor.connections.isSubscribed task.clientId then
      processor.replyThroughPubsub notification task.clientId Acl.noAuth
    else (Acl.noAuth, processor)
  processor.fulfil task [] response

/-- A subscribed client may not run this command. -/
def refuseSubscribed (notification : Notification) (task : Task) (processor : Processor) :
    Processor :=
  let (response, processor) := processor.replyThroughPubsub notification task.clientId
    (notAllowedWhileSubscribed task.command)
  processor.fulfil task [] response

def processTask (host : Host) (env : Env) (task : Task) (processor : Processor) :
    Option Processor :=
  if task.source = .client ∧ nameOf task.command ≠ some .auth ∧
      !processor.isAuthenticated task.clientId then
    some (processor.refuseUnauthenticated env.replyNotification task)
  else if task.source = .client ∧ processor.connections.isSubscribed task.clientId ∧
      !allowedWhileSubscribed task.command then
    some (processor.refuseSubscribed env.replyNotification task)
  else if processor.replication.role = .replica ∧ task.source = .client ∧
      isWriteCommand host task.command then
    some (processor.rejectReplicaWrite task)
  else if nameOf task.command = some .blpop ∧ !processor.hasTransaction task.clientId then
    some (processor.processBlpop host env task)
  else if nameOf task.command = some .xread ∧ !processor.hasTransaction task.clientId then
    some (processor.processXread env task)
  else if nameOf task.command = some .wait ∧ !processor.hasTransaction task.clientId then
    some (processor.processWait env task)
  else processor.processDirect host env task

/-! ## Other tasks -/

def processReplicaRegistration (clientId : ClientId) (processor : Processor) :
    SessionId × Processor :=
  let (session, replication) := processor.replication.registerReplica clientId
  (session, { processor with replication })

def processReplicationStateInstallation (replicationId : Bytes) (offset : ℕ)
    (processor : Processor) : Processor :=
  { processor with replication := { processor.replication with replicationId, offset } }

def processReplicaAcknowledgement (clientId : ClientId) (offset : ℕ) (processor : Processor) :
    Processor :=
  { processor with replication := processor.replication.acknowledgeReplica clientId offset }

def processRdbLoad (clocks : Stream' Clock) (entries : List StringEntry) (processor : Processor) :
    Processor :=
  { processor with
    database := loadEntries clocks.head.system entries clocks.tail processor.database
    events := processor.events ++
      (entries.filter fun entry => (entry.remaining clocks.head.system).isSome).map
        fun entry => .loaded entry.key }

def aofClientId : ClientId := 2 ^ 64 - 1

/-- The loop of `process_aof_initialization` over the commands of the log. -/
def replayCommands (host : Host) : List Command → Stream' CommandEnv → Processor →
    Option (Except Bytes Unit × Processor)
  | [], _, processor => some (.ok (), processor)
  | command :: rest, envs, processor =>
    (processor.processCommand host envs.head aofClientId command .aof).bind
      fun (response, processor) =>
        match response with
        | .simpleError message =>
          some (.error (ascii "Failed to replay AOF command: " ++ message), processor)
        | _ => replayCommands host rest envs.tail processor

/-- Drop what the replay left behind. -/
def forgetReplay (processor : Processor) : Processor :=
  { processor with
    transactions := processor.transactions.erase aofClientId
    watchedKeys := processor.watchedKeys.erase aofClientId }

def processAofInitialization (host : Host) (envs : Stream' CommandEnv) (file : AppendOnlyFile)
    (commands : List Command) (processor : Processor) : Option (Except Bytes Unit × Processor) :=
  (processor.replayCommands host commands envs).map fun (result, processor) =>
    match result with
    | .error message => (.error message, processor.forgetReplay)
    | .ok () =>
      if processor.hasTransaction aofClientId then
        (.error (ascii "AOF file ended before its transaction was completed"),
          processor.forgetReplay)
      else (.ok (), { processor.forgetReplay with aofFile := some file })

def processClientRegistration (clientId : ClientId) (session : SessionId)
    (processor : Processor) : Processor :=
  { processor with
    connections :=
      processor.connections.register processor.defaultUser.noPassword clientId session }

/-- Cancel the commands of one client in a queue. -/
def cancelIn {Pending : Type} (taskOf : Pending → Task) (clientId : ClientId)
    (_input : Unit) (pending : Pending) (processor : Processor) : Option Pending × Processor :=
  if (taskOf pending).clientId ≠ clientId then (some pending, processor)
  else (none, processor.fulfil (taskOf pending) [] .noResponse)

/-- The loop of `cancel_pending_commands` over one queue. -/
def cancelAll {Pending : Type} (taskOf : Pending → Task) (clientId : ClientId)
    (items : List Pending) (processor : Processor) : List Pending × Processor :=
  Scan.scan (cancelIn taskOf clientId) (Stream'.const ()) items processor

def cancelPendingCommands (clientId : ClientId) (processor : Processor) : Processor :=
  let (pops, processor) := cancelAll PendingListPop.task clientId processor.pendingListPops processor
  let (reads, processor) :=
    cancelAll PendingStreamRead.task clientId processor.pendingStreamReads processor
  let (waits, processor) := cancelAll PendingWait.task clientId processor.pendingWaits processor
  { processor with pendingListPops := pops, pendingStreamReads := reads, pendingWaits := waits }

def processClientUnregistration (clientId : ClientId) (processor : Processor) : Processor :=
  let processor := processor.cancelPendingCommands clientId
  { processor with
    connections := processor.connections.unregister clientId
    transactions := processor.transactions.erase clientId
    watchedKeys := processor.watchedKeys.erase clientId
    replication := processor.replication.forgetClient clientId }

/-! ## Passes over the queues -/

/-- Try a blocked `BLPOP` again. -/
def retryListPop (input : Clock × Disk) (pending : PendingListPop) (processor : Processor) :
    Option PendingListPop × Processor :=
  match Database.popListElement input.1 pending.key processor.database with
  | (.ok value, database) =>
    let response : Response := .array [pending.key, value]
    let processor :=
      { processor with
        database, events := processor.events ++ [Event.executed pending.task.command response] }
    match processor.persistBlockingPop input.2 pending.task pending.key with
    | (.error message, processor) => (none, processor.fulfil pending.task [] (misconf message))
    | (.ok (), processor) => (none, processor.fulfil pending.task [] response)
  | (.error .wrongType, database) =>
    (none, { processor with database }.fulfil pending.task [] wrongTypeError)
  | (.error _, database) => (some pending, { processor with database })

def retryPendingListPops (inputs : Stream' (Clock × Disk)) (processor : Processor) : Processor :=
  let (remaining, processor) :=
    Scan.scan retryListPop inputs processor.pendingListPops processor
  { processor with pendingListPops := remaining }

/-- Try a blocked `XREAD` again; its starting points stay resolved. -/
def retryStreamRead (clock : Clock) (pending : PendingStreamRead) (processor : Processor) :
    Option PendingStreamRead × Processor :=
  match Database.readStreams clock pending.requests processor.database with
  | (.error error, _, database) =>
    (none, { processor with database }.fulfil pending.task [] (readStreamsError error))
  | (.ok results, requests, database) =>
    if results = [] then (some { pending with requests }, { processor with database })
    else
      (none, { processor with database }.fulfil pending.task [] (makeXreadResponse results))

def retryPendingStreamReads (clocks : Stream' Clock) (processor : Processor) : Processor :=
  let (remaining, processor) :=
    Scan.scan retryStreamRead clocks processor.pendingStreamReads processor
  { processor with pendingStreamReads := remaining }

def retryWait (_input : Unit) (pending : PendingWait) (processor : Processor) :
    Option PendingWait × Processor :=
  let (acknowledged, replication) :=
    processor.replication.countAcknowledgedReplicas pending.targetOffset
  let processor := { processor with replication }
  if acknowledged < pending.requiredReplicas then (some pending, processor)
  else (none, processor.fulfil pending.task [] (.integer acknowledged))

def retryPendingWaits (processor : Processor) : Processor :=
  let (remaining, processor) :=
    Scan.scan retryWait (Stream'.const ()) processor.pendingWaits processor
  { processor with pendingWaits := remaining }

/-- The deadline of a blocked command has been reached. -/
def isOver (now : Int) (deadline : Option Int) : Bool :=
  deadline.any fun deadline => decide (deadline ≤ now)

/-- End a blocked read whose time is over. -/
def expireIn {Pending : Type} (taskOf : Pending → Task) (deadlineOf : Pending → Option Int)
    (now : Int) (_input : Unit) (pending : Pending) (processor : Processor) :
    Option Pending × Processor :=
  if isOver now (deadlineOf pending) then
    (none, processor.fulfil (taskOf pending) [] .nullArray)
  else (some pending, processor)

def expirePendingListPops (now : Int) (processor : Processor) : Processor :=
  let (remaining, processor) :=
    Scan.scan (expireIn PendingListPop.task PendingListPop.deadline now) (Stream'.const ())
      processor.pendingListPops processor
  { processor with pendingListPops := remaining }

def expirePendingStreamReads (now : Int) (processor : Processor) : Processor :=
  let (remaining, processor) :=
    Scan.scan (expireIn PendingStreamRead.task PendingStreamRead.deadline now) (Stream'.const ())
      processor.pendingStreamReads processor
  { processor with pendingStreamReads := remaining }

def expireWait (now : Int) (_input : Unit) (pending : PendingWait) (processor : Processor) :
    Option PendingWait × Processor :=
  if isOver now pending.deadline then
    let (acknowledged, replication) :=
      processor.replication.countAcknowledgedReplicas pending.targetOffset
    (none, { processor with replication }.fulfil pending.task [] (.integer acknowledged))
  else (some pending, processor)

def expirePendingWaits (now : Int) (processor : Processor) : Processor :=
  let (remaining, processor) :=
    Scan.scan (expireWait now) (Stream'.const ()) processor.pendingWaits processor
  { processor with pendingWaits := remaining }

end Processor

/-! ## The worker loop -/

inductive ProcessorTask where
  | command (clientId : ClientId) (command : Command) (source : CommandSource)
      (replicationBytes : ℕ)
  | registerReplica (clientId : ClientId)
  | installReplicationState (replicationId : Bytes) (offset : ℕ)
  | getReplicationOffset
  | acknowledgeReplica (clientId : ClientId) (offset : ℕ)
  | loadRdb (entries : List StringEntry)
  | initializeAof (file : AppendOnlyFile) (commands : List Command)
  | registerClient (clientId : ClientId) (session : SessionId)
  | unregisterClient (clientId : ClientId)

/-- What the other threads do to the sessions they share with the worker. -/
inductive External where
  /-- A connection creates its Pub/Sub session. -/
  | createSession (session : SessionId)
  /-- A connection takes the next frame of its Pub/Sub session. -/
  | popFrame (session : SessionId)
  /-- A connection ends, and with it its Pub/Sub session. -/
  | dropSession (session : SessionId)
  /-- A sending thread takes the next replication frame. -/
  | sendFrame (session : SessionId)
  | closeReplica (session : SessionId)
  | dropReplica (session : SessionId)

inductive Phase where
  | task (env : Env) (task : ProcessorTask)
  | retryListPops (inputs : Stream' (Clock × Disk))
  | retryStreamReads (clocks : Stream' Clock)
  | retryWaits
  | expireListPops (now : Int)
  | expireStreamReads (now : Int)
  | expireWaits (now : Int)
  | external (event : External)

namespace ProcessorTask

def perform (host : Host) (env : Env) (task : ProcessorTask) (processor : Processor) :
    Option Processor :=
  match task with
  | .command clientId words source replicationBytes =>
    { processor with nextPromise := processor.nextPromise + 1 }.processTask host env
      ⟨processor.nextPromise, clientId, words, source, replicationBytes⟩
  | .registerReplica clientId => some (processor.processReplicaRegistration clientId).2
  | .installReplicationState replicationId offset =>
    some (processor.processReplicationStateInstallation replicationId offset)
  | .getReplicationOffset => some processor
  | .acknowledgeReplica clientId offset =>
    some (processor.processReplicaAcknowledgement clientId offset)
  | .loadRdb entries => some (processor.processRdbLoad env.clock entries)
  | .initializeAof file commands =>
    (processor.processAofInitialization host env.replay file commands).map Prod.snd
  | .registerClient clientId session => some (processor.processClientRegistration clientId session)
  | .unregisterClient clientId => some (processor.processClientUnregistration clientId)

end ProcessorTask

namespace External

def perform (event : External) (processor : Processor) : Processor :=
  match event with
  | .createSession session =>
    match processor.connections.sessions.lookup session with
    | some _ => processor
    | none =>
      { processor with
        connections :=
          { processor.connections with
            sessions := processor.connections.sessions.insert session [] } }
  | .popFrame session =>
    match processor.connections.sessions.lookup session with
    | none => processor
    | some pending =>
      { processor with
        connections :=
          { processor.connections with
            sessions := processor.connections.sessions.insert session pending.tail } }
  | .dropSession session =>
    { processor with
      connections :=
        { processor.connections with
          sessions := processor.connections.sessions.erase session } }
  | .sendFrame session =>
    { processor with
      replication := processor.replication.updateSession session ReplicaSession.sendFrame }
  | .closeReplica session =>
    { processor with
      replication := processor.replication.updateSession session ReplicaSession.close }
  | .dropReplica session =>
    { processor with replication := processor.replication.dropSession session }

end External

namespace Phase

def perform (host : Host) (phase : Phase) (processor : Processor) : Option Processor :=
  match phase with
  | .task env work => work.perform host env processor
  | .retryListPops inputs => some (processor.retryPendingListPops inputs)
  | .retryStreamReads clocks => some (processor.retryPendingStreamReads clocks)
  | .retryWaits => some processor.retryPendingWaits
  | .expireListPops now => some (processor.expirePendingListPops now)
  | .expireStreamReads now => some (processor.expirePendingStreamReads now)
  | .expireWaits now => some (processor.expirePendingWaits now)
  | .external event => some (event.perform processor)

end Phase

/-- One iteration of `run()`: the task it took, if any, the readings of its
passes, and the external events after each of its phases. -/
structure Iteration where
  task : Option (Env × ProcessorTask)
  pops : Stream' (Clock × Disk)
  reads : Stream' Clock
  popsOver : Int
  readsOver : Int
  waitsOver : Int
  events : ℕ → List External := fun _ => []

namespace Iteration

/-- The external events after a phase, as phases. -/
def externals (iteration : Iteration) (position : ℕ) : List Phase :=
  (iteration.events position).map .external

/-- The three passes that end blocked commands whose time is over. -/
def expiries (iteration : Iteration) : List Phase :=
  .expireListPops iteration.popsOver :: iteration.externals 4 ++
    .expireStreamReads iteration.readsOver :: iteration.externals 5 ++
    .expireWaits iteration.waitsOver :: iteration.externals 6

/-- The phases of an iteration.  Without a task, only deadlines are checked. -/
def phases (iteration : Iteration) : List Phase :=
  match iteration.task with
  | none => iteration.externals 0 ++ iteration.expiries
  | some (env, task) =>
    .task env task :: iteration.externals 0 ++
      .retryListPops iteration.pops :: iteration.externals 1 ++
      .retryStreamReads iteration.reads :: iteration.externals 2 ++
      .retryWaits :: iteration.externals 3 ++ iteration.expiries

/-- What comes after the task of an iteration. -/
def passes (iteration : Iteration) : List Phase :=
  iteration.externals 0 ++ .retryListPops iteration.pops :: iteration.externals 1 ++
    .retryStreamReads iteration.reads :: iteration.externals 2 ++
    .retryWaits :: iteration.externals 3 ++ iteration.expiries

theorem phases_of_task {iteration : Iteration} {work : Env × ProcessorTask}
    (htask : iteration.task = some work) :
    iteration.phases = .task work.1 work.2 :: iteration.passes := by
  simp [phases, passes, htask, List.append_assoc]

end Iteration

/-- An environment in which time stands still and nothing goes wrong. -/
def Env.still (clock : Clock) : Env :=
  { clock := Stream'.const clock, watchClock := Stream'.const clock, now := clock.steady }

/-- An iteration in such an environment. -/
def Iteration.still (clock : Clock) (task : ProcessorTask) : Iteration where
  task := some (Env.still clock, task)
  pops := Stream'.const (clock, {})
  reads := Stream'.const clock
  popsOver := clock.steady
  readsOver := clock.steady
  waitsOver := clock.steady

/-- A run in which time stands still. -/
def stillRun (clock : Clock) (tasks : List ProcessorTask) : List Phase :=
  tasks.flatMap fun task => (Iteration.still clock task).phases

/-- The command of a client, as a task. -/
def ProcessorTask.ofClient (clientId : ClientId) (words : Command) : ProcessorTask :=
  .command clientId words .client 0

/-- A run of the processor through some phases. -/
abbrev runPhases (host : Host) (phases : List Phase) (processor : Processor) : Option Processor :=
  Runs.run (Phase.perform host) phases processor

theorem runPhases_append (host : Host) (first second : List Phase) (processor : Processor) :
    runPhases host (first ++ second) processor =
      (runPhases host first processor).bind (runPhases host second) :=
  Runs.run_append _ first second processor

end RedisServer
