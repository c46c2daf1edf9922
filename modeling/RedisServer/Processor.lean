import RedisServer.Aof
import RedisServer.Database.Representation
import RedisServer.Replication

/-!
# The command processor

One worker thread owns the database and takes tasks from a queue.  This module
is its state and the processing of one task: `processTask` for a command (from a
client, from the master link or from the log), and the tasks around it.

What the outside world does during a task is part of its input: `CommandEnv` and
`Env` hold the readings of the clocks, the behaviour of the disk and the
notifications of Pub/Sub sessions.  A function returns `none` when the source
goes down.

Three fields record history and are never read: `events`, the database commands
that were run with the result of their handler, `replies`, the promises that
were fulfilled, and `appendErrors`, what the log reported as its errors.
-/

namespace RedisServer

open Resp Commands Aof

/-! ## State -/

inductive CommandSource where
  | client
  | master
  | aof
deriving DecidableEq, Repr

/-- A command to process.  Its promise is known by a number. -/
structure Task where
  promise : ℕ
  clientId : ClientId
  command : Command
  source : CommandSource
  replicationBytes : ℕ := 0
deriving DecidableEq, Repr

structure PendingListPop where
  task : Task
  key : Bytes
  deadline : Option Int
deriving DecidableEq, Repr

structure PendingStreamRead where
  task : Task
  requests : List ReadRequest
  deadline : Option Int
deriving DecidableEq, Repr

structure PendingWait where
  task : Task
  requiredReplicas : ℕ
  targetOffset : ℕ
  deadline : Option Int
deriving DecidableEq, Repr

structure TransactionState where
  commands : List Command := []
  hasError : Bool := false
deriving DecidableEq, Repr

structure RdbConfig where
  dir : Bytes := ascii "."
  dbFilename : Bytes := ascii "dump.rdb"
deriving DecidableEq, Repr

structure AofConfig where
  enabled : Bool := false
  appendDirname : Bytes := ascii "appendonlydir"
  appendFilename : Bytes := ascii "appendonly.aof"
  appendFsync : Bytes := ascii "everysec"
deriving DecidableEq, Repr

/-- Something that happened to the database. -/
inductive Event where
  /-- A command ran, and its handler gave this result. -/
  | executed (command : Command) (response : Response)
  /-- A key was loaded from an RDB file. -/
  | loaded (key : Bytes)

/-- A fulfilled promise; for an `EXEC`, with the commands it ran. -/
structure Reply where
  task : Task
  transaction : List Command
  response : Response

structure Processor where
  database : Database := {}
  defaultUser : User := User.default none
  rdbConfig : RdbConfig := {}
  aofConfig : AofConfig := {}
  aofFile : Option AppendOnlyFile := none
  replication : Replication := {}
  connections : Connections := {}
  transactions : AList fun _ : ClientId => TransactionState := ∅
  watchedKeys : AList fun _ : ClientId => AList fun _ : Bytes => ℕ := ∅
  pendingListPops : List PendingListPop := []
  pendingStreamReads : List PendingStreamRead := []
  pendingWaits : List PendingWait := []
  nextPromise : ℕ := 0
  events : List Event := []
  replies : List Reply := []
  appendErrors : List Bytes := []

/-- What happens around one call of `process_command`. -/
structure CommandEnv where
  /-- One reading for each database command. -/
  clock : Stream' Clock
  /-- One reading for each key whose revision is asked for. -/
  watchClock : Stream' Clock
  disk : Disk := {}
  notifications : Stream' Notification := Stream'.const none

/-- What happens around one task. -/
structure Env extends CommandEnv where
  /-- The steady clock when a blocking command computes its deadline. -/
  now : Int
  replyNotification : Notification := none
  /-- The environments of the commands that are replayed from the log. -/
  replay : Stream' CommandEnv := Stream'.const toCommandEnv

namespace Processor

/-- Set the value of a task's promise. -/
def fulfil (task : Task) (transaction : List Command) (response : Response)
    (processor : Processor) : Processor :=
  { processor with replies := processor.replies ++ [⟨task, transaction, response⟩] }

def hasTransaction (clientId : ClientId) (processor : Processor) : Bool :=
  (processor.transactions.lookup clientId).isSome

/-- The commands a client has queued. -/
def queued (clientId : ClientId) (processor : Processor) : List Command :=
  ((processor.transactions.lookup clientId).map TransactionState.commands).getD []

def isAuthenticated (clientId : ClientId) (processor : Processor) : Bool :=
  (processor.connections.clients.lookup clientId).any ClientState.authenticated

/-! ## Propagation -/

/-- The errors in the result of an append. -/
def reported : Except Bytes Unit → List Bytes
  | .ok () => []
  | .error message => [message]

/-- Append to the log if asked to; the file is there then. -/
def persist (enabled : Bool) (disk : Disk) (payload : Bytes) (processor : Processor) :
    Except Bytes Unit × Processor :=
  match processor.aofFile with
  | none => (.ok (), processor)
  | some file =>
    if enabled then
      let (result, file) := append disk payload file
      (result,
        { processor with
          aofFile := some file
          appendErrors := processor.appendErrors ++ reported result })
    else (.ok (), processor)

/-- Log a payload and then replicate it.  What could not be logged is not
replicated. -/
def propagate (persisted replicated : Bool) (disk : Disk) (clientId : ClientId)
    (payload : Bytes) (processor : Processor) : Except Bytes Unit × Processor :=
  match processor.persist persisted disk payload with
  | (.error message, processor) => (.error message, processor)
  | (.ok (), processor) =>
    (.ok (),
      if replicated then
        { processor with
          replication := processor.replication.appendClientReplicationFrame clientId payload }
      else processor)

/-- A write of this source goes into the log. -/
def persists (source : CommandSource) (processor : Processor) : Bool :=
  processor.aofFile.isSome && source ≠ .aof

/-- A write of this source goes to the replicas. -/
def replicates (source : CommandSource) (processor : Processor) : Bool :=
  processor.replication.role = .master && source = .client

def misconf (message : Bytes) : Response :=
  .simpleError (ascii "MISCONF AOF persistence error: " ++ message)

def persistBlockingPop (disk : Disk) (task : Task) (key : Bytes) (processor : Processor) :
    Except Bytes Unit × Processor :=
  processor.propagate (processor.persists task.source) (processor.replicates task.source) disk
    task.clientId (serializeCommand [CommandName.lpop.text, key])

/-! ## Transactions -/

/-- Run one command on the database. -/
def runCommand (host : Host) (clock : Clock) (command : Command) (processor : Processor) :
    Option (Response × Processor) :=
  (dispatch host clock processor.database command).map fun (response, database) =>
    (response,
      { processor with database, events := processor.events ++ [.executed command response] })

/-- The loop of `WATCH`: a key that is watched already keeps its revision. -/
def watchKeys : List Bytes → Stream' Clock → (AList fun _ : Bytes => ℕ) → Database →
    (AList fun _ : Bytes => ℕ) × Database
  | [], _, watched, database => (watched, database)
  | key :: rest, clocks, watched, database =>
    if (watched.lookup key).isSome then watchKeys rest clocks.tail watched database
    else
      let (revision, database) := database.keyRevision clocks.head key
      watchKeys rest clocks.tail (watched.insert key revision) database

/-- The loop of `EXEC` over the watched keys; it stops at the first changed one. -/
def watchedKeyChanged : List ((_ : Bytes) × ℕ) → Stream' Clock → Database → Bool × Database
  | [], _, database => (false, database)
  | ⟨key, originalRevision⟩ :: rest, clocks, database =>
    let (revision, database) := database.keyRevision clocks.head key
    if revision ≠ originalRevision then (true, database)
    else watchedKeyChanged rest clocks.tail database

/-- The loop of `EXEC` over the queued commands: the responses, and the writes
that took effect in the form in which they are propagated. -/
def executeCommands (host : Host) (propagated : Bool) : List Command → Stream' Clock →
    Processor → Option (List Response × List Command × Processor)
  | [], _, processor => some ([], [], processor)
  | command :: rest, clocks, processor =>
    (processor.runCommand host clocks.head command).bind fun (response, processor) =>
      (executeCommands host propagated rest clocks.tail processor).map
        fun (responses, logged, processor) =>
          (response :: responses,
            if propagated && (isWriteCommand host command && writeModifiedDatabase command response)
            then normalizeReplicationCommand command response :: logged else logged,
            processor)

/-- A transaction in the log and in the replication stream. -/
def transactionPayload (logged : List Command) : Bytes :=
  serializeCommand [CommandName.multi.text] ++ logged.flatMap serializeCommand ++
    serializeCommand [CommandName.exec.text]

/-- Log and replicate a transaction, if one of its writes took effect. -/
def propagateTransaction (persisted replicated : Bool) (disk : Disk) (clientId : ClientId)
    (logged : List Command) (processor : Processor) : Except Bytes Unit × Processor :=
  if logged = [] then (.ok (), processor)
  else processor.propagate persisted replicated disk clientId (transactionPayload logged)

/-- The transaction of a client is over, and so is its watching. -/
def closeTransaction (clientId : ClientId) (database : Database) (processor : Processor) :
    Processor :=
  { processor with
    database
    transactions := processor.transactions.erase clientId
    watchedKeys := processor.watchedKeys.erase clientId }

/-- The watched keys of a client, in the order of the map. -/
def watchedBy (clientId : ClientId) (processor : Processor) : List ((_ : Bytes) × ℕ) :=
  ((processor.watchedKeys.lookup clientId).map AList.entries).getD []

def executeTransaction (host : Host) (env : CommandEnv) (clientId : ClientId)
    (source : CommandSource) (processor : Processor) : Option (Response × Processor) :=
  match processor.transactions.lookup clientId with
  | none => some (.simpleError (ascii "ERR EXEC without MULTI"), processor)
  | some transaction =>
    let (changed, database) :=
      watchedKeyChanged (processor.watchedBy clientId) env.watchClock processor.database
    let processor := processor.closeTransaction clientId database
    if transaction.hasError then
      some (.simpleError (ascii "EXECABORT Transaction discarded because of previous errors."),
        processor)
    else if changed then some (.nullArray, processor)
    else if transaction.commands = [] then some (.emptyArray, processor)
    else
      let persisted := processor.persists source
      let replicated := processor.replicates source
      (executeCommands host (replicated || persisted) transaction.commands env.clock
        processor).map fun (responses, logged, processor) =>
          match processor.propagateTransaction persisted replicated env.disk clientId logged with
          | (.error message, processor) => (misconf message, processor)
          | (.ok (), processor) => (.responseArray responses, processor)

/-! ## Commands -/

def replicationRole (processor : Processor) : Bytes :=
  match processor.replication.role with
  | .master => ascii "master"
  | .replica => ascii "slave"

def info (processor : Processor) : Response :=
  .bulkString
    (ascii "# Replication" ++ crlf ++ ascii "role:" ++ processor.replicationRole ++ crlf ++
      ascii "master_replid:" ++ processor.replication.replicationId ++ crlf ++
      ascii "master_repl_offset:" ++ Decimal.print processor.replication.offset ++ crlf)

def config (command : Command) (processor : Processor) : Response :=
  match command with
  | [_, action, parameter] =>
    if action ≠ ascii "GET" then .simpleError (ascii "ERR syntax error")
    else if parameter = ascii "dir" then .array [ascii "dir", processor.rdbConfig.dir]
    else if parameter = ascii "dbfilename" then
      .array [ascii "dbfilename", processor.rdbConfig.dbFilename]
    else if parameter = ascii "appendonly" then
      .array [ascii "appendonly", if processor.aofConfig.enabled then ascii "yes" else ascii "no"]
    else if parameter = ascii "appenddirname" then
      .array [ascii "appenddirname", processor.aofConfig.appendDirname]
    else if parameter = ascii "appendfilename" then
      .array [ascii "appendfilename", processor.aofConfig.appendFilename]
    else if parameter = ascii "appendfsync" then
      .array [ascii "appendfsync", processor.aofConfig.appendFsync]
    else .emptyArray
  | _ => .simpleError (ascii "ERR syntax error")

/-- `PING` of a subscribed client. -/
def subscribedPing (command : Command) : Response :=
  match command with
  | _ :: _ :: _ :: _ => .simpleError (ascii "ERR wrong number of arguments for 'ping' command")
  | [_, text] => .array [ascii "pong", text]
  | _ => .array [ascii "pong", []]

def replconf (command : Command) : Response :=
  if command.length ≠ 3 then
    .simpleError (ascii "ERR wrong number of arguments for 'replconf' command")
  else ok

def psync (command : Command) (processor : Processor) : Response :=
  if command.length ≠ 3 then
    .simpleError (ascii "ERR wrong number of arguments for 'psync' command")
  else
    .simpleString (ascii "FULLRESYNC " ++ processor.replication.replicationId ++ ascii " " ++
      Decimal.print processor.replication.offset)

def watch (env : CommandEnv) (clientId : ClientId) (command : Command) (processor : Processor) :
    Response × Processor :=
  match command with
  | _ :: key :: keys =>
    if processor.hasTransaction clientId then
      (.simpleError (ascii "ERR WATCH inside MULTI is not allowed"), processor)
    else
      let (watched, database) := watchKeys (key :: keys) env.watchClock
        ((processor.watchedKeys.lookup clientId).getD ∅) processor.database
      (ok,
        { processor with
          database, watchedKeys := processor.watchedKeys.insert clientId watched })
  | _ =>
    (.simpleError (ascii "ERR Invalid syntax. Expected usage: WATCH <key1> <key2> ..."),
      processor)

def unwatch (clientId : ClientId) (command : Command) (processor : Processor) :
    Response × Processor :=
  if command.length ≠ 1 then
    (.simpleError (ascii "ERR wrong number of arguments for 'unwatch' command"), processor)
  else (ok, { processor with watchedKeys := processor.watchedKeys.erase clientId })

def multi (clientId : ClientId) (processor : Processor) : Response × Processor :=
  if processor.hasTransaction clientId then
    (.simpleError (ascii "ERR MULTI calls cannot be nested"), processor)
  else (ok, { processor with transactions := processor.transactions.insert clientId {} })

def discard (clientId : ClientId) (processor : Processor) : Response × Processor :=
  if processor.hasTransaction clientId then
    (ok,
      { processor with
        transactions := processor.transactions.erase clientId
        watchedKeys := processor.watchedKeys.erase clientId })
  else (.simpleError (ascii "ERR DISCARD without MULTI"), processor)

/-- Queue a command in an open transaction, or run it. -/
def queueOrRun (host : Host) (env : CommandEnv) (clientId : ClientId) (command : Command)
    (processor : Processor) : Option (Response × Processor) :=
  match processor.transactions.lookup clientId with
  | some transaction =>
    some (.simpleString (ascii "QUEUED"),
      { processor with
        transactions := processor.transactions.insert clientId
          { transaction with commands := transaction.commands ++ [command] } })
  | none => processor.runCommand host env.clock.head command

/-- Answer from the connections, and store what became of them. -/
def answerFrom (answer : Response × Connections) (processor : Processor) : Response × Processor :=
  (answer.1, { processor with connections := answer.2 })

def processCommand (host : Host) (env : CommandEnv) (clientId : ClientId) (command : Command)
    (source : CommandSource) (processor : Processor) : Option (Response × Processor) :=
  if command = [] then some (.simpleError (ascii "ERR empty command"), processor)
  else
    match nameOf command with
    | some .subscribe =>
      processor.answerFrom
        (processor.connections.subscribe env.notifications.head clientId command)
    | some .unsubscribe =>
      processor.answerFrom
        (processor.connections.unsubscribe env.notifications.head clientId command)
    | some .ping =>
      if processor.connections.isSubscribed clientId then
        some (subscribedPing command, processor)
      else processor.queueOrRun host env clientId command
    | some .publish =>
      processor.answerFrom (processor.connections.publish env.notifications command)
    | some .auth =>
      processor.answerFrom
        (Acl.authenticate host processor.defaultUser clientId command processor.connections)
    | some .acl =>
      let (response, user) := Acl.processAclCommand host clientId command processor.connections
        processor.defaultUser
      some (response, { processor with defaultUser := user })
    | some .info => some (processor.info, processor)
    | some .config => some (processor.config command, processor)
    | some .replconf => some (replconf command, processor)
    | some .psync => some (processor.psync command, processor)
    | some .watch => some (processor.watch env clientId command)
    | some .unwatch => some (processor.unwatch clientId command)
    | some .multi => some (processor.multi clientId)
    | some .exec => processor.executeTransaction host env clientId source
    | some .discard => some (processor.discard clientId)
    | _ => processor.queueOrRun host env clientId command

end Processor

end RedisServer
