import RedisServer.Processor.Clients
import RedisServer.Processor.Fixpoint

/-!
# `EXEC` agrees with direct execution

The commands of the table come to the same end whether a client submits them one by
one or queues them for an `EXEC`.  Both are compared with `runAll`, which runs the
commands on a database and nothing else: `Ran` says what a step added to the replies,
to the log and to the backlog of the replicas.
-/

namespace RedisServer

open Resp KeyedStore Commands Aof Database

variable {before after : Processor} {payloads : List Bytes} {database : Database} {env : Env}
  {commands : List Command}

/-! ## The commands alone -/

/-- Run commands one after the other on a database, all at the same time. -/
def runAll (host : Host) (clock : Clock) :
    List Command → Database → Option (List Response × Database)
  | [], database => some ([], database)
  | command :: rest, database =>
    (dispatch host clock database command).bind fun (response, database) =>
      (runAll host clock rest database).map fun (responses, database) =>
        (response :: responses, database)

/-- The command is a `BLPOP` that meets a missing list, or an `XREAD` with `BLOCK` that
finds no data. -/
def blocks (host : Host) (clock : Clock) (database : Database) (command : Command) : Bool :=
  match nameOf command with
  | some .blpop =>
    match parseBlpop host command with
    | .error _ => false
    | .ok request =>
      match (Database.popListElement clock request.key database).1 with
      | .ok _ | .error .wrongType => false
      | .error _ => true
  | some .xread =>
    match parseXread command with
    | .error _ => false
    | .ok readCommand =>
      match (Database.readStreams clock readCommand.requests database).1 with
      | .ok [] => decide (readCommand.mode ≠ .immediate)
      | _ => false
  | _ => false

/-- No command of the list blocks when its turn comes. -/
def neverBlocks (host : Host) (clock : Clock) : List Command → Database → Bool
  | [], _ => true
  | command :: rest, database =>
    !blocks host clock database command &&
      (dispatch host clock database command).all fun (_, database) =>
        neverBlocks host clock rest database

/-- The writes of the commands that took effect, as they are propagated. -/
def writesOf (host : Host) (commands : List Command) (responses : List Response) : List Command :=
  (List.zipWith Event.executed commands responses).flatMap (Event.writes host)

/-- The table `command_handlers` has the command. -/
def InTable (host : Host) (command : Command) : Prop :=
  (findCommandDefinition host command).isSome = true

/-- No append to the log fails. -/
def Aof.Disk.Reliable (disk : Disk) : Prop :=
  ∀ payload file, (append disk payload file).1 = .ok ()

/-- No append to the log fails; nothing else is assumed. -/
def Regime.reliable : Regime where
  Timely _ := True
  Safe := Aof.Disk.Reliable
  Ordered _ := True
  Kept _ := False
  Recovers := True

namespace Processor

/-! ## What a step adds -/

/-- The step led to this database, gave these replies and propagated these payloads;
who is connected and who waits stayed the same. -/
structure Ran (payloads : List Bytes) (answered : List Reply) (database : Database)
    (before after : Processor) : Prop where
  database : after.database = database
  replies : after.replies = before.replies ++ answered
  log : after.aofFile.map AppendOnlyFile.contents =
    before.aofFile.map fun file => file.contents ++ payloads.flatten
  backlog : after.replication.backlog.map ReplicationFrame.payload =
    before.replication.backlog.map ReplicationFrame.payload ++ payloads
  role : after.replication.role = before.replication.role
  pops : after.pendingListPops = before.pendingListPops
  reads : after.pendingStreamReads = before.pendingStreamReads
  waits : after.pendingWaits = before.pendingWaits
  clients : after.connections.clients = before.connections.clients
  subscriptions : after.connections.clientSubscriptions = before.connections.clientSubscriptions

theorem Ran.trans {payloads' : List Bytes} {answered answered' : List Reply} {database' : Database}
    {first second third : Processor} (h₁ : Ran payloads answered database first second)
    (h₂ : Ran payloads' answered' database' second third) :
    Ran (payloads ++ payloads') (answered ++ answered') database' first third where
  database := h₂.database
  replies := by rw [h₂.replies, h₁.replies, List.append_assoc]
  log := by
    have hlog := h₁.log
    rw [h₂.log]
    cases hfile : second.aofFile <;> cases hfile' : first.aofFile <;>
      simp_all
  backlog := by rw [h₂.backlog, h₁.backlog, List.append_assoc]
  role := h₂.role.trans h₁.role
  pops := h₂.pops.trans h₁.pops
  reads := h₂.reads.trans h₁.reads
  waits := h₂.waits.trans h₁.waits
  clients := h₂.clients.trans h₁.clients
  subscriptions := h₂.subscriptions.trans h₁.subscriptions

/-- A step that the commands do not notice. -/
theorem Ran.nothing (hdatabase : after.database = before.database)
    (hreplies : after.replies = before.replies) (hfile : after.aofFile = before.aofFile)
    (hbacklog : after.replication.backlog = before.replication.backlog)
    (hrole : after.replication.role = before.replication.role)
    (hpops : after.pendingListPops = before.pendingListPops)
    (hreads : after.pendingStreamReads = before.pendingStreamReads)
    (hwaits : after.pendingWaits = before.pendingWaits)
    (hclients : after.connections.clients = before.connections.clients) (hsubscriptions :
      after.connections.clientSubscriptions = before.connections.clientSubscriptions) :
    Ran [] [] before.database before after := by
  refine ⟨hdatabase, by simp [hreplies], ?_, by simp [hbacklog], hrole, hpops, hreads, hwaits,
    hclients, hsubscriptions⟩
  rw [hfile]
  simp

theorem Ran.still (before : Processor) (database : Database) :
    Ran [] [] database before { before with database } :=
  ⟨rfl, by simp, by simp, by simp, rfl, rfl, rfl, rfl, rfl, rfl⟩

/-- A master on which nobody is blocked, and a client that has authenticated, is not
subscribed and watches nothing. -/
structure Free (clientId : ClientId) (processor : Processor) : Prop where
  master : processor.replication.role = .master
  pops : processor.pendingListPops = []
  reads : processor.pendingStreamReads = []
  waits : processor.pendingWaits = []
  authenticated : processor.isAuthenticated clientId = true
  unsubscribed : processor.connections.isSubscribed clientId = false
  unwatched : processor.watchedBy clientId = []

section Standing

variable {clientId : ClientId} {payloads : List Bytes} {answered : List Reply}
  {database : Database} {before after : Processor}

theorem Free.ran (h : Free clientId before) (hran : Ran payloads answered database before after)
    (hunwatched : after.watchedBy clientId = []) : Free clientId after where
  master := hran.role.trans h.master
  pops := hran.pops.trans h.pops
  reads := hran.reads.trans h.reads
  waits := hran.waits.trans h.waits
  authenticated := by
    rw [isAuthenticated, hran.clients]
    exact h.authenticated
  unsubscribed := by
    rw [Connections.isSubscribed, hran.subscriptions]
    exact h.unsubscribed
  unwatched := hunwatched

/-- The client is let through. -/
theorem Free.not_refuses (h : Free clientId before) {task : Task}
    (hclient : task.clientId = clientId) : ¬ before.Refuses task := by
  subst hclient
  rintro ⟨-, ⟨-, hunknown⟩ | ⟨hlistens, -⟩⟩
  · rw [h.authenticated] at hunknown
    cases hunknown
  · rw [h.unsubscribed] at hlistens
    cases hlistens

end Standing

/-! ## The rest of an iteration -/

/-- Nothing that a command or its client can notice has changed. -/
structure Rests (before after : Processor) : Prop where
  ran : Ran [] [] before.database before after
  transactions : after.transactions = before.transactions
  watchedKeys : after.watchedKeys = before.watchedKeys

theorem Rests.refl (processor : Processor) : Rests processor processor :=
  ⟨.nothing rfl rfl rfl rfl rfl rfl rfl rfl rfl rfl, rfl, rfl⟩

theorem Rests.trans {first second third : Processor} (h₁ : Rests first second)
    (h₂ : Rests second third) : Rests first third := by
  have hran := h₁.ran.trans h₂.ran
  rw [h₁.ran.database] at hran
  exact ⟨hran, h₂.transactions.trans h₁.transactions, h₂.watchedKeys.trans h₁.watchedKeys⟩

theorem Rests.free {clientId : ClientId} (h : Rests before after) (hfree : Free clientId before) :
    Free clientId after := by
  refine hfree.ran h.ran ?_
  rw [watchedBy, h.watchedKeys]
  exact hfree.unwatched

theorem rests_updateSession (session : SessionId) (update : ReplicaSession → ReplicaSession)
    (processor : Processor) :
    Rests processor
      { processor with replication := processor.replication.updateSession session update } := by
  unfold Replication.updateSession
  split
  · exact .refl _
  · exact ⟨.nothing rfl rfl rfl rfl rfl rfl rfl rfl rfl rfl, rfl, rfl⟩

theorem rests_external (event : External) (processor : Processor) :
    Rests processor (event.perform processor) := by
  cases event with
  | createSession session =>
    simp only [External.perform]
    split
    · exact .refl _
    · exact ⟨.nothing rfl rfl rfl rfl rfl rfl rfl rfl rfl rfl, rfl, rfl⟩
  | popFrame session =>
    simp only [External.perform]
    split
    · exact .refl _
    · exact ⟨.nothing rfl rfl rfl rfl rfl rfl rfl rfl rfl rfl, rfl, rfl⟩
  | dropSession session => exact ⟨.nothing rfl rfl rfl rfl rfl rfl rfl rfl rfl rfl, rfl, rfl⟩
  | sendFrame session => exact rests_updateSession session _ processor
  | closeReplica session => exact rests_updateSession session _ processor
  | dropReplica session => exact ⟨.nothing rfl rfl rfl rfl rfl rfl rfl rfl rfl rfl, rfl, rfl⟩

/-- A phase other than a task, while nobody waits. -/
theorem rests_perform {host : Host} {clientId : ClientId} {phase : Phase}
    (hphase : ∀ env work, phase ≠ .task env work) {processor : Processor}
    (hfree : Free clientId processor) :
    ∃ after, phase.perform host processor = some after ∧ Rests processor after := by
  cases phase with
  | task env work => exact absurd rfl (hphase env work)
  | external event => exact ⟨_, rfl, rests_external event processor⟩
  | retryListPops _ | expireListPops _ =>
    refine ⟨processor, ?_, .refl _⟩
    simp only [Phase.perform, retryPendingListPops, expirePendingListPops, hfree.pops,
      Scan.scan_nil]
    rw [← hfree.pops]
  | retryStreamReads _ | expireStreamReads _ =>
    refine ⟨processor, ?_, .refl _⟩
    simp only [Phase.perform, retryPendingStreamReads, expirePendingStreamReads, hfree.reads,
      Scan.scan_nil]
    rw [← hfree.reads]
  | retryWaits | expireWaits _ =>
    refine ⟨processor, ?_, .refl _⟩
    simp only [Phase.perform, retryPendingWaits, expirePendingWaits, hfree.waits, Scan.scan_nil]
    rw [← hfree.waits]

theorem rests_run {host : Host} {clientId : ClientId} {phases : List Phase}
    (hphases : ∀ phase ∈ phases, ∀ env work, phase ≠ .task env work) {processor : Processor}
    (hfree : Free clientId processor) :
    ∃ after, runPhases host phases processor = some after ∧ Rests processor after := by
  induction phases generalizing processor with
  | nil => exact ⟨processor, rfl, .refl _⟩
  | cons phase rest ih =>
    obtain ⟨middle, hphase, hmiddle⟩ := rests_perform (hphases phase (by simp)) hfree
    obtain ⟨after, hrest, hafter⟩ :=
      ih (fun other hother => hphases other (by simp [hother])) (hmiddle.free hfree)
    exact ⟨after, Runs.run_cons_eq_some.mpr ⟨middle, hphase, hrest⟩, hmiddle.trans hafter⟩

/-! ## A direct command -/

theorem ok_of_logged {result : Except Bytes Unit}
    (h : Deed.Logged Regime.reliable result) : result = .ok () := by
  rcases h with hok | ⟨disk, hsafe, payload, file, rfl⟩
  · exact hok
  · exact hsafe payload file

/-- What was propagated is in the log and in the backlog. -/
theorem ran_of_propagates {log : Bytes} {result : Except Bytes Unit} (hlog : log = payloads.flatten)
    (h : Propagates Regime.reliable log payloads result before after) :
    Ran payloads [] before.database before after := by
  subst hlog
  have hok := ok_of_logged h.outcome
  obtain ⟨hframe, -, hlogged, hstreamed⟩ := h
  have hlogged := hlogged hok
  obtain ⟨hrole, hbacklog, -⟩ := hstreamed hok
  obtain ⟨file, replication, rfl⟩ := hframe
  exact ⟨rfl, by simp, hlogged, hbacklog, hrole, rfl, rfl, rfl, rfl, rfl⟩

/-- The payloads of one command. -/
def payloadsOf (host : Host) (command : Command) (response : Response) : List Bytes :=
  (Event.writes host (.executed command response)).map serializeCommand

section Direct

variable {host : Host} {clientId : ClientId} {task : Task} {before after : Processor}

theorem log_ran (hsource : task.source = .client) (response : Response)
    (result : Except Bytes Unit) :
    Deed.log host (.ran task response result) = (payloadsOf host task.command response).flatten := by
  by_cases heffective : effective host task.command response = true <;>
    simp [Deed.log, Deed.payload, payloadsOf, Event.writes, Deed.source, hsource, heffective]

theorem frames_ran (hsource : task.source = .client) {role : ReplicationRole}
    (hrole : role = .master) (response : Response) (result : Except Bytes Unit) :
    Deed.frames host role (.ran task response result) =
      payloadsOf host task.command response := by
  by_cases heffective : effective host task.command response = true <;>
    simp [Deed.frames, Deed.payload, payloadsOf, Event.writes, Deed.source, hsource, hrole,
      heffective]

/-- The answer to a task goes to its promise. -/
theorem ran_fulfil (h : Ran payloads [] database before after) (transaction : List Command)
    (response : Response) :
    Ran payloads [⟨task, transaction, response⟩] database before
      (after.fulfil task transaction response) :=
  { h with replies := by rw [fulfil, h.replies, List.append_nil] }

/-- A command of the table is not one that `process_command` treats itself. -/
theorem processCommand_table {env : CommandEnv} {command : Command} {source : CommandSource}
    (htable : InTable host command) (hfree : Free clientId before) :
    before.processCommand host env clientId command source =
      before.queueOrRun host env clientId command := by
  have hunsubscribed := hfree.unsubscribed
  unfold InTable findCommandDefinition at htable
  have hnonempty : command ≠ [] := by
    rintro rfl
    simp [nameOf] at htable
  cases hname : nameOf command with
  | none => simp [hname] at htable
  | some name =>
    rw [hname, Option.bind_some] at htable
    cases name with
    | subscribe | unsubscribe | publish | auth | acl | info | config | replconf | psync | watch
    | unwatch | multi | exec | discard | wait => cases htable
    | _ => simp only [processCommand, hnonempty, if_false, hname, hunsubscribed,
        Bool.false_eq_true]

/-- A direct command that `process_task` hands to `process_command`. -/
theorem direct_other (hdisk : env.disk.Reliable) (hfree : Free clientId before)
    (hclosed : before.transactions.lookup clientId = none) (hclient : task.clientId = clientId)
    (hsource : task.source = .client) (htable : InTable host task.command)
    (hblpop : nameOf task.command ≠ some .blpop) (hxread : nameOf task.command ≠ some .xread) :
    match dispatch host env.clock.head before.database task.command with
    | none => before.processTask host env task = none
    | some (response, database) => ∃ after, before.processTask host env task = some after ∧
        Ran (payloadsOf host task.command response) [⟨task, [], response⟩] database before after ∧
        after.transactions = before.transactions ∧ after.watchedKeys = before.watchedKeys := by
  have hwait : nameOf task.command ≠ some .wait := by
    intro hname
    simp [InTable, findCommandDefinition, hname, commandHandlers] at htable
  have hexec : nameOf task.command ≠ some .exec := by
    intro hname
    simp [InTable, findCommandDefinition, hname, commandHandlers] at htable
  have hopen : before.hasTransaction task.clientId = false := by
    rw [hasTransaction, hclient, hclosed]
    rfl
  have hqueued : before.transactionOf task = [] := if_neg hexec
  rw [processTask_direct (hfree.not_refuses hclient) (.inl hfree.master)
    (.inr ⟨hblpop, hxread, hwait⟩), processDirect, hclient, processCommand_table htable hfree,
    queueOrRun, hclosed, hqueued]
  rw [hclient] at hopen
  simp only [hopen, Bool.not_false, Bool.true_and, runCommand, Option.map_map]
  cases hdispatch : dispatch host env.clock.head before.database task.command with
  | none => rfl
  | some outcome =>
    obtain ⟨response, database⟩ := outcome
    simp only [Option.map_some, Function.comp_apply]
    let ran : Processor := { before with
      database, events := before.events ++ [.executed task.command response] }
    have hsafe : Regime.reliable.Safe env.disk := hdisk
    obtain ⟨result, middle, hpropagate, hpropagates, -⟩ :=
      propagates_propagateDirect host hsafe task response ran
    obtain rfl := ok_of_logged hpropagates.outcome
    rw [log_ran hsource, frames_ran hsource hfree.master] at hpropagates
    have hran : Ran (payloadsOf host task.command response) [] database ran middle :=
      ran_of_propagates rfl hpropagates
    obtain ⟨file, replication, rfl⟩ := hpropagates.frame
    have hdirect : ¬ (task.source = .client ∧ Connections.isSubscribed task.clientId
        before.connections = true) := by
      rw [hclient, hfree.unsubscribed]
      simp
    obtain ⟨offset, hfinish⟩ := @finishTask_direct task { ran with
      aofFile := file, replication, appendErrors := ran.appendErrors ++ reported (.ok ()) }
      hdirect env.replyNotification [] (!responseIsError response) response
    rw [hpropagate]
    refine ⟨_, rfl, ?_, ?_⟩
    · simp only [settled, hfinish]
      refine ran_fulfil ?_ [] response
      exact { hran with }
    · simp only [settled, hfinish]
      exact ⟨rfl, rfl⟩

/-- A direct `BLPOP` that meets a list, or a value of another type. -/
theorem BlpopOutcome.direct (h : BlpopOutcome host env task before after)
    (hdisk : env.disk.Reliable) (hfree : Free clientId before) (hsource : task.source = .client)
    (hname : nameOf task.command = some .blpop)
    (hblocks : blocks host env.clock.head before.database task.command = false) :
    Ran (payloadsOf host task.command
        (blpop host env.clock.head before.database task.command).1)
      [⟨task, [], (blpop host env.clock.head before.database task.command).1⟩]
      (blpop host env.clock.head before.database task.command).2 before after ∧
    after.transactions = before.transactions ∧ after.watchedKeys = before.watchedKeys := by
  have hfailed : ∀ message, payloadsOf host task.command (.simpleError message) = [] := by
    intro message
    simp [payloadsOf, Event.writes, effective_error]
  cases h with
  | refused hparse =>
    simp only [blpop, hparse, hfailed]
    exact ⟨ran_fulfil (.still _ _) [] _, rfl, rfl⟩
  | @answered request _ hparse hattempt =>
    cases hattempt with
    | @served value database result after hpop hpersist =>
      have hsafe : Regime.reliable.Safe env.disk := hdisk
      have hpropagates := Propagates.fromSource hsafe hpersist
      have hpayloads : payloadsOf host task.command (.array [request.key, value]) =
          [serializeCommand [CommandName.lpop.text, request.key]] := by
        have heffective : effective host task.command (.array [request.key, value]) = true :=
          (effective_blpop hname _).mpr ⟨_, _, rfl⟩
        simp [payloadsOf, Event.writes, heffective, normalize_blpop hname hparse]
      rw [if_neg (by simp [hsource]), if_pos ⟨hfree.master, hsource⟩] at hpropagates
      obtain rfl := ok_of_logged hpropagates.outcome
      have hran := ran_of_propagates (by simp) hpropagates
      obtain ⟨file, replication, rfl⟩ := hpropagates.frame
      simp only [blpop, hparse, hpop, hpayloads]
      refine ⟨ran_fulfil ?_ [] _, rfl, rfl⟩
      exact { hran with }
    | @wrongType database hpop =>
      simp only [blpop, hparse, hpop, wrongTypeError, hfailed]
      exact ⟨ran_fulfil (.still _ _) [] _, rfl, rfl⟩
  | waits hparse hattempt =>
    cases hattempt with
    | @waits error database hpop herror =>
      -- The list is missing.
      simp only [blocks, hname, hparse, hpop] at hblocks
      cases error <;> first | exact absurd rfl herror | cases hblocks

/-- A direct `XREAD` that finds data, fails, or does not ask to wait. -/
theorem XreadOutcome.direct (h : XreadOutcome env task before after)
    (hname : nameOf task.command = some .xread)
    (hblocks : blocks host env.clock.head before.database task.command = false) :
    Ran [] [⟨task, [], (xread env.clock.head before.database task.command).1⟩]
      (xread env.clock.head before.database task.command).2 before after ∧
    after.transactions = before.transactions ∧ after.watchedKeys = before.watchedKeys := by
  cases h with
  | refused hparse =>
    simp only [xread, hparse]
    exact ⟨ran_fulfil (.still _ _) [] _, rfl, rfl⟩
  | failed hparse hread | found hparse hread | nothing hparse hread =>
    simp only [xread, hparse, hread]
    exact ⟨ran_fulfil (.still _ _) [] _, rfl, rfl⟩
  | @waits readCommand _ _ _ hparse hread hdeadline =>
    have hmode : readCommand.mode = .immediate := by
      simpa [blocks, hname, hparse, hread] using hblocks
    rcases hdeadline with ⟨hblocked, -⟩ | ⟨_, hblocked, -⟩ <;> cases hblocked.symm.trans hmode

/-- **A command of the table that does not block, submitted directly.** -/
theorem direct_step {env : Env} (hdisk : env.disk.Reliable) (hfree : Free clientId before)
    (hclosed : before.transactions.lookup clientId = none) (hclient : task.clientId = clientId)
    (hsource : task.source = .client) (htable : InTable host task.command)
    (hblocks : blocks host env.clock.head before.database task.command = false) :
    match dispatch host env.clock.head before.database task.command with
    | none => before.processTask host env task = none
    | some (response, database) => ∃ after, before.processTask host env task = some after ∧
        Ran (payloadsOf host task.command response) [⟨task, [], response⟩] database before after ∧
        after.transactions = before.transactions ∧ after.watchedKeys = before.watchedKeys := by
  have hnonempty : task.command ≠ [] := by
    intro hempty
    simp [InTable, findCommandDefinition, nameOf, hempty] at htable
  have hgate := hfree.not_refuses hclient
  have hmaster : ¬ (before.replication.role = .replica ∧ task.source = .client ∧
      isWriteCommand host task.command = true) := by
    rw [hfree.master]
    exact fun h => by cases h.1
  have hopen : (!before.hasTransaction task.clientId) = true := by
    rw [hasTransaction, hclient, hclosed]
    rfl
  by_cases hblpop : nameOf task.command = some .blpop
  · have hdispatch : dispatch host env.clock.head before.database task.command =
        some (blpop host env.clock.head before.database task.command) := by
      simp [dispatch, hnonempty, findCommandDefinition, hblpop, commandHandlers]
    have hprocess : before.processTask host env task =
        some (before.processBlpop host env task) := by
      rw [processTask_admitted hgate, if_neg hmaster, if_pos ⟨hblpop, hopen⟩]
    rw [hdispatch]
    exact ⟨_, hprocess, (processBlpop_cases host env task before).direct hdisk hfree hsource hblpop
      hblocks⟩
  by_cases hxread : nameOf task.command = some .xread
  · have hdispatch : dispatch host env.clock.head before.database task.command =
        some (xread env.clock.head before.database task.command) := by
      simp [dispatch, hnonempty, findCommandDefinition, hxread, commandHandlers]
    have hprocess : before.processTask host env task = some (before.processXread env task) := by
      rw [processTask_admitted hgate, if_neg hmaster,
        if_neg fun hboth => hblpop hboth.1, if_pos ⟨hxread, hopen⟩]
    have hpayloads : ∀ response, payloadsOf host task.command response = [] := by
      intro response
      simp [payloadsOf, Event.writes, effective_of_read hxread rfl]
    obtain ⟨hran, hrest⟩ := (processXread_cases env task before).direct hxread hblocks
    rw [hdispatch]
    exact ⟨_, hprocess, hpayloads _ ▸ hran, hrest⟩
  · exact direct_other hdisk hfree hclosed hclient hsource htable hblpop hxread

end Direct

/-! ## Iterations -/

/-- The iteration takes this command of the client from the queue; the clock stands
still, and no append fails. -/
def Submits (clientId : ClientId) (clock : Clock) (command : Command) (iteration : Iteration) :
    Prop :=
  ∃ env replicationBytes,
    iteration.task = some (env, .command clientId command .client replicationBytes) ∧
    (∀ n, env.clock.get n = clock) ∧ env.disk.Reliable

section Iterations

variable {host : Host} {clientId : ClientId} {clock : Clock} {command : Command}
  {iteration : Iteration} {before : Processor}

/-- After the task of an iteration nothing happens any more. -/
theorem rest_of_iteration {work : ProcessorTask} {answered : List Reply}
    (htask : iteration.task = some (env, work)) (hwork : work.perform host env before = some after)
    (hran : Ran payloads answered database before after) (hfree : Free clientId after) :
    ∃ final, runPhases host iteration.phases before = some final ∧
      Ran payloads answered database before final ∧ Free clientId final ∧
      final.transactions = after.transactions := by
  obtain ⟨final, hrun, hrests⟩ :=
    @rests_run host clientId _ (task_not_mem_passes iteration) after hfree
  have hthrough := hran.trans hrests.ran
  rw [List.append_nil, List.append_nil, hran.database] at hthrough
  refine ⟨final, ?_, hthrough, hrests.free hfree, hrests.transactions⟩
  rw [Iteration.phases_of_task htask]
  exact Runs.run_cons_eq_some.mpr ⟨after, hwork, hrun⟩

theorem undefined_of_task {work : ProcessorTask} (htask : iteration.task = some (env, work))
    (hwork : work.perform host env before = none) :
    runPhases host iteration.phases before = none := by
  rw [Iteration.phases_of_task htask, runPhases, Runs.run_cons]
  exact Option.bind_eq_none_iff.mpr fun after hafter =>
    absurd (hwork.symm.trans hafter) (by simp)

/-- A command, submitted directly. -/
theorem direct_iteration (hsubmits : Submits clientId clock command iteration)
    (hfree : Free clientId before) (hclosed : before.transactions.lookup clientId = none)
    (htable : InTable host command) (hblocks : blocks host clock before.database command = false) :
    match dispatch host clock before.database command with
    | none => runPhases host iteration.phases before = none
    | some (response, database) => ∃ after task, task.command = command ∧
        runPhases host iteration.phases before = some after ∧
        Ran (payloadsOf host command response) [⟨task, [], response⟩] database before after ∧
        Free clientId after ∧ after.transactions.lookup clientId = none := by
  obtain ⟨env, replicationBytes, htask, hclock, hdisk⟩ := hsubmits
  obtain rfl : env.clock.head = clock := hclock 0
  let task : Task := ⟨before.nextPromise, clientId, command, .client, replicationBytes⟩
  let submitted : Processor := { before with nextPromise := before.nextPromise + 1 }
  have hfree' : Free clientId submitted := { hfree with }
  have hstep := @direct_step host clientId task submitted env hdisk hfree' hclosed rfl rfl htable
    hblocks
  have hdatabase : submitted.database = before.database := rfl
  rw [hdatabase] at hstep
  cases hdispatch : dispatch host env.clock.head before.database command with
  | none =>
    rw [hdispatch] at hstep
    exact undefined_of_task htask hstep
  | some outcome =>
    obtain ⟨response, database⟩ := outcome
    rw [hdispatch] at hstep
    obtain ⟨after, hprocess, hran, htransactions, hwatched⟩ := hstep
    have hran' : Ran (payloadsOf host command response) [⟨task, [], response⟩] database before
        after := { hran with }
    have hunwatched : after.watchedBy clientId = [] := by
      rw [watchedBy, hwatched]
      exact hfree.unwatched
    obtain ⟨final, hrun, hfinal, hfree'', hsame⟩ := rest_of_iteration htask hprocess hran'
      (hfree.ran hran' hunwatched)
    refine ⟨final, task, rfl, hrun, hfinal, hfree'', ?_⟩
    rw [hsame, htransactions]
    exact hclosed

/-- The commands, submitted directly one after the other. -/
theorem direct_run {iterations : List Iteration}
    (hsubmits : List.Forall₂ (Submits clientId clock) commands iterations)
    (hfree : Free clientId before) (hclosed : before.transactions.lookup clientId = none)
    (htable : ∀ command ∈ commands, InTable host command)
    (hblocks : neverBlocks host clock commands before.database = true) :
    match runAll host clock commands before.database with
    | none => runPhases host (iterations.flatMap Iteration.phases) before = none
    | some (responses, database) => ∃ after answered,
        runPhases host (iterations.flatMap Iteration.phases) before = some after ∧
        Ran ((writesOf host commands responses).map serializeCommand) answered database before
          after ∧
        answered.map (fun reply => (reply.task.command, reply.response)) =
          commands.zip responses := by
  induction hsubmits generalizing before with
  | nil => exact ⟨before, [], rfl, .nothing rfl rfl rfl rfl rfl rfl rfl rfl rfl rfl, rfl⟩
  | @cons command iteration commands iterations hfirst _ ih =>
    obtain ⟨hblocks, hnever⟩ := Bool.and_eq_true_iff.mp hblocks
    have hstep := direct_iteration hfirst hfree hclosed (htable command (by simp))
      (by simpa using hblocks)
    rw [runAll, List.flatMap_cons]
    cases hdispatch : dispatch host clock before.database command with
    | none =>
      rw [hdispatch] at hstep
      simp only [Option.bind_none]
      rw [runPhases_append, hstep]
      rfl
    | some outcome =>
      obtain ⟨response, database⟩ := outcome
      rw [hdispatch] at hstep hnever
      obtain ⟨middle, task, hcommand, hrun, hran, hfree', hclosed'⟩ := hstep
      have hrest := ih hfree' hclosed' (fun other hother => htable other (by simp [hother]))
        (by rw [hran.database]; exact hnever)
      rw [hran.database] at hrest
      simp only [Option.bind_some]
      cases hall : runAll host clock commands database with
      | none =>
        rw [hall] at hrest
        simp only [Option.map_none]
        rw [runPhases_append, hrun]
        exact hrest
      | some outcome =>
        obtain ⟨responses, last⟩ := outcome
        rw [hall] at hrest
        obtain ⟨after, answered, hrun', hran', hanswered⟩ := hrest
        simp only [Option.map_some]
        refine ⟨after, ⟨task, [], response⟩ :: answered, ?_, ?_, ?_⟩
        · rw [runPhases_append, hrun]
          exact hrun'
        · have hboth := hran.trans hran'
          simpa [writesOf, payloadsOf] using hboth
        · simp [hcommand, hanswered]

end Iterations

/-! ## The transaction -/

section Transaction

variable {host : Host} {clientId : ClientId} {clock : Clock} {command : Command}
  {iteration : Iteration} {before : Processor}

/-- The state in which a command finds the processor: its promise has been given out. -/
def submitted (processor : Processor) : Processor :=
  { processor with nextPromise := processor.nextPromise + 1 }

/-- A command that is answered by `process_command` and not propagated by
`process_task`. -/
theorem plain_iteration {replicationBytes : ℕ} {response : Response} {middle : Processor}
    (htask : iteration.task = some (env, .command clientId command .client replicationBytes))
    (hfree : Free clientId before)
    (hplain : before.hasTransaction clientId = true ∨ isWriteCommand host command = false ∧
      nameOf command ≠ some .blpop ∧ nameOf command ≠ some .xread ∧ nameOf command ≠ some .wait)
    (hcommand : before.submitted.processCommand host env.toCommandEnv clientId command .client =
      some (response, middle)) (hran : Ran payloads [] database before middle)
    (hunwatched : middle.watchedBy clientId = []) :
    ∃ final task transaction, task.command = command ∧
      runPhases host iteration.phases before = some final ∧
      Ran payloads [⟨task, transaction, response⟩] database before final ∧
      Free clientId final ∧ final.transactions = middle.transactions := by
  let task : Task := ⟨before.nextPromise, clientId, command, .client, replicationBytes⟩
  have hfree' : Free clientId before.submitted := { hfree with }
  have hmiddle : Free clientId middle := hfree.ran hran hunwatched
  have hgate := hfree'.not_refuses (show task.clientId = clientId from rfl)
  have hprocess : before.submitted.processTask host env task =
      some (middle.fulfil task (before.submitted.transactionOf task) response) := by
    have hwritten : (!before.submitted.hasTransaction clientId && isWriteCommand host command) =
        false := by
      rcases hplain with hopen | ⟨hread, -⟩
      · have hopen' : before.submitted.hasTransaction clientId = true := hopen
        rw [hopen']
        rfl
      · rw [hread, Bool.and_false]
    rw [processTask_direct hgate (.inl hfree'.master) (hplain.imp_right And.right), processDirect]
    simp only [task, hcommand, Option.map_some, hwritten, propagateDirect_read]
    rw [finishTask_client rfl hmiddle.unsubscribed]
  obtain ⟨final, hrun, hfinal, hfree'', hsame⟩ := rest_of_iteration htask hprocess
    (ran_fulfil hran _ response) { hmiddle with }
  exact ⟨final, task, _, rfl, hrun, hfinal, hfree'', hsame⟩

/-- `MULTI` opens a transaction. -/
theorem multi_iteration (hsubmits : Submits clientId clock [CommandName.multi.text] iteration)
    (hfree : Free clientId before) (hclosed : before.transactions.lookup clientId = none) :
    ∃ after reply, runPhases host iteration.phases before = some after ∧
      Ran [] [reply] before.database before after ∧ Free clientId after ∧
      after.transactions.lookup clientId = some {} := by
  obtain ⟨env, replicationBytes, htask, -, -⟩ := hsubmits
  have hopen : before.submitted.hasTransaction clientId = false := by
    rw [hasTransaction, submitted, hclosed]
    rfl
  have hname : nameOf [CommandName.multi.text] = some .multi := nameOf_cons.mpr rfl
  have hcommand : before.submitted.processCommand host env.toCommandEnv clientId
      [CommandName.multi.text] .client = some (ok, { before.submitted with
        transactions := before.submitted.transactions.insert clientId {} }) := by
    simp only [processCommand, List.cons_ne_nil, if_false, hname, multi, hopen,
      Bool.false_eq_true]
  have hread : isWriteCommand host [CommandName.multi.text] = false :=
    isWriteCommand_of_name hname
  obtain ⟨final, task, transaction, -, hrun, hran, hfree', hsame⟩ := plain_iteration htask hfree
    (.inr ⟨hread, by simp [hname], by simp [hname], by simp [hname]⟩) hcommand
    (.nothing rfl rfl rfl rfl rfl rfl rfl rfl rfl rfl) hfree.unwatched
  refine ⟨final, _, hrun, hran, hfree', ?_⟩
  rw [hsame]
  exact AList.lookup_insert _

/-- A command of the table is put into the open transaction. -/
theorem queue_iteration {transaction : TransactionState}
    (hsubmits : Submits clientId clock command iteration) (hfree : Free clientId before)
    (hopen : before.transactions.lookup clientId = some transaction)
    (htable : InTable host command) :
    ∃ after reply, runPhases host iteration.phases before = some after ∧
      Ran [] [reply] before.database before after ∧
      reply.response = .simpleString (ascii "QUEUED") ∧ Free clientId after ∧
      after.transactions.lookup clientId =
        some { transaction with commands := transaction.commands ++ [command] } := by
  obtain ⟨env, replicationBytes, htask, -, -⟩ := hsubmits
  have hfree' : Free clientId before.submitted := { hfree with }
  have hopen' : before.submitted.transactions.lookup clientId = some transaction := hopen
  have hcommand : before.submitted.processCommand host env.toCommandEnv clientId command .client =
      some (.simpleString (ascii "QUEUED"), { before.submitted with
        transactions := before.submitted.transactions.insert clientId
          { transaction with commands := transaction.commands ++ [command] } }) := by
    rw [processCommand_table htable hfree', queueOrRun, hopen']
  have hhas : before.hasTransaction clientId = true := by
    rw [hasTransaction, hopen]
    rfl
  obtain ⟨final, task, queued, -, hrun, hran, hfinal, hsame⟩ := plain_iteration htask hfree
    (.inl hhas) hcommand (.nothing rfl rfl rfl rfl rfl rfl rfl rfl rfl rfl) hfree.unwatched
  refine ⟨final, _, hrun, hran, rfl, hfinal, ?_⟩
  rw [hsame]
  exact AList.lookup_insert _

theorem queue_run {iterations : List Iteration} {transaction : TransactionState}
    (hsubmits : List.Forall₂ (Submits clientId clock) commands iterations)
    (hfree : Free clientId before) (hopen : before.transactions.lookup clientId = some transaction)
    (htable : ∀ command ∈ commands, InTable host command) :
    ∃ after answered, runPhases host (iterations.flatMap Iteration.phases) before = some after ∧
      Ran [] answered before.database before after ∧
      answered.map Reply.response = commands.map (fun _ => .simpleString (ascii "QUEUED")) ∧
      Free clientId after ∧ after.transactions.lookup clientId =
        some { transaction with commands := transaction.commands ++ commands } := by
  induction hsubmits generalizing before transaction with
  | nil =>
    refine ⟨before, [], rfl, .nothing rfl rfl rfl rfl rfl rfl rfl rfl rfl rfl, rfl, hfree, ?_⟩
    rw [hopen, List.append_nil]
  | @cons command iteration commands iterations hfirst _ ih =>
    obtain ⟨middle, reply, hrun, hran, hqueued, hfree', hopen'⟩ :=
      queue_iteration hfirst hfree hopen (htable command (by simp))
    obtain ⟨after, answered, hrun', hran', hanswered, hfree'', hopen''⟩ :=
      ih hfree' hopen' fun other hother => htable other (by simp [hother])
    have hboth := hran.trans hran'
    rw [hran.database] at hboth
    refine ⟨after, reply :: answered, ?_, hboth, ?_, hfree'', ?_⟩
    · rw [List.flatMap_cons, runPhases_append, hrun]
      exact hrun'
    · simp [hqueued, hanswered]
    · rw [hopen'', List.append_assoc]
      rfl

/-- The loop of `EXEC` runs the commands, and collects their writes. -/
theorem executeCommands_eq (commands : List Command) {clocks : Stream' Clock}
    (hclock : ∀ n, clocks.get n = clock) (processor : Processor) :
    processor.executeCommands host true commands clocks =
      (runAll host clock commands processor.database).map fun outcome =>
        (outcome.1, writesOf host commands outcome.1, { processor with
          database := outcome.2
          events := processor.events ++ List.zipWith Event.executed commands outcome.1 }) := by
  induction commands generalizing processor clocks with
  | nil => simp [executeCommands, runAll, writesOf]
  | cons command commands ih =>
    have hhead : clocks.head = clock := hclock 0
    have htail : ∀ n, clocks.tail.get n = clock := fun n => hclock (n + 1)
    rw [executeCommands, runCommand, runAll, hhead]
    cases dispatch host clock processor.database command with
    | none => rfl
    | some outcome =>
      obtain ⟨response, database⟩ := outcome
      simp only [Option.map_some, Option.bind_some, Bool.true_and, ih htail, Option.map_map]
      refine congrArg (Option.map · _) (funext fun rest => ?_)
      have hwrites : writesOf host (command :: commands) (response :: rest.1) =
          Event.writes host (.executed command response) ++ writesOf host commands rest.1 :=
        rfl
      simp only [Function.comp_apply, hwrites, Event.writes, effective, List.zipWith_cons_cons,
        List.append_assoc, List.singleton_append]
      split <;> simp_all

/-- What an `EXEC` propagates. -/
def transactionPayloads (writes : List Command) : List Bytes :=
  if writes = [] then [] else [transactionPayload writes]

/-- The array of an `EXEC`. -/
def transactionReply (responses : List Response) : Response :=
  if responses = [] then .emptyArray else .responseArray responses

theorem length_runAll {final : Database} {responses : List Response}
    (h : runAll host clock commands database = some (responses, final)) :
    responses.length = commands.length := by
  induction commands generalizing database responses final with
  | nil =>
    cases h
    rfl
  | cons command commands ih =>
    rw [runAll] at h
    obtain ⟨⟨response, middle⟩, -, h⟩ := Option.bind_eq_some_iff.mp h
    obtain ⟨⟨rest, last⟩, hrest, hsame⟩ := Option.map_eq_some_iff.mp h
    cases hsame
    simp [ih hrest]

/-- The writes of a transaction are logged and sent to the replicas at once. -/
theorem ran_propagateTransaction {disk : Disk} (hdisk : disk.Reliable) (writes : List Command)
    (hmaster : before.replication.role = .master) :
    ∃ after, before.propagateTransaction (before.persists .client) (before.replicates .client)
        disk clientId writes = (.ok (), after) ∧
      Ran (transactionPayloads writes) [] before.database before after ∧
      after.transactions = before.transactions ∧ after.watchedKeys = before.watchedKeys := by
  rw [propagateTransaction, transactionPayloads]
  split
  · exact ⟨before, rfl, .nothing rfl rfl rfl rfl rfl rfl rfl rfl rfl rfl, rfl, rfl⟩
  · cases hpropagate : before.propagate (before.persists .client) (before.replicates .client)
        disk clientId (transactionPayload writes) with
    | mk result after =>
      have hsafe : Regime.reliable.Safe disk := hdisk
      have hpropagates := Propagates.fromSource hsafe hpropagate
      simp only [hmaster, reduceCtorEq, if_false, and_self, if_true] at hpropagates
      have hok := ok_of_logged hpropagates.outcome
      subst hok
      refine ⟨after, rfl, ran_of_propagates (by simp) hpropagates, ?_⟩
      obtain ⟨⟨file, replication, rfl⟩, -⟩ := hpropagates
      exact ⟨rfl, rfl⟩

/-- `EXEC` runs the queued commands. -/
theorem processCommand_exec_open {env : CommandEnv} {commands : List Command}
    (hclock : ∀ n, env.clock.get n = clock) (hdisk : env.disk.Reliable)
    (hfree : Free clientId before)
    (hopen : before.transactions.lookup clientId = some { commands }) :
    match runAll host clock commands before.database with
    | none => before.processCommand host env clientId [CommandName.exec.text] .client = none
    | some (responses, database) => ∃ after,
        before.processCommand host env clientId [CommandName.exec.text] .client =
          some (transactionReply responses, after) ∧
        Ran (transactionPayloads (writesOf host commands responses)) [] database before after ∧
        after.watchedBy clientId = [] := by
  have hexec : before.processCommand host env clientId [CommandName.exec.text] .client =
      before.executeTransaction host env clientId .client := by
    rw [processCommand, if_neg (by simp),
      show nameOf [CommandName.exec.text] = some .exec from nameOf_cons.mpr rfl]
  have hreplicates : before.replicates .client = true := by simp [replicates, hfree.master]
  let closed := before.closeTransaction clientId before.database
  have hunwatched : closed.watchedBy clientId = [] := by
    simp [closed, closeTransaction, watchedBy]
  rw [hexec, executeTransaction, hopen]
  simp only [hfree.unwatched, watchedKeyChanged, Bool.false_eq_true, if_false]
  by_cases hempty : commands = []
  · subst hempty
    exact ⟨closed, rfl, .nothing rfl rfl rfl rfl rfl rfl rfl rfl rfl rfl, hunwatched⟩
  · rw [if_neg hempty]
    have hheard : (closed.replicates .client || closed.persists .client) = true := by
      rw [show closed.replicates .client = true from hreplicates]
      rfl
    rw [show before.closeTransaction clientId before.database = closed from rfl, hheard,
      executeCommands_eq commands hclock]
    cases hall : runAll host clock commands before.database with
    | none =>
      rw [show closed.database = before.database from rfl, hall]
      rfl
    | some outcome =>
      obtain ⟨responses, database⟩ := outcome
      rw [show closed.database = before.database from rfl, hall]
      obtain ⟨after, hpropagate, hran, -, hwatched⟩ := @ran_propagateTransaction clientId
        { closed with
          database, events := closed.events ++ List.zipWith Event.executed commands responses }
        env.disk hdisk (writesOf host commands responses) hfree.master
      have hresponses : responses ≠ [] := by
        rintro rfl
        exact hempty (List.length_eq_zero_iff.mp (length_runAll hall).symm)
      refine ⟨after, ?_, { hran with }, ?_⟩
      · -- Running the commands has changed neither the log nor the role.
        simp only [persists, replicates] at hpropagate
        simp only [transactionReply, if_neg hresponses, Option.map_some, persists, replicates,
          hpropagate]
      · rw [watchedBy, hwatched]
        exact hunwatched

/-- `EXEC` runs the queued commands. -/
theorem exec_iteration {commands : List Command}
    (hsubmits : Submits clientId clock [CommandName.exec.text] iteration)
    (hfree : Free clientId before)
    (hopen : before.transactions.lookup clientId = some { commands }) :
    match runAll host clock commands before.database with
    | none => runPhases host iteration.phases before = none
    | some (responses, database) => ∃ after reply,
        runPhases host iteration.phases before = some after ∧
        Ran (transactionPayloads (writesOf host commands responses)) [reply] database before after ∧
        reply.task.command = [CommandName.exec.text] ∧
        reply.response = transactionReply responses := by
  obtain ⟨env, replicationBytes, htask, hclock, hdisk⟩ := hsubmits
  have hfree' : Free clientId before.submitted := { hfree with }
  have hhas : before.hasTransaction clientId = true := by
    rw [hasTransaction, hopen]
    rfl
  have hcommand := @processCommand_exec_open host clientId clock before.submitted env.toCommandEnv
    commands hclock hdisk hfree' hopen
  rw [show before.submitted.database = before.database from rfl] at hcommand
  cases hall : runAll host clock commands before.database with
  | none =>
    rw [hall] at hcommand
    let task : Task := ⟨before.nextPromise, clientId, [CommandName.exec.text], .client,
      replicationBytes⟩
    have hprocess : before.submitted.processTask host env task = none := by
      rw [processTask_direct (hfree'.not_refuses (show task.clientId = clientId from rfl))
        (.inl hfree'.master) (.inl hhas), processDirect]
      simp only [task, hcommand, Option.map_none]
    exact undefined_of_task htask hprocess
  | some outcome =>
    obtain ⟨responses, database⟩ := outcome
    rw [hall] at hcommand
    obtain ⟨middle, hcommand, hran, hunwatched⟩ := hcommand
    obtain ⟨final, task, transaction, htext, hrun, hfinal, -, -⟩ := plain_iteration htask hfree
      (.inl hhas) hcommand { hran with } hunwatched
    exact ⟨final, _, hrun, hfinal, htext, rfl⟩

/-- `MULTI`, the commands and `EXEC`, one after the other. -/
theorem queued_run {commands : List Command} {opening closing : Iteration}
    {queueing : List Iteration}
    (hmulti : Submits clientId clock [CommandName.multi.text] opening)
    (hqueue : List.Forall₂ (Submits clientId clock) commands queueing)
    (hexec : Submits clientId clock [CommandName.exec.text] closing)
    (hfree : Free clientId before) (hclosed : before.transactions.lookup clientId = none)
    (htable : ∀ command ∈ commands, InTable host command) :
    match runAll host clock commands before.database with
    | none =>
      runPhases host ((opening :: (queueing ++ [closing])).flatMap Iteration.phases) before = none
    | some (responses, database) => ∃ after queued reply,
        runPhases host ((opening :: (queueing ++ [closing])).flatMap Iteration.phases) before =
          some after ∧
        Ran (transactionPayloads (writesOf host commands responses)) (queued ++ [reply]) database
          before after ∧
        reply.task.command = [CommandName.exec.text] ∧
        reply.response = transactionReply responses := by
  have hopened := @multi_iteration host clientId clock opening before hmulti hfree hclosed
  obtain ⟨opened, first, hopens, hran, hfree', hopen⟩ := hopened
  obtain ⟨full, answered, hqueues, hran', -, hfree'', hfull⟩ := queue_run hqueue hfree' hopen htable
  have hdatabase : full.database = before.database := hran'.database.trans hran.database
  have hsofar := hran.trans hran'
  have hruns : runPhases host ((opening :: (queueing ++ [closing])).flatMap Iteration.phases)
      before = runPhases host closing.phases full := by
    rw [List.flatMap_cons, List.flatMap_append, runPhases_append, hopens, Option.bind_some,
      runPhases_append, hqueues, Option.bind_some, List.flatMap_singleton]
  have hlast := @exec_iteration host clientId clock closing full commands hexec hfree'' hfull
  rw [hdatabase] at hlast
  rw [hruns]
  cases hall : runAll host clock commands before.database with
  | none =>
    rw [hall] at hlast
    exact hlast
  | some outcome =>
    obtain ⟨responses, database⟩ := outcome
    rw [hall] at hlast
    obtain ⟨after, reply, hrun, hran'', htext, hreply⟩ := hlast
    exact ⟨after, first :: answered, reply, hrun, hsofar.trans hran'', htext, hreply⟩

/-! ## The comparison -/

/-- The payload of an `EXEC`, from the payloads of its commands. -/
def wrapped (payloads : List Bytes) : List Bytes :=
  if payloads.flatten = [] then []
  else [serializeCommand [CommandName.multi.text] ++ payloads.flatten ++
    serializeCommand [CommandName.exec.text]]

theorem transactionPayloads_eq_wrapped (writes : List Command) :
    transactionPayloads writes = wrapped (writes.map serializeCommand) := by
  cases writes with
  | nil => rfl
  | cons write writes =>
    simp [transactionPayloads, wrapped, transactionPayload, serializeCommand_ne_nil,
      List.flatMap_def]

/-- **`EXEC` agrees with direct execution.**  On a master on which nobody is blocked, a
client submits commands of the table none of which blocks.  If it submits them one by
one, they are answered and propagated one by one.  If it queues them and submits
`EXEC`, the database is the same in the end, the reply of `EXEC` is the array of the
direct replies, and the payload of `EXEC` wraps the direct payloads. -/
theorem exec_agrees_with_direct {commands : List Command} {direct queueing : List Iteration}
    {opening closing : Iteration} (hfree : Free clientId before)
    (hclosed : before.transactions.lookup clientId = none)
    (htable : ∀ command ∈ commands, InTable host command)
    (hblocks : neverBlocks host clock commands before.database = true)
    (hdirect : List.Forall₂ (Submits clientId clock) commands direct)
    (hmulti : Submits clientId clock [CommandName.multi.text] opening)
    (hqueue : List.Forall₂ (Submits clientId clock) commands queueing)
    (hexec : Submits clientId clock [CommandName.exec.text] closing) :
    let runDirectly := runPhases host (direct.flatMap Iteration.phases) before
    let runQueued :=
      runPhases host ((opening :: (queueing ++ [closing])).flatMap Iteration.phases) before
    (runDirectly = none → runQueued = none) ∧
    ∀ one, runDirectly = some one → ∃ two payloads answered queued reply,
      runQueued = some two ∧ two.database = one.database ∧
      Ran payloads answered one.database before one ∧
      answered.map (fun reply => reply.task.command) = commands ∧
      Ran (wrapped payloads) (queued ++ [reply]) one.database before two ∧
      reply.task.command = [CommandName.exec.text] ∧
      reply.response = transactionReply (answered.map Reply.response) := by
  intro runDirectly runQueued
  have hone := direct_run hdirect hfree hclosed htable hblocks
  have htwo := @queued_run host clientId clock before commands opening closing queueing hmulti
    hqueue hexec hfree hclosed htable
  cases hall : runAll host clock commands before.database with
  | none =>
    rw [hall] at hone htwo
    exact ⟨fun _ => htwo, fun one hrun => absurd (hone.symm.trans hrun) (by simp)⟩
  | some outcome =>
    obtain ⟨responses, database⟩ := outcome
    rw [hall] at hone htwo
    obtain ⟨one, answered, hrun, hran, hanswered⟩ := hone
    obtain ⟨two, queued, reply, hrun', hran', htext, hreply⟩ := htwo
    have hlength : commands.length = responses.length := (length_runAll hall).symm
    have hcommands : answered.map (fun reply => reply.task.command) = commands := by
      have hfirst := congrArg (List.map Prod.fst) hanswered
      rwa [List.map_map, List.map_fst_zip hlength.le] at hfirst
    have hresponses : answered.map Reply.response = responses := by
      have hsecond := congrArg (List.map Prod.snd) hanswered
      rwa [List.map_map, List.map_snd_zip hlength.ge] at hsecond
    refine ⟨fun hnone => absurd (hnone.symm.trans hrun) (by simp), fun other hother => ?_⟩
    obtain rfl : one = other := Option.some.inj (hrun.symm.trans hother)
    rw [transactionPayloads_eq_wrapped] at hran'
    obtain rfl : one.database = database := hran.database
    exact ⟨two, _, answered, queued, reply, hrun', hran'.database, hran, hcommands, hran', htext,
      by rw [hresponses, hreply]⟩

/-- A disk that writes everything at once is reliable. -/
theorem reliable_default : (({} : Disk)).Reliable := by
  intro payload file
  have hwritten : writeAll file.path [] payload file.contents =
      (.ok (), file.contents ++ payload) := by
    cases payload <;> simp [writeAll]
  unfold append
  simp only [hwritten]
  split
  · rfl
  · split <;> rfl

theorem submits_still (clientId : ClientId) (clock : Clock) (command : Command) :
    Submits clientId clock command (Iteration.still clock (.ofClient clientId command)) :=
  ⟨Env.still clock, 0, rfl, fun _ => rfl, reliable_default⟩

/-- A list is filled, a command fails on it, and `BLPOP` takes the element back. -/
theorem exec_agrees_with_direct_blpop :
    let before : Processor := { start .master [] (User.default none) {} {} with
      aofFile := some ⟨ascii "log", .never, 0, []⟩
      connections := { clients := AList.insert 1 ⟨true, 0⟩ ∅ } }
    let commands := [[ascii "RPUSH", ascii "l", ascii "a"], [ascii "INCR", ascii "l"],
      [ascii "BLPOP", ascii "l", ascii "0"]]
    let payload := serializeCommand [ascii "RPUSH", ascii "l", ascii "a"] ++
      serializeCommand [ascii "LPOP", ascii "l"]
    let submit (command : Command) := Iteration.still ⟨1, 1⟩ (.ofClient 1 command)
    let transaction := submit [CommandName.multi.text] ::
      (commands.map submit ++ [submit [CommandName.exec.text]])
    ∃ one two,
      runPhases Host.plain ((commands.map submit).flatMap Iteration.phases) before = some one ∧
      runPhases Host.plain (transaction.flatMap Iteration.phases) before = some two ∧
      two.database = one.database ∧
      one.aofFile.map AppendOnlyFile.contents = some payload ∧
      two.aofFile.map AppendOnlyFile.contents = some
        (serializeCommand [CommandName.multi.text] ++ payload ++
          serializeCommand [CommandName.exec.text]) := by
  intro before commands payload submit transaction
  have hfree : Free 1 before := ⟨rfl, rfl, rfl, rfl, rfl, rfl, rfl⟩
  have hsubmits : List.Forall₂ (Submits 1 ⟨1, 1⟩) commands (commands.map submit) :=
    List.forall₂_map_right_iff.mpr
      (List.forall₂_same.mpr fun command _ => submits_still 1 ⟨1, 1⟩ command)
  have htable : ∀ command ∈ commands, InTable Host.plain command :=
    List.all_eq_true.mp (by decide +kernel)
  have hblocks : neverBlocks Host.plain ⟨1, 1⟩ commands before.database = true := by
    decide +kernel
  have hone : ∃ one, runPhases Host.plain ((commands.map submit).flatMap Iteration.phases) before =
      some one ∧ one.aofFile.map AppendOnlyFile.contents = some payload := by
    decide +kernel
  obtain ⟨one, hrun, hlog⟩ := hone
  obtain ⟨two, payloads, answered, queued, reply, hrun', hsame, hran, -, hran', -, -⟩ :=
    (exec_agrees_with_direct hfree rfl htable hblocks hsubmits (submits_still 1 ⟨1, 1⟩ _) hsubmits
      (submits_still 1 ⟨1, 1⟩ _)).2 one hrun
  have hpayloads : payloads.flatten = payload := by
    have hlogged := hran.log
    rw [hlog] at hlogged
    simpa [before, eq_comm] using hlogged
  refine ⟨one, two, hrun, hrun', hsame, hlog, ?_⟩
  rw [hran'.log, wrapped, hpayloads, if_neg (by decide)]
  simp [before]

end Transaction

end Processor

end RedisServer
