import RedisServer.Processor.History

/-!
# What a task can do

`process_task` refuses a command, lets it block, or hands it to `process_command`.
`processTask_cases` lists the outcomes.  For the blocking commands there is such a list of
its own, for the first attempt and for the visits of the passes over the blocked ones.
-/

namespace RedisServer

open Resp KeyedStore Commands Aof Replication

variable {before after processor : Processor} {task : Task} {env : Env} {host : Host}

/-- An error, or nothing at all. -/
def Resp.Response.negative : Response → Bool
  | .simpleError _ | .noResponse => true
  | _ => false

namespace Resp.Response

variable {response : Response} (h : response.negative = true)
include h

theorem bare_of_negative : response.bare = true := by
  cases response <;> first | rfl | cases h

theorem ne_ok_of_negative : response ≠ ok := by
  rintro rfl
  cases h

theorem ne_integer_of_negative (value : Int) : response ≠ .integer value := by
  rintro rfl
  cases h

end Resp.Response

namespace Processor

/-! ## Replies -/

/-- A reply through Pub/Sub touches the connections only, and leaves an error or nothing for
the promise. -/
theorem replyThroughPubsub_eq (notification : Notification) (clientId : ClientId)
    (response : Response) (processor : Processor) :
    ∃ reply, reply.negative = true ∧
      processor.replyThroughPubsub notification clientId response = (reply, { processor with
        connections :=
          (processor.connections.enqueuePubsubResponse notification clientId response).2 }) := by
  unfold replyThroughPubsub
  cases processor.connections.enqueuePubsubResponse notification clientId response with
  | mk result connections => cases result <;> exact ⟨_, rfl, rfl⟩

/-- **The end of a task.**  The response goes to the promise, or through the session of a
client that is subscribed. -/
inductive FinishOutcome (notification : Notification) (task : Task) (transaction : List Command)
    (response : Response) (before : Processor) : Processor → Prop
  | replied {offset : ℕ}
      (hoffset : offset = before.replication.offset ∨
        task.source = .master ∧ offset = before.replication.offset + task.replicationBytes)
      (hdirect : response = .noResponse ∨
        ¬ (task.source = .client ∧ before.connections.isSubscribed task.clientId = true)) :
      FinishOutcome notification task transaction response before
        ({ before with
          replication := { before.replication with offset } }.fulfil task transaction response)
  | published (hclient : task.source = .client)
      (hlistens : before.connections.isSubscribed task.clientId = true)
      (hresponse : response ≠ .noResponse) :
      FinishOutcome notification task transaction response before
        ((before.replyThroughPubsub notification task.clientId response).2.fulfil task transaction
          (before.replyThroughPubsub notification task.clientId response).1)

theorem finishTask_cases (notification : Notification) (task : Task)
    (transaction : List Command) (succeeded : Bool) (response : Response)
    (processor : Processor) :
    FinishOutcome notification task transaction response processor
      (processor.finishTask notification task transaction succeeded response) := by
  unfold finishTask
  by_cases hmaster : task.source = .master ∧ succeeded
  · have hdirect : ¬ (task.source = .client ∧
        processor.connections.isSubscribed task.clientId = true) := by simp [hmaster.1]
    rw [if_pos hmaster]
    cases response <;> simp only [if_neg hdirect] <;>
      exact .replied (.inr ⟨hmaster.1, rfl⟩) (.inr hdirect)
  · rw [if_neg hmaster]
    by_cases hdirect : task.source = .client ∧
        processor.connections.isSubscribed task.clientId = true
    · cases response with
      | noResponse => exact .replied (.inl rfl) (.inl rfl)
      | _ =>
        simp only [if_pos hdirect]
        exact .published hdirect.1 hdirect.2 (by simp)
    · cases response <;> simp only [if_neg hdirect] <;> exact .replied (.inl rfl) (.inr hdirect)

/-- The end of a task whose reply goes to its promise. -/
theorem finishTask_direct {task : Task} {processor : Processor}
    (hdirect : ¬ (task.source = .client ∧
      processor.connections.isSubscribed task.clientId = true))
    (notification : Notification) (transaction : List Command) (succeeded : Bool)
    (response : Response) :
    ∃ offset, processor.finishTask notification task transaction succeeded response =
      { processor with
        replication := { processor.replication with offset } }.fulfil task transaction
          response := by
  have hend := finishTask_cases notification task transaction succeeded response processor
  generalize processor.finishTask notification task transaction succeeded response = after at hend
  cases hend with
  | replied _ _ => exact ⟨_, rfl⟩
  | published hclient hlistens _ => exact absurd ⟨hclient, hlistens⟩ hdirect

/-- The end of a client's task when its reply goes to its promise. -/
theorem finishTask_client (hclient : task.source = .client)
    (hsubscribed : processor.connections.isSubscribed task.clientId = false)
    (notification : Notification) (transaction : List Command) (succeeded : Bool)
    (response : Response) :
    processor.finishTask notification task transaction succeeded response =
      processor.fulfil task transaction response := by
  unfold finishTask
  rw [if_neg (by simp [hclient])]
  cases response <;> simp [hsubscribed]

theorem propagateDirect_read (disk : Disk) (task : Task) (response : Response)
    (processor : Processor) :
    processor.propagateDirect disk task false response = (response, processor) := by
  simp [propagateDirect]

theorem propagateDirect_cases (disk : Disk) (task : Task) (writeCommand : Bool)
    (response : Response) (processor : Processor) :
    ∃ reply file errors replication,
      processor.propagateDirect disk task writeCommand response =
        (reply, { processor with aofFile := file, appendErrors := errors, replication }) ∧
      (reply = response ∨ reply.negative = true) := by
  unfold propagateDirect
  simp only
  split
  · obtain ⟨file, errors, replication, hafter⟩ := propagate_cases
      (processor.persists task.source && writeCommand)
      (processor.replicates task.source && writeCommand) disk task.clientId
      (serializeCommand (normalizeReplicationCommand task.command response)) processor
    generalize processor.propagate (processor.persists task.source && writeCommand)
      (processor.replicates task.source && writeCommand) disk task.clientId
      (serializeCommand (normalizeReplicationCommand task.command response)) = outcome at hafter
    obtain ⟨result, after⟩ := outcome
    cases hafter
    cases result with
    | error message => exact ⟨_, file, errors, replication, rfl, .inr rfl⟩
    | ok _ => exact ⟨_, file, errors, replication, rfl, .inl rfl⟩
  · exact ⟨response, processor.aofFile, processor.appendErrors, processor.replication, rfl,
      .inl rfl⟩

/-- What is left of a task after its command. -/
theorem finish_cases (disk : Disk) (notification : Notification) (task : Task)
    (writeCommand : Bool) (transaction : List Command) (succeeded : Bool) (response : Response)
    (processor : Processor) :
    ∃ connections file errors replication reply,
      (processor.propagateDirect disk task writeCommand response).2.finishTask notification task
          transaction succeeded (processor.propagateDirect disk task writeCommand response).1 =
        { processor with
          connections, aofFile := file, appendErrors := errors, replication }.fulfil task
            transaction reply ∧ (reply = response ∨ reply.negative = true) := by
  obtain ⟨reply, file, errors, replication, hpropagate, hreply⟩ :=
    propagateDirect_cases disk task writeCommand response processor
  have hend := finishTask_cases notification task transaction succeeded reply
    { processor with aofFile := file, appendErrors := errors, replication }
  rw [hpropagate]
  generalize Processor.finishTask notification task transaction succeeded reply _ = after at hend ⊢
  cases hend with
  | replied _ _ => exact ⟨_, _, _, _, _, rfl, hreply⟩
  | published _ _ _ =>
    obtain ⟨answer, hnegative, hanswer⟩ :=
      replyThroughPubsub_eq notification task.clientId reply { processor with
        aofFile := file, appendErrors := errors, replication }
    rw [hanswer]
    exact ⟨_, _, _, _, _, rfl, .inr hnegative⟩

/-! ## `BLPOP` -/

/-- **An attempt to pop for a `BLPOP`**, be it the first or a later one.  The flag
says whether the command has to wait. -/
inductive PopAttempt (clock : Clock) (disk : Disk) (task : Task) (key : Bytes)
    (before : Processor) : Bool → Processor → Prop
  | served {value : Bytes} {database : Database} {result : Except Bytes Unit} {after : Processor}
      (hpop : Database.popListElement clock key before.database = (.ok value, database))
      (hpersist : { before with
          database
          events := before.events ++
            [Event.executed task.command (.array [key, value])] }.persistBlockingPop disk task key =
        (result, after)) :
      PopAttempt clock disk task key before false
        (after.fulfil task [] (settled (.array [key, value]) result))
  | wrongType {database : Database}
      (hpop : Database.popListElement clock key before.database = (.error .wrongType, database)) :
      PopAttempt clock disk task key before false
        ({ before with database }.fulfil task [] wrongTypeError)
  | waits {error : Database.Error} {database : Database}
      (hpop : Database.popListElement clock key before.database = (.error error, database))
      (herror : error ≠ .wrongType) :
      PopAttempt clock disk task key before true { before with database }

/-- What `process_blpop` can do: it makes one attempt, and joins the queue if that leaves it
waiting. -/
inductive BlpopOutcome (host : Host) (env : Env) (task : Task) (before : Processor) :
    Processor → Prop
  | refused {message : Bytes} (hparse : parseBlpop host task.command = .error message) :
      BlpopOutcome host env task before (before.fulfil task [] (.simpleError message))
  | answered {request : BlockingPopRequest} {after : Processor}
      (hparse : parseBlpop host task.command = .ok request)
      (hattempt : PopAttempt env.clock.head env.disk task request.key before false after) :
      BlpopOutcome host env task before after
  | waits {request : BlockingPopRequest} {after : Processor}
      (hparse : parseBlpop host task.command = .ok request)
      (hattempt : PopAttempt env.clock.head env.disk task request.key before true after) :
      BlpopOutcome host env task before { after with
        pendingListPops := after.pendingListPops ++
          [⟨task, request.key, request.timeout.map (deadlineAfter env.now)⟩] }

theorem processBlpop_cases (host : Host) (env : Env) (task : Task) (before : Processor) :
    BlpopOutcome host env task before (before.processBlpop host env task) := by
  unfold processBlpop
  cases hparse : parseBlpop host task.command with
  | error message => exact .refused hparse
  | ok request =>
    simp only
    rcases hpop : Database.popListElement env.clock.head request.key before.database with
      ⟨error | value, database⟩
    · cases error with
      | wrongType => exact .answered hparse (.wrongType hpop)
      | _ => exact .waits hparse (.waits hpop (by simp))
    · cases hpersist : { before with
          database
          events := before.events ++ [Event.executed task.command
            (.array [request.key, value])] }.persistBlockingPop env.disk task
              request.key with
      | mk result after =>
        have hattempt := PopAttempt.served hpop hpersist
        cases result <;> simp only [hpersist] <;> exact .answered hparse hattempt

/-- A blocked `BLPOP` makes one more attempt. -/
theorem retryListPop_cases (input : Clock × Disk) (pending : PendingListPop)
    (processor : Processor) :
    ∃ waiting after,
      PopAttempt input.1 input.2 pending.task pending.key processor waiting after ∧
      retryListPop input pending processor = (if waiting then some pending else none, after) := by
  unfold retryListPop
  cases hpop : Database.popListElement input.1 pending.key processor.database with
  | mk outcome database =>
    cases outcome with
    | ok value =>
      cases hpersist : { processor with
          database
          events := processor.events ++ [Event.executed pending.task.command
            (.array [pending.key, value])] }.persistBlockingPop input.2 pending.task
              pending.key with
      | mk result after =>
        refine ⟨false, _, .served hpop hpersist, ?_⟩
        cases result <;> simp only [hpersist, settled] <;> rfl
    | error error =>
      cases error with
      | wrongType => exact ⟨false, _, .wrongType hpop, by simp⟩
      | _ => exact ⟨true, _, .waits hpop (by simp), by simp⟩

/-- A blocked `BLPOP` stays in the queue as it is. -/
theorem retryListPop_kept {input : Clock × Disk} {pending kept : PendingListPop}
    (h : (retryListPop input pending processor).1 = some kept) : kept = pending := by
  obtain ⟨waiting, after, -, hretry⟩ := retryListPop_cases input pending processor
  rw [hretry] at h
  cases waiting <;> simp_all

/-! ## `XREAD` -/

/-- What `process_xread` can do. -/
inductive XreadOutcome (env : Env) (task : Task) (before : Processor) : Processor → Prop
  | refused {message : Bytes} (hparse : parseXread task.command = .error message) :
      XreadOutcome env task before (before.fulfil task [] (.simpleError message))
  | failed {readCommand : ReadCommand} {error : Database.Error} {requests : List ReadRequest}
      {database : Database} (hparse : parseXread task.command = .ok readCommand)
      (hread : Database.readStreams env.clock.head readCommand.requests before.database =
        (.error error, requests, database)) :
      XreadOutcome env task before
        ({ before with database }.fulfil task [] (readStreamsError error))
  | found {readCommand : ReadCommand} {results : List ReadResult} {requests : List ReadRequest}
      {database : Database} (hparse : parseXread task.command = .ok readCommand)
      (hread : Database.readStreams env.clock.head readCommand.requests before.database =
        (.ok results, requests, database)) :
      XreadOutcome env task before
        ({ before with database }.fulfil task [] (makeXreadResponse results))
  | nothing {readCommand : ReadCommand} {requests : List ReadRequest} {database : Database}
      (hparse : parseXread task.command = .ok readCommand)
      (hread : Database.readStreams env.clock.head readCommand.requests before.database =
        (.ok [], requests, database)) :
      XreadOutcome env task before ({ before with database }.fulfil task [] .nullArray)
  | waits {readCommand : ReadCommand} {requests : List ReadRequest} {database : Database}
      {deadline : Option Int} (hparse : parseXread task.command = .ok readCommand)
      (hread : Database.readStreams env.clock.head readCommand.requests before.database =
        (.ok [], requests, database))
      (hdeadline : readCommand.mode = .blockIndefinitely ∧ deadline = none ∨
        ∃ timeout, readCommand.mode = .blockWithTimeout timeout ∧
          deadline = some (deadlineAfter env.now timeout)) :
      XreadOutcome env task before { before with
        database
        pendingStreamReads := before.pendingStreamReads ++ [⟨task, requests, deadline⟩] }

theorem processXread_cases (env : Env) (task : Task) (before : Processor) :
    XreadOutcome env task before (before.processXread env task) := by
  unfold processXread
  cases hparse : parseXread task.command with
  | error message => exact .refused hparse
  | ok readCommand =>
    simp only
    rcases hread : Database.readStreams env.clock.head readCommand.requests before.database with
      ⟨error | results, requests, database⟩
    · exact .failed hparse hread
    · simp only
      split
      · exact .found hparse hread
      · obtain rfl : results = [] := by simpa using ‹¬ results ≠ []›
        cases hmode : readCommand.mode with
        | immediate => exact .nothing hparse hread
        | blockIndefinitely => exact .waits hparse hread (.inl ⟨hmode, rfl⟩)
        | blockWithTimeout timeout => exact .waits hparse hread (.inr ⟨timeout, hmode, rfl⟩)

/-- What a later attempt can make of a blocked `XREAD`. -/
inductive ReadRetry (clock : Clock) (pending : PendingStreamRead) (before : Processor) :
    Option PendingStreamRead × Processor → Prop
  | failed {error : Database.Error} {requests : List ReadRequest} {database : Database}
      (hread : Database.readStreams clock pending.requests before.database =
        (.error error, requests, database)) :
      ReadRetry clock pending before
        (none, { before with database }.fulfil pending.task [] (readStreamsError error))
  | found {results : List ReadResult} {requests : List ReadRequest} {database : Database}
      (hread : Database.readStreams clock pending.requests before.database =
        (.ok results, requests, database)) :
      ReadRetry clock pending before
        (none, { before with database }.fulfil pending.task [] (makeXreadResponse results))
  | kept {requests : List ReadRequest} {database : Database}
      (hread : Database.readStreams clock pending.requests before.database =
        (.ok [], requests, database)) :
      ReadRetry clock pending before (some { pending with requests }, { before with database })

theorem retryStreamRead_cases (clock : Clock) (pending : PendingStreamRead)
    (processor : Processor) :
    ReadRetry clock pending processor (retryStreamRead clock pending processor) := by
  unfold retryStreamRead
  rcases hread : Database.readStreams clock pending.requests processor.database with
    ⟨error | results, requests, database⟩
  · exact .failed hread
  · simp only
    split
    · subst results
      exact .kept hread
    · exact .found hread

theorem ReadRetry.kept_eq {clock : Clock} {pending kept : PendingStreamRead}
    {outcome : Option PendingStreamRead × Processor}
    (h : ReadRetry clock pending processor outcome) (hkept : outcome.1 = some kept) :
    kept.task = pending.task ∧ kept.deadline = pending.deadline := by
  cases h <;> cases hkept
  exact ⟨rfl, rfl⟩

/-! ## `WAIT` -/

/-- The offset that a `WAIT` of the client is about. -/
def writeOffset (clientId : ClientId) (replication : Replication) : ℕ :=
  (replication.clientWriteOffsets.lookup clientId).getD 0

/-- What `process_wait` can do. -/
inductive WaitOutcome (env : Env) (task : Task) (before : Processor) : Processor → Prop
  | refused {message : Bytes} (hreason : before.replication.role ≠ .master ∧
        message = ascii "ERR WAIT cannot be used with replica instances" ∨
      parseWaitRequest task.command = .error message) :
      WaitOutcome env task before (before.fulfil task [] (.simpleError message))
  | answered {request : WaitRequest} (hrequest : parseWaitRequest task.command = .ok request)
      (hmaster : before.replication.role = .master)
      (henough : writeOffset task.clientId before.replication = 0 ∨
        request.requiredReplicas ≤ (before.replication.countAcknowledgedReplicas
          (writeOffset task.clientId before.replication)).1) :
      WaitOutcome env task before ({ before with
        replication := (before.replication.countAcknowledgedReplicas
          (writeOffset task.clientId before.replication)).2 }.fulfil task []
        (.integer (before.replication.countAcknowledgedReplicas
          (writeOffset task.clientId before.replication)).1))
  | waits {request : WaitRequest} (hrequest : parseWaitRequest task.command = .ok request)
      (hmaster : before.replication.role = .master)
      (hwritten : writeOffset task.clientId before.replication ≠ 0) :
      WaitOutcome env task before { before with
        replication := (before.replication.countAcknowledgedReplicas
          (writeOffset task.clientId before.replication)).2.appendReplicationFrame
            (serializeCommand getAckCommand)
        pendingWaits := before.pendingWaits ++
          [⟨task, request.requiredReplicas, writeOffset task.clientId before.replication,
            request.timeout.map (deadlineAfter env.now)⟩] }

theorem processWait_cases (env : Env) (task : Task) (before : Processor) :
    WaitOutcome env task before (before.processWait env task) := by
  unfold processWait
  split
  · exact .refused (.inl ⟨‹_›, rfl⟩)
  · have hmaster : before.replication.role = .master := not_not.mp ‹_›
    cases hrequest : parseWaitRequest task.command with
    | error message => exact .refused (.inr hrequest)
    | ok request =>
      simp only
      split
      · exact .answered hrequest hmaster ‹_›
      · rename_i hshort
        exact .waits hrequest hmaster fun hzero => hshort (.inl hzero)

/-- What a visit can make of a blocked `WAIT`: it stays, possibly after a count, or it is
answered with the count because it is due. -/
inductive WaitVisit (Due : PendingWait → ℕ → Prop) (pending : PendingWait) (before : Processor) :
    Option PendingWait × Processor → Prop
  | kept : WaitVisit Due pending before (some pending, before)
  | counted : WaitVisit Due pending before (some pending, { before with
      replication := (before.replication.countAcknowledgedReplicas pending.targetOffset).2 })
  | answered
      (hdue : Due pending (before.replication.countAcknowledgedReplicas pending.targetOffset).1) :
      WaitVisit Due pending before (none, { before with
        replication :=
          (before.replication.countAcknowledgedReplicas pending.targetOffset).2 }.fulfil
            pending.task []
            (.integer (before.replication.countAcknowledgedReplicas pending.targetOffset).1))

theorem waitVisit_retryWait (input : Unit) (pending : PendingWait) (processor : Processor) :
    WaitVisit (fun pending count => pending.requiredReplicas ≤ count) pending processor
      (retryWait input pending processor) := by
  unfold retryWait
  dsimp only
  split
  · exact .counted
  · exact .answered (Nat.le_of_not_lt ‹_›)

theorem waitVisit_expireWait (now : Int) (input : Unit) (pending : PendingWait)
    (processor : Processor) :
    WaitVisit (fun pending _ => isOver now pending.deadline = true) pending processor
      (expireWait now input pending processor) := by
  unfold expireWait
  split
  · exact .answered ‹_›
  · exact .kept

theorem expireWait_left {now : Int} {input : Unit} {pending kept : PendingWait}
    (h : (expireWait now input pending processor).1 = some kept) :
    isOver now kept.deadline = false := by
  unfold expireWait at h
  split at h <;> cases h
  exact eq_false_of_ne_true ‹_›

theorem WaitVisit.kept_eq {Due : PendingWait → ℕ → Prop} {pending : PendingWait}
    {outcome : Option PendingWait × Processor}
    (h : WaitVisit Due pending processor outcome) {kept : PendingWait}
    (hkept : outcome.1 = some kept) : kept = pending := by
  cases h <;> cases hkept <;> rfl

/-! ## The task -/

/-- The task is refused before its command is looked at: its client has not
authenticated, or it is subscribed and may not run this command. -/
def Refuses (task : Task) (processor : Processor) : Prop :=
  task.source = .client ∧
    (nameOf task.command ≠ some .auth ∧ processor.isAuthenticated task.clientId = false ∨
      processor.connections.isSubscribed task.clientId = true ∧
        allowedWhileSubscribed task.command = false)

/-- The task is a write that a client sent to a replica. -/
def Rejects (host : Host) (task : Task) (processor : Processor) : Prop :=
  processor.replication.role = .replica ∧ task.source = .client ∧
    isWriteCommand host task.command = true

/-- The connections after a refusal: a subscribed client hears of it through its session. -/
def Refusal (env : Env) (task : Task) (processor : Processor) (connections : Connections) : Prop :=
  connections = processor.connections ∨
    processor.connections.isSubscribed task.clientId = true ∧
      ∃ text, (text = Acl.noAuth ∨ text = notAllowedWhileSubscribed task.command) ∧
        connections = (processor.connections.enqueuePubsubResponse env.replyNotification
          task.clientId text).2

/-- **What `process_task` can do.** -/
inductive TaskOutcome (host : Host) (env : Env) (task : Task) (before : Processor) :
    Processor → Prop
  | refused {response : Response} (connections : Connections) (hrefuses : before.Refuses task)
      (hnegative : response.negative = true)
      (hsent : before.Refusal env task connections) :
      TaskOutcome host env task before ({ before with connections }.fulfil task [] response)
  | rejected (hrejects : before.Rejects host task) :
      TaskOutcome host env task before (before.rejectReplicaWrite task)
  | popped {after : Processor} (hname : nameOf task.command = some .blpop)
      (houtcome : BlpopOutcome host env task before after)
      (hclosed : before.hasTransaction task.clientId = false)
      (hserved : ¬ before.Rejects host task) : TaskOutcome host env task before after
  | read {after : Processor} (hname : nameOf task.command = some .xread)
      (houtcome : XreadOutcome env task before after)
      (hclosed : before.hasTransaction task.clientId = false) :
      TaskOutcome host env task before after
  | waited {after : Processor} (hname : nameOf task.command = some .wait)
      (houtcome : WaitOutcome env task before after)
      (hclosed : before.hasTransaction task.clientId = false) :
      TaskOutcome host env task before after
  | direct {response : Response} {middle : Processor} (hgate : ¬ before.Refuses task)
      (hcommand : before.processCommand host env.toCommandEnv task.clientId task.command
        task.source = some (response, middle)) (hserved : ¬ before.Rejects host task) :
      TaskOutcome host env task before
        ((middle.propagateDirect env.disk task
            (!before.hasTransaction task.clientId && isWriteCommand host task.command)
            response).2.finishTask env.replyNotification task (before.transactionOf task)
          (!responseIsError response)
          (middle.propagateDirect env.disk task
            (!before.hasTransaction task.clientId && isWriteCommand host task.command)
            response).1)

/-- A refused command is answered, directly or through the session of its client. -/
theorem processTask_refused (env : Env) (hrefuses : before.Refuses task) :
    ∃ connections response, response.negative = true ∧
      before.Refusal env task connections ∧
      before.processTask host env task =
        some ({ before with connections }.fulfil task [] response) := by
  unfold processTask
  split
  · unfold refuseUnauthenticated
    by_cases hlistens : before.connections.isSubscribed task.clientId = true
    · obtain ⟨reply, hnegative, hreply⟩ := replyThroughPubsub_eq env.replyNotification task.clientId
        Acl.noAuth before
      rw [if_pos hlistens, hreply]
      exact ⟨_, reply, hnegative, .inr ⟨hlistens, _, .inl rfl, rfl⟩, rfl⟩
    · rw [if_neg hlistens]
      exact ⟨before.connections, Acl.noAuth, rfl, .inl rfl, rfl⟩
  · rename_i hauthenticated
    obtain ⟨hclient, ⟨hname, hunknown⟩ | ⟨hlistens, hforbidden⟩⟩ := hrefuses
    · exact absurd ⟨hclient, hname, by simp [hunknown]⟩ hauthenticated
    · rw [if_pos ⟨hclient, hlistens, by simp [hforbidden]⟩]
      obtain ⟨reply, hnegative, hreply⟩ := replyThroughPubsub_eq env.replyNotification task.clientId
        (notAllowedWhileSubscribed task.command) before
      rw [refuseSubscribed, hreply]
      exact ⟨_, reply, hnegative, .inr ⟨hlistens, _, .inr rfl, rfl⟩, rfl⟩

/-- An admitted command is a refused write on a replica, or blocks, or goes to
`process_command`. -/
theorem processTask_admitted (hgate : ¬ processor.Refuses task) :
    processor.processTask host env task =
      if processor.replication.role = .replica ∧ task.source = .client ∧
          isWriteCommand host task.command then
        some (processor.rejectReplicaWrite task)
      else if nameOf task.command = some .blpop ∧ !processor.hasTransaction task.clientId then
        some (processor.processBlpop host env task)
      else if nameOf task.command = some .xread ∧ !processor.hasTransaction task.clientId then
        some (processor.processXread env task)
      else if nameOf task.command = some .wait ∧ !processor.hasTransaction task.clientId then
        some (processor.processWait env task)
      else processor.processDirect host env task := by
  have hauthenticated : ¬ (task.source = .client ∧ nameOf task.command ≠ some .auth ∧
      (!processor.isAuthenticated task.clientId) = true) := fun h =>
    hgate ⟨h.1, .inl ⟨h.2.1, by simpa using h.2.2⟩⟩
  have hsubscribed : ¬ (task.source = .client ∧
      processor.connections.isSubscribed task.clientId = true ∧
      (!allowedWhileSubscribed task.command) = true) := fun h =>
    hgate ⟨h.1, .inr ⟨h.2.1, by simpa using h.2.2⟩⟩
  rw [processTask, if_neg hauthenticated, if_neg hsubscribed]

theorem processTask_cases (h : before.processTask host env task = some after) :
    TaskOutcome host env task before after := by
  by_cases hgate : before.Refuses task
  · obtain ⟨connections, response, hnegative, hsent, htask⟩ :=
      @processTask_refused before task host env hgate
    cases htask.symm.trans h
    exact .refused connections hgate hnegative hsent
  rw [processTask_admitted hgate] at h
  split at h
  · cases h
    exact .rejected ‹_›
  rename_i hserved
  split at h
  · rename_i hname
    cases h
    exact .popped hname.1 (processBlpop_cases host env task before) (by simpa using hname.2) hserved
  split at h
  · rename_i hname
    cases h
    exact .read hname.1 (processXread_cases env task before) (by simpa using hname.2)
  split at h
  · rename_i hname
    cases h
    exact .waited hname.1 (processWait_cases env task before) (by simpa using hname.2)
  · obtain ⟨⟨response, middle⟩, hcommand, rfl⟩ := Option.map_eq_some_iff.mp h
    exact .direct hgate hcommand hserved

/-- A command that is no write, does not block and is forbidden to subscribers gets its
response directly. -/
theorem processTask_plain {name : CommandName} (hname : nameOf task.command = some name)
    (hplain : isWriteName name = false ∧ name ≠ .blpop ∧ name ≠ .xread ∧ name ≠ .wait)
    (hforbidden : allowedWhileSubscribed task.command = false) (hgate : ¬ before.Refuses task)
    (h : before.processTask host env task = some after) :
    ∃ response middle, before.processCommand host env.toCommandEnv task.clientId task.command
        task.source = some (response, middle) ∧
      (middle.connections = before.connections → ∃ offset,
        (task.source = .client → offset = middle.replication.offset) ∧
        after = { middle with
          replication := { middle.replication with offset } }.fulfil task
            (before.transactionOf task) response) := by
  have hread : isWriteCommand host task.command = false :=
    (isWriteCommand_of_name hname).trans hplain.1
  cases processTask_cases h with
  | refused _ hrefuses _ _ => exact absurd hrefuses hgate
  | rejected hrejects => cases hread.symm.trans hrejects.2.2
  | popped hother _ _ _ => exact absurd (Option.some.inj (hname.symm.trans hother)) hplain.2.1
  | read hother _ _ => exact absurd (Option.some.inj (hname.symm.trans hother)) hplain.2.2.1
  | waited hother _ _ => exact absurd (Option.some.inj (hname.symm.trans hother)) hplain.2.2.2
  | @direct response middle _ hcommand _ =>
    refine ⟨response, middle, hcommand, fun hsame => ?_⟩
    simp only [hread, Bool.and_false, propagateDirect_read]
    have hend := finishTask_cases env.replyNotification task (before.transactionOf task)
      (!responseIsError response) response middle
    generalize Processor.finishTask env.replyNotification task _ _ response middle = after
      at hend ⊢
    cases hend with
    | replied hoffset _ =>
      exact ⟨_, fun hclient => hoffset.resolve_right (by simp [hclient]), rfl⟩
    | published hclient hlistens _ =>
      exact absurd ⟨hclient, .inr ⟨hsame ▸ hlistens, hforbidden⟩⟩ hgate

/-- A command that is neither refused nor blocking is run straight away. -/
theorem processTask_direct (hgate : ¬ before.Refuses task)
    (hwritable : before.replication.role = .master ∨ task.source ≠ .client ∨
      isWriteCommand host task.command = false)
    (hname : before.hasTransaction task.clientId = true ∨
      nameOf task.command ≠ some .blpop ∧ nameOf task.command ≠ some .xread ∧
        nameOf task.command ≠ some .wait) :
    before.processTask host env task = before.processDirect host env task := by
  have hreplica : ¬ (before.replication.role = .replica ∧ task.source = .client ∧
      isWriteCommand host task.command = true) := by
    rintro ⟨hrole, hclient, hwrite⟩
    rcases hwritable with hmaster | hsource | hread
    · rw [hmaster] at hrole
      cases hrole
    · exact hsource hclient
    · rw [hread] at hwrite
      cases hwrite
  have hblocking : ∀ name, nameOf task.command ≠ some name ∨
      before.hasTransaction task.clientId = true →
      ¬ (nameOf task.command = some name ∧ (!before.hasTransaction task.clientId) = true) := by
    rintro name (hother | hopen) ⟨hsame, hclosed⟩
    · exact hother hsame
    · rw [hopen] at hclosed
      cases hclosed
  have hone : ∀ name, name = CommandName.blpop ∨ name = .xread ∨ name = .wait →
      nameOf task.command ≠ some name ∨ before.hasTransaction task.clientId = true := by
    rintro name hcases
    rcases hname with hopen | ⟨hblpop, hxread, hwait⟩
    · exact .inr hopen
    · rcases hcases with rfl | rfl | rfl
      · exact .inl hblpop
      · exact .inl hxread
      · exact .inl hwait
  rw [processTask_admitted hgate, if_neg hreplica, if_neg (hblocking _ (hone .blpop (.inl rfl))),
    if_neg (hblocking _ (hone .xread (.inr (.inl rfl)))),
    if_neg (hblocking _ (hone .wait (.inr (.inr rfl))))]

/-- A command that is neither a write nor an `EXEC` and does not block is answered with the
response of `process_command`. -/
theorem processTask_local {response : Response} {middle : Processor} (hgate : ¬ before.Refuses task)
    (hlocal : Local host task.command)
    (hname : nameOf task.command ≠ some .blpop ∧ nameOf task.command ≠ some .xread ∧
      nameOf task.command ≠ some .wait)
    (hcommand : before.processCommand host env.toCommandEnv task.clientId task.command
      task.source = some (response, middle)) (hdirect : ¬ (task.source = .client ∧
      middle.connections.isSubscribed task.clientId = true)) :
    ∃ offset, before.processTask host env task =
      some ({ middle with
        replication := { middle.replication with offset } }.fulfil task [] response) := by
  obtain ⟨offset, hfinish⟩ := finishTask_direct hdirect env.replyNotification
    (before.transactionOf task) (!responseIsError response) response
  refine ⟨offset, ?_⟩
  rw [processTask_direct hgate (.inr (.inr hlocal.1)) (.inr hname), processDirect, hcommand,
    hlocal.1, Bool.and_false, Option.map_some]
  simp only [propagateDirect_read]
  rw [hfinish, transactionOf, if_neg hlocal.2]

end Processor

end RedisServer
