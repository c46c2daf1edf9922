import Mathlib.Data.Multiset.Range
import Mathlib.Tactic.Abel
import RedisServer.Commands.Lists
import RedisServer.Processor.Clients

/-!
# Every promise is kept once

A submitted command gets the next promise.  From then on its promise is in one of
four places: with the replies, or in one of the three queues of blocked commands.
`Answers` says what a step does to the four; a visit of a pass either keeps a
blocked command or answers it (`Visited`), and a task answers its command or puts
it into one queue (`TaskEnd`).  So nothing is answered twice or forgotten.
-/

namespace RedisServer

open Resp KeyedStore Commands Aof

variable {before after : Processor} {task : Task} {phase : Phase}

/-- The step added these replies, and left the queues and the next promise alone. -/
structure Answers (answered : List Reply) (before after : Processor) : Prop where
  replies : after.replies = before.replies ++ answered
  pops : after.pendingListPops = before.pendingListPops
  reads : after.pendingStreamReads = before.pendingStreamReads
  waits : after.pendingWaits = before.pendingWaits
  nextPromise : after.nextPromise = before.nextPromise

namespace Answers

variable {first second third : Processor} {answered answered' : List Reply}

/-- A step that is none of the queues' business. -/
theorem nobody (hreplies : second.replies = first.replies)
    (hpops : second.pendingListPops = first.pendingListPops)
    (hreads : second.pendingStreamReads = first.pendingStreamReads)
    (hwaits : second.pendingWaits = first.pendingWaits)
    (hnext : second.nextPromise = first.nextPromise) : Answers [] first second :=
  ⟨by rw [hreplies, List.append_nil], hpops, hreads, hwaits, hnext⟩

theorem refl (processor : Processor) : Answers [] processor processor :=
  nobody rfl rfl rfl rfl rfl

theorem trans (h₁ : Answers answered first second) (h₂ : Answers answered' second third) :
    Answers (answered ++ answered') first third where
  replies := by rw [h₂.replies, h₁.replies, List.append_assoc]
  pops := h₂.pops.trans h₁.pops
  reads := h₂.reads.trans h₁.reads
  waits := h₂.waits.trans h₁.waits
  nextPromise := h₂.nextPromise.trans h₁.nextPromise

end Answers

/-! ## Visits of the passes -/

/-- A visit keeps a blocked command, or answers it and takes it out. -/
inductive Visited {Pending : Type} (taskOf : Pending → Task) (pending : Pending)
    (before : Processor) : Option Pending × Processor → Prop
  | kept {pending' : Pending} {after : Processor} (htask : taskOf pending' = taskOf pending)
      (hanswers : Answers [] before after) : Visited taskOf pending before (some pending', after)
  | answered {response : Response} {after : Processor}
      (hanswers : Answers [⟨taskOf pending, [], response⟩] before after) :
      Visited taskOf pending before (none, after)

namespace Processor

theorem answers_popAttempt {clock : Clock} {disk : Disk} {key : Bytes} {waiting : Bool}
    (h : PopAttempt clock disk task key before waiting after) :
    if waiting then Answers [] before after
    else ∃ response, Answers [⟨task, [], response⟩] before after ∧
      (before.database.entries.lookup key = none → response.bare = true) := by
  cases h with
  | served hpop hpersist =>
    obtain ⟨file, errors, replication, rfl⟩ := persistBlockingPop_cases _ hpersist
    refine ⟨_, ⟨rfl, rfl, rfl, rfl, rfl⟩, fun habsent => ?_⟩
    -- A key that is absent has no element.
    have hlive : live (Entry.expired clock) key before.database = none := by simp [live, habsent]
    rw [Database.popListElement_eq, transact, hlive] at hpop
    cases hpop
  | wrongType hpop => exact ⟨_, ⟨rfl, rfl, rfl, rfl, rfl⟩, fun _ => rfl⟩
  | waits hpop herror => exact .nobody rfl rfl rfl rfl rfl

theorem visited_retryListPop (input : Clock × Disk) (pending : PendingListPop)
    (processor : Processor) :
    Visited PendingListPop.task pending processor (retryListPop input pending processor) := by
  obtain ⟨waiting, after, hattempt, hretry⟩ := retryListPop_cases input pending processor
  have hanswers := answers_popAttempt hattempt
  rw [hretry]
  cases waiting with
  | true => exact .kept rfl hanswers
  | false =>
    obtain ⟨response, hanswers, -⟩ := hanswers
    exact .answered hanswers

theorem ReadRetry.visited {clock : Clock} {pending : PendingStreamRead} {processor : Processor}
    {outcome : Option PendingStreamRead × Processor}
    (h : ReadRetry clock pending processor outcome) :
    Visited PendingStreamRead.task pending processor outcome := by
  cases h with
  | failed _ | found _ => exact .answered ⟨rfl, rfl, rfl, rfl, rfl⟩
  | kept _ => exact .kept rfl (.nobody rfl rfl rfl rfl rfl)

theorem visited_waitVisit {Due : PendingWait → ℕ → Prop} {pending : PendingWait}
    {processor : Processor} {outcome : Option PendingWait × Processor}
    (h : WaitVisit Due pending processor outcome) :
    Visited PendingWait.task pending processor outcome := by
  cases h with
  | kept => exact .kept rfl (.refl _)
  | counted => exact .kept rfl (.nobody rfl rfl rfl rfl rfl)
  | answered _ => exact .answered ⟨rfl, rfl, rfl, rfl, rfl⟩

theorem visited_expireIn {Pending : Type} (taskOf : Pending → Task)
    (deadlineOf : Pending → Option Int) (now : Int) (input : Unit) (pending : Pending)
    (processor : Processor) :
    Visited taskOf pending processor
      (expireIn taskOf deadlineOf now input pending processor) := by
  unfold expireIn
  split
  · exact .answered ⟨rfl, rfl, rfl, rfl, rfl⟩
  · exact .kept rfl (.refl _)

/-- What a pass answers and what it keeps are, together, what it found. -/
theorem answers_scan {Input Pending : Type} {taskOf : Pending → Task}
    {visit : Input → Pending → Processor → Option Pending × Processor}
    (hvisit : ∀ input pending processor,
      Visited taskOf pending processor (visit input pending processor))
    (inputs : Stream' Input) (items : List Pending) (processor : Processor) :
    ∃ answered, Answers answered processor (Scan.scan visit inputs items processor).2 ∧
      (answered.map Reply.task : Multiset Task) +
          (Scan.scan visit inputs items processor).1.map taskOf = items.map taskOf ∧
      ∀ reply ∈ answered, reply.task ∈ items.map taskOf := by
  induction items generalizing inputs processor with
  | nil => exact ⟨[], .refl _, by simp [Scan.scan_nil], by simp⟩
  | cons item rest ih =>
    rw [Scan.scan_cons]
    have hfirst := hvisit inputs.head item processor
    generalize visit inputs.head item processor = outcome at hfirst
    obtain ⟨answered, hrest, hbalance, hmem⟩ := ih inputs.tail outcome.2
    cases hfirst with
    | @kept pending' after htask hanswers =>
      refine ⟨answered, hanswers.trans hrest, ?_, by simp_all⟩
      simp only [Option.toList_some, List.singleton_append, List.map_cons, htask,
        ← Multiset.cons_coe, ← hbalance, Multiset.add_cons]
    | @answered response after hanswers =>
      refine ⟨⟨taskOf item, [], response⟩ :: answered, hanswers.trans hrest, ?_, by simp_all⟩
      simp only [Option.toList_none, List.nil_append, List.map_cons, ← Multiset.cons_coe,
        ← hbalance, Multiset.cons_add]

/-! ## Tasks -/

/-- What becomes of the command of a task: it is answered, and nothing is taken for
it from a key that is absent, or it waits in one of the queues. -/
inductive TaskEnd (env : Env) (task : Task) (before : Processor) : Processor → Prop
  | answered {transaction : List Command} {response : Response} {after : Processor}
      (hanswers : Answers [⟨task, transaction, response⟩] before after)
      (habsent : ∀ key, before.database.entries.lookup key = none →
        takenFrom key task.command response = []) : TaskEnd env task before after
  | pops (database : Database) (key : Bytes) (deadline : Option Int) :
      TaskEnd env task before { before with
        database, pendingListPops := before.pendingListPops ++ [⟨task, key, deadline⟩] }
  | reads {readCommand : ReadCommand} {requests : List ReadRequest} {database : Database}
      {deadline : Option Int} (hname : nameOf task.command = some .xread)
      (hparse : parseXread task.command = .ok readCommand)
      (hread : Database.readStreams env.clock.head readCommand.requests before.database =
        (.ok [], requests, database))
      (hdeadline : readCommand.mode = .blockIndefinitely ∧ deadline = none ∨
        ∃ timeout, readCommand.mode = .blockWithTimeout timeout ∧
          deadline = some (deadlineAfter env.now timeout)) :
      TaskEnd env task before { before with
        database
        pendingStreamReads := before.pendingStreamReads ++ [⟨task, requests, deadline⟩] }
  | waits {request : WaitRequest} (replication : Replication)
      (hname : nameOf task.command = some .wait)
      (hrequest : parseWaitRequest task.command = .ok request)
      (hwritten : writeOffset task.clientId before.replication ≠ 0) :
      TaskEnd env task before { before with
        replication
        pendingWaits := before.pendingWaits ++
          [⟨task, request.requiredReplicas,
            writeOffset task.clientId before.replication,
            request.timeout.map (deadlineAfter env.now)⟩] }

variable {host : Host}

theorem BlpopOutcome.taskEnd (h : BlpopOutcome host env task before after) :
    TaskEnd env task before after := by
  cases h with
  | refused _ => exact .answered ⟨rfl, rfl, rfl, rfl, rfl⟩ fun _ _ => takenFrom_of_bare rfl
  | @answered request after hparse hattempt =>
    obtain ⟨response, hanswers, hbare⟩ := answers_popAttempt hattempt
    refine .answered hanswers fun key habsent => ?_
    by_cases hkey : key = request.key
    · subst hkey
      exact takenFrom_of_bare (hbare habsent)
    · refine takenFrom_of_target ?_
      rw [target_of_parseBlpop hparse]
      exact fun heq => hkey (Option.some.inj heq).symm
  | waits _ hattempt =>
    cases hattempt with
    | waits _ _ => exact .pops _ _ _

theorem XreadOutcome.taskEnd (h : XreadOutcome env task before after)
    (hname : nameOf task.command = some .xread) : TaskEnd env task before after := by
  cases h with
  | waits hparse hread hdeadline => exact .reads hname hparse hread hdeadline
  | _ =>
    exact .answered ⟨rfl, rfl, rfl, rfl, rfl⟩ fun _ _ =>
      takenFrom_of_name (by simp [hname]) (by simp [hname])

theorem WaitOutcome.taskEnd (h : WaitOutcome env task before after)
    (hname : nameOf task.command = some .wait) : TaskEnd env task before after := by
  cases h with
  | waits hrequest _ hwritten => exact .waits _ hname hrequest hwritten
  | _ =>
    exact .answered ⟨rfl, rfl, rfl, rfl, rfl⟩ fun _ _ =>
      takenFrom_of_name (by simp [hname]) (by simp [hname])

/-- `process_command` answers nobody by itself. -/
theorem answers_processCommand {env : CommandEnv} {clientId : ClientId} {command : Command}
    {source : CommandSource} {response : Response}
    (h : CommandOutcome host env clientId command source before response after) :
    Answers [] before after := by
  cases h with
  | ran _ _ _ hrun =>
    obtain ⟨⟨reply, database⟩, -, hafter⟩ := Option.map_eq_some_iff.mp hrun
    cases hafter
    exact .nobody rfl rfl rfl rfl rfl
  | transacted _ houtcome =>
    rcases execOutcome_frame houtcome with rfl | ⟨_, _, _, _, _, rfl⟩ <;>
      exact .nobody rfl rfl rfl rfl rfl
  | _ => exact .nobody rfl rfl rfl rfl rfl

/-- What `process_command` answers was not taken from an absent key. -/
theorem takenFrom_processCommand {env : CommandEnv} {clientId : ClientId} {command : Command}
    {source : CommandSource} {response : Response} {key : Bytes}
    (habsent : before.database.entries.lookup key = none)
    (h : CommandOutcome host env clientId command source before response after) :
    takenFrom key command response = [] := by
  cases h with
  | answered hlocal => exact takenFrom_of_read hlocal.1
  | connected _ hlocal => exact takenFrom_of_read hlocal.1
  | changedUser _ hlocal => exact takenFrom_of_read hlocal.1
  | watching _ _ _ _ _ => exact takenFrom_of_bare rfl
  | unwatched _ _ => exact takenFrom_of_bare rfl
  | opened _ _ _ => exact takenFrom_of_bare rfl
  | discarded _ _ _ => exact takenFrom_of_bare rfl
  | transacted hname _ => exact takenFrom_of_name (by simp [hname]) (by simp [hname])
  | queued _ _ => exact takenFrom_of_bare rfl
  | ran _ _ _ hrun =>
    obtain ⟨⟨reply, database⟩, hdispatch, hafter⟩ := Option.map_eq_some_iff.mp hrun
    cases hafter
    exact takenFrom_of_absent (dispatch_cases hdispatch) habsent

/-- A task that goes through `process_command` is answered. -/
theorem answers_direct {env : Env} {response : Response} {middle : Processor}
    (hcommand : before.processCommand host env.toCommandEnv task.clientId task.command task.source =
      some (response, middle)) (writeCommand succeeded : Bool) (transaction : List Command) :
    ∃ reply, (reply = response ∨ reply.negative = true) ∧
      Answers [⟨task, transaction, reply⟩] before
        ((middle.propagateDirect env.disk task writeCommand response).2.finishTask
          env.replyNotification task transaction succeeded
          (middle.propagateDirect env.disk task writeCommand response).1) := by
  obtain ⟨connections, file, errors, replication, reply, hfinish, hreply⟩ := finish_cases env.disk
    env.replyNotification task writeCommand transaction succeeded response middle
  have hfulfilled : Answers [⟨task, transaction, reply⟩] middle ({ middle with
      connections, aofFile := file, appendErrors := errors, replication }.fulfil task transaction
        reply) := ⟨rfl, rfl, rfl, rfl, rfl⟩
  exact ⟨reply, hreply, hfinish ▸
    (answers_processCommand (processCommand_cases hcommand)).trans hfulfilled⟩

theorem taskEnd_processTask {env : Env} (h : before.processTask host env task = some after) :
    TaskEnd env task before after := by
  cases processTask_cases h with
  | refused connections _ hnegative _ =>
    exact .answered ⟨rfl, rfl, rfl, rfl, rfl⟩ fun _ _ =>
      takenFrom_of_bare (Response.bare_of_negative hnegative)
  | rejected _ =>
    unfold rejectReplicaWrite
    exact .answered ⟨rfl, rfl, rfl, rfl, rfl⟩ fun _ _ => takenFrom_of_bare rfl
  | popped _ houtcome _ _ => exact houtcome.taskEnd
  | read hname houtcome _ => exact houtcome.taskEnd hname
  | waited hname houtcome _ => exact houtcome.taskEnd hname
  | @direct response middle _ hcommand =>
    obtain ⟨reply, hreply, hanswers⟩ := answers_direct hcommand
      (!before.hasTransaction task.clientId && isWriteCommand host task.command)
      (!responseIsError response) (before.transactionOf task)
    refine .answered hanswers fun key habsent => ?_
    rcases hreply with rfl | hnegative
    · exact takenFrom_processCommand habsent (processCommand_cases hcommand)
    · exact takenFrom_of_bare (Response.bare_of_negative hnegative)

end Processor

/-! ## The books of the promises -/

/-- The tasks in the three queues. -/
def Processor.pendingTasks (processor : Processor) : List Task :=
  processor.pendingListPops.map PendingListPop.task ++
    processor.pendingStreamReads.map PendingStreamRead.task ++
    processor.pendingWaits.map PendingWait.task

/-- The tasks that were answered, and those that wait. -/
def Processor.tasks (processor : Processor) : List Task :=
  processor.replies.map Reply.task ++ processor.pendingTasks

/-- The command a phase submits, but for its promise. -/
def Phase.submits : Phase → Option (ℕ → Task)
  | .task _ (.command clientId words source replicationBytes) =>
    some fun promise => ⟨promise, clientId, words, source, replicationBytes⟩
  | _ => none

/-- The commands that phases submit, with their promises in order. -/
def submissions (phases : List Phase) : List Task :=
  (phases.filterMap Phase.submits).mapIdx fun promise submit => submit promise

/-- The blocked commands that a phase goes through. -/
def Phase.visits (processor : Processor) : Phase → List Task
  | .retryListPops _ | .expireListPops _ => processor.pendingListPops.map PendingListPop.task
  | .retryStreamReads _ | .expireStreamReads _ =>
    processor.pendingStreamReads.map PendingStreamRead.task
  | .retryWaits | .expireWaits _ => processor.pendingWaits.map PendingWait.task
  | .task _ (.unregisterClient clientId) => processor.blockedTasks clientId
  | _ => []

/-- Some of the visited commands are answered.  All others that are blocked stay so, with
their deadlines. -/
structure Settles (visited : List Task) (answered : List Reply) (before after : Processor) :
    Prop where
  replies : after.replies = before.replies ++ answered
  pops : after.pendingListPops.Sublist before.pendingListPops
  reads : ∀ kept ∈ after.pendingStreamReads, ∃ pending ∈ before.pendingStreamReads,
    kept.task = pending.task ∧ kept.deadline = pending.deadline
  waits : after.pendingWaits.Sublist before.pendingWaits
  nextPromise : after.nextPromise = before.nextPromise
  tasks : (answered.map Reply.task : Multiset Task) + after.pendingTasks = before.pendingTasks
  visited : ∀ reply ∈ answered, reply.task ∈ visited

theorem Settles.of_answers (h : Answers [] before after) : Settles [] [] before after where
  replies := h.replies
  pops := h.pops ▸ .refl _
  reads kept hkept := ⟨kept, h.reads ▸ hkept, rfl, rfl⟩
  waits := h.waits ▸ .refl _
  nextPromise := h.nextPromise
  tasks := by simp [Processor.pendingTasks, h.pops, h.reads, h.waits]
  visited := by simp

namespace Processor

variable {host : Host}

theorem coe_pendingTasks (processor : Processor) :
    (processor.pendingTasks : Multiset Task) =
      processor.pendingListPops.map PendingListPop.task +
        processor.pendingStreamReads.map PendingStreamRead.task +
        processor.pendingWaits.map PendingWait.task := by
  simp only [pendingTasks, Multiset.coe_add]

theorem coe_tasks (processor : Processor) :
    (processor.tasks : Multiset Task) =
      processor.replies.map Reply.task + processor.pendingTasks := by
  simp only [tasks, Multiset.coe_add]

section Passes

variable {Input : Type}

theorem settles_pops {visit : Input → PendingListPop → Processor → Option PendingListPop × Processor}
    (hvisit : ∀ input pending processor,
      Visited PendingListPop.task pending processor (visit input pending processor))
    (hkept : ∀ input pending processor kept,
      (visit input pending processor).1 = some kept → kept = pending)
    (inputs : Stream' Input) (processor : Processor) :
    ∃ answered, Settles (processor.pendingListPops.map PendingListPop.task) answered processor
      { (Scan.scan visit inputs processor.pendingListPops processor).2 with
        pendingListPops := (Scan.scan visit inputs processor.pendingListPops processor).1 } := by
  obtain ⟨answered, hanswers, hbalance, hmem⟩ := answers_scan hvisit inputs _ processor
  refine ⟨answered, hanswers.replies, Scan.scan_sublist hkept _ _ _,
    fun kept h => ⟨kept, hanswers.reads ▸ h, rfl, rfl⟩, hanswers.waits ▸ .refl _,
    hanswers.nextPromise, ?_, hmem⟩
  simp only [coe_pendingTasks, ← hbalance, hanswers.reads, hanswers.waits]
  abel

theorem settles_reads
    {visit : Input → PendingStreamRead → Processor → Option PendingStreamRead × Processor}
    (hvisit : ∀ input pending processor,
      Visited PendingStreamRead.task pending processor (visit input pending processor))
    (hkept : ∀ input pending processor kept, (visit input pending processor).1 = some kept →
      kept.task = pending.task ∧ kept.deadline = pending.deadline)
    (inputs : Stream' Input) (processor : Processor) :
    ∃ answered, Settles (processor.pendingStreamReads.map PendingStreamRead.task) answered processor
      { (Scan.scan visit inputs processor.pendingStreamReads processor).2 with
        pendingStreamReads :=
          (Scan.scan visit inputs processor.pendingStreamReads processor).1 } := by
  obtain ⟨answered, hanswers, hbalance, hmem⟩ := answers_scan hvisit inputs _ processor
  refine ⟨answered, hanswers.replies, hanswers.pops ▸ .refl _, ?_, hanswers.waits ▸ .refl _,
    hanswers.nextPromise, ?_, hmem⟩
  · exact Scan.mem_scan (fun input pending state kept hpending hvisit =>
      ⟨pending, hpending, hkept input pending state kept hvisit⟩) _ _ _ fun _ hpending => hpending
  · simp only [coe_pendingTasks, ← hbalance, hanswers.pops, hanswers.waits]
    abel

theorem settles_waits {Due : PendingWait → ℕ → Prop}
    {visit : Unit → PendingWait → Processor → Option PendingWait × Processor}
    (hvisit : ∀ input pending processor,
      WaitVisit Due pending processor (visit input pending processor)) (inputs : Stream' Unit)
    (processor : Processor) :
    ∃ answered, Settles (processor.pendingWaits.map PendingWait.task) answered processor
      { (Scan.scan visit inputs processor.pendingWaits processor).2 with
        pendingWaits := (Scan.scan visit inputs processor.pendingWaits processor).1 } := by
  obtain ⟨answered, hanswers, hbalance, hmem⟩ := answers_scan
    (fun input pending processor => visited_waitVisit (hvisit input pending processor)) inputs _
    processor
  refine ⟨answered, hanswers.replies, hanswers.pops ▸ .refl _,
    fun kept h => ⟨kept, hanswers.reads ▸ h, rfl, rfl⟩, scan_waits_sublist hvisit _ _ _,
    hanswers.nextPromise, ?_, hmem⟩
  simp only [coe_pendingTasks, ← hbalance, hanswers.pops, hanswers.reads]
  abel

end Passes

/-- A departing client takes its blocked commands along. -/
theorem settles_unregistration (clientId : ClientId) (processor : Processor) :
    Settles (processor.blockedTasks clientId)
      ((processor.blockedTasks clientId).map fun task => ⟨task, [], .noResponse⟩) processor
      (processor.processClientUnregistration clientId) := by
  rw [processClientUnregistration, cancelPendingCommands_eq]
  refine ⟨rfl, List.filter_sublist, fun kept h => ⟨kept, List.mem_of_mem_filter h, rfl, rfl⟩,
    List.filter_sublist, rfl, ?_, fun reply hreply => ?_⟩
  · have hperm := List.filter_append_perm (fun task : Task => decide (task.clientId = clientId))
      processor.pendingTasks
    simpa [pendingTasks, blockedTasks, List.filter_map, Function.comp_def] using hperm
  · obtain ⟨task, htask, rfl⟩ := List.mem_map.mp hreply
    exact htask

/-- The recovery from a log answers nobody. -/
theorem answers_processAofInitialization {envs : Stream' CommandEnv} {file : AppendOnlyFile}
    {commands : List Command} {result : Except Bytes Unit}
    (h : before.processAofInitialization host envs file commands = some (result, after)) :
    Answers [] before after := by
  obtain ⟨replayed, middle, log, hreplay, -, rfl⟩ := processAofInitialization_cases h
  have hmiddle := replay_invariant (Answers [] before) (fun _ hfirst hcommand =>
    hfirst.trans (answers_processCommand (processCommand_cases hcommand))) (.refl _) hreplay
  exact hmiddle.trans (.nobody rfl rfl rfl rfl rfl)

/-- A phase that submits no command. -/
theorem settles_perform (hsubmits : phase.submits = none)
    (h : phase.perform host before = some after) :
    ∃ answered, Settles (phase.visits before) answered before after := by
  cases phase with
  | task env work =>
    cases work with
    | command clientId words source replicationBytes => cases hsubmits
    | initializeAof file commands =>
      obtain ⟨⟨result, after'⟩, hinit, rfl⟩ := Option.map_eq_some_iff.mp h
      exact ⟨[], .of_answers (answers_processAofInitialization hinit)⟩
    | unregisterClient clientId =>
      cases h
      exact ⟨_, settles_unregistration clientId before⟩
    | _ =>
      cases h
      exact ⟨[], .of_answers (.nobody rfl rfl rfl rfl rfl)⟩
  | retryListPops inputs =>
    cases h
    exact settles_pops visited_retryListPop (fun _ _ _ _ => retryListPop_kept) inputs before
  | retryStreamReads clocks =>
    cases h
    exact settles_reads (fun clock pending state => (retryStreamRead_cases clock pending state).visited)
      (fun clock pending state _ => (retryStreamRead_cases clock pending state).kept_eq) clocks before
  | retryWaits =>
    cases h
    exact settles_waits waitVisit_retryWait _ before
  | expireListPops now =>
    cases h
    exact settles_pops (visited_expireIn _ _ now) (fun _ _ _ _ hkept => (expireIn_kept hkept).1)
      _ before
  | expireStreamReads now =>
    cases h
    refine settles_reads (visited_expireIn _ _ now) (fun _ _ _ _ hkept => ?_) _ before
    rw [(expireIn_kept hkept).1]
    exact ⟨rfl, rfl⟩
  | expireWaits now =>
    cases h
    exact settles_waits (waitVisit_expireWait now) _ before
  | external event =>
    cases h
    obtain ⟨sessions, replication, hevent⟩ := external_perform_eq event before
    rw [hevent]
    exact ⟨[], .of_answers (.nobody rfl rfl rfl rfl rfl)⟩

/-- A task answers its command, or puts it into one queue. -/
theorem answered_of_taskEnd (h : TaskEnd env task before after) :
    (∃ answered, after.replies = before.replies ++ answered ∧
      (answered.map Reply.task : Multiset Task) + after.pendingTasks =
        task ::ₘ before.pendingTasks) ∧ after.nextPromise = before.nextPromise := by
  cases h with
  | answered hanswers _ =>
    refine ⟨⟨_, hanswers.replies, ?_⟩, hanswers.nextPromise⟩
    simp [pendingTasks, hanswers.pops, hanswers.reads, hanswers.waits]
  | pops _ _ _ | reads _ _ _ _ | waits _ _ _ _ =>
    refine ⟨⟨[], by simp, ?_⟩, rfl⟩
    rw [coe_pendingTasks, coe_pendingTasks, ← Multiset.singleton_add]
    simp only [List.map_append, ← Multiset.coe_add, List.map_cons, List.map_nil,
      Multiset.coe_singleton, Multiset.coe_nil]
    abel

/-- Nobody else joins a queue or gets an answer. -/
theorem joins_of_taskEnd (h : TaskEnd env task before after) :
    (∀ other ∈ after.pendingListPops.map PendingListPop.task,
        other ∈ before.pendingListPops.map PendingListPop.task ∨ other = task) ∧
      (∀ other ∈ after.pendingWaits.map PendingWait.task,
        other ∈ before.pendingWaits.map PendingWait.task ∨ other = task) ∧
      ∀ reply ∈ after.replies, reply ∈ before.replies ∨ reply.task = task := by
  cases h with
  | answered hanswers _ =>
    obtain ⟨hreplies, hpops, -, hwaits, -⟩ := hanswers
    rw [hreplies, hpops, hwaits]
    refine ⟨fun _ => .inl, fun _ => .inl, fun reply hreply => ?_⟩
    exact (List.mem_append.mp hreply).imp_right fun hnew => by rw [List.mem_singleton.mp hnew]
  | pops _ _ _ | reads _ _ _ _ | waits _ _ _ _ =>
    refine ⟨fun other hother => ?_, fun other hother => ?_, fun _ => .inl⟩ <;>
      first | exact .inl hother | simpa using hother

/-- What a phase answers and what waits after it is what waited before, or what the
phase submits. -/
theorem answered_perform (h : phase.perform host before = some after) :
    ∃ answered, after.replies = before.replies ++ answered ∧
      (answered.map Reply.task : Multiset Task) + after.pendingTasks =
        (phase.submits.map fun submit => submit before.nextPromise).toList +
          before.pendingTasks := by
  cases hsubmits : phase.submits with
  | none =>
    obtain ⟨answered, hsettles⟩ := settles_perform hsubmits h
    exact ⟨answered, hsettles.replies, by simpa using hsettles.tasks⟩
  | some submit =>
    unfold Phase.submits at hsubmits
    split at hsubmits
    · cases hsubmits
      exact (answered_of_taskEnd (taskEnd_processTask h)).1
    · cases hsubmits

/-- A phase adds what it submits to the books, and nothing else. -/
theorem tasks_perform (h : phase.perform host before = some after) :
    (after.tasks : Multiset Task) =
        (phase.submits.map fun submit => submit before.nextPromise).toList + before.tasks ∧
      after.nextPromise = before.nextPromise + if phase.submits.isSome then 1 else 0 := by
  obtain ⟨answered, hreplies, htasks⟩ := answered_perform h
  refine ⟨?_, ?_⟩
  · rw [coe_tasks, coe_tasks, hreplies, List.map_append, ← Multiset.coe_add, add_assoc, htasks]
    exact add_left_comm _ _ _
  · cases hsubmits : phase.submits with
    | none =>
      obtain ⟨answered, hsettles⟩ := settles_perform hsubmits h
      exact hsettles.nextPromise
    | some submit =>
      unfold Phase.submits at hsubmits
      split at hsubmits
      · exact (answered_of_taskEnd (taskEnd_processTask h)).2
      · cases hsubmits

/-- Replies are never taken back. -/
theorem replies_perform (h : phase.perform host before = some after) :
    before.replies <+: after.replies := by
  obtain ⟨answered, hreplies, -⟩ := answered_perform h
  exact ⟨answered, hreplies.symm⟩

end Processor

/-! ## Runs -/

/-- The books are right: the promises were given out in order, and every one is
with exactly one task. -/
structure Accounted (phases : List Phase) (processor : Processor) : Prop where
  tasks : (processor.tasks : Multiset Task) = submissions phases
  nextPromise : processor.nextPromise = (submissions phases).length

theorem submissions_append (phases : List Phase) (phase : Phase) :
    submissions (phases ++ [phase]) =
      submissions phases ++
        (phase.submits.map fun submit => submit (submissions phases).length).toList := by
  unfold submissions
  rw [List.filterMap_append, List.mapIdx_append]
  cases hsubmits : phase.submits with
  | none => simp [hsubmits]
  | some submit => simp [hsubmits]

/-- The promises of the submitted commands are all different. -/
theorem promises_submissions (phases : List Phase) :
    (submissions phases).map Task.promise = List.range (submissions phases).length := by
  induction phases using List.reverseRecOn with
  | nil => rfl
  | append_singleton phases phase ih =>
    rw [submissions_append]
    cases hsubmits : phase.submits with
    | none => simpa using ih
    | some submit =>
      have hpromise : ∀ n, (submit n).promise = n := by
        unfold Phase.submits at hsubmits
        split at hsubmits <;> cases hsubmits
        exact fun _ => rfl
      simp [ih, hpromise, List.range_succ]

theorem accounted_perform {host : Host} {phases : List Phase} (hbefore : Accounted phases before)
    (h : phase.perform host before = some after) : Accounted (phases ++ [phase]) after := by
  obtain ⟨htasks, hnext⟩ := Processor.tasks_perform h
  refine ⟨?_, ?_⟩
  · rw [htasks, hbefore.tasks, hbefore.nextPromise, submissions_append, Multiset.coe_add,
      Multiset.coe_eq_coe]
    exact List.perm_append_comm
  · rw [hnext, hbefore.nextPromise, submissions_append, List.length_append]
    cases phase.submits <;> rfl

/-- The books are right after every run. -/
theorem accounted_run {host : Host} {phases : List Phase} {start final : Processor}
    (hstart : Accounted [] start) (hrun : runPhases host phases start = some final) :
    Accounted phases final := by
  induction phases using List.reverseRecOn generalizing final with
  | nil =>
    cases hrun
    exact hstart
  | append_singleton phases phase ih =>
    obtain ⟨before, hbefore, hlast⟩ := Runs.run_append_eq_some.mp hrun
    obtain ⟨after, hphase, hnil⟩ := Runs.run_cons_eq_some.mp hlast
    cases hnil
    exact accounted_perform (ih hbefore) hphase

/-- **Each request is answered exactly once.**  After every phase of a run, and so
after every iteration, the answered tasks and the tasks in the three queues are
together the submitted ones, each once; no promise is fulfilled twice; and a task
that the last phase took out of a queue has been answered. -/
theorem answered_exactly_once (host : Host) (role : ReplicationRole) (replicationId : Bytes)
    (defaultUser : User) (rdbConfig : RdbConfig) (aofConfig : AofConfig) (earlier : List Phase)
    (phase : Phase) {before after : Processor}
    (hbefore : runPhases host earlier
      (Processor.start role replicationId defaultUser rdbConfig aofConfig) = some before)
    (hphase : phase.perform host before = some after) :
    (after.replies.map Reply.task ++ after.pendingTasks).Perm (submissions (earlier ++ [phase])) ∧
    ((after.replies.map Reply.task ++ after.pendingTasks).map Task.promise).Nodup ∧
    ∀ task ∈ before.pendingTasks, task ∉ after.pendingTasks →
      task ∈ after.replies.map Reply.task := by
  have hstart : Accounted [] (Processor.start role replicationId defaultUser rdbConfig aofConfig) :=
    ⟨rfl, rfl⟩
  have haccounted := accounted_run hstart hbefore
  have hperm : (after.replies.map Reply.task ++ after.pendingTasks).Perm
      (submissions (earlier ++ [phase])) :=
    Multiset.coe_eq_coe.mp (accounted_perform haccounted hphase).tasks
  refine ⟨hperm, ?_, fun task htask hgone => ?_⟩
  · have hnodup : ((submissions (earlier ++ [phase])).map Task.promise).Nodup := by
      rw [promises_submissions]
      exact List.nodup_range
    exact (hperm.map Task.promise).nodup_iff.mpr hnodup
  · -- The task was submitted, so it is still in the books.
    have hsubmitted : task ∈ submissions earlier := by
      have hperm' : before.tasks.Perm (submissions earlier) := Multiset.coe_eq_coe.mp haccounted.tasks
      exact hperm'.mem_iff.mp (List.mem_append_right _ htask)
    have hmem : task ∈ after.replies.map Reply.task ++ after.pendingTasks := by
      rw [hperm.mem_iff, submissions_append]
      exact List.mem_append_left _ hsubmitted
    exact (List.mem_append.mp hmem).resolve_right hgone

/-- A client waits in `BLPOP`, another one pushes, and the retry takes the first one
out of its queue: it has been answered, and nobody twice. -/
theorem answered_exactly_once_retry :
    let start := Processor.start .master [] (User.default none) {} {}
    let still (task : ProcessorTask) := Phase.task (Env.still ⟨1, 1⟩) task
    let earlier := [still (.registerClient 1 0), still (.registerClient 2 1),
      still (.ofClient 1 [ascii "BLPOP", ascii "k", ascii "0"]),
      still (.ofClient 2 [ascii "RPUSH", ascii "k", ascii "v"])]
    let phase := Phase.retryListPops (Stream'.const (⟨1, 1⟩, {}))
    ∃ before after, runPhases Host.plain earlier start = some before ∧
      phase.perform Host.plain before = some after ∧
      before.pendingTasks.map Task.promise = [0] ∧ after.pendingTasks = [] ∧
      ((after.replies.map Reply.task ++ after.pendingTasks).map Task.promise).Nodup ∧
      ∀ task ∈ before.pendingTasks, task ∈ after.replies.map Reply.task := by
  intro start still earlier phase
  have hsome : ∃ before, runPhases Host.plain earlier start = some before ∧
      before.pendingTasks.map Task.promise = [0] ∧
        ∃ after, phase.perform Host.plain before = some after ∧ after.pendingTasks = [] := by
    decide +kernel
  obtain ⟨before, hbefore, hpending, after, hafter, hnone⟩ := hsome
  obtain ⟨-, hnodup, hremoved⟩ := answered_exactly_once Host.plain _ _ _ _ _ earlier phase hbefore
    hafter
  refine ⟨before, after, hbefore, hafter, hpending, hnone, hnodup,
    fun task htask => hremoved task htask ?_⟩
  rw [hnone]
  exact List.not_mem_nil

end RedisServer
