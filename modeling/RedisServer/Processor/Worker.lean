import RedisServer.Processor.Phases

/-!
# The passes over the queues, and whole runs

The remaining phases, and with them the rule for runs: from a state whose queues
are sound, every run of phases within a regime has a chronicle.
-/

namespace RedisServer

open Resp KeyedStore Commands Aof Replication

variable {before after processor : Processor} {input : Unit}

/-! ## The regime of a phase -/

def ProcessorTask.Within (regime : Regime) : ProcessorTask → Prop
  | .command clientId words source replicationBytes =>
    ∀ promise, regime.Ordered ⟨promise, clientId, words, source, replicationBytes⟩
  | .initializeAof _ commands => regime.Recovers ∧ ∀ words ∈ commands, regime.Queueable words
  | .loadRdb _ => regime.Recovers
  | _ => True

def External.Within (regime : Regime) : External → Prop
  | .closeReplica session | .dropReplica session => ¬ regime.Kept session
  | _ => True

/-- The inputs of the phase are as the regime assumes. -/
def Phase.Within (regime : Regime) : Phase → Prop
  | .task env work => env.OnTime regime.Timely ∧ regime.Safe env.disk ∧ work.Within regime
  | .retryListPops inputs => ∀ n, regime.Timely (inputs.get n).1 ∧ regime.Safe (inputs.get n).2
  | .retryStreamReads clocks => ∀ n, regime.Timely (clocks.get n)
  | .external event => event.Within regime
  | _ => True

namespace Processor

variable {host : Host} {regime : Regime}

/-! ## Recovery -/

/-- Every key that is loaded is an event. -/
theorem history_loadEntries {Timely : Clock → Prop} (unixNow : Int) (entries : List StringEntry)
    (clocks : Stream' Clock) (htimely : ∀ n, Timely (clocks.get n)) (database : Database) :
    History host Timely database
      ((entries.filter fun entry => (entry.remaining unixNow).isSome).map fun entry =>
        .loaded entry.key)
      (loadEntries unixNow entries clocks database) := by
  induction entries generalizing clocks database with
  | nil => exact .done _
  | cons entry rest ih =>
    have hrest := fun database => ih clocks.tail (fun n => htimely (n + 1)) database
    unfold loadEntries
    cases hremaining : entry.remaining unixNow with
    | none => simpa [hremaining] using hrest database
    | some expiry => simpa [hremaining] using History.loaded (htimely 0) (hrest _)

/-- A command leaves the queues sound, whoever submits it. -/
theorem holds_processCommand {env : CommandEnv} {clientId : ClientId} {command : Command}
    {source : CommandSource} {response : Response}
    (hqueueable : regime.Queueable command) (hholds : before.Holds host regime)
    (h : CommandOutcome host env clientId command source before response after) :
    after.Holds host regime := by
  cases h with
  | opened _ _ _ => exact hholds.insert (by simp)
  | discarded _ _ _ => exact (hholds.erase clientId).congr rfl rfl rfl rfl
  | @queued transaction _ htransaction =>
    refine hholds.insert fun queued hqueued => ?_
    rcases List.mem_append.mp hqueued with hqueued | hqueued
    · exact hholds.queued _ _ htransaction queued hqueued
    · rwa [List.mem_singleton.mp hqueued]
  | ran _ _ _ hrun =>
    obtain ⟨⟨reply, database⟩, -, hafter⟩ := Option.map_eq_some_iff.mp hrun
    cases hafter
    exact hholds.congr rfl rfl rfl rfl
  | transacted _ houtcome =>
    rcases execOutcome_frame houtcome with rfl | ⟨_, _, _, _, _, rfl⟩
    · exact hholds
    · exact (hholds.erase clientId).congr rfl rfl rfl rfl
  | _ => exact hholds.congr rfl rfl rfl rfl

/-- What is replayed from the log is not appended to it. -/
theorem appendErrors_propagateTransaction (replicated : Bool) (disk : Disk) (clientId : ClientId)
    (logged : List Command) (processor : Processor) :
    (processor.propagateTransaction false replicated disk clientId logged).2.appendErrors =
      processor.appendErrors := by
  have hpersist : ∀ payload, processor.persist false disk payload = (.ok (), processor) := by
    intro payload
    unfold persist
    cases processor.aofFile <;> rfl
  unfold propagateTransaction
  split
  · rfl
  · rw [propagate, hpersist]
    cases replicated <;> rfl

/-- A command fulfils no promise by itself, and its replay cannot fail to be
logged. -/
theorem history_processCommand {env : CommandEnv} (htimely : env.OnTime regime.Timely)
    {clientId : ClientId} {command : Command} {response : Response}
    (h : CommandOutcome host env clientId command .aof before response after) :
    after.replies = before.replies ∧ after.appendErrors = before.appendErrors := by
  cases h with
  | ran _ _ _ hrun =>
    obtain ⟨⟨reply, database⟩, -, hafter⟩ := Option.map_eq_some_iff.mp hrun
    cases hafter
    exact ⟨rfl, rfl⟩
  | transacted _ houtcome =>
    cases houtcome with
    | @ran _ _ _ logged middle _ _ _ _ _ _ hexecute hpropagate =>
      obtain ⟨final, hmiddle, -, -, -⟩ := executeCommands_spec htimely.clock hexecute
      obtain ⟨file, errors, replication, hafter⟩ := propagateTransaction_cases
        (before.persists .aof) (before.replicates .aof) env.disk clientId logged middle
      have herrors := appendErrors_propagateTransaction (before.replicates .aof) env.disk
        clientId logged middle
      have hpersists : before.persists .aof = false := by simp [persists]
      rw [← hpersists, hpropagate] at herrors
      simp only [hpropagate] at hafter
      refine ⟨?_, ?_⟩
      · rw [hafter, hmiddle]
        rfl
      · exact herrors.trans (by rw [hmiddle]; rfl)
    | _ => exact ⟨rfl, rfl⟩
  | _ => exact ⟨rfl, rfl⟩

/-- The loop over the commands of the log. -/
theorem replayCommands_spec {commands : List Command} {envs : Stream' CommandEnv}
    (htimely : ∀ n, (envs.get n).OnTime regime.Timely)
    (hqueueable : ∀ command ∈ commands, regime.Queueable command) {result : Except Bytes Unit}
    (hholds : before.Holds host regime)
    (h : before.replayCommands host commands envs = some (result, after)) :
    after.Holds host regime ∧ Advances host regime.Timely before after ∧
      after.replies = before.replies ∧ after.appendErrors = before.appendErrors := by
  induction commands generalizing envs before with
  | nil =>
    cases h
    exact ⟨hholds, .refl _, rfl, rfl⟩
  | cons command rest ih =>
    obtain ⟨⟨response, middle⟩, hcommand, hrest⟩ := Option.bind_eq_some_iff.mp h
    have houtcome := processCommand_cases hcommand
    have hmiddle := holds_processCommand (hqueueable command (by simp)) hholds
      houtcome
    have hadvances := advances_processCommand (htimely 0) houtcome
    obtain ⟨hreplies, herrors⟩ := history_processCommand (htimely 0) houtcome
    cases response with
    | simpleError message =>
      cases hrest
      exact ⟨hmiddle, hadvances, hreplies, herrors⟩
    | _ =>
      obtain ⟨hafter, hadvances', hreplies', herrors'⟩ := ih (fun n => htimely (n + 1))
        (fun other hother => hqueueable other (by simp [hother])) hmiddle hrest
      exact ⟨hafter, hadvances.trans hadvances', hreplies'.trans hreplies,
        herrors'.trans herrors⟩

theorem proceeds_processAofInitialization {envs : Stream' CommandEnv}
    (htimely : ∀ n, (envs.get n).OnTime regime.Timely) {file : AppendOnlyFile}
    {commands : List Command} (hrecovers : regime.Recovers)
    (hqueueable : ∀ command ∈ commands, regime.Queueable command) {result : Except Bytes Unit}
    (h : before.processAofInitialization host envs file commands = some (result, after)) :
    Proceeds host regime before after := by
  intro hholds
  obtain ⟨⟨replayed, middle⟩, hreplay, hafter⟩ := Option.map_eq_some_iff.mp h
  obtain ⟨hmiddle, ⟨events, hevents, hhistory⟩, hreplies, herrors⟩ :=
    replayCommands_spec htimely hqueueable hholds hreplay
  have hforget : middle.forgetReplay.Holds host regime :=
    (hmiddle.erase aofClientId).congr rfl rfl rfl rfl
  cases replayed with
  | error message =>
    cases hafter
    exact ⟨hforget, _, .recovered hrecovers hevents hhistory hreplies herrors⟩
  | ok _ =>
    simp only at hafter
    split at hafter
    · cases hafter
      exact ⟨hforget, _, .recovered hrecovers hevents hhistory hreplies herrors⟩
    · cases hafter
      exact ⟨hforget.congr rfl rfl rfl rfl, _, .recovered hrecovers hevents hhistory hreplies herrors⟩

/-! ## Passes -/

/-- A pass proceeds if every visit does. -/
theorem proceeds_scan {Input Pending : Type} {Given : Input → Prop} {Admitted : Pending → Prop}
    {visit : Input → Pending → Processor → Option Pending × Processor}
    (hvisit : ∀ input pending processor, Given input → Admitted pending →
      Proceeds host regime processor (visit input pending processor).2)
    (inputs : Stream' Input) (hinputs : ∀ n, Given (inputs.get n)) (items : List Pending)
    (hitems : ∀ item ∈ items, Admitted item) (processor : Processor) :
    Proceeds host regime processor (Scan.scan visit inputs items processor).2 :=
  Scan.scan_relation .refl (fun _ _ _ h₁ h₂ => h₁.trans h₂) hvisit inputs hinputs items hitems
    processor

/-- A pass whose visits need no assumption. -/
theorem proceeds_scan_of_visit {Input Pending : Type}
    {visit : Input → Pending → Processor → Option Pending × Processor}
    (hvisit : ∀ input pending processor,
      Proceeds host regime processor (visit input pending processor).2)
    (inputs : Stream' Input) (items : List Pending) (processor : Processor) :
    Proceeds host regime processor (Scan.scan visit inputs items processor).2 :=
  proceeds_scan (fun input pending processor (_ : True) (_ : True) =>
    hvisit input pending processor) inputs (fun _ => trivial) items (fun _ _ => trivial) processor

/-- Replacing the queue of `BLPOP`s by one that is sound. -/
theorem proceeds_setPops {pops : List PendingListPop}
    (hpops : ∀ pending ∈ pops, regime.Ordered pending.task ∧ pending.Waiting host)
    (processor : Processor) :
    Proceeds host regime processor { processor with pendingListPops := pops } :=
  fun hholds => ⟨⟨hholds.queued, hpops, hholds.reads, hholds.waits⟩, [], .quiet rfl rfl rfl rfl rfl rfl⟩

theorem proceeds_setReads {reads : List PendingStreamRead}
    (hreads : ∀ pending ∈ reads, nameOf pending.task.command = some .xread)
    (processor : Processor) :
    Proceeds host regime processor { processor with pendingStreamReads := reads } :=
  fun hholds => ⟨⟨hholds.queued, hholds.pops, hreads, hholds.waits⟩, [], .quiet rfl rfl rfl rfl rfl rfl⟩

theorem proceeds_setWaits {waits : List PendingWait}
    (hwaits : ∀ pending ∈ waits, nameOf pending.task.command = some .wait)
    (processor : Processor) :
    Proceeds host regime processor { processor with pendingWaits := waits } :=
  fun hholds => ⟨⟨hholds.queued, hholds.pops, hholds.reads, hwaits⟩, [],
    .quiet rfl rfl rfl rfl rfl rfl⟩

/-- The blocked commands of a client. -/
def blockedTasks (clientId : ClientId) (processor : Processor) : List Task :=
  (processor.pendingListPops.map PendingListPop.task ++
    processor.pendingStreamReads.map PendingStreamRead.task ++
    processor.pendingWaits.map PendingWait.task).filter fun task => task.clientId = clientId

/-- The replies that send blocked commands away with one response. -/
def dismissals {Pending : Type} (taskOf : Pending → Task) (response : Response)
    (items : List Pending) : List Reply :=
  items.map fun pending => ⟨taskOf pending, [], response⟩

/-- A pass that sends some of the blocked commands away with one response. -/
theorem scan_dismiss {Input Pending : Type} {taskOf : Pending → Task} {due : Pending → Bool}
    {response : Response} {visit : Input → Pending → Processor → Option Pending × Processor}
    (hvisit : ∀ input pending processor, visit input pending processor =
      if due pending then (none, processor.fulfil (taskOf pending) [] response)
      else (some pending, processor))
    (inputs : Stream' Input) (items : List Pending) (processor : Processor) :
    Scan.scan visit inputs items processor =
      (items.filter (!due ·), { processor with
        replies := processor.replies ++ dismissals taskOf response (items.filter due) }) := by
  induction items generalizing inputs processor with
  | nil => simp [Scan.scan_nil, dismissals]
  | cons item rest ih =>
    rw [Scan.scan_cons, hvisit]
    cases hdue : due item with
    | true => simp [ih, hdue, fulfil, dismissals]
    | false => simp [ih, hdue]

theorem cancelAll_eq {Pending : Type} (taskOf : Pending → Task) (clientId : ClientId)
    (items : List Pending) (processor : Processor) :
    cancelAll taskOf clientId items processor =
      (items.filter fun pending => !decide ((taskOf pending).clientId = clientId),
        { processor with
          replies := processor.replies ++ dismissals taskOf .noResponse
            (items.filter fun pending => decide ((taskOf pending).clientId = clientId)) }) := by
  refine scan_dismiss (fun input pending processor => ?_) _ items processor
  by_cases hclient : (taskOf pending).clientId = clientId <;> simp [cancelIn, hclient]

/-- The commands of a client leave the three queues with nothing in their hands. -/
theorem cancelPendingCommands_eq (clientId : ClientId) (processor : Processor) :
    processor.cancelPendingCommands clientId =
      { processor with
        pendingListPops := processor.pendingListPops.filter
          fun pending => !decide (pending.task.clientId = clientId)
        pendingStreamReads := processor.pendingStreamReads.filter
          fun pending => !decide (pending.task.clientId = clientId)
        pendingWaits := processor.pendingWaits.filter
          fun pending => !decide (pending.task.clientId = clientId)
        replies := processor.replies ++ (processor.blockedTasks clientId).map
          fun task => ⟨task, [], .noResponse⟩ } := by
  simp only [cancelPendingCommands, cancelAll_eq, dismissals, blockedTasks, List.filter_append,
    List.map_append, List.filter_map, List.map_map, List.append_assoc, Function.comp_def]

theorem proceeds_cancelAll {Pending : Type} (taskOf : Pending → Task) (clientId : ClientId)
    (items : List Pending) (processor : Processor) :
    Proceeds host regime processor (cancelAll taskOf clientId items processor).2 := by
  refine proceeds_scan_of_visit (fun input pending processor => ?_) _ _ _
  unfold cancelIn
  split
  · exact .refl _
  · exact .fulfil _ (.inr rfl)

theorem proceeds_cancelPendingCommands (clientId : ClientId) (processor : Processor) :
    Proceeds host regime processor (processor.cancelPendingCommands clientId) := by
  intro hholds
  -- The three queues are gone through one after the other.
  let first := cancelAll PendingListPop.task clientId processor.pendingListPops processor
  let second := cancelAll PendingStreamRead.task clientId first.2.pendingStreamReads first.2
  let third := cancelAll PendingWait.task clientId second.2.pendingWaits second.2
  have hfirst : Proceeds host regime processor first.2 := proceeds_cancelAll _ _ _ _
  have hsecond : Proceeds host regime first.2 second.2 := proceeds_cancelAll _ _ _ _
  have hthird : Proceeds host regime second.2 third.2 := proceeds_cancelAll _ _ _ _
  have hsound : (processor.cancelPendingCommands clientId).Holds host regime := by
    rw [cancelPendingCommands_eq]
    exact ⟨hholds.queued, fun pending h => hholds.pops pending (List.mem_of_mem_filter h),
      fun pending h => hholds.reads pending (List.mem_of_mem_filter h),
      fun pending h => hholds.waits pending (List.mem_of_mem_filter h)⟩
  exact (hfirst.trans (hsecond.trans (hthird.trans ((proceeds_setPops hsound.pops _).trans
    ((proceeds_setReads hsound.reads _).trans (proceeds_setWaits hsound.waits _)))))) hholds

theorem proceeds_processClientUnregistration (clientId : ClientId) (processor : Processor) :
    Proceeds host regime processor (processor.processClientUnregistration clientId) := by
  refine (proceeds_cancelPendingCommands clientId processor).trans fun hholds => ?_
  refine ⟨(hholds.erase clientId).congr rfl rfl rfl rfl, [], .looked (.done _) rfl rfl rfl rfl ?_⟩
  exact .of_eq rfl rfl rfl rfl rfl

theorem proceeds_retryListPop {input : Clock × Disk} (htimely : regime.Timely input.1)
    (hsafe : regime.Safe input.2) {pending : PendingListPop}
    (hpending : regime.Ordered pending.task ∧ pending.Waiting host) (processor : Processor) :
    Proceeds host regime processor (retryListPop input pending processor).2 := by
  obtain ⟨hordered, hname, timeout, hparse⟩ := hpending
  obtain ⟨waiting, after, hattempt, hretry⟩ := retryListPop_cases input pending processor
  rw [hretry]
  exact proceeds_popAttempt htimely hsafe hordered hname hparse hattempt

theorem ReadRetry.proceeds {clock : Clock} (htimely : regime.Timely clock)
    {pending : PendingStreamRead} (hname : nameOf pending.task.command = some .xread)
    {outcome : Option PendingStreamRead × Processor}
    (h : ReadRetry clock pending processor outcome) : Proceeds host regime processor outcome.2 := by
  have hlocal : Local host pending.task.command := local_of_name hname rfl (by decide)
  cases h with
  | failed hread | found hread =>
    exact (proceeds_looked htimely (purges_of_read hread)).trans (.fulfil _ (.inl hlocal))
  | kept hread => exact proceeds_looked htimely (purges_of_read hread)

theorem proceeds_retryPendingListPops {inputs : Stream' (Clock × Disk)}
    (hinputs : ∀ n, regime.Timely (inputs.get n).1 ∧ regime.Safe (inputs.get n).2)
    (processor : Processor) :
    Proceeds host regime processor (processor.retryPendingListPops inputs) := by
  intro hholds
  have hscan : Proceeds host regime processor (Scan.scan retryListPop inputs
      processor.pendingListPops processor).2 :=
    proceeds_scan
      (fun input pending state (hinput : regime.Timely input.1 ∧ regime.Safe input.2) hpending =>
        proceeds_retryListPop hinput.1 hinput.2 hpending state) inputs hinputs _ hholds.pops _
  have hpops : ∀ pending ∈ (Scan.scan retryListPop inputs processor.pendingListPops processor).1,
      regime.Ordered pending.task ∧ pending.Waiting host :=
    Scan.mem_scan (fun _ _ _ _ hpending hkept => retryListPop_kept hkept ▸ hpending) _ _ _
      hholds.pops
  exact (hscan.trans (proceeds_setPops hpops _)) hholds

theorem proceeds_retryPendingStreamReads {clocks : Stream' Clock}
    (hclocks : ∀ n, regime.Timely (clocks.get n)) (processor : Processor) :
    Proceeds host regime processor (processor.retryPendingStreamReads clocks) := by
  intro hholds
  have hscan : Proceeds host regime processor (Scan.scan retryStreamRead clocks
      processor.pendingStreamReads processor).2 :=
    proceeds_scan (fun clock pending state hclock hname =>
      (retryStreamRead_cases clock pending state).proceeds hclock hname) clocks hclocks _ hholds.reads _
  have hreads : ∀ pending ∈ (Scan.scan retryStreamRead clocks processor.pendingStreamReads
      processor).1, nameOf pending.task.command = some .xread :=
    Scan.mem_scan (fun clock pending state kept hpending hkept => by
      rwa [((retryStreamRead_cases clock pending state).kept_eq hkept).1]) _ _ _ hholds.reads
  exact (hscan.trans (proceeds_setReads hreads _)) hholds

section Waits

variable {Due : PendingWait → ℕ → Prop} {pending : PendingWait}

theorem WaitVisit.proceeds {outcome : Option PendingWait × Processor}
    (h : WaitVisit Due pending processor outcome) : Proceeds host regime processor outcome.2 := by
  have hcount : Proceeds host regime processor { processor with
      replication := (processor.replication.countAcknowledgedReplicas pending.targetOffset).2 } :=
    proceeds_replication (.countAcknowledgedReplicas pending.targetOffset _)
  cases h with
  | kept => exact .refl _
  | counted => exact hcount
  | answered _ => exact hcount.trans (.fulfil _ (.inr rfl))

variable {visit : Unit → PendingWait → Processor → Option PendingWait × Processor}
  (hvisit : ∀ input pending processor,
    WaitVisit Due pending processor (visit input pending processor))

include hvisit

theorem scan_waits_sublist (inputs : Stream' Unit) (items : List PendingWait)
    (processor : Processor) : (Scan.scan visit inputs items processor).1.Sublist items :=
  Scan.scan_sublist (fun input pending processor _ => (hvisit input pending processor).kept_eq)
    inputs items processor

theorem proceeds_waits (inputs : Stream' Unit) (processor : Processor) :
    Proceeds host regime processor
      { (Scan.scan visit inputs processor.pendingWaits processor).2 with
        pendingWaits := (Scan.scan visit inputs processor.pendingWaits processor).1 } := by
  intro hholds
  have hscan := @proceeds_scan_of_visit host regime _ _ _
    (fun input pending processor => (hvisit input pending processor).proceeds) inputs
    processor.pendingWaits processor
  exact (hscan.trans (proceeds_setWaits (fun pending hpending => hholds.waits pending
    ((scan_waits_sublist hvisit _ _ _).subset hpending)) _)) hholds

end Waits

section Expiry

variable {Pending : Type} (taskOf : Pending → Task) (deadlineOf : Pending → Option Int) (now : Int)

theorem proceeds_expireIn (input : Unit) (pending : Pending) (processor : Processor) :
    Proceeds host regime processor
      (expireIn taskOf deadlineOf now input pending processor).2 := by
  unfold expireIn
  split
  · exact .fulfil _ (.inr rfl)
  · exact .refl _

variable {taskOf deadlineOf now}

/-- What stays in the queue is as it was, and has time left. -/
theorem expireIn_kept {pending kept : Pending}
    (h : (expireIn taskOf deadlineOf now input pending processor).1 = some kept) :
    kept = pending ∧ isOver now (deadlineOf pending) = false := by
  unfold expireIn at h
  split at h
  · cases h
  · rename_i hover
    cases h
    exact ⟨rfl, by simpa using hover⟩

theorem scan_expireIn (items : List Pending) (processor : Processor) :
    Scan.scan (expireIn taskOf deadlineOf now) (Stream'.const ()) items processor =
      (items.filter fun pending => !isOver now (deadlineOf pending), { processor with
        replies := processor.replies ++ dismissals taskOf .nullArray
          (items.filter fun pending => isOver now (deadlineOf pending)) }) :=
  scan_dismiss (fun _ _ _ => rfl) _ items processor

theorem mem_of_expireIn {items : List Pending} :
    ∀ item ∈ (Scan.scan (expireIn taskOf deadlineOf now) (Stream'.const ()) items processor).1,
      item ∈ items := by
  rw [scan_expireIn]
  exact fun _ => List.mem_of_mem_filter

end Expiry

theorem proceeds_expirePendingListPops (now : Int) (processor : Processor) :
    Proceeds host regime processor (processor.expirePendingListPops now) := fun hholds =>
  ((proceeds_scan_of_visit (proceeds_expireIn _ _ now) _ _ processor).trans
    (proceeds_setPops (fun pending hpending => hholds.pops pending (mem_of_expireIn pending hpending))
      _)) hholds

theorem proceeds_expirePendingStreamReads (now : Int) (processor : Processor) :
    Proceeds host regime processor (processor.expirePendingStreamReads now) := fun hholds =>
  ((proceeds_scan_of_visit (proceeds_expireIn _ _ now) _ _ processor).trans
    (proceeds_setReads
      (fun pending hpending => hholds.reads pending (mem_of_expireIn pending hpending)) _)) hholds

end Processor

/-! ## Runs -/

section Runs

variable {host : Host} {regime : Regime}

open Processor

theorem proceeds_external {event : External} (hwithin : event.Within regime)
    (processor : Processor) : Proceeds host regime processor (event.perform processor) := by
  cases event with
  | createSession session =>
    simp only [External.perform]
    split
    · exact .refl _
    · exact proceeds_connections _ _
  | popFrame session =>
    simp only [External.perform]
    split
    · exact .refl _
    · exact proceeds_connections _ _
  | dropSession session => exact proceeds_connections _ _
  | sendFrame session =>
    exact proceeds_replication (.updateSession _ _
      (fun _ session => ⟨closed_sendFrame session, frames_sendFrame session⟩) _)
  | closeReplica session =>
    exact proceeds_replication (.updateSession _ _ (fun hkept => (hwithin hkept).elim) _)
  | dropReplica session => exact proceeds_replication (.dropSession hwithin _)

theorem proceeds_task {env : Env} (htimely : env.OnTime regime.Timely)
    (hsafe : regime.Safe env.disk) {task : ProcessorTask} (hwithin : task.Within regime)
    (h : task.perform host env before = some after) : Proceeds host regime before after := by
  cases task with
  | command clientId words source replicationBytes =>
    have hpromise : Proceeds host regime before
        { before with nextPromise := before.nextPromise + 1 } :=
      .of_chronicle (.quiet rfl rfl rfl rfl rfl rfl) rfl rfl rfl rfl
    exact hpromise.trans (proceeds_processTask htimely hsafe (hwithin _) h)
  | registerReplica clientId =>
    cases h
    exact proceeds_replication (.registerReplica clientId _)
  | installReplicationState replicationId offset =>
    cases h
    exact proceeds_replication (.of_eq rfl rfl rfl rfl rfl)
  | getReplicationOffset =>
    cases h
    exact .refl _
  | acknowledgeReplica clientId offset =>
    cases h
    exact proceeds_replication (.acknowledgeReplica clientId offset _)
  | loadRdb entries =>
    cases h
    have hhistory : History host regime.Timely before.database _
        (loadEntries env.clock.head.system entries env.clock.tail before.database) :=
      history_loadEntries _ entries _ (fun n => htimely.command.clock (n + 1)) _
    exact .of_chronicle (.recovered hwithin rfl hhistory rfl rfl) rfl rfl rfl rfl
  | initializeAof file commands =>
    obtain ⟨⟨result, after'⟩, hinit, rfl⟩ := Option.map_eq_some_iff.mp h
    exact proceeds_processAofInitialization htimely.replay hwithin.1 hwithin.2 hinit
  | registerClient clientId session =>
    cases h
    exact proceeds_connections _ _
  | unregisterClient clientId =>
    cases h
    exact proceeds_processClientUnregistration clientId _

/-- **Every phase proceeds by deeds.** -/
theorem proceeds_perform {phase : Phase} (hwithin : phase.Within regime)
    (h : phase.perform host before = some after) : Proceeds host regime before after := by
  cases phase with
  | task env work => exact proceeds_task hwithin.1 hwithin.2.1 hwithin.2.2 h
  | retryListPops inputs =>
    cases h
    exact proceeds_retryPendingListPops hwithin _
  | retryStreamReads clocks =>
    cases h
    exact proceeds_retryPendingStreamReads hwithin _
  | retryWaits =>
    cases h
    exact proceeds_waits waitVisit_retryWait _ _
  | expireListPops now =>
    cases h
    exact proceeds_expirePendingListPops now _
  | expireStreamReads now =>
    cases h
    exact proceeds_expirePendingStreamReads now _
  | expireWaits now =>
    cases h
    exact proceeds_waits (waitVisit_expireWait now) _ _
  | external event =>
    cases h
    exact proceeds_external hwithin _

/-- The state of a processor that was just constructed. -/
def Processor.start (role : ReplicationRole) (replicationId : Bytes) (defaultUser : User)
    (rdbConfig : RdbConfig) (aofConfig : AofConfig) : Processor :=
  { defaultUser, rdbConfig, aofConfig, replication := { role, replicationId } }

theorem holds_start (role : ReplicationRole) (replicationId : Bytes) (defaultUser : User)
    (rdbConfig : RdbConfig) (aofConfig : AofConfig) :
    (Processor.start role replicationId defaultUser rdbConfig aofConfig).Holds host regime :=
  ⟨by simp [Processor.start], by simp [Processor.start], by simp [Processor.start],
    by simp [Processor.start]⟩

/-- The regime that assumes nothing. -/
def Regime.any : Regime :=
  ⟨fun _ => True, fun _ => True, fun _ => True, fun _ => False, True⟩

theorem within_any (phase : Phase) : phase.Within Regime.any := by
  have hcommand : ∀ env : CommandEnv, env.OnTime Regime.any.Timely :=
    fun env => ⟨fun _ => trivial, fun _ => trivial⟩
  cases phase with
  | task env work =>
    refine ⟨⟨hcommand _, fun n => hcommand _⟩, trivial, ?_⟩
    cases work with
    | command clientId words source replicationBytes => exact fun _ => trivial
    | initializeAof file commands =>
      exact ⟨trivial, fun words _ => ⟨⟨0, 0, words, .aof, 0⟩, trivial, rfl⟩⟩
    | _ => exact trivial
  | retryListPops inputs => exact fun n => ⟨trivial, trivial⟩
  | retryStreamReads clocks => exact fun n => trivial
  | external event => cases event <;> first | exact trivial | exact not_false
  | _ => exact trivial

/-- **Every run has a chronicle.** -/
theorem proceeds_run {phases : List Phase} (hwithin : ∀ phase ∈ phases, phase.Within regime)
    {start final : Processor} (h : runPhases host phases start = some final) :
    Proceeds host regime start final := by
  have hrun := Runs.run_relation Proceeds.refl (fun _ _ _ h₁ h₂ => h₁.trans h₂)
    (fun _ _ _ hphase (_ : True) hstep => ⟨trivial, proceeds_perform hphase hstep⟩) hwithin
    trivial h
  exact hrun.2

end Runs

end RedisServer
