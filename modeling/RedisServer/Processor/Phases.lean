import RedisServer.Processor.Chronicle
import RedisServer.Processor.Outcomes

/-!
# The phases, one by one

Every function of the processor that a phase can call proceeds by deeds.
-/

namespace RedisServer

open Resp KeyedStore Commands Aof Replication

variable {processor after before : Processor} {task : Task} {env : Env} {key : Bytes}
  {timeout : Option Int} {clock : Clock} {disk : Disk} {response : Response}

/-! ## Lists and streams -/

section Operations

variable {host : Host} {clock : Clock} {command : Command} {key : Bytes} {timeout : Option Int}
  {before after : Database}

/-- A pop that fails has only looked. -/
theorem purges_of_failed_pop {error : Database.Error}
    (hpop : Database.popListElement clock key before = (.error error, after)) :
    Purges (Entry.expired clock) before after := by
  rw [Database.popListElement_eq] at hpop
  unfold transact at hpop
  rcases hlive : live (Entry.expired clock) key before with _ | ⟨_ | (_ | ⟨front, elements⟩) | _, _⟩ <;>
    simp only [hlive, Database.OnEntry.popListElement, Update.apply] at hpop <;> cases hpop <;>
    exact purges_purge _ _ _

theorem purges_of_read {result : Except Database.Error (List ReadResult)}
    {requests later : List ReadRequest}
    (hread : Database.readStreams clock requests before = (result, later, after)) :
    Purges (Entry.expired clock) before after := by
  obtain ⟨looked, hspec, hpurges, -⟩ := Database.readStreams_spec clock requests before
  cases hspec.symm.trans hread
  exact hpurges

end Operations

/-- `BLPOP` is propagated as the `LPOP` of its key. -/
theorem normalize_blpop {host : Host} {command : Command} (hname : nameOf command = some .blpop)
    (hparse : parseBlpop host command = .ok ⟨key, timeout⟩) (response : Response) :
    normalizeReplicationCommand command response = [CommandName.lpop.text, key] := by
  unfold normalizeReplicationCommand
  rw [hname, if_neg (by decide), if_pos rfl]
  match command, hparse with
  | [_, key, text], hparse =>
    simp only [parseBlpop] at hparse
    cases hblocking : host.blockingTimeout text with
    | none =>
      rw [hblocking] at hparse
      cases hparse
    | some timeout =>
      rw [hblocking] at hparse
      cases hparse
      rfl

namespace Processor

variable {host : Host} {regime : Regime}

/-! ## Steps without deeds -/

/-- The database was looked at. -/
theorem proceeds_looked (htimely : regime.Timely clock) {database : Database}
    (hpurges : Purges (Entry.expired clock) processor.database database) :
    Proceeds host regime processor { processor with database } :=
  .of_chronicle (.looked (.looked htimely hpurges (.done _)) rfl rfl rfl rfl (.refl _)) rfl rfl rfl rfl

/-- The replication state changed, and no frame was sent. -/
theorem proceeds_replication {replication : Replication}
    (hstreams : Streams regime.Kept [] processor.replication replication) :
    Proceeds host regime processor { processor with replication } :=
  .of_chronicle (.looked (.done _) rfl rfl rfl rfl hstreams) rfl rfl rfl rfl

theorem proceeds_connections (processor : Processor) (connections : Connections) :
    Proceeds host regime processor { processor with connections } :=
  .of_chronicle (.quiet rfl rfl rfl rfl rfl rfl) rfl rfl rfl rfl

/-! ## Blocking commands -/

/-- One element is popped for a `BLPOP`, and the promise is fulfilled. -/
theorem proceeds_pop (htimely : regime.Timely clock) (hsafe : regime.Safe disk)
    (hordered : regime.Ordered task) (hname : nameOf task.command = some .blpop)
    (hparse : parseBlpop host task.command = .ok ⟨key, timeout⟩) {value : Bytes}
    {database : Database}
    (hpop : Database.popListElement clock key processor.database = (.ok value, database))
    {result : Except Bytes Unit} (hpersist : { processor with
        database
        events := processor.events ++
          [Event.executed task.command (.array [key, value])] }.persistBlockingPop disk task key =
      (result, after)) :
    Proceeds host regime processor
      (after.fulfil task [] (settled (.array [key, value]) result)) := by
  have hchange : Change host clock task.command (.array [key, value]) processor.database
      database := by
    apply dispatch_cases
    rw [dispatch, if_neg (ne_nil_of_nameOf hname), findCommandDefinition, hname]
    simp [commandHandlers, blpop, hparse, hpop]
  have heffective : effective host task.command (.array [key, value]) = true :=
    (effective_blpop hname _).mpr ⟨_, _, rfl⟩
  have hpayload : Deed.payload host (.ran task (.array [key, value]) result) =
      some (serializeCommand [CommandName.lpop.text, key]) := by
    simp [Deed.payload, heffective, normalize_blpop hname hparse]
  have hpropagates : Propagates regime _ _ _ _ _ := Propagates.fromSource hsafe hpersist
  obtain ⟨file, replication, rfl⟩ := hpropagates.frame
  refine .of_chronicle (.ran htimely hordered (by simp [hname]) hchange
    (fun _ => by simp [hpayload]) ?_) rfl rfl rfl rfl
  simpa [Deed.log, Deed.frames, Deed.source, hpayload] using hpropagates

theorem proceeds_popAttempt (htimely : regime.Timely clock) (hsafe : regime.Safe disk)
    (hordered : regime.Ordered task) (hname : nameOf task.command = some .blpop)
    (hparse : parseBlpop host task.command = .ok ⟨key, timeout⟩) {waiting : Bool}
    (h : PopAttempt clock disk task key before waiting after) :
    Proceeds host regime before after := by
  cases h with
  | served hpop hpersist => exact proceeds_pop htimely hsafe hordered hname hparse hpop hpersist
  | wrongType hpop =>
    exact (proceeds_looked htimely (purges_of_failed_pop hpop)).trans (.fulfil _ (.inr rfl))
  | waits hpop _ => exact proceeds_looked htimely (purges_of_failed_pop hpop)

theorem BlpopOutcome.proceeds (h : BlpopOutcome host env task before after)
    (htimely : env.OnTime regime.Timely) (hsafe : regime.Safe env.disk)
    (hordered : regime.Ordered task) (hname : nameOf task.command = some .blpop) :
    Proceeds host regime before after := by
  cases h with
  | refused _ => exact .fulfil _ (.inr rfl)
  | answered hparse hattempt =>
    exact proceeds_popAttempt (htimely.command.clock 0) hsafe hordered hname hparse hattempt
  | waits hparse hattempt =>
    refine (proceeds_popAttempt (htimely.command.clock 0) hsafe hordered hname hparse
      hattempt).trans fun hholds =>
        ⟨⟨hholds.queued, ?_, hholds.reads, hholds.waits⟩, [], .quiet rfl rfl rfl rfl rfl rfl⟩
    intro pending hpending
    rcases List.mem_append.mp hpending with hpending | hpending
    · exact hholds.pops pending hpending
    · obtain rfl := List.mem_singleton.mp hpending
      exact ⟨hordered, hname, _, hparse⟩

theorem XreadOutcome.proceeds (h : XreadOutcome env task before after)
    (htimely : env.OnTime regime.Timely) (hname : nameOf task.command = some .xread) :
    Proceeds host regime before after := by
  have hlocal : Local host task.command := local_of_name hname rfl (by decide)
  have hclock := htimely.command.clock 0
  cases h with
  | refused _ => exact .fulfil _ (.inl hlocal)
  | failed _ hread | found _ hread | nothing _ hread =>
    exact (proceeds_looked hclock (purges_of_read hread)).trans (.fulfil _ (.inl hlocal))
  | waits _ hread _ =>
    refine (proceeds_looked hclock (purges_of_read hread)).trans fun hholds =>
      ⟨⟨hholds.queued, hholds.pops, ?_, hholds.waits⟩, [], .quiet rfl rfl rfl rfl rfl rfl⟩
    intro pending hpending
    rcases List.mem_append.mp hpending with hpending | hpending
    · exact hholds.reads pending hpending
    · obtain rfl := List.mem_singleton.mp hpending
      exact hname

theorem WaitOutcome.proceeds (h : WaitOutcome env task before after)
    (hname : nameOf task.command = some .wait) : Proceeds host regime before after := by
  have hlocal : Local host task.command := local_of_name hname rfl (by decide)
  have hcount : Streams regime.Kept [] before.replication
      (before.replication.countAcknowledgedReplicas
        (writeOffset task.clientId before.replication)).2 := .countAcknowledgedReplicas _ _
  cases h with
  | refused _ => exact .fulfil _ (.inl hlocal)
  | answered _ _ _ => exact (proceeds_replication hcount).trans (.fulfil _ (.inl hlocal))
  | waits _ _ _ =>
    -- The request for acknowledgements goes to the replicas only.
    have hstreams := hcount.trans
      (.appendReplicationFrame (serializeCommand getAckCommand) _)
    intro hholds
    refine ⟨⟨hholds.queued, hholds.pops, hholds.reads, ?_⟩, _, .askedForOffsets hstreams⟩
    intro pending hpending
    rcases List.mem_append.mp hpending with hpending | hpending
    · exact hholds.waits pending hpending
    · obtain rfl := List.mem_singleton.mp hpending
      exact hname

/-! ## Direct commands -/

/-- The end of a task for which nothing ran. -/
theorem proceeds_finishTask (hempty : Local host task.command ∨ response.bare = true)
    (notification : Notification) (transaction : List Command) (succeeded : Bool)
    (processor : Processor) :
    Proceeds host regime processor
      (processor.finishTask notification task transaction succeeded response) := by
  have hend := finishTask_cases notification task transaction succeeded response processor
  generalize processor.finishTask notification task transaction succeeded response = after at hend ⊢
  cases hend with
  | @replied offset _ _ =>
    have hoffset : Streams regime.Kept [] processor.replication
        { processor.replication with offset } := .of_eq rfl rfl rfl rfl rfl
    exact (proceeds_replication hoffset).trans (.fulfil _ hempty)
  | published _ _ _ =>
    obtain ⟨reply, hnegative, hreply⟩ :=
      replyThroughPubsub_eq notification task.clientId response processor
    rw [hreply]
    exact (proceeds_connections processor _).trans
      (.fulfil _ (.inr (Response.bare_of_negative hnegative)))

/-- **A direct write is propagated exactly if it took effect.** -/
theorem propagates_propagateDirect (host : Host) (hsafe : regime.Safe disk) (task : Task)
    (response : Response) (processor : Processor) :
    ∃ result after,
      processor.propagateDirect disk task (isWriteCommand host task.command) response =
        (settled response result, after) ∧
      Propagates regime (Deed.log host (.ran task response result))
        (Deed.frames host processor.replication.role (.ran task response result)) result
        processor after ∧
      (result ≠ .ok () → (Deed.payload host (.ran task response result)).isSome) := by
  by_cases heffective : effective host task.command response = true
  · obtain ⟨hwrite, hmodified⟩ : isWriteCommand host task.command = true ∧
        writeModifiedDatabase task.command response = true := by
      simpa [effective] using heffective
    have hpayload : ∀ result, Deed.payload host (.ran task response result) =
        some (serializeCommand (normalizeReplicationCommand task.command response)) := by
      intro result
      simp [Deed.payload, heffective]
    simp only [propagateDirect, hwrite, hmodified, Bool.and_true, Deed.log, Deed.frames,
      Deed.source, hpayload, Option.getD_some, Option.toList_some]
    by_cases hheard : (processor.replicates task.source || processor.persists task.source) = true
    · rw [if_pos hheard]
      cases hpropagate : processor.propagate (processor.persists task.source)
        (processor.replicates task.source) disk task.clientId
        (serializeCommand (normalizeReplicationCommand task.command response)) with
      | mk result after =>
        refine ⟨result, after, ?_, Propagates.fromSource hsafe hpropagate, fun _ => rfl⟩
        cases result <;> rfl
    · rw [if_neg hheard]
      obtain ⟨hreplicates, hpersists⟩ : processor.replicates task.source = false ∧
          processor.persists task.source = false := by simpa using hheard
      exact ⟨.ok (), processor, rfl, .unneeded processor hpersists hreplicates _, fun _ => rfl⟩
  · -- No write, or one without effect: nobody hears of it.
    refine ⟨.ok (), processor, ?_, ?_, fun hfailed => absurd rfl hfailed⟩
    · unfold propagateDirect
      rw [if_neg]
      · rfl
      · simp only [effective, Bool.and_eq_true, not_and, Bool.not_eq_true] at heffective
        intro hcondition
        obtain ⟨hheard, hmodified⟩ := Bool.and_eq_true_iff.mp hcondition
        have hwrite : isWriteCommand host task.command = true := by
          rcases Bool.or_eq_true_iff.mp hheard with h | h <;> simp_all
        rw [heffective hwrite] at hmodified
        cases hmodified
    · have hpayload : Deed.payload host (.ran task response (.ok ())) = none := by
        simp [Deed.payload, heffective]
      simpa [Deed.log, Deed.frames, hpayload] using Propagates.nothing processor

/-- What an `EXEC` that runs its commands does, up to its reply. -/
theorem chronicle_transacted (htimely : env.OnTime regime.Timely) (hsafe : regime.Safe env.disk)
    (hordered : regime.Ordered task) (hexec : nameOf task.command = some .exec)
    {commands : List Command} (hqueued : ∀ command ∈ commands, regime.Queueable command)
    {responses : List Response} {logged : List Command} {result : Except Bytes Unit}
    (before : Processor) {middle : Processor} (hexecute : before.executeCommands host
      (before.replicates task.source || before.persists task.source) commands env.clock =
        some (responses, logged, middle))
    (hpropagate : middle.propagateTransaction (before.persists task.source)
      (before.replicates task.source) env.disk task.clientId logged = (result, after))
    (offset : ℕ) :
    Chronicle host regime before [.transacted task commands responses result]
      ({ after with replication := { after.replication with offset } }.fulfil task commands
        (settled (.responseArray responses) result)) := by
  obtain ⟨database, hmiddle, hhistory, hlength, hlogged⟩ :=
    executeCommands_spec htimely.command.clock hexecute
  suffices hpropagates : Propagates regime
      (Deed.log host (.transacted task commands responses result))
      (Deed.frames host before.replication.role (.transacted task commands responses result)) result
      middle after ∧
      (result ≠ .ok () →
        (Deed.payload host (.transacted task commands responses result)).isSome) by
    rw [hmiddle] at hpropagates
    exact .logged rfl rfl id hhistory
      (fun houtcome => ⟨hordered, hexec, hqueued, hlength, houtcome, hpropagates.2⟩)
      (hpropagates.1.offset offset)
  subst hmiddle
  simp only [Deed.log, Deed.frames, Deed.source, Deed.payload]
  generalize (List.zipWith Event.executed commands responses).flatMap (Event.writes host) =
    writes at hlogged
  by_cases hwrites : writes = []
  · -- No write took effect, so there is no payload.
    have hnone : logged = [] := by
      rw [hlogged, hwrites]
      split <;> rfl
    rw [propagateTransaction, if_pos hnone] at hpropagate
    cases hpropagate
    exact ⟨by simpa [hwrites] using Propagates.nothing _, fun hfailed => absurd rfl hfailed⟩
  · simp only [if_neg hwrites, Option.getD_some, Option.toList_some]
    by_cases hheard : (before.replicates task.source || before.persists task.source) = true
    · rw [if_pos hheard] at hlogged
      subst hlogged
      rw [propagateTransaction, if_neg hwrites] at hpropagate
      -- Running the commands has changed neither the log nor the role.
      exact ⟨Propagates.fromSource hsafe hpropagate, fun _ => rfl⟩
    · rw [if_neg hheard] at hlogged
      rw [propagateTransaction, if_pos hlogged] at hpropagate
      cases hpropagate
      obtain ⟨hreplicates, hpersists⟩ : before.replicates task.source = false ∧
          before.persists task.source = false := by simpa using hheard
      refine ⟨.unneeded { before with database, events := _ } hpersists hreplicates _, ?_⟩
      exact fun _ => rfl

/-- The `EXEC` of a task. -/
theorem proceeds_transacted (htimely : env.OnTime regime.Timely) (hsafe : regime.Safe env.disk)
    (hordered : regime.Ordered task) (hexec : nameOf task.command = some .exec)
    (hdirect : ¬ (task.source = .client ∧ before.connections.isSubscribed task.clientId = true))
    (h : ExecOutcome host env.toCommandEnv task.clientId task.source before response after)
    (succeeded : Bool) :
    Proceeds host regime before
      (after.finishTask env.replyNotification task (before.transactionOf task) succeeded
        response) := by
  -- Whether or not the commands run, the watched keys are looked at first.
  have hclose : ∀ changed database,
      watchedKeyChanged (before.watchedBy task.clientId) env.watchClock before.database =
        (changed, database) →
      Proceeds host regime before (before.closeTransaction task.clientId database) := by
    intro changed database hcheck hholds
    have hhistory : History host regime.Timely before.database [] _ :=
      history_watchedKeyChanged (before.watchedBy task.clientId) env.watchClock
        htimely.command.watchClock before.database
    rw [hcheck] at hhistory
    exact ⟨(hholds.erase task.clientId).congr rfl rfl rfl rfl, [],
      .looked hhistory rfl rfl rfl rfl (.refl _)⟩
  cases h with
  | withoutMulti _ => exact proceeds_finishTask (.inr rfl) _ _ _ _
  | aborted _ hcheck _ => exact (hclose _ _ hcheck).trans (proceeds_finishTask (.inr rfl) _ _ _ _)
  | conflicted _ hcheck _ =>
    exact (hclose _ _ hcheck).trans (proceeds_finishTask (.inr rfl) _ _ _ _)
  | empty _ hcheck _ _ => exact (hclose _ _ hcheck).trans (proceeds_finishTask (.inr rfl) _ _ _ _)
  | @ran transaction database responses logged middle after result htransaction hcheck _ _
      hexecute hpropagate =>
    intro hholds
    obtain ⟨hclosed, deeds, hdeeds⟩ := hclose _ _ hcheck hholds
    have hqueued := hholds.queued _ _ htransaction
    have htransactionOf : before.transactionOf task = transaction.commands := by
      simp [transactionOf, hexec, queued, htransaction]
    obtain ⟨final, hmiddle, -, -, -⟩ := executeCommands_spec htimely.command.clock hexecute
    obtain ⟨file, errors, replication, hafter⟩ := propagateTransaction_cases
      (before.persists task.source) (before.replicates task.source) env.disk task.clientId logged
      middle
    simp only [hpropagate] at hafter
    have hconnections : after.connections = before.connections := by
      rw [hafter, hmiddle]
      rfl
    have hdirect' : ¬ (task.source = .client ∧
        after.connections.isSubscribed task.clientId = true) := by rwa [hconnections]
    obtain ⟨offset, hfinish⟩ := finishTask_direct hdirect' env.replyNotification
      (before.transactionOf task) succeeded (settled (.responseArray responses) result)
    rw [hfinish, htransactionOf]
    have hran : Chronicle host regime (before.closeTransaction task.clientId database) _ _ :=
      chronicle_transacted htimely hsafe hordered hexec hqueued
        (before.closeTransaction task.clientId database) hexecute hpropagate offset
    refine ⟨hclosed.congr ?_ ?_ ?_ ?_, _, hdeeds.trans hran⟩
    all_goals
      rw [hafter, hmiddle]
      rfl

/-- A command that ran outside a transaction. -/
theorem proceeds_ran (htimely : env.OnTime regime.Timely) (hsafe : regime.Safe env.disk)
    (hordered : regime.Ordered task) (hexec : nameOf task.command ≠ some .exec) {middle : Processor}
    (hdirect : ¬ (task.source = .client ∧ before.connections.isSubscribed task.clientId = true))
    (hrun : before.runCommand host env.clock.head task.command = some (response, middle))
    (succeeded : Bool) :
    Proceeds host regime before
      ((middle.propagateDirect env.disk task (isWriteCommand host task.command) response).2.finishTask
        env.replyNotification task [] succeeded
        (middle.propagateDirect env.disk task (isWriteCommand host task.command) response).1) := by
  obtain ⟨⟨reply, database⟩, hdispatch, hmiddle⟩ := Option.map_eq_some_iff.mp hrun
  cases hmiddle
  obtain ⟨result, after, hpropagate, hpropagates, hfailed⟩ :=
    propagates_propagateDirect host hsafe task response
      { before with
        database, events := before.events ++ [Event.executed task.command response] }
  simp only [hpropagate]
  obtain ⟨file, replication, hafter⟩ := hpropagates.frame
  have hdirect' : ¬ (task.source = .client ∧
      after.connections.isSubscribed task.clientId = true) := by
    rw [hafter]
    exact hdirect
  obtain ⟨offset, hfinish⟩ := finishTask_direct hdirect' env.replyNotification [] succeeded
    (settled response result)
  rw [hfinish]
  refine .of_chronicle (.ran (htimely.command.clock 0) hordered hexec (dispatch_cases hdispatch)
    hfailed (hpropagates.offset offset)) ?_ ?_ ?_ ?_
  all_goals
    rw [hafter]
    rfl

theorem proceeds_direct (htimely : env.OnTime regime.Timely) (hsafe : regime.Safe env.disk)
    (hordered : regime.Ordered task) (hgate : ¬ before.Refuses task) {middle : Processor}
    (hcommand : before.processCommand host env.toCommandEnv task.clientId task.command
      task.source = some (response, middle)) :
    Proceeds host regime before
      ((middle.propagateDirect env.disk task
          (!before.hasTransaction task.clientId && isWriteCommand host task.command)
          response).2.finishTask env.replyNotification task (before.transactionOf task)
        (!responseIsError response)
        (middle.propagateDirect env.disk task
          (!before.hasTransaction task.clientId && isWriteCommand host task.command)
          response).1) := by
  have houtcome := processCommand_cases hcommand
  generalize hafter : (middle.propagateDirect env.disk task
    (!before.hasTransaction task.clientId && isWriteCommand host task.command)
    response).2.finishTask env.replyNotification task (before.transactionOf task)
      (!responseIsError response) (middle.propagateDirect env.disk task
        (!before.hasTransaction task.clientId && isWriteCommand host task.command)
        response).1 = after
  -- Outside a direct write, only the reply is left to do.
  have hrest : isWriteCommand host task.command = false ∨ before.hasTransaction task.clientId = true →
      middle.finishTask env.replyNotification task (before.transactionOf task)
        (!responseIsError response) response = after := by
    intro hread
    have hwrite : (!before.hasTransaction task.clientId && isWriteCommand host task.command) =
        false := by
      rcases hread with hread | hread <;> simp [hread]
    simpa only [hwrite, propagateDirect_read] using hafter
  have hlocal : Local host task.command → Proceeds host regime before middle →
      Proceeds host regime before after := by
    intro hlocal hmiddle
    rw [← hrest (.inl hlocal.1)]
    exact hmiddle.trans (proceeds_finishTask (.inl hlocal) _ _ _ _)
  clear hcommand
  cases houtcome with
  | answered hl => exact hlocal hl (.refl _)
  | connected connections hl => exact hlocal hl (proceeds_connections _ _)
  | changedUser user hl =>
    exact hlocal hl (.of_chronicle (.quiet rfl rfl rfl rfl rfl rfl) rfl rfl rfl rfl)
  | @watching keys watched database _ hl _ _ hwatch =>
    have hhistory : History host regime.Timely before.database [] (watchKeys keys env.watchClock
        ((before.watchedKeys.lookup task.clientId).getD ∅) before.database).2 :=
      history_watchKeys _ _ htimely.command.watchClock _ _
    rw [hwatch] at hhistory
    exact hlocal hl (.of_chronicle (.looked hhistory rfl rfl rfl rfl (.refl _)) rfl rfl rfl rfl)
  | unwatched _ hl =>
    exact hlocal hl (.of_chronicle (.quiet rfl rfl rfl rfl rfl rfl) rfl rfl rfl rfl)
  | opened _ hl _ =>
    exact hlocal hl fun hholds => ⟨hholds.insert (by simp), [], .quiet rfl rfl rfl rfl rfl rfl⟩
  | discarded _ hl _ =>
    exact hlocal hl fun hholds =>
      ⟨(hholds.erase task.clientId).congr rfl rfl rfl rfl, [], .quiet rfl rfl rfl rfl rfl rfl⟩
  | transacted hname houtcome =>
    have hread : isWriteCommand host task.command = false := isWriteCommand_of_name hname
    rw [← hrest (.inl hread)]
    refine proceeds_transacted htimely hsafe hordered hname ?_ houtcome _
    rintro ⟨hclient, hsubscribed⟩
    exact hgate ⟨hclient, .inr ⟨hsubscribed, by simp [allowedWhileSubscribed, hname]⟩⟩
  | @queued transaction _ htransaction =>
    rw [← hrest (.inr (by simp [hasTransaction, htransaction]))]
    refine Proceeds.trans ?_ (proceeds_finishTask (.inr rfl) _ _ _ _)
    intro hholds
    refine ⟨hholds.insert fun command hcommand => ?_, [], .quiet rfl rfl rfl rfl rfl rfl⟩
    rcases List.mem_append.mp hcommand with hcommand | hcommand
    · exact hholds.queued _ _ htransaction command hcommand
    · obtain rfl := List.mem_singleton.mp hcommand
      exact ⟨task, hordered, rfl⟩
  | ran hexec hallowed htransaction hrun =>
    have hwrite : (!before.hasTransaction task.clientId && isWriteCommand host task.command) =
        isWriteCommand host task.command := by simp [hasTransaction, htransaction]
    have hnone : before.transactionOf task = [] := by simp [transactionOf, hexec]
    simp only [hwrite, hnone] at hafter
    rw [← hafter]
    refine proceeds_ran htimely hsafe hordered hexec ?_ hrun _
    rintro ⟨hclient, hsubscribed⟩
    refine hgate ⟨hclient, .inr ⟨hsubscribed, Bool.eq_false_iff.mpr fun hpermitted => ?_⟩⟩
    rw [hallowed hpermitted] at hsubscribed
    cases hsubscribed

/-- **What one command task does.** -/
theorem proceeds_processTask (htimely : env.OnTime regime.Timely) (hsafe : regime.Safe env.disk)
    (hordered : regime.Ordered task) (h : before.processTask host env task = some after) :
    Proceeds host regime before after := by
  cases processTask_cases h with
  | refused connections _ hnegative _ =>
    exact (proceeds_connections before connections).trans
      (.fulfil _ (.inr (Response.bare_of_negative hnegative)))
  | rejected _ =>
    -- A refused write only marks the transaction it was meant for.
    unfold rejectReplicaWrite
    refine Proceeds.trans ?_ (.fulfil _ (.inr rfl))
    intro hholds
    cases htransaction : before.transactions.lookup task.clientId with
    | none => exact ⟨hholds.congr rfl rfl rfl rfl, [], .quiet rfl rfl rfl rfl rfl rfl⟩
    | some transaction =>
      have hqueued := hholds.queued _ _ htransaction
      exact ⟨hholds.insert hqueued, [], .quiet rfl rfl rfl rfl rfl rfl⟩
  | popped hname houtcome _ _ => exact houtcome.proceeds htimely hsafe hordered hname
  | read hname houtcome _ => exact houtcome.proceeds htimely hname
  | waited hname houtcome _ => exact houtcome.proceeds hname
  | direct hgate hcommand _ => exact proceeds_direct htimely hsafe hordered hgate hcommand

end Processor

end RedisServer
