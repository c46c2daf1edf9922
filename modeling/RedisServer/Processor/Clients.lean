import RedisServer.Processor.Worker

/-!
# What the processor keeps for a client

The transaction of a client and its watched keys change only through its own
commands and when it leaves.  `processTask_cases` says what a task can do, and
`sameClient_perform` that all other phases leave a client's share alone.
-/

namespace RedisServer

open Resp KeyedStore Commands Aof Replication

variable {processor before after : Processor} {task : Task} {env : Env} {commands : List Command}
  {result : Except Bytes Unit}

namespace Processor

variable {host : Host}

/-! ## What a task can do -/

/-! ## What the blocking commands do -/

/-- What a blocking command is answered without having popped anything. -/
inductive Verdict (host : Host) (task : Task) : Response → Prop
  | noPop {message : Bytes} (hparse : parseBlpop host task.command = .error message) :
      Verdict host task (.simpleError message)
  | noRead {message : Bytes} (hparse : parseXread task.command = .error message) :
      Verdict host task (.simpleError message)
  | noWait {message : Bytes} (hparse : parseWaitRequest task.command = .error message) :
      Verdict host task (.simpleError message)
  | replica :
      Verdict host task (.simpleError (ascii "ERR WAIT cannot be used with replica instances"))
  | unreadable (error : Database.Error) : Verdict host task (readStreamsError error)
  | entries (results : List ReadResult) : Verdict host task (makeXreadResponse results)
  | nothing : Verdict host task .nullArray
  | acknowledged (count : ℕ) : Verdict host task (.integer count)
  | gone : Verdict host task .noResponse

/-- **One act of a blocking command**, now or in a later pass.  It pops, if it is one of
these tasks, or looks at its streams, counts the replicas or asks them, is answered, or goes
into a queue or out of it. -/
inductive Attempt (host : Host) (Pops : Task → Prop) (before : Processor) : Processor → Prop
  | pop {clock : Clock} {disk : Disk} {task : Task} {key : Bytes} {waiting : Bool}
      {after : Processor} (hpops : Pops task)
      (hattempt : PopAttempt clock disk task key before waiting after) :
      Attempt host Pops before after
  | look (database : Database) : Attempt host Pops before { before with database }
  | count (targetOffset : ℕ) : Attempt host Pops before { before with
      replication := (before.replication.countAcknowledgedReplicas targetOffset).2 }
  | ask (hmaster : before.replication.role = .master) : Attempt host Pops before { before with
      replication := before.replication.appendReplicationFrame (serializeCommand getAckCommand) }
  | answer {task : Task} {response : Response} (hverdict : Verdict host task response) :
      Attempt host Pops before (before.fulfil task [] response)
  | queue (pops : List PendingListPop) (reads : List PendingStreamRead)
      (waits : List PendingWait) : Attempt host Pops before { before with
        pendingListPops := pops, pendingStreamReads := reads, pendingWaits := waits }

/-- One act after the other. -/
abbrev Attempts (host : Host) (Pops : Task → Prop) : Processor → Processor → Prop :=
  Relation.ReflTransGen (Attempt host Pops)

variable {Pops : Task → Prop}

/-- **The rule for blocking commands.**  What every act keeps, all of them keep. -/
theorem Attempts.relation (Rel : Processor → Processor → Prop) (hrefl : ∀ state, Rel state state)
    (htrans : ∀ first second third, Rel first second → Rel second third → Rel first third)
    (hattempt : ∀ first second, Attempt host Pops first second → Rel first second)
    (h : Attempts host Pops before after) : Rel before after := by
  induction h with
  | refl => exact hrefl before
  | tail _ hlast ih => exact htrans _ _ _ ih (hattempt _ _ hlast)

theorem BlpopOutcome.attempts (host : Host) (h : BlpopOutcome host env task before after) :
    Attempts host (· = task) before after := by
  cases h with
  | refused hparse => exact .single (.answer (.noPop hparse))
  | answered _ hattempt => exact .single (.pop rfl hattempt)
  | waits _ hattempt => exact .tail (.single (.pop rfl hattempt)) (.queue _ _ _)

theorem XreadOutcome.attempts (host : Host) (h : XreadOutcome env task before after) :
    Attempts host (· = task) before after := by
  cases h with
  | refused hparse => exact .single (.answer (.noRead hparse))
  | failed _ _ => exact .tail (.single (.look _)) (.answer (.unreadable _))
  | found _ _ => exact .tail (.single (.look _)) (.answer (.entries _))
  | nothing _ _ => exact .tail (.single (.look _)) (.answer .nothing)
  | waits _ _ _ => exact .tail (.single (.look _)) (.queue _ _ _)

theorem WaitOutcome.attempts (host : Host) (h : WaitOutcome env task before after) :
    Attempts host (· = task) before after := by
  have hcount : Attempts host (· = task) before _ :=
    .single (.count (writeOffset task.clientId before.replication))
  cases h with
  | refused hreason =>
    rcases hreason with ⟨-, rfl⟩ | hparse
    · exact .single (.answer .replica)
    · exact .single (.answer (.noWait hparse))
  | answered _ _ _ => exact hcount.tail (.answer (.acknowledged _))
  | waits _ hmaster _ => exact .tail (hcount.tail (.ask hmaster)) (.queue _ _ _)

/-- A pass acts for the commands it visits. -/
theorem attempts_scan {Input Pending : Type} {items : List Pending}
    {visit : Input → Pending → Processor → Option Pending × Processor}
    (hvisit : ∀ input processor, ∀ pending ∈ items,
      Attempts host Pops processor (visit input pending processor).2)
    (inputs : Stream' Input) (processor : Processor) :
    Attempts host Pops processor (Scan.scan visit inputs items processor).2 :=
  Scan.scan_relation (fun _ => .refl) (fun _ _ _ h₁ h₂ => h₁.trans h₂)
    (fun input pending state (_ : True) hpending => hvisit input state pending hpending) inputs
    (fun _ => trivial) items (fun _ hpending => hpending) processor

theorem ReadRetry.attempts {clock : Clock} {pending : PendingStreamRead}
    {outcome : Option PendingStreamRead × Processor}
    (h : ReadRetry clock pending processor outcome) : Attempts host Pops processor outcome.2 := by
  cases h with
  | failed _ => exact .tail (.single (.look _)) (.answer (.unreadable _))
  | found _ => exact .tail (.single (.look _)) (.answer (.entries _))
  | kept _ => exact .single (.look _)

theorem WaitVisit.attempts {Due : PendingWait → ℕ → Prop} {pending : PendingWait}
    {outcome : Option PendingWait × Processor} (h : WaitVisit Due pending processor outcome) :
    Attempts host Pops processor outcome.2 := by
  cases h with
  | kept => exact .refl
  | counted => exact .single (.count _)
  | answered _ => exact .tail (.single (.count _)) (.answer (.acknowledged _))

theorem attempts_expireIn {Pending : Type} (taskOf : Pending → Task)
    (deadlineOf : Pending → Option Int) (now : Int) (pending : Pending) (processor : Processor) :
    Attempts host Pops processor (expireIn taskOf deadlineOf now () pending processor).2 := by
  unfold expireIn
  split
  · exact .single (.answer .nothing)
  · exact .refl

/-- The commands of a client are cancelled one queue after the other. -/
theorem attempts_cancelPendingCommands (host : Host) (clientId : ClientId) (processor : Processor) :
    Attempts host (fun _ => False) processor (processor.cancelPendingCommands clientId) := by
  have hcancel : ∀ {Pending : Type} (taskOf : Pending → Task) (items : List Pending)
      (processor : Processor),
      Attempts host (fun _ => False) processor (cancelAll taskOf clientId items processor).2 := by
    refine fun taskOf items => attempts_scan (fun _ processor pending _ => ?_) _
    unfold cancelIn
    split
    · exact .refl
    · exact .single (.answer .gone)
  let first := cancelAll PendingListPop.task clientId processor.pendingListPops processor
  let second := cancelAll PendingStreamRead.task clientId first.2.pendingStreamReads first.2
  exact .tail (((hcancel _ _ processor).trans (hcancel _ _ first.2)).trans (hcancel _ _ second.2))
    (.queue _ _ _)

end Processor

open Processor

variable {host : Host} {phase : Phase}

/-- The tasks that a phase may pop for although they wait already. -/
def Phase.Pops (processor : Processor) : Phase → Task → Prop
  | .retryListPops _, task => ∃ pending ∈ processor.pendingListPops, pending.task = task
  | _, _ => False

/-- **A phase is a task, an external event, or a pass**, in which blocked commands act. -/
theorem perform_cases (h : phase.perform host before = some after) :
    (∃ env work, phase = .task env work ∧ work.perform host env before = some after) ∨
      (∃ event, phase = .external event ∧ after = event.perform before) ∨
      ((∀ env work, phase ≠ .task env work) ∧ (∀ event, phase ≠ .external event) ∧
        Attempts host (phase.Pops before) before after) := by
  cases phase with
  | task env work => exact .inl ⟨env, work, rfl, h⟩
  | external event =>
    cases h
    exact .inr (.inl ⟨event, rfl, rfl⟩)
  | retryListPops inputs =>
    cases h
    refine .inr (.inr ⟨by simp, by simp, .tail (attempts_scan ?_ _ _) (.queue _ _ _)⟩)
    intro input processor pending hpending
    obtain ⟨waiting, after, hattempt, hretry⟩ := retryListPop_cases input pending processor
    rw [hretry]
    exact .single (.pop ⟨pending, hpending, rfl⟩ hattempt)
  | retryStreamReads clocks =>
    cases h
    exact .inr (.inr ⟨by simp, by simp, .tail (attempts_scan (fun clock processor pending _ =>
      (retryStreamRead_cases clock pending processor).attempts) _ _) (.queue _ _ _)⟩)
  | retryWaits =>
    cases h
    exact .inr (.inr ⟨by simp, by simp, .tail (attempts_scan (fun _ processor pending _ =>
      (waitVisit_retryWait () pending processor).attempts) _ _) (.queue _ _ _)⟩)
  | expireListPops now =>
    cases h
    exact .inr (.inr ⟨by simp, by simp, .tail (attempts_scan (fun _ processor pending _ =>
      attempts_expireIn _ _ now pending processor) _ _) (.queue _ _ _)⟩)
  | expireStreamReads now =>
    cases h
    exact .inr (.inr ⟨by simp, by simp, .tail (attempts_scan (fun _ processor pending _ =>
      attempts_expireIn _ _ now pending processor) _ _) (.queue _ _ _)⟩)
  | expireWaits now =>
    cases h
    exact .inr (.inr ⟨by simp, by simp, .tail (attempts_scan (fun _ processor pending _ =>
      (waitVisit_expireWait now () pending processor).attempts) _ _) (.queue _ _ _)⟩)

/-- An external event is about the sessions and the replicas. -/
theorem external_perform_eq (event : External) (processor : Processor) :
    ∃ sessions replication, event.perform processor =
      { processor with
        connections := { processor.connections with sessions }
        replication } := by
  cases event with
  | createSession session =>
    simp only [External.perform]
    split <;> exact ⟨_, _, rfl⟩
  | popFrame session =>
    simp only [External.perform]
    split <;> exact ⟨_, _, rfl⟩
  | _ => exact ⟨_, _, rfl⟩

namespace Processor

/-! ## What the blocking commands leave alone -/

/-- The same connections, transactions, watched keys and user. -/
structure SameAccounts (before after : Processor) : Prop where
  connections : after.connections = before.connections
  transactions : after.transactions = before.transactions
  watchedKeys : after.watchedKeys = before.watchedKeys
  defaultUser : after.defaultUser = before.defaultUser

theorem Attempts.accounts (h : Attempts host Pops before after) : SameAccounts before after := by
  refine h.relation SameAccounts (fun _ => ⟨rfl, rfl, rfl, rfl⟩) (fun _ _ _ h₁ h₂ =>
    ⟨h₂.1.trans h₁.1, h₂.2.trans h₁.2, h₂.3.trans h₁.3, h₂.4.trans h₁.4⟩) ?_
  intro first second hattempt
  cases hattempt with
  | pop _ hpop =>
    cases hpop with
    | served _ hpersist =>
      obtain ⟨file, errors, replication, rfl⟩ := persistBlockingPop_cases _ hpersist
      exact ⟨rfl, rfl, rfl, rfl⟩
    | wrongType _ => exact ⟨rfl, rfl, rfl, rfl⟩
    | waits _ _ => exact ⟨rfl, rfl, rfl, rfl⟩
  | _ => exact ⟨rfl, rfl, rfl, rfl⟩

/-! ## Recovery -/

/-- **The rule for a replay.**  What every command of the log keeps, the replay keeps. -/
theorem replay_invariant (Inv : Processor → Prop)
    (hcommand : ∀ {env command response first second}, command ∈ commands → Inv first →
      first.processCommand host env aofClientId command .aof = some (response, second) →
      Inv second)
    {envs : Stream' CommandEnv} (hbefore : Inv before)
    (h : before.replayCommands host commands envs = some (result, after)) : Inv after := by
  induction commands generalizing envs before with
  | nil =>
    cases h
    exact hbefore
  | cons command rest ih =>
    obtain ⟨⟨response, middle⟩, hfirst, hrest⟩ := Option.bind_eq_some_iff.mp h
    have hmiddle := hcommand (by simp) hbefore hfirst
    cases response with
    | simpleError message =>
      cases hrest
      exact hmiddle
    | _ => exact ih (fun hmem => hcommand (.tail _ hmem)) hmiddle hrest

/-- A recovery replays the log, drops what the replay left behind and may set the file. -/
theorem processAofInitialization_cases {envs : Stream' CommandEnv} {file : AppendOnlyFile}
    (h : before.processAofInitialization host envs file commands = some (result, after)) :
    ∃ replayed middle log, before.replayCommands host commands envs = some (replayed, middle) ∧
      (log = middle.aofFile ∨ log = some file) ∧
      after = { middle.forgetReplay with aofFile := log } := by
  obtain ⟨⟨replayed, middle⟩, hreplay, hafter⟩ := Option.map_eq_some_iff.mp h
  cases replayed with
  | error message =>
    cases hafter
    exact ⟨_, middle, middle.aofFile, hreplay, .inl rfl, rfl⟩
  | ok _ =>
    simp only at hafter
    split at hafter
    · cases hafter
      exact ⟨_, middle, middle.aofFile, hreplay, .inl rfl, rfl⟩
    · cases hafter
      exact ⟨_, middle, some file, hreplay, .inr rfl, rfl⟩

/-! ## The share of one client -/

/-- The client has the same transaction and watches the same keys. -/
structure SameClient (clientId : ClientId) (before after : Processor) : Prop where
  transaction : after.transactions.lookup clientId = before.transactions.lookup clientId
  watched : after.watchedKeys.lookup clientId = before.watchedKeys.lookup clientId

namespace SameClient

variable {clientId : ClientId}

theorem refl (processor : Processor) : SameClient clientId processor processor := ⟨rfl, rfl⟩

theorem trans {first second third : Processor} (h₁ : SameClient clientId first second)
    (h₂ : SameClient clientId second third) : SameClient clientId first third :=
  ⟨h₂.transaction.trans h₁.transaction, h₂.watched.trans h₁.watched⟩

/-- Nobody's share has changed. -/
theorem of_eq (htransactions : after.transactions = before.transactions)
    (hwatched : after.watchedKeys = before.watchedKeys) : SameClient clientId before after :=
  ⟨by rw [htransactions], by rw [hwatched]⟩

end SameClient

theorem SameAccounts.sameClient (h : SameAccounts before after) (clientId : ClientId) :
    SameClient clientId before after :=
  .of_eq h.transactions h.watchedKeys

variable {clientId : ClientId}

/-- A command leaves the share of every other client alone. -/
theorem sameClient_command {env : CommandEnv} {other : ClientId} (hother : clientId ≠ other)
    {command : Command} {source : CommandSource} {response : Response}
    (h : CommandOutcome host env other command source before response after) :
    SameClient clientId before after := by
  cases h with
  | watching _ _ _ _ _ => exact ⟨rfl, AList.lookup_insert_ne hother⟩
  | unwatched _ _ => exact ⟨rfl, AList.lookup_erase_ne hother⟩
  | opened _ _ _ => exact ⟨AList.lookup_insert_ne hother, rfl⟩
  | discarded _ _ _ => exact ⟨AList.lookup_erase_ne hother, AList.lookup_erase_ne hother⟩
  | queued _ _ => exact ⟨AList.lookup_insert_ne hother, rfl⟩
  | ran _ _ _ hrun =>
    obtain ⟨⟨reply, database⟩, -, hafter⟩ := Option.map_eq_some_iff.mp hrun
    cases hafter
    exact .of_eq rfl rfl
  | transacted _ houtcome =>
    rcases execOutcome_frame houtcome with rfl | ⟨_, _, _, _, _, rfl⟩
    · exact .refl _
    · exact ⟨AList.lookup_erase_ne hother, AList.lookup_erase_ne hother⟩
  | _ => exact .of_eq rfl rfl

/-- What is left of a task after its command is nobody's share. -/
theorem sameClient_finish (disk : Disk) (notification : Notification) (task : Task)
    (writeCommand : Bool) (transaction : List Command) (succeeded : Bool) (response : Response)
    (processor : Processor) :
    SameClient clientId processor
      ((processor.propagateDirect disk task writeCommand response).2.finishTask notification task
        transaction succeeded (processor.propagateDirect disk task writeCommand response).1) := by
  obtain ⟨connections, file, errors, replication, reply, hfinish, -⟩ := finish_cases disk
    notification task writeCommand transaction succeeded response processor
  rw [hfinish]
  exact .of_eq rfl rfl

/-- A task leaves the share of every other client alone. -/
theorem sameClient_processTask (hother : clientId ≠ task.clientId)
    (h : before.processTask host env task = some after) : SameClient clientId before after := by
  cases processTask_cases h with
  | refused connections _ _ _ => exact .of_eq rfl rfl
  | rejected _ =>
    unfold rejectReplicaWrite
    cases before.transactions.lookup task.clientId with
    | none => exact .of_eq rfl rfl
    | some transaction => exact ⟨AList.lookup_insert_ne hother, rfl⟩
  | popped _ houtcome | read _ houtcome | waited _ houtcome =>
    exact (houtcome.attempts host).accounts.sameClient clientId
  | direct _ hcommand =>
    refine (sameClient_command hother (processCommand_cases hcommand)).trans ?_
    exact sameClient_finish _ _ _ _ _ _ _ _

/-! ## Other tasks -/

theorem sameClient_processAofInitialization (hother : clientId ≠ aofClientId)
    {envs : Stream' CommandEnv} {file : AppendOnlyFile}
    (h : before.processAofInitialization host envs file commands = some (result, after)) :
    SameClient clientId before after := by
  obtain ⟨replayed, middle, log, hreplay, -, rfl⟩ := processAofInitialization_cases h
  have hmiddle := replay_invariant (SameClient clientId before) (fun _ hfirst hcommand =>
    hfirst.trans (sameClient_command hother (processCommand_cases hcommand))) (.refl _) hreplay
  exact hmiddle.trans ⟨AList.lookup_erase_ne hother, AList.lookup_erase_ne hother⟩

end Processor

/-! ## Phases -/

/-- The phase is a command of this client, its departure, or the recovery that
acts in its name. -/
def Phase.By (clientId : ClientId) : Phase → Prop
  | .task _ (.command other _ _ _) => other = clientId
  | .task _ (.unregisterClient other) => other = clientId
  | .task _ (.initializeAof _ _) => clientId = aofClientId
  | _ => False

/-- **What a client has is changed by its own phases only.** -/
theorem sameClient_perform {host : Host} {clientId : ClientId} {phase : Phase}
    (hother : ¬ phase.By clientId) (h : phase.perform host before = some after) :
    SameClient clientId before after := by
  rcases perform_cases h with ⟨env, work, rfl, hwork⟩ | ⟨event, rfl, rfl⟩ | ⟨-, -, hattempts⟩
  · cases work with
    | command other words source replicationBytes =>
      have hfirst : SameClient clientId before
          { before with nextPromise := before.nextPromise + 1 } := .of_eq rfl rfl
      have hne : clientId ≠ other := fun heq => hother heq.symm
      exact hfirst.trans (sameClient_processTask hne hwork)
    | unregisterClient other =>
      cases hwork
      have hne : clientId ≠ other := fun heq => hother heq.symm
      have hcancel := (attempts_cancelPendingCommands host other before).accounts
      refine (hcancel.sameClient clientId).trans ?_
      exact ⟨AList.lookup_erase_ne hne, AList.lookup_erase_ne hne⟩
    | initializeAof file commands =>
      obtain ⟨⟨result, final⟩, hinit, rfl⟩ := Option.map_eq_some_iff.mp hwork
      exact sameClient_processAofInitialization hother hinit
    | _ =>
      cases hwork
      exact .of_eq rfl rfl
  · obtain ⟨sessions, replication, hevent⟩ := external_perform_eq event before
    rw [hevent]
    exact .of_eq rfl rfl
  · exact hattempts.accounts.sameClient clientId

end RedisServer
