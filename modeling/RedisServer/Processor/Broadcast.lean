import RedisServer.Processor.Clients
import RedisServer.Replication.Sessions

/-!
# What the phases of a master do to its replication state

A task or a pass sends frames and drops sessions that are gone; nothing else.
Registrations, acknowledgements and departures are tasks of their own, and the
threads of the sessions send, close and drop.  So the backlog and the sessions of
a master belong together in every state it reaches.
-/

namespace RedisServer

open Resp Commands Aof Replication RunningTotal

variable {before after processor : Processor} {task : Task} {clientId : ClientId}
  {result : Except Bytes Unit} {env : Env}

/-- The actions that any task or pass may take: only a master sends frames, and on
behalf of these clients. -/
def Replication.Action.Ordinary (Author : ClientId → Prop) (role : ReplicationRole) :
    Action → Prop
  | .write clientId _ => role = .master ∧ Author clientId
  | .ask _ => role = .master
  | .prune => True
  | _ => False

namespace Processor

/-- The replication state went through ordinary actions. -/
def Broadcasts (Author : ClientId → Prop) (before after : Processor) : Prop :=
  ∃ actions, Acts actions before.replication after.replication ∧
    ∀ action ∈ actions, action.Ordinary Author before.replication.role

variable {host : Host} {Author : ClientId → Prop}

namespace Broadcasts

theorem of_eq (h : after.replication = before.replication) : Broadcasts Author before after :=
  ⟨[], h ▸ .refl _, by simp⟩

theorem refl (processor : Processor) : Broadcasts Author processor processor := .of_eq rfl

theorem trans {first second third : Processor} (h₁ : Broadcasts Author first second)
    (h₂ : Broadcasts Author second third) : Broadcasts Author first third := by
  obtain ⟨actions, hacts, hordinary⟩ := h₁
  obtain ⟨actions', hacts', hordinary'⟩ := h₂
  rw [hacts.role] at hordinary'
  exact ⟨actions ++ actions', hacts.trans hacts', fun action haction =>
    (List.mem_append.mp haction).elim (hordinary action) (hordinary' action)⟩

theorem mono {Author' : ClientId → Prop} (hauthor : ∀ clientId, Author clientId → Author' clientId)
    (h : Broadcasts Author before after) : Broadcasts Author' before after := by
  obtain ⟨actions, hacts, hordinary⟩ := h
  refine ⟨actions, hacts, fun action haction => ?_⟩
  have hthis := hordinary action haction
  cases action with
  | write clientId payload => exact ⟨hthis.1, hauthor clientId hthis.2⟩
  | _ => exact hthis

theorem single (action : Action) (hfilled : action.Filled) {processor : Processor}
    (hordinary : action.Ordinary Author processor.replication.role) :
    Broadcasts Author processor
      { processor with replication := processor.replication.perform action } :=
  ⟨[action], .single hfilled _, by simpa using hordinary⟩

theorem role (h : Broadcasts Author before after) :
    after.replication.role = before.replication.role := by
  obtain ⟨actions, hacts, -⟩ := h
  exact hacts.role

/-- Nothing but a master moves its offset. -/
theorem offset (h : Broadcasts Author before after)
    (hreplica : before.replication.role = .replica) :
    after.replication.offset = before.replication.offset := by
  obtain ⟨actions, ⟨-, hresult⟩, hordinary⟩ := h
  rw [hresult]
  generalize before.replication = replication at hreplica hordinary
  clear hresult
  induction actions generalizing replication with
  | nil => rfl
  | cons action actions ih =>
    have hprune : action = .prune := by
      have haction := hordinary action (by simp)
      rw [hreplica] at haction
      cases action with
      | write clientId payload => cases haction.1
      | ask payload => cases haction
      | prune => rfl
      | _ => exact haction.elim
    subst hprune
    exact ih _ hreplica fun action haction => hordinary action (by simp [haction])

end Broadcasts

/-! ## Propagation -/

theorem role_of_replicates {source : CommandSource} (h : processor.replicates source = true) :
    processor.replication.role = .master := by
  simp only [replicates, Bool.and_eq_true, decide_eq_true_eq] at h
  exact h.1

theorem broadcasts_propagate (persisted : Bool) {replicated : Bool} (disk : Disk) {payload : Bytes}
    (hpayload : payload ≠ [])
    (hreplicated : replicated = true → processor.replication.role = .master ∧ Author clientId) :
    Broadcasts Author processor
      (processor.propagate persisted replicated disk clientId payload).2 := by
  have hpersist : (processor.persist persisted disk payload).2.replication =
      processor.replication := by
    obtain ⟨file, errors, hpersist⟩ := persist_cases persisted disk payload processor
    rw [hpersist]
  unfold propagate
  generalize processor.persist persisted disk payload = outcome at hpersist
  obtain ⟨result, middle⟩ := outcome
  cases result with
  | error message => exact .of_eq hpersist
  | ok _ =>
    cases replicated with
    | false => exact .of_eq hpersist
    | true =>
      have hwrite : Broadcasts Author middle { middle with
          replication := middle.replication.perform (.write clientId payload) } := by
        refine .single (.write clientId payload) hpayload ?_
        rw [show middle.replication = processor.replication from hpersist]
        exact hreplicated rfl
      exact (Broadcasts.of_eq hpersist).trans hwrite

theorem broadcasts_persistBlockingPop {disk : Disk} {key : Bytes}
    (h : before.persistBlockingPop disk task key = (result, after)) :
    Broadcasts (· = task.clientId) before after := by
  have hpropagate : Broadcasts (· = task.clientId) before _ :=
    broadcasts_propagate (before.persists task.source) disk
      (serializeCommand_ne_nil [CommandName.lpop.text, key])
      fun hreplicated : before.replicates task.source = true =>
        ⟨role_of_replicates hreplicated, rfl⟩
  unfold persistBlockingPop at h
  rwa [h] at hpropagate

theorem transactionPayload_ne_nil (logged : List Command) : transactionPayload logged ≠ [] := by
  simp [transactionPayload, serializeCommand_ne_nil]

theorem broadcasts_propagateTransaction (persisted : Bool) {replicated : Bool} (disk : Disk)
    (logged : List Command)
    (hreplicated : replicated = true → processor.replication.role = .master ∧ Author clientId) :
    Broadcasts Author processor
      (processor.propagateTransaction persisted replicated disk clientId logged).2 := by
  unfold propagateTransaction
  split
  · exact .refl _
  · exact broadcasts_propagate _ _ (transactionPayload_ne_nil logged) hreplicated

theorem broadcasts_propagateDirect (disk : Disk) (task : Task) (writeCommand : Bool)
    (response : Response) (processor : Processor) :
    Broadcasts (· = task.clientId) processor
      (processor.propagateDirect disk task writeCommand response).2 := by
  unfold propagateDirect
  simp only
  split
  · have hpropagate : Broadcasts (· = task.clientId) processor _ :=
      broadcasts_propagate (processor.persists task.source && writeCommand) disk
        (serializeCommand_ne_nil (normalizeReplicationCommand task.command response))
        fun hreplicated : (processor.replicates task.source && writeCommand) = true =>
          ⟨role_of_replicates (Bool.and_eq_true_iff.mp hreplicated).1, rfl⟩
    generalize processor.propagate (processor.persists task.source && writeCommand)
      (processor.replicates task.source && writeCommand) disk task.clientId
      (serializeCommand (normalizeReplicationCommand task.command response)) = outcome
      at hpropagate
    obtain ⟨result, after⟩ := outcome
    cases result <;> exact hpropagate
  · exact .refl _

/-! ## Commands and tasks -/

theorem broadcasts_processCommand {env : CommandEnv} {command : Command} {source : CommandSource}
    {response : Response} (hauthor : before.replicates source = true → Author clientId)
    (h : CommandOutcome host env clientId command source before response after) :
    Broadcasts Author before after := by
  cases h with
  | transacted _ houtcome =>
    cases houtcome with
    | @ran _ database responses logged middle _ _ _ _ _ _ hexecute hpropagate =>
      have htimely : ∀ n, Regime.any.Timely (env.clock.get n) := fun _ => trivial
      obtain ⟨_, hmiddle, -, -, -⟩ := executeCommands_spec htimely hexecute
      have hreplication : middle.replication = before.replication := by
        rw [hmiddle]
        rfl
      have hsent : Broadcasts Author middle _ := broadcasts_propagateTransaction
        (before.persists source) env.disk logged
        fun hreplicated : before.replicates source = true =>
          ⟨hreplication ▸ role_of_replicates hreplicated, hauthor hreplicated⟩
      rw [hpropagate] at hsent
      exact (Broadcasts.of_eq hreplication).trans hsent
    | _ => exact .of_eq rfl
  | ran _ _ _ hrun =>
    obtain ⟨⟨reply, database⟩, -, hafter⟩ := Option.map_eq_some_iff.mp hrun
    cases hafter
    exact .of_eq rfl
  | _ => exact .of_eq rfl

/-- **A blocking command broadcasts its pop**, if it pops, and asks for acknowledgements. -/
theorem Attempts.broadcasts {Pops : Task → Prop} (h : Attempts host Pops before after)
    (hauthor : ∀ task, Pops task → Author task.clientId) : Broadcasts Author before after := by
  refine h.relation (Broadcasts Author) .refl (fun _ _ _ h₁ h₂ => h₁.trans h₂) ?_
  intro first second hattempt
  cases hattempt with
  | @pop _ _ task _ _ _ hpops hpop =>
    cases hpop with
    | served _ hpersist =>
      have hpopped : Broadcasts (· = task.clientId) first _ :=
        (broadcasts_persistBlockingPop hpersist).trans (.of_eq rfl)
      exact hpopped.mono fun clientId (hclient : clientId = task.clientId) =>
        hclient ▸ hauthor task hpops
    | wrongType _ => exact .of_eq rfl
    | waits _ _ => exact .of_eq rfl
  | count targetOffset => exact .single .prune trivial trivial
  | ask hmaster =>
    exact .single (.ask (serializeCommand getAckCommand)) (serializeCommand_ne_nil _) hmaster
  | _ => exact .of_eq rfl

/-- Only the commands of a master move the offset at the end of a task. -/
theorem replication_finishTask (notification : Notification) (task : Task)
    (transaction : List Command) (succeeded : Bool) (response : Response)
    (processor : Processor) :
    ∃ bytes, (bytes = 0 ∨ task.source = .master ∧ bytes = task.replicationBytes) ∧
      (processor.finishTask notification task transaction succeeded response).replication =
        { processor.replication with offset := processor.replication.offset + bytes } := by
  have hend := finishTask_cases notification task transaction succeeded response processor
  generalize processor.finishTask notification task transaction succeeded response = after at hend ⊢
  cases hend with
  | replied hoffset _ =>
    rcases hoffset with rfl | ⟨hmaster, rfl⟩
    · exact ⟨0, .inl rfl, rfl⟩
    · exact ⟨_, .inr ⟨hmaster, rfl⟩, rfl⟩
  | published _ _ _ =>
    obtain ⟨reply, -, hreply⟩ :=
      replyThroughPubsub_eq notification task.clientId response processor
    rw [hreply]
    exact ⟨0, .inl rfl, rfl⟩

/-- **What a task does to the replication state.** -/
theorem replication_processTask (h : before.processTask host env task = some after) :
    ∃ (middle : Processor) (bytes : ℕ), Broadcasts (· = task.clientId) before middle ∧
      (bytes = 0 ∨ task.source = .master ∧ bytes = task.replicationBytes) ∧
      after.replication =
        { middle.replication with offset := middle.replication.offset + bytes } := by
  have hdone : Broadcasts (· = task.clientId) before after →
      ∃ (middle : Processor) (bytes : ℕ), Broadcasts (· = task.clientId) before middle ∧
        (bytes = 0 ∨ task.source = .master ∧ bytes = task.replicationBytes) ∧
        after.replication =
          { middle.replication with offset := middle.replication.offset + bytes } :=
    fun hbroadcasts => ⟨after, 0, hbroadcasts, .inl rfl, rfl⟩
  cases processTask_cases h with
  | refused connections _ _ _ => exact hdone (.of_eq rfl)
  | rejected _ => exact hdone (.of_eq rfl)
  | popped _ houtcome | read _ houtcome | waited _ houtcome =>
    exact hdone ((houtcome.attempts host).broadcasts (by simp))
  | direct _ hcommand =>
    have hran : Broadcasts (· = task.clientId) before _ :=
      broadcasts_processCommand (fun _ => rfl) (processCommand_cases hcommand)
    obtain ⟨bytes, hbytes, hfinish⟩ := replication_finishTask _ _ _ _ _ _
    exact ⟨_, bytes, hran.trans (broadcasts_propagateDirect _ _ _ _ _), hbytes, hfinish⟩

theorem broadcasts_processTask (hsource : task.source ≠ .master)
    (h : before.processTask host env task = some after) :
    Broadcasts (· = task.clientId) before after := by
  obtain ⟨middle, bytes, hmiddle, hbytes, hafter⟩ := replication_processTask h
  obtain rfl : bytes = 0 := hbytes.resolve_right fun hmaster => hsource hmaster.1
  exact hmiddle.trans (.of_eq hafter)

/-! ## Other tasks -/

theorem replication_cancelPendingCommands (clientId : ClientId) (processor : Processor) :
    (processor.cancelPendingCommands clientId).replication = processor.replication := by
  rw [cancelPendingCommands_eq]

theorem broadcasts_processAofInitialization {envs : Stream' CommandEnv} {file : AppendOnlyFile}
    {commands : List Command}
    (h : before.processAofInitialization host envs file commands = some (result, after)) :
    Broadcasts Author before after := by
  obtain ⟨replayed, middle, log, hreplay, -, rfl⟩ := processAofInitialization_cases h
  have hmiddle := replay_invariant (Broadcasts Author before) (fun _ hfirst hcommand =>
    hfirst.trans (broadcasts_processCommand (by simp [replicates]) (processCommand_cases hcommand)))
    (.refl _) hreplay
  exact hmiddle.trans (.of_eq rfl)

end Processor

/-! ## Phases -/

/-- The tasks of a master: no link of its own to another master. -/
def ProcessorTask.OfMaster : ProcessorTask → Prop
  | .command _ _ source _ => source ≠ .master
  | .installReplicationState _ _ => False
  | _ => True

instance (work : ProcessorTask) : Decidable work.OfMaster := by
  unfold ProcessorTask.OfMaster
  split <;> infer_instance

def Phase.OfMaster : Phase → Prop
  | .task _ work => work.OfMaster
  | _ => True

instance (phase : Phase) : Decidable phase.OfMaster := by
  unfold Phase.OfMaster
  split <;> infer_instance

/-- The action that a phase is there for. -/
def ProcessorTask.action : ProcessorTask → Option Action
  | .registerReplica clientId => some (.register clientId)
  | .acknowledgeReplica clientId offset => some (.acknowledge clientId offset)
  | .unregisterClient clientId => some (.forget clientId)
  | _ => none

def External.action : External → Option Action
  | .sendFrame session => some (.send session)
  | .closeReplica session => some (.close session)
  | .dropReplica session => some (.drop session)
  | _ => none

def Phase.action : Phase → Option Action
  | .task _ work => work.action
  | .external event => event.action
  | _ => none

/-- The clients that a phase may send frames for. -/
def Phase.Author (processor : Processor) : Phase → ClientId → Prop
  | .task _ (.command clientId _ _ _), author => author = clientId
  | .retryListPops _, author =>
    ∃ pending ∈ processor.pendingListPops, pending.task.clientId = author
  | _, _ => False

namespace Processor

variable {host : Host} {Author : ClientId → Prop}

/-- The replication state has taken this action, or ordinary ones. -/
def Takes (Author : ClientId → Prop) (action : Option Action) (before after : Processor) : Prop :=
  match action with
  | some action => action.Filled ∧ after.replication = before.replication.perform action
  | none => Broadcasts Author before after

theorem Takes.acts {action : Option Action} (h : Takes Author action before after) :
    ∃ actions, Acts actions before.replication after.replication ∧
      ∀ taken ∈ actions, taken.Ordinary Author before.replication.role ∨ action = some taken := by
  cases action with
  | none =>
    obtain ⟨actions, hacts, hordinary⟩ := h
    exact ⟨actions, hacts, fun taken htaken => .inl (hordinary taken htaken)⟩
  | some action =>
    obtain ⟨hfilled, hafter⟩ := h
    exact ⟨[action], hafter ▸ .single hfilled _, by simp⟩

theorem takes_task {work : ProcessorTask} (hmaster : work.OfMaster)
    (h : work.perform host env before = some after) :
    Takes ((Phase.task env work).Author before) work.action before after := by
  cases work with
  | command clientId words source replicationBytes =>
    have htask : { before with nextPromise := before.nextPromise + 1 }.processTask host env
        ⟨before.nextPromise, clientId, words, source, replicationBytes⟩ = some after := h
    have htaken : Broadcasts (· = clientId)
        { before with nextPromise := before.nextPromise + 1 } after :=
      broadcasts_processTask (by exact hmaster) htask
    exact htaken
  | registerReplica clientId =>
    cases h
    exact ⟨trivial, rfl⟩
  | installReplicationState replicationId offset => exact hmaster.elim
  | getReplicationOffset =>
    cases h
    exact Broadcasts.refl _
  | acknowledgeReplica clientId offset =>
    cases h
    exact ⟨trivial, rfl⟩
  | loadRdb entries =>
    cases h
    exact Broadcasts.of_eq rfl
  | initializeAof file commands =>
    obtain ⟨⟨result, final⟩, hinitialize, rfl⟩ := Option.map_eq_some_iff.mp h
    exact broadcasts_processAofInitialization hinitialize
  | registerClient clientId session =>
    cases h
    exact Broadcasts.of_eq rfl
  | unregisterClient clientId =>
    cases h
    refine ⟨trivial, ?_⟩
    simp only [processClientUnregistration, replication_cancelPendingCommands]
    rfl

theorem takes_external (event : External) (processor : Processor) :
    Takes Author event.action processor (event.perform processor) := by
  cases event with
  | createSession session =>
    refine Broadcasts.of_eq ?_
    simp only [External.perform]
    split <;> rfl
  | popFrame session =>
    refine Broadcasts.of_eq ?_
    simp only [External.perform]
    split <;> rfl
  | dropSession session => exact Broadcasts.of_eq rfl
  | _ => exact ⟨trivial, rfl⟩

/-- **What a phase of a master does to its replication state.** -/
theorem takes_perform {phase : Phase} (hmaster : phase.OfMaster)
    (h : phase.perform host before = some after) :
    Takes (phase.Author before) phase.action before after := by
  rcases perform_cases h with ⟨env, work, rfl, hwork⟩ | ⟨event, rfl, rfl⟩ | ⟨htask, hevent, hpass⟩
  · exact takes_task hmaster hwork
  · exact takes_external event before
  · cases phase with
    | task env work => exact absurd rfl (htask env work)
    | external event => exact absurd rfl (hevent event)
    | retryListPops inputs =>
      refine hpass.broadcasts ?_
      rintro task ⟨pending, hpending, rfl⟩
      exact ⟨pending, hpending, rfl⟩
    | _ => exact hpass.broadcasts fun _ hpops => hpops.elim

/-- **The rule for the replication state.**  What every ordinary action keeps, and the
action that the phase is there for, holds after the phase, if it does not depend on the
offset; a replica may also be told the state of its master. -/
theorem replication_rule {Holds : Replication → Prop} {phase : Phase}
    (hordinary : ∀ {Author role action replication}, Action.Ordinary Author role action →
      Holds replication → Holds (replication.perform action))
    (haction : ∀ {action replication}, phase.action = some action →
      Holds replication → Holds (replication.perform action))
    (hoffset : ∀ {replication} offset, Holds replication → Holds { replication with offset })
    (hinstall : ∀ {env replicationId offset replication},
      phase = .task env (.installReplicationState replicationId offset) →
      Holds replication → Holds { replication with replicationId, offset })
    (h : Holds before.replication) (hperform : phase.perform host before = some after) :
    Holds after.replication := by
  have hfold : ∀ (actions : List Action) {replication},
      (∀ action ∈ actions, ∀ {replication}, Holds replication →
        Holds (replication.perform action)) →
      Holds replication → Holds (actions.foldl perform replication) := by
    intro actions
    induction actions with
    | nil => exact fun _ hstart => hstart
    | cons action rest ih =>
      intro replication hactions hstart
      exact ih (fun other hother => hactions other (.tail _ hother))
        (hactions action (by simp) hstart)
  by_cases hmaster : phase.OfMaster
  · obtain ⟨actions, hacts, htaken⟩ := (takes_perform hmaster hperform).acts
    rw [hacts.result]
    refine hfold actions (fun action hmem replication => ?_) h
    exact (htaken action hmem).elim hordinary haction
  · unfold Phase.OfMaster ProcessorTask.OfMaster at hmaster
    split at hmaster
    · split at hmaster
      · rename_i env _ clientId words source replicationBytes
        have htask : { before with nextPromise := before.nextPromise + 1 }.processTask host env
            ⟨before.nextPromise, clientId, words, source, replicationBytes⟩ = some after :=
          hperform
        obtain ⟨middle, bytes, ⟨actions, hacts, htaken⟩, -, hafter⟩ :=
          replication_processTask htask
        rw [hafter]
        refine hoffset _ ?_
        rw [hacts.result]
        exact hfold actions (fun action hmem replication => hordinary (htaken action hmem)) h
      · cases hperform
        exact hinstall rfl h
      · exact absurd trivial hmaster
    · exact absurd trivial hmaster

theorem acts_run {phases : List Phase} (hmaster : ∀ phase ∈ phases, phase.OfMaster)
    (h : runPhases host phases before = some after) :
    ∃ actions, Acts actions before.replication after.replication := by
  have hstep : ∀ (phase : Phase) (state next : Processor), phase.OfMaster → True →
      phase.perform host state = some next →
        True ∧ ∃ actions, Acts actions state.replication next.replication :=
    fun phase state next hphase _ hnext =>
      ⟨trivial, (takes_perform hphase hnext).acts.imp fun _ hacts => hacts.1⟩
  refine (Runs.run_relation (fun state => ⟨[], .refl _⟩) ?_ hstep hmaster trivial h).2
  rintro first second third ⟨actions, hacts⟩ ⟨actions', hacts'⟩
  exact ⟨actions ++ actions', hacts.trans hacts'⟩

/-- What belongs together stays together in a run. -/
theorem sound_run {phases : List Phase} (hmaster : ∀ phase ∈ phases, phase.OfMaster)
    (hsound : before.replication.Sound) (h : runPhases host phases before = some after) :
    after.replication.Sound := by
  obtain ⟨actions, hacts⟩ := acts_run hmaster h
  exact hsound.acts hacts

/-- **The streams of a master have no gap and no duplicate.**  In every state that a
master reaches, the offset is the size of the backlog, every frame ends where the
backlog up to it does, and an open session has been given the frames that end
after its starting offset, in order. -/
theorem sessions_follow_backlog (replicationId : Bytes) (defaultUser : User)
    (rdbConfig : RdbConfig) (aofConfig : AofConfig) {phases : List Phase}
    (hmaster : ∀ phase ∈ phases, phase.OfMaster) {final : Processor}
    (hrun : runPhases host phases
      (.start .master replicationId defaultUser rdbConfig aofConfig) = some final) :
    let replication := final.replication
    replication.offset = (replication.backlog.map frameSize).sum ∧
      (∀ earlier frame later, replication.backlog = earlier ++ frame :: later →
        frame.endingOffset = ((earlier ++ [frame]).map frameSize).sum) ∧
      ∀ session found, replication.sessions.lookup session = some found →
        found.closed = false →
        found.frames = replication.backlog.filter
            (fun frame => decide (found.startingOffset < frame.endingOffset)) ∧
          found.startingOffset + (found.frames.map frameSize).sum = replication.offset := by
  have hsound : final.replication.Sound := sound_run hmaster (Sound.start .master replicationId) hrun
  refine ⟨hsound.offset, fun earlier frame later hbacklog => ?_, fun session found hfound hopen => ?_⟩
  · have hending := hsound.marked
    rw [hbacklog] at hending
    simpa only [total, Nat.zero_add] using hending.ending_eq
  · exact hsound.frames_eq hfound hopen

/-- A replica joins between two writes, and the client waits for it. -/
def joinTasks : List ProcessorTask :=
  [.registerClient 1 0, .ofClient 1 [ascii "SET", ascii "k", ascii "v"], .registerReplica 2,
    .ofClient 1 [ascii "RPUSH", ascii "queue", ascii "a"],
    .ofClient 1 [ascii "WAIT", ascii "1", ascii "0"]]

theorem sessions_follow_backlog_sample :
    ∃ final, runPhases Host.plain (stillRun ⟨5, 5⟩ joinTasks)
        (.start .master [] (User.default none) {} {}) = some final ∧
      final.replication.backlog.length = 3 ∧
      ∀ session found, final.replication.sessions.lookup session = some found →
        found.closed = false →
        found.startingOffset + (found.frames.map frameSize).sum = final.replication.offset := by
  have hsome : ∃ final, runPhases Host.plain (stillRun ⟨5, 5⟩ joinTasks)
      (.start .master [] (User.default none) {} {}) = some final ∧
        final.replication.backlog.length = 3 := by
    decide +kernel
  obtain ⟨final, hrun, hbacklog⟩ := hsome
  obtain ⟨-, -, hsessions⟩ := sessions_follow_backlog [] (User.default none) {} {} (by decide) hrun
  exact ⟨final, hrun, hbacklog, fun session found hfound hopen =>
    (hsessions session found hfound hopen).2⟩

end Processor

end RedisServer
