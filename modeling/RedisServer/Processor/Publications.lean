import RedisServer.Connections.Audience
import RedisServer.Processor.Subscriptions

/-!
# Publications along a run

`Phase.operations` says what a phase adds to the history of Pub/Sub; only accepted
commands count.  In an orderly run (the session of a registered client is alive
and its own, and no notification fails) the connections follow the history at
every moment, and every queue has been given the publications it was owed, in
their order.
-/

namespace RedisServer

open Resp Commands Aof Connections PubSub Processor

/-! ## What a phase adds to the history -/

/-- What a command adds to the history, once it has passed the gate of its task. -/
def commandOperations (clientId : ClientId) (command : Command) (connections : Connections) :
    List Operation :=
  match nameOf command with
  | some .subscribe =>
    if (connections.clients.lookup clientId).isSome ∧ command.tail ≠ [] then
      [.subscribe clientId command.tail]
    else []
  | some .unsubscribe =>
    if (connections.clients.lookup clientId).isSome then
      if command.tail = [] then [.unsubscribeAll clientId]
      else [.unsubscribe clientId command.tail]
    else []
  | some .publish =>
    match command with
    | [_, channel, message] => [.publish channel message]
    | _ => []
  | _ => []

instance (task : Task) (processor : Processor) : Decidable (processor.Refuses task) :=
  inferInstanceAs (Decidable (_ ∧ (_ ∧ _ ∨ _ ∧ _)))

def Task.operations (task : Task) (processor : Processor) : List Operation :=
  if processor.Refuses task then []
  else commandOperations task.clientId task.command processor.connections

/-- The commands of a log are in nobody's way, but they count. -/
def replayOperations (host : Host) : List Command → Stream' CommandEnv → Processor → List Operation
  | [], _, _ => []
  | command :: rest, envs, processor =>
    commandOperations aofClientId command processor.connections ++
      match processor.processCommand host envs.head aofClientId command .aof with
      | none => []
      | some (response, next) =>
        match response with
        | .simpleError _ => []
        | _ => replayOperations host rest envs.tail next

def Phase.operations (host : Host) (phase : Phase) (processor : Processor) : List Operation :=
  match phase with
  | .task _ (.command clientId words source replicationBytes) =>
    Task.operations ⟨processor.nextPromise, clientId, words, source, replicationBytes⟩ processor
  | .task env (.initializeAof _ commands) => replayOperations host commands env.replay processor
  | .task _ (.registerClient clientId session) => [.register clientId session]
  | .task _ (.unregisterClient clientId) => [.leave clientId]
  | .external (.popFrame session) =>
    ((processor.connections.queue session).head?.map (.receive session)).toList
  | .external (.dropSession session) => [.drop session]
  | _ => []

/-- The history of a run. -/
def historyOf (host : Host) (phases : List Phase) (processor : Processor) : List Operation :=
  Runs.gather (Phase.perform host) (Phase.operations host) phases processor

/-! ## Orderly phases -/

/-- No write to the descriptor of a session fails. -/
structure Env.Awake (env : Env) : Prop where
  notifications : ∀ n, env.notifications.get n = none
  reply : env.replyNotification = none
  replay : ∀ n k, (env.replay.get n).notifications.get k = none

/-- A client arrives with a live session of its own, and a session ends only when
its client has left. -/
def Phase.Orderly (phase : Phase) (processor : Processor) : Prop :=
  match phase with
  | .task _ (.registerClient clientId session) =>
    (processor.connections.sessions.lookup session).isSome ∧
      ∀ other, processor.connections.registration other = some session → other = clientId
  | .task env _ => env.Awake
  | .external (.dropSession session) =>
    ∀ clientId, processor.connections.registration clientId ≠ some session
  | _ => True

/-! ## Commands -/

namespace Processor

variable {host : Host} {history : List Operation}

theorem unfolds_command {env : CommandEnv} (hawake : ∀ n, env.notifications.get n = none)
    {clientId : ClientId} {command : Command} {user : User} {response : Response}
    {before after : Connections} (h : Follows history before)
    (hdelivery : CommandDelivery host env clientId command user before response after) :
    Unfolds history (commandOperations clientId command before) before after := by
  have hhead : env.notifications.head = none := hawake 0
  -- A client that is not registered is told so, and nothing happens.
  have hstranger : ∀ change, before.clients.lookup clientId = none →
      (before.acknowledge none clientId change).2 = before := by
    intro change hnone
    rw [acknowledge, hnone]
  cases hdelivery with
  | apart hname =>
    have hnothing : commandOperations clientId command before = [] := by
      unfold commandOperations
      unfold touchesChannels at hname
      split <;> simp_all
    rw [hnothing]
    exact .refl h
  | authenticated hname =>
    simp only [commandOperations, hname]
    exact h.authenticate host user clientId command
  | subscribed hname =>
    simp only [commandOperations, hname, hhead]
    rcases command with _ | ⟨word, _ | ⟨channel, channels⟩⟩
    · simp [nameOf] at hname
    · simp only [List.tail_cons, ne_eq, not_true_eq_false, and_false, if_false]
      exact .refl h
    · cases hclient : before.clients.lookup clientId with
      | none =>
        rw [Connections.subscribe, hstranger _ hclient]
        exact .refl h
      | some client => exact h.subscribe hclient word channel channels
  | unsubscribed hname =>
    simp only [commandOperations, hname, hhead]
    cases hclient : before.clients.lookup clientId with
    | none =>
      rw [Connections.unsubscribe, hstranger _ hclient]
      exact .refl h
    | some client =>
      rcases command with _ | ⟨word, _ | ⟨channel, channels⟩⟩
      · simp [nameOf] at hname
      · exact h.leaveAll hclient
      · exact h.unsubscribe hclient word channel channels
  | published hname =>
    simp only [commandOperations, hname]
    rcases command with _ | ⟨word, _ | ⟨channel, _ | ⟨message, _ | _⟩⟩⟩
    case cons.cons.cons.nil => exact (h.publish hawake word channel message).2.2
    all_goals exact .refl h

theorem unfolds_processTask {env : Env} (hawake : env.Awake) {task : Task}
    {before after : Processor} (h : Follows history before.connections)
    (hprocess : before.processTask host env task = some after) :
    Unfolds history (task.operations before) before.connections after.connections := by
  have hdelivery := delivery_processTask hprocess
  generalize after.connections = connections at hdelivery ⊢
  cases hdelivery with
  | quiet hgate =>
    have hnothing : task.operations before = [] := by
      unfold Task.operations
      split
      · rfl
      · rename_i hrefuses
        have hname := hgate.resolve_left hrefuses
        unfold commandOperations
        unfold touchesChannels at hname
        split <;> simp_all
    rw [hnothing]
    exact .refl h
  | refused hrefuses _ =>
    rw [Task.operations, if_pos hrefuses, hawake.reply]
    exact h.enqueuePubsubResponse _ _
  | commanded hgate hcommand =>
    rw [Task.operations, if_neg hgate]
    exact unfolds_command hawake.notifications h (delivery_processCommand hcommand)
  | answered hgate _ hcommand =>
    rw [Task.operations, if_neg hgate, hawake.reply]
    have hfirst := unfolds_command hawake.notifications h (delivery_processCommand hcommand)
    have hreply := fun response =>
      hfirst.trans (hfirst.follows.enqueuePubsubResponse task.clientId response)
    simp only [List.append_nil] at hreply
    exact hreply _

theorem unfolds_replayCommands {commands : List Command} {envs : Stream' CommandEnv}
    (hawake : ∀ n k, (envs.get n).notifications.get k = none) {result : Except Bytes Unit}
    {before after : Processor} (h : Follows history before.connections)
    (hreplay : before.replayCommands host commands envs = some (result, after)) :
    Unfolds history (replayOperations host commands envs before) before.connections
      after.connections := by
  induction commands generalizing envs before history with
  | nil =>
    cases hreplay
    exact .refl h
  | cons command rest ih =>
    obtain ⟨⟨response, middle⟩, hcommand, hrest⟩ := Option.bind_eq_some_iff.mp hreplay
    have hfirst := unfolds_command (hawake 0) h (delivery_processCommand hcommand)
    have hcommand' : before.processCommand host (envs.get 0) aofClientId command .aof =
        some (response, middle) := hcommand
    rw [replayOperations]
    refine hfirst.trans ?_
    simp only at hrest
    rw [show envs.head = envs.get 0 from rfl, hcommand']
    simp only
    split at hrest
    · cases hrest
      exact .refl hfirst.follows
    · rename_i hnoError
      have hlater := ih (fun n k => hawake (n + 1) k) hfirst.follows hrest
      cases response with
      | simpleError message => exact absurd rfl (hnoError message)
      | _ => exact hlater

theorem unfolds_processAofInitialization {envs : Stream' CommandEnv}
    (hawake : ∀ n k, (envs.get n).notifications.get k = none) {file : AppendOnlyFile}
    {commands : List Command} {result : Except Bytes Unit} {before after : Processor}
    (h : Follows history before.connections)
    (hinit : before.processAofInitialization host envs file commands = some (result, after)) :
    Unfolds history (replayOperations host commands envs before) before.connections
      after.connections := by
  obtain ⟨⟨replayed, middle⟩, hreplay, hafter⟩ := Option.map_eq_some_iff.mp hinit
  have hmiddle := unfolds_replayCommands hawake h hreplay
  cases replayed with
  | error message =>
    cases hafter
    exact hmiddle
  | ok _ =>
    simp only at hafter
    split at hafter
    · cases hafter
      exact hmiddle
    · cases hafter
      exact hmiddle

end Processor

/-! ## Phases -/

/-- What a session was given, taken or still waiting, with the publications marked. -/
def InOrder (session : SessionId) (history : List Operation) (connections : Connections) : Prop :=
  ∃ marked : List (Bool × Bytes),
    received session history ++ connections.queue session = marked.map Prod.snd ∧
      (marked.filter Prod.fst).map Prod.snd = mail session [] history

/-- **The connections follow the history**, and so do the queues of the sessions. -/
structure Publishes (history : List Operation) (processor : Processor) : Prop where
  follows : Follows history processor.connections
  inOrder : ∀ session, Operation.drop session ∉ history →
    InOrder session history processor.connections

section Phases

variable {host : Host} {history operations : List Operation} {before after : Processor}

/-- A phase of the worker, in which nobody takes a frame. -/
theorem Publishes.unfolds (h : Publishes history before)
    (htaken : ∀ session, received session operations = [])
    (hunfolds : Unfolds history operations before.connections after.connections) :
    Publishes (history ++ operations) after where
  follows := hunfolds.follows
  inOrder session hlasting := by
    obtain ⟨marked, hgiven, hmail⟩ := h.inOrder session fun hdrop =>
      hlasting (List.mem_append_left _ hdrop)
    obtain ⟨marked', hqueue, hmail'⟩ := hunfolds.grows session
    refine ⟨marked ++ marked', ?_, ?_⟩
    · rw [received_append, htaken, List.append_nil, hqueue, ← List.append_assoc, hgiven,
        List.map_append]
    · rw [List.filter_append, List.map_append, hmail, hmail', mail_append, List.nil_append]

theorem Publishes.congr (h : Publishes history before)
    (hconnections : after.connections = before.connections) :
    Publishes (history ++ []) after := by
  refine h.unfolds (fun _ => rfl) ?_
  rw [hconnections]
  exact .refl h.follows

theorem received_commandOperations (session : SessionId) (clientId : ClientId)
    (command : Command) (connections : Connections) :
    received session (commandOperations clientId command connections) = [] := by
  unfold commandOperations
  split
  · split <;> rfl
  · split
    · split <;> rfl
    · rfl
  · split <;> rfl
  · rfl

theorem received_taskOperations (session : SessionId) (task : Task) (processor : Processor) :
    received session (task.operations processor) = [] := by
  unfold Task.operations
  split
  · rfl
  · exact received_commandOperations session _ _ _

theorem received_replayOperations (session : SessionId) (commands : List Command)
    (envs : Stream' CommandEnv) (processor : Processor) :
    received session (replayOperations host commands envs processor) = [] := by
  induction commands generalizing envs processor with
  | nil => rfl
  | cons command rest ih =>
    rw [replayOperations, received_append, received_commandOperations, List.nil_append]
    split
    · rfl
    · split
      · rfl
      · exact ih _ _

/-- A connection takes the first frame of its session. -/
theorem Publishes.popFrame (h : Publishes history before) (session : SessionId) :
    Publishes
      (history ++ ((before.connections.queue session).head?.map (.receive session)).toList)
      ((External.popFrame session).perform before) := by
  simp only [External.perform]
  cases hlookup : before.connections.sessions.lookup session with
  | none =>
    have hempty : before.connections.queue session = [] := by simp [queue, hlookup]
    rw [hempty]
    exact h.congr rfl
  | some pending =>
    have hpending : before.connections.queue session = pending := by simp [queue, hlookup]
    have hfollows : Follows history
        { before.connections with
          sessions := before.connections.sessions.insert session pending.tail } :=
      h.follows.enqueue session pending.tail
    rw [hpending]
    cases pending with
    | nil =>
      refine ⟨by simpa using hfollows, fun other hlasting => ?_⟩
      obtain ⟨marked, hgiven, hmail⟩ := h.inOrder other (by simpa using hlasting)
      refine ⟨marked, ?_, by simpa using hmail⟩
      by_cases hother : other = session
      · subst hother
        simpa [queue, hlookup] using hgiven
      · simpa [queue, hother] using hgiven
    | cons frame rest =>
      refine ⟨hfollows.snoc (fun _ => rfl) (fun _ _ => rfl), fun other hlasting => ?_⟩
      obtain ⟨marked, hgiven, hmail⟩ := h.inOrder other fun hdrop =>
        hlasting (List.mem_append_left _ hdrop)
      refine ⟨marked, ?_, ?_⟩
      · rw [← hgiven, received_append]
        by_cases hother : other = session
        · subst hother
          simp [received, queue, hlookup]
        · simp [received, queue, hother, Ne.symm hother]
      · rw [hmail, mail_append]
        simp [mail, delivered]

/-- A session ends that is nobody's. -/
theorem Publishes.dropSession (h : Publishes history before) {session : SessionId}
    (hnobody : ∀ clientId, before.connections.registration clientId ≠ some session) :
    Publishes (history ++ [.drop session]) ((External.dropSession session).perform before) := by
  have hfollows : Follows history
      { before.connections with sessions := before.connections.sessions.erase session } := {
    mirrored := h.follows.mirrored
    registered := h.follows.registered
    subscribed := h.follows.subscribed
    known := h.follows.known
    alive := fun clientId live hlive => by
      have hne : live ≠ session := by
        rintro rfl
        exact hnobody clientId ((h.follows.registered clientId).trans hlive)
      simp only [AList.lookup_erase_ne hne]
      exact h.follows.alive clientId live hlive
    own := h.follows.own }
  refine ⟨hfollows.snoc (fun _ => rfl) (fun _ _ => rfl), fun other hlasting => ?_⟩
  have hother : other ≠ session := by
    rintro rfl
    exact hlasting (by simp)
  obtain ⟨marked, hgiven, hmail⟩ := h.inOrder other fun hdrop =>
    hlasting (List.mem_append_left _ hdrop)
  refine ⟨marked, ?_, ?_⟩
  · rw [← hgiven, received_append]
    simp [received, queue, External.perform, hother]
  · rw [hmail, mail_append]
    simp [mail, delivered]

theorem Publishes.createSession (h : Publishes history before) (session : SessionId) :
    Publishes (history ++ []) ((External.createSession session).perform before) := by
  simp only [External.perform]
  cases hlookup : before.connections.sessions.lookup session with
  | some pending => exact h.congr rfl
  | none =>
    refine h.unfolds (fun _ => rfl)
      ⟨by simpa using h.follows.enqueue session [], fun other => .of_eq ?_⟩
    by_cases hother : other = session
    · subst hother
      simp [queue, hlookup]
    · simp [queue, hother]

/-- **An orderly phase keeps the connections and the queues with the history.** -/
theorem publishes_perform {phase : Phase} (horderly : phase.Orderly before)
    (h : Publishes history before) (hperform : phase.perform host before = some after) :
    Publishes (history ++ phase.operations host before) after := by
  rcases perform_cases hperform with
    ⟨env, work, rfl, hwork⟩ | ⟨event, rfl, rfl⟩ | ⟨htask, hevent, hpass⟩
  · cases work with
    | command clientId words source replicationBytes =>
      exact h.unfolds (fun session => received_taskOperations session _ _)
        (@unfolds_processTask host history env horderly _
          { before with nextPromise := before.nextPromise + 1 } after h.follows hwork)
    | registerClient clientId session =>
      cases hwork
      exact h.unfolds (fun _ => rfl) (h.follows.register _ horderly.1 horderly.2)
    | unregisterClient clientId =>
      cases hwork
      have hsame := (attempts_cancelPendingCommands host clientId before).accounts.connections
      refine h.unfolds (fun _ => rfl) ?_
      simp only [processClientUnregistration, hsame]
      exact h.follows.unregister clientId
    | initializeAof file commands =>
      obtain ⟨⟨result, final⟩, hinit, rfl⟩ := Option.map_eq_some_iff.mp hwork
      have hawake : env.Awake := horderly
      exact h.unfolds (fun session => received_replayOperations session _ _ _)
        (unfolds_processAofInitialization hawake.replay h.follows hinit)
    | _ =>
      cases hwork
      exact h.congr rfl
  · cases event with
    | createSession session => exact h.createSession session
    | popFrame session => exact h.popFrame session
    | dropSession session => exact h.dropSession horderly
    | _ => exact h.congr rfl
  · cases phase with
    | task env work => exact absurd rfl (htask env work)
    | external event => exact absurd rfl (hevent event)
    | _ => exact h.congr hpass.accounts.connections

/-- Every input of the run is orderly where it comes. -/
abbrev OrderlyRun (host : Host) (phases : List Phase) (processor : Processor) : Prop :=
  Runs.Along (Phase.perform host) Phase.Orderly phases processor

theorem publishes_run {phases : List Phase} {start final : Processor}
    (horderly : OrderlyRun host phases start) (hstart : Publishes [] start)
    (hrun : runPhases host phases start = some final) :
    Publishes (historyOf host phases start) final :=
  Runs.run_gather (fun _ _ _ _ hadmitted hinv hstep => publishes_perform hadmitted hinv hstep)
    horderly hstart hrun

theorem publishes_start (role : ReplicationRole) (replicationId : Bytes) (defaultUser : User)
    (rdbConfig : RdbConfig) (aofConfig : AofConfig) :
    Publishes [] (Processor.start role replicationId defaultUser rdbConfig aofConfig) :=
  ⟨follows_empty, fun _ _ => ⟨[], rfl, rfl⟩⟩

end Phases

/-! ## One publication -/

section Publish

variable {host : Host} {history : List Operation} {before : Processor} {clientId : ClientId}
  {channel message : Bytes} {source : CommandSource} {replicationBytes : ℕ}

/-- The command of a publication. -/
abbrev publishCommand (channel message : Bytes) : Command :=
  [CommandName.publish.text, channel, message]

theorem nameOf_publishCommand : nameOf (publishCommand channel message) = some .publish :=
  nameOf_cons.mpr rfl

theorem isWriteCommand_publishCommand :
    isWriteCommand host (publishCommand channel message) = false := by
  rw [isWriteCommand, findCommandDefinition, nameOf_publishCommand]
  rfl

/-- A `PUBLISH` that is not refused is answered with the number of its recipients. -/
theorem processTask_publish {env : Env} (hawake : env.Awake) {task : Task}
    (hcommand : task.command = publishCommand channel message)
    (h : Follows history before.connections) (hgate : ¬ before.Refuses task) :
    ∃ after, before.processTask host env task = some after ∧
      after.connections =
        (before.connections.publish env.notifications (publishCommand channel message)).2 ∧
      after.replies = before.replies ++
        [⟨task, [], .integer (before.connections.audience history channel).length⟩] := by
  have hname : nameOf task.command = some .publish := hcommand ▸ nameOf_publishCommand
  have hread : isWriteCommand host task.command = false :=
    hcommand ▸ isWriteCommand_publishCommand
  obtain ⟨hresponse, -, hunfolds⟩ :=
    h.publish hawake.notifications CommandName.publish.text channel message
  -- Somebody who may publish is not subscribed, neither before nor afterwards.
  have hquiet : ¬ (task.source = .client ∧
      (before.connections.publish env.notifications
        (publishCommand channel message)).2.isSubscribed task.clientId = true) := by
    rintro ⟨hclient, hlistens⟩
    have hsome := (hunfolds.follows.mirrored.isSubscribed_iff _).mp hlistens
    obtain ⟨heard, hheard⟩ := List.exists_mem_of_ne_nil _ hsome
    rw [hunfolds.follows.subscribed, subscribed_snoc] at hheard
    have hbefore : heard ∈ before.connections.channelsOf task.clientId :=
      (h.subscribed _ _).mpr hheard
    refine hgate ⟨hclient, .inr ⟨?_, ?_⟩⟩
    · exact (h.mirrored.isSubscribed_iff _).mpr (List.ne_nil_of_mem hbefore)
    · simp [allowedWhileSubscribed, hname]
  have hprocess : before.processCommand host env.toCommandEnv task.clientId task.command
      task.source = some (before.answerFrom
        (before.connections.publish env.notifications (publishCommand channel message))) := by
    unfold processCommand
    rw [hcommand, if_neg (by simp), nameOf_publishCommand]
  rw [processTask_direct hgate (.inr (.inr hread)) (.inr (by simp [hname]))]
  unfold processDirect
  rw [hprocess, hread, Bool.and_false]
  simp only [Option.map_some, answerFrom, propagateDirect_read, hresponse, transactionOf, hname]
  obtain ⟨offset, hfinish⟩ := @finishTask_direct task
    { before with
      connections :=
        (before.connections.publish env.notifications (publishCommand channel message)).2 }
    hquiet env.replyNotification [] true
    (.integer (before.connections.audience history channel).length)
  exact ⟨_, rfl, congrArg Processor.connections hfinish, congrArg Processor.replies hfinish⟩

end Publish

/-- **`PUBLISH` reaches exactly the current subscribers.**  In every orderly run, a
publication is put once into the session of every registered client whose last
operation on the channel was a `SUBSCRIBE`, and into no other; the reply is the
number of these clients.  Every session gets its publications in their order. -/
theorem publish_reaches_subscribers (host : Host) (role : ReplicationRole) (replicationId : Bytes)
    (defaultUser : User) (rdbConfig : RdbConfig) (aofConfig : AofConfig) (phases : List Phase)
    (horderly : OrderlyRun host phases
      (Processor.start role replicationId defaultUser rdbConfig aofConfig))
    {before : Processor}
    (hrun : runPhases host phases
      (Processor.start role replicationId defaultUser rdbConfig aofConfig) = some before) :
    let history := historyOf host phases
      (Processor.start role replicationId defaultUser rdbConfig aofConfig)
    (∀ env clientId source replicationBytes channel message, env.Awake →
      ¬ before.Refuses ⟨before.nextPromise, clientId, publishCommand channel message, source,
        replicationBytes⟩ →
      ∃ after, Phase.perform host (.task env (.command clientId (publishCommand channel message)
          source replicationBytes)) before = some after ∧
        (∀ other client, before.connections.clients.lookup other = some client →
          ∃ pending, before.connections.sessions.lookup client.pubsubSession = some pending ∧
            after.connections.sessions.lookup client.pubsubSession =
              some (if PubSub.subscribed history other channel then
                pending ++ [messageFrame channel message] else pending)) ∧
        (∀ session, (∀ other client, before.connections.clients.lookup other = some client →
            client.pubsubSession ≠ session) →
          after.connections.sessions.lookup session =
            before.connections.sessions.lookup session) ∧
        after.replies = before.replies ++
          [⟨⟨before.nextPromise, clientId, publishCommand channel message, source,
              replicationBytes⟩, [],
            .integer (before.connections.audience history channel).length⟩]) ∧
    ∀ session, Operation.drop session ∉ history → InOrder session history before.connections := by
  intro history
  have hpublishes : Publishes history before :=
    publishes_run horderly (publishes_start _ _ _ _ _) hrun
  refine ⟨?_, hpublishes.inOrder⟩
  intro env clientId source replicationBytes channel message hawake hgate
  have h := hpublishes.follows
  obtain ⟨after, hprocess, hconnections, hreplies⟩ := @processTask_publish host history
    { before with nextPromise := before.nextPromise + 1 } channel message env hawake _ rfl h hgate
  obtain ⟨-, hsessions, -⟩ :=
    h.publish hawake.notifications CommandName.publish.text channel message
  refine ⟨after, hprocess, fun other client hclient => ?_, fun session hnobody => ?_, hreplies⟩
  · obtain ⟨hregistered, pending, hpending⟩ := h.session hclient
    refine ⟨pending, hpending, ?_⟩
    have hlistens : listens history client.pubsubSession channel =
        PubSub.subscribed history other channel := by
      rw [Bool.eq_iff_iff, listens_iff]
      constructor
      · rintro ⟨listener, hlistener, hsubscribed⟩
        exact h.own listener other _ hlistener hregistered ▸ hsubscribed
      · exact fun hsubscribed => ⟨other, hregistered, hsubscribed⟩
    have hsession := hsessions client.pubsubSession
    rw [hpending, delivered_publish, hlistens] at hsession
    rw [hconnections]
    refine hsession.trans ?_
    cases PubSub.subscribed history other channel <;> simp
  · have hsilent : ¬ listens history session channel = true := by
      intro hlistens
      obtain ⟨listener, hlistener, -⟩ := listens_iff.mp hlistens
      rw [← h.registered] at hlistener
      obtain ⟨client, hclient, rfl⟩ := Option.map_eq_some_iff.mp hlistener
      exact hnobody listener client hclient rfl
    have hsession := hsessions session
    rw [delivered_publish, if_neg hsilent] at hsession
    rw [hconnections]
    refine hsession.trans ?_
    simp

theorem awake_still (clock : Clock) : (Env.still clock).Awake :=
  ⟨fun _ => rfl, rfl, fun _ _ => rfl⟩

/-- Two clients arrive, and the first one subscribes to a channel. -/
def listeningRun : List Phase :=
  [.external (.createSession 7), .external (.createSession 8),
    .task (Env.still ⟨0, 0⟩) (.registerClient 1 7), .task (Env.still ⟨0, 0⟩) (.registerClient 2 8),
    .task (Env.still ⟨0, 0⟩) (.ofClient 1 (["SUBSCRIBE", "news"].map ascii))]

theorem orderly_listeningRun :
    OrderlyRun Host.plain listeningRun (Processor.start .master [] (User.default none) {} {}) := by
  refine ⟨trivial, fun _ h => ?_⟩
  cases h
  refine ⟨trivial, fun _ h => ?_⟩
  cases h
  refine ⟨⟨by decide, fun other h => ?_⟩, fun _ h => ?_⟩
  · have hnobody : ((∅ : AList fun _ : ClientId => ClientState).lookup other).map
        ClientState.pubsubSession = some 7 := h
    simp at hnobody
  cases h
  refine ⟨⟨by decide, fun other h => ?_⟩, fun _ _ => ⟨awake_still _, fun _ _ => trivial⟩⟩
  have hfirst : ((AList.insert 1 ⟨true, 7⟩ (∅ : AList fun _ : ClientId => ClientState)).lookup
      other).map ClientState.pubsubSession = some 8 := h
  by_cases hother : other = 1
  · subst hother
    rw [AList.lookup_insert] at hfirst
    cases hfirst
  · rw [AList.lookup_insert_ne hother] at hfirst
    cases hfirst

/-- The second client reaches the first one. -/
theorem publish_reaches_subscribers_sample :
    ∃ before after : Processor,
      runPhases Host.plain listeningRun (Processor.start .master [] (User.default none) {} {}) =
        some before ∧
      Phase.perform Host.plain (.task (Env.still ⟨0, 0⟩)
        (.command 2 (publishCommand (ascii "news") (ascii "hi")) .client 0)) before = some after ∧
      ∃ pending, before.connections.sessions.lookup 7 = some pending ∧
        after.connections.sessions.lookup 7 =
          some (pending ++ [messageFrame (ascii "news") (ascii "hi")]) := by
  have hsample : ∃ before, runPhases Host.plain listeningRun
      (Processor.start .master [] (User.default none) {} {}) = some before ∧
        before.connections.clients.lookup 1 = some ⟨true, 7⟩ ∧
        ¬ before.Refuses ⟨before.nextPromise, 2,
          publishCommand (ascii "news") (ascii "hi"), .client, 0⟩ := by
    decide +kernel
  have hsubscribed : PubSub.subscribed (historyOf Host.plain listeningRun
      (Processor.start .master [] (User.default none) {} {})) 1 (ascii "news") = true := by
    decide +kernel
  obtain ⟨before, hrun, hclient, hgate⟩ := hsample
  obtain ⟨hpublish, -⟩ := publish_reaches_subscribers Host.plain .master [] (User.default none)
    {} {} listeningRun orderly_listeningRun hrun
  obtain ⟨after, hperform, hsessions, -, -⟩ :=
    hpublish (Env.still ⟨0, 0⟩) 2 .client 0 _ _ (awake_still _) hgate
  obtain ⟨pending, hpending, hafter⟩ := hsessions 1 _ hclient
  rw [hsubscribed] at hafter
  exact ⟨before, after, hrun, hperform, pending, hpending, hafter⟩

end RedisServer
