import RedisServer.Connections.Moves
import RedisServer.Processor.Clients

/-!
# What a task does to the connections

A command moves the connections on behalf of its client only (`moves_processTask`);
the passes over the queues and the other tasks leave them alone, apart from the
arrival and the departure of a client.
-/

namespace RedisServer

open Resp Commands Aof Connections

variable {before after : Processor} {env : CommandEnv} {clientId : ClientId} {command : Command}
  {response : Response} {source : CommandSource}

namespace Processor

variable {host : Host} {Sends : Bytes → Prop}

/-! ## Commands -/

theorem connections_queueOrRun
    (h : before.queueOrRun host env clientId command = some (response, after)) :
    after.connections = before.connections := by
  unfold queueOrRun at h
  split at h
  · cases h
    rfl
  · obtain ⟨⟨reply, database⟩, -, hafter⟩ := Option.map_eq_some_iff.mp h
    cases hafter
    rfl

section Local

variable (env : CommandEnv) (clientId : ClientId) (command : Command) (processor : Processor)

theorem connections_watch :
    (processor.watch env clientId command).2.connections = processor.connections := by
  unfold watch
  split
  · split <;> rfl
  · rfl

theorem connections_unwatch :
    (processor.unwatch clientId command).2.connections = processor.connections := by
  unfold unwatch
  split <;> rfl

theorem connections_multi : (processor.multi clientId).2.connections = processor.connections := by
  unfold multi
  split <;> rfl

theorem connections_discard :
    (processor.discard clientId).2.connections = processor.connections := by
  unfold discard
  split <;> rfl

end Local

/-- The command is about channels. -/
def touchesChannels (command : Command) : Bool :=
  match nameOf command with
  | some .subscribe | some .unsubscribe | some .publish => true
  | _ => false

/-- **What a command can do to the connections**, with its response. -/
inductive CommandDelivery (host : Host) (env : CommandEnv) (clientId : ClientId)
    (command : Command) (user : User) (before : Connections) : Response → Connections → Prop
  | apart {response : Response} (hname : touchesChannels command = false) :
      CommandDelivery host env clientId command user before response before
  | subscribed (hname : nameOf command = some .subscribe) :
      CommandDelivery host env clientId command user before
        (before.subscribe env.notifications.head clientId command).1
        (before.subscribe env.notifications.head clientId command).2
  | unsubscribed (hname : nameOf command = some .unsubscribe) :
      CommandDelivery host env clientId command user before
        (before.unsubscribe env.notifications.head clientId command).1
        (before.unsubscribe env.notifications.head clientId command).2
  | published (hname : nameOf command = some .publish) :
      CommandDelivery host env clientId command user before
        (before.publish env.notifications command).1
        (before.publish env.notifications command).2
  | authenticated (hname : nameOf command = some .auth) :
      CommandDelivery host env clientId command user before
        (Acl.authenticate host user clientId command before).1
        (Acl.authenticate host user clientId command before).2

theorem delivery_processCommand
    (h : before.processCommand host env clientId command source = some (response, after)) :
    CommandDelivery host env clientId command before.defaultUser before.connections response
      after.connections := by
  have hapart : touchesChannels command = false → after.connections = before.connections →
      CommandDelivery host env clientId command before.defaultUser before.connections response
        after.connections := by
    intro hname hsame
    rw [hsame]
    exact .apart hname
  have hanswer : ∀ answer : Response × Processor, some answer = some (response, after) →
      answer.2.connections = before.connections → after.connections = before.connections := by
    rintro _ ⟨⟩ hsame
    exact hsame
  unfold processCommand at h
  split at h
  · rename_i hempty
    cases h
    exact hapart (by rw [hempty]; rfl) rfl
  cases hname : nameOf command with
  | none =>
    rw [hname] at h
    exact hapart (by simp [touchesChannels, hname]) (connections_queueOrRun h)
  | some name =>
    simp only [hname] at h
    cases name with
    | subscribe =>
      cases h
      exact .subscribed hname
    | unsubscribe =>
      cases h
      exact .unsubscribed hname
    | publish =>
      cases h
      exact .published hname
    | auth =>
      cases h
      exact .authenticated hname
    | ping =>
      refine hapart (by simp [touchesChannels, hname]) ?_
      simp only at h
      split at h
      · cases h
        rfl
      · exact connections_queueOrRun h
    | acl | info | config | replconf | psync =>
      cases h
      exact hapart (by simp [touchesChannels, hname]) rfl
    | watch =>
      exact hapart (by simp [touchesChannels, hname])
        (hanswer _ h (connections_watch env clientId command before))
    | unwatch =>
      exact hapart (by simp [touchesChannels, hname])
        (hanswer _ h (connections_unwatch clientId command before))
    | multi =>
      exact hapart (by simp [touchesChannels, hname])
        (hanswer _ h (connections_multi clientId before))
    | discard =>
      exact hapart (by simp [touchesChannels, hname])
        (hanswer _ h (connections_discard clientId before))
    | exec =>
      refine hapart (by simp [touchesChannels, hname]) ?_
      rcases execOutcome_frame (executeTransaction_cases h) with rfl | ⟨_, _, _, _, _, rfl⟩ <;> rfl
    | _ => exact hapart (by simp [touchesChannels, hname]) (connections_queueOrRun h)

/-- The frames that the commands on channels put into queues. -/
structure Announces (Sends : Bytes → Prop) : Prop where
  acknowledged : ∀ payload, Acknowledges payload → Sends payload
  published : ∀ channel message,
    Sends (serializeResponse (.array [ascii "message", channel, message]))

theorem moves_processCommand (hannounces : Announces Sends)
    (h : before.processCommand host env clientId command source = some (response, after)) :
    Moves clientId Sends before.connections after.connections := by
  have hdelivery := delivery_processCommand h
  generalize after.connections = connections at hdelivery
  cases hdelivery with
  | apart _ => exact .refl
  | subscribed _ => exact moves_subscribe hannounces.acknowledged _ command _
  | unsubscribed _ => exact moves_unsubscribe hannounces.acknowledged _ command _
  | published _ => exact moves_publish hannounces.published _ command _
  | authenticated _ => exact moves_authenticate host _ command _

/-! ## Tasks -/

theorem connections_replyThroughPubsub (notification : Notification) (clientId : ClientId)
    (response : Response) (processor : Processor) :
    (processor.replyThroughPubsub notification clientId response).2.connections =
      (processor.connections.enqueuePubsubResponse notification clientId response).2 := by
  obtain ⟨reply, -, hreply⟩ := replyThroughPubsub_eq notification clientId response processor
  rw [hreply]

/-- The reply goes to the promise, or through the session of its own client. -/
theorem connections_finishTask (notification : Notification) (task : Task)
    (transaction : List Command) (succeeded : Bool) (response : Response) (processor : Processor) :
    (processor.finishTask notification task transaction succeeded response).connections =
        processor.connections ∨
      task.source = .client ∧ response ≠ .noResponse ∧
        processor.connections.isSubscribed task.clientId = true ∧
        (processor.finishTask notification task transaction succeeded response).connections =
          (processor.connections.enqueuePubsubResponse notification task.clientId response).2 := by
  have hend := finishTask_cases notification task transaction succeeded response processor
  generalize processor.finishTask notification task transaction succeeded response = after at hend ⊢
  cases hend with
  | replied _ _ => exact .inl rfl
  | published hclient hlistens hresponse =>
    exact .inr ⟨hclient, hresponse, hlistens, connections_replyThroughPubsub _ _ _ _⟩

theorem connections_rejectReplicaWrite (task : Task) (processor : Processor) :
    (processor.rejectReplicaWrite task).connections = processor.connections := by
  unfold rejectReplicaWrite
  cases processor.transactions.lookup task.clientId <;> rfl

theorem connections_propagateDirect (disk : Disk) (task : Task) (writeCommand : Bool)
    (response : Response) (processor : Processor) :
    (processor.propagateDirect disk task writeCommand response).2.connections =
      processor.connections := by
  obtain ⟨reply, file, errors, replication, hpropagate, -⟩ :=
    propagateDirect_cases disk task writeCommand response processor
  rw [hpropagate]

theorem touchesChannels_of_write (h : isWriteCommand host command = true) :
    touchesChannels command = false := by
  unfold isWriteCommand findCommandDefinition at h
  unfold touchesChannels
  cases hname : nameOf command with
  | none => rfl
  | some name => cases name <;> first | rfl | simp [hname, commandHandlers] at h

/-- **What a task can do to the connections.**  A command that was refused, or the
reply to one, may go through the session of its client. -/
inductive Delivery (host : Host) (env : Env) (task : Task) (before : Processor) : Connections → Prop
  | quiet (hgate : before.Refuses task ∨ touchesChannels task.command = false) :
      Delivery host env task before before.connections
  | refused {response : Response} (hrefuses : before.Refuses task)
      (hresponse : response = Acl.noAuth ∨ response = notAllowedWhileSubscribed task.command) :
      Delivery host env task before
        (before.connections.enqueuePubsubResponse env.replyNotification task.clientId response).2
  | commanded {response : Response} {middle : Processor} (hgate : ¬ before.Refuses task)
      (hcommand : before.processCommand host env.toCommandEnv task.clientId task.command
        task.source = some (response, middle)) :
      Delivery host env task before middle.connections
  | answered {response : Response} {middle : Processor} (hgate : ¬ before.Refuses task)
      (hclient : task.source = .client)
      (hcommand : before.processCommand host env.toCommandEnv task.clientId task.command
        task.source = some (response, middle))
      (hsent : (middle.propagateDirect env.disk task
        (!before.hasTransaction task.clientId && isWriteCommand host task.command)
        response).1 ≠ .noResponse)
      (hlistens : middle.connections.isSubscribed task.clientId = true) :
      Delivery host env task before
        (middle.connections.enqueuePubsubResponse env.replyNotification task.clientId
          (middle.propagateDirect env.disk task
            (!before.hasTransaction task.clientId && isWriteCommand host task.command)
            response).1).2

theorem delivery_processTask {env : Env} {task : Task}
    (h : before.processTask host env task = some after) :
    Delivery host env task before after.connections := by
  cases processTask_cases h with
  | refused connections hrefuses _ hsent =>
    rcases hsent with rfl | ⟨-, text, htext, rfl⟩
    · exact .quiet (.inl hrefuses)
    · exact .refused hrefuses htext
  | rejected hrejects =>
    rw [connections_rejectReplicaWrite]
    exact .quiet (.inr (touchesChannels_of_write hrejects.2.2))
  | popped hname houtcome | read hname houtcome | waited hname houtcome =>
    rw [(houtcome.attempts host).accounts.connections]
    exact .quiet (.inr (by simp [touchesChannels, hname]))
  | @direct response middle hgate hcommand _ =>
    have hsame := connections_propagateDirect env.disk task
      (!before.hasTransaction task.clientId && isWriteCommand host task.command) response middle
    rcases connections_finishTask env.replyNotification task (before.transactionOf task)
      (!responseIsError response)
      (middle.propagateDirect env.disk task
        (!before.hasTransaction task.clientId && isWriteCommand host task.command) response).1
      (middle.propagateDirect env.disk task
        (!before.hasTransaction task.clientId && isWriteCommand host task.command) response).2
      with hquiet | ⟨hclient, hsent, hlistens, hreply⟩
    · rw [hquiet, hsame]
      exact .commanded hgate hcommand
    · rw [hreply, hsame]
      exact .answered hgate hclient hcommand hsent (hsame ▸ hlistens)

/-- **A task moves the connections on behalf of its client.**  `Replies` holds of the
responses that are sent through a session. -/
theorem moves_processTask {Replies : Response → Prop} (hannounces : Announces Sends)
    (hreplies : ∀ response, Replies response → Sends (serializeResponse response))
    {env : Env} {task : Task} {before after : Processor}
    (hrefused : task.source = .client →
      Replies Acl.noAuth ∧ Replies (notAllowedWhileSubscribed task.command))
    (hanswered : task.source = .client → ∀ response middle,
      before.processCommand host env.toCommandEnv task.clientId task.command task.source =
        some (response, middle) →
      Replies (middle.propagateDirect env.disk task
        (!before.hasTransaction task.clientId && isWriteCommand host task.command) response).1)
    (h : before.processTask host env task = some after) :
    Moves task.clientId Sends before.connections after.connections := by
  have hdelivery := delivery_processTask h
  generalize after.connections = connections at hdelivery
  cases hdelivery with
  | quiet _ => exact .refl
  | refused hrefuses hresponse =>
    obtain ⟨hunknown, hsubscribed⟩ := hrefused hrefuses.1
    refine moves_enqueuePubsubResponse (hreplies _ ?_) _ _
    rcases hresponse with rfl | rfl
    · exact hunknown
    · exact hsubscribed
  | commanded _ hcommand => exact moves_processCommand hannounces hcommand
  | answered _ hclient hcommand _ _ =>
    refine (moves_processCommand hannounces hcommand).trans ?_
    exact moves_enqueuePubsubResponse (hreplies _ (hanswered hclient _ _ hcommand)) _ _

/-! ## Whatever is sent -/

theorem announces_true : Announces fun _ => True := ⟨fun _ _ => trivial, fun _ _ => trivial⟩

theorem moved_processTask {env : Env} {task : Task}
    (h : before.processTask host env task = some after) :
    Moves task.clientId (fun _ => True) before.connections after.connections :=
  @moves_processTask host (fun _ => True) (fun _ => True) announces_true (fun _ _ => trivial)
    env task before after (fun _ => ⟨trivial, trivial⟩) (fun _ _ _ _ => trivial) h

/-- The recovery from a log acts as a client of its own. -/
theorem moved_processAofInitialization {envs : Stream' CommandEnv} {file : AppendOnlyFile}
    {commands : List Command} {result : Except Bytes Unit}
    (h : before.processAofInitialization host envs file commands = some (result, after)) :
    Moves aofClientId (fun _ => True) before.connections after.connections := by
  obtain ⟨replayed, middle, log, hreplay, -, rfl⟩ := processAofInitialization_cases h
  have hmiddle := replay_invariant (fun state : Processor =>
      Moves aofClientId (fun _ => True) before.connections state.connections)
    (fun _ hfirst hcommand => hfirst.trans (moves_processCommand announces_true hcommand)) .refl
    hreplay
  exact hmiddle

end Processor

end RedisServer
