import RedisServer.Processor.Broadcast
import RedisServer.Processor.Deliveries
import RedisServer.Processor.Promises

/-!
# Clients that stay outside

A client that has not authenticated is registered at most.  It hears no channel,
none of its commands waits for anything, and no replica session is its own
(`Outside`).  What is done for others leaves it outside, and nothing of it is for
this client (`SendsNothing`): a task moves the connections on behalf of its own client,
a pass answers the commands that it finds, and only a registration makes a replica.
-/

namespace RedisServer

open Resp Commands Aof Connections Replication

variable {phase : Phase}

/-! ## Connections -/

namespace Connections

/-- The client is registered at most, and every session is known by its client. -/
structure Outside (clientId : ClientId) (connections : Connections) : Prop where
  unauthenticated : ∀ client, connections.clients.lookup clientId = some client →
    client.authenticated = false
  ownSession : ∀ other client, connections.clients.lookup other = some client →
    client.pubsubSession = other
  unsubscribed : connections.clientSubscriptions.lookup clientId = none
  unheard : ¬ Hears clientId connections

variable {clientId actor : ClientId} {Sends : Bytes → Prop} {before after : Connections}

theorem Outside.isSubscribed (h : Outside clientId before) :
    before.isSubscribed clientId = false := by
  rw [Connections.isSubscribed, h.unsubscribed, Option.isSome_none]

/-- A registration that goes leaves the others as they are. -/
theorem Outside.erase (h : Outside clientId before) (other : ClientId) :
    Outside clientId { before with clients := before.clients.erase other } where
  unauthenticated client hclient :=
    h.unauthenticated client (lookup_of_erase hclient)
  ownSession owner client hclient :=
    h.ownSession owner client (lookup_of_erase hclient)
  unsubscribed := h.unsubscribed
  unheard := h.unheard

/-- What the client of a move does leaves an outsider where it is: the mover is
another client, or it is not even registered. -/
theorem Outside.move (h : Outside clientId before)
    (hactor : actor ≠ clientId ∨ before.clients.lookup clientId = none)
    (hmove : Move actor Sends before after) :
    Outside clientId after ∧ after.sessions.lookup clientId = before.sessions.lookup clientId ∧
      (before.clients.lookup clientId = none → after.clients.lookup clientId = none) := by
  have hne : ∀ {client}, before.clients.lookup actor = some client → clientId ≠ actor := by
    rintro client hclient rfl
    rcases hactor with hself | hnone
    · exact hself rfl
    · rw [hnone] at hclient
      cases hclient
  cases hmove with
  | forget other _ => exact ⟨h.erase other, rfl, lookup_erase_of_none⟩
  | @leave other channels remaining _ hchannels =>
    have hother : clientId ≠ other := by
      rintro rfl
      rw [h.unsubscribed] at hchannels
      cases hchannels
    have hkept := (subscriptions_setChannels_ne hother remaining before).trans h.unsubscribed
    obtain ⟨clientSubscriptions, hset⟩ := setChannels_eq other remaining before
    rw [hset] at hkept ⊢
    exact ⟨⟨h.unauthenticated, h.ownSession, hkept, h.unheard⟩, rfl, id⟩
  | audience hfewer =>
    exact ⟨⟨h.unauthenticated, h.ownSession, h.unsubscribed,
      fun hhears => h.unheard (hfewer clientId hhears)⟩, rfl, id⟩
  | join hclient channel =>
    have hself := hne hclient
    refine ⟨⟨h.unauthenticated, h.ownSession,
      (AList.lookup_insert_ne hself).trans h.unsubscribed, ?_⟩, rfl, id⟩
    rintro ⟨heard, listeners, hlookup, hmem⟩
    by_cases hheard : heard = channel
    · subst hheard
      simp only [addSubscription, AList.lookup_insert, Option.some.injEq] at hlookup
      subst hlookup
      cases hlisteners : before.channelSubscribers.lookup heard with
      | none => simp [hlisteners, hself] at hmem
      | some subscribers =>
        refine h.unheard ⟨heard, subscribers, hlisteners, ?_⟩
        simpa [hlisteners, List.mem_insert_iff, hself] using hmem
    · refine h.unheard ⟨heard, listeners, ?_, hmem⟩
      simpa only [addSubscription, AList.lookup_insert_ne hheard] using hlookup
  | @deliver recipient client pending payload _ notification hclient hsession hrecipient hsends =>
    have hother : clientId ≠ client.pubsubSession := by
      rw [h.ownSession recipient client hclient]
      rcases hrecipient with rfl | hhears
      · exact hne hclient
      · rintro rfl
        exact h.unheard hhears
    exact ⟨{ h with },
      AList.lookup_insert_ne hother, id⟩
  | @logIn client _ hclient =>
    have hself := hne hclient
    refine ⟨⟨fun found hfound => ?_, fun owner found hfound => ?_, h.unsubscribed, h.unheard⟩,
      rfl, (AList.lookup_insert_ne hself).trans⟩
    · exact h.unauthenticated found ((AList.lookup_insert_ne hself).symm.trans hfound)
    · by_cases howner : owner = actor
      · subst howner
        simp only [AList.lookup_insert, Option.some.injEq] at hfound
        subst hfound
        exact h.ownSession owner client hclient
      · exact h.ownSession owner found ((AList.lookup_insert_ne howner).symm.trans hfound)

theorem Outside.moves (h : Outside clientId before)
    (hactor : actor ≠ clientId ∨ before.clients.lookup clientId = none)
    (hmoves : Moves actor Sends before after) :
    Outside clientId after ∧ after.sessions.lookup clientId = before.sessions.lookup clientId ∧
      (before.clients.lookup clientId = none → after.clients.lookup clientId = none) := by
  induction hmoves with
  | refl => exact ⟨h, rfl, id⟩
  | tail _ hmove ih =>
    obtain ⟨houtside, hsessions, hnone⟩ := ih
    obtain ⟨houtside', hsessions', hnone'⟩ := houtside.move (hactor.imp_right hnone) hmove
    exact ⟨houtside', hsessions'.trans hsessions, hnone' ∘ hnone⟩

end Connections

/-! ## Replica sessions -/

namespace Replication

/-- No replica session belongs to the client. -/
def Unserved (clientId : ClientId) (replication : Replication) : Prop :=
  ∀ session found, replication.sessions.lookup session = some found → found.clientId ≠ clientId

variable {clientId : ClientId} {replication : Replication}

theorem clientId_enqueue (frame : ReplicationFrame) (session : ReplicaSession) :
    (session.enqueue frame).clientId = session.clientId := by
  unfold ReplicaSession.enqueue
  split <;> rfl

theorem clientId_sendFrame (session : ReplicaSession) :
    session.sendFrame.clientId = session.clientId := by
  unfold ReplicaSession.sendFrame
  split
  · rfl
  · split <;> rfl

/-- A frame does not change whom a session belongs to. -/
theorem Unserved.enqueueTo (frame : ReplicationFrame) (targets : List SessionId)
    {sessions : AList fun _ : SessionId => ReplicaSession}
    (h : ∀ session found, sessions.lookup session = some found → found.clientId ≠ clientId) :
    ∀ session found,
      (targets.foldl (Replication.enqueueTo frame) sessions).lookup session = some found →
        found.clientId ≠ clientId := by
  induction targets generalizing sessions with
  | nil => exact h
  | cons target rest ih =>
    refine ih fun session found hfound => ?_
    unfold Replication.enqueueTo at hfound
    cases htarget : sessions.lookup target with
    | none =>
      rw [htarget] at hfound
      exact h session found hfound
    | some current =>
      simp only [htarget] at hfound
      by_cases hsession : session = target
      · subst hsession
        rw [AList.lookup_insert, Option.some.injEq] at hfound
        rw [← hfound, clientId_enqueue]
        exact h session current htarget
      · rw [AList.lookup_insert_ne hsession] at hfound
        exact h session found hfound

theorem Unserved.updateSession (h : Unserved clientId replication) (session : SessionId)
    {update : ReplicaSession → ReplicaSession}
    (hupdate : ∀ found, (update found).clientId = found.clientId) :
    Unserved clientId (replication.updateSession session update) := by
  intro other found hfound
  obtain ⟨earlier, hearlier, rfl⟩ := Sound.lookup_updateSession hfound
  split
  · rw [hupdate]
    exact h other earlier hearlier
  · exact h other earlier hearlier

/-- Only its registration as a replica gives a client a session. -/
theorem Unserved.perform (h : Unserved clientId replication) {action : Action}
    (haction : action ≠ .register clientId) : Unserved clientId (replication.perform action) := by
  cases action with
  | write author payload => exact Unserved.enqueueTo _ _ h
  | ask payload => exact Unserved.enqueueTo _ _ h
  | register other =>
    intro session found hfound
    simp only [Replication.perform, registerReplica] at hfound
    by_cases hnew : session = replication.nextSession
    · subst hnew
      rw [AList.lookup_insert, Option.some.injEq] at hfound
      subst hfound
      exact fun heq => haction (congrArg Action.register heq)
    · rw [AList.lookup_insert_ne hnew] at hfound
      exact h session found hfound
  | send session => exact h.updateSession session clientId_sendFrame
  | close session => exact h.updateSession session fun _ => rfl
  | drop session => exact fun other found hfound => h other found (lookup_of_erase hfound)
  | prune | acknowledge _ _ | forget _ => exact h

end Replication

/-! ## Phases -/

/-- The phase acts for other clients, and on their sessions. -/
def Phase.Spares (clientId : ClientId) (processor : Processor) : Phase → Prop
  | .task _ (.command other _ _ _) | .task _ (.registerReplica other)
  | .task _ (.unregisterClient other) => other ≠ clientId
  | .task _ (.registerClient other session) => other ≠ clientId ∧ session = other
  | .task _ (.initializeAof _ _) => processor.connections.clients.lookup clientId = none
  | .external (.createSession session) | .external (.popFrame session)
  | .external (.dropSession session) => session ≠ clientId
  | _ => True

namespace Processor

variable {host : Host} {clientId : ClientId} {before after : Processor}

/-- The client has not authenticated, and nothing is under way for it. -/
structure Outside (clientId : ClientId) (processor : Processor) : Prop where
  connections : processor.connections.Outside clientId
  idle : ∀ task ∈ processor.pendingTasks, task.clientId ≠ clientId
  unserved : processor.replication.Unserved clientId

/-- What goes to a client: the replies to its commands, the frames in its queue and
those of its replica sessions.  Nothing was added. -/
structure SendsNothing (clientId : ClientId) (before after : Processor) : Prop where
  replies : after.replies.filter (fun reply => reply.task.clientId = clientId) =
    before.replies.filter fun reply => reply.task.clientId = clientId
  frames : after.connections.sessions.lookup clientId =
    before.connections.sessions.lookup clientId
  relayed : ∀ session found, after.replication.sessions.lookup session = some found →
    found.clientId = clientId → ∃ earlier,
      before.replication.sessions.lookup session = some earlier ∧
        earlier.clientId = clientId ∧ found.frames = earlier.frames

namespace SendsNothing

theorem refl (processor : Processor) : SendsNothing clientId processor processor :=
  ⟨rfl, rfl, fun _ found hfound hself => ⟨found, hfound, hself, rfl⟩⟩

theorem trans {first second third : Processor} (h₁ : SendsNothing clientId first second)
    (h₂ : SendsNothing clientId second third) : SendsNothing clientId first third where
  replies := h₂.replies.trans h₁.replies
  frames := h₂.frames.trans h₁.frames
  relayed session found hfound hself := by
    obtain ⟨middle, hmiddle, hself', hframes⟩ := h₂.relayed session found hfound hself
    obtain ⟨earlier, hearlier, hself'', hframes'⟩ := h₁.relayed session middle hmiddle hself'
    exact ⟨earlier, hearlier, hself'', hframes.trans hframes'⟩

end SendsNothing

/-- What a phase for others leaves of the connections of an outsider. -/
def KeepsOut (clientId : ClientId) (before after : Connections) : Prop :=
  after.Outside clientId ∧ after.sessions.lookup clientId = before.sessions.lookup clientId ∧
    (before.clients.lookup clientId = none → after.clients.lookup clientId = none)

theorem keepsOut_task (h : before.connections.Outside clientId) {env : Env}
    {work : ProcessorTask} (hspares : (Phase.task env work).Spares clientId before)
    (hperform : work.perform host env before = some after) :
    KeepsOut clientId before.connections after.connections := by
  cases work with
  | command other words source replicationBytes =>
    have hmoves : Moves other (fun _ => True)
        { before with nextPromise := before.nextPromise + 1 }.connections after.connections :=
      moved_processTask hperform
    exact h.moves (.inl hspares) hmoves
  | initializeAof file commands =>
    obtain ⟨⟨result, final⟩, hinitialize, rfl⟩ := Option.map_eq_some_iff.mp hperform
    exact h.moves (.inr hspares) (moved_processAofInitialization hinitialize)
  | registerClient other session =>
    obtain ⟨hother, rfl⟩ := hspares
    cases hperform
    refine ⟨⟨fun client hclient => ?_, fun owner client hclient => ?_, h.unsubscribed, h.unheard⟩,
      rfl, (AList.lookup_insert_ne hother.symm).trans⟩
    · exact h.unauthenticated client ((AList.lookup_insert_ne hother.symm).symm.trans hclient)
    · by_cases howner : owner = session
      · subst howner
        have hfound := (AList.lookup_insert _).symm.trans hclient
        rw [← Option.some.inj hfound]
      · exact h.ownSession owner client ((AList.lookup_insert_ne howner).symm.trans hclient)
  | unregisterClient other =>
    cases hperform
    have hsame := (attempts_cancelPendingCommands host other before).accounts.connections
    have hmoves : Moves other (fun _ => True) before.connections
        (before.connections.unregister other) := moves_unregister other before.connections
    simp only [processClientUnregistration, hsame]
    exact h.moves (.inl hspares) hmoves
  | _ =>
    cases hperform
    exact ⟨h, rfl, id⟩

theorem keepsOut_external (h : before.connections.Outside clientId) {event : External}
    (hspares : (Phase.external event).Spares clientId before) :
    KeepsOut clientId before.connections (event.perform before).connections := by
  have hinsert : ∀ session frames, session ≠ clientId →
      KeepsOut clientId before.connections { before.connections with
        sessions := before.connections.sessions.insert session frames } :=
    fun session frames hsession =>
      ⟨{ h with },
        AList.lookup_insert_ne hsession.symm, id⟩
  cases event with
  | createSession session =>
    simp only [External.perform]
    split
    · exact ⟨h, rfl, id⟩
    · exact hinsert session [] hspares
  | popFrame session =>
    simp only [External.perform]
    split
    · exact ⟨h, rfl, id⟩
    · exact hinsert session _ hspares
  | dropSession session =>
    exact ⟨{ h with },
      AList.lookup_erase_ne (Ne.symm hspares), id⟩
  | _ => exact ⟨h, rfl, id⟩

theorem keepsOut_perform (h : before.connections.Outside clientId)
    (hspares : phase.Spares clientId before) (hperform : phase.perform host before = some after) :
    KeepsOut clientId before.connections after.connections := by
  rcases perform_cases hperform with ⟨env, work, rfl, hwork⟩ | ⟨event, rfl, rfl⟩ | ⟨-, -, hpass⟩
  · exact keepsOut_task h hspares hwork
  · exact keepsOut_external h hspares
  · rw [hpass.accounts.connections]
    exact ⟨h, rfl, id⟩

theorem unserved_perform (h : before.replication.Unserved clientId)
    (hspares : phase.Spares clientId before) (hperform : phase.perform host before = some after) :
    after.replication.Unserved clientId := by
  refine replication_rule (fun hordinary hunserved => hunserved.perform ?_)
    (fun haction hunserved => hunserved.perform ?_) (fun _ hunserved => hunserved)
    (fun _ hunserved => hunserved) h hperform
  · rintro rfl
    exact hordinary
  · -- The only phase that registers a replica does so for another client.
    rintro rfl
    unfold Phase.action at haction
    split at haction
    · unfold ProcessorTask.action at haction
      split at haction <;> cases haction
      exact hspares rfl
    · unfold External.action at haction
      split at haction <;> cases haction
    · cases haction

/-- The client stays outside, and unregistered if it was; nothing is sent to it. -/
structure Spared (clientId : ClientId) (before after : Processor) : Prop where
  outside : after.Outside clientId
  silent : SendsNothing clientId before after
  unregistered : before.connections.clients.lookup clientId = none →
    after.connections.clients.lookup clientId = none

/-- **What is done for others spares an outsider.** -/
theorem spared_perform (h : before.Outside clientId) (hspares : phase.Spares clientId before)
    (hperform : phase.perform host before = some after) : Spared clientId before after := by
  obtain ⟨hconnections, hframes, hunregistered⟩ := keepsOut_perform h.connections hspares hperform
  have hunserved := unserved_perform h.unserved hspares hperform
  obtain ⟨answered, hreplies, htasks⟩ := answered_perform hperform
  -- Neither what was submitted nor what waited is a command of this client.
  have hothers : ∀ task ∈ (answered.map Reply.task : Multiset Task) + after.pendingTasks,
      task.clientId ≠ clientId := by
    intro task htask
    rw [htasks, Multiset.mem_add, Multiset.mem_coe, Multiset.mem_coe] at htask
    rcases htask with hsubmitted | hpending
    · obtain ⟨submit, hsubmit, rfl⟩ := Option.map_eq_some_iff.mp (Option.mem_toList.mp hsubmitted)
      unfold Phase.submits at hsubmit
      split at hsubmit
      · cases hsubmit
        exact hspares
      · cases hsubmit
    · exact h.idle task hpending
  have hnone : answered.filter (fun reply => reply.task.clientId = clientId) = [] := by
    refine List.filter_eq_nil_iff.mpr fun reply hreply => ?_
    simpa using hothers reply.task (Multiset.mem_add.mpr (.inl (List.mem_map_of_mem hreply)))
  refine ⟨⟨hconnections, fun task htask => ?_, hunserved⟩, ⟨?_, hframes, ?_⟩, hunregistered⟩
  · exact hothers task (Multiset.mem_add.mpr (.inr htask))
  · rw [hreplies, List.filter_append, hnone, List.append_nil]
  · exact fun session found hfound hself => absurd hself (hunserved session found hfound)

theorem spared_run (h : before.Outside clientId) {phases : List Phase}
    (hspares : ∀ phase ∈ phases, ∀ processor : Processor,
      (before.connections.clients.lookup clientId = none →
        processor.connections.clients.lookup clientId = none) → phase.Spares clientId processor)
    (hrun : runPhases host phases before = some after) : Spared clientId before after := by
  have hstep : ∀ (phase : Phase) (state next : Processor),
      (∀ processor : Processor, (before.connections.clients.lookup clientId = none →
        processor.connections.clients.lookup clientId = none) → phase.Spares clientId processor) →
      state.Outside clientId ∧ (before.connections.clients.lookup clientId = none →
        state.connections.clients.lookup clientId = none) →
      phase.perform host state = some next →
        (next.Outside clientId ∧ (before.connections.clients.lookup clientId = none →
          next.connections.clients.lookup clientId = none)) ∧ SendsNothing clientId state next := by
    rintro phase state next hphase ⟨houtside, hunregistered⟩ hnext
    have hspared := spared_perform houtside (hphase state hunregistered) hnext
    exact ⟨⟨hspared.outside, hspared.unregistered ∘ hunregistered⟩, hspared.silent⟩
  obtain ⟨⟨houtside, hunregistered⟩, hsilent⟩ :=
    Runs.run_relation SendsNothing.refl (fun _ _ _ => SendsNothing.trans) hstep hspares ⟨h, id⟩ hrun
  exact ⟨houtside, hsilent, hunregistered⟩

/-! ## Its own commands -/

/-- A failed login changes nothing, a successful one the mark of its client. -/
theorem login_cases (host : Host) (user : User) (clientId : ClientId) (username password : Bytes)
    (connections : Connections) :
    (Acl.login host user clientId username password connections).2 = connections ∨
      (Acl.login host user clientId username password connections).1 = Commands.ok ∧
        ∃ clients, (Acl.login host user clientId username password connections).2 =
          { connections with clients } := by
  unfold Acl.login
  cases connections.clients.lookup clientId with
  | none => exact .inl rfl
  | some client =>
    simp only
    split
    · exact .inl rfl
    · split
      · exact .inr ⟨rfl, _, rfl⟩
      · split
        · exact .inl rfl
        · split
          · exact .inr ⟨rfl, _, rfl⟩
          · exact .inl rfl

theorem authenticate_cases (host : Host) (user : User) (clientId : ClientId) (command : Command)
    (connections : Connections) :
    (Acl.authenticate host user clientId command connections).2 = connections ∨
      (Acl.authenticate host user clientId command connections).1 = Commands.ok ∧
        ∃ clients, (Acl.authenticate host user clientId command connections).2 =
          { connections with clients } := by
  match command with
  | [_, password] => exact login_cases host user clientId _ password connections
  | [_, username, password] => exact login_cases host user clientId username password connections
  | [] | [_] | _ :: _ :: _ :: _ :: _ => exact .inl rfl

/-- The gate: whatever the command, there is one answer. -/
theorem processTask_outside (h : before.Outside clientId) (env : Env) {task : Task}
    (hclient : task.source = .client) (hown : task.clientId = clientId)
    (hname : nameOf task.command ≠ some .auth) :
    before.processTask host env task = some (before.fulfil task [] Acl.noAuth) := by
  have hunknown : before.isAuthenticated task.clientId = false := by
    rw [isAuthenticated, hown]
    cases hlookup : before.connections.clients.lookup clientId with
    | none => rfl
    | some client => exact h.connections.unauthenticated client hlookup
  have hsubscribed : before.connections.isSubscribed task.clientId = false :=
    hown ▸ h.connections.isSubscribed
  rw [processTask, if_pos ⟨hclient, hname, by rw [hunknown]; rfl⟩, refuseUnauthenticated,
    hsubscribed]
  rfl

/-- An `AUTH` compares its credentials and does nothing else. -/
theorem processTask_auth (h : before.Outside clientId) (env : Env) {task : Task}
    (hclient : task.source = .client) (hown : task.clientId = clientId)
    (hname : nameOf task.command = some .auth) :
    before.processTask host env task =
      some ({ before with
        connections := (Acl.authenticate host before.defaultUser clientId task.command
          before.connections).2 }.fulfil task [] (Acl.authenticate host before.defaultUser
            clientId task.command before.connections).1) := by
  have hsubscribed : before.connections.isSubscribed task.clientId = false :=
    hown ▸ h.connections.isSubscribed
  have hgate : ¬ before.Refuses task := by
    rintro ⟨-, ⟨hother, -⟩ | ⟨hlistens, -⟩⟩
    · exact hother hname
    · rw [hsubscribed] at hlistens
      cases hlistens
  have hread : isWriteCommand host task.command = false := by
    rw [isWriteCommand_of_name hname]
    rfl
  have hcommand : before.processCommand host env.toCommandEnv task.clientId task.command
      task.source = some (before.answerFrom
        (Acl.authenticate host before.defaultUser clientId task.command before.connections)) := by
    have hne : task.command ≠ [] := by
      intro hempty
      rw [hempty] at hname
      cases hname
    rw [processCommand, if_neg hne, hname, hown]
  have hunsubscribed : (Acl.authenticate host before.defaultUser clientId task.command
      before.connections).2.isSubscribed task.clientId = false := by
    rcases authenticate_cases host before.defaultUser clientId task.command before.connections with
      hsame | ⟨-, clients, hsame⟩
    · rw [hsame]
      exact hsubscribed
    · rw [hsame]
      exact hsubscribed
  rw [processTask_direct hgate (.inr (.inr hread)) (.inr (by simp [hname])), processDirect, hcommand,
    hread, Bool.and_false, Option.map_some, answerFrom]
  simp only [propagateDirect_read]
  rw [finishTask_client hclient (by exact hunsubscribed), transactionOf,
    if_neg (by simp [hname])]

/-- Its own departure leaves a client outside. -/
theorem Outside.unregister (h : before.Outside clientId) :
    (before.processClientUnregistration clientId).Outside clientId := by
  have hperform : (Phase.task (Env.still ⟨0, 0⟩) (.unregisterClient clientId)).perform Host.plain
      before = some (before.processClientUnregistration clientId) := rfl
  have hsame := (attempts_cancelPendingCommands Host.plain clientId before).accounts.connections
  have hmoves : Moves (clientId + 1) (fun _ => True) before.connections
      (before.connections.unregister clientId) := moves_unregister clientId before.connections
  obtain ⟨answered, -, htasks⟩ := answered_perform hperform
  refine ⟨?_, fun task htask => ?_, ?_⟩
  · simp only [processClientUnregistration, hsame]
    exact (h.connections.moves (.inl (Nat.succ_ne_self clientId)) hmoves).1
  · have hmem : task ∈ (answered.map Reply.task : Multiset Task) +
        (before.processClientUnregistration clientId).pendingTasks :=
      Multiset.mem_add.mpr (.inr htask)
    rw [htasks] at hmem
    exact h.idle task (by simpa [Phase.submits] using hmem)
  · simp only [processClientUnregistration, replication_cancelPendingCommands]
    exact h.unserved

/-- What happens to the queues of frames does not matter. -/
theorem Outside.sessions (h : before.Outside clientId)
    (sessions : AList fun _ : SessionId => List Bytes) :
    { before with connections := { before.connections with sessions } }.Outside clientId :=
  ⟨⟨h.connections.unauthenticated, h.connections.ownSession, h.connections.unsubscribed,
    h.connections.unheard⟩, h.idle, h.unserved⟩

end Processor

end RedisServer
