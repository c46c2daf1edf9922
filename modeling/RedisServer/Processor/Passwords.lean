import RedisServer.Connections.Frame
import RedisServer.Processor.Deliveries
import RedisServer.Processor.Promises

/-!
# Passwords

Which passwords are accepted is decided by the rules of all `ACL SETUSER` commands that
were answered with `OK`, in their order, behind the password that the server was started
with: those that were added since the last `nopass` (`Acl.Grants`).  The user keeps their
hashes only, so SHA-256 is assumed to succeed and to have no collisions.

`Acl.Configured` relates the user to the rules so far.  One command applies its rules or,
if one of them is bad, none of them; whatever else the worker does leaves the user alone
(`user_perform`).
-/

namespace RedisServer

open Resp Commands Aof Connections

variable {command : Command} {response : Response} {before after : Processor} {env : CommandEnv}
  {clientId : ClientId} {source : CommandSource} {commands : List Command}
  {envs : Stream' CommandEnv} {result : Except Bytes Unit}

/-! ## Rules -/

namespace Acl

/-- The rules behind the last `nopass`. -/
def sinceNopass (rules : List Bytes) : List Bytes :=
  (rules.reverse.takeWhile fun rule => decide (rule ≠ ascii "nopass")).reverse

/-- The password was added, and no `nopass` came after that. -/
def Grants (rules : List Bytes) (password : Bytes) : Prop := 62 :: password ∈ sinceNopass rules

theorem grants_nopass (rules : List Bytes) (password : Bytes) :
    ¬ Grants (rules ++ [ascii "nopass"]) password := by
  simp [Grants, sinceNopass]

theorem grants_concat {rule : Bytes} (hrule : rule ≠ ascii "nopass") (rules : List Bytes)
    (password : Bytes) :
    Grants (rules ++ [rule]) password ↔ Grants rules password ∨ rule = 62 :: password := by
  simp [Grants, sinceNopass, hrule, eq_comm]

/-- The user is what the rules make of it. -/
structure Configured (host : Host) (rules : List Bytes) (user : User) : Prop where
  hashes : ∀ passwordHash, passwordHash ∈ user.passwordHashes ↔
    ∃ password, Grants rules password ∧ host.sha256 password = .ok passwordHash
  noPassword : user.noPassword = true ↔ user.passwordHashes = []

variable {host : Host} {rules : List Bytes} {user updated : User}

theorem configured_nopass (host : Host) (rules : List Bytes) :
    Configured host (rules ++ [ascii "nopass"]) ⟨true, []⟩ where
  hashes passwordHash := by simp [grants_nopass]
  noPassword := by simp

theorem Configured.add (h : Configured host rules user) {password passwordHash : Bytes}
    (hhash : host.sha256 password = .ok passwordHash)
    (hrule : 62 :: password ≠ ascii "nopass") :
    Configured host (rules ++ [62 :: password])
      ⟨false, user.passwordHashes.insert passwordHash⟩ where
  hashes other := by
    simp only [List.mem_insert_iff, h.hashes, grants_concat hrule, List.cons.injEq, true_and]
    constructor
    · rintro (rfl | ⟨known, hknown, hother⟩)
      · exact ⟨password, .inr rfl, hhash⟩
      · exact ⟨known, .inl hknown, hother⟩
    · rintro ⟨known, hknown | rfl, hother⟩
      · exact .inr ⟨known, hknown, hother⟩
      · rw [hhash] at hother
        exact .inl (Except.ok.inj hother).symm
  noPassword := by
    have hne : user.passwordHashes.insert passwordHash ≠ [] :=
      List.ne_nil_of_mem List.mem_insert_self
    simp [hne]

/-- **The rules of one command are applied one after the other.** -/
theorem Configured.applyRules {more : List Bytes} (h : Configured host rules user)
    (happly : Acl.applyRules host more user = .ok updated) :
    Configured host (rules ++ more) updated := by
  fun_induction Acl.applyRules host more user generalizing rules with
  | case1 user =>
    cases happly
    rwa [List.append_nil]
  | case2 user rest ih =>
    have hrest := ih (configured_nopass host rules) happly
    rwa [List.append_assoc] at hrest
  | case3 => cases happly
  | case4 user rest first password passwordHash hhash hrule ih =>
    have hrest := ih (h.add hhash hrule) happly
    rwa [List.append_assoc] at hrest
  | case5 => cases happly

theorem applyRules_append {first second : List Bytes} {middle : User}
    (hfirst : Acl.applyRules host first user = .ok middle)
    (hsecond : Acl.applyRules host second middle = .ok updated) :
    Acl.applyRules host (first ++ second) user = .ok updated := by
  fun_induction Acl.applyRules host first user with
  | case1 user =>
    cases hfirst
    exact hsecond
  | case2 user rest ih => simpa [Acl.applyRules] using ih hfirst
  | case3 => cases hfirst
  | case4 user rest first password passwordHash hhash hrule ih =>
    simpa [Acl.applyRules, hrule, hhash] using ih hfirst
  | case5 => cases hfirst

/-- What the server is started with, as a rule. -/
def startRules (requirepass : Option Bytes) : List Bytes :=
  match requirepass with
  | none => [ascii "nopass"]
  | some password => [62 :: password]

/-- The default user that the server is started with. -/
def startUser (host : Host) (requirepass : Option Bytes) : User :=
  User.default (requirepass.bind fun password => (host.sha256 password).toOption)

/-- SHA-256 succeeds, and different passwords have different hashes. -/
structure Ideal (host : Host) : Prop where
  succeeds : ∀ password, ∃ passwordHash, host.sha256 password = .ok passwordHash
  injective : ∀ first second passwordHash, host.sha256 first = .ok passwordHash →
    host.sha256 second = .ok passwordHash → first = second

theorem configured_start (hideal : Ideal host) (requirepass : Option Bytes) :
    Configured host (startRules requirepass) (startUser host requirepass) := by
  cases requirepass with
  | none => exact configured_nopass host []
  | some password =>
    obtain ⟨passwordHash, hhash⟩ := hideal.succeeds password
    have huser : startUser host (some password) = ⟨false, [passwordHash]⟩ := by
      simp [startUser, User.default, hhash, Except.toOption]
    have hrule : 62 :: password ≠ ascii "nopass" := by
      intro h
      cases h
    have hnone : Configured host [] ⟨true, []⟩ := ⟨by simp [Grants, sinceNopass], by simp⟩
    rw [huser]
    exact hnone.add hhash hrule

theorem matches_iff (hideal : Ideal host) (h : Configured host rules user) (password : Bytes) :
    Matches host user password ↔ user.noPassword = true ∨ Grants rules password := by
  refine or_congr_right ?_
  constructor
  · rintro ⟨passwordHash, hhash, hmem⟩
    obtain ⟨known, hknown, hother⟩ := (h.hashes passwordHash).mp hmem
    rwa [hideal.injective password known passwordHash hhash hother]
  · intro hgranted
    obtain ⟨passwordHash, hhash⟩ := hideal.succeeds password
    exact ⟨passwordHash, hhash, (h.hashes passwordHash).mpr ⟨password, hgranted, hhash⟩⟩

end Acl

/-! ## Commands -/

/-- The response is an `OK`. -/
def Resp.Response.isOk : Response → Bool
  | .simpleString text => text == ascii "OK"
  | _ => false

theorem Resp.Response.isOk_iff (response : Response) : response.isOk = true ↔ response = ok := by
  cases response <;> simp [Response.isOk, ok]

namespace Acl

/-- The rules of an `ACL SETUSER` of the default user that was answered with `OK`. -/
def successfulRules (command : Command) (response : Response) : List Bytes :=
  match command with
  | name :: subcommand :: username :: rules =>
    if name = CommandName.acl.text ∧ subcommand = ascii "SETUSER" ∧
        username = ascii "default" ∧ response.isOk then rules
    else []
  | _ => []

theorem successfulRules_of_name (h : nameOf command ≠ some .acl) (response : Response) :
    successfulRules command response = [] := by
  unfold successfulRules
  split
  · refine if_neg fun hrules => h ?_
    exact nameOf_cons.mpr hrules.1
  · rfl

theorem successfulRules_of_refused (command : Command) (h : response.isOk = false) :
    successfulRules command response = [] := by
  unfold successfulRules
  split
  · exact if_neg fun hrules => by simp [h] at hrules
  · rfl

variable {host : Host}

/-- An `ACL` command applies all of its rules, or none of them. -/
theorem applyRules_processAclCommand (hname : nameOf command = some .acl) (clientId : ClientId)
    (connections : Connections) (user : User) :
    applyRules host (successfulRules command
        (processAclCommand host clientId command connections user).1) user =
      .ok (processAclCommand host clientId command connections user).2 := by
  by_cases hsetuser : ∃ name rules,
      command = name :: ascii "SETUSER" :: ascii "default" :: rules
  · obtain ⟨name, rules, rfl⟩ := hsetuser
    have hother : ¬ ascii "SETUSER" = ascii "WHOAMI" ∧ ¬ ascii "SETUSER" = ascii "GETUSER" := by
      decide
    simp only [processAclCommand, hother, if_false, if_true, setuser, ne_eq, not_true_eq_false]
    cases hrules : applyRules host rules user with
    | error message =>
      rw [successfulRules_of_refused _ rfl]
      rfl
    | ok updated =>
      rw [successfulRules, if_pos ⟨nameOf_cons.mp hname, rfl, rfl, rfl⟩]
      exact hrules
  · have hnone : ∀ response, successfulRules command response = [] := by
      intro response
      unfold successfulRules
      split
      · refine if_neg fun hrules => hsetuser ?_
        obtain ⟨-, rfl, rfl, -⟩ := hrules
        exact ⟨_, _, rfl⟩
      · rfl
    have hsame : (processAclCommand host clientId command connections user).2 = user := by
      by_contra hchanged
      have hchanges := (user_processAclCommand clientId command connections).mp hchanged
      unfold Changes at hchanges
      split at hchanges
      · obtain ⟨rfl, rfl, -⟩ := hchanges
        exact hsetuser ⟨_, _, rfl⟩
      · exact hchanges
    rw [hnone, hsame]
    rfl

end Acl

namespace Processor

variable {host : Host} {before after : Processor}

theorem user_queueOrRun (h : before.queueOrRun host env clientId command = some (response, after)) :
    after.defaultUser = before.defaultUser := by
  unfold queueOrRun at h
  split at h
  · cases h
    rfl
  · obtain ⟨⟨reply, database⟩, -, hafter⟩ := Option.map_eq_some_iff.mp h
    cases hafter
    rfl

/-- Only `ACL` commands are about the user. -/
theorem user_of_name (hname : nameOf command ≠ some .acl)
    (h : before.processCommand host env clientId command source = some (response, after)) :
    after.defaultUser = before.defaultUser := by
  have hanswer : ∀ answer : Response × Processor, answer.2.defaultUser = before.defaultUser →
      some answer = some (response, after) → after.defaultUser = before.defaultUser := by
    rintro _ hsame ⟨⟩
    exact hsame
  unfold processCommand at h
  split at h
  · cases h
    rfl
  cases hcommand : nameOf command with
  | none =>
    rw [hcommand] at h
    exact user_queueOrRun h
  | some name =>
    simp only [hcommand] at h
    cases name with
    | acl => exact absurd hcommand hname
    | subscribe | unsubscribe | publish | auth | info | config | replconf | psync =>
      cases h
      rfl
    | ping =>
      simp only at h
      split at h
      · cases h
        rfl
      · exact user_queueOrRun h
    | watch =>
      refine hanswer _ ?_ h
      unfold watch
      split
      · split <;> rfl
      · rfl
    | unwatch =>
      refine hanswer _ ?_ h
      unfold unwatch
      split <;> rfl
    | multi =>
      refine hanswer _ ?_ h
      unfold multi
      split <;> rfl
    | discard =>
      refine hanswer _ ?_ h
      unfold discard
      split <;> rfl
    | exec =>
      rcases execOutcome_frame (executeTransaction_cases h) with rfl | ⟨_, _, _, _, _, rfl⟩ <;> rfl
    | _ => exact user_queueOrRun h

/-- **What a command does to the user**, given what it was answered with. -/
theorem applyRules_processCommand
    (h : before.processCommand host env clientId command source = some (response, after)) :
    Acl.applyRules host (Acl.successfulRules command response) before.defaultUser =
      .ok after.defaultUser := by
  by_cases hname : nameOf command = some .acl
  · rw [processCommand, if_neg (ne_nil_of_nameOf hname), hname] at h
    cases h
    exact Acl.applyRules_processAclCommand hname clientId before.connections before.defaultUser
  · rw [Acl.successfulRules_of_name hname, user_of_name hname h]
    rfl

/-! ## Tasks and phases -/

theorem user_finish (disk : Disk) (notification : Notification) (task : Task)
    (writeCommand : Bool) (transaction : List Command) (succeeded : Bool) (response : Response)
    (processor : Processor) :
    ((processor.propagateDirect disk task writeCommand response).2.finishTask notification task
        transaction succeeded
        (processor.propagateDirect disk task writeCommand response).1).defaultUser =
      processor.defaultUser := by
  obtain ⟨connections, file, errors, replication, reply, hfinish, -⟩ := finish_cases disk
    notification task writeCommand transaction succeeded response processor
  rw [hfinish]
  rfl

/-- An `ACL` command that was not refused is answered directly. -/
theorem processTask_acl {env : Env} {task : Task} (hname : nameOf task.command = some .acl)
    (hgate : ¬ before.Refuses task) :
    ∃ offset, before.processTask host env task =
      some ({ before with
        defaultUser := (Acl.processAclCommand host task.clientId task.command before.connections
          before.defaultUser).2
        replication := { before.replication with offset } }.fulfil task []
          (Acl.processAclCommand host task.clientId task.command before.connections
            before.defaultUser).1) := by
  have hlocal : Local host task.command := local_of_name hname (by rfl) (by decide)
  have hne : task.command ≠ [] := by
    intro hempty
    rw [hempty] at hname
    cases hname
  have hcommand : before.processCommand host env.toCommandEnv task.clientId task.command
      task.source = some ((Acl.processAclCommand host task.clientId task.command
        before.connections before.defaultUser).1,
        { before with
          defaultUser := (Acl.processAclCommand host task.clientId task.command
            before.connections before.defaultUser).2 }) := by
    rw [processCommand, if_neg hne, hname]
  refine processTask_local hgate hlocal (by simp [hname]) hcommand ?_
  rintro ⟨hclient, hlistens⟩
  exact hgate ⟨hclient, .inr ⟨hlistens, by simp [allowedWhileSubscribed, hname]⟩⟩

/-- An `AUTH` of a registered client succeeds exactly if its credentials are right, and if
the client does not listen to channels. -/
theorem processTask_auth_registered {env : Env} {task : Task} {client : ClientState}
    (hname : nameOf task.command = some .auth) (hsource : task.source = .client)
    (hclient : before.connections.clients.lookup task.clientId = some client) :
    ∃ after response, before.processTask host env task = some after ∧
      after.replies = before.replies ++ [⟨task, [], response⟩] ∧
      (response = ok ↔ before.connections.isSubscribed task.clientId = false ∧
        Acl.Accepts host before.defaultUser task.command) := by
  cases hlistens : before.connections.isSubscribed task.clientId with
  | true =>
    have hforbidden : allowedWhileSubscribed task.command = false := by
      simp [allowedWhileSubscribed, hname]
    obtain ⟨connections, response, hnegative, -, htask⟩ :=
      processTask_refused env ⟨hsource, .inr ⟨hlistens, hforbidden⟩⟩
    exact ⟨_, response, htask, rfl, by simp [Response.ne_ok_of_negative hnegative]⟩
  | false =>
    have hgate : ¬ before.Refuses task := by
      rintro ⟨-, ⟨hother, -⟩ | ⟨hlistens', -⟩⟩
      · exact hother hname
      · simp [hlistens] at hlistens'
    have hcommand : before.processCommand host env.toCommandEnv task.clientId task.command
        task.source = some (before.answerFrom (Acl.authenticate host before.defaultUser
          task.clientId task.command before.connections)) := by
      rw [processCommand, if_neg (ne_nil_of_nameOf hname), hname]
    have hunsubscribed : ¬ (task.source = .client ∧
        (Acl.authenticate host before.defaultUser task.clientId task.command
          before.connections).2.isSubscribed task.clientId = true) := by
      simp [Acl.isSubscribed_authenticate, hlistens]
    obtain ⟨offset, htask⟩ := processTask_local hgate
      (local_of_name hname (by rfl) (by decide)) (by simp [hname]) hcommand hunsubscribed
    refine ⟨_, _, htask, rfl, ?_⟩
    simpa using Acl.authenticate_ok_iff hclient task.command

/-- Every `ACL` command is answered. -/
theorem processTask_acl_answered {env : Env} {task : Task}
    (hname : nameOf task.command = some .acl) :
    ∃ after response, before.processTask host env task = some after ∧
      after.replies = before.replies ++ [⟨task, [], response⟩] := by
  by_cases hgate : before.Refuses task
  · obtain ⟨connections, response, -, -, htask⟩ := processTask_refused env hgate
    exact ⟨_, response, htask, rfl⟩
  · obtain ⟨offset, htask⟩ := @processTask_acl host before env task hname hgate
    exact ⟨_, _, htask, rfl⟩

/-- **What a task does to the user.**  An `ACL` command is answered at once. -/
theorem user_processTask {env : Env} {task : Task}
    (h : before.processTask host env task = some after) :
    (nameOf task.command ≠ some .acl ∧ after.defaultUser = before.defaultUser) ∨
      ∃ response, after.replies = before.replies ++ [⟨task, [], response⟩] ∧
        Acl.applyRules host (Acl.successfulRules task.command response) before.defaultUser =
          .ok after.defaultUser := by
  cases processTask_cases h with
  | @refused response connections _ hnegative _ =>
    have hrefused : response.isOk = false := Bool.eq_false_iff.mpr fun hok =>
      Response.ne_ok_of_negative hnegative ((Response.isOk_iff response).mp hok)
    refine .inr ⟨response, rfl, ?_⟩
    rw [Acl.successfulRules_of_refused task.command hrefused]
    rfl
  | rejected hrejects =>
    refine .inl ⟨fun hname => ?_, ?_⟩
    · simp [Rejects, isWriteCommand_of_name hname, isWriteName] at hrejects
    · unfold rejectReplicaWrite
      split <;> rfl
  | popped hname houtcome | read hname houtcome | waited hname houtcome =>
    exact .inl ⟨by simp [hname], (houtcome.attempts host).accounts.defaultUser⟩
  | direct hgate hcommand =>
    by_cases hname : nameOf task.command = some .acl
    · obtain ⟨offset, htask⟩ := processTask_acl hname hgate
      rw [h, Option.some.injEq] at htask
      refine .inr ⟨_, congrArg Processor.replies htask, ?_⟩
      rw [htask]
      exact Acl.applyRules_processAclCommand hname _ _ _
    · refine .inl ⟨hname, ?_⟩
      rw [user_finish]
      exact user_of_name hname hcommand

/-- The rules of the `ACL SETUSER` commands of a log, as far as it is replayed. -/
def replayedRules (host : Host) : List Command → Stream' CommandEnv → Processor → List Bytes
  | [], _, _ => []
  | command :: rest, envs, processor =>
    match processor.processCommand host envs.head aofClientId command .aof with
    | none => []
    | some (.simpleError _, _) => []
    | some (response, processor) =>
      Acl.successfulRules command response ++ replayedRules host rest envs.tail processor

theorem applyRules_replayCommands
    (h : before.replayCommands host commands envs = some (result, after)) :
    Acl.applyRules host (before.replayedRules host commands envs) before.defaultUser =
      .ok after.defaultUser := by
  induction commands generalizing envs before with
  | nil =>
    cases h
    rfl
  | cons command rest ih =>
    obtain ⟨⟨response, middle⟩, hcommand, hrest⟩ := Option.bind_eq_some_iff.mp h
    have huser := applyRules_processCommand hcommand
    cases response with
    | simpleError message =>
      rw [Acl.successfulRules_of_refused _ rfl] at huser
      cases hrest
      simpa only [replayedRules, hcommand] using huser
    | _ =>
      simp only [replayedRules, hcommand]
      exact Acl.applyRules_append huser (ih hrest)

end Processor

open Processor

/-- The rules of the `ACL SETUSER` commands that succeeded in a phase. -/
def Phase.grantedRules (host : Host) (before after : Processor) : Phase → List Bytes
  | .task _ (.command _ words _ _) =>
    (after.replies.drop before.replies.length).flatMap fun reply =>
      Acl.successfulRules words reply.response
  | .task env (.initializeAof _ commands) => before.replayedRules host commands env.replay
  | _ => []

/-- The rules of all `ACL SETUSER` commands that succeeded in a run. -/
def grantedRules (host : Host) : List Phase → Processor → List Bytes
  | [], _ => []
  | phase :: rest, before =>
    match phase.perform host before with
    | none => []
    | some after => phase.grantedRules host before after ++ grantedRules host rest after

variable {host : Host}

/-- **What a phase does to the user.** -/
theorem applyRules_perform {phase : Phase} (h : phase.perform host before = some after) :
    Acl.applyRules host (phase.grantedRules host before after) before.defaultUser =
      .ok after.defaultUser := by
  rcases perform_cases h with ⟨env, work, rfl, hwork⟩ | ⟨event, rfl, rfl⟩ | ⟨hpass, -, hattempts⟩
  · cases work with
    | command clientId words source replicationBytes =>
      rcases @user_processTask host { before with nextPromise := before.nextPromise + 1 }
        after env _ h with ⟨hname, huser⟩ | ⟨response, hreplies, huser⟩
      · simp only [Phase.grantedRules, Acl.successfulRules_of_name hname, huser]
        rw [List.flatMap_eq_nil_iff.mpr fun _ _ => rfl]
        rfl
      · simpa [Phase.grantedRules, hreplies] using huser
    | initializeAof file commands =>
      obtain ⟨⟨result, final⟩, hinit, rfl⟩ := Option.map_eq_some_iff.mp hwork
      obtain ⟨replayed, middle, log, hreplay, -, rfl⟩ := processAofInitialization_cases hinit
      have hmiddle := applyRules_replayCommands hreplay
      exact hmiddle
    | unregisterClient clientId =>
      cases hwork
      have huser := (attempts_cancelPendingCommands host clientId before).accounts.defaultUser
      exact congrArg Except.ok huser.symm
    | _ =>
      cases hwork
      rfl
  · obtain ⟨sessions, replication, hevent⟩ := external_perform_eq event before
    rw [hevent]
    rfl
  · have hnone : phase.grantedRules host before after = [] := by
      cases phase with
      | task env work => exact absurd rfl (hpass env work)
      | _ => rfl
    rw [hnone, hattempts.accounts.defaultUser]
    rfl

/-- The user is what the rules of the run have made of it. -/
theorem configured_run {phases : List Phase} {rules : List Bytes}
    (hconfigured : Acl.Configured host rules before.defaultUser)
    (h : runPhases host phases before = some after) :
    Acl.Configured host (rules ++ grantedRules host phases before) after.defaultUser := by
  induction phases generalizing rules before with
  | nil =>
    cases h
    rwa [grantedRules, List.append_nil]
  | cons phase rest ih =>
    obtain ⟨middle, hphase, hrest⟩ := Runs.run_cons_eq_some.mp h
    have hmiddle := hconfigured.applyRules (applyRules_perform hphase)
    simp only [grantedRules, hphase]
    rw [← List.append_assoc]
    exact ih hmiddle hrest

/-! ## Who listens -/

/-- The phase submits, or replays, no `SUBSCRIBE`. -/
def Phase.subscribesNobody : Phase → Prop
  | .task _ (.command _ words _ _) => nameOf words ≠ some .subscribe
  | .task _ (.initializeAof _ commands) => ∀ words ∈ commands, nameOf words ≠ some .subscribe
  | _ => True

namespace Processor

variable {clientId : ClientId} {before after : Processor}

theorem unsubscribed_processCommand {other : ClientId}
    (hclient : before.connections.isSubscribed clientId = false)
    (hname : nameOf command ≠ some .subscribe)
    (h : before.processCommand host env other command source = some (response, after)) :
    after.connections.isSubscribed clientId = false := by
  have hdelivery := delivery_processCommand h
  generalize after.connections = connections at hdelivery ⊢
  cases hdelivery with
  | apart _ => exact hclient
  | subscribed hsubscribe => exact absurd hsubscribe hname
  | unsubscribed _ =>
    have hnone : before.connections.clientSubscriptions.lookup clientId = none := by
      simpa [isSubscribed] using hclient
    simp [isSubscribed, subscriptions_unsubscribe hnone]
  | published _ => exact isSubscribed_publish hclient _ _
  | authenticated _ => rw [Acl.isSubscribed_authenticate, hclient]

theorem unsubscribed_enqueuePubsubResponse (notification : Notification) (other : ClientId)
    (response : Response) (connections : Connections) :
    (connections.enqueuePubsubResponse notification other response).2.isSubscribed clientId =
      connections.isSubscribed clientId := by
  unfold enqueuePubsubResponse
  split
  · rfl
  · split <;> rfl

theorem unsubscribed_processTask {env : Env} {task : Task}
    (hclient : before.connections.isSubscribed clientId = false)
    (hname : nameOf task.command ≠ some .subscribe)
    (h : before.processTask host env task = some after) :
    after.connections.isSubscribed clientId = false := by
  have hdelivery := delivery_processTask h
  generalize after.connections = connections at hdelivery ⊢
  cases hdelivery with
  | quiet _ => exact hclient
  | refused _ _ => rw [unsubscribed_enqueuePubsubResponse, hclient]
  | commanded _ hcommand => exact unsubscribed_processCommand hclient hname hcommand
  | answered _ _ hcommand _ _ =>
    rw [unsubscribed_enqueuePubsubResponse]
    exact unsubscribed_processCommand hclient hname hcommand

end Processor

theorem unsubscribed_perform {phase : Phase}
    (hclient : before.connections.isSubscribed clientId = false) (hphase : phase.subscribesNobody)
    (h : phase.perform host before = some after) :
    after.connections.isSubscribed clientId = false := by
  rcases perform_cases h with ⟨env, work, rfl, hwork⟩ | ⟨event, rfl, rfl⟩ | ⟨-, -, hpass⟩
  · cases work with
    | command other words source replicationBytes =>
      exact @unsubscribed_processTask host clientId
        { before with nextPromise := before.nextPromise + 1 } after env
        ⟨_, other, words, source, replicationBytes⟩ hclient hphase hwork
    | initializeAof file commands =>
      obtain ⟨⟨result, final⟩, hinit, rfl⟩ := Option.map_eq_some_iff.mp hwork
      obtain ⟨replayed, middle, log, hreplay, -, rfl⟩ := processAofInitialization_cases hinit
      have hmiddle := replay_invariant
        (fun state : Processor => state.connections.isSubscribed clientId = false)
        (fun hmem hstate hcommand =>
          unsubscribed_processCommand hstate (hphase _ hmem) hcommand) hclient hreplay
      exact hmiddle
    | unregisterClient other =>
      cases hwork
      have hkept := (attempts_cancelPendingCommands host other before).accounts.connections
      obtain ⟨channelSubscribers, hleft⟩ := unregister_eq other before.connections
      have hnone : before.connections.clientSubscriptions.lookup clientId = none := by
        simpa [isSubscribed] using hclient
      simp [processClientUnregistration, hkept, hleft, isSubscribed, lookup_erase_of_none hnone]
    | _ =>
      cases hwork
      exact hclient
  · obtain ⟨sessions, replication, hevent⟩ := external_perform_eq event before
    rw [hevent]
    exact hclient
  · rw [hpass.accounts.connections, hclient]

/-- The two forms of an `AUTH` with a password of the default user. -/
def authWords (password : Bytes) : List Command :=
  [[ascii "AUTH", password], [ascii "AUTH", ascii "default", password]]

/-- **The passwords that are accepted are those that were configured.**  A server with any
`--requirepass` goes through any run, and then a client that is registered authenticates, in
either form: that succeeds exactly if the user needs no password or the password was added
since the last `nopass`, by the start or by a `SETUSER` that succeeded.  Only a client that
listens to channels is refused, and there is none unless the run has a `SUBSCRIBE`.  No
password is needed exactly if no hash is kept, and a `SETUSER` that is not answered with `OK`
leaves the user as it was. -/
theorem accepted_passwords (hideal : Acl.Ideal host) (role : ReplicationRole)
    (replicationId : Bytes) (requirepass : Option Bytes) (rdbConfig : RdbConfig)
    (aofConfig : AofConfig) (phases : List Phase) {before : Processor}
    (hrun : runPhases host phases (.start role replicationId (Acl.startUser host requirepass)
      rdbConfig aofConfig) = some before) :
    (before.defaultUser.noPassword = true ↔ before.defaultUser.passwordHashes = []) ∧
    (∀ env clientId client password words replicationBytes,
      before.connections.clients.lookup clientId = some client → words ∈ authWords password →
      ∃ after response,
        (Phase.task env (.command clientId words .client replicationBytes)).perform host before =
          some after ∧
        after.replies = before.replies ++
          [⟨⟨before.nextPromise, clientId, words, .client, replicationBytes⟩, [], response⟩] ∧
        (response = ok ↔ before.connections.isSubscribed clientId = false ∧
          (before.defaultUser.noPassword = true ∨
            Acl.Grants (Acl.startRules requirepass ++ grantedRules host phases
              (.start role replicationId (Acl.startUser host requirepass) rdbConfig aofConfig))
              password))) ∧
    ((∀ phase ∈ phases, phase.subscribesNobody) →
      ∀ clientId, before.connections.isSubscribed clientId = false) ∧
    ∀ env clientId rules source replicationBytes,
      ∃ after response,
        (Phase.task env (.command clientId
          (ascii "ACL" :: ascii "SETUSER" :: ascii "default" :: rules) source
          replicationBytes)).perform host before = some after ∧
        after.replies = before.replies ++
          [⟨⟨before.nextPromise, clientId,
            ascii "ACL" :: ascii "SETUSER" :: ascii "default" :: rules, source,
            replicationBytes⟩, [], response⟩] ∧
        (response ≠ ok → after.defaultUser = before.defaultUser) := by
  have hconfigured := configured_run (Acl.configured_start hideal requirepass) hrun
  refine ⟨hconfigured.noPassword, ?_, ?_, ?_⟩
  · intro env clientId client password words replicationBytes hclient hwords
    have hname : nameOf words = some .auth := by
      rcases List.mem_pair.mp hwords with rfl | rfl <;> exact nameOf_cons.mpr (by decide)
    have haccepts : Acl.Accepts host before.defaultUser words ↔
        Acl.Matches host before.defaultUser password := by
      rcases List.mem_pair.mp hwords with rfl | rfl
      · exact Iff.rfl
      · exact and_iff_right rfl
    obtain ⟨after, response, htask, hreplies, hok⟩ := @processTask_auth_registered host
      { before with nextPromise := before.nextPromise + 1 } env
      ⟨before.nextPromise, clientId, words, .client, replicationBytes⟩ client hname rfl hclient
    refine ⟨after, response, htask, hreplies, hok.trans (and_congr_right fun _ => ?_)⟩
    exact haccepts.trans (Acl.matches_iff hideal hconfigured password)
  · intro hquiet clientId
    have hstart : (Processor.start role replicationId (Acl.startUser host requirepass) rdbConfig
        aofConfig).connections.isSubscribed clientId = false := rfl
    exact Runs.run_invariant (fun _ _ _ hphase hstate hstep =>
      unsubscribed_perform hstate hphase hstep) hquiet hstart hrun
  · intro env clientId rules source replicationBytes
    have hname : nameOf (ascii "ACL" :: ascii "SETUSER" :: ascii "default" :: rules) =
        some .acl := nameOf_cons.mpr (by decide)
    obtain ⟨after, response, htask, hreplies⟩ := @processTask_acl_answered host
      { before with nextPromise := before.nextPromise + 1 } env
      ⟨before.nextPromise, clientId, ascii "ACL" :: ascii "SETUSER" :: ascii "default" :: rules,
        source, replicationBytes⟩ hname
    refine ⟨after, response, htask, hreplies, fun hrefused => ?_⟩
    have hnotOk : response.isOk = false :=
      Bool.eq_false_iff.mpr fun hok => hrefused ((Response.isOk_iff response).mp hok)
    have huser : Acl.applyRules host ((Phase.task env (.command clientId
        (ascii "ACL" :: ascii "SETUSER" :: ascii "default" :: rules) source
        replicationBytes)).grantedRules host before after) before.defaultUser =
          .ok after.defaultUser := applyRules_perform htask
    rw [Phase.grantedRules, hreplies, List.drop_left' rfl] at huser
    simp only [List.flatMap_cons, List.flatMap_nil, List.append_nil,
      Acl.successfulRules_of_refused _ hnotOk] at huser
    exact (Except.ok.inj huser).symm

/-- A client adds a password to the one of the start, and then fails to drop both. -/
def passwordRun : List Phase :=
  .external (.createSession 7) ::
    stillRun ⟨0, 0⟩
      [.registerClient 1 7, .ofClient 1 (["AUTH", "first"].map ascii),
        .ofClient 1 (["ACL", "SETUSER", "default", ">second"].map ascii),
        .ofClient 1 (["ACL", "SETUSER", "default", "nopass", ">third", "off"].map ascii)]

/-- The second password is accepted and the third one is not. -/
theorem accepted_passwords_second :
    ∃ before after after' response response',
      runPhases Host.plain passwordRun (.start .master [] (Acl.startUser Host.plain
        (some (ascii "first"))) {} {}) = some before ∧
      (Phase.task (Env.still ⟨0, 0⟩) (.ofClient 1 [ascii "AUTH", ascii "second"])).perform
        Host.plain before = some after ∧
      after.replies = before.replies ++
        [⟨⟨before.nextPromise, 1, [ascii "AUTH", ascii "second"], .client, 0⟩, [], response⟩] ∧
      response = ok ∧
      (Phase.task (Env.still ⟨0, 0⟩) (.ofClient 1
        [ascii "AUTH", ascii "default", ascii "third"])).perform Host.plain before = some after' ∧
      after'.replies = before.replies ++
        [⟨⟨before.nextPromise, 1, [ascii "AUTH", ascii "default", ascii "third"], .client, 0⟩, [],
          response'⟩] ∧
      response' ≠ ok := by
  have hideal : Acl.Ideal Host.plain :=
    ⟨fun password => ⟨password, rfl⟩, fun _ _ _ h₁ h₂ => Except.ok.inj (h₁.trans h₂.symm)⟩
  have hsample : ∃ before, runPhases Host.plain passwordRun (.start .master []
      (Acl.startUser Host.plain (some (ascii "first"))) {} {}) = some before ∧
        before.connections.isSubscribed 1 = false ∧ before.defaultUser.noPassword = false ∧
        62 :: ascii "second" ∈ Acl.sinceNopass (Acl.startRules (some (ascii "first")) ++
          grantedRules Host.plain passwordRun (.start .master [] (Acl.startUser Host.plain
            (some (ascii "first"))) {} {})) ∧
        62 :: ascii "third" ∉ Acl.sinceNopass (Acl.startRules (some (ascii "first")) ++
          grantedRules Host.plain passwordRun (.start .master [] (Acl.startUser Host.plain
            (some (ascii "first"))) {} {})) ∧
        (before.connections.clients.lookup 1).isSome = true := by
    decide +kernel
  obtain ⟨before, hrun, hlistens, hpassword, hsecond, hthird, hknown⟩ := hsample
  obtain ⟨client, hclient⟩ := Option.isSome_iff_exists.mp hknown
  obtain ⟨-, hauth, -, -⟩ := accepted_passwords hideal _ _ _ _ _ _ hrun
  obtain ⟨after, response, hafter, hreplies, hok⟩ := hauth (Env.still ⟨0, 0⟩) 1 client
    (ascii "second") [ascii "AUTH", ascii "second"] 0 hclient (by simp [authWords])
  obtain ⟨after', response', hafter', hreplies', hok'⟩ := hauth (Env.still ⟨0, 0⟩) 1 client
    (ascii "third") [ascii "AUTH", ascii "default", ascii "third"] 0 hclient (by simp [authWords])
  refine ⟨before, after, after', response, response', hrun, hafter, hreplies,
    hok.mpr ⟨hlistens, .inr hsecond⟩, hafter', hreplies', fun hwrong => ?_⟩
  rcases (hok'.mp hwrong).2 with hfree | hgranted
  · rw [hpassword] at hfree
    cases hfree
  · exact hthird hgranted

end RedisServer
