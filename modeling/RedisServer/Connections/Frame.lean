import RedisServer.Connections

/-!
# Traces of Pub/Sub

Two states of the connections are the same when every lookup is; the order in
which a map holds its entries does not count.  The lemmas say which operations
leave the connections the same, and which always leave a trace: a frame in the
queue of a session, or a client or subscriber that is gone.
-/

namespace RedisServer

open Resp

variable {connections : Connections} {clientId : ClientId} {client : ClientState}

namespace Connections

/-- The two states answer every lookup in the same way. -/
structure Same (before after : Connections) : Prop where
  clients : ∀ clientId, after.clients.lookup clientId = before.clients.lookup clientId
  subscribers : ∀ channel,
    after.channelSubscribers.lookup channel = before.channelSubscribers.lookup channel
  subscriptions : ∀ clientId,
    after.clientSubscriptions.lookup clientId = before.clientSubscriptions.lookup clientId
  sessions : ∀ session, after.sessions.lookup session = before.sessions.lookup session

namespace Same

theorem refl (connections : Connections) : Same connections connections :=
  ⟨fun _ => rfl, fun _ => rfl, fun _ => rfl, fun _ => rfl⟩

theorem trans {first second third : Connections} (h₁ : Same first second)
    (h₂ : Same second third) : Same first third where
  clients clientId := (h₂.clients clientId).trans (h₁.clients clientId)
  subscribers channel := (h₂.subscribers channel).trans (h₁.subscribers channel)
  subscriptions clientId := (h₂.subscriptions clientId).trans (h₁.subscriptions clientId)
  sessions session := (h₂.sessions session).trans (h₁.sessions session)

theorem isSubscribed {before after : Connections} (h : Same before after) (clientId : ClientId) :
    after.isSubscribed clientId = before.isSubscribed clientId := by
  simp [Connections.isSubscribed, h.subscriptions]

end Same

/-! ## Messages to one session -/

/-- A message to a registered client left a trace: a frame in the queue of its
session, or its registration is gone because the session is. -/
def Reached (clientId : ClientId) (before after : Connections) : Prop :=
  ∃ client, before.clients.lookup clientId = some client ∧
    (after.clients.lookup clientId = none ∨
      ∃ pending payload, before.sessions.lookup client.pubsubSession = some pending ∧
        after.sessions.lookup client.pubsubSession = some (pending ++ [payload]))

variable {clientId : ClientId} {client : ClientState}

/-- A reply to a client that is not registered goes nowhere. -/
theorem enqueuePubsubResponse_unregistered (hclient : connections.clients.lookup clientId = none)
    (notification : Notification) (response : Response) :
    connections.enqueuePubsubResponse notification clientId response =
      (.error (ascii "Pub/Sub session is not registered"), connections) := by
  rw [enqueuePubsubResponse, hclient]

theorem subscriptions_setChannels_ne {other : ClientId} (hother : clientId ≠ other)
    (channels : List Bytes) (connections : Connections) :
    (connections.setChannels other channels).clientSubscriptions.lookup clientId =
      connections.clientSubscriptions.lookup clientId := by
  unfold setChannels
  split
  · exact AList.lookup_erase_ne hother
  · exact AList.lookup_insert_ne hother

end Connections

/-! ## Users -/

namespace Acl

variable {host : Host} {user : User}

/-- The password is one of the user's, or none is needed. -/
def Matches (host : Host) (user : User) (password : Bytes) : Prop :=
  user.noPassword = true ∨
    ∃ passwordHash, host.sha256 password = .ok passwordHash ∧ passwordHash ∈ user.passwordHashes

/-- The credentials of an `AUTH` are right. -/
def Accepts (host : Host) (user : User) (command : Command) : Prop :=
  match command with
  | [_, password] => Matches host user password
  | [_, username, password] => username = ascii "default" ∧ Matches host user password
  | _ => False

/-- The command is an `ACL SETUSER` whose rules lead to another user. -/
def Changes (host : Host) (user : User) (command : Command) : Prop :=
  match command with
  | _ :: subcommand :: name :: rules =>
    subcommand = ascii "SETUSER" ∧ name = ascii "default" ∧
      ∃ updated, applyRules host rules user = .ok updated ∧ updated ≠ user
  | _ => False

/-- A login marks the client if the credentials are right, and does nothing if
they are not. -/
theorem login_registered (hclient : connections.clients.lookup clientId = some client)
    (username password : Bytes) :
    (username = ascii "default" ∧ Matches host user password ∧
      (login host user clientId username password connections).2 =
        { connections with
          clients := connections.clients.insert clientId { client with authenticated := true } }) ∨
    (¬ (username = ascii "default" ∧ Matches host user password) ∧
      (login host user clientId username password connections).2 = connections) := by
  simp only [login, hclient]
  by_cases hname : username = ascii "default"
  · rw [if_neg (not_not_intro hname)]
    by_cases hfree : user.noPassword = true
    · rw [if_pos hfree]
      exact .inl ⟨hname, .inl hfree, rfl⟩
    · rw [if_neg hfree]
      cases hhash : host.sha256 password with
      | error message =>
        refine .inr ⟨?_, rfl⟩
        rintro ⟨-, hfree' | ⟨passwordHash, hok, -⟩⟩
        · exact hfree hfree'
        · simp [hhash] at hok
      | ok passwordHash =>
        simp only
        by_cases hmem : passwordHash ∈ user.passwordHashes
        · rw [if_pos hmem]
          exact .inl ⟨hname, .inr ⟨passwordHash, hhash, hmem⟩, rfl⟩
        · rw [if_neg hmem]
          refine .inr ⟨?_, rfl⟩
          rintro ⟨-, hfree' | ⟨other, hok, hother⟩⟩
          · exact hfree hfree'
          · obtain rfl : passwordHash = other := by simpa [hhash] using hok
            exact hmem hother
  · rw [if_pos hname]
    exact .inr ⟨fun h => hname h.1, rfl⟩

theorem authenticate_unregistered (hclient : connections.clients.lookup clientId = none)
    (command : Command) :
    (authenticate host user clientId command connections).2 = connections := by
  match command with
  | [_, _] | [_, _, _] => simp only [authenticate, login, hclient]
  | [] | [_] | _ :: _ :: _ :: _ :: _ => rfl

theorem authenticate_registered {clientId : ClientId} {connections : Connections}
    {client : ClientState} (hclient : connections.clients.lookup clientId = some client)
    (command : Command) :
    (Accepts host user command ∧
      (authenticate host user clientId command connections).2 =
        { connections with
          clients := connections.clients.insert clientId { client with authenticated := true } }) ∨
    (¬ Accepts host user command ∧
      (authenticate host user clientId command connections).2 = connections) := by
  match command with
  | [_, password] =>
    rcases login_registered hclient (ascii "default") password with
      ⟨-, hmatches, hlogin⟩ | ⟨hrefused, hlogin⟩
    · exact .inl ⟨hmatches, hlogin⟩
    · exact .inr ⟨fun hmatches => hrefused ⟨rfl, hmatches⟩, hlogin⟩
  | [_, username, password] =>
    rcases login_registered hclient username password with
      ⟨hname, hmatches, hlogin⟩ | ⟨hrefused, hlogin⟩
    · exact .inl ⟨⟨hname, hmatches⟩, hlogin⟩
    · exact .inr ⟨hrefused, hlogin⟩
  | [] | [_] | _ :: _ :: _ :: _ :: _ => exact .inr ⟨id, rfl⟩

/-- An `AUTH` marks its client at most. -/
theorem authenticate_cases (host : Host) (user : User) (clientId : ClientId) (command : Command)
    (connections : Connections) :
    (authenticate host user clientId command connections).2 = connections ∨
      ∃ client, connections.clients.lookup clientId = some client ∧
        (authenticate host user clientId command connections).2 = { connections with
          clients := connections.clients.insert clientId { client with authenticated := true } } := by
  cases hclient : connections.clients.lookup clientId with
  | none => exact .inl (authenticate_unregistered hclient command)
  | some client =>
    rcases @authenticate_registered host user _ _ _ hclient command with
      ⟨-, hafter⟩ | ⟨-, hafter⟩
    · exact .inr ⟨client, rfl, hafter⟩
    · exact .inl hafter

theorem isSubscribed_authenticate (clientId other : ClientId) (command : Command)
    (connections : Connections) :
    (authenticate host user clientId command connections).2.isSubscribed other =
      connections.isSubscribed other := by
  rcases authenticate_cases host user clientId command connections with h | ⟨client, -, h⟩ <;>
    rw [h]
  rfl

theorem login_ok_iff (hclient : connections.clients.lookup clientId = some client)
    (username password : Bytes) :
    (login host user clientId username password connections).1 = Commands.ok ↔
      username = ascii "default" ∧ Matches host user password := by
  have hrefused : ∀ message, Response.simpleError message ≠ Commands.ok :=
    fun _ h => Response.noConfusion h
  simp only [login, hclient, Matches]
  by_cases hname : username = ascii "default"
  · rw [if_neg (not_not_intro hname)]
    by_cases hfree : user.noPassword = true
    · simp [hfree, hname]
    · rw [if_neg hfree]
      cases hhash : host.sha256 password with
      | error message => simp [hfree, hrefused]
      | ok passwordHash =>
        by_cases hmem : passwordHash ∈ user.passwordHashes
        · simp [hmem, hname]
        · simp [hmem, hfree, wrongPassword, hrefused]
  · simp [hname, wrongPassword, hrefused]

/-- An `AUTH` of a registered client succeeds exactly if its credentials are right. -/
theorem authenticate_ok_iff (hclient : connections.clients.lookup clientId = some client)
    (command : Command) :
    (authenticate host user clientId command connections).1 = Commands.ok ↔
      Accepts host user command := by
  have hrefused : ∀ message, Response.simpleError message ≠ Commands.ok :=
    fun _ h => Response.noConfusion h
  match command with
  | [_, password] =>
    exact (login_ok_iff hclient (ascii "default") password).trans (and_iff_right rfl)
  | [_, username, password] => exact login_ok_iff hclient username password
  | [] | [_] | _ :: _ :: _ :: _ :: _ => simp [authenticate, Accepts, hrefused]

/-- An `ACL` command changes the user exactly if its rules do. -/
theorem user_processAclCommand (clientId : ClientId) (command : Command)
    (connections : Connections) :
    (processAclCommand host clientId command connections user).2 ≠ user ↔
      Changes host user command := by
  match command with
  | [] | [_] => simp [processAclCommand, Changes]
  | [_, subcommand] =>
    simp only [processAclCommand, Changes, iff_false, not_not]
    split
    · rfl
    · split
      · rfl
      · split <;> rfl
  | _ :: subcommand :: name :: rules =>
    simp only [processAclCommand, Changes]
    by_cases hset : subcommand = ascii "SETUSER"
    · subst hset
      rw [if_neg (by decide), if_neg (by decide), if_pos rfl]
      simp only [setuser, true_and]
      by_cases hname : name = ascii "default"
      · rw [if_neg (not_not_intro hname)]
        cases applyRules host rules user <;> simp [hname]
      · simp [hname]
    · simp only [hset, false_and, iff_false, not_not, if_false]
      split
      · rfl
      · split <;> rfl

end Acl

end RedisServer
