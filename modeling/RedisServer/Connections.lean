import Mathlib.Data.List.AList
import Mathlib.Data.Stream.Init
import RedisServer.Commands

/-!
# Connections: registration, authentication and Pub/Sub

What the processor keeps for each connection: whether it is authenticated, which
channels it is subscribed to, and a weak pointer to its Pub/Sub session.  The
sessions are shared with the connection threads; `sessions` holds the queue of
every session that is still alive, so that locking a weak pointer is a lookup.

An unordered set is a list without repetitions.
-/

namespace RedisServer

open Resp

abbrev ClientId := ℕ

/-- The identity of a shared session object. -/
abbrev SessionId := ℕ

structure ClientState where
  authenticated : Bool
  pubsubSession : SessionId
deriving DecidableEq, Repr

structure Connections where
  clients : AList fun _ : ClientId => ClientState := ∅
  channelSubscribers : AList fun _ : Bytes => List ClientId := ∅
  clientSubscriptions : AList fun _ : ClientId => List Bytes := ∅
  sessions : AList fun _ : SessionId => List Bytes := ∅
deriving DecidableEq

/-- What the write to the notification descriptor of a session came to: the
reason if it failed. -/
abbrev Notification := Option Bytes

namespace Connections

/-- The session of a client, if it is registered and its session still alive. -/
def liveSession (clientId : ClientId) (connections : Connections) :
    Option (SessionId × List Bytes) :=
  (connections.clients.lookup clientId).bind fun client =>
    (connections.sessions.lookup client.pubsubSession).map (client.pubsubSession, ·)

def isSubscribed (clientId : ClientId) (connections : Connections) : Bool :=
  (connections.clientSubscriptions.lookup clientId).isSome

def forgetClient (clientId : ClientId) (connections : Connections) : Connections :=
  { connections with clients := connections.clients.erase clientId }

/-! ## Sessions -/

/-- `PubSubSession::enqueue` on the queue of a session: the connection is woken
up for a first frame, which is taken back if that fails. -/
def enqueueFrame (notification : Notification) (payload : Bytes) (pending : List Bytes) :
    Except Bytes Unit × List Bytes :=
  match pending, notification with
  | [], some reason => (.error (ascii "Failed to notify Pub/Sub connection: " ++ reason), [])
  | _, _ => (.ok (), pending ++ [payload])

def enqueue (notification : Notification) (session : SessionId) (pending : List Bytes)
    (payload : Bytes) (connections : Connections) : Except Bytes Unit × Connections :=
  let (result, pending) := enqueueFrame notification payload pending
  (result, { connections with sessions := connections.sessions.insert session pending })

def enqueuePubsubResponse (notification : Notification) (clientId : ClientId)
    (response : Response) (connections : Connections) : Except Bytes Unit × Connections :=
  match connections.clients.lookup clientId with
  | none => (.error (ascii "Pub/Sub session is not registered"), connections)
  | some client =>
    match connections.sessions.lookup client.pubsubSession with
    | none =>
      (.error (ascii "Pub/Sub session is no longer available"),
        connections.forgetClient clientId)
    | some pending =>
      connections.enqueue notification client.pubsubSession pending
        (serializeResponse response)

/-- `SUBSCRIBE` and `UNSUBSCRIBE` acknowledge through the session of the client.
The changes to the subscriptions come first, and with them the payload. -/
def acknowledge (notification : Notification) (clientId : ClientId)
    (change : Connections → Bytes × Connections) (connections : Connections) :
    Response × Connections :=
  match connections.clients.lookup clientId with
  | none => (.simpleError (ascii "ERR Pub/Sub session is not registered"), connections)
  | some client =>
    match connections.sessions.lookup client.pubsubSession with
    | none =>
      (.simpleError (ascii "ERR Pub/Sub session is no longer available"),
        connections.forgetClient clientId)
    | some pending =>
      let (payload, connections) := change connections
      match connections.enqueue notification client.pubsubSession pending payload with
      | (.ok (), connections) => (.noResponse, connections)
      | (.error message, connections) =>
        (.simpleError (ascii "ERR failed to queue Pub/Sub acknowledgement: " ++ message),
          connections)

/-! ## Subscriptions -/

def addSubscription (clientId : ClientId) (channel : Bytes) (connections : Connections) :
    ℕ × Connections :=
  let channels := ((connections.clientSubscriptions.lookup clientId).getD []).insert channel
  let subscribers := ((connections.channelSubscribers.lookup channel).getD []).insert clientId
  (channels.length,
    { connections with
      clientSubscriptions := connections.clientSubscriptions.insert clientId channels
      channelSubscribers := connections.channelSubscribers.insert channel subscribers })

/-- The frame of one acknowledged channel. -/
def acknowledgement (kind : Bytes) (channel : Response) (count : ℕ) : Bytes :=
  serializeResponse (.responseArray [.bulkString kind, channel, .integer count])

def subscribeAll (clientId : ClientId) : List Bytes → Connections → Bytes × Connections
  | [], connections => ([], connections)
  | channel :: rest, connections =>
    let (count, connections) := connections.addSubscription clientId channel
    let (payload, connections) := subscribeAll clientId rest connections
    (acknowledgement (ascii "subscribe") (.bulkString channel) count ++ payload, connections)

def subscribe (notification : Notification) (clientId : ClientId) (command : Command)
    (connections : Connections) : Response × Connections :=
  match command with
  | _ :: channel :: channels =>
    connections.acknowledge notification clientId (subscribeAll clientId (channel :: channels))
  | _ =>
    (.simpleError (ascii "ERR wrong number of arguments for 'subscribe' command"), connections)

/-- Take a client off the subscribers of a channel; a channel without
subscribers is dropped. -/
def removeSubscriber (clientId : ClientId) (channel : Bytes) (connections : Connections) :
    Connections :=
  match connections.channelSubscribers.lookup channel with
  | none => connections
  | some subscribers =>
    if subscribers.erase clientId = [] then
      { connections with
        channelSubscribers := connections.channelSubscribers.erase channel }
    else
      { connections with
        channelSubscribers :=
          connections.channelSubscribers.insert channel (subscribers.erase clientId) }

/-- Store the channels of a client; a client without channels is not subscribed. -/
def setChannels (clientId : ClientId) (channels : List Bytes) (connections : Connections) :
    Connections :=
  if channels = [] then
    { connections with clientSubscriptions := connections.clientSubscriptions.erase clientId }
  else
    { connections with
      clientSubscriptions := connections.clientSubscriptions.insert clientId channels }

def removeSubscription (clientId : ClientId) (channel : Bytes) (connections : Connections) :
    ℕ × Connections :=
  match connections.clientSubscriptions.lookup clientId with
  | none => (0, connections)
  | some channels =>
    let connections :=
      if channel ∈ channels then connections.removeSubscriber clientId channel else connections
    ((channels.erase channel).length, connections.setChannels clientId (channels.erase channel))

def unsubscribeAll (clientId : ClientId) : List Bytes → Connections → Bytes × Connections
  | [], connections => ([], connections)
  | channel :: rest, connections =>
    let (remaining, connections) := connections.removeSubscription clientId channel
    let (payload, connections) := unsubscribeAll clientId rest connections
    (acknowledgement (ascii "unsubscribe") (.bulkString channel) remaining ++ payload,
      connections)

def unsubscribe (notification : Notification) (clientId : ClientId) (command : Command)
    (connections : Connections) : Response × Connections :=
  connections.acknowledge notification clientId fun connections =>
    match command with
    | _ :: channel :: channels => unsubscribeAll clientId (channel :: channels) connections
    | _ =>
      match connections.clientSubscriptions.lookup clientId with
      | none | some [] =>
        (acknowledgement (ascii "unsubscribe") .nullBulkString 0, connections)
      | some channels => unsubscribeAll clientId channels connections

/-! ## Publishing -/

/-- The loop of `publish` over the subscribers of a channel: who stays
subscribed, and how many were reached. -/
def publishTo (channel payload : Bytes) :
    List ClientId → Stream' Notification → Connections → List ClientId × ℕ × Connections
  | [], _, connections => ([], 0, connections)
  | clientId :: rest, notifications, connections =>
    match connections.liveSession clientId with
    | none =>
      let connections :=
        match connections.clientSubscriptions.lookup clientId with
        | none => connections
        | some channels => connections.setChannels clientId (channels.erase channel)
      publishTo channel payload rest notifications (connections.forgetClient clientId)
    | some (session, pending) =>
      let (result, connections) :=
        connections.enqueue notifications.head session pending payload
      let (remaining, recipients, connections) :=
        publishTo channel payload rest notifications.tail connections
      (clientId :: remaining,
        match result with
        | .ok () => recipients + 1
        | .error _ => recipients,
        connections)

def publish (notifications : Stream' Notification) (command : Command)
    (connections : Connections) : Response × Connections :=
  match command with
  | [_, channel, message] =>
    match connections.channelSubscribers.lookup channel with
    | none => (.integer 0, connections)
    | some subscribers =>
      let payload := serializeResponse (.array [ascii "message", channel, message])
      let (remaining, recipients, connections) :=
        publishTo channel payload subscribers notifications connections
      let channelSubscribers :=
        if remaining = [] then connections.channelSubscribers.erase channel
        else connections.channelSubscribers.insert channel remaining
      (.integer recipients, { connections with channelSubscribers })
  | _ =>
    (.simpleError (ascii "ERR wrong number of arguments for 'publish' command"), connections)

/-! ## Registration -/

def register (noPassword : Bool) (clientId : ClientId) (session : SessionId)
    (connections : Connections) : Connections :=
  { connections with clients := connections.clients.insert clientId ⟨noPassword, session⟩ }

def removeFromChannels (clientId : ClientId) : List Bytes → Connections → Connections
  | [], connections => connections
  | channel :: rest, connections =>
    removeFromChannels clientId rest (connections.removeSubscriber clientId channel)

def unregister (clientId : ClientId) (connections : Connections) : Connections :=
  let connections :=
    match connections.clientSubscriptions.lookup clientId with
    | none => connections
    | some channels =>
      let connections := removeFromChannels clientId channels connections
      { connections with
        clientSubscriptions := connections.clientSubscriptions.erase clientId }
  connections.forgetClient clientId

end Connections

/-! ## Users -/

structure User where
  noPassword : Bool
  passwordHashes : List Bytes := []
deriving DecidableEq, Repr

/-- `make_default_acl_user`. -/
def User.default (passwordHash : Option Bytes) : User where
  noPassword := passwordHash.isNone
  passwordHashes := passwordHash.toList

namespace Acl

def noAuth : Response := .simpleError (ascii "NOAUTH Authentication required.")

def wrongPassword : Response :=
  .simpleError (ascii "WRONGPASS invalid username-password pair or user is disabled.")

def whoami (clientId : ClientId) (command : Command) (connections : Connections) : Response :=
  if command.length ≠ 2 then
    .simpleError (ascii "ERR wrong number of arguments for 'acl|whoami' command")
  else if (connections.clients.lookup clientId).any ClientState.authenticated then
    .bulkString (ascii "default")
  else noAuth

def getuser (command : Command) (user : User) : Response :=
  match command with
  | [_, _, name] =>
    if name ≠ ascii "default" then .nullArray
    else
      .responseArray
        [.bulkString (ascii "flags"),
          .array ([ascii "on", ascii "allkeys", ascii "allchannels", ascii "allcommands"] ++
            if user.noPassword then [ascii "nopass"] else []),
          .bulkString (ascii "passwords"),
          .array (user.passwordHashes.mergeSort fun first second => decide (first ≤ second)),
          .bulkString (ascii "commands"), .bulkString (ascii "+@all"),
          .bulkString (ascii "keys"), .bulkString (ascii "~*"),
          .bulkString (ascii "channels"), .bulkString (ascii "&*"),
          .bulkString (ascii "selectors"), .emptyArray]
  | _ => .simpleError (ascii "ERR wrong number of arguments for 'acl|getuser' command")

/-- The rules of an `ACL SETUSER`, applied one after another to a copy. -/
def applyRules (host : Host) : List Bytes → User → Except Bytes User
  | [], user => .ok user
  | rule :: rest, user =>
    if rule = ascii "nopass" then
      applyRules host rest { noPassword := true, passwordHashes := [] }
    else
      match rule with
      | 62 :: first :: password =>
        match host.sha256 (first :: password) with
        | .error message => .error (ascii "ERR failed to hash ACL password: " ++ message)
        | .ok passwordHash =>
          applyRules host rest
            { noPassword := false
              passwordHashes := user.passwordHashes.insert passwordHash }
      | _ => .error (ascii "ERR unsupported ACL rule: " ++ rule)

def setuser (host : Host) (command : Command) (user : User) : Response × User :=
  match command with
  | _ :: _ :: name :: rules =>
    if name ≠ ascii "default" then
      (.simpleError (ascii "ERR only the default ACL user is supported"), user)
    else
      match applyRules host rules user with
      | .error message => (.simpleError message, user)
      | .ok updated => (Commands.ok, updated)
  | _ => (.simpleError (ascii "ERR wrong number of arguments for 'acl|setuser' command"), user)

def processAclCommand (host : Host) (clientId : ClientId) (command : Command)
    (connections : Connections) (user : User) : Response × User :=
  match command with
  | _ :: subcommand :: _ =>
    if subcommand = ascii "WHOAMI" then (whoami clientId command connections, user)
    else if subcommand = ascii "GETUSER" then (getuser command user, user)
    else if subcommand = ascii "SETUSER" then setuser host command user
    else (.simpleError (ascii "ERR unknown ACL subcommand"), user)
  | _ => (.simpleError (ascii "ERR wrong number of arguments for 'acl' command"), user)

/-- Compare the credentials and mark the client as authenticated. -/
def login (host : Host) (user : User) (clientId : ClientId) (username password : Bytes)
    (connections : Connections) : Response × Connections :=
  match connections.clients.lookup clientId with
  | none => (.simpleError (ascii "ERR client connection is not registered"), connections)
  | some client =>
    let accept :=
      (Commands.ok,
        { connections with
          clients := connections.clients.insert clientId { client with authenticated := true } })
    if username ≠ ascii "default" then (wrongPassword, connections)
    else if user.noPassword then accept
    else
      match host.sha256 password with
      | .error message =>
        (.simpleError (ascii "ERR failed to hash authentication password: " ++ message),
          connections)
      | .ok passwordHash =>
        if passwordHash ∈ user.passwordHashes then accept else (wrongPassword, connections)

def authenticate (host : Host) (user : User) (clientId : ClientId) (command : Command)
    (connections : Connections) : Response × Connections :=
  match command with
  | [_, password] => login host user clientId (ascii "default") password connections
  | [_, username, password] => login host user clientId username password connections
  | _ => (.simpleError (ascii "ERR wrong number of arguments for 'auth' command"), connections)

end Acl

end RedisServer
