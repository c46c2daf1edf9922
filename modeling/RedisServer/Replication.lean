import RedisServer.Connections

/-!
# Replication on the master's side

The stream of frames that a master produces: each frame goes into the backlog
and to every replica session that is still alive.  A session is shared with the
thread that sends its frames, which pops them one by one (`sent` remembers them)
and may close it.
-/

namespace RedisServer

structure ReplicationFrame where
  payload : Bytes
  endingOffset : ℕ
deriving DecidableEq, Repr

structure ReplicaSession where
  clientId : ClientId
  startingOffset : ℕ
  pendingFrames : List ReplicationFrame := []
  closed : Bool := false
  /-- The frames that the sending thread has taken so far. -/
  sent : List ReplicationFrame := []
deriving DecidableEq, Repr

namespace ReplicaSession

def enqueue (frame : ReplicationFrame) (session : ReplicaSession) : ReplicaSession :=
  if session.closed then session
  else { session with pendingFrames := session.pendingFrames ++ [frame] }

/-- `wait_for_frame` by the sending thread, when there is a frame. -/
def sendFrame (session : ReplicaSession) : ReplicaSession :=
  if session.closed then session
  else
    match session.pendingFrames with
    | [] => session
    | frame :: rest => { session with pendingFrames := rest, sent := session.sent ++ [frame] }

def close (session : ReplicaSession) : ReplicaSession := { session with closed := true }

/-- Every frame the session was ever given, in order. -/
def frames (session : ReplicaSession) : List ReplicationFrame :=
  session.sent ++ session.pendingFrames

end ReplicaSession

inductive ReplicationRole where
  | master
  | replica
deriving DecidableEq, Repr

structure Replication where
  role : ReplicationRole := .master
  replicationId : Bytes := []
  offset : ℕ := 0
  backlog : List ReplicationFrame := []
  /-- The weak pointers to the sessions. -/
  replicaSessions : List SessionId := []
  /-- The sessions that are alive. -/
  sessions : AList fun _ : SessionId => ReplicaSession := ∅
  nextSession : SessionId := 0
  acknowledgedOffsets : AList fun _ : ClientId => ℕ := ∅
  clientWriteOffsets : AList fun _ : ClientId => ℕ := ∅
deriving DecidableEq

namespace Replication

def isAlive (replication : Replication) (session : SessionId) : Bool :=
  (replication.sessions.lookup session).isSome

/-- Give a frame to the session behind a weak pointer, if it is alive. -/
def enqueueTo (frame : ReplicationFrame) (sessions : AList fun _ : SessionId => ReplicaSession)
    (session : SessionId) : AList fun _ : SessionId => ReplicaSession :=
  match sessions.lookup session with
  | none => sessions
  | some found => sessions.insert session (found.enqueue frame)

def appendReplicationFrame (payload : Bytes) (replication : Replication) : Replication :=
  let offset := replication.offset + payload.length
  let frame : ReplicationFrame := ⟨payload, offset⟩
  { replication with
    offset
    backlog := replication.backlog ++ [frame]
    replicaSessions := replication.replicaSessions.filter replication.isAlive
    sessions := replication.replicaSessions.foldl (enqueueTo frame) replication.sessions }

def appendClientReplicationFrame (clientId : ClientId) (payload : Bytes)
    (replication : Replication) : Replication :=
  let replication := replication.appendReplicationFrame payload
  { replication with
    clientWriteOffsets := replication.clientWriteOffsets.insert clientId replication.offset }

/-- The session has acknowledged the offset. -/
def hasAcknowledged (replication : Replication) (targetOffset : ℕ) (session : SessionId) : Bool :=
  match replication.sessions.lookup session with
  | none => false
  | some found =>
    targetOffset = 0 ||
      (replication.acknowledgedOffsets.lookup found.clientId).any (targetOffset ≤ ·)

/-- Count the live sessions that have acknowledged an offset; dead ones are
dropped on the way. -/
def countAcknowledgedReplicas (targetOffset : ℕ) (replication : Replication) : ℕ × Replication :=
  (replication.replicaSessions.countP (replication.hasAcknowledged targetOffset),
    { replication with
      replicaSessions := replication.replicaSessions.filter replication.isAlive })

def registerReplica (clientId : ClientId) (replication : Replication) :
    SessionId × Replication :=
  (replication.nextSession,
    { replication with
      replicaSessions := replication.replicaSessions ++ [replication.nextSession]
      sessions := replication.sessions.insert replication.nextSession
        { clientId, startingOffset := replication.offset }
      nextSession := replication.nextSession + 1 })

def acknowledgeReplica (clientId : ClientId) (offset : ℕ) (replication : Replication) :
    Replication :=
  { replication with
    acknowledgedOffsets := replication.acknowledgedOffsets.insert clientId
      (max ((replication.acknowledgedOffsets.lookup clientId).getD 0) offset) }

def forgetClient (clientId : ClientId) (replication : Replication) : Replication :=
  { replication with
    clientWriteOffsets := replication.clientWriteOffsets.erase clientId
    acknowledgedOffsets := replication.acknowledgedOffsets.erase clientId }

/-- Change one session that is alive. -/
def updateSession (session : SessionId) (update : ReplicaSession → ReplicaSession)
    (replication : Replication) : Replication :=
  match replication.sessions.lookup session with
  | none => replication
  | some found =>
    { replication with sessions := replication.sessions.insert session (update found) }

/-- The last shared pointer to a session is gone. -/
def dropSession (session : SessionId) (replication : Replication) : Replication :=
  { replication with sessions := replication.sessions.erase session }

end Replication

end RedisServer
