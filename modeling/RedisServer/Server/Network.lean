import RedisServer.Processor.Broadcast
import RedisServer.Server.MasterLink

/-!
# A master and its replicas

A replica joins, the thread of its session sends it frames, the bytes arrive in
pieces, the link applies the commands, and the acknowledgements travel back.  All
of this happens in any order, and in between the master serves its clients.

The offsets of the two sides are counted independently: the master adds up the
frames it sends, the replica the bytes that its parser takes.  The invariant
(`Linked`) is that no acknowledgement is ahead of what was applied, and that what
was applied, has arrived and is under way is what was sent.
-/

namespace RedisServer.Server

open Resp Commands Aof Framing Replication RunningTotal Processor

variable {node node' : Node} {network next : Network} {before after : Processor} {turn : Turn}
  {session : SessionId} {phase : Phase}

/-! ## The network -/

/-- A replica and its connection to the master. -/
structure Node where
  clientId : ClientId
  startingOffset : ℕ
  link : MasterLink
  /-- What the answer to `PSYNC` said, until the replica has installed it. -/
  offered : Option (Bytes × ℕ) := none
  /-- What was sent to the replica and has not arrived. -/
  inTransit : Bytes := []
  buffer : Bytes := []
  /-- The bytes of the commands that the link has applied. -/
  applied : Bytes := []
  /-- How many of the acknowledgements have reached the master. -/
  delivered : ℕ := 0

namespace Node

def receive (count : ℕ) (node : Node) : Node :=
  { node with
    inTransit := node.inTransit.drop count
    buffer := node.buffer ++ node.inTransit.take count }

def install (node : Node) : Option Node :=
  node.offered.map fun (replicationId, offset) =>
    { node with
      offered := none
      link := { node.link with
        processor := node.link.processor.processReplicationStateInstallation replicationId
          offset } }

/-- One round of the loop over the commands in the buffer. -/
def apply (host : Host) (turn : Turn) (node : Node) : Option Node :=
  if node.offered.isSome ∨ node.link.status ≠ .streaming then none
  else
    match parse node.buffer with
    | none => none
    | some (.error fault) =>
      some { node with
        link := { node.link with
          status := .failed
            (ascii "Invalid command in replication stream: " ++ fault.message) } }
    | some (.ok (command, bytesConsumed)) =>
      (node.link.applyCommand host turn command bytesConsumed).map fun link =>
        if link.status = .streaming then
          { node with
            link
            buffer := node.buffer.drop bytesConsumed
            applied := node.applied ++ node.buffer.take bytesConsumed }
        else { node with link }

/-- The replica serves its own clients. -/
def work (host : Host) (phase : Phase) (node : Node) : Option Node :=
  (phase.perform host node.link.processor).map fun processor =>
    { node with link := { node.link with processor } }

theorem clientId_apply {host : Host} (h : node.apply host turn = some node') :
    node'.clientId = node.clientId := by
  unfold apply at h
  split at h
  · cases h
  · split at h
    · cases h
    · cases h
      rfl
    · obtain ⟨link, -, rfl⟩ := Option.map_eq_some_iff.mp h
      split <;> rfl

end Node

/-- A master and its replicas, by the numbers of their sessions. -/
structure Network where
  master : Processor
  nodes : AList fun _ : SessionId => Node := ∅

inductive Move where
  /-- The master serves its clients, or one of its sessions is closed or dropped. -/
  | serve (phase : Phase)
  | join (clientId : ClientId) (replica : Processor)
  | send (session : SessionId)
  | receive (session : SessionId) (count : ℕ)
  | install (session : SessionId)
  | apply (session : SessionId) (turn : Turn)
  | work (session : SessionId) (phase : Phase)
  | acknowledge (session : SessionId)

namespace Network

def updateNode (session : SessionId) (update : Node → Option Node) (network : Network) :
    Option Network :=
  (network.nodes.lookup session).bind fun node =>
    (update node).map fun node => { network with nodes := network.nodes.insert session node }

def perform (host : Host) (network : Network) : Move → Option Network
  | .serve phase =>
    (phase.perform host network.master).map fun master => { network with master }
  | .join clientId replica =>
    let (session, master) := network.master.processReplicaRegistration clientId
    let replication := network.master.replication
    some {
      master
      nodes := network.nodes.insert session {
        clientId
        startingOffset := replication.offset
        link := { processor := replica }
        offered := some (replication.replicationId, replication.offset) } }
  | .send session =>
    (network.master.replication.sessions.lookup session).bind fun found =>
      if found.closed then none
      else found.pendingFrames.head?.bind fun frame =>
        { network with master := (External.sendFrame session).perform network.master }.updateNode
          session fun node => some { node with inTransit := node.inTransit ++ frame.payload }
  | .receive session count => network.updateNode session fun node => some (node.receive count)
  | .install session => network.updateNode session Node.install
  | .apply session turn => network.updateNode session (Node.apply host turn)
  | .work session phase => network.updateNode session (Node.work host phase)
  | .acknowledge session =>
    (network.nodes.lookup session).bind fun node =>
      (node.link.acknowledged[node.delivered]?).map fun offset =>
        { master := network.master.processReplicaAcknowledgement node.clientId offset
          nodes := network.nodes.insert session { node with delivered := node.delivered + 1 } }

end Network

/-- The phases of a master that are no moves of their own. -/
def Serves (phase : Phase) : Prop :=
  phase.OfMaster ∧ phase.action.all Action.isQuiet = true

instance (phase : Phase) : Decidable (Serves phase) := by
  unfold Serves
  infer_instance

/-- The master is no replica itself, the replicas have no other master, and every
connection has its own number. -/
def Move.Admissible (network : Network) : Move → Prop
  | .serve phase => Serves phase
  | .join clientId replica =>
    replica.replication.role = .replica ∧
      ∀ session node, network.nodes.lookup session = some node → node.clientId ≠ clientId
  | .apply _ turn => ∀ phase ∈ turn.phases, phase.OfMaster
  | .work _ phase => phase.OfMaster
  | _ => True

/-! ## What has happened -/

/-- The state of affairs when a command was taken. -/
structure Moment where
  trace : List Action := []
  now : Int := 0

/-- What the master's replication state went through, and when the commands were
taken, by their promises. -/
structure Record where
  trace : List Action := []
  moments : ℕ → Moment := fun _ => {}

/-- The actions of the master that belong to a move. -/
def Move.Allows (network : Network) : Move → Action → Prop
  | .serve phase, action =>
    action.Ordinary (phase.Author network.master) network.master.replication.role ∨
      phase.action = some action
  | .join clientId _, action => action = .register clientId
  | .send session, action => action = .send session
  | .acknowledge session, action =>
    ∃ node offset, network.nodes.lookup session = some node ∧
      offset ∈ node.link.acknowledged ∧ action = .acknowledge node.clientId offset
  | _, _ => False

def Move.moments (network : Network) (record : Record) : Move → ℕ → Moment
  | .serve (.task env (.command _ _ _ _)) =>
    Function.update record.moments network.master.nextPromise ⟨record.trace, env.now⟩
  | _ => record.moments

/-- The record goes on with a move. -/
structure Record.Continues (move : Move) (network next : Network) (record record' : Record) :
    Prop where
  acts : ∃ actions, record'.trace = record.trace ++ actions ∧
    Acts actions network.master.replication next.master.replication ∧
    ∀ action ∈ actions, move.Allows network action
  moments : record'.moments = move.moments network record

/-- **What a master and its replicas can get to**, with the record of it. -/
inductive Reachable (host : Host) (origin : Processor) : Network → Record → Prop
  | start : Reachable host origin { master := origin } {}
  | step {network next : Network} {record record' : Record} {move : Move}
      (hreachable : Reachable host origin network record) (hmove : move.Admissible network)
      (hperform : network.perform host move = some next)
      (hrecord : Record.Continues move network next record record') :
      Reachable host origin next record'

variable {host : Host}

theorem updateNode_cases {update : Node → Option Node}
    (h : network.updateNode session update = some next) :
    ∃ node node', network.nodes.lookup session = some node ∧ update node = some node' ∧
      next = { network with nodes := network.nodes.insert session node' } := by
  obtain ⟨node, hnode, h⟩ := Option.bind_eq_some_iff.mp h
  obtain ⟨node', hupdate, rfl⟩ := Option.map_eq_some_iff.mp h
  exact ⟨node, node', hnode, hupdate, rfl⟩

/-- What `Network.perform` does, move by move. -/
inductive MoveOutcome (host : Host) (network : Network) : Move → Network → Prop
  | serve {phase : Phase} {master : Processor}
      (hphase : phase.perform host network.master = some master) :
      MoveOutcome host network (.serve phase) { network with master }
  | join (clientId : ClientId) (replica : Processor) :
      MoveOutcome host network (.join clientId replica) {
        master := (network.master.processReplicaRegistration clientId).2
        nodes := network.nodes.insert network.master.replication.nextSession {
          clientId
          startingOffset := network.master.replication.offset
          link := { processor := replica }
          offered := some (network.master.replication.replicationId,
            network.master.replication.offset) } }
  | send {session : SessionId} {found : ReplicaSession} {frame : ReplicationFrame}
      {rest : List ReplicationFrame} {node : Node}
      (hfound : network.master.replication.sessions.lookup session = some found)
      (hopen : found.closed = false) (hframes : found.pendingFrames = frame :: rest)
      (hnode : network.nodes.lookup session = some node) :
      MoveOutcome host network (.send session) {
        master := (External.sendFrame session).perform network.master
        nodes := network.nodes.insert session
          { node with inTransit := node.inTransit ++ frame.payload } }
  | update {move : Move} {session : SessionId} {node node' : Node}
      (hmove : (∃ count, move = .receive session count ∧ node' = node.receive count) ∨
        (move = .install session ∧ node.install = some node') ∨
        (∃ turn, move = .apply session turn ∧ node.apply host turn = some node') ∨
        ∃ phase, move = .work session phase ∧ node.work host phase = some node')
      (hnode : network.nodes.lookup session = some node) :
      MoveOutcome host network move
        { network with nodes := network.nodes.insert session node' }
  | acknowledge {session : SessionId} {node : Node} {offset : ℕ}
      (hnode : network.nodes.lookup session = some node)
      (hoffset : offset ∈ node.link.acknowledged) :
      MoveOutcome host network (.acknowledge session) {
        master := network.master.processReplicaAcknowledgement node.clientId offset
        nodes := network.nodes.insert session { node with delivered := node.delivered + 1 } }

theorem perform_cases {move : Move} (h : network.perform host move = some next) :
    MoveOutcome host network move next := by
  cases move with
  | serve phase =>
    obtain ⟨master, hphase, rfl⟩ := Option.map_eq_some_iff.mp h
    exact .serve hphase
  | join clientId replica =>
    cases h
    exact .join clientId replica
  | send session =>
    obtain ⟨found, hfound, h⟩ := Option.bind_eq_some_iff.mp h
    split at h
    · cases h
    · rename_i hopen
      obtain ⟨frame, hframe, h⟩ := Option.bind_eq_some_iff.mp h
      obtain ⟨rest, hframes⟩ := List.head?_eq_some_iff.mp hframe
      obtain ⟨node, _, hnode, ⟨⟩, rfl⟩ := updateNode_cases h
      exact .send hfound (Bool.eq_false_iff.mpr hopen) hframes hnode
  | receive session count =>
    obtain ⟨node, _, hnode, ⟨⟩, rfl⟩ := updateNode_cases h
    exact .update (.inl ⟨count, rfl, rfl⟩) hnode
  | install session =>
    obtain ⟨node, node', hnode, hupdate, rfl⟩ := updateNode_cases h
    exact .update (.inr (.inl ⟨rfl, hupdate⟩)) hnode
  | apply session turn =>
    obtain ⟨node, node', hnode, hupdate, rfl⟩ := updateNode_cases h
    exact .update (.inr (.inr (.inl ⟨turn, rfl, hupdate⟩))) hnode
  | work session phase =>
    obtain ⟨node, node', hnode, hupdate, rfl⟩ := updateNode_cases h
    exact .update (.inr (.inr (.inr ⟨phase, rfl, hupdate⟩))) hnode
  | acknowledge session =>
    obtain ⟨node, hnode, h⟩ := Option.bind_eq_some_iff.mp h
    obtain ⟨offset, hoffset, rfl⟩ := Option.map_eq_some_iff.mp h
    exact .acknowledge hnode (List.mem_of_getElem? hoffset)

/-- Every move can be recorded. -/
theorem exists_continues {move : Move} (hmove : move.Admissible network)
    (h : network.perform host move = some next) (record : Record) :
    ∃ record', Record.Continues move network next record record' := by
  have hrecorded : ∀ actions,
      Acts actions network.master.replication next.master.replication →
      (∀ action ∈ actions, move.Allows network action) →
      ∃ record', Record.Continues move network next record record' :=
    fun actions hacts hallowed =>
      ⟨⟨record.trace ++ actions, move.moments network record⟩, ⟨actions, rfl, hacts, hallowed⟩, rfl⟩
  cases perform_cases h with
  | serve hphase =>
    obtain ⟨actions, hacts, hallowed⟩ := (takes_perform hmove.1 hphase).acts
    exact hrecorded actions hacts hallowed
  | join clientId replica =>
    exact hrecorded [.register clientId] (@Acts.single (.register clientId) trivial _)
       (by simp [Move.Allows])
  | @send session _ _ _ _ _ _ _ _ =>
    exact hrecorded [.send session] (@Acts.single (.send session) trivial _) (by simp [Move.Allows])
  | update _ _ => exact hrecorded [] (.refl _) (by simp)
  | @acknowledge session node offset hnode hoffset =>
    refine hrecorded _ (@Acts.single (.acknowledge node.clientId offset) trivial _) ?_
    intro action haction
    exact ⟨node, offset, hnode, hoffset, List.mem_singleton.mp haction⟩

/-! ## The offset of a replica -/

/-- The state of a replica that did not apply anything. -/
structure StaysReplica (before after : Processor) : Prop where
  role : after.replication.role = .replica
  offset : after.replication.offset = before.replication.offset

/-- No phase is there for sending frames. -/
theorem offset_action {action : Action} (h : phase.action = some action)
    (replication : Replication) : (replication.perform action).offset = replication.offset := by
  have hupdate : ∀ session update,
      (replication.updateSession session update).offset = replication.offset := by
    intro session update
    unfold updateSession
    split <;> rfl
  cases phase with
  | task env work => cases work <;> cases h <;> rfl
  | external event =>
    cases event <;> cases h
    · exact hupdate _ _
    · exact hupdate _ _
    · rfl
  | _ => cases h

theorem staysReplica_perform (hmaster : phase.OfMaster)
    (hreplica : before.replication.role = .replica) (h : phase.perform host before = some after) :
    StaysReplica before after := by
  have htaken := takes_perform hmaster h
  cases haction : phase.action with
  | none =>
    rw [haction] at htaken
    have hbroadcasts : Broadcasts (phase.Author before) before after := htaken
    exact ⟨hbroadcasts.role.trans hreplica, hbroadcasts.offset hreplica⟩
  | some action =>
    rw [haction] at htaken
    have hafter : after.replication = before.replication.perform action := htaken.2
    refine ⟨by rw [hafter, Acts.role_perform, hreplica], ?_⟩
    rw [hafter, offset_action haction]

theorem staysReplica_run {phases : List Phase} (hmaster : ∀ phase ∈ phases, phase.OfMaster)
    (hreplica : before.replication.role = .replica)
    (h : runPhases host phases before = some after) : StaysReplica before after := by
  induction phases generalizing before with
  | nil =>
    cases h
    exact ⟨hreplica, rfl⟩
  | cons phase phases ih =>
    obtain ⟨middle, hphase, hrest⟩ := Option.bind_eq_some_iff.mp h
    have hmiddle := staysReplica_perform (hmaster phase (by simp)) hreplica hphase
    have hafter := ih (fun other hother => hmaster other (by simp [hother])) hmiddle.role hrest
    exact ⟨hafter.role, hafter.offset.trans hmiddle.offset⟩

theorem staysReplica_applied {env : Env} {command : Command} {bytesConsumed : ℕ}
    (hreplica : before.replication.role = .replica)
    (h : (ProcessorTask.command replicationClientId command .master bytesConsumed).perform host
      env before = some after) :
    after.replication.role = .replica ∧
      after.replication.offset ≤ before.replication.offset + bytesConsumed := by
  have htask : { before with nextPromise := before.nextPromise + 1 }.processTask host env
      ⟨before.nextPromise, replicationClientId, command, .master, bytesConsumed⟩ = some after := h
  obtain ⟨middle, bytes, hmiddle, hbytes, hafter⟩ := replication_processTask htask
  rw [hafter]
  refine ⟨hmiddle.role.trans hreplica, ?_⟩
  have hoffset : middle.replication.offset = before.replication.offset := hmiddle.offset hreplica
  have hle : bytes ≤ bytesConsumed := by
    rcases hbytes with rfl | ⟨-, rfl⟩
    · exact Nat.zero_le _
    · exact Nat.le_refl _
  simp only [hoffset]
  omega

theorem conclude_cases (sendFailure : Option Bytes) (acknowledgedOffset : Option ℕ)
    (response : Option Response) (link : MasterLink) :
    (link.conclude sendFailure acknowledgedOffset response).processor = link.processor ∧
      ∀ offset ∈ (link.conclude sendFailure acknowledgedOffset response).acknowledged,
        offset ∈ link.acknowledged ∨ acknowledgedOffset = some offset := by
  rcases response with _ | response
  · exact ⟨rfl, fun offset hoffset => .inl hoffset⟩
  · cases response <;> cases acknowledgedOffset <;> cases sendFailure <;>
      simp +contextual [MasterLink.conclude, or_comm, eq_comm]

/-- **A command of the stream moves the offset by what it takes, at most**, and what
is acknowledged is the offset before it. -/
theorem applyCommand_offset (hturn : ∀ phase ∈ turn.phases, phase.OfMaster) {command : Command}
    {bytesConsumed : ℕ} {link next : MasterLink}
    (hreplica : link.processor.replication.role = .replica)
    (h : link.applyCommand host turn command bytesConsumed = some next) :
    next.processor.replication.role = .replica ∧
      next.processor.replication.offset ≤ link.processor.replication.offset + bytesConsumed ∧
      ∀ offset ∈ next.acknowledged,
        offset ∈ link.acknowledged ∨ offset = link.processor.replication.offset := by
  have hphases : ∀ phases, (∀ phase ∈ phases, phase ∈ turn.phases) → ∀ {before after : Processor},
      before.replication.role = .replica → runPhases host phases before = some after →
      StaysReplica before after :=
    fun phases hphases _ _ hreplica hrun =>
      staysReplica_run (fun phase hphase => hturn phase (hphases phase hphase)) hreplica hrun
  unfold MasterLink.applyCommand MasterLink.applyWith at h
  obtain ⟨asked, hasked, h⟩ := Option.bind_eq_some_iff.mp h
  obtain ⟨start, hstart, h⟩ := Option.bind_eq_some_iff.mp h
  obtain ⟨applied, happlied, h⟩ := Option.bind_eq_some_iff.mp h
  obtain ⟨answered, hanswered, rfl⟩ := Option.map_eq_some_iff.mp h
  have hstays : StaysReplica link.processor asked := by
    split at hasked
    · exact hphases _ (by simp +contextual [Turn.phases]) hreplica hasked
    · cases hasked
      exact ⟨hreplica, rfl⟩
  have hwaited := hphases _ (by simp +contextual [Turn.phases]) hstays.role hstart
  obtain ⟨hrole, hoffset⟩ := staysReplica_applied hwaited.role happlied
  have hrest := hphases _ (by simp +contextual [Turn.phases]) hrole hanswered
  obtain ⟨hprocessor, hacknowledged⟩ := conclude_cases turn.sendFailure
    (if command = getAckCommand then some asked.replication.offset else none)
    (answerSince start answered) { link with processor := answered }
  rw [hprocessor]
  refine ⟨hrest.role, ?_, fun offset hmem => (hacknowledged offset hmem).imp_right fun hask => ?_⟩
  · simp only [hrest.offset]
    rw [hwaited.offset, hstays.offset] at hoffset
    exact hoffset
  · split at hask
    · rw [← Option.some.inj hask, hstays.offset]
    · cases hask

/-! ## The invariant of the connections -/

/-- **No acknowledgement is ahead of what was applied**, and what was applied, has
arrived and is under way is what the session has sent. -/
structure Node.Coherent (replication : Replication) (session : SessionId) (node : Node) :
    Prop where
  known : session < replication.nextSession
  role : node.link.processor.replication.role = .replica
  offered : ∀ replicationId offset, node.offered = some (replicationId, offset) →
    offset ≤ node.startingOffset
  offset : node.offered = none → node.link.status = .streaming →
    node.link.processor.replication.offset ≤ node.startingOffset + node.applied.length
  acknowledged : ∀ offset ∈ node.link.acknowledged,
    offset ≤ node.startingOffset + node.applied.length
  heard : ∀ offset, replication.acknowledgedOffsets.lookup node.clientId = some offset →
    offset ≤ node.startingOffset + node.applied.length
  stream : ∀ found, replication.sessions.lookup session = some found →
    found.clientId = node.clientId ∧ found.startingOffset = node.startingOffset ∧
      node.applied ++ (node.buffer ++ node.inTransit) =
        found.sent.flatMap ReplicationFrame.payload

namespace Node.Coherent

variable {replication : Replication} {session : SessionId} {node node' : Node}

/-- What the master does, apart from sending to the replica. -/
theorem perform (h : node.Coherent replication session) (hsound : replication.Sound)
    {action : Action}
    (hheard : ∀ offset, action = .acknowledge node.clientId offset →
      offset ≤ node.startingOffset + node.applied.length)
    (hsend : action ≠ .send session) : node.Coherent (replication.perform action) session :=
  { h with
    known := Nat.lt_of_lt_of_le h.known (Sound.nextSession_perform replication action)
    heard := fun offset hoffset =>
      (acknowledged_perform hoffset).elim (h.heard offset) (hheard offset)
    stream := by
      intro found hfound
      rcases hsound.lookup_perform hfound with ⟨_, _, hnew, _⟩ | ⟨earlier, hearlier, hsame, hsent⟩
      · exact absurd hnew (Nat.ne_of_lt h.known)
      · rw [hsame.clientId, hsame.startingOffset, hsent hsend]
        exact h.stream earlier hearlier }

theorem receive (h : node.Coherent replication session) (count : ℕ) :
    (node.receive count).Coherent replication session :=
  { h with
    stream := fun found hfound => by
      obtain ⟨hclient, hstart, hstream⟩ := h.stream found hfound
      refine ⟨hclient, hstart, ?_⟩
      simpa [Node.receive, List.append_assoc] using hstream }

theorem install (h : node.Coherent replication session) (hinstall : node.install = some node') :
    node'.Coherent replication session := by
  obtain ⟨⟨replicationId, offset⟩, hoffered, rfl⟩ := Option.map_eq_some_iff.mp hinstall
  exact { h with
    offered := nofun
    offset := fun _ _ => Nat.le_trans (h.offered _ _ hoffered) (Nat.le_add_right _ _) }

theorem work (h : node.Coherent replication session) (hmaster : phase.OfMaster)
    (hwork : node.work host phase = some node') : node'.Coherent replication session := by
  obtain ⟨processor, hphase, rfl⟩ := Option.map_eq_some_iff.mp hwork
  have hstays := staysReplica_perform hmaster h.role hphase
  exact { h with
    role := hstays.role
    offset := fun hinstalled hstreaming => by
      simpa only [hstays.offset] using h.offset hinstalled hstreaming }

theorem apply (h : node.Coherent replication session)
    (hturn : ∀ phase ∈ turn.phases, phase.OfMaster) (happly : node.apply host turn = some node') :
    node'.Coherent replication session := by
  unfold Node.apply at happly
  split at happly
  · cases happly
  rename_i hready
  obtain ⟨hinstalled, hstreaming⟩ : node.offered = none ∧ node.link.status = .streaming := by
    simpa using hready
  have hoffset := h.offset hinstalled hstreaming
  cases hparse : parse node.buffer with
  | none => simp [hparse] at happly
  | some outcome =>
    cases outcome with
    | error fault =>
      simp only [hparse] at happly
      cases happly
      exact { h with offset := nofun }
    | ok result =>
      obtain ⟨command, bytesConsumed⟩ := result
      simp only [hparse] at happly
      obtain ⟨link, hlink, rfl⟩ := Option.map_eq_some_iff.mp happly
      obtain ⟨hrole, hle, hacknowledged⟩ := applyCommand_offset hturn h.role hlink
      have hacks : ∀ offset ∈ link.acknowledged,
          offset ≤ node.startingOffset + node.applied.length := fun offset hmem =>
        (hacknowledged offset hmem).elim (h.acknowledged offset) fun heq => heq ▸ hoffset
      have hbytes := (stable_parse.consumed hparse).2
      split
      · -- The bytes go from the buffer to what was applied.
        have hlength : (node.applied ++ node.buffer.take bytesConsumed).length =
            node.applied.length + bytesConsumed := by
          rw [List.length_append, List.length_take, min_eq_left hbytes]
        refine { h with
          role := hrole, offset := ?_, acknowledged := ?_, heard := ?_, stream := ?_ }
        · intro _ _
          simp only [hlength]
          omega
        · intro offset hmem
          have := hacks offset hmem
          simp only [hlength]
          omega
        · intro offset hmem
          have := h.heard offset hmem
          simp only [hlength]
          omega
        · intro found hfound
          obtain ⟨hclient, hstart, hstream⟩ := h.stream found hfound
          refine ⟨hclient, hstart, ?_⟩
          rw [← hstream, List.append_assoc, ← List.append_assoc (List.take _ _),
            List.take_append_drop]
      · rename_i hstopped
        exact { h with
          role := hrole
          offset := fun _ hgoes => absurd hgoes hstopped
          acknowledged := hacks }

end Node.Coherent

/-- The sessions of the master and the replicas belong to each other. -/
structure Linked (replication : Replication) (nodes : AList fun _ : SessionId => Node) :
    Prop where
  coherent : ∀ session node, nodes.lookup session = some node →
    node.Coherent replication session
  owned : ∀ session found, replication.sessions.lookup session = some found →
    ∃ node, nodes.lookup session = some node
  distinct : ∀ session session' node node', nodes.lookup session = some node →
    nodes.lookup session' = some node' → node.clientId = node'.clientId → session = session'
  heard : ∀ clientId offset, replication.acknowledgedOffsets.lookup clientId = some offset →
    ∃ session node, nodes.lookup session = some node ∧ node.clientId = clientId

namespace Linked

variable {replication : Replication} {nodes : AList fun _ : SessionId => Node}

theorem perform (h : Linked replication nodes) (hsound : replication.Sound) {action : Action}
    (hquiet : action.isQuiet = true) : Linked (replication.perform action) nodes where
  coherent session node hnode := by
    refine (h.coherent session node hnode).perform hsound ?_ ?_
    · rintro offset rfl
      cases hquiet
    · rintro rfl
      cases hquiet
  owned session found hfound := by
    rcases hsound.lookup_perform hfound with ⟨_, rfl, _, _⟩ | ⟨earlier, hearlier, -, -⟩
    · cases hquiet
    · exact h.owned session earlier hearlier
  distinct := h.distinct
  heard clientId offset hoffset := by
    rcases acknowledged_perform hoffset with hoffset | rfl
    · exact h.heard clientId offset hoffset
    · cases hquiet

theorem acts (h : Linked replication nodes) (hsound : replication.Sound) {actions : List Action}
    {after : Replication} (hacts : Acts actions replication after)
    (hquiet : ∀ action ∈ actions, action.isQuiet = true) : Linked after nodes := by
  obtain ⟨hfilled, rfl⟩ := hacts
  induction actions generalizing replication with
  | nil => exact h
  | cons action actions ih =>
    exact ih (h.perform hsound (hquiet action (by simp)))
      (hsound.perform (hfilled action (by simp)))
      (fun other hother => hquiet other (by simp [hother]))
      (fun other hother => hfilled other (by simp [hother]))

theorem insert_cases {session' : SessionId} {found : Node}
    (hnode : nodes.lookup session = some node) (hclient : node'.clientId = node.clientId)
    (hfound : (nodes.insert session node').lookup session' = some found) :
    ∃ earlier, nodes.lookup session' = some earlier ∧ found.clientId = earlier.clientId ∧
      (session' = session ∧ found = node' ∨ session' ≠ session ∧ found = earlier) := by
  by_cases hsession : session' = session
  · subst hsession
    rw [AList.lookup_insert, Option.some.injEq] at hfound
    subst hfound
    exact ⟨node, hnode, hclient, .inl ⟨rfl, rfl⟩⟩
  · rw [AList.lookup_insert_ne hsession] at hfound
    exact ⟨found, hfound, rfl, .inr ⟨hsession, rfl⟩⟩

/-- One of the replicas goes on, and the master possibly with it. -/
theorem insert (h : Linked replication nodes) {after : Replication}
    (hnode : nodes.lookup session = some node) (hclient : node'.clientId = node.clientId)
    (hnew : node'.Coherent after session)
    (hothers : ∀ other found, other ≠ session → nodes.lookup other = some found →
      found.Coherent after other)
    (hsessions : ∀ other found, after.sessions.lookup other = some found →
      ∃ earlier, replication.sessions.lookup other = some earlier)
    (hheard : ∀ clientId offset, after.acknowledgedOffsets.lookup clientId = some offset →
      clientId = node.clientId ∨
        replication.acknowledgedOffsets.lookup clientId = some offset) :
    Linked after (nodes.insert session node') where
  coherent other found hfound := by
    obtain ⟨earlier, hearlier, -, ⟨rfl, rfl⟩ | ⟨hother, rfl⟩⟩ := insert_cases hnode hclient hfound
    · exact hnew
    · exact hothers other found hother hearlier
  owned other found hfound := by
    obtain ⟨earlier, hearlier⟩ := hsessions other found hfound
    obtain ⟨owner, howner⟩ := h.owned other earlier hearlier
    by_cases hother : other = session
    · subst hother
      exact ⟨node', AList.lookup_insert _⟩
    · exact ⟨owner, by rw [AList.lookup_insert_ne hother, howner]⟩
  distinct other other' found found' hfound hfound' hsame := by
    obtain ⟨earlier, hearlier, hclient₁, -⟩ := insert_cases hnode hclient hfound
    obtain ⟨earlier', hearlier', hclient₂, -⟩ := insert_cases hnode hclient hfound'
    exact h.distinct other other' earlier earlier' hearlier hearlier'
      (hclient₁.symm.trans (hsame.trans hclient₂))
  heard clientId offset hoffset := by
    rcases hheard clientId offset hoffset with rfl | hoffset
    · exact ⟨session, node', AList.lookup_insert _, hclient⟩
    · obtain ⟨owner, found, hfound, hclientId⟩ := h.heard clientId offset hoffset
      by_cases howner : owner = session
      · subst howner
        obtain rfl := Option.some.inj (hfound.symm.trans hnode)
        exact ⟨owner, node', AList.lookup_insert _, hclient.trans hclientId⟩
      · exact ⟨owner, found, by rw [AList.lookup_insert_ne howner, hfound], hclientId⟩

theorem update (h : Linked replication nodes) {session : SessionId} {node node' : Node}
    (hnode : nodes.lookup session = some node) (hclient : node'.clientId = node.clientId)
    (hnew : node'.Coherent replication session) :
    Linked replication (nodes.insert session node') :=
  h.insert hnode hclient hnew (fun other found _ hfound => h.coherent other found hfound)
    (fun _ found hfound => ⟨found, hfound⟩) fun _ _ hoffset => .inr hoffset

theorem join (h : Linked replication nodes) (hsound : replication.Sound) {clientId : ClientId}
    (hfresh : ∀ session node, nodes.lookup session = some node → node.clientId ≠ clientId)
    {replica : Processor} (hreplica : replica.replication.role = .replica)
    (replicationId : Bytes) :
    Linked (replication.registerReplica clientId).2
      (nodes.insert replication.nextSession {
        clientId, startingOffset := replication.offset, link := { processor := replica }
        offered := some (replicationId, replication.offset) }) where
  coherent session node hnode := by
    by_cases hnew : session = replication.nextSession
    · subst hnew
      rw [AList.lookup_insert, Option.some.injEq] at hnode
      subst hnode
      exact {
        known := Nat.lt_succ_self _
        role := hreplica
        offered := by
          intro _ _ heq
          cases heq
          exact Nat.le_refl _
        offset := by simp
        acknowledged := by simp
        heard := by
          -- Nobody with this number has acknowledged anything.
          intro offset hoffset
          obtain ⟨session, node, hnode, hclient⟩ := h.heard clientId offset hoffset
          exact absurd hclient (hfresh session node hnode)
        stream := by
          intro found hfound
          simp only [registerReplica, AList.lookup_insert, Option.some.injEq] at hfound
          subst hfound
          exact ⟨rfl, rfl, rfl⟩ }
    · rw [AList.lookup_insert_ne hnew] at hnode
      exact @Node.Coherent.perform _ _ _ (h.coherent session node hnode) hsound
        (.register clientId) (by simp) (by simp)
  owned session found hfound := by
    by_cases hnew : session = replication.nextSession
    · subst hnew
      exact ⟨_, AList.lookup_insert _⟩
    · simp only [registerReplica] at hfound
      rw [AList.lookup_insert_ne hnew] at hfound ⊢
      exact h.owned session found hfound
  distinct session session' node node' hnode hnode' hclient := by
    by_cases hnew : session = replication.nextSession <;>
      by_cases hnew' : session' = replication.nextSession
    · rw [hnew, hnew']
    · subst hnew
      rw [AList.lookup_insert, Option.some.injEq] at hnode
      rw [AList.lookup_insert_ne hnew'] at hnode'
      subst hnode
      exact absurd hclient.symm (hfresh session' node' hnode')
    · subst hnew'
      rw [AList.lookup_insert, Option.some.injEq] at hnode'
      rw [AList.lookup_insert_ne hnew] at hnode
      subst hnode'
      exact absurd hclient (hfresh session node hnode)
    · rw [AList.lookup_insert_ne hnew] at hnode
      rw [AList.lookup_insert_ne hnew'] at hnode'
      exact h.distinct session session' node node' hnode hnode' hclient
  heard author offset hoffset := by
    obtain ⟨session, node, hnode, hclient⟩ := h.heard author offset hoffset
    refine ⟨session, node, ?_, hclient⟩
    rw [AList.lookup_insert_ne (Nat.ne_of_lt (h.coherent session node hnode).known), hnode]

theorem send (h : Linked replication nodes) (hsound : replication.Sound) {session : SessionId}
    {found : ReplicaSession} (hfound : replication.sessions.lookup session = some found)
    (hopen : found.closed = false) {frame : ReplicationFrame} {rest : List ReplicationFrame}
    (hframes : found.pendingFrames = frame :: rest) {node : Node}
    (hnode : nodes.lookup session = some node) :
    Linked (replication.perform (.send session))
      (nodes.insert session { node with inTransit := node.inTransit ++ frame.payload }) := by
  have hcoherent := h.coherent session node hnode
  have hafter : (replication.perform (.send session)).sessions =
      replication.sessions.insert session
        { found with pendingFrames := rest, sent := found.sent ++ [frame] } := by
    simp [Replication.perform, updateSession, hfound, ReplicaSession.sendFrame, hopen, hframes]
  have hheard : ∀ clientId offset,
      (replication.perform (.send session)).acknowledgedOffsets.lookup clientId = some offset →
        replication.acknowledgedOffsets.lookup clientId = some offset :=
    fun clientId offset hoffset => (acknowledged_perform hoffset).resolve_right (by simp)
  refine h.insert hnode rfl ?_ ?_ ?_ fun clientId offset hoffset =>
    .inr (hheard clientId offset hoffset)
  · refine { hcoherent with
      known := Nat.lt_of_lt_of_le hcoherent.known (Sound.nextSession_perform _ _)
      heard := fun offset hoffset => hcoherent.heard offset (hheard _ offset hoffset)
      stream := ?_ }
    intro sending hsending
    rw [hafter, AList.lookup_insert, Option.some.injEq] at hsending
    subst hsending
    obtain ⟨hclient, hstart, hstream⟩ := hcoherent.stream found hfound
    refine ⟨hclient, hstart, ?_⟩
    rw [List.flatMap_append, ← hstream]
    simp
  · intro other node' hother hnode'
    exact (h.coherent other node' hnode').perform hsound (by simp) fun hsend =>
      hother (by cases hsend; rfl)
  · intro other later hlater
    rcases hsound.lookup_perform hlater with ⟨_, hregister, _, _⟩ | ⟨earlier, hearlier, -, -⟩
    · cases hregister
    · exact ⟨earlier, hearlier⟩

theorem acknowledge (h : Linked replication nodes) (hsound : replication.Sound)
    {session : SessionId} {node : Node} (hnode : nodes.lookup session = some node) {offset : ℕ}
    (hoffset : offset ∈ node.link.acknowledged) :
    Linked (replication.perform (.acknowledge node.clientId offset))
      (nodes.insert session { node with delivered := node.delivered + 1 }) := by
  have hcoherent := h.coherent session node hnode
  have hperformed : node.Coherent (replication.perform (.acknowledge node.clientId offset))
      session := by
    refine hcoherent.perform hsound (fun other hother => ?_) (by simp)
    cases hother
    exact hcoherent.acknowledged offset hoffset
  refine h.insert hnode rfl { hperformed with } ?_ (fun _ found hfound => ⟨found, hfound⟩) ?_
  · intro other found hother hfound
    refine (h.coherent other found hfound).perform hsound (fun latest hlatest => ?_) (by simp)
    have hclient := (Action.acknowledge.inj hlatest).1
    exact absurd (h.distinct other session found node hfound hnode hclient.symm) hother
  · intro clientId latest hlatest
    rcases acknowledged_perform hlatest with hlatest | hsame
    · exact .inr hlatest
    · cases hsame
      exact .inl rfl

end Linked

end RedisServer.Server
