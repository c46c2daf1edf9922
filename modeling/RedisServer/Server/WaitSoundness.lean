import RedisServer.Processor.WaitAnswers
import RedisServer.Server.Convergence
import RedisServer.Server.Network

/-!
# `WAIT` is sound

A `WAIT` counts the sessions that have acknowledged the offset which the last write of
its client ended at.  What is noted for a blocked `WAIT` is compared with the record
of what has happened (`Awaited`); with the invariant of the connections it follows
that whoever is counted has applied the write (`wait_is_sound`).
-/

namespace RedisServer.Server

open Resp Commands Replication Processor

variable {network : Network} {phase : Phase} {move : Move} {record : Record}

variable {host : Host}

/-! ## The invariant of the whole network -/

/-- Where a blocked `WAIT` comes from: what it waits for is what its client had
written when it was taken. -/
structure Awaited (origin : Replication) (record : Record) (nextPromise : ℕ)
    (pending : PendingWait) : Prop where
  submitted : pending.task.promise < nextPromise
  earlier : (record.moments pending.task.promise).trace <+: record.trace
  target : pending.targetOffset = writeOffset pending.task.clientId
    ((record.moments pending.task.promise).trace.foldl Replication.perform origin)
  written : pending.targetOffset ≠ 0
  request : ∃ request, parseWaitRequest pending.task.command = .ok request ∧
    pending.requiredReplicas = request.requiredReplicas ∧
    pending.deadline = request.timeout.map
      (deadlineAfter (record.moments pending.task.promise).now)

/-- **What holds in every state of a master and its replicas.** -/
structure Coherent (host : Host) (origin : Processor) (network : Network) (record : Record) :
    Prop where
  acts : Acts record.trace origin.replication network.master.replication
  holds : network.master.Holds host Regime.any
  linked : Linked network.master.replication network.nodes
  waits : ∀ pending ∈ network.master.pendingWaits,
    Awaited origin.replication record network.master.nextPromise pending

theorem moments_of_lt {promise : ℕ} (h : promise < network.master.nextPromise) :
    move.moments network record promise = record.moments promise := by
  unfold Move.moments
  split
  · rw [Function.update_of_ne (Nat.ne_of_lt h)]
  · rfl

namespace Awaited

variable {origin : Replication} {record record' : Record} {pending : PendingWait}

/-- What was recorded before stays. -/
theorem continues {next : Network} (hrecord : Record.Continues move network next record record')
    {nextPromise : ℕ} (hnext : network.master.nextPromise ≤ nextPromise)
    (h : Awaited origin record network.master.nextPromise pending) :
    Awaited origin record' nextPromise pending := by
  have hmoment : record'.moments pending.task.promise = record.moments pending.task.promise := by
    rw [hrecord.moments, moments_of_lt h.submitted]
  obtain ⟨actions, htrace, -, -⟩ := hrecord.acts
  exact {
    submitted := Nat.lt_of_lt_of_le h.submitted hnext
    earlier := by
      rw [hmoment, htrace]
      exact h.earlier.trans (List.prefix_append _ _)
    target := by rw [hmoment]; exact h.target
    written := h.written
    request := by rw [hmoment]; exact h.request }

/-- A `WAIT` that is blocked now. -/
theorem of_blocks {next : Network}
    (hrecord : Record.Continues (.serve phase) network next record record')
    (hacts : Acts record.trace origin network.master.replication)
    (hnext : next.master.nextPromise = network.master.nextPromise +
      if phase.submits.isSome then 1 else 0) (h : Blocks phase network.master pending) :
    Awaited origin record' next.master.nextPromise pending := by
  obtain ⟨⟨env, clientId, words, source, replicationBytes, request, rfl, hrequest, rfl⟩,
    hwritten⟩ := h
  have hmoment : record'.moments network.master.nextPromise = ⟨record.trace, env.now⟩ := by
    rw [hrecord.moments]
    exact Function.update_self _ _ _
  obtain ⟨actions, htrace, -, -⟩ := hrecord.acts
  exact {
    submitted := by
      rw [hnext]
      exact Nat.lt_succ_self _
    earlier := by
      rw [hmoment, htrace]
      exact List.prefix_append _ _
    target := by
      rw [hmoment, ← hacts.result]
    written := hwritten
    request := ⟨request, hrequest, rfl, by rw [hmoment]⟩ }

end Awaited

namespace Coherent

variable {origin : Processor} {network next : Network} {record record' : Record}

theorem quiet_of_allows (hserves : Serves phase) {action : Action}
    (h : Move.Allows network (.serve phase) action) : action.isQuiet = true := by
  rcases h with hordinary | haction
  · cases action <;> first | rfl | exact hordinary.elim
  · have hquiet := hserves.2
    rw [haction] at hquiet
    exact hquiet

/-- **Every move keeps the invariant.** -/
theorem step (horigin : origin.replication.Sound) (h : Coherent host origin network record)
    (hmove : move.Admissible network) (hperform : network.perform host move = some next)
    (hrecord : Record.Continues move network next record record') :
    Coherent host origin next record' := by
  have hsound := horigin.acts h.acts
  have hacts : Acts record'.trace origin.replication next.master.replication := by
    obtain ⟨actions, htrace, hacts, -⟩ := hrecord.acts
    rw [htrace]
    exact h.acts.trans hacts
  -- The moves that are none of the worker's leave the blocked commands alone.
  have hkept : next.master.pendingWaits = network.master.pendingWaits →
      next.master.nextPromise = network.master.nextPromise →
      ∀ pending ∈ next.master.pendingWaits,
        Awaited origin.replication record' next.master.nextPromise pending := by
    intro hwaits hnext pending hpending
    rw [hwaits] at hpending
    exact (h.waits pending hpending).continues hrecord (Nat.le_of_eq hnext.symm)
  cases perform_cases hperform with
  | @serve phase master hphase =>
    have hpromise := (tasks_perform hphase).2
    refine ⟨hacts, (proceeds_perform (within_any phase) hphase h.holds).1, ?_, ?_⟩
    · obtain ⟨actions, -, hacts, hallowed⟩ := hrecord.acts
      exact h.linked.acts hsound hacts fun action haction =>
        quiet_of_allows hmove (hallowed action haction)
    · intro pending hpending
      rcases blocks_perform hphase hpending with hpending | hblocks
      · exact (h.waits pending hpending).continues hrecord
          (hpromise ▸ Nat.le_add_right _ _)
      · exact .of_blocks hrecord h.acts hpromise hblocks
  | join clientId replica =>
    exact ⟨hacts, h.holds.congr rfl rfl rfl rfl,
      h.linked.join hsound hmove.2 hmove.1 network.master.replication.replicationId,
      hkept rfl rfl⟩
  | send hfound hopen hframes hnode =>
    exact ⟨hacts, h.holds.congr rfl rfl rfl rfl, h.linked.send hsound hfound hopen hframes hnode,
      hkept rfl rfl⟩
  | @update _ session node node' hupdate hnode =>
    have hcoherent := h.linked.coherent session node hnode
    refine ⟨hacts, h.holds, ?_, hkept rfl rfl⟩
    rcases hupdate with ⟨count, rfl, rfl⟩ | ⟨rfl, hinstall⟩ | ⟨turn, rfl, happly⟩ |
      ⟨phase, rfl, hwork⟩
    · exact h.linked.update hnode rfl (hcoherent.receive count)
    · refine h.linked.update hnode ?_ (hcoherent.install hinstall)
      obtain ⟨_, -, rfl⟩ := Option.map_eq_some_iff.mp hinstall
      rfl
    · exact h.linked.update hnode (Node.clientId_apply happly) (hcoherent.apply hmove happly)
    · refine h.linked.update hnode ?_ (hcoherent.work hmove hwork)
      obtain ⟨_, -, rfl⟩ := Option.map_eq_some_iff.mp hwork
      rfl
  | acknowledge hnode hoffset =>
    exact ⟨hacts, h.holds.congr rfl rfl rfl rfl, h.linked.acknowledge hsound hnode hoffset,
      hkept rfl rfl⟩

end Coherent

/-- A master that has just been started. -/
theorem coherent_of_reachable {replicationId : Bytes} {defaultUser : User} {rdbConfig : RdbConfig}
    {aofConfig : AofConfig}
    (h : Reachable host (.start .master replicationId defaultUser rdbConfig aofConfig) network
      record) :
    Coherent host (.start .master replicationId defaultUser rdbConfig aofConfig) network
      record := by
  induction h with
  | start =>
    refine ⟨.refl _, holds_start .master replicationId defaultUser rdbConfig aofConfig, ?_,
      by simp [Processor.start]⟩
    exact ⟨by simp, by simp [Processor.start], by simp, by simp [Processor.start]⟩
  | step _ hmove hperform hrecord ih =>
    exact ih.step (Sound.start .master replicationId) hmove hperform hrecord

/-! ## What a `WAIT` says -/

/-- The link has applied the frame, and everything before it. -/
def Node.HasApplied (found : ReplicaSession) (frame : ReplicationFrame) (node : Node) : Prop :=
  ∃ before, before ++ [frame] <+: found.frames ∧
    (before ++ [frame]).flatMap ReplicationFrame.payload <+: node.applied

section Wait

variable {origin : Processor} {network next : Network} {record record' : Record}

theorem Coherent.lookup_of_acknowledged (h : Coherent host origin network record) {target : ℕ}
    (htarget : target ≠ 0) {session : SessionId}
    (hacknowledged : network.master.replication.hasAcknowledged target session = true) :
    ∃ found node, network.master.replication.sessions.lookup session = some found ∧
      network.nodes.lookup session = some node ∧ found.startingOffset = node.startingOffset ∧
      target ≤ node.startingOffset + node.applied.length ∧
      node.applied <+: found.frames.flatMap ReplicationFrame.payload := by
  unfold hasAcknowledged at hacknowledged
  cases hfound : network.master.replication.sessions.lookup session with
  | none => simp [hfound] at hacknowledged
  | some found =>
    obtain ⟨node, hnode⟩ := h.linked.owned session found hfound
    have hcoherent := h.linked.coherent session node hnode
    obtain ⟨hclient, hstart, hstream⟩ := hcoherent.stream found hfound
    simp only [hfound, htarget, decide_false, Bool.false_or, Option.any_eq_true,
      decide_eq_true_eq] at hacknowledged
    obtain ⟨offset, hoffset, hle⟩ := hacknowledged
    refine ⟨found, node, rfl, hnode, hstart,
      Nat.le_trans hle (hcoherent.heard offset (hclient ▸ hoffset)), ?_⟩
    calc node.applied
        <+: node.applied ++ (node.buffer ++ node.inTransit) := List.prefix_append _ _
      _ = found.sent.flatMap ReplicationFrame.payload := hstream
      _ <+: found.frames.flatMap ReplicationFrame.payload := by
          rw [ReplicaSession.frames, List.flatMap_append]
          exact List.prefix_append _ _

/-- **Whoever is counted has applied the write**, if it was there at the time. -/
theorem Coherent.counted (horigin : origin.replication.Sound)
    (h : Coherent host origin network record) {clientId : ClientId} {trace earlier : List Action}
    (htrace : trace <+: record.trace) {payload : Bytes}
    (hwrite : LastWrite clientId payload earlier trace) {target : ℕ} (htarget : target ≠ 0)
    (hoffset : target =
      ((earlier ++ [Action.write clientId payload]).foldl perform origin.replication).offset)
    {count : ℕ}
    (hcount : (network.master.replication.countAcknowledgedReplicas target).1 = count) :
    ∃ counted : List SessionId, counted.Nodup ∧ counted.length = count ∧
      ∀ session ∈ counted, ∃ found node,
        network.master.replication.sessions.lookup session = some found ∧
        network.nodes.lookup session = some node ∧
        (session < (earlier.foldl perform origin.replication).nextSession →
          node.HasApplied found ⟨payload, target⟩) := by
  have hsound := horigin.acts h.acts
  -- The write is an earlier part of what has happened by now.
  obtain ⟨since, hsince⟩ := htrace
  obtain ⟨later, rfl, -⟩ := hwrite
  have hacts := h.acts
  rw [← hsince, List.append_assoc, List.cons_append] at hacts
  have hframe : ⟨payload, target⟩ ∈ network.master.replication.backlog := by
    rw [hoffset]
    exact mem_backlog_of_write hacts
  refine ⟨network.master.replication.replicaSessions.filter
    (network.master.replication.hasAcknowledged target), ?_, ?_, ?_⟩
  · refine List.nodup_iff_count_le_one.mpr fun session => ?_
    by_cases hmem : session ∈ network.master.replication.replicaSessions.filter
        (network.master.replication.hasAcknowledged target)
    · obtain ⟨found, -, hfound, -⟩ :=
        h.lookup_of_acknowledged htarget (List.mem_filter.mp hmem).2
      rw [List.count_filter (List.mem_filter.mp hmem).2, hsound.listed session found hfound]
    · rw [List.count_eq_zero.mpr hmem]
      exact Nat.zero_le 1
  · rw [← hcount, countAcknowledgedReplicas, List.countP_eq_length_filter]
  · intro session hsession
    obtain ⟨found, node, hfound, hnode, hstart, hreached, happlied⟩ :=
      h.lookup_of_acknowledged htarget (List.mem_filter.mp hsession).2
    refine ⟨found, node, hfound, hnode, fun hknown => ?_⟩
    have hstarted : found.startingOffset < target :=
      hoffset ▸ startingOffset_lt_of_write hacts horigin hknown hfound
    exact hsound.received_of_ending_le hfound hframe hstarted happlied (hstart ▸ hreached)

end Wait

/-- **`WAIT` is sound.**  A `WAIT` whose client had written something is answered with
the number of sessions that are alive and have applied the client's last write
before the `WAIT`, unless they were registered after it.  (The sessions are numbered
in the order of their registration.)  If they are fewer than the client asked for,
then the time of the `WAIT` is over. -/
theorem wait_is_sound (replicationId : Bytes) (defaultUser : User) (rdbConfig : RdbConfig)
    (aofConfig : AofConfig) {network next : Network} {record record' : Record}
    (hreachable : Reachable host
      (.start .master replicationId defaultUser rdbConfig aofConfig) network record)
    {phase : Phase} (hserves : Serves phase)
    (hperform : network.perform host (.serve phase) = some next)
    (hrecord : Record.Continues (.serve phase) network next record record')
    {reply : Reply} (hreply : reply ∈ next.master.replies.drop network.master.replies.length)
    (hname : nameOf reply.task.command = some .wait) {count : ℕ}
    (hcount : reply.response = .integer count) :
    let origin := (Processor.start .master replicationId defaultUser rdbConfig
      aofConfig).replication
    let moment := record'.moments reply.task.promise
    let target := writeOffset reply.task.clientId (moment.trace.foldl perform origin)
    target ≠ 0 →
      ∃ payload earlier request,
        LastWrite reply.task.clientId payload earlier moment.trace ∧
        parseWaitRequest reply.task.command = .ok request ∧
        (∃ counted : List SessionId, counted.Nodup ∧ counted.length = count ∧
          ∀ session ∈ counted, ∃ found node,
            network.master.replication.sessions.lookup session = some found ∧
            network.nodes.lookup session = some node ∧
            (session < (earlier.foldl perform origin).nextSession →
              node.HasApplied found ⟨payload, target⟩)) ∧
        (count < request.requiredReplicas → ∃ timeout now, request.timeout = some timeout ∧
          phase = .expireWaits now ∧ deadlineAfter moment.now timeout ≤ now) := by
  intro origin moment target htarget
  have hcoherent := coherent_of_reachable hreachable
  have hsound : origin.Sound := Sound.start .master replicationId
  obtain ⟨master, hphase, rfl⟩ := Option.map_eq_some_iff.mp hperform
  -- The noted offset is where the last write ended.
  have hwritten : (moment.trace.foldl perform origin).clientWriteOffsets.lookup
      reply.task.clientId = some target := by
    simp only [target, writeOffset] at htarget ⊢
    cases hlookup : (moment.trace.foldl perform origin).clientWriteOffsets.lookup
        reply.task.clientId with
    | none => simp [hlookup] at htarget
    | some offset => rfl
  obtain ⟨payload, earlier, hwrite, hoffset⟩ := lastWrite_of_lookup rfl hwritten
  have hcounted : ∀ target', target' = target → moment.trace <+: record.trace →
      (network.master.replication.countAcknowledgedReplicas target').1 = count → _ :=
    fun target' heq htrace hsessions =>
      hcoherent.counted hsound htrace hwrite htarget hoffset (heq ▸ hsessions)
  -- A blocked command was recorded when it was taken.
  have hblocked : ∀ pending ∈ network.master.pendingWaits, pending.task = reply.task →
      moment.trace <+: record.trace ∧ pending.targetOffset = target ∧
        ∃ request, parseWaitRequest reply.task.command = .ok request ∧
          pending.requiredReplicas = request.requiredReplicas ∧
          pending.deadline = request.timeout.map (deadlineAfter moment.now) := by
    intro pending hpending htask
    have hawaited := hcoherent.waits pending hpending
    have hmoment : moment = record.moments pending.task.promise := by
      simp only [moment, ← htask, hrecord.moments]
      exact moments_of_lt hawaited.submitted
    simp only [target, hmoment]
    rw [← htask]
    exact ⟨hawaited.earlier, hawaited.target, hawaited.request⟩
  cases waitAnswer_of_reply hcoherent.holds hphase hreply hname hcount with
  | @atOnce env clientId words source replicationBytes request hphase htask hrequest hsessions
      henough =>
    subst hphase
    have hmoment : moment = ⟨record.trace, env.now⟩ := by
      simp only [moment, htask, hrecord.moments]
      exact Function.update_self _ _ _
    have hnow : writeOffset clientId network.master.replication = target := by
      simp only [target, hmoment, htask]
      rw [← hcoherent.acts.result]
    refine ⟨payload, earlier, request, hwrite, by rw [htask]; exact hrequest,
      hcounted _ hnow (by rw [hmoment]) hsessions, fun hfew => ?_⟩
    rcases henough with hzero | henough
    · exact absurd (hnow.symm.trans hzero) htarget
    · exact absurd henough (Nat.not_le_of_lt hfew)
  | @retried pending _ hpending htask hsessions henough =>
    obtain ⟨htrace, heq, request, hrequest, hrequired, -⟩ := hblocked pending hpending htask
    exact ⟨payload, earlier, request, hwrite, hrequest, hcounted _ heq htrace hsessions,
      fun hfew => absurd (hrequired ▸ henough) (Nat.not_le_of_lt hfew)⟩
  | @expired now pending hphase hpending htask hsessions hover =>
    obtain ⟨htrace, heq, request, hrequest, -, hdeadline⟩ := hblocked pending hpending htask
    refine ⟨payload, earlier, request, hwrite, hrequest, hcounted _ heq htrace hsessions,
      fun _ => ?_⟩
    rw [isOver, hdeadline] at hover
    simp only [Option.any_map, Option.any_eq_true, decide_eq_true_eq] at hover
    obtain ⟨timeout, htimeout, hover⟩ := hover
    exact ⟨timeout, now, htimeout, hphase, hover⟩

/-! ### A replica that is waited for -/

def runMoves (host : Host) (moves : List Move) (network : Network) : Option Network :=
  moves.foldlM (fun network move => network.perform host move) network

theorem Reachable.run {origin : Processor} {moves : List Move}
    (hmoves : ∀ move ∈ moves, ∀ network, move.Admissible network) {final : Network}
    (h : Reachable host origin network record) (hrun : runMoves host moves network = some final) :
    ∃ record', Reachable host origin final record' ∧ record.trace <+: record'.trace := by
  induction moves generalizing network record with
  | nil =>
    cases hrun
    exact ⟨record, h, List.prefix_refl _⟩
  | cons move moves ih =>
    obtain ⟨next, hperform, hrest⟩ := Option.bind_eq_some_iff.mp hrun
    have hmove := hmoves move (by simp) network
    obtain ⟨middle, hrecord⟩ := exists_continues hmove hperform record
    obtain ⟨record', hreachable, htrace⟩ := ih (fun other hother => hmoves other (by simp [hother]))
      (h.step hmove hperform hrecord) hrest
    obtain ⟨actions, hmiddle, -, -⟩ := hrecord.acts
    exact ⟨record', hreachable, (hmiddle ▸ List.prefix_append _ _).trans htrace⟩

/-- A client writes and waits; the replica applies the write and acknowledges it. -/
def waitMoves : List Move :=
  let serve (work : ProcessorTask) : Move := .serve (.task (.still ⟨5, 5⟩) work)
  [serve (.registerClient 1 0), serve (.ofClient 1 [ascii "SET", ascii "k", ascii "v"]),
    serve (.ofClient 1 [ascii "WAIT", ascii "1", ascii "0"]),
    .install 0, .send 0, .receive 0 10, .send 0, .receive 0 1000, .apply 0 (stillTurn ⟨7, 7⟩),
    .apply 0 (stillTurn ⟨7, 7⟩), .acknowledge 0]

theorem admissible_waitMoves : ∀ move ∈ waitMoves, ∀ network, move.Admissible network := by
  have hserves : ∀ words network, Move.Admissible network
      (.serve (.task (.still ⟨5, 5⟩) (.ofClient 1 words))) :=
    fun words network => ⟨by simp [ProcessorTask.ofClient, Phase.OfMaster, ProcessorTask.OfMaster],
      rfl⟩
  have hquiet : ∀ network, Move.Admissible network (.apply 0 (stillTurn ⟨7, 7⟩)) := by
    simp [Move.Admissible, stillTurn, Turn.phases]
  intro move hmove network
  simp only [waitMoves, List.mem_cons, List.not_mem_nil, or_false] at hmove
  rcases hmove with rfl | rfl | rfl | rfl | rfl | rfl | rfl | rfl | rfl | rfl | rfl
  · exact ⟨trivial, rfl⟩
  · exact hserves _ network
  · exact hserves _ network
  · exact trivial
  · exact trivial
  · exact trivial
  · exact trivial
  · exact trivial
  · exact hquiet network
  · exact hquiet network
  · exact trivial

/-- The response is this number. -/
def isNumber (number : Int) : Response → Bool
  | .integer value => decide (value = number)
  | _ => false

theorem runMoves_waited :
    ∃ joined network next reply,
      { master := sampleMaster : Network }.perform Host.plain (.join 9 sampleReplica) =
        some joined ∧
      runMoves Host.plain waitMoves joined = some network ∧
      network.perform Host.plain (.serve .retryWaits) = some next ∧
      reply ∈ next.master.replies.drop network.master.replies.length ∧
      (∃ pending ∈ network.master.pendingWaits, pending.task = reply.task) ∧
      nameOf reply.task.command = some .wait ∧ reply.response = .integer 1 ∧
      network.master.replication.nextSession = 1 := by
  have hsome : ({ master := sampleMaster : Network }.perform Host.plain
      (.join 9 sampleReplica)).any (fun joined =>
        (runMoves Host.plain waitMoves joined).any fun network =>
          decide (network.master.replication.nextSession = 1) &&
          (network.perform Host.plain (.serve .retryWaits)).any fun next =>
            (next.master.replies.drop network.master.replies.length).any fun reply =>
              network.master.pendingWaits.any (fun pending =>
                decide (pending.task = reply.task)) &&
              decide (nameOf reply.task.command = some .wait) &&
              isNumber 1 reply.response) = true := by
    decide +kernel
  simp only [Option.any_eq_true, List.any_eq_true, Bool.and_eq_true, decide_eq_true_eq] at hsome
  obtain ⟨joined, hjoined, network, hrun, hsessions, next, hnext, reply, hreply,
    ⟨hpending, hname⟩, hresponse⟩ := hsome
  refine ⟨joined, network, next, reply, hjoined, hrun, hnext, hreply, hpending, hname, ?_,
    hsessions⟩
  cases hvalue : reply.response with
  | integer value =>
    rw [hvalue] at hresponse
    rw [of_decide_eq_true hresponse]
  | _ =>
    rw [hvalue] at hresponse
    cases hresponse

theorem wait_is_sound_sample :
    ∃ network next record record' reply,
      Reachable Host.plain sampleMaster network record ∧
      network.perform Host.plain (.serve .retryWaits) = some next ∧
      Record.Continues (.serve .retryWaits) network next record record' ∧
      reply ∈ next.master.replies.drop network.master.replies.length ∧
      reply.response = .integer 1 ∧
      ∃ payload earlier session found node,
        LastWrite reply.task.clientId payload earlier
          (record'.moments reply.task.promise).trace ∧
        network.master.replication.sessions.lookup session = some found ∧
        network.nodes.lookup session = some node ∧
        session < (earlier.foldl perform sampleMaster.replication).nextSession ∧
        ∃ target, node.HasApplied found ⟨payload, target⟩ := by
  obtain ⟨joined, network, next, reply, hjoined, hrun, hnext, hreply, ⟨pending, hpending, htask⟩,
    hname, hresponse, hsessions⟩ := runMoves_waited
  have hjoins : Move.Admissible { master := sampleMaster : Network } (.join 9 sampleReplica) :=
    ⟨rfl, by simp⟩
  have hfirst : Record.Continues (.join 9 sampleReplica) { master := sampleMaster } joined {}
      { trace := [.register 9] } := by
    cases hjoined
    exact ⟨⟨[.register 9], rfl, @Acts.single (.register 9) trivial _, by simp [Move.Allows]⟩, rfl⟩
  obtain ⟨record, hreachable, htrace⟩ :=
    (Reachable.start.step hjoins hjoined hfirst).run admissible_waitMoves hrun
  have hserves : Serves .retryWaits := ⟨trivial, rfl⟩
  have hmove : Move.Admissible network (.serve .retryWaits) := hserves
  obtain ⟨record', hrecord⟩ := exists_continues hmove hnext record
  -- The command was blocked, so its client had written something.
  have hawaited : Awaited sampleMaster.replication record network.master.nextPromise pending :=
    (coherent_of_reachable hreachable).waits pending hpending
  have hmoment : record'.moments reply.task.promise = record.moments pending.task.promise := by
    rw [hrecord.moments, ← htask]
    exact moments_of_lt hawaited.submitted
  have htarget : writeOffset reply.task.clientId
      ((record'.moments reply.task.promise).trace.foldl perform sampleMaster.replication) ≠ 0 := by
    rw [hmoment, ← htask, ← hawaited.target]
    exact hawaited.written
  obtain ⟨payload, earlier, request, hwrite, -, ⟨counted, -, hlength, hcounted⟩, -⟩ :=
    wait_is_sound [] (User.default none) {} {} hreachable hserves hnext hrecord hreply hname
      hresponse htarget
  obtain ⟨session, hsession⟩ := List.exists_mem_of_length_pos (hlength ▸ Nat.one_pos)
  obtain ⟨found, node, hfound, hnode, happlied⟩ := hcounted session hsession
  -- The only session was registered first of all.
  have hknown : session < (earlier.foldl perform sampleMaster.replication).nextSession := by
    have hsession : session < 1 :=
      hsessions ▸ ((coherent_of_reachable hreachable).linked.coherent session node hnode).known
    have hearlier : (record'.moments reply.task.promise).trace <+: record.trace :=
      hmoment ▸ hawaited.earlier
    exact Nat.lt_of_lt_of_le hsession
      (hwrite.registered hearlier htrace sampleMaster.replication)
  exact ⟨network, next, record, record', reply, hreachable, hnext, hrecord, hreply, hresponse,
    payload, earlier, session, found, node, hwrite, hfound, hnode, hknown, _, happlied hknown⟩

end RedisServer.Server
