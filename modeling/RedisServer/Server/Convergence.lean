import RedisServer.Processor.Broadcast
import RedisServer.Server.MasterLink

/-!
# A replica becomes a copy of its master

A replica joins a master whose database is empty.  From then on the master sends
it what it propagates, unit by unit, and the replica applies the units in the same
order.  If nothing is given an expiry, then no command of the stream is answered
with an error, and in the end the replica has the entries of the master.

With expiries this fails.  A `SET` with an expiry is sent as it was given, and the
replica counts the time from the arrival of the command; what had expired on the
master by the time of the next command may not have expired on the replica.
-/

namespace RedisServer.Server

open Resp KeyedStore Commands Aof Processor Replication RunningTotal

/-- The runs of a master that can be followed: the commands come from clients, no
entry is given an expiry, the system clock is after the epoch, and no file is
read. -/
abbrev followable : Regime := Regime.permanent (· = .client) fun _ => False

/-! ## What the master sends -/

section Emitted

variable {host : Host}

theorem emitted_proper (deeds : List Deed) :
    ∀ unit ∈ deeds.flatMap (Deed.emitted host), unit.Proper := by
  intro unit hunit
  obtain ⟨deed, -, hunit⟩ := List.mem_flatMap.mp hunit
  cases deed with
  | askedForOffsets =>
    obtain rfl := List.mem_singleton.mp hunit
    trivial
  | ran task response result => exact Deed.unit_proper (Option.mem_toList.mp hunit)
  | transacted task commands responses result =>
    exact Deed.unit_proper (Option.mem_toList.mp hunit)
  | _ => cases hunit

/-- The frames of a master hold the payloads of the units. -/
theorem frames_eq_payloads {deeds : List Deed}
    (hproper : ∀ deed ∈ deeds, deed.Proper host followable) :
    deeds.flatMap (Deed.frames host .master) =
      (deeds.flatMap (Deed.emitted host)).map StreamUnit.payload := by
  rw [List.map_flatMap]
  refine List.flatMap_congr fun deed hdeed => ?_
  have hpayload : deed.payload host = _ := Deed.payload_eq deed
  have hsource := hproper deed hdeed
  cases deed with
  | ran task response result =>
    have hclient : task.source = .client := hsource.1.1
    simp only [Deed.frames, Deed.source, hclient, and_self, if_true, hpayload, Deed.emitted]
    cases Deed.unit host (.ran task response result) <;> rfl
  | transacted task commands responses result =>
    have hclient : task.source = .client := hsource.1.1
    simp only [Deed.frames, Deed.source, hclient, and_self, if_true, hpayload, Deed.emitted]
    cases Deed.unit host (.transacted task commands responses result) <;> rfl
  | recovered events => rfl
  | answered reply => rfl
  | askedForOffsets => simp [Deed.frames, Deed.emitted, StreamUnit.payload, StreamUnit.commands]

end Emitted

/-- A master with an empty database, and nothing queued or waiting in it that could
not be submitted later as well. -/
structure Joining (host : Host) (origin : Processor) : Prop where
  reached : ∃ replicationId defaultUser rdbConfig aofConfig earlier,
    (∀ phase ∈ earlier, Phase.OfMaster phase) ∧
      runPhases host earlier
        (.start .master replicationId defaultUser rdbConfig aofConfig) = some origin
  empty : origin.database.entries = ∅
  holds : origin.Holds host followable

/-- A replica with an empty database that has not applied anything yet. -/
structure Joined (host : Host) (replica : Processor) : Prop where
  hosting : replica.Hosting host
  idle : replica.LinkIdle
  ready : replica.Ready replicationClientId
  empty : replica.database.entries = ∅
  unanswered : ∀ reply ∈ replica.replies, reply.task.isLink = false

namespace Joining

variable {host : Host} {origin : Processor}

theorem sound (h : Joining host origin) : origin.replication.Sound := by
  obtain ⟨replicationId, _, _, _, earlier, hearlier, hrun⟩ := h.reached
  exact sound_run hearlier (Sound.start .master replicationId) hrun

theorem role (h : Joining host origin) : origin.replication.role = .master := by
  obtain ⟨replicationId, _, _, _, earlier, hearlier, hrun⟩ := h.reached
  obtain ⟨actions, hacts⟩ := acts_run hearlier hrun
  exact hacts.role

/-- **What the session of a replica is given from the beginning on**: units that
reproduce the database of the master. -/
theorem emits (h : Joining host origin) {clientId : ClientId} {phases : List Phase}
    (hmaster : ∀ phase ∈ phases, phase.OfMaster)
    (hwithin : ∀ phase ∈ phases, phase.Within followable) {final : Processor}
    (hrun : runPhases host phases (origin.processReplicaRegistration clientId).2 = some final)
    (hlogged : final.appendErrors = origin.appendErrors) {session : ReplicaSession}
    (hsession : final.replication.sessions.lookup origin.replication.nextSession = some session)
    (hopen : session.closed = false) {copy : Database} (hcopy : copy.entries = ∅) :
    ∃ units : List StreamUnit, (∀ unit ∈ units, unit.Proper) ∧
      (∀ command ∈ units.flatMap StreamUnit.writes, Sized command) ∧
      session.frames.flatMap ReplicationFrame.payload = units.flatMap StreamUnit.payload ∧
      Reproduces host final.database (units.flatMap StreamUnit.writes) copy := by
  let joined := (origin.processReplicaRegistration clientId).2
  have hholds : joined.Holds host followable := h.holds.congr rfl rfl rfl rfl
  obtain ⟨-, deeds, hchronicle⟩ := proceeds_run hwithin hrun hholds
  have hempty : joined.database.entries = ∅ := h.empty
  have hlasting := hchronicle.lasting_of_eq not_false hlogged
  obtain ⟨hreproduces, hsized⟩ :=
    hchronicle.reproduces hlasting ⟨fun key => by rw [hcopy, hempty], fun key => by
      rw [hempty]
      rintro _ ⟨⟩⟩
  rw [← writes_emitted hlasting] at hreproduces hsized
  refine ⟨deeds.flatMap (Deed.emitted host), emitted_proper deeds, hsized, ?_, hreproduces⟩
  -- The backlog grew by the payloads of the units.
  have hstream := (hchronicle.stream hlasting).backlog
  rw [show joined.replication.role = .master from h.role,
    frames_eq_payloads hchronicle.proper] at hstream
  obtain ⟨earlier, later, hbacklog, hearlier, hlater⟩ := List.map_eq_append_iff.mp hstream
  -- The session began where the backlog ended at that time.
  have hsound : joined.replication.Sound := h.sound.register clientId
  obtain ⟨actions, hacts⟩ := acts_run hmaster hrun
  obtain ⟨registered, hregistered, hsame⟩ := hsound.lookup_acts hacts (Nat.lt_succ_self _) hsession
  have hstart : session.startingOffset = origin.replication.offset := by
    have hentry : joined.replication.sessions.lookup origin.replication.nextSession =
        some { clientId, startingOffset := origin.replication.offset } := AList.lookup_insert _
    rw [hsame.startingOffset, Option.some.inj (hregistered.symm.trans hentry)]
  have hearlier' : origin.replication.offset = total frameSize earlier := by
    have hsizes : ∀ frames : List ReplicationFrame,
        frames.map frameSize = (frames.map ReplicationFrame.payload).map List.length := by simp
    rw [h.sound.offset, total, total, hsizes, hsizes, hearlier]
    rfl
  have hfinal := hsound.acts hacts
  have hframes : session.frames = later := by
    rw [(hfinal.frames_eq hsession hopen).1, hstart, hearlier', hfinal.filter_after hbacklog]
  rw [hframes, List.flatMap_def, hlater, ← List.flatMap_def]

end Joining

/-! ## What the replica makes of it -/

section Replica

variable {host : Host} {origin : Processor} (horigin : Joining host origin) {clientId : ClientId}
  {phases : List Phase} (hmaster : ∀ phase ∈ phases, phase.OfMaster)
  (hwithin : ∀ phase ∈ phases, phase.Within followable) {final : Processor}
  (hrun : runPhases host phases (origin.processReplicaRegistration clientId).2 = some final)
  (hlogged : final.appendErrors = origin.appendErrors) {session : ReplicaSession}
  (hsession : final.replication.sessions.lookup origin.replication.nextSession = some session)
  (hopen : session.closed = false) {replica : Processor} (hreplica : Joined host replica)
  {turns : Stream' Turn} (hturns : ∀ n, (turns.get n).Undisturbed) {buffer : Bytes}
  {chunks : List Bytes}
  (hbytes : buffer ++ chunks.flatten = session.frames.flatMap ReplicationFrame.payload)
include horigin hmaster hwithin hrun hlogged hsession hopen hreplica hturns hbytes

theorem replica_follows :
    let outcome := consumeReplicationStream host turns buffer chunks { processor := replica }
    (outcome.2.link = none ∧ ¬ ∀ n, (turns.get n).Quiet) ∨
      ∃ link, outcome.1 = [] ∧ outcome.2.link = some link ∧ link.status = .streaming ∧
        Following host link.processor ∧ Mirrors link.processor.database final.database := by
  obtain ⟨units, hproper, hsized, hframes, hreproduces⟩ :=
    horigin.emits hmaster hwithin hrun hlogged hsession hopen hreplica.empty
  have hfollowing : Following host replica := ⟨hreplica.hosting, hreplica.idle,
    fun reply hreply hlink => by
      rw [hreplica.unanswered reply hreply] at hlink
      cases hlink⟩
  exact streams_units hproper hsized hfollowing hreplica.ready hreproduces hturns
    (hbytes.trans hframes)

/-- **A replica becomes a copy of its master.**  It joined when the master's database
was empty, nobody gives an entry an expiry, and no append fails.  When the replica
has received what its session was given, in whatever pieces, it has applied every
command of it without an error reply, and it has the entries of the master.

(The first case is that a client of the replica itself has sent it a command on
which the code is undefined; without such clients there is only the second.) -/
theorem replica_converges :
    let outcome := consumeReplicationStream host turns buffer chunks { processor := replica }
    (outcome.2.link = none ∧ ¬ ∀ n, (turns.get n).Quiet) ∨
      ∃ link, outcome.1 = [] ∧ outcome.2.link = some link ∧ link.status = .streaming ∧
        (∀ reply ∈ link.processor.replies, reply.task.isLink = true →
          faultless reply.response = true) ∧
        ∀ key, link.processor.database.entries.lookup key = final.database.entries.lookup key := by
  intro outcome
  rcases replica_follows horigin hmaster hwithin hrun hlogged hsession hopen hreplica hturns
    hbytes with hundefined | ⟨link, hbuffer, hlink, hstreaming, hfollowing, hmirrors⟩
  · exact .inl hundefined
  · exact .inr ⟨link, hbuffer, hlink, hstreaming, hfollowing.faultless, hmirrors.same⟩

end Replica

/-! ## A small network -/

/-- The master of the examples, before anything happened. -/
def sampleMaster : Processor := .start .master [] (User.default none) {} {}

def sampleReplica : Processor := .start .replica [] (User.default none) {} {}

/-- A turn in which nothing happens but the command. -/
def stillTurn (clock : Clock) : Turn := { env := Env.still clock }

theorem append_reliable (payload : Bytes) (file : AppendOnlyFile) :
    (append {} payload file).1 = .ok () := by
  have hwrite : writeAll file.path ({} : Disk).writes payload file.contents =
      (.ok (), file.contents ++ payload) := by
    cases payload <;> simp [writeAll]
  unfold append
  rw [hwrite]
  dsimp only
  split
  · rfl
  · split <;> rfl

theorem undisturbed_stillTurn (clock : Clock) : (stillTurn clock).Undisturbed where
  guests := by simp [stillTurn, Turn.phases]
  sends := rfl
  logs := append_reliable

theorem quiet_stillTurn (clock : Clock) : (stillTurn clock).Quiet := by
  simp [stillTurn, Turn.Quiet, Turn.phases]

theorem joining_sampleMaster (host : Host) : Joining host sampleMaster where
  reached := ⟨[], User.default none, {}, {}, [], by simp, rfl⟩
  empty := rfl
  holds := holds_start .master [] (User.default none) {} {}

theorem joined_sampleReplica (host : Host) : Joined host sampleReplica where
  hosting :=
    { role := rfl
      queued := by
        intro clientId transaction _ hlookup
        simp [sampleReplica, Processor.start] at hlookup
      pops := by simp [sampleReplica, Processor.start]
      reads := by simp [sampleReplica, Processor.start]
      waits := rfl
      stranger := ⟨by simp [sampleReplica, Processor.start],
        by simp [sampleReplica, Processor.start]⟩ }
  idle := ⟨rfl, by simp [sampleReplica, Processor.start]⟩
  ready := ⟨rfl, rfl⟩
  empty := rfl
  unanswered := by simp [sampleReplica, Processor.start]

theorem within_sampleTasks_followable :
    ∀ phase ∈ stillRun ⟨5, 5⟩ sampleTasks, phase.Within followable := by
  refine within_stillRun ⟨by decide, by decide⟩ ?_
  have hcommand : ∀ (clientId : ClientId) (words : Command),
      Sized words ∧ setsExpiry words = false →
      (ProcessorTask.ofClient clientId words).Within followable :=
    fun _ _ h _ => ⟨rfl, h⟩
  intro task htask
  simp only [sampleTasks, List.mem_cons, List.not_mem_nil, or_false] at htask
  rcases htask with rfl | rfl | htask
  · exact trivial
  · exact trivial
  · rcases htask with rfl | rfl | rfl | rfl | rfl | rfl <;> exact hcommand _ _ (by decide)

theorem runPhases_followed :
    ∃ final session, runPhases Host.plain (stillRun ⟨5, 5⟩ sampleTasks)
        (sampleMaster.processReplicaRegistration 9).2 = some final ∧
      final.appendErrors = [] ∧
      final.replication.sessions.lookup 0 = some session ∧ session.closed = false ∧
      session.frames.length = 3 := by
  simp only [exists_and_left]
  decide +kernel

theorem replica_converges_sample :
    ∃ final session link, runPhases Host.plain (stillRun ⟨5, 5⟩ sampleTasks)
        (sampleMaster.processReplicaRegistration 9).2 = some final ∧
      final.replication.sessions.lookup 0 = some session ∧ session.frames.length = 3 ∧
      (consumeReplicationStream Host.plain (Stream'.const (stillTurn ⟨7, 7⟩)) []
        [session.frames.flatMap ReplicationFrame.payload] { processor := sampleReplica }).2.link =
          some link ∧ link.status = .streaming ∧
      ∀ key, link.processor.database.entries.lookup key = final.database.entries.lookup key := by
  obtain ⟨final, session, hrun, hlogged, hsession, hopen, hframes⟩ := runPhases_followed
  rcases replica_converges (joining_sampleMaster Host.plain) (by decide)
    within_sampleTasks_followable hrun hlogged hsession hopen (joined_sampleReplica Host.plain)
    (show ∀ n, ((Stream'.const (stillTurn ⟨7, 7⟩)).get n).Undisturbed from
      fun _ => undisturbed_stillTurn _)
    (show [] ++ [session.frames.flatMap ReplicationFrame.payload].flatten = _ by simp) with
    ⟨-, hloud⟩ | ⟨link, -, hlink, hstreaming, -, hsame⟩
  · exact absurd (fun _ => quiet_stillTurn _) hloud
  · exact ⟨final, session, link, hrun, hsession, hframes, hlink, hstreaming, hsame⟩

end RedisServer.Server
