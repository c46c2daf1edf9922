import RedisServer.Processor.Waiters

/-!
# The end of an iteration

An iteration that processed a task ends in a settled state: no blocked command
could be answered.  Another round of passes would therefore change nothing.
-/

namespace RedisServer

open Resp KeyedStore Commands Aof Database

variable {before after processor : Processor} {host : Host}

/-- A step that leaves the database alone, adds nobody to a queue and lets no
count of acknowledgements grow. -/
structure Processor.Steady (before after : Processor) : Prop where
  database : after.database = before.database
  counts : ∀ targetOffset, (after.replication.countAcknowledgedReplicas targetOffset).1 ≤
    (before.replication.countAcknowledgedReplicas targetOffset).1
  pops : after.pendingListPops ⊆ before.pendingListPops
  reads : after.pendingStreamReads ⊆ before.pendingStreamReads
  waits : after.pendingWaits ⊆ before.pendingWaits

/-- A phase that is no task and no retry. -/
def Phase.Calm : Phase → Prop
  | .external _ | .expireListPops _ | .expireStreamReads _ | .expireWaits _ => True
  | _ => False

namespace Processor

theorem Steady.refl (processor : Processor) : Steady processor processor :=
  ⟨rfl, fun _ => le_rfl, fun _ h => h, fun _ h => h, fun _ h => h⟩

theorem Steady.trans {first second third : Processor} (h₁ : Steady first second)
    (h₂ : Steady second third) : Steady first third where
  database := h₂.database.trans h₁.database
  counts targetOffset := (h₂.counts targetOffset).trans (h₁.counts targetOffset)
  pops := fun _ h => h₁.pops (h₂.pops h)
  reads := fun _ h => h₁.reads (h₂.reads h)
  waits := fun _ h => h₁.waits (h₂.waits h)

theorem Settled.steady (h : before.Settled) (hsteady : Steady before after) : after.Settled where
  pops pending hpending := by
    unfold PendingListPop.Blocked
    rw [hsteady.database]
    exact h.pops pending (hsteady.pops hpending)
  reads pending hpending := by
    unfold PendingStreamRead.Blocked
    rw [hsteady.database]
    exact h.reads pending (hsteady.reads hpending)
  waits pending hpending :=
    lt_of_le_of_lt (hsteady.counts _) (h.waits pending (hsteady.waits hpending))

/-! ## Steady phases -/

/-- A change of a session that keeps its client keeps every count. -/
theorem hasAcknowledged_updateSession {update : ReplicaSession → ReplicaSession}
    (hclient : ∀ session, (update session).clientId = session.clientId) (target : SessionId)
    (replication : Replication) (targetOffset : ℕ) (session : SessionId) :
    (replication.updateSession target update).hasAcknowledged targetOffset session =
      replication.hasAcknowledged targetOffset session := by
  unfold Replication.updateSession
  cases hlookup : replication.sessions.lookup target with
  | none => rfl
  | some found =>
    unfold Replication.hasAcknowledged
    by_cases hsession : session = target
    · subst hsession
      simp only [AList.lookup_insert, hlookup]
      rw [hclient found]
    · simp [hsession]

theorem replicaSessions_updateSession (update : ReplicaSession → ReplicaSession)
    (target : SessionId) (replication : Replication) :
    (replication.updateSession target update).replicaSessions = replication.replicaSessions := by
  unfold Replication.updateSession
  split <;> rfl

theorem steady_replication {replication : Replication}
    (hcounts : ∀ targetOffset, (replication.countAcknowledgedReplicas targetOffset).1 ≤
      (processor.replication.countAcknowledgedReplicas targetOffset).1) :
    Steady processor { processor with replication } :=
  ⟨rfl, hcounts, fun _ h => h, fun _ h => h, fun _ h => h⟩

theorem steady_updateSession {update : ReplicaSession → ReplicaSession}
    (hclient : ∀ session, (update session).clientId = session.clientId) (target : SessionId)
    (processor : Processor) :
    Steady processor
      { processor with replication := processor.replication.updateSession target update } := by
  refine steady_replication fun targetOffset => ?_
  simp only [Replication.countAcknowledgedReplicas, replicaSessions_updateSession]
  refine List.countP_mono_left fun session _ h => ?_
  rwa [hasAcknowledged_updateSession hclient] at h

theorem clientId_sendFrame (session : ReplicaSession) :
    session.sendFrame.clientId = session.clientId := by
  unfold ReplicaSession.sendFrame
  split
  · rfl
  · split <;> rfl

theorem steady_connections (processor : Processor) (connections : Connections) :
    Steady processor { processor with connections } :=
  ⟨rfl, fun _ => le_rfl, fun _ h => h, fun _ h => h, fun _ h => h⟩

/-- What the other threads do cannot make a blocked command ready. -/
theorem steady_external (event : External) (processor : Processor) :
    Steady processor (event.perform processor) := by
  cases event with
  | createSession session =>
    simp only [External.perform]
    split
    · exact .refl _
    · exact steady_connections _ _
  | popFrame session =>
    simp only [External.perform]
    split
    · exact .refl _
    · exact steady_connections _ _
  | dropSession session => exact steady_connections _ _
  | sendFrame session => exact steady_updateSession clientId_sendFrame session _
  | closeReplica session =>
    have hclose : ∀ session : ReplicaSession, session.close.clientId = session.clientId :=
      fun _ => rfl
    exact steady_updateSession hclose session _
  | dropReplica target =>
    -- The dropped session does not count any more, the others count as before.
    refine steady_replication fun targetOffset => ?_
    refine List.countP_mono_left fun session _ h => ?_
    unfold Replication.hasAcknowledged Replication.dropSession at h
    unfold Replication.hasAcknowledged
    by_cases hsession : session = target
    · subst hsession
      simp at h
    · simpa [hsession] using h

theorem steady_fulfil (processor : Processor) (task : Task) (transaction : List Command)
    (response : Response) : Steady processor (processor.fulfil task transaction response) :=
  ⟨rfl, fun _ => le_rfl, fun _ h => h, fun _ h => h, fun _ h => h⟩

/-- A pass whose visits are steady is steady. -/
theorem steady_scan {Input Pending : Type}
    {visit : Input → Pending → Processor → Option Pending × Processor}
    (hvisit : ∀ input pending processor, Steady processor (visit input pending processor).2)
    (inputs : Stream' Input) (items : List Pending) (processor : Processor) :
    Steady processor (Scan.scan visit inputs items processor).2 :=
  Scan.scan_relation .refl (fun _ _ _ h₁ h₂ => h₁.trans h₂)
    (fun input pending processor (_ : True) (_ : True) => hvisit input pending processor) inputs
    (fun _ => trivial) items (fun _ _ => trivial) processor

theorem steady_expireIn {Pending : Type} (taskOf : Pending → Task)
    (deadlineOf : Pending → Option Int) (now : Int) (input : Unit) (pending : Pending)
    (processor : Processor) :
    Steady processor (expireIn taskOf deadlineOf now input pending processor).2 := by
  unfold expireIn
  split
  · exact steady_fulfil _ _ _ _
  · exact .refl _

theorem steady_waitVisit {Due : PendingWait → ℕ → Prop} {pending : PendingWait}
    {outcome : Option PendingWait × Processor} (h : WaitVisit Due pending processor outcome) :
    Steady processor outcome.2 := by
  have hpruned : Steady processor { processor with
      replication := (processor.replication.countAcknowledgedReplicas pending.targetOffset).2 } :=
    steady_replication fun targetOffset =>
      (count_of_pruned _ pending.targetOffset targetOffset).le
  cases h with
  | kept => exact .refl _
  | counted => exact hpruned
  | answered _ => exact hpruned.trans (steady_fulfil _ _ _ _)

theorem steady_expirePendingListPops (now : Int) (processor : Processor) :
    Steady processor (processor.expirePendingListPops now) := by
  obtain ⟨hdatabase, hcounts, -, hreads, hwaits⟩ := steady_scan
    (steady_expireIn PendingListPop.task PendingListPop.deadline now) (Stream'.const ())
    processor.pendingListPops processor
  exact ⟨hdatabase, hcounts, fun _ h => mem_of_expireIn _ h, hreads, hwaits⟩

theorem steady_expirePendingStreamReads (now : Int) (processor : Processor) :
    Steady processor (processor.expirePendingStreamReads now) := by
  obtain ⟨hdatabase, hcounts, hpops, -, hwaits⟩ := steady_scan
    (steady_expireIn PendingStreamRead.task PendingStreamRead.deadline now) (Stream'.const ())
    processor.pendingStreamReads processor
  exact ⟨hdatabase, hcounts, hpops, fun _ h => mem_of_expireIn _ h, hwaits⟩

theorem steady_waits {Due : PendingWait → ℕ → Prop}
    {visit : Unit → PendingWait → Processor → Option PendingWait × Processor}
    (hvisit : ∀ input pending processor,
      WaitVisit Due pending processor (visit input pending processor)) (inputs : Stream' Unit)
    (processor : Processor) :
    Steady processor
      { (Scan.scan visit inputs processor.pendingWaits processor).2 with
        pendingWaits := (Scan.scan visit inputs processor.pendingWaits processor).1 } :=
  { steady_scan (fun input pending processor => steady_waitVisit (hvisit input pending processor))
      inputs processor.pendingWaits processor with
    waits := (scan_waits_sublist hvisit _ _ _).subset }

theorem steady_expirePendingWaits (now : Int) (processor : Processor) :
    Steady processor (processor.expirePendingWaits now) :=
  steady_waits (waitVisit_expireWait now) _ processor

theorem steady_perform {phase : Phase} (hcalm : phase.Calm)
    (h : phase.perform host before = some after) : Steady before after := by
  cases phase with
  | external event =>
    cases h
    exact steady_external event _
  | expireListPops now =>
    cases h
    exact steady_expirePendingListPops now _
  | expireStreamReads now =>
    cases h
    exact steady_expirePendingStreamReads now _
  | expireWaits now =>
    cases h
    exact steady_expirePendingWaits now _
  | _ => exact hcalm.elim

theorem steady_run {phases : List Phase} (hcalm : ∀ phase ∈ phases, phase.Calm)
    (h : runPhases host phases before = some after) : Steady before after := by
  have hrun := Runs.run_relation Steady.refl (fun _ _ _ h₁ h₂ => h₁.trans h₂)
    (fun _ _ _ hphase (_ : True) hstep => ⟨trivial, steady_perform hphase hstep⟩) hcalm trivial h
  exact hrun.2

/-! ## The three retries -/

theorem Valid.steady (h : before.Valid) (hsteady : Steady before after) : after.Valid := by
  unfold Valid
  rw [hsteady.database]
  exact h

theorem valid_retryPendingListPops (inputs : Stream' (Clock × Disk)) (hvalid : processor.Valid) :
    (processor.retryPendingListPops inputs).Valid := by
  have hscan : (Scan.scan retryListPop inputs processor.pendingListPops processor).2.Valid := by
    refine Scan.scan_invariant (fun input pending state hstate => ?_) _ _ hvalid
    unfold Valid
    rw [database_retryListPop]
    exact Invariant.popListElement hstate _ _
  exact hscan

/-- No key appeared, and the queue of pops is the same. -/
def Fading (before after : Processor) : Prop :=
  after.pendingListPops = before.pendingListPops ∧
    ∀ key, before.database.entries.lookup key = none → after.database.entries.lookup key = none

theorem fading_retryStreamRead (clock : Clock) (pending : PendingStreamRead)
    (processor : Processor) :
    Fading processor (retryStreamRead clock pending processor).2 := by
  refine ⟨?_, fun key => (purges_retryStreamRead clock pending processor).lookup_eq_none⟩
  have hretry := retryStreamRead_cases clock pending processor
  generalize retryStreamRead clock pending processor = outcome at hretry ⊢
  cases hretry <;> rfl

theorem fading_retryPendingStreamReads (clocks : Stream' Clock) (processor : Processor) :
    Fading processor (processor.retryPendingStreamReads clocks) := by
  have hscan : Fading processor
      (Scan.scan retryStreamRead clocks processor.pendingStreamReads processor).2 :=
    Scan.scan_relation (fun _ => ⟨rfl, fun _ h => h⟩)
      (fun _ _ _ h₁ h₂ => ⟨h₂.1.trans h₁.1, fun key h => h₂.2 key (h₁.2 key h)⟩)
      (fun clock pending state (_ : True) (_ : True) => fading_retryStreamRead clock pending state)
      clocks (fun _ => trivial) _ (fun _ _ => trivial) processor
  exact hscan

theorem valid_retryPendingStreamReads (clocks : Stream' Clock) (hvalid : processor.Valid) :
    (processor.retryPendingStreamReads clocks).Valid := by
  have hscan : (Scan.scan retryStreamRead clocks processor.pendingStreamReads
      processor).2.Valid := by
    refine Scan.scan_invariant ?_ _ _ hvalid
    intro clock pending state hstate
    exact Invariant.purges hstate (purges_retryStreamRead clock pending state)
  exact hscan

theorem steady_retryPendingWaits (processor : Processor) :
    Steady processor processor.retryPendingWaits :=
  steady_waits waitVisit_retryWait _ processor

/-- **After the three retries nobody waits for something that is there.** -/
theorem settled_of_retries {inputs : Stream' (Clock × Disk)} {clocks : Stream' Clock}
    {first second third : List Phase} (hfirst : ∀ phase ∈ first, phase.Calm)
    (hsecond : ∀ phase ∈ second, phase.Calm) (hthird : ∀ phase ∈ third, phase.Calm)
    (hvalid : before.Valid)
    (hrun : runPhases host (.retryListPops inputs :: first ++ .retryStreamReads clocks :: second ++
      .retryWaits :: third) before = some after) : after.Settled ∧ after.Valid := by
  obtain ⟨p₂, hrun₂, hrun₃⟩ := Runs.run_append_eq_some.mp hrun
  obtain ⟨p₁, hrun₁, hrun₂⟩ := Runs.run_append_eq_some.mp hrun₂
  obtain ⟨_, hpops, hrun₁⟩ := Runs.run_cons_eq_some.mp hrun₁
  obtain ⟨_, hreads, hrun₂⟩ := Runs.run_cons_eq_some.mp hrun₂
  obtain ⟨_, hwaits, hrun₃⟩ := Runs.run_cons_eq_some.mp hrun₃
  cases hpops
  cases hreads
  cases hwaits
  have hsteady₁ := steady_run hfirst hrun₁
  have hsteady₂ := steady_run hsecond hrun₂
  have hsteady₃ := steady_run hthird hrun₃
  -- The pops are blocked after their retry, and the retry of the reads keeps them so.
  have hvalid₁ : p₁.Valid := (valid_retryPendingListPops inputs hvalid).steady hsteady₁
  have hpops₁ : ∀ pending ∈ p₁.pendingListPops, pending.Blocked p₁ := by
    intro pending hpending
    unfold PendingListPop.Blocked
    rw [hsteady₁.database]
    exact blocked_retryPendingListPops inputs hvalid pending (hsteady₁.pops hpending)
  have hfading := fading_retryPendingStreamReads clocks p₁
  have hpops₂ : ∀ pending ∈ p₂.pendingListPops, pending.Blocked p₂ := by
    intro pending hpending
    have hpending' := hsteady₂.pops hpending
    rw [hfading.1] at hpending'
    unfold PendingListPop.Blocked
    rw [hsteady₂.database]
    exact hfading.2 _ (hpops₁ pending hpending')
  have hvalid₂ : p₂.Valid := (valid_retryPendingStreamReads clocks hvalid₁).steady hsteady₂
  have hreads₂ : ∀ pending ∈ p₂.pendingStreamReads, pending.Blocked p₂ := by
    intro pending hpending
    unfold PendingStreamRead.Blocked
    rw [hsteady₂.database]
    exact blocked_retryPendingStreamReads clocks hvalid₁ pending (hsteady₂.reads hpending)
  -- The retry of the waits touches neither the database nor the other queues.
  have hsteady := steady_retryPendingWaits p₂
  have hsettled : p₂.retryPendingWaits.Settled := by
    refine ⟨fun pending hpending => ?_, fun pending hpending => ?_, blocked_retryPendingWaits p₂⟩
    · unfold PendingListPop.Blocked
      rw [hsteady.database]
      exact hpops₂ pending (hsteady.pops hpending)
    · unfold PendingStreamRead.Blocked
      rw [hsteady.database]
      exact hreads₂ pending (hsteady.reads hpending)
  exact ⟨hsettled.steady hsteady₃, (hvalid₂.steady hsteady).steady hsteady₃⟩

/-! ## Another round changes nothing -/

/-- The state is settled, and at these times nobody's time is over. -/
structure Idle (popsOver readsOver waitsOver : Int) (processor : Processor) : Prop
    extends Settled processor where
  valid : processor.Valid
  popsLeft : ∀ pending ∈ processor.pendingListPops, isOver popsOver pending.deadline = false
  readsLeft : ∀ pending ∈ processor.pendingStreamReads, isOver readsOver pending.deadline = false
  waitsLeft : ∀ pending ∈ processor.pendingWaits, isOver waitsOver pending.deadline = false

/-- The queues and the replies are the same. -/
structure SameQueues (before after : Processor) : Prop where
  pops : after.pendingListPops = before.pendingListPops
  reads : after.pendingStreamReads = before.pendingStreamReads
  waits : after.pendingWaits = before.pendingWaits
  replies : after.replies = before.replies

theorem SameQueues.refl (processor : Processor) : SameQueues processor processor :=
  ⟨rfl, rfl, rfl, rfl⟩

theorem SameQueues.trans {first second third : Processor} (h₁ : SameQueues first second)
    (h₂ : SameQueues second third) : SameQueues first third :=
  ⟨h₂.pops.trans h₁.pops, h₂.reads.trans h₁.reads, h₂.waits.trans h₁.waits,
    h₂.replies.trans h₁.replies⟩

section Again

variable {popsOver readsOver waitsOver : Int}

/-- A step that keeps the queues, the streams and the counts keeps an idle state
idle. -/
theorem Idle.congr (h : Idle popsOver readsOver waitsOver before) (hsame : SameQueues before after)
    (hdatabase : after.database = before.database)
    (hcounts : ∀ targetOffset, (after.replication.countAcknowledgedReplicas targetOffset).1 ≤
      (before.replication.countAcknowledgedReplicas targetOffset).1) :
    Idle popsOver readsOver waitsOver after := by
  have hsteady : Steady before after := ⟨hdatabase, hcounts, hsame.pops ▸ fun _ h => h,
    hsame.reads ▸ fun _ h => h, hsame.waits ▸ fun _ h => h⟩
  exact ⟨h.toSettled.steady hsteady, h.valid.steady hsteady,
    fun pending hpending => h.popsLeft pending (hsteady.pops hpending),
    fun pending hpending => h.readsLeft pending (hsteady.reads hpending),
    fun pending hpending => h.waitsLeft pending (hsteady.waits hpending)⟩

/-- A `BLPOP` on an absent key stays, and changes nothing. -/
theorem retryListPop_blocked {pending : PendingListPop} (hblocked : pending.Blocked processor)
    (input : Clock × Disk) : retryListPop input pending processor = (some pending, processor) := by
  have hlive : live (Entry.expired input.1) pending.key processor.database = none := by
    rw [live, hblocked]
    rfl
  have hstale : ¬ Stale (Entry.expired input.1) pending.key processor.database := by
    rintro ⟨entry, hentry, -⟩
    rw [hblocked] at hentry
    cases hentry
  have hpop : Database.popListElement input.1 pending.key processor.database =
      (.error .keyNotFound, processor.database) := by
    rw [popListElement_eq, transact, hlive, purge_of_not_stale hstale]
    rfl
  rw [retryListPop, hpop]

theorem retryPendingListPops_idle (h : Idle popsOver readsOver waitsOver processor)
    (inputs : Stream' (Clock × Disk)) : processor.retryPendingListPops inputs = processor := by
  have hscan : Scan.scan retryListPop inputs processor.pendingListPops processor =
      (processor.pendingListPops, processor) :=
    Scan.scan_fixed (fun input pending hpending =>
      retryListPop_blocked (h.pops pending hpending) input) inputs
  simp only [retryPendingListPops, hscan]

theorem expireIn_left {Pending : Type} {taskOf : Pending → Task} {deadlineOf : Pending → Option Int}
    {now : Int} {pending : Pending} (hleft : isOver now (deadlineOf pending) = false)
    (input : Unit) :
    expireIn taskOf deadlineOf now input pending processor = (some pending, processor) := by
  simp [expireIn, hleft]

theorem expirePendingListPops_idle (h : Idle popsOver readsOver waitsOver processor) :
    processor.expirePendingListPops popsOver = processor := by
  have hscan : Scan.scan (expireIn PendingListPop.task PendingListPop.deadline popsOver)
      (Stream'.const ()) processor.pendingListPops processor =
        (processor.pendingListPops, processor) :=
    Scan.scan_fixed (fun input pending hpending =>
      expireIn_left (h.popsLeft pending hpending) input) _
  simp only [expirePendingListPops, hscan]

theorem expirePendingStreamReads_idle (h : Idle popsOver readsOver waitsOver processor) :
    processor.expirePendingStreamReads readsOver = processor := by
  have hscan : Scan.scan (expireIn PendingStreamRead.task PendingStreamRead.deadline readsOver)
      (Stream'.const ()) processor.pendingStreamReads processor =
        (processor.pendingStreamReads, processor) :=
    Scan.scan_fixed (fun input pending hpending =>
      expireIn_left (h.readsLeft pending hpending) input) _
  simp only [expirePendingStreamReads, hscan]

theorem expirePendingWaits_idle (h : Idle popsOver readsOver waitsOver processor) :
    processor.expirePendingWaits waitsOver = processor := by
  have hscan : Scan.scan (expireWait waitsOver) (Stream'.const ()) processor.pendingWaits
      processor = (processor.pendingWaits, processor) := by
    refine Scan.scan_fixed (fun input pending hpending => ?_) _
    rw [expireWait, h.waitsLeft pending hpending]
    rfl
  simp only [expirePendingWaits, hscan]

theorem Idle.purges {clock : Clock} {database : Database}
    (h : Idle popsOver readsOver waitsOver processor)
    (hpurges : Purges (Entry.expired clock) processor.database database) :
    Idle popsOver readsOver waitsOver { processor with database } where
  pops pending hpending := hpurges.lookup_eq_none (h.pops pending hpending)
  reads pending hpending request hrequest :=
    (h.reads pending hpending request hrequest).purges (Invariant.versioned h.valid) hpurges
  waits := h.waits
  valid := Invariant.purges h.valid hpurges
  popsLeft := h.popsLeft
  readsLeft := h.readsLeft
  waitsLeft := h.waitsLeft

/-- Still idle, with the queues and replies of the state in which a pass began. -/
def StillIdle (popsOver readsOver waitsOver : Int) (origin processor : Processor) : Prop :=
  Idle popsOver readsOver waitsOver processor ∧ SameQueues origin processor

theorem retryPendingStreamReads_idle (h : Idle popsOver readsOver waitsOver processor)
    (clocks : Stream' Clock) :
    StillIdle popsOver readsOver waitsOver processor
      (processor.retryPendingStreamReads clocks) := by
  have hscan : (Scan.scan retryStreamRead clocks processor.pendingStreamReads processor).1 =
        processor.pendingStreamReads ∧
      StillIdle popsOver readsOver waitsOver processor
        (Scan.scan retryStreamRead clocks processor.pendingStreamReads processor).2 := by
    refine Scan.scan_kept ?_ clocks ⟨h, .refl _⟩
    intro clock pending state hpending hstate
    obtain ⟨hidle, hsame⟩ := hstate
    rw [← hsame.reads] at hpending
    obtain ⟨after, hread, hpurges⟩ := readStreams_of_waits (hidle.reads pending hpending)
    rw [retryStreamRead, hread]
    exact ⟨rfl, hidle.purges hpurges, hsame.trans ⟨rfl, rfl, rfl, rfl⟩⟩
  unfold retryPendingStreamReads
  generalize Scan.scan retryStreamRead clocks processor.pendingStreamReads processor = pass
    at hscan
  obtain ⟨kept, last⟩ := pass
  obtain ⟨hkept, hidle, hsame⟩ := hscan
  -- Putting the queue back leaves everything as it is.
  obtain rfl : kept = last.pendingStreamReads := hkept.trans hsame.reads.symm
  exact ⟨hidle, hsame⟩

theorem retryPendingWaits_idle (h : Idle popsOver readsOver waitsOver processor) :
    StillIdle popsOver readsOver waitsOver processor processor.retryPendingWaits := by
  have hscan : (Scan.scan retryWait (Stream'.const ()) processor.pendingWaits processor).1 =
        processor.pendingWaits ∧
      StillIdle popsOver readsOver waitsOver processor
        (Scan.scan retryWait (Stream'.const ()) processor.pendingWaits processor).2 := by
    refine Scan.scan_kept ?_ _ ⟨h, .refl _⟩
    intro input pending state hpending hstate
    obtain ⟨hidle, hsame⟩ := hstate
    rw [← hsame.waits] at hpending
    have hcount : (state.replication.countAcknowledgedReplicas pending.targetOffset).1 <
        pending.requiredReplicas := hidle.waits pending hpending
    simp only [retryWait, if_pos hcount]
    refine ⟨trivial, hidle.congr ⟨rfl, rfl, rfl, rfl⟩ rfl fun targetOffset => ?_,
      hsame.trans ⟨rfl, rfl, rfl, rfl⟩⟩
    exact (count_of_pruned _ pending.targetOffset targetOffset).le
  unfold retryPendingWaits
  generalize Scan.scan retryWait (Stream'.const ()) processor.pendingWaits processor = pass
    at hscan
  obtain ⟨kept, last⟩ := pass
  obtain ⟨hkept, hidle, hsame⟩ := hscan
  obtain rfl : kept = last.pendingWaits := hkept.trans hsame.waits.symm
  exact ⟨hidle, hsame⟩

/-- **Another round of passes answers nobody.** -/
theorem sameQueues_of_idle (host : Host) (h : Idle popsOver readsOver waitsOver processor)
    (inputs : Stream' (Clock × Disk)) (clocks : Stream' Clock) :
    ∃ again, runPhases host [.retryListPops inputs, .retryStreamReads clocks, .retryWaits,
        .expireListPops popsOver, .expireStreamReads readsOver, .expireWaits waitsOver] processor =
      some again ∧ SameQueues processor again := by
  obtain ⟨hreads, hsame⟩ := retryPendingStreamReads_idle h clocks
  obtain ⟨hwaits, hsame'⟩ := retryPendingWaits_idle hreads
  refine ⟨(processor.retryPendingStreamReads clocks).retryPendingWaits, ?_, hsame.trans hsame'⟩
  simp [runPhases, Runs.run_cons, Phase.perform, retryPendingListPops_idle h,
    expirePendingListPops_idle hwaits, expirePendingStreamReads_idle hwaits,
    expirePendingWaits_idle hwaits]

end Again

end Processor

/-! ## Whole runs -/

section Iterations

open Processor

variable {host : Host}

/-- The database of every reachable state satisfies its invariant. -/
theorem valid_run {role : ReplicationRole} {replicationId : Bytes} {defaultUser : User}
    {rdbConfig : RdbConfig} {aofConfig : AofConfig} {phases : List Phase} {final : Processor}
    (hrun : runPhases host phases
      (Processor.start role replicationId defaultUser rdbConfig aofConfig) = some final) :
    final.Valid := by
  obtain ⟨-, deeds, hchronicle⟩ := proceeds_run (fun phase _ => within_any phase) hrun
    (holds_start role replicationId defaultUser rdbConfig aofConfig)
  exact hchronicle.history.invariant (fun clock _ => admits_all clock) invariant_empty

theorem calm_externals (iteration : Iteration) (position : ℕ) :
    ∀ phase ∈ iteration.externals position, phase.Calm := by
  intro phase hphase
  obtain ⟨event, -, rfl⟩ := List.mem_map.mp hphase
  exact trivial

theorem calm_expiries (iteration : Iteration) : ∀ phase ∈ iteration.expiries, phase.Calm := by
  intro phase hphase
  simp only [Iteration.expiries, List.cons_append, List.mem_cons, List.mem_append] at hphase
  rcases hphase with rfl | ((hphase | rfl | hphase) | rfl | hphase)
  case inl | inr.inl.inr.inl | inr.inr.inl => exact trivial
  all_goals exact calm_externals iteration _ phase hphase

theorem task_not_mem_externals (iteration : Iteration) (position : ℕ) :
    ∀ phase ∈ iteration.externals position, ∀ env work, phase ≠ .task env work := by
  intro phase hphase env work
  obtain ⟨event, -, rfl⟩ := List.mem_map.mp hphase
  exact fun h => by cases h

theorem task_not_mem_expiries (iteration : Iteration) :
    ∀ phase ∈ iteration.expiries, ∀ env work, phase ≠ .task env work := by
  rintro phase hphase env work rfl
  exact calm_expiries iteration _ hphase

theorem task_not_mem_passes (iteration : Iteration) :
    ∀ phase ∈ iteration.passes, ∀ env work, phase ≠ .task env work := by
  intro phase hphase
  simp only [Iteration.passes, List.mem_append, List.mem_cons] at hphase
  rcases hphase with (((hphase | rfl | hphase) | rfl | hphase) | rfl | hphase) | hphase
  case inl.inl.inl.inr.inl | inl.inl.inr.inl | inl.inr.inl => exact fun env work h => by cases h
  case inr => exact task_not_mem_expiries iteration phase hphase
  all_goals exact task_not_mem_externals iteration _ phase hphase

/-- After the expiry passes, whoever is left has time left. -/
theorem left_of_expiries {iteration : Iteration}
    (hrun : runPhases host iteration.expiries before = some after) :
    (∀ pending ∈ after.pendingListPops, isOver iteration.popsOver pending.deadline = false) ∧
      (∀ pending ∈ after.pendingStreamReads,
        isOver iteration.readsOver pending.deadline = false) ∧
      ∀ pending ∈ after.pendingWaits, isOver iteration.waitsOver pending.deadline = false := by
  obtain ⟨p₂, hrun₂, hrun₃⟩ := Runs.run_append_eq_some.mp hrun
  obtain ⟨p₁, hrun₁, hrun₂⟩ := Runs.run_append_eq_some.mp hrun₂
  obtain ⟨_, hpops, hrun₁⟩ := Runs.run_cons_eq_some.mp hrun₁
  obtain ⟨_, hreads, hrun₂⟩ := Runs.run_cons_eq_some.mp hrun₂
  obtain ⟨_, hwaits, hrun₃⟩ := Runs.run_cons_eq_some.mp hrun₃
  cases hpops
  cases hreads
  cases hwaits
  -- Each queue only shrinks after its own pass.
  have hsteady₁ := steady_run (calm_externals iteration 4) hrun₁
  have hsteady₂ := (steady_expirePendingStreamReads iteration.readsOver p₁).trans
    (steady_run (calm_externals iteration 5) hrun₂)
  have hsteady₂' := steady_run (calm_externals iteration 5) hrun₂
  have hsteady₃ := (steady_expirePendingWaits iteration.waitsOver p₂).trans
    (steady_run (calm_externals iteration 6) hrun₃)
  have hsteady₃' := steady_run (calm_externals iteration 6) hrun₃
  refine ⟨fun pending hpending => ?_, fun pending hpending => ?_, fun pending hpending => ?_⟩
  · exact Scan.forall_mem_scan (fun _ _ _ _ hkept => (expireIn_kept hkept).1 ▸
      (expireIn_kept hkept).2) _ _ _ pending
      (hsteady₁.pops (hsteady₂.pops (hsteady₃.pops hpending)))
  · exact Scan.forall_mem_scan (fun _ _ _ _ hkept => (expireIn_kept hkept).1 ▸
      (expireIn_kept hkept).2) _ _ _ pending (hsteady₂'.reads (hsteady₃.reads hpending))
  · exact Scan.forall_mem_scan (fun _ _ _ _ => expireWait_left) _ _ _ pending
      (hsteady₃'.waits hpending)

/-- An iteration that processed a task ends in an idle state. -/
theorem idle_of_iteration {iteration : Iteration} (htask : iteration.task.isSome)
    (hvalid : ∀ env work middle, iteration.task = some (env, work) →
      runPhases host (.task env work :: iteration.externals 0) before = some middle → middle.Valid)
    (hrun : runPhases host iteration.phases before = some after) :
    Idle iteration.popsOver iteration.readsOver iteration.waitsOver after := by
  obtain ⟨⟨env, work⟩, hwork⟩ := Option.isSome_iff_exists.mp htask
  have hphases : iteration.phases = (.task env work :: iteration.externals 0) ++
      ((.retryListPops iteration.pops :: iteration.externals 1 ++
        .retryStreamReads iteration.reads :: iteration.externals 2 ++
        .retryWaits :: iteration.externals 3) ++ iteration.expiries) := by
    simp [Iteration.phases, hwork, List.append_assoc]
  rw [hphases] at hrun
  obtain ⟨start, hstart, hrun⟩ := Runs.run_append_eq_some.mp hrun
  obtain ⟨middle, hretries, hexpiries⟩ := Runs.run_append_eq_some.mp hrun
  obtain ⟨hsettled, hmiddle⟩ := settled_of_retries (calm_externals iteration 1)
    (calm_externals iteration 2) (calm_externals iteration 3) (hvalid env work start hwork hstart)
    hretries
  have hsteady := steady_run (calm_expiries iteration) hexpiries
  obtain ⟨hpops, hreads, hwaits⟩ := left_of_expiries hexpiries
  exact ⟨hsettled.steady hsteady, hmiddle.steady hsteady, hpops, hreads, hwaits⟩

/-- **No ready waiter is left blocked.**  At the end of every iteration that
processed a task, no blocked `BLPOP` finds its key present, no blocked `XREAD`
finds a new entry or a value of another type, and no blocked `WAIT` has its
acknowledgements; another round of the six passes leaves all queues as they are
and answers nobody. -/
theorem no_ready_waiter_left (host : Host) (role : ReplicationRole) (replicationId : Bytes)
    (defaultUser : User) (rdbConfig : RdbConfig) (aofConfig : AofConfig)
    (earlier : List Iteration) (last : Iteration) (hlast : last.task.isSome) {final : Processor}
    (hrun : runPhases host ((earlier ++ [last]).flatMap Iteration.phases)
      (Processor.start role replicationId defaultUser rdbConfig aofConfig) = some final) :
    (∀ pending ∈ final.pendingListPops, final.database.entries.lookup pending.key = none) ∧
    (∀ pending ∈ final.pendingStreamReads, ∀ request ∈ pending.requests,
      request.startMode = .afterId ∧
        (final.database.entries.lookup request.key = none ∨
          ∃ entries expiresAt,
            final.database.entries.lookup request.key = some ⟨.stream entries, expiresAt⟩ ∧
              ∀ entry ∈ entries, entry.id ≤ request.afterId)) ∧
    (∀ pending ∈ final.pendingWaits,
      (final.replication.countAcknowledgedReplicas pending.targetOffset).1 <
        pending.requiredReplicas) ∧
    ∀ inputs clocks, ∃ again,
      runPhases host [.retryListPops inputs, .retryStreamReads clocks, .retryWaits,
        .expireListPops last.popsOver, .expireStreamReads last.readsOver,
        .expireWaits last.waitsOver] final = some again ∧ SameQueues final again := by
  rw [List.flatMap_append, List.flatMap_singleton] at hrun
  obtain ⟨before, hbefore, hafter⟩ := Runs.run_append_eq_some.mp hrun
  have hidle : Idle last.popsOver last.readsOver last.waitsOver final := by
    refine idle_of_iteration hlast (fun env work middle _ htask => ?_) hafter
    exact valid_run (Runs.run_append_eq_some.mpr ⟨before, hbefore, htask⟩)
  exact ⟨hidle.pops, hidle.reads, hidle.waits, sameQueues_of_idle host hidle⟩

/-- Two clients wait for an element and for an entry; a push to another list and
the entry of another stream wake neither. -/
theorem no_ready_waiter_left_two_blocked :
    let start := Processor.start .master [] (User.default none) {} {}
    let still (task : ProcessorTask) := Iteration.still ⟨1, 1⟩ task
    let earlier := [still (.registerClient 1 0), still (.registerClient 2 1),
      still (.registerClient 3 2), still (.ofClient 1 [ascii "BLPOP", ascii "k", ascii "0"]),
      still (.ofClient 2 [ascii "XREAD", ascii "BLOCK", ascii "0", ascii "STREAMS", ascii "s",
        ascii "$"]),
      still (.ofClient 3 [ascii "RPUSH", ascii "l", ascii "v"])]
    let last := still (.ofClient 3 [ascii "XADD", ascii "t", ascii "*", ascii "f", ascii "v"])
    ∃ final, runPhases Host.plain ((earlier ++ [last]).flatMap Iteration.phases) start =
        some final ∧
      final.pendingListPops.map PendingListPop.key = [ascii "k"] ∧
      final.pendingStreamReads.length = 1 ∧
      ∀ pending ∈ final.pendingListPops, final.database.entries.lookup pending.key = none := by
  intro start still earlier last
  have hsome : ∃ final, runPhases Host.plain ((earlier ++ [last]).flatMap Iteration.phases)
      start = some final ∧ final.pendingListPops.map PendingListPop.key = [ascii "k"] ∧
        final.pendingStreamReads.length = 1 := by
    decide +kernel
  obtain ⟨final, hrun, hpops, hreads⟩ := hsome
  exact ⟨final, hrun, hpops, hreads,
    (no_ready_waiter_left Host.plain _ _ _ _ _ earlier last rfl hrun).1⟩

end Iterations

end RedisServer
