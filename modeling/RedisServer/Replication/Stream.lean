import RedisServer.Replication

/-!
# The replication stream

A session that was registered before the first frame, that is still alive and
that nobody closed has been given exactly the frames of the backlog, in order.
Nothing the master does takes a session out of this state; only the thread that
owns it can, by closing or dropping it.

`Streams` collects what one step does to the replication state: which payloads
it appended, and that sessions in sync stay so.
-/

namespace RedisServer.Replication

variable {session : SessionId}

/-- The session is open and has been given the whole backlog. -/
structure InSync (session : SessionId) (replication : Replication) : Prop where
  known : session < replication.nextSession
  listed : replication.replicaSessions.count session = 1
  complete : ∃ found, replication.sessions.lookup session = some found ∧
    found.closed = false ∧ found.frames = replication.backlog

/-! ## Frames -/

theorem frames_enqueue {session : ReplicaSession}
    (hopen : session.closed = false) (frame : ReplicationFrame) :
    (session.enqueue frame).frames = session.frames ++ [frame] := by
  simp [ReplicaSession.enqueue, hopen, ReplicaSession.frames]

theorem closed_enqueue (session : ReplicaSession) (frame : ReplicationFrame) :
    (session.enqueue frame).closed = session.closed := by
  unfold ReplicaSession.enqueue
  split <;> rfl

theorem closed_sendFrame (session : ReplicaSession) :
    session.sendFrame.closed = session.closed := by
  unfold ReplicaSession.sendFrame
  split
  · rfl
  · split <;> rfl

/-- The sending thread moves a frame, it does not lose one. -/
theorem frames_sendFrame (session : ReplicaSession) :
    session.sendFrame.frames = session.frames := by
  unfold ReplicaSession.sendFrame
  split
  · rfl
  · split
    · rfl
    · rename_i hpending
      simp [ReplicaSession.frames, hpending]

theorem lookup_enqueueTo (frame : ReplicationFrame)
    (sessions : AList fun _ : SessionId => ReplicaSession) (target session : SessionId) :
    (enqueueTo frame sessions target).lookup session =
      if session = target then (sessions.lookup session).map (·.enqueue frame)
      else sessions.lookup session := by
  unfold enqueueTo
  by_cases hsession : session = target
  · subst hsession
    cases hlookup : sessions.lookup session with
    | none => simp [hlookup]
    | some found => simp
  · cases hlookup : sessions.lookup target with
    | none => simp [hsession]
    | some found => simp [hsession]

theorem lookup_enqueueTo_of_notMem (frame : ReplicationFrame) {targets : List SessionId}
    (hsession : session ∉ targets) (sessions : AList fun _ : SessionId => ReplicaSession) :
    (targets.foldl (enqueueTo frame) sessions).lookup session = sessions.lookup session := by
  induction targets generalizing sessions with
  | nil => rfl
  | cons target rest ih =>
    obtain ⟨hne, hrest⟩ := List.ne_and_not_mem_of_not_mem_cons hsession
    rw [List.foldl_cons, ih hrest, lookup_enqueueTo, if_neg hne]

/-- A session that is listed once gets the frame once. -/
theorem lookup_enqueueTo_of_count {frame : ReplicationFrame} {targets : List SessionId}
    (hcount : targets.count session = 1) (sessions : AList fun _ : SessionId => ReplicaSession) :
    (targets.foldl (enqueueTo frame) sessions).lookup session =
      (sessions.lookup session).map (·.enqueue frame) := by
  induction targets generalizing sessions with
  | nil => simp at hcount
  | cons target rest ih =>
    rw [List.foldl_cons]
    by_cases hsession : session = target
    · -- This was the one occurrence, so the rest of the loop leaves it alone.
      subst hsession
      have hrest : session ∉ rest := List.count_eq_zero.mp (by simpa using hcount)
      rw [lookup_enqueueTo_of_notMem frame hrest, lookup_enqueueTo, if_pos rfl]
    · have hrest : rest.count session = 1 := by
        rwa [List.count_cons_of_ne (Ne.symm hsession)] at hcount
      rw [ih hrest, lookup_enqueueTo, if_neg hsession]

/-- Dropping dead sessions does not touch one that is alive. -/
theorem count_filter_isAlive {replication : Replication}
    (halive : replication.isAlive session = true) :
    (replication.replicaSessions.filter replication.isAlive).count session =
      replication.replicaSessions.count session := by
  rw [List.count_filter halive]

theorem InSync.isAlive {replication : Replication} (h : InSync session replication) :
    replication.isAlive session = true := by
  obtain ⟨found, hfound, -⟩ := h.complete
  simp [Replication.isAlive, hfound]

/-! ## What one step does to the stream -/

/-- The step appended these payloads to the stream, and the kept sessions that
were in sync are in sync. -/
structure Streams (Kept : SessionId → Prop) (payloads : List Bytes)
    (before after : Replication) : Prop where
  role : after.role = before.role
  backlog : after.backlog.map ReplicationFrame.payload =
    before.backlog.map ReplicationFrame.payload ++ payloads
  inSync : ∀ session, Kept session → InSync session before → InSync session after

namespace Streams

variable {Kept : SessionId → Prop}

theorem refl (replication : Replication) : Streams Kept [] replication replication :=
  ⟨rfl, by simp, fun _ _ h => h⟩

theorem trans {payloads payloads' : List Bytes} {first second third : Replication}
    (h₁ : Streams Kept payloads first second) (h₂ : Streams Kept payloads' second third) :
    Streams Kept (payloads ++ payloads') first third where
  role := h₂.role.trans h₁.role
  backlog := by rw [h₂.backlog, h₁.backlog, List.append_assoc]
  inSync session hkept h := h₂.inSync session hkept (h₁.inSync session hkept h)

/-- A step that touches neither the backlog nor the sessions. -/
theorem of_eq {before after : Replication} (hrole : after.role = before.role)
    (hbacklog : after.backlog = before.backlog)
    (hlisted : after.replicaSessions = before.replicaSessions)
    (hsessions : after.sessions = before.sessions)
    (hnext : after.nextSession = before.nextSession) : Streams Kept [] before after where
  role := hrole
  backlog := by simp [hbacklog]
  inSync session _ h := by
    refine ⟨?_, ?_, ?_⟩
    · rw [hnext]; exact h.known
    · rw [hlisted]; exact h.listed
    · rw [hsessions, hbacklog]; exact h.complete

theorem appendReplicationFrame (payload : Bytes) (replication : Replication) :
    Streams Kept [payload] replication (replication.appendReplicationFrame payload) where
  role := rfl
  backlog := by simp [Replication.appendReplicationFrame]
  inSync session _ h := by
    obtain ⟨found, hfound, hopen, hframes⟩ := h.complete
    refine ⟨h.known, ?_, found.enqueue ⟨payload, replication.offset + payload.length⟩, ?_, ?_, ?_⟩
    · exact (count_filter_isAlive h.isAlive).trans h.listed
    · simp only [Replication.appendReplicationFrame]
      rw [lookup_enqueueTo_of_count h.listed, hfound]
      rfl
    · rw [closed_enqueue, hopen]
    · rw [frames_enqueue hopen, hframes]
      rfl

theorem appendClientReplicationFrame (clientId : ClientId) (payload : Bytes)
    (replication : Replication) :
    Streams Kept [payload] replication
      (replication.appendClientReplicationFrame clientId payload) := by
  have happend : Streams Kept [payload] replication (replication.appendReplicationFrame payload) :=
    appendReplicationFrame payload replication
  -- The write offset of the client is the only other thing that changes.
  have hoffset : Streams Kept [] (replication.appendReplicationFrame payload)
      (replication.appendClientReplicationFrame clientId payload) := of_eq rfl rfl rfl rfl rfl
  simpa using happend.trans hoffset

theorem countAcknowledgedReplicas (targetOffset : ℕ) (replication : Replication) :
    Streams Kept [] replication (replication.countAcknowledgedReplicas targetOffset).2 where
  role := rfl
  backlog := by simp [Replication.countAcknowledgedReplicas]
  inSync _ _ h := ⟨h.known, (count_filter_isAlive h.isAlive).trans h.listed, h.complete⟩

theorem registerReplica (clientId : ClientId) (replication : Replication) :
    Streams Kept [] replication (replication.registerReplica clientId).2 where
  role := rfl
  backlog := by simp [Replication.registerReplica]
  inSync session _ h := by
    -- The new session has a number of its own.
    have hne : session ≠ replication.nextSession := Nat.ne_of_lt h.known
    refine ⟨Nat.lt_succ_of_lt h.known, ?_, ?_⟩
    · simp [Replication.registerReplica, h.listed, Ne.symm hne]
    · obtain ⟨found, hfound, hrest⟩ := h.complete
      refine ⟨found, ?_, hrest⟩
      simpa [Replication.registerReplica, AList.lookup_insert_ne hne] using hfound

theorem acknowledgeReplica (clientId : ClientId) (offset : ℕ) (replication : Replication) :
    Streams Kept [] replication (replication.acknowledgeReplica clientId offset) :=
  of_eq rfl rfl rfl rfl rfl

/-- A change to one session; it only matters if the session is kept. -/
theorem updateSession (target : SessionId) (update : ReplicaSession → ReplicaSession)
    (hupdate : Kept target → ∀ session, (update session).closed = session.closed ∧
      (update session).frames = session.frames) (replication : Replication) :
    Streams Kept [] replication (replication.updateSession target update) := by
  unfold Replication.updateSession
  cases hlookup : replication.sessions.lookup target with
  | none => exact refl _
  | some session =>
    refine ⟨rfl, by simp, fun kept hkept h => ⟨h.known, h.listed, ?_⟩⟩
    obtain ⟨found, hfound, hopen, hframes⟩ := h.complete
    by_cases hkeptTarget : kept = target
    · subst hkeptTarget
      obtain rfl : session = found := by
        rw [hlookup] at hfound
        exact Option.some.inj hfound
      obtain ⟨hclosed, hsame⟩ := hupdate hkept session
      exact ⟨update session, by simp, hclosed.trans hopen, hsame.trans hframes⟩
    · exact ⟨found, by simpa [AList.lookup_insert_ne hkeptTarget] using hfound, hopen, hframes⟩

theorem dropSession {target : SessionId} (htarget : ¬ Kept target) (replication : Replication) :
    Streams Kept [] replication (replication.dropSession target) where
  role := rfl
  backlog := by simp [Replication.dropSession]
  inSync session hkept h := by
    have hne : session ≠ target := by
      intro heq
      exact htarget (heq ▸ hkept)
    obtain ⟨found, hfound, hrest⟩ := h.complete
    refine ⟨h.known, h.listed, found, ?_, hrest⟩
    simpa [Replication.dropSession, AList.lookup_erase_ne hne] using hfound

end Streams

end RedisServer.Replication
