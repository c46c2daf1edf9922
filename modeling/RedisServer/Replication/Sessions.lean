import RedisServer.Library.RunningTotal
import RedisServer.Replication.Stream

/-!
# The sessions of a master

`Action` lists what a master does to its replication state.  In every state that
is reached by such actions the offset is the size of the backlog, every frame is marked
with the size of the backlog up to it, and a session has been given the frames
from its starting offset on, all of them unless it was closed (`Sound`).
-/

namespace RedisServer.Replication

open RunningTotal

/-- The number of bytes in a frame. -/
abbrev frameSize (frame : ReplicationFrame) : ℕ := frame.payload.length

/-- **What a master does to its replication state**, and what the threads do that
send the frames. -/
inductive Action where
  | write (clientId : ClientId) (payload : Bytes)
  | ask (payload : Bytes)
  | prune
  | register (clientId : ClientId)
  | acknowledge (clientId : ClientId) (offset : ℕ)
  | forget (clientId : ClientId)
  | send (session : SessionId)
  | close (session : SessionId)
  | drop (session : SessionId)
deriving DecidableEq, Repr

variable {actions trace : List Action} {session : SessionId} {found : ReplicaSession}
  {after : Replication} {payload : Bytes} {clientId : ClientId} {action : Action}

def perform (replication : Replication) : Action → Replication
  | .write clientId payload => replication.appendClientReplicationFrame clientId payload
  | .ask payload => replication.appendReplicationFrame payload
  | .prune =>
    { replication with
      replicaSessions := replication.replicaSessions.filter replication.isAlive }
  | .register clientId => (replication.registerReplica clientId).2
  | .acknowledge clientId offset => replication.acknowledgeReplica clientId offset
  | .forget clientId => replication.forgetClient clientId
  | .send session => replication.updateSession session ReplicaSession.sendFrame
  | .close session => replication.updateSession session ReplicaSession.close
  | .drop session => replication.dropSession session

/-- Frames are not empty. -/
def Action.Filled : Action → Prop
  | .write _ payload | .ask payload => payload ≠ []
  | _ => True

/-- The action concerns nothing that comes from a replica or goes to it. -/
def Action.isQuiet : Action → Bool
  | .register _ | .acknowledge _ _ | .send _ => false
  | _ => true

/-- The second state is the first one after these actions. -/
structure Acts (actions : List Action) (before after : Replication) : Prop where
  filled : ∀ action ∈ actions, action.Filled
  result : after = actions.foldl perform before

namespace Acts

theorem refl (replication : Replication) : Acts [] replication replication :=
  ⟨by simp, rfl⟩

theorem single {action : Action} (hfilled : action.Filled) (replication : Replication) :
    Acts [action] replication (replication.perform action) :=
  ⟨by simpa using hfilled, rfl⟩

theorem trans {actions' : List Action} {first second third : Replication}
    (h₁ : Acts actions first second) (h₂ : Acts actions' second third) :
    Acts (actions ++ actions') first third where
  filled action haction :=
    (List.mem_append.mp haction).elim (h₁.filled action) (h₂.filled action)
  result := by rw [List.foldl_append, ← h₁.result, ← h₂.result]

theorem split {actions' : List Action} {first third : Replication}
    (h : Acts (actions ++ actions') first third) :
    Acts actions first (actions.foldl perform first) ∧
      Acts actions' (actions.foldl perform first) third :=
  ⟨⟨fun action haction => h.filled action (List.mem_append_left _ haction), rfl⟩,
    ⟨fun action haction => h.filled action (List.mem_append_right _ haction),
      by rw [h.result, List.foldl_append]⟩⟩

theorem role_perform (replication : Replication) (action : Action) :
    (replication.perform action).role = replication.role := by
  cases action with
  | send session =>
    simp only [perform, updateSession]
    split <;> rfl
  | close session =>
    simp only [perform, updateSession]
    split <;> rfl
  | _ => rfl

theorem role {before : Replication} (h : Acts actions before after) : after.role = before.role := by
  rw [h.result]
  clear h
  induction actions generalizing before with
  | nil => rfl
  | cons action actions ih => exact ih.trans (role_perform before action)

end Acts

/-- What a session has been given is what comes after its starting offset, up to
its closing. -/
structure Served (backlog : List ReplicationFrame) (session : ReplicaSession) : Prop where
  given : ∃ earlier missing, backlog = earlier ++ (session.frames ++ missing) ∧
    session.startingOffset = total frameSize earlier ∧ (session.closed = false → missing = [])

/-- **The offset, the backlog and the sessions belong together.** -/
structure Sound (replication : Replication) : Prop where
  marked : Marked frameSize ReplicationFrame.endingOffset 0 replication.backlog
  offset : replication.offset = total frameSize replication.backlog
  filled : ∀ frame ∈ replication.backlog, 0 < frameSize frame
  known : ∀ session ∈ replication.replicaSessions, session < replication.nextSession
  listed : ∀ session found, replication.sessions.lookup session = some found →
    replication.replicaSessions.count session = 1
  served : ∀ session found, replication.sessions.lookup session = some found →
    Served replication.backlog found

theorem lookup_enqueueTo_of_none (frame : ReplicationFrame) {targets : List SessionId}
    {sessions : AList fun _ : SessionId => ReplicaSession} (h : sessions.lookup session = none) :
    (targets.foldl (enqueueTo frame) sessions).lookup session = none := by
  induction targets generalizing sessions with
  | nil => exact h
  | cons target rest ih =>
    refine ih ?_
    rw [lookup_enqueueTo, h]
    split <;> rfl

theorem startingOffset_sendFrame (session : ReplicaSession) :
    session.sendFrame.startingOffset = session.startingOffset := by
  unfold ReplicaSession.sendFrame
  split
  · rfl
  · split <;> rfl

namespace Sound

variable {replication : Replication}

theorem of_eq (h : Sound replication) (hbacklog : after.backlog = replication.backlog)
    (hoffset : after.offset = replication.offset)
    (hlisted : after.replicaSessions = replication.replicaSessions)
    (hsessions : after.sessions = replication.sessions)
    (hnext : after.nextSession = replication.nextSession) : Sound after where
  marked := hbacklog ▸ h.marked
  offset := by rw [hoffset, hbacklog, h.offset]
  filled := hbacklog ▸ h.filled
  known := by rw [hlisted, hnext]; exact h.known
  listed := by rw [hlisted, hsessions]; exact h.listed
  served := by rw [hsessions, hbacklog]; exact h.served

theorem start (role : ReplicationRole) (replicationId : Bytes) :
    Sound { role, replicationId } where
  marked := trivial
  offset := rfl
  filled := by simp
  known := by simp
  listed := by simp
  served := by simp

theorem prune (h : Sound replication) :
    Sound { replication with
      replicaSessions := replication.replicaSessions.filter replication.isAlive } where
  marked := h.marked
  offset := h.offset
  filled := h.filled
  known session hsession := h.known session (List.mem_of_mem_filter hsession)
  listed session found hfound := by
    have halive : replication.isAlive session = true := by simp [isAlive, hfound]
    exact (count_filter_isAlive halive).trans (h.listed session found hfound)
  served := h.served

/-- A session that is alive gets every frame once. -/
theorem lookup_append (h : Sound replication) {frame : ReplicationFrame}
    (hfound : (replication.replicaSessions.foldl (enqueueTo frame)
      replication.sessions).lookup session = some found) :
    ∃ earlier, replication.sessions.lookup session = some earlier ∧
      found = earlier.enqueue frame := by
  cases hearlier : replication.sessions.lookup session with
  | none =>
    rw [lookup_enqueueTo_of_none frame hearlier] at hfound
    cases hfound
  | some earlier =>
    rw [lookup_enqueueTo_of_count (h.listed session earlier hearlier), hearlier] at hfound
    exact ⟨earlier, rfl, (Option.some.inj hfound).symm⟩

theorem append (h : Sound replication) (hpayload : payload ≠ []) :
    Sound (replication.appendReplicationFrame payload) where
  marked := by
    refine marked_append.mpr ⟨h.marked, ?_, trivial⟩
    simp [h.offset]
  offset := by
    simp [appendReplicationFrame, total_append, total_cons, h.offset]
  filled frame hframe := by
    rcases List.mem_append.mp hframe with hframe | hframe
    · exact h.filled frame hframe
    · obtain rfl := List.mem_singleton.mp hframe
      exact List.length_pos_iff.mpr hpayload
  known session hsession := h.known session (List.mem_of_mem_filter hsession)
  listed session found hfound := by
    obtain ⟨earlier, hearlier, -⟩ := h.lookup_append hfound
    have halive : replication.isAlive session = true := by simp [isAlive, hearlier]
    exact (count_filter_isAlive halive).trans (h.listed session earlier hearlier)
  served session found hfound := by
    obtain ⟨earlier, hearlier, rfl⟩ := h.lookup_append hfound
    obtain ⟨passed, missing, hbacklog, hstart, hopen⟩ := (h.served session earlier hearlier).given
    cases hclosed : earlier.closed with
    | true =>
      refine ⟨passed, missing ++ [⟨payload, replication.offset + payload.length⟩], ?_, ?_, ?_⟩
      · simp [appendReplicationFrame, ReplicaSession.enqueue, hclosed, hbacklog]
      · simpa [ReplicaSession.enqueue, hclosed] using hstart
      · simp [ReplicaSession.enqueue, hclosed]
    | false =>
      obtain rfl := hopen hclosed
      refine ⟨passed, [], ?_, ?_, fun _ => rfl⟩
      · rw [frames_enqueue hclosed]
        simp [appendReplicationFrame, hbacklog]
      · simpa [ReplicaSession.enqueue, hclosed] using hstart

theorem write (h : Sound replication) (hpayload : payload ≠ []) (clientId : ClientId) :
    Sound (replication.appendClientReplicationFrame clientId payload) :=
  (h.append hpayload).of_eq rfl rfl rfl rfl rfl

theorem register (h : Sound replication) (clientId : ClientId) :
    Sound (replication.registerReplica clientId).2 where
  marked := h.marked
  offset := h.offset
  filled := h.filled
  known session hsession := by
    rcases List.mem_append.mp hsession with hsession | hsession
    · exact Nat.lt_succ_of_lt (h.known session hsession)
    · rw [List.mem_singleton.mp hsession]
      exact Nat.lt_succ_self _
  listed session found hfound := by
    simp only [registerReplica, List.count_append] at hfound ⊢
    by_cases hnew : session = replication.nextSession
    · subst hnew
      have hfresh : replication.nextSession ∉ replication.replicaSessions :=
        fun hmem => Nat.lt_irrefl _ (h.known _ hmem)
      simp [List.count_eq_zero.mpr hfresh]
    · rw [AList.lookup_insert_ne hnew] at hfound
      simp [h.listed session found hfound, Ne.symm hnew]
  served session found hfound := by
    simp only [registerReplica] at hfound ⊢
    by_cases hnew : session = replication.nextSession
    · subst hnew
      rw [AList.lookup_insert, Option.some.injEq] at hfound
      subst hfound
      exact ⟨replication.backlog, [], by simp [ReplicaSession.frames], h.offset, fun _ => rfl⟩
    · rw [AList.lookup_insert_ne hnew] at hfound
      exact h.served session found hfound

/-- Sending moves a frame, and closing stops the flow; what the session has been
given stays. -/
theorem update (h : Sound replication) {update : ReplicaSession → ReplicaSession}
    (hframes : ∀ session, (update session).frames = session.frames)
    (hstart : ∀ session, (update session).startingOffset = session.startingOffset)
    (hopen : ∀ session, (update session).closed = false → session.closed = false)
    (target : SessionId) : Sound (replication.updateSession target update) := by
  unfold updateSession
  cases htarget : replication.sessions.lookup target with
  | none => exact h
  | some current =>
    refine { h with listed := ?_, served := ?_ } <;> intro session found hfound <;>
      simp only at hfound <;> by_cases hsession : session = target
    · subst hsession
      exact h.listed _ current htarget
    · rw [AList.lookup_insert_ne hsession] at hfound
      exact h.listed session found hfound
    · subst hsession
      rw [AList.lookup_insert, Option.some.injEq] at hfound
      subst hfound
      obtain ⟨passed, missing, hbacklog, hoffset, hmissing⟩ := (h.served _ current htarget).given
      exact ⟨passed, missing, by rw [hframes, hbacklog], (hstart current).trans hoffset,
        fun hclosed => hmissing (hopen current hclosed)⟩
    · rw [AList.lookup_insert_ne hsession] at hfound
      exact h.served session found hfound

theorem drop (h : Sound replication) (target : SessionId) :
    Sound (replication.dropSession target) := by
  have hlookup : ∀ session found,
      (replication.sessions.erase target).lookup session = some found →
        replication.sessions.lookup session = some found := by
    intro session found hfound
    by_cases hsession : session = target
    · subst hsession
      simp at hfound
    · rwa [AList.lookup_erase_ne hsession] at hfound
  exact { h with
    listed := fun session found hfound => h.listed session found (hlookup session found hfound)
    served := fun session found hfound => h.served session found (hlookup session found hfound) }

/-- **Every action keeps the state sound.** -/
theorem perform (h : Sound replication) {action : Action} (hfilled : action.Filled) :
    Sound (replication.perform action) := by
  cases action with
  | write clientId payload => exact h.write hfilled clientId
  | ask payload => exact h.append hfilled
  | prune => exact h.prune
  | register clientId => exact h.register clientId
  | acknowledge clientId offset => exact h.of_eq rfl rfl rfl rfl rfl
  | forget clientId => exact h.of_eq rfl rfl rfl rfl rfl
  | send session =>
    exact h.update frames_sendFrame startingOffset_sendFrame
      (fun session hclosed => by rwa [closed_sendFrame] at hclosed) session
  | close session =>
    refine h.update (fun found => show found.close.frames = found.frames from rfl)
      (fun _ => rfl) (fun found hopen => ?_) session
    cases hopen
  | drop session => exact h.drop session

theorem acts (h : Sound replication) (hacts : Acts actions replication after) : Sound after := by
  obtain ⟨hfilled, rfl⟩ := hacts
  induction actions generalizing replication with
  | nil => exact h
  | cons action actions ih =>
    exact ih (h.perform (hfilled action (by simp))) fun other hother =>
      hfilled other (by simp [hother])

/-! ### What a session is given -/

theorem filter_after (h : Sound replication) {earlier later : List ReplicationFrame}
    (hbacklog : replication.backlog = earlier ++ later) :
    replication.backlog.filter
      (fun frame => decide (total frameSize earlier < frame.endingOffset)) = later := by
  have hmarked := h.marked
  have hfilled := h.filled
  rw [hbacklog] at hmarked hfilled ⊢
  exact hmarked.filter_after fun frame hframe => hfilled frame (List.mem_append_right _ hframe)

/-- An open session has been given the frames that end after its starting offset. -/
theorem frames_eq (h : Sound replication)
    (hfound : replication.sessions.lookup session = some found) (hopen : found.closed = false) :
    found.frames = replication.backlog.filter
        (fun frame => decide (found.startingOffset < frame.endingOffset)) ∧
      found.startingOffset + total frameSize found.frames = replication.offset := by
  obtain ⟨earlier, missing, hbacklog, hstart, hmissing⟩ := (h.served session found hfound).given
  rw [hmissing hopen, List.append_nil] at hbacklog
  constructor
  · rw [hstart, h.filter_after hbacklog]
  · rw [h.offset, hbacklog, total_append, hstart]

/-! ### Where a session comes from -/

/-- The session belongs to the same replica and began at the same offset. -/
structure SameReplica (before after : ReplicaSession) : Prop where
  clientId : after.clientId = before.clientId
  startingOffset : after.startingOffset = before.startingOffset

theorem sameReplica_enqueue (session : ReplicaSession) (frame : ReplicationFrame) :
    SameReplica session (session.enqueue frame) ∧ (session.enqueue frame).sent = session.sent := by
  unfold ReplicaSession.enqueue
  split <;> exact ⟨⟨rfl, rfl⟩, rfl⟩

theorem sameReplica_sendFrame (session : ReplicaSession) :
    SameReplica session session.sendFrame := by
  refine ⟨?_, startingOffset_sendFrame session⟩
  unfold ReplicaSession.sendFrame
  split
  · rfl
  · split <;> rfl

theorem lookup_updateSession {update : ReplicaSession → ReplicaSession} {target : SessionId}
    (hfound : (replication.updateSession target update).sessions.lookup session = some found) :
    ∃ earlier, replication.sessions.lookup session = some earlier ∧
      found = if session = target then update earlier else earlier := by
  unfold updateSession at hfound
  cases htarget : replication.sessions.lookup target with
  | none =>
    rw [htarget] at hfound
    refine ⟨found, hfound, ?_⟩
    rw [if_neg]
    rintro rfl
    rw [htarget] at hfound
    cases hfound
  | some current =>
    simp only [htarget] at hfound
    by_cases hsession : session = target
    · subst hsession
      rw [AList.lookup_insert, Option.some.injEq] at hfound
      exact ⟨current, htarget, by rw [if_pos rfl, hfound]⟩
    · rw [AList.lookup_insert_ne hsession] at hfound
      exact ⟨found, hfound, by rw [if_neg hsession]⟩

/-- **A session is registered, or was there before.**  Only its own thread takes
frames from it. -/
theorem lookup_perform (h : Sound replication)
    (hfound : (replication.perform action).sessions.lookup session = some found) :
    (∃ clientId, action = .register clientId ∧ session = replication.nextSession ∧
        found = { clientId, startingOffset := replication.offset }) ∨
      ∃ earlier, replication.sessions.lookup session = some earlier ∧
        SameReplica earlier found ∧ (action ≠ .send session → found.sent = earlier.sent) := by
  have hsame : replication.sessions.lookup session = some found →
      ∃ earlier, replication.sessions.lookup session = some earlier ∧
        SameReplica earlier found ∧ (action ≠ .send session → found.sent = earlier.sent) :=
    fun hfound => ⟨found, hfound, ⟨rfl, rfl⟩, fun _ => rfl⟩
  have hframe : ∀ frame, (replication.replicaSessions.foldl (enqueueTo frame)
      replication.sessions).lookup session = some found →
      ∃ earlier, replication.sessions.lookup session = some earlier ∧
        SameReplica earlier found ∧ (action ≠ .send session → found.sent = earlier.sent) := by
    intro frame hfound
    obtain ⟨earlier, hearlier, rfl⟩ := h.lookup_append hfound
    obtain ⟨hreplica, hsent⟩ := sameReplica_enqueue earlier frame
    exact ⟨earlier, hearlier, hreplica, fun _ => hsent⟩
  cases action with
  | write clientId payload => exact .inr (hframe _ hfound)
  | ask payload => exact .inr (hframe _ hfound)
  | prune => exact .inr (hsame hfound)
  | register clientId =>
    by_cases hnew : session = replication.nextSession
    · subst hnew
      simp only [Replication.perform, registerReplica, AList.lookup_insert,
        Option.some.injEq] at hfound
      exact .inl ⟨clientId, rfl, rfl, hfound.symm⟩
    · simp only [Replication.perform, registerReplica] at hfound
      rw [AList.lookup_insert_ne hnew] at hfound
      exact .inr (hsame hfound)
  | acknowledge clientId offset => exact .inr (hsame hfound)
  | forget clientId => exact .inr (hsame hfound)
  | send target =>
    obtain ⟨earlier, hearlier, rfl⟩ := lookup_updateSession hfound
    refine .inr ⟨earlier, hearlier, ?_, fun hother => ?_⟩
    · split
      · exact sameReplica_sendFrame earlier
      · exact ⟨rfl, rfl⟩
    · rw [if_neg fun heq => hother (by rw [heq])]
  | close target =>
    obtain ⟨earlier, hearlier, rfl⟩ := lookup_updateSession hfound
    refine .inr ⟨earlier, hearlier, ?_, fun _ => ?_⟩ <;> split <;>
      first | exact ⟨rfl, rfl⟩ | rfl
  | drop target =>
    simp only [Replication.perform, dropSession] at hfound
    by_cases hsession : session = target
    · subst hsession
      simp at hfound
    · rw [AList.lookup_erase_ne hsession] at hfound
      exact .inr (hsame hfound)

theorem nextSession_perform (replication : Replication) (action : Action) :
    replication.nextSession ≤ (replication.perform action).nextSession := by
  cases action with
  | register clientId => exact Nat.le_succ _
  | send session =>
    simp only [Replication.perform, updateSession]
    split <;> exact Nat.le_refl _
  | close session =>
    simp only [Replication.perform, updateSession]
    split <;> exact Nat.le_refl _
  | _ => exact Nat.le_refl _

theorem nextSession_foldl (actions : List Action) (replication : Replication) :
    replication.nextSession ≤ (actions.foldl Replication.perform replication).nextSession := by
  induction actions generalizing replication with
  | nil => exact Nat.le_refl _
  | cons action actions ih => exact Nat.le_trans (nextSession_perform replication action) (ih _)

/-- A session whose number was given away before the actions was there before them. -/
theorem lookup_acts (h : Sound replication) (hacts : Acts actions replication after)
    (hknown : session < replication.nextSession)
    (hfound : after.sessions.lookup session = some found) :
    ∃ earlier, replication.sessions.lookup session = some earlier ∧ SameReplica earlier found := by
  obtain ⟨hfilled, rfl⟩ := hacts
  induction actions generalizing replication with
  | nil => exact ⟨found, hfound, ⟨rfl, rfl⟩⟩
  | cons action actions ih =>
    have hnext := nextSession_perform replication action
    obtain ⟨middle, hmiddle, hlater⟩ := ih (h.perform (hfilled action (by simp)))
      (Nat.lt_of_lt_of_le hknown hnext) (fun other hother => hfilled other (by simp [hother]))
      hfound
    rcases h.lookup_perform hmiddle with ⟨_, _, hnew, _⟩ | ⟨earlier, hearlier, hreplica, -⟩
    · exact absurd hnew (Nat.ne_of_lt hknown)
    · exact ⟨earlier, hearlier, hlater.clientId.trans hreplica.clientId,
        hlater.startingOffset.trans hreplica.startingOffset⟩

end Sound

/-- What counts as acknowledged was acknowledged at some time. -/
theorem acknowledged_perform {replication : Replication} {offset : ℕ}
    (h : (replication.perform action).acknowledgedOffsets.lookup clientId = some offset) :
    replication.acknowledgedOffsets.lookup clientId = some offset ∨
      action = .acknowledge clientId offset := by
  cases action with
  | acknowledge author latest =>
    simp only [perform, acknowledgeReplica] at h
    by_cases hauthor : clientId = author
    · subst hauthor
      rw [AList.lookup_insert, Option.some.injEq] at h
      cases hlookup : replication.acknowledgedOffsets.lookup clientId with
      | none =>
        rw [hlookup, Option.getD_none, Nat.zero_max] at h
        exact .inr (by rw [h])
      | some earlier =>
        rw [hlookup, Option.getD_some] at h
        rcases Nat.le_total earlier latest with hle | hle
        · exact .inr (by rw [← h, max_eq_right hle])
        · exact .inl (by rw [← h, max_eq_left hle])
    · rw [AList.lookup_insert_ne hauthor] at h
      exact .inl h
  | forget gone =>
    simp only [perform, forgetClient] at h
    by_cases hgone : clientId = gone
    · subst hgone
      simp at h
    · rw [AList.lookup_erase_ne hgone] at h
      exact .inl h
  | send session =>
    simp only [perform, updateSession] at h
    split at h <;> exact .inl h
  | close session =>
    simp only [perform, updateSession] at h
    split at h <;> exact .inl h
  | _ => exact .inl h

/-! ## The last write of a client -/

/-- The client wrote the payload after the earlier actions, and nothing since. -/
def LastWrite (clientId : ClientId) (payload : Bytes) (earlier trace : List Action) : Prop :=
  ∃ later, trace = earlier ++ .write clientId payload :: later ∧
    ∀ other, Action.write clientId other ∉ later

theorem LastWrite.append {earlier : List Action} (h : LastWrite clientId payload earlier trace)
    (haction : ∀ other, action ≠ .write clientId other) :
    LastWrite clientId payload earlier (trace ++ [action]) := by
  obtain ⟨later, rfl, hlater⟩ := h
  refine ⟨later ++ [action], by simp, fun other hother => ?_⟩
  rcases List.mem_append.mp hother with hother | hother
  · exact hlater other hother
  · exact haction other (List.mem_singleton.mp hother).symm

/-- What was registered before everything else was registered before any write. -/
theorem LastWrite.registered {earlier whole : List Action}
    (h : LastWrite clientId payload earlier trace) (htrace : trace <+: whole) {replica : ClientId}
    (hwhole : [.register replica] <+: whole) (origin : Replication) :
    origin.nextSession < (earlier.foldl perform origin).nextSession := by
  obtain ⟨later, rfl, -⟩ := h
  obtain ⟨rest, rfl⟩ := hwhole
  cases earlier with
  | nil => simp at htrace
  | cons first earlier =>
    obtain rfl : first = .register replica := by
      simp only [List.cons_append, List.nil_append, List.cons_prefix_cons] at htrace
      exact htrace.1
    exact Nat.lt_of_lt_of_le (Nat.lt_succ_self _)
      (Sound.nextSession_foldl earlier (origin.perform (.register replica)))

/-- **The offset noted for a client** is where its last write ended. -/
theorem lastWrite_of_lookup {origin : Replication}
    (horigin : origin.clientWriteOffsets.lookup clientId = none) {target : ℕ}
    (h : (trace.foldl perform origin).clientWriteOffsets.lookup clientId = some target) :
    ∃ payload earlier, LastWrite clientId payload earlier trace ∧
      target = ((earlier ++ [Action.write clientId payload]).foldl perform origin).offset := by
  induction trace using List.reverseRecOn with
  | nil => simp [horigin] at h
  | append_singleton trace action ih =>
    rw [List.foldl_append, List.foldl_cons, List.foldl_nil] at h
    have hkept : (trace.foldl perform origin).clientWriteOffsets.lookup clientId = some target →
        (∀ other, action ≠ .write clientId other) →
        ∃ payload earlier, LastWrite clientId payload earlier (trace ++ [action]) ∧
          target = ((earlier ++ [Action.write clientId payload]).foldl perform origin).offset := by
      intro hlookup haction
      obtain ⟨payload, earlier, hwrite, htarget⟩ := ih hlookup
      exact ⟨payload, earlier, hwrite.append haction, htarget⟩
    cases action with
    | write author payload =>
      by_cases hauthor : clientId = author
      · subst hauthor
        simp only [perform, appendClientReplicationFrame, AList.lookup_insert,
          Option.some.injEq] at h
        refine ⟨payload, trace, ⟨[], rfl, by simp⟩, ?_⟩
        rw [← h, List.foldl_append]
        rfl
      · refine hkept ?_ fun other hother => hauthor (by cases hother; rfl)
        simp only [perform, appendClientReplicationFrame] at h
        rwa [AList.lookup_insert_ne hauthor] at h
    | forget gone =>
      refine hkept ?_ (fun _ => nofun)
      simp only [perform, forgetClient] at h
      by_cases hgone : clientId = gone
      · subst hgone
        simp at h
      · rwa [AList.lookup_erase_ne hgone] at h
    | send session =>
      refine hkept ?_ (fun _ => nofun)
      simp only [perform, updateSession] at h
      split at h <;> exact h
    | close session =>
      refine hkept ?_ (fun _ => nofun)
      simp only [perform, updateSession] at h
      split at h <;> exact h
    | _ => exact hkept h fun _ => nofun

/-- The backlog only grows. -/
theorem backlog_perform (replication : Replication) (action : Action) :
    replication.backlog <+: (replication.perform action).backlog := by
  cases action with
  | write clientId payload => exact List.prefix_append _ _
  | ask payload => exact List.prefix_append _ _
  | send session =>
    simp only [perform, updateSession]
    split <;> exact List.prefix_refl _
  | close session =>
    simp only [perform, updateSession]
    split <;> exact List.prefix_refl _
  | _ => exact List.prefix_refl _

theorem Acts.backlog {before : Replication} (h : Acts actions before after) :
    before.backlog <+: after.backlog := by
  rw [h.result]
  clear h
  induction actions generalizing before with
  | nil => exact List.prefix_refl _
  | cons action actions ih => exact (backlog_perform before action).trans ih

/-! ## Who has applied a write -/

section Write

variable {origin final : Replication} {earlier later : List Action} {clientId : ClientId}
  {payload : Bytes} (hacts : Acts (earlier ++ .write clientId payload :: later) origin final)
include hacts

/-- The frame of a write is in the backlog from then on. -/
theorem mem_backlog_of_write :
    ⟨payload, ((earlier ++ [Action.write clientId payload]).foldl perform origin).offset⟩ ∈
      final.backlog := by
  rw [List.append_cons] at hacts
  refine hacts.split.2.backlog.subset ?_
  rw [List.foldl_append]
  exact List.mem_append_right _ (List.mem_singleton.mpr rfl)

/-- A session that was registered before a write begins before it. -/
theorem startingOffset_lt_of_write (horigin : origin.Sound)
    (hknown : session < (earlier.foldl perform origin).nextSession)
    (hfound : final.sessions.lookup session = some found) :
    found.startingOffset <
      ((earlier ++ [Action.write clientId payload]).foldl perform origin).offset := by
  obtain ⟨hbefore, hafter⟩ := hacts.split
  have hsound := horigin.acts hbefore
  obtain ⟨registered, hregistered, hsame⟩ := hsound.lookup_acts hafter hknown hfound
  obtain ⟨passed, missing, hbacklog, hstart, -⟩ := (hsound.served _ _ hregistered).given
  have hpayload : payload ≠ [] := hafter.filled (.write clientId payload) (by simp)
  have hle : found.startingOffset ≤ (earlier.foldl perform origin).offset := by
    rw [hsame.startingOffset, hstart, hsound.offset, hbacklog, total_append]
    exact Nat.le_add_right _ _
  calc found.startingOffset
      ≤ (earlier.foldl perform origin).offset := hle
    _ < (earlier.foldl perform origin).offset + payload.length :=
        Nat.lt_add_of_pos_right (List.length_pos_iff.mpr hpayload)
    _ = ((earlier ++ [Action.write clientId payload]).foldl perform origin).offset := by
        rw [List.foldl_append]
        rfl

end Write

/-- **Whoever has received as many bytes as the mark of a frame says has received the
frame.** -/
theorem Sound.received_of_ending_le {replication : Replication} (h : Sound replication)
    (hfound : replication.sessions.lookup session = some found) {frame : ReplicationFrame}
    (hframe : frame ∈ replication.backlog) (hafter : found.startingOffset < frame.endingOffset)
    {received : Bytes} (hreceived : received <+: found.frames.flatMap ReplicationFrame.payload)
    (hreached : frame.endingOffset ≤ found.startingOffset + received.length) :
    ∃ before, before ++ [frame] <+: found.frames ∧
      (before ++ [frame]).flatMap ReplicationFrame.payload <+: received := by
  obtain ⟨earlier, missing, hbacklog, hstart, -⟩ := (h.served session found hfound).given
  have hmarked := h.marked
  rw [hbacklog] at hmarked hframe
  rw [hstart] at hafter hreached
  have hlength := hreceived.length_le
  rw [total_flatMap] at hlength
  have hmem : frame ∈ found.frames := hmarked.mem_of_ending_le
    (fun item hitem => h.filled item (by simp [hbacklog, hitem])) hframe hafter
    (Nat.le_trans hreached (Nat.add_le_add_left hlength _))
  obtain ⟨before, after, hframes⟩ := List.append_of_mem hmem
  have hprefix : before ++ [frame] <+: found.frames := ⟨after, by simp [hframes]⟩
  refine ⟨before, hprefix, List.prefix_of_prefix_length_le ?_ hreceived ?_⟩
  · obtain ⟨rest, hrest⟩ := hprefix
    exact ⟨rest.flatMap ReplicationFrame.payload, by rw [← List.flatMap_append, hrest]⟩
  · have hsplit : Marked frameSize ReplicationFrame.endingOffset 0
        ((earlier ++ before) ++ frame :: (after ++ missing)) := by
      simpa [hframes] using hmarked
    have hending := hsplit.ending_eq
    rw [List.append_assoc, total_append, Nat.zero_add] at hending
    rw [total_flatMap]
    show total frameSize (before ++ [frame]) ≤ received.length
    omega

end RedisServer.Replication
