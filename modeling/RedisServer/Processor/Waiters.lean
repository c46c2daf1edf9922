import RedisServer.Database.Streams
import RedisServer.Processor.Worker

/-!
# Blocked commands stay blocked for a reason

After a task the worker retries every blocked command once, in the order of the
queues, and then drops those whose time is over.  A retried `BLPOP` changes the
database that the commands before it have already seen.  One pass is still
enough: a pop only takes elements away, and the commands that stayed are those
that wait for elements to come.

`Settled` is the state in which nobody waits for something that is there.  The
three retry passes establish it one queue at a time, and nothing that follows in
the iteration disturbs it.
-/

namespace RedisServer

open Resp KeyedStore Commands Aof Database

variable {clock : Clock} {processor : Processor}

/-! ## What a failed attempt says about the database -/

section Lists

variable {clock : Clock} {key other : Bytes} {before after : Database}

/-- A list that is not there cannot be popped. -/
theorem lookup_popListElement_of_none (hother : before.entries.lookup other = none) :
    (popListElement clock key before).2.entries.lookup other = none := by
  rw [popListElement_eq, lookup_transact]
  by_cases hkey : other = key
  · subst hkey
    have hlive : live (Entry.expired clock) other before = none := by simp [live, hother]
    simp [hlive, OnEntry.popListElement, Update.outcome]
  · simpa [hkey] using hother

/-- The key for which a `BLPOP` has to wait is absent. -/
theorem lookup_of_waiting {Allowed : StreamId → Prop} {error : Database.Error}
    (hinvariant : Invariant Allowed before) (herror : error ≠ .wrongType)
    (hpop : popListElement clock key before = (.error error, after)) :
    after.entries.lookup key = none := by
  have hafter : after = (popListElement clock key before).2 := by rw [hpop]
  have hresult : (OnEntry.popListElement (live (Entry.expired clock) key before)).1 =
      .error error := by
    rw [popListElement_eq] at hpop
    exact congrArg Prod.fst hpop
  rw [hafter, popListElement_eq, lookup_transact, if_pos rfl]
  have hsound := hinvariant.sound_view clock key
  unfold view at hsound
  generalize live (Entry.expired clock) key before = current at hresult hsound ⊢
  rcases current with _ | ⟨_ | (_ | ⟨front, elements⟩) | _, expiresAt⟩
  · rfl
  · exact absurd (Except.error.inj hresult).symm herror
  · -- No key holds an empty list.
    exact ((hsound _ rfl).value rfl).elim
  · cases hresult
  · exact absurd (Except.error.inj hresult).symm herror

end Lists

/-- A resolved request for which the stream has nothing new. -/
def ReadRequest.Waits (database : Database) (request : ReadRequest) : Prop :=
  request.startMode = .afterId ∧
    (database.entries.lookup request.key = none ∨
      ∃ entries expiresAt, database.entries.lookup request.key = some ⟨.stream entries, expiresAt⟩ ∧
        ∀ entry ∈ entries, entry.id ≤ request.afterId)

theorem ReadRequest.Waits.purges {request : ReadRequest} {before after : Database}
    (h : request.Waits before) (hversioned : Versioned before)
    (hpurges : Purges (Entry.expired clock) before after) : request.Waits after := by
  refine ⟨h.1, ?_⟩
  rcases hpurges.key_cases hversioned request.key with ⟨hsame, -⟩ | ⟨-, hgone, -⟩
  · rw [hsame]
    exact h.2
  · exact .inl hgone

section Streams

variable {view : Bytes → Option Entry} {requests : List ReadRequest}

/-- After the first loop every request has a starting point, and its key is one
of those that were asked for. -/
theorem mem_resolveRequests (hok : (OnEntry.resolveRequests view requests).1 = .ok ()) :
    ∀ request ∈ (OnEntry.resolveRequests view requests).2,
      request.startMode = .afterId ∧ ∃ asked ∈ requests, asked.key = request.key := by
  induction requests with
  | nil => simp [OnEntry.resolveRequests]
  | cons asked rest ih =>
    unfold OnEntry.resolveRequests at hok ⊢
    generalize view asked.key = entry at hok ⊢
    rcases entry with _ | ⟨_ | _ | entries, expiresAt⟩
    case none | some.stream =>
      intro request hrequest
      rcases List.mem_cons.mp hrequest with rfl | hrequest
      · exact ⟨startMode_resolve _ _, asked, by simp, (key_resolve _ _).symm⟩
      · obtain ⟨hmode, original, hmem, hkey⟩ := ih hok request hrequest
        exact ⟨hmode, original, by simp [hmem], hkey⟩
    all_goals cases hok

/-- If the second loop finds nothing, no stream has anything new. -/
theorem nothing_new_of_collectResults (hnothing : OnEntry.collectResults view requests = .ok []) :
    ∀ request ∈ requests, view request.key = none ∨
      ∃ entries expiresAt, view request.key = some ⟨.stream entries, expiresAt⟩ ∧
        entries.drop (upperBound entries request.afterId) = [] := by
  induction requests with
  | nil => simp
  | cons asked rest ih =>
    unfold OnEntry.collectResults at hnothing
    rcases hview : view asked.key with _ | ⟨_ | _ | entries, expiresAt⟩
    · rw [hview] at hnothing
      intro request hrequest
      rcases List.mem_cons.mp hrequest with rfl | hrequest
      · exact .inl hview
      · exact ih hnothing request hrequest
    · simp [hview] at hnothing
    · simp [hview] at hnothing
    · simp only [hview] at hnothing
      split at hnothing
      · rename_i hnewer
        intro request hrequest
        rcases List.mem_cons.mp hrequest with rfl | hrequest
        · exact .inr ⟨entries, expiresAt, hview, hnewer⟩
        · exact ih hnothing request hrequest
      · cases hcollect : OnEntry.collectResults view rest <;>
          simp [hcollect, Except.map] at hnothing

end Streams

/-- In a sorted stream, nothing after the bound means nothing greater. -/
theorem le_of_drop_upperBound {entries : List StreamEntry} {id : StreamId}
    (hsorted : entries.Pairwise fun first second => first.id < second.id)
    (hnothing : entries.drop (upperBound entries id) = []) : ∀ entry ∈ entries, entry.id ≤ id := by
  rw [drop_upperBound hsorted, List.filter_eq_nil_iff] at hnothing
  intro entry hentry
  have hnot := hnothing entry hentry
  rwa [decide_eq_true_eq, not_lt] at hnot

theorem drop_upperBound_of_le {entries : List StreamEntry} {id : StreamId}
    (hle : ∀ entry ∈ entries, entry.id ≤ id) : entries.drop (upperBound entries id) = [] := by
  have hall : ∀ entry ∈ entries, decide (¬ id < entry.id) = true := by
    intro entry hentry
    simpa using hle entry hentry
  have hpart : entries.Pairwise fun first second =>
      decide (¬ id < second.id) = true → decide (¬ id < first.id) = true :=
    List.pairwise_of_forall_mem_list fun first hfirst second _ _ => hall first hfirst
  obtain ⟨-, -, hafter⟩ := BinarySearch.partitionPoint_spec hpart
  refine List.eq_nil_iff_forall_not_mem.mpr fun entry hentry => ?_
  have hfalse := hafter entry hentry
  rw [hall entry (List.mem_of_mem_drop hentry)] at hfalse
  cases hfalse

/-- Reading again for requests that wait finds nothing, and leaves them as they
are. -/
theorem readStreams_of_waits {requests : List ReadRequest} {database : Database}
    (hwaits : ∀ request ∈ requests, request.Waits database) :
    ∃ after, Database.readStreams clock requests database = (.ok [], requests, after) ∧
      Purges (Entry.expired clock) database after := by
  -- The live view of a waited-for key is nothing, or the stream that has nothing new.
  have hview : ∀ request ∈ requests, view clock database request.key = none ∨
      ∃ entries expiresAt, view clock database request.key = some ⟨.stream entries, expiresAt⟩ ∧
        ∀ entry ∈ entries, entry.id ≤ request.afterId := by
    intro request hrequest
    unfold view live
    rcases (hwaits request hrequest).2 with hnone | ⟨entries, expiresAt, hsome, hle⟩
    · exact .inl (by rw [hnone]; rfl)
    · rw [hsome]
      cases hexpired : Entry.expired clock ⟨.stream entries, expiresAt⟩ with
      | true => exact .inl (by simp [Option.filter, hexpired])
      | false => exact .inr ⟨entries, expiresAt, by simp [Option.filter, hexpired], hle⟩
  have hmode : ∀ request ∈ requests, request.startMode = .afterId :=
    fun request hrequest => (hwaits request hrequest).1
  obtain ⟨after, hread, hpurges, -⟩ := readStreams_spec clock requests database
  clear hwaits
  suffices hnothing : OnEntry.resolveRequests (view clock database) requests = (.ok (), requests) ∧
      OnEntry.collectResults (view clock database) requests = .ok [] by
    refine ⟨after, ?_, hpurges⟩
    rw [hread, OnEntry.readStreams, hnothing.1]
    simp only [hnothing.2]
  clear hread hpurges
  induction requests with
  | nil => exact ⟨rfl, rfl⟩
  | cons request rest ih =>
    obtain ⟨hresolve, hcollect⟩ := ih (fun other hother => hview other (by simp [hother]))
      (fun other hother => hmode other (by simp [hother]))
    have hsame : ∀ entries, ReadRequest.resolve request entries = request := by
      intro entries
      rw [ReadRequest.resolve, hmode request (by simp)]
    unfold OnEntry.resolveRequests OnEntry.collectResults
    rcases hview request (by simp) with hnone | ⟨entries, expiresAt, hsome, hle⟩
    · simp [hnone, hresolve, hcollect, hsame]
    · simp [hsome, hresolve, hcollect, hsame, drop_upperBound_of_le hle]

/-! ## Blocked commands -/

/-- The key of the `BLPOP` is absent. -/
def PendingListPop.Blocked (pending : PendingListPop) (processor : Processor) : Prop :=
  processor.database.entries.lookup pending.key = none

/-- No stream of the `XREAD` has anything new. -/
def PendingStreamRead.Blocked (pending : PendingStreamRead) (processor : Processor) : Prop :=
  ∀ request ∈ pending.requests, request.Waits processor.database

/-- Too few replicas have acknowledged the offset of the `WAIT`. -/
def PendingWait.Blocked (pending : PendingWait) (processor : Processor) : Prop :=
  (processor.replication.countAcknowledgedReplicas pending.targetOffset).1 <
    pending.requiredReplicas

/-- Nobody waits for something that is there. -/
structure Processor.Settled (processor : Processor) : Prop where
  pops : ∀ pending ∈ processor.pendingListPops, pending.Blocked processor
  reads : ∀ pending ∈ processor.pendingStreamReads, pending.Blocked processor
  waits : ∀ pending ∈ processor.pendingWaits, pending.Blocked processor

/-- The representation invariant, whatever the system clock showed. -/
abbrev Database.Valid (database : Database) : Prop := Invariant (fun _ => True) database

def Processor.Valid (processor : Processor) : Prop := processor.database.Valid

namespace Processor

/-! ## The pass over the `BLPOP`s -/

theorem database_popAttempt {disk : Disk} {task : Task} {key : Bytes} {waiting : Bool}
    {before after : Processor} (h : PopAttempt clock disk task key before waiting after) :
    after.database = (Database.popListElement clock key before.database).2 := by
  cases h with
  | served hpop hpersist =>
    obtain ⟨file, errors, replication, rfl⟩ := persistBlockingPop_cases _ hpersist
    rw [hpop]
    rfl
  | wrongType hpop =>
    rw [hpop]
    rfl
  | waits hpop _ => rw [hpop]

theorem database_retryListPop (input : Clock × Disk) (pending : PendingListPop)
    (processor : Processor) :
    (retryListPop input pending processor).2.database =
      (Database.popListElement input.1 pending.key processor.database).2 := by
  obtain ⟨waiting, after, hattempt, hretry⟩ := retryListPop_cases input pending processor
  rw [hretry]
  exact database_popAttempt hattempt

theorem blocked_of_retryListPop {input : Clock × Disk} {pending kept : PendingListPop}
    {processor : Processor} (hvalid : processor.Valid)
    (hkept : (retryListPop input pending processor).1 = some kept) :
    kept.Blocked (retryListPop input pending processor).2 := by
  have hsame := retryListPop_kept hkept
  obtain ⟨waiting, after, hattempt, hretry⟩ := retryListPop_cases input pending processor
  rw [hretry] at hkept ⊢
  cases hattempt with
  | served hpop hpersist => simp at hkept
  | wrongType hpop => simp at hkept
  | waits hpop herror =>
    rw [hsame]
    exact lookup_of_waiting hvalid herror hpop

/-- **One pass is enough.**  Whoever is left in the queue waits for an absent key:
a later pop of the same pass can only make keys disappear. -/
theorem blocked_retryPendingListPops (inputs : Stream' (Clock × Disk)) (hvalid : processor.Valid) :
    ∀ pending ∈ (processor.retryPendingListPops inputs).pendingListPops,
      pending.Blocked (processor.retryPendingListPops inputs) := by
  have hpass : ∀ pending ∈ (Scan.scan retryListPop inputs processor.pendingListPops processor).1,
      pending.Blocked (Scan.scan retryListPop inputs processor.pendingListPops processor).2 := by
    refine Scan.scan_blocked ?_ ?_ ?_ inputs processor.pendingListPops hvalid
    · intro input pending state hstate
      unfold Processor.Valid
      rw [database_retryListPop]
      exact Invariant.popListElement hstate _ _
    · intro input pending state kept hstate hkept
      exact blocked_of_retryListPop hstate hkept
    · intro input pending state other hstate hother
      unfold PendingListPop.Blocked
      rw [database_retryListPop]
      exact lookup_popListElement_of_none hother
  exact hpass

/-! ## The pass over the `XREAD`s -/

theorem purges_retryStreamRead (clock : Clock) (pending : PendingStreamRead)
    (processor : Processor) :
    Purges (Entry.expired clock) processor.database
      (retryStreamRead clock pending processor).2.database := by
  have hretry := retryStreamRead_cases clock pending processor
  generalize retryStreamRead clock pending processor = outcome at hretry ⊢
  cases hretry with
  | failed hread | found hread | kept hread => exact purges_of_read hread

/-- A read that found nothing new waits for each of its streams. -/
theorem waits_of_readStreams {requests requests' : List ReadRequest} {before after : Database}
    (hvalid : before.Valid)
    (hread : Database.readStreams clock requests before = (.ok [], requests', after)) :
    ∀ request ∈ requests', request.Waits after := by
  obtain ⟨looked, hspec, hpurges, hlooked⟩ := readStreams_spec clock requests before
  rw [hread] at hspec
  obtain ⟨hresult, hrest⟩ := Prod.mk.inj hspec
  obtain ⟨hrequests, rfl⟩ := Prod.mk.inj hrest
  have hlookup := hlooked [] hresult.symm
  unfold OnEntry.readStreams at hresult hrequests
  have hresolved : (OnEntry.resolveRequests (view clock before) requests).1 = .ok () →
      ∀ request ∈ (OnEntry.resolveRequests (view clock before) requests).2,
        request.startMode = .afterId ∧ ∃ asked ∈ requests, asked.key = request.key :=
    mem_resolveRequests
  generalize OnEntry.resolveRequests (view clock before) requests = resolution
    at hresult hrequests hresolved
  obtain ⟨outcome, resolved⟩ := resolution
  cases outcome with
  | error error => cases hresult
  | ok _ =>
    cases hrequests
    intro request hrequest
    obtain ⟨hmode, asked, hasked, hkey⟩ := hresolved rfl request hrequest
    have hview := hlookup asked hasked
    rw [hkey] at hview
    refine ⟨hmode, ?_⟩
    rcases nothing_new_of_collectResults hresult.symm request hrequest with
      hnone | ⟨entries, expiresAt, hsome, hnothing⟩
    · exact .inl (hview.trans hnone)
    · have hwell := hvalid.sound_view clock request.key _ hsome
      exact .inr ⟨entries, expiresAt, hview.trans hsome,
        le_of_drop_upperBound hwell.value.2.1 hnothing⟩

theorem blocked_of_retryStreamRead {pending kept : PendingStreamRead} (hvalid : processor.Valid)
    (hkept : (retryStreamRead clock pending processor).1 = some kept) :
    kept.Blocked (retryStreamRead clock pending processor).2 := by
  have hretry := retryStreamRead_cases clock pending processor
  generalize retryStreamRead clock pending processor = outcome at hretry hkept ⊢
  cases hretry <;> cases hkept
  exact waits_of_readStreams hvalid ‹_›

theorem blocked_retryPendingStreamReads (clocks : Stream' Clock) (hvalid : processor.Valid) :
    ∀ pending ∈ (processor.retryPendingStreamReads clocks).pendingStreamReads,
      pending.Blocked (processor.retryPendingStreamReads clocks) := by
  have hpass : ∀ pending ∈ (Scan.scan retryStreamRead clocks processor.pendingStreamReads
      processor).1, pending.Blocked
        (Scan.scan retryStreamRead clocks processor.pendingStreamReads processor).2 := by
    refine Scan.scan_blocked ?_ ?_ ?_ clocks processor.pendingStreamReads hvalid
    · intro clock pending state hstate
      exact Invariant.purges hstate (purges_retryStreamRead clock pending state)
    · intro clock pending state kept hstate hkept
      exact blocked_of_retryStreamRead hstate hkept
    · intro clock pending state other hstate hother request hrequest
      exact (hother request hrequest).purges (Invariant.versioned hstate)
        (purges_retryStreamRead _ _ _)
  exact hpass

/-! ## The pass over the `WAIT`s -/

/-- Only live sessions count, so dropping the dead ones changes no count. -/
theorem count_of_pruned (replication : Replication) (dropped targetOffset : ℕ) :
    ((replication.countAcknowledgedReplicas dropped).2.countAcknowledgedReplicas
      targetOffset).1 = (replication.countAcknowledgedReplicas targetOffset).1 := by
  have halive : ∀ session, replication.hasAcknowledged targetOffset session = true →
      replication.isAlive session = true := by
    intro session hsession
    unfold Replication.hasAcknowledged at hsession
    cases hlookup : replication.sessions.lookup session with
    | none => simp [hlookup] at hsession
    | some found => simp [Replication.isAlive, hlookup]
  calc ((replication.countAcknowledgedReplicas dropped).2.countAcknowledgedReplicas
        targetOffset).1
      = (replication.replicaSessions.filter replication.isAlive).countP
          (replication.hasAcknowledged targetOffset) := rfl
    _ = replication.replicaSessions.countP fun session =>
          replication.hasAcknowledged targetOffset session && replication.isAlive session :=
        List.countP_filter
    _ = replication.replicaSessions.countP (replication.hasAcknowledged targetOffset) := by
        refine List.countP_congr fun session _ => ?_
        simpa using halive session
    _ = (replication.countAcknowledgedReplicas targetOffset).1 := rfl

theorem blocked_waitVisit {Due : PendingWait → ℕ → Prop} {pending other : PendingWait}
    {outcome : Option PendingWait × Processor} (h : WaitVisit Due pending processor outcome)
    (hother : other.Blocked processor) : other.Blocked outcome.2 := by
  cases h with
  | kept => exact hother
  | counted | answered _ => exact lt_of_eq_of_lt (count_of_pruned _ pending.targetOffset _) hother

theorem blocked_retryPendingWaits (processor : Processor) :
    ∀ pending ∈ processor.retryPendingWaits.pendingWaits,
      pending.Blocked processor.retryPendingWaits := by
  have hpass : ∀ pending ∈ (Scan.scan retryWait (Stream'.const ()) processor.pendingWaits
      processor).1, pending.Blocked
        (Scan.scan retryWait (Stream'.const ()) processor.pendingWaits processor).2 := by
    refine Scan.scan_blocked (fun _ _ _ (h : True) => h) ?_ ?_ _ _ trivial
    · intro input pending state kept _ hkept
      obtain rfl := (waitVisit_retryWait input pending state).kept_eq hkept
      refine blocked_waitVisit (waitVisit_retryWait input kept state)
        (lt_of_not_ge fun henough => ?_)
      rw [retryWait] at hkept
      exact absurd hkept (by simp [Nat.not_lt.mpr henough])
    · exact fun input pending state _ _ => blocked_waitVisit (waitVisit_retryWait input pending state)
  exact hpass

end Processor

end RedisServer
