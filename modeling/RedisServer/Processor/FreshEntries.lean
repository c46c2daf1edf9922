import RedisServer.Processor.Reads

/-!
# What a blocked read is told

The pieces of `Processor.Reads` along a run: the read joins its queue, waits through
some iterations and is answered in the last one.  In between its streams only grew, so
the listing is made of what was added; for a `$` it is all that was added, except for
an entry with the identifier `0-0`, which only a clock at the epoch can generate.
-/

namespace RedisServer

open Resp KeyedStore Commands Aof Database

variable {before after final : Processor} {phases past : List Phase} {pending : PendingStreamRead}
  {iteration : Iteration}

/-! ## Whole runs -/

section Runs

open Processor

variable {host : Host}

theorem fixed_perform {phase : Phase} (hvalid : before.Valid) (hfixed : before.Fixed)
    (h : phase.perform host before = some after) : after.Fixed := by
  by_cases hphase : ∀ env work, phase ≠ .task env work
  · exact (passes_perform hphase hvalid hfixed h).2.fixed hfixed
  · push Not at hphase
    obtain ⟨env, work, rfl⟩ := hphase
    intro pending hpending
    rcases (tasked_perform hvalid h).reads pending hpending with hold | ⟨-, hregisters⟩
    · exact hfixed pending hold
    · obtain ⟨readCommand, -, hrequests⟩ := hregisters.requests
      intro request hrequest
      rw [hrequests] at hrequest
      obtain ⟨asked, -, rfl⟩ := List.mem_map.mp hrequest
      exact startMode_fixed asked

/-- The state is reached by these phases. -/
abbrev Reaches (host : Host) (role : ReplicationRole) (replicationId : Bytes) (defaultUser : User)
    (rdbConfig : RdbConfig) (aofConfig : AofConfig) (phases : List Phase) (state : Processor) :
    Prop :=
  runPhases host phases (Processor.start role replicationId defaultUser rdbConfig aofConfig) =
    some state

/-- The state is reached by these phases from some start. -/
def Reached (host : Host) (phases : List Phase) (state : Processor) : Prop :=
  ∃ role replicationId defaultUser rdbConfig aofConfig,
    Reaches host role replicationId defaultUser rdbConfig aofConfig phases state

theorem Reached.append (hbefore : Reached host past before)
    (hrun : runPhases host phases before = some after) : Reached host (past ++ phases) after := by
  obtain ⟨role, replicationId, defaultUser, rdbConfig, aofConfig, hpast⟩ := hbefore
  exact ⟨role, replicationId, defaultUser, rdbConfig, aofConfig,
    Runs.run_append_eq_some.mpr ⟨before, hpast, hrun⟩⟩

theorem Reached.snoc {phase : Phase} (hbefore : Reached host past before)
    (h : phase.perform host before = some after) : Reached host (past ++ [phase]) after :=
  hbefore.append (Runs.run_cons_eq_some.mpr ⟨after, h, rfl⟩)

theorem Reached.valid (h : Reached host past before) : before.Valid := by
  obtain ⟨_, _, _, _, _, hpast⟩ := h
  exact valid_run hpast

theorem Reached.fixed (h : Reached host past before) : before.Fixed := by
  obtain ⟨role, replicationId, defaultUser, rdbConfig, aofConfig, hpast⟩ := h
  induction past using List.reverseRecOn generalizing before with
  | nil =>
    cases hpast
    exact fun pending hpending => by cases hpending
  | append_singleton phases phase ih =>
    obtain ⟨first, hfirst, hlast⟩ := Runs.run_append_eq_some.mp hpast
    obtain ⟨after, hphase, hnil⟩ := Runs.run_cons_eq_some.mp hlast
    cases hnil
    exact fixed_perform (valid_run hfirst) (ih hfirst) hphase

/-- Every step of a run is a pass or a task. -/
theorem passes_or_tasked {phase : Phase} (hbefore : Reached host past before)
    (h : phase.perform host before = some after) : Passes before after ∨ Tasked before after := by
  by_cases hphase : ∀ env work, phase ≠ .task env work
  · exact .inl (passes_perform hphase hbefore.valid hbefore.fixed h).2
  · push Not at hphase
    obtain ⟨env, work, rfl⟩ := hphase
    exact .inr (tasked_perform hbefore.valid h)

/-- The record of a read is only copied, and a read that still waits has waited all
the time. -/
theorem tracked_run (hbefore : Reached host past before)
    (hrun : runPhases host phases before = some after) (h : Tracked pending before) :
    Tracked pending after ∧
      (pending ∈ after.pendingStreamReads → pending ∈ before.pendingStreamReads) := by
  induction phases generalizing past before with
  | nil =>
    cases hrun
    exact ⟨h, fun hpending => hpending⟩
  | cons phase rest ih =>
    obtain ⟨next, hphase, hrest⟩ := Runs.run_cons_eq_some.mp hrun
    rcases passes_or_tasked hbefore hphase with hpasses | htasked
    · obtain ⟨hafter, hmem⟩ := ih (hbefore.snoc hphase) hrest (h.passes hpasses)
      exact ⟨hafter, fun hpending => hpasses.reads (hmem hpending)⟩
    · obtain ⟨hafter, hmem⟩ := ih (hbefore.snoc hphase) hrest (h.tasked htasked)
      refine ⟨hafter, fun hpending => ?_⟩
      rcases htasked.reads pending (hmem hpending) with hold | ⟨hnew, -⟩
      · exact hold
      · exact absurd hnew h.known.ne

/-- A read in the queue is the only one with its promise, and has not been answered. -/
theorem tracked_of_mem {state : Processor} (hreached : Reached host phases state)
    (hpending : pending ∈ state.pendingStreamReads) :
    Tracked pending state ∧
      ∀ reply ∈ state.replies, reply.task.promise ≠ pending.task.promise := by
  obtain ⟨role, replicationId, defaultUser, rdbConfig, aofConfig, hrun⟩ := hreached
  have haccounted := accounted_run (⟨rfl, rfl⟩ : Accounted []
    (Processor.start role replicationId defaultUser rdbConfig aofConfig)) hrun
  have hperm : state.tasks.Perm (submissions phases) := Multiset.coe_eq_coe.mp haccounted.tasks
  have hpromises : (state.tasks.map Task.promise).Perm (List.range state.nextPromise) := by
    rw [haccounted.nextPromise, ← promises_submissions]
    exact hperm.map Task.promise
  have hnodup : (state.tasks.map Task.promise).Nodup := hpromises.nodup_iff.mpr List.nodup_range
  have hmem : pending.task ∈ state.pendingStreamReads.map PendingStreamRead.task :=
    List.mem_map_of_mem hpending
  have hknown : pending.task.promise < state.nextPromise := by
    refine List.mem_range.mp (hpromises.mem_iff.mp (List.mem_map_of_mem ?_))
    simp only [Processor.tasks, Processor.pendingTasks, List.mem_append]
    exact .inr (.inl (.inr hmem))
  -- The four places have no promise in common.
  simp only [Processor.tasks, Processor.pendingTasks, List.map_append] at hnodup
  obtain ⟨-, hqueues, hreplies⟩ := List.nodup_append'.mp hnodup
  obtain ⟨hfront, -, hwaits⟩ := List.nodup_append'.mp hqueues
  obtain ⟨-, hreads, hpops⟩ := List.nodup_append'.mp hfront
  have hown := List.mem_map_of_mem (f := Task.promise) hmem
  refine ⟨⟨hknown, fun task htask heq => ?_, fun other hother heq => ?_, fun task htask heq => ?_⟩,
    fun reply hreply heq => ?_⟩
  · exact hpops (heq ▸ List.mem_map_of_mem htask) hown
  · rw [List.map_map] at hreads
    exact List.inj_on_of_nodup_map hreads hother hpending heq
  · exact hwaits (List.mem_append_right _ hown) (heq ▸ List.mem_map_of_mem htask)
  · exact hreplies (heq ▸ List.mem_map_of_mem (List.mem_map_of_mem hreply))
      (List.mem_append_left _ (List.mem_append_right _ hown))

/-! ## Iterations -/

/-- An iteration is a task and passes, or passes alone. -/
theorem iteration_cases (hbefore : Reached host past before)
    (hrun : runPhases host iteration.phases before = some after) :
    Passes before after ∨ ∃ middle, Tasked before middle ∧ Passes middle after := by
  cases htask : iteration.task with
  | none =>
    refine .inl (passes_run (fun phase hphase => ?_) hbefore.valid hbefore.fixed hrun)
    rw [Iteration.phases, htask] at hphase
    rcases List.mem_append.mp hphase with hphase | hphase
    · exact task_not_mem_externals iteration _ phase hphase
    · exact task_not_mem_expiries iteration phase hphase
  | some work =>
    rw [Iteration.phases_of_task htask] at hrun
    obtain ⟨middle, hwork, hpasses⟩ := Runs.run_cons_eq_some.mp hrun
    have hmiddle := hbefore.snoc hwork
    exact .inr ⟨middle, tasked_perform hbefore.valid hwork,
      passes_run (task_not_mem_passes iteration) hmiddle.valid hmiddle.fixed hpasses⟩

/-- After every iteration, nobody waits for something that is there. -/
theorem settled_iterations {iterations : List Iteration}
    (hreached : Reached host (iterations.flatMap Iteration.phases) final) : final.Settled := by
  obtain ⟨role, replicationId, defaultUser, rdbConfig, aofConfig, hrun⟩ := hreached
  induction iterations using List.reverseRecOn generalizing final with
  | nil =>
    cases hrun
    exact ⟨by simp [Processor.start], by simp [Processor.start], by simp [Processor.start]⟩
  | append_singleton iterations last ih =>
    rw [List.flatMap_append, List.flatMap_singleton] at hrun
    obtain ⟨before, hbefore, hlast⟩ := Runs.run_append_eq_some.mp hrun
    cases htask : last.task with
    | none =>
      refine (ih hbefore).steady (steady_run (fun phase hphase => ?_) hlast)
      rw [Iteration.phases, htask] at hphase
      rcases List.mem_append.mp hphase with hphase | hphase
      · exact calm_externals last _ phase hphase
      · exact calm_expiries last phase hphase
    | some work =>
      refine (idle_of_iteration (by simp [htask]) (fun env work middle _ hmiddle => ?_)
        hlast).toSettled
      exact valid_run (Runs.run_append_eq_some.mpr ⟨before, hbefore, hmiddle⟩)

theorem listing_of_blocked {processor : Processor} (hblocked : pending.Blocked processor) :
    processor.database.listing pending.requests = [] := by
  refine List.filterMap_eq_nil_iff.mpr fun request hrequest => if_pos ?_
  refine List.filter_eq_nil_iff.mpr fun entry hentry => ?_
  rw [decide_eq_true_eq, not_lt]
  unfold streamAt at hentry
  rcases (hblocked request hrequest).2 with hnone | ⟨entries, expiresAt, hsome, hle⟩
  · rw [hnone] at hentry
    cases hentry
  · rw [hsome] at hentry
    exact hle entry hentry

/-- A read that joined the queue in an iteration has its starting points fixed to the
streams at the end of the iteration. -/
theorem registers_iteration (hbefore : Reached host past before)
    (hrun : runPhases host iteration.phases before = some after)
    (hpending : pending ∈ after.pendingStreamReads) (hnew : pending ∉ before.pendingStreamReads) :
    ∃ readCommand, parseXread pending.task.command = .ok readCommand ∧
      pending.requests = readCommand.requests.map after.database.fixed := by
  rcases iteration_cases hbefore hrun with hpasses | ⟨middle, htasked, hpasses⟩
  · exact absurd (hpasses.reads hpending) hnew
  · rcases htasked.reads pending (hpasses.reads hpending) with hold | ⟨-, hregisters⟩
    · exact absurd hold hnew
    · obtain ⟨readCommand, hparse, hrequests⟩ := hregisters.requests
      refine ⟨readCommand, hparse, hrequests.trans (List.map_congr_left fun request _ => ?_)⟩
      rw [Database.fixed, Database.fixed, hpasses.streams, hregisters.streams]

/-- **A read that is answered with data gets the listing at the end of the iteration.** -/
theorem gets_iteration (hbefore : Reached host past before)
    (hrun : runPhases host iteration.phases before = some after)
    (hpending : pending ∈ before.pendingStreamReads) :
    Tracked.Gets pending after (Lists after.database pending.requests) := by
  obtain ⟨htracked, hunanswered⟩ := tracked_of_mem hbefore hpending
  rcases iteration_cases hbefore hrun with hpasses | ⟨middle, htasked, hpasses⟩
  · exact htracked.gets_passes hpasses fun reply hreply heq =>
      absurd heq (hunanswered reply hreply)
  · have hmiddle := htracked.gets_tasked htasked fun reply hreply heq =>
      absurd heq (hunanswered reply hreply)
    exact (htracked.tasked htasked).gets_passes hpasses fun reply hreply heq =>
      .inl (hmiddle reply hreply heq)

end Runs

/-! ## Growth -/

/-- Streams grow, as long as nobody sets their key. -/
theorem History.grows {host : Host} {Timely : Clock → Prop} {key : Bytes}
    {before after : Database} {events : List Event} (h : History host Timely before events after)
    (hvalid : before.Valid) (hset : ∀ event ∈ events, event.overwrites host key = false) :
    ∃ added, after.streamAt key = before.streamAt key ++ added := by
  induction h with
  | done database => exact ⟨[], (List.append_nil _).symm⟩
  | looked _ purges _ ih =>
    rw [← streamAt_purges hvalid purges]
    exact ih (hvalid.purges purges) hset
  | @executed clock command response before middle after events _ change _ ih =>
    have hfirst : ∃ added, middle.streamAt key = before.streamAt key ++ added := by
      refine grows_change hvalid change fun heffective htarget hname => ?_
      have hevent := hset (.executed command response) (by simp)
      simp [Event.overwrites, heffective, htarget, hname] at hevent
    obtain ⟨added, hmiddle⟩ := hfirst
    obtain ⟨more, hafter⟩ := ih (hvalid.change (admits_all clock) change) fun event hevent =>
      hset event (by simp [hevent])
    exact ⟨added ++ more, by rw [hafter, hmiddle, List.append_assoc]⟩
  | @loaded clock other value expiry before after events _ _ ih =>
    have hne : key ≠ other := by
      rintro rfl
      have hevent := hset (.loaded key) (by simp)
      simp [Event.overwrites] at hevent
    have hkeep : Database.streamAt key (Database.set clock other value expiry before) =
        before.streamAt key := by
      rw [streamAt, Database.set, lookup_put, if_neg hne]
      rfl
    rw [← hkeep]
    exact ih (hvalid.set clock other value expiry) fun event hevent => hset event (by simp [hevent])

/-- Between the two states nobody set the key: there was no `SET` of it, and no file
with the key was loaded. -/
def NotOverwritten (host : Host) (key : Bytes) (before after : Processor) : Prop :=
  ∃ events, after.events = before.events ++ events ∧
    ∀ event ∈ events, event.overwrites host key = false

/-! ## What is new -/

section New

variable {before after : Database} {request : ReadRequest} {added : List StreamEntry}

theorem newEntries_append
    (hgrows : after.streamAt request.key = before.streamAt request.key ++ added) :
    after.newEntries request = before.newEntries request ++
      added.filter fun entry => decide (request.afterId < entry.id) := by
  rw [newEntries, hgrows, List.filter_append]
  rfl

theorem sorted_streamAt (hvalid : before.Valid) (key : Bytes) :
    (before.streamAt key).Pairwise fun first second => first.id < second.id := by
  unfold streamAt
  rcases hlookup : before.entries.lookup key with _ | ⟨_ | _ | entries, expiresAt⟩
  case some.stream => exact (hvalid.sound key _ hlookup).value.2.1
  all_goals exact List.Pairwise.nil

/-- **A `$` gets all that was added since**, if `0-0` is not among it. -/
theorem newEntries_since (hvalid : after.Valid) (hlatest : request.startMode = .latest)
    (hgrows : after.streamAt request.key = before.streamAt request.key ++ added) :
    after.newEntries (before.fixed request) = added ↔
      ∀ entry ∈ added, entry.id ≠ StreamId.zero := by
  have hkey : (before.fixed request).key = request.key := key_fixed request
  have hstart : (before.fixed request).afterId = lastId (before.streamAt request.key) := by
    rw [Database.fixed, ReadRequest.resolve, hlatest]
  have hsorted := sorted_streamAt hvalid request.key
  rw [hgrows] at hsorted
  obtain ⟨hold, -, hbetween⟩ := List.pairwise_append.mp hsorted
  constructor
  · rintro hall entry hentry
    rw [← hall] at hentry
    exact StreamId.ne_zero_of_lt (of_decide_eq_true (List.mem_filter.mp hentry).2)
  · intro hnonzero
    rw [← hkey] at hgrows
    rw [newEntries_append hgrows]
    -- Nothing that was there is behind the last identifier, and all that came is.
    have hnothing : before.newEntries (before.fixed request) = [] := by
      refine List.filter_eq_nil_iff.mpr fun entry hentry => ?_
      rw [decide_eq_true_eq, not_lt, hstart]
      exact le_lastId hold entry (hkey ▸ hentry)
    have hbehind : ∀ entry ∈ added, lastId (before.streamAt request.key) < entry.id := by
      intro entry hentry
      rcases List.eq_nil_or_concat' (before.streamAt request.key) with hnil | ⟨front, last, hlast⟩
      · rw [hnil]
        exact lt_of_le_of_ne (StreamId.zero_le _) (hnonzero entry hentry).symm
      · have hid : lastId (before.streamAt request.key) = last.id := by simp [hlast, lastId]
        rw [hid]
        exact hbetween last (by simp [hlast]) entry hentry
    rw [hnothing, List.nil_append, List.filter_eq_self]
    intro entry hentry
    rw [decide_eq_true_eq, hstart]
    exact hbehind entry hentry

end New

/-! ## The reply to an `XREAD` that runs -/

section Replies

open Processor

variable {host : Host} {readCommand : ReadCommand}

/-- The handler of the command table, which also `EXEC` calls. -/
theorem lists_dispatch {clock : Clock} {command : Command} (hname : nameOf command = some .xread)
    (hparse : parseXread command = .ok readCommand) {before after : Database}
    (hvalid : before.Valid) {response : Response}
    (h : dispatch host clock before command = some (response, after)) :
    Lists before (readCommand.requests.map before.fixed) response := by
  rw [dispatch_eq_plan] at h
  simp only [plan, hname, xreadPlan, hparse, Plan.execute] at h
  rcases hread : Database.readStreams clock readCommand.requests before with
    ⟨error | results, requests, database⟩
  · rw [hread] at h
    cases h
    exact .inl (bare_readStreamsError error)
  · obtain ⟨rfl, rfl, -⟩ := readStreams_listing hvalid hread
    rw [hread] at h
    cases h
    exact .inr rfl

theorem lists_processCommand {env : CommandEnv} {clientId : ClientId} {command : Command}
    {source : CommandSource} (hname : nameOf command = some .xread)
    (hparse : parseXread command = .ok readCommand) (hvalid : before.Valid) {response : Response}
    (h : before.processCommand host env clientId command source = some (response, after)) :
    Lists before.database (readCommand.requests.map before.database.fixed) response := by
  simp only [processCommand, ne_nil_of_nameOf hname, if_false, hname, queueOrRun] at h
  split at h
  · cases h
    exact .inl rfl
  · obtain ⟨⟨reply, database⟩, hdispatch, hafter⟩ := Option.map_eq_some_iff.mp h
    cases hafter
    exact lists_dispatch hname hparse hvalid hdispatch

/-- An `XREAD` is answered by its listing, without data, or later. -/
theorem lists_processTask {env : Env} {task : Task} (hname : nameOf task.command = some .xread)
    (hparse : parseXread task.command = .ok readCommand) {before after : Processor}
    (hvalid : before.Valid) (h : before.processTask host env task = some after) :
    ∃ answered, after.replies = before.replies ++ answered ∧ ∀ reply ∈ answered,
      Lists before.database (readCommand.requests.map before.database.fixed) reply.response := by
  have hone : ∀ {transaction : List Command} {response : Response},
      Lists before.database (readCommand.requests.map before.database.fixed) response →
        ∀ reply ∈ [(⟨task, transaction, response⟩ : Reply)],
          Lists before.database (readCommand.requests.map before.database.fixed)
            reply.response := by
    intro transaction response hlists reply hreply
    rw [List.mem_singleton.mp hreply]
    exact hlists
  cases processTask_cases h with
  | refused connections _ hnegative _ =>
    exact ⟨_, rfl, hone (.inl (Response.bare_of_negative hnegative))⟩
  | rejected _ => exact ⟨_, rfl, hone (.inl rfl)⟩
  | popped hblpop => exact absurd (hname.symm.trans hblpop) (by decide)
  | waited hwait => exact absurd (hname.symm.trans hwait) (by decide)
  | read _ houtcome _ =>
    cases houtcome with
    | refused hrefused => cases hparse.symm.trans hrefused
    | failed _ _ => exact ⟨_, rfl, hone (.inl (bare_readStreamsError _))⟩
    | found hfound hread =>
      cases hparse.symm.trans hfound
      obtain ⟨rfl, rfl, -⟩ := readStreams_listing hvalid hread
      exact ⟨_, rfl, hone (.inr rfl)⟩
    | nothing _ _ => exact ⟨_, rfl, hone (.inl rfl)⟩
    | waits _ _ _ => exact ⟨[], (List.append_nil _).symm, by simp⟩
  | @direct response middle _ hcommand =>
    obtain ⟨reply, hreply, hanswers⟩ := answers_direct hcommand
      (!before.hasTransaction task.clientId && isWriteCommand host task.command)
      (!responseIsError response) (before.transactionOf task)
    refine ⟨_, hanswers.replies, hone ?_⟩
    rcases hreply with rfl | hnegative
    · exact lists_processCommand hname hparse hvalid hcommand
    · exact .inl (Response.bare_of_negative hnegative)

end Replies

/-! ## From the registration to the reply -/

/-- The system clock is after the epoch; nothing else is assumed. -/
def Regime.afterEpoch : Regime where
  Timely := Clock.Positive
  Safe _ := True
  Ordered _ := True
  Kept _ := False
  Recovers := True

/-- What holds of a blocked read with these requests that joined the queue before
`registered`, went through the iterations `later` to `waited`, and through one more to
`final`. -/
structure Served (host : Host) (asked : List ReadRequest) (pending : PendingStreamRead)
    (later : List Iteration) (registered waited final : Processor) : Prop where
  /-- Every `$` is fixed to the last identifier there is. -/
  fixed : pending.requests = asked.map registered.database.fixed
  /-- The retries do not move it. -/
  unmoved : ∀ other ∈ waited.pendingStreamReads,
    other.task.promise = pending.task.promise → other = pending
  /-- As long as it waits, there is nothing to list. -/
  nothing : pending ∈ waited.pendingStreamReads → ∀ first rest middle, later = first ++ rest →
    runPhases host (first.flatMap Iteration.phases) registered = some middle →
      middle.database.listing pending.requests = []
  /-- A reply with data is the listing, and there is something to list. -/
  answer : pending ∈ waited.pendingStreamReads → ∀ reply ∈ final.replies,
    reply.task.promise = pending.task.promise → reply.response.bare = false →
      reply.response = makeXreadResponse (final.database.listing pending.requests) ∧
        final.database.listing pending.requests ≠ []
  /-- It does not wait any longer once there is something to list. -/
  left : pending ∈ final.pendingStreamReads → final.database.listing pending.requests = []
  /-- Of a key that was not set meanwhile, only what was added is listed, and for a `$`
  all of it, unless `0-0` was added. -/
  added : ∀ key, NotOverwritten host key registered final → ∃ added,
    final.database.streamAt key = registered.database.streamAt key ++ added ∧
    (∀ request ∈ pending.requests, request.key = key → final.database.newEntries request =
      added.filter fun entry => decide (request.afterId < entry.id)) ∧
    ∀ request ∈ asked, request.key = key → request.startMode = .latest →
      (final.database.newEntries (registered.database.fixed request) = added ↔
        ∀ entry ∈ added, entry.id ≠ StreamId.zero)

section Fate

open Processor

variable {host : Host}

theorem streams_grow_run {key : Bytes} (hbefore : Reached host past before)
    (hrun : runPhases host phases before = some after)
    (hset : NotOverwritten host key before after) :
    ∃ added, after.database.streamAt key = before.database.streamAt key ++ added := by
  obtain ⟨role, replicationId, defaultUser, rdbConfig, aofConfig, hpast⟩ := id hbefore
  obtain ⟨hholds, -⟩ := proceeds_run (fun phase _ => within_any phase) hpast
    (holds_start role replicationId defaultUser rdbConfig aofConfig)
  obtain ⟨-, deeds, hchronicle⟩ := proceeds_run (fun phase _ => within_any phase) hrun hholds
  obtain ⟨events, hevents, hkept⟩ := hset
  rw [hchronicle.events, List.append_cancel_left_eq] at hevents
  exact hchronicle.history.grows hbefore.valid (hevents ▸ hkept)

theorem newEntries_of_listing {database : Database} {requests : List ReadRequest}
    (hnothing : database.listing requests = []) :
    ∀ request ∈ requests, database.newEntries request = [] := by
  intro request hrequest
  have hnone := List.filterMap_eq_nil_iff.mp hnothing request hrequest
  by_contra hsome
  rw [if_neg hsome] at hnone
  cases hnone

/-- After the epoch no stream has the entry `0-0`. -/
theorem entry_ne_zero (hepoch : ∀ phase ∈ phases, phase.Within Regime.afterEpoch)
    (hreached : Reached host phases final) (key : Bytes) :
    ∀ entry ∈ final.database.streamAt key, entry.id ≠ StreamId.zero := by
  obtain ⟨role, replicationId, defaultUser, rdbConfig, aofConfig, hrun⟩ := hreached
  obtain ⟨-, deeds, hchronicle⟩ := proceeds_run hepoch hrun
    (holds_start role replicationId defaultUser rdbConfig aofConfig)
  have hinvariant : Invariant (· ≠ StreamId.zero) final.database :=
    hchronicle.history.invariant (fun clock hclock => admits_nonzero hclock) invariant_empty
  intro entry hentry
  unfold streamAt at hentry
  rcases hlookup : final.database.entries.lookup key with _ | ⟨_ | _ | entries, expiresAt⟩
  case some.stream =>
    rw [hlookup] at hentry
    exact (hinvariant.sound key _ hlookup).value.2.2 entry hentry
  all_goals
    rw [hlookup] at hentry
    cases hentry

theorem served_of_run {earlier later : List Iteration} {registering last : Iteration}
    {registered waited : Processor}
    (hbefore : Reached host (earlier.flatMap Iteration.phases) before)
    (hregistered : runPhases host registering.phases before = some registered)
    (hwaited : runPhases host (later.flatMap Iteration.phases) registered = some waited)
    (hfinal : runPhases host last.phases waited = some final)
    (hpending : pending ∈ registered.pendingStreamReads)
    (hnew : pending ∉ before.pendingStreamReads) :
    ∃ readCommand, parseXread pending.task.command = .ok readCommand ∧
      Served host readCommand.requests pending later registered waited final := by
  have hreached : Reached host ((earlier ++ [registering]).flatMap Iteration.phases)
      registered := by
    rw [List.flatMap_append, List.flatMap_singleton]
    exact hbefore.append hregistered
  have hmiddle : ∀ {first : List Iteration} {middle : Processor},
      runPhases host (first.flatMap Iteration.phases) registered = some middle →
        Reached host ((earlier ++ [registering] ++ first).flatMap Iteration.phases) middle := by
    intro first middle hfirst
    rw [List.flatMap_append]
    exact hreached.append hfirst
  have hlater : runPhases host ((later ++ [last]).flatMap Iteration.phases) registered =
      some final := by
    rw [List.flatMap_append, List.flatMap_singleton]
    exact Runs.run_append_eq_some.mpr ⟨waited, hwaited, hfinal⟩
  obtain ⟨readCommand, hparse, hrequests⟩ :=
    registers_iteration hbefore hregistered hpending hnew
  obtain ⟨htracked, -⟩ := tracked_of_mem hreached hpending
  have hempty : registered.database.listing pending.requests = [] :=
    listing_of_blocked ((settled_iterations hreached).reads pending hpending)
  refine ⟨readCommand, hparse, hrequests, (tracked_run hreached hwaited htracked).1.reads, ?_, ?_,
    ?_, ?_⟩
  · intro hwaits first rest middle hsplit hfirst
    -- Whoever waits at the end waited in the middle.
    rw [hsplit, List.flatMap_append] at hwaited
    obtain ⟨middle', hfirst', hrest⟩ := Runs.run_append_eq_some.mp hwaited
    obtain rfl : middle' = middle := Option.some.inj (hfirst'.symm.trans hfirst)
    obtain ⟨htracked', -⟩ := tracked_run hreached hfirst htracked
    have hmem := (tracked_run (hmiddle hfirst) hrest htracked').2 hwaits
    exact listing_of_blocked ((settled_iterations (hmiddle hfirst)).reads pending hmem)
  · intro hwaits reply hreply hpromise hdata
    rcases gets_iteration (hmiddle hwaited) hfinal hwaits reply hreply hpromise with
      hbare | hlists
    · rw [hbare] at hdata
      cases hdata
    · refine ⟨hlists, fun hnothing => ?_⟩
      rw [hlists, hnothing] at hdata
      cases hdata
  · exact fun hleft => listing_of_blocked
      ((settled_iterations (hmiddle hlater)).reads pending hleft)
  · intro key hkey
    obtain ⟨added, hadded⟩ := streams_grow_run hreached hlater hkey
    refine ⟨added, hadded, ?_, ?_⟩
    · rintro request hrequest rfl
      rw [newEntries_append hadded, newEntries_of_listing hempty request hrequest, List.nil_append]
    · rintro request - rfl hlatest
      exact newEntries_since (hmiddle hlater).valid hlatest hadded

end Fate

/-- **A read gets exactly what is new.**  In every reachable state, an `XREAD` that runs
directly or in the middle of an `EXEC` is answered by the listing for its requests, or
without data.  A read that joins the queue is served: its `$`s stay where they were
fixed, the reply is the listing after the first task that leaves something to list, and
of a key that nobody set meanwhile a `$` gets all that was added if and only if `0-0` is
not among it, which cannot be while the clock is after the epoch. -/
theorem xread_lists_what_is_new (host : Host) (role : ReplicationRole) (replicationId : Bytes)
    (defaultUser : User) (rdbConfig : RdbConfig) (aofConfig : AofConfig)
    (earlier later : List Iteration) (registering last : Iteration)
    {before registered waited final : Processor}
    (hbefore : Reaches host role replicationId defaultUser rdbConfig aofConfig
      (earlier.flatMap Iteration.phases) before)
    (hregistered : runPhases host registering.phases before = some registered)
    (hwaited : runPhases host (later.flatMap Iteration.phases) registered = some waited)
    (hfinal : runPhases host last.phases waited = some final) :
    (∀ database : Database, database.Valid → ∀ clock command readCommand response after,
      nameOf command = some .xread → parseXread command = .ok readCommand →
      dispatch host clock database command = some (response, after) →
        Lists database (readCommand.requests.map database.fixed) response) ∧
    before.Valid ∧
    (∀ env clientId words source replicationBytes readCommand after,
      nameOf words = some .xread → parseXread words = .ok readCommand →
      ProcessorTask.perform host env (.command clientId words source replicationBytes) before =
        some after →
      ∃ answered, after.replies = before.replies ++ answered ∧ ∀ reply ∈ answered,
        Lists before.database (readCommand.requests.map before.database.fixed)
          reply.response) ∧
    (∀ pending ∈ registered.pendingStreamReads, pending ∉ before.pendingStreamReads →
      ∃ readCommand, parseXread pending.task.command = .ok readCommand ∧
        Served host readCommand.requests pending later registered waited final) ∧
    ((∀ iteration ∈ earlier ++ registering :: later ++ [last], ∀ phase ∈ iteration.phases,
        phase.Within Regime.afterEpoch) →
      ∀ key, ∀ entry ∈ final.database.streamAt key, entry.id ≠ StreamId.zero) := by
  have hvalid : before.Valid := valid_run hbefore
  refine ⟨?_, hvalid, ?_, ?_, ?_⟩
  · intro database hvalid clock command readCommand response after hname hparse hdispatch
    exact lists_dispatch hname hparse hvalid hdispatch
  · intro env clientId words source replicationBytes readCommand after hname hparse hperform
    exact @lists_processTask host readCommand env
      ⟨before.nextPromise, clientId, words, source, replicationBytes⟩ hname hparse
      { before with nextPromise := before.nextPromise + 1 } after hvalid hperform
  · intro pending hpending hnew
    exact served_of_run ⟨_, _, _, _, _, hbefore⟩ hregistered hwaited hfinal hpending hnew
  · intro hepoch
    have hrun : Reaches host role replicationId defaultUser rdbConfig aofConfig
        ((earlier ++ registering :: later ++ [last]).flatMap Iteration.phases) final := by
      simp only [List.flatMap_append, List.flatMap_cons, List.flatMap_nil, List.append_nil]
      refine Runs.run_append_eq_some.mpr ⟨waited, ?_, hfinal⟩
      exact Runs.run_append_eq_some.mpr ⟨before, hbefore,
        Runs.run_append_eq_some.mpr ⟨registered, hregistered, hwaited⟩⟩
    refine entry_ne_zero (fun phase hphase => ?_) ⟨_, _, _, _, _, hrun⟩
    obtain ⟨iteration, hiteration, hmem⟩ := List.mem_flatMap.mp hphase
    exact hepoch iteration hiteration phase hmem

/-- A client waits for what comes to one stream and for what is above `5-0` in another.
The entry `3-0` does not wake it, and the next entry of the first stream is all it
gets. -/
theorem xread_lists_what_is_new_two_streams :
    let start := Processor.start .master [] (User.default none) {} {}
    let still (task : ProcessorTask) := Iteration.still ⟨1, 1⟩ task
    let earlier := [still (.registerClient 1 0), still (.registerClient 2 1),
      still (.ofClient 2 [ascii "XADD", ascii "s", ascii "1-1", ascii "f", ascii "v"])]
    let registering := still (.ofClient 1 [ascii "XREAD", ascii "BLOCK", ascii "0",
      ascii "STREAMS", ascii "s", ascii "t", ascii "$", ascii "5-0"])
    let later := [still (.ofClient 2 [ascii "XADD", ascii "t", ascii "3-0", ascii "f", ascii "v"])]
    let last := still (.ofClient 2 [ascii "XADD", ascii "s", ascii "*", ascii "f", ascii "w"])
    ∃ before registered waited final pending,
      runPhases Host.plain (earlier.flatMap Iteration.phases) start = some before ∧
      runPhases Host.plain registering.phases before = some registered ∧
      runPhases Host.plain (later.flatMap Iteration.phases) registered = some waited ∧
      runPhases Host.plain last.phases waited = some final ∧
      registered.pendingStreamReads = [pending] ∧ waited.pendingStreamReads = [pending] ∧
      pending.requests = [⟨ascii "s", .afterId, ⟨1, 1⟩⟩, ⟨ascii "t", .afterId, ⟨5, 0⟩⟩] ∧
      final.database.listing pending.requests =
        [⟨ascii "s", [⟨⟨1, 2⟩, [(ascii "f", ascii "w")]⟩]⟩] ∧
      ∃ reply ∈ final.replies, reply.response =
        makeXreadResponse (final.database.listing pending.requests) := by
  intro start still earlier registering later last
  let requests : List ReadRequest := [⟨ascii "s", .afterId, ⟨1, 1⟩⟩, ⟨ascii "t", .afterId, ⟨5, 0⟩⟩]
  have hsome : ∃ before, runPhases Host.plain (earlier.flatMap Iteration.phases) start =
      some before ∧ before.pendingStreamReads = [] ∧
      ∃ registered, runPhases Host.plain registering.phases before = some registered ∧
      ∃ waited, runPhases Host.plain (later.flatMap Iteration.phases) registered = some waited ∧
      ∃ final, runPhases Host.plain last.phases waited = some final ∧
      ∃ pending, pending ∈ registered.pendingStreamReads ∧
        registered.pendingStreamReads = [pending] ∧ waited.pendingStreamReads = [pending] ∧
        pending.requests = requests ∧
        final.database.listing requests =
          [⟨ascii "s", [⟨⟨1, 2⟩, [(ascii "f", ascii "w")]⟩]⟩] ∧
        ∃ reply, reply ∈ final.replies ∧
          reply.task.promise = pending.task.promise ∧ reply.response.bare = false := by
    decide +kernel
  obtain ⟨before, hbefore, hempty, registered, hregistered, waited, hwaited, final, hfinal,
    pending, hpending, honly, hstill, hrequests, hlisting, reply, hmem, hpromise, hdata⟩ := hsome
  have hnew : pending ∉ before.pendingStreamReads := by
    rw [hempty]
    exact List.not_mem_nil
  obtain ⟨-, -, -, hserved, -⟩ := xread_lists_what_is_new Host.plain .master [] (User.default none)
    {} {} earlier later registering last hbefore hregistered hwaited hfinal
  obtain ⟨readCommand, -, hserved⟩ := hserved pending hpending hnew
  refine ⟨before, registered, waited, final, pending, hbefore, hregistered, hwaited, hfinal, honly,
    hstill, hrequests, by rw [hrequests]; exact hlisting, reply, hmem, ?_⟩
  exact (hserved.answer (by simp [hstill]) reply hmem hpromise hdata).1

/-- The clock shows the epoch: a client waits for what comes to an absent stream, and is
not told of the entry `0-0`, neither when it is added nor together with the next one. -/
theorem xread_skips_first_entry :
    let start := Processor.start .master [] (User.default none) {} {}
    let run (clock : Clock) (task : ProcessorTask) := (Iteration.still clock task).phases
    let add : Command := [ascii "XADD", ascii "s", ascii "*", ascii "f", ascii "v"]
    let phases := run ⟨0, 0⟩ (.registerClient 1 0) ++ run ⟨0, 0⟩ (.registerClient 2 1) ++
      run ⟨0, 0⟩ (.ofClient 1 [ascii "XREAD", ascii "BLOCK", ascii "0", ascii "STREAMS",
        ascii "s", ascii "$"]) ++
      run ⟨0, 0⟩ (.ofClient 2 add) ++ run ⟨1, 1⟩ (.ofClient 2 add)
    ∃ final, runPhases Host.plain phases start = some final ∧
      (final.database.streamAt (ascii "s")).map StreamEntry.id = [⟨0, 0⟩, ⟨1, 0⟩] ∧
      final.replies.map (fun reply => (reply.task.promise, serializeResponse reply.response)) =
        [(1, serializeResponse (.bulkString (ascii "0-0"))),
          (2, serializeResponse (.bulkString (ascii "1-0"))),
          (0, serializeResponse (makeXreadResponse
            [⟨ascii "s", [⟨⟨1, 0⟩, [(ascii "f", ascii "v")]⟩]⟩]))] := by
  decide +kernel

end RedisServer
