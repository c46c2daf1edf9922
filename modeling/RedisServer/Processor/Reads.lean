import RedisServer.Commands.Streams
import RedisServer.Processor.Conservation
import RedisServer.Processor.Fixpoint
import RedisServer.Processor.Promises

/-!
# A read gets exactly what is new

A blocked `XREAD` is put into its queue with every `$` fixed, and from then on the
record is only copied.  Between two tasks no stream changes (`Passes`), so whichever
pass answers the read, it answers with the listing at the end of the task.  A task
answers only its own command with data (`Tasked`).  Since streams grow at their end,
the listing of a `$` is what was added since.
-/

namespace RedisServer

open Resp KeyedStore Commands Aof Database

variable {before after processor : Processor} {host : Host} {env : Env}

/-- Every starting point in the queue of reads is fixed. -/
def Processor.Fixed (processor : Processor) : Prop :=
  ∀ pending ∈ processor.pendingStreamReads, ∀ request ∈ pending.requests,
    request.startMode = .afterId

/-- The response carries no data, or it is the listing for the requests. -/
def Lists (database : Database) (requests : List ReadRequest) (response : Response) : Prop :=
  response.bare = true ∨ response = makeXreadResponse (database.listing requests)

theorem bare_readStreamsError (error : Database.Error) : (readStreamsError error).bare = true := by
  cases error <;> rfl

/-- The reply is for a command that waited; if that is a read, it gets its listing. -/
def AnswersWaiter (database : Database) (processor : Processor) (reply : Reply) : Prop :=
  reply.task ∈ processor.pendingListPops.map PendingListPop.task ∨
    reply.task ∈ processor.pendingWaits.map PendingWait.task ∨
    ∃ pending ∈ processor.pendingStreamReads, reply.task = pending.task ∧
      Lists database pending.requests reply.response

/-- A step between two tasks: the streams stay as they are, the queues shrink, and the
new replies are for those who waited. -/
structure Passes (before after : Processor) : Prop where
  streams : ∀ key, after.database.streamAt key = before.database.streamAt key
  pops : after.pendingListPops.map PendingListPop.task ⊆
    before.pendingListPops.map PendingListPop.task
  reads : after.pendingStreamReads ⊆ before.pendingStreamReads
  waits : after.pendingWaits.map PendingWait.task ⊆ before.pendingWaits.map PendingWait.task
  nextPromise : after.nextPromise = before.nextPromise
  replies : ∀ reply ∈ after.replies, reply ∈ before.replies ∨
    AnswersWaiter after.database before reply

/-- A read was put into its queue, with the starting points of its command fixed to
the streams there are. -/
structure Registers (before after : Processor) (pending : PendingStreamRead) : Prop where
  requests : ∃ readCommand, parseXread pending.task.command = .ok readCommand ∧
    pending.requests = readCommand.requests.map before.database.fixed
  streams : ∀ key, after.database.streamAt key = before.database.streamAt key

/-- What a task does for those who wait: it joins at most its own command to a queue,
and answers nobody else with data. -/
structure Tasked (before after : Processor) : Prop where
  pops : ∀ task ∈ after.pendingListPops.map PendingListPop.task,
    task ∈ before.pendingListPops.map PendingListPop.task ∨ task.promise = before.nextPromise
  reads : ∀ pending ∈ after.pendingStreamReads,
    pending ∈ before.pendingStreamReads ∨
      pending.task.promise = before.nextPromise ∧ Registers before after pending
  waits : ∀ task ∈ after.pendingWaits.map PendingWait.task,
    task ∈ before.pendingWaits.map PendingWait.task ∨ task.promise = before.nextPromise
  nextPromise : before.nextPromise ≤ after.nextPromise
  replies : ∀ reply ∈ after.replies, reply ∈ before.replies ∨
    reply.task.promise = before.nextPromise ∨ reply.response.bare = true

namespace Passes

theorem refl (processor : Processor) : Passes processor processor where
  streams _ := rfl
  pops _ h := h
  reads _ h := h
  waits _ h := h
  nextPromise := rfl
  replies _ h := .inl h

theorem trans {first second third : Processor} (h₁ : Passes first second)
    (h₂ : Passes second third) : Passes first third where
  streams key := (h₂.streams key).trans (h₁.streams key)
  pops := fun _ h => h₁.pops (h₂.pops h)
  reads := fun _ h => h₁.reads (h₂.reads h)
  waits := fun _ h => h₁.waits (h₂.waits h)
  nextPromise := h₂.nextPromise.trans h₁.nextPromise
  replies := by
    intro reply hreply
    rcases h₂.replies reply hreply with hsecond | hpop | hwait | ⟨pending, hpending, hanswer⟩
    · rcases h₁.replies reply hsecond with hfirst | hpop | hwait | ⟨pending, hpending, hanswer⟩
      · exact .inl hfirst
      · exact .inr (.inl hpop)
      · exact .inr (.inr (.inl hwait))
      · refine .inr (.inr (.inr ⟨pending, hpending, ?_⟩))
        rwa [Lists, listing_congr h₂.streams]
    · exact .inr (.inl (h₁.pops hpop))
    · exact .inr (.inr (.inl (h₁.waits hwait)))
    · exact .inr (.inr (.inr ⟨pending, h₁.reads hpending, hanswer⟩))

theorem fixed (h : Passes before after) (hfixed : before.Fixed) : after.Fixed :=
  fun pending hpending => hfixed pending (h.reads hpending)

end Passes

namespace Processor

/-! ## The passes -/

/-- A pass over another queue. -/
theorem passes_of_settles {visited : List Task} {answered : List Reply}
    (hsettles : Settles visited answered before after)
    (hvisited : ∀ task ∈ visited, task ∈ before.pendingListPops.map PendingListPop.task ∨
      task ∈ before.pendingWaits.map PendingWait.task)
    (hreads : after.pendingStreamReads ⊆ before.pendingStreamReads)
    (hstreams : ∀ key, after.database.streamAt key = before.database.streamAt key) :
    Passes before after where
  streams := hstreams
  pops := (hsettles.pops.map _).subset
  reads := hreads
  waits := (hsettles.waits.map _).subset
  nextPromise := hsettles.nextPromise
  replies reply hreply := by
    rw [hsettles.replies] at hreply
    rcases List.mem_append.mp hreply with hold | hnew
    · exact .inl hold
    · rcases hvisited _ (hsettles.visited reply hnew) with hpop | hwait
      · exact .inr (.inl hpop)
      · exact .inr (.inr (.inl hwait))

/-- One visit of a pass over the reads: the read stays as it is, or it is answered. -/
inductive ReadVisit (pending : PendingStreamRead) (before : Processor) :
    Option PendingStreamRead × Processor → Prop
  | kept {after : Processor} (hanswers : Answers [] before after) :
      ReadVisit pending before (some pending, after)
  | answered {response : Response} {after : Processor}
      (hanswers : Answers [⟨pending.task, [], response⟩] before after)
      (hlists : Lists before.database pending.requests response) :
      ReadVisit pending before (none, after)

/-- Trying again moves no starting point. -/
theorem ReadRetry.readVisit {clock : Clock} {pending : PendingStreamRead}
    {outcome : Option PendingStreamRead × Processor} (h : ReadRetry clock pending processor outcome)
    (hfixed : ∀ request ∈ pending.requests, request.startMode = .afterId)
    (hvalid : processor.Valid) : ReadVisit pending processor outcome := by
  have hsame : pending.requests.map processor.database.fixed = pending.requests := by
    rw [List.map_congr_left fun request hrequest =>
      fixed_of_afterId (hfixed request hrequest), List.map_id']
  cases h with
  | failed _ => exact .answered ⟨rfl, rfl, rfl, rfl, rfl⟩ (.inl (bare_readStreamsError _))
  | found hread =>
    obtain ⟨rfl, rfl, -⟩ := readStreams_listing hvalid hread
    exact .answered ⟨rfl, rfl, rfl, rfl, rfl⟩ (.inr (by rw [hsame]))
  | kept hread =>
    obtain ⟨rfl, -, -⟩ := readStreams_listing hvalid hread
    rw [hsame]
    exact .kept (.nobody rfl rfl rfl rfl rfl)

/-- In the middle of a pass over the reads of a state. -/
structure Underway (origin : Processor) (kept rest : List PendingStreamRead)
    (state : Processor) : Prop where
  valid : state.Valid
  streams : ∀ key, state.database.streamAt key = origin.database.streamAt key
  kept : kept ⊆ origin.pendingStreamReads
  rest : rest ⊆ origin.pendingStreamReads
  pops : state.pendingListPops = origin.pendingListPops
  waits : state.pendingWaits = origin.pendingWaits
  nextPromise : state.nextPromise = origin.nextPromise
  replies : ∀ reply ∈ state.replies, reply ∈ origin.replies ∨
    ∃ pending ∈ origin.pendingStreamReads, reply.task = pending.task ∧
      Lists origin.database pending.requests reply.response

theorem Underway.visit {origin state : Processor} {kept rest : List PendingStreamRead}
    {pending : PendingStreamRead} {outcome : Option PendingStreamRead × Processor}
    (h : Underway origin kept (pending :: rest) state) (hvisit : ReadVisit pending state outcome)
    (hvalid : outcome.2.Valid)
    (hstreams : ∀ key, outcome.2.database.streamAt key = state.database.streamAt key) :
    Underway origin (kept ++ outcome.1.toList) rest outcome.2 := by
  have hmem : pending ∈ origin.pendingStreamReads := h.rest (by simp)
  have hrest : rest ⊆ origin.pendingStreamReads := fun other hother => h.rest (by simp [hother])
  have hthrough := fun key => (hstreams key).trans (h.streams key)
  cases hvisit with
  | kept hanswers =>
    refine ⟨hvalid, hthrough, ?_, hrest, hanswers.pops.trans h.pops, hanswers.waits.trans h.waits,
      hanswers.nextPromise.trans h.nextPromise, ?_⟩
    · exact List.append_subset.mpr ⟨h.kept, by simpa using hmem⟩
    · rw [hanswers.replies, List.append_nil]
      exact h.replies
  | answered hanswers hlists =>
    refine ⟨hvalid, hthrough, ?_, hrest, hanswers.pops.trans h.pops, hanswers.waits.trans h.waits,
      hanswers.nextPromise.trans h.nextPromise, ?_⟩
    · simpa using h.kept
    · intro reply hreply
      rw [hanswers.replies] at hreply
      rcases List.mem_append.mp hreply with hold | hnew
      · exact h.replies reply hold
      · rw [List.mem_singleton.mp hnew]
        rw [Lists, listing_congr h.streams] at hlists
        exact .inr ⟨pending, hmem, rfl, hlists⟩

theorem passes_reads {Input : Type}
    {visit : Input → PendingStreamRead → Processor → Option PendingStreamRead × Processor}
    (inputs : Stream' Input) (hvalid : processor.Valid)
    (hvisit : ∀ input, ∀ pending ∈ processor.pendingStreamReads, ∀ state : Processor, state.Valid →
      ReadVisit pending state (visit input pending state) ∧ (visit input pending state).2.Valid ∧
        ∀ key, (visit input pending state).2.database.streamAt key =
          state.database.streamAt key) :
    Passes processor
      { (Scan.scan visit inputs processor.pendingStreamReads processor).2 with
        pendingStreamReads :=
          (Scan.scan visit inputs processor.pendingStreamReads processor).1 } := by
  have hstart : Underway processor [] processor.pendingStreamReads processor :=
    ⟨hvalid, fun _ => rfl, List.nil_subset _, List.Subset.refl _, rfl, rfl, rfl,
      fun _ hreply => .inl hreply⟩
  have hend := Scan.scan_split (fun input pending kept rest state hstate => by
    obtain ⟨houtcome, hvalid', hstreams⟩ :=
      hvisit input pending (hstate.rest (by simp)) state hstate.valid
    exact hstate.visit houtcome hvalid' hstreams) inputs hstart
  rw [List.nil_append] at hend
  refine ⟨hend.streams, ?_, hend.kept, ?_, hend.nextPromise, fun reply hreply => ?_⟩
  · exact hend.pops ▸ List.Subset.refl _
  · exact hend.waits ▸ List.Subset.refl _
  · rcases hend.replies reply hreply with hold | ⟨pending, hpending, htask, hlists⟩
    · exact .inl hold
    · refine .inr (.inr (.inr ⟨pending, hpending, htask, ?_⟩))
      rwa [Lists, listing_congr hend.streams]

theorem streams_retryPendingListPops (inputs : Stream' (Clock × Disk)) (hvalid : processor.Valid)
    (key : Bytes) :
    (Scan.scan retryListPop inputs processor.pendingListPops processor).2.database.streamAt key =
      processor.database.streamAt key := by
  have hscan : (Scan.scan retryListPop inputs processor.pendingListPops processor).2.Valid ∧
      (Scan.scan retryListPop inputs processor.pendingListPops
        processor).2.database.streamAt key = processor.database.streamAt key := by
    refine @Scan.scan_invariant _ _ _ _ (fun state => state.Valid ∧
      state.database.streamAt key = processor.database.streamAt key) ?_ inputs _ processor
      ⟨hvalid, rfl⟩
    rintro input pending state ⟨hstate, hsame⟩
    unfold Valid
    rw [database_retryListPop]
    exact ⟨Invariant.popListElement hstate _ _,
      (streamAt_popListElement hstate pending.key).trans hsame⟩
  exact hscan.2

/-- **Between two tasks no stream changes, and a read that is answered with data gets
its listing.** -/
theorem passes_perform {phase : Phase} (hphase : ∀ env work, phase ≠ .task env work)
    (hvalid : before.Valid) (hfixed : before.Fixed) (h : phase.perform host before = some after) :
    after.Valid ∧ Passes before after := by
  have hsubmits : phase.submits = none := by
    cases phase with
    | task env work => exact absurd rfl (hphase env work)
    | _ => rfl
  obtain ⟨answered, hsettles⟩ := settles_perform hsubmits h
  -- Most phases leave the database alone.
  have hcalm : Steady before after → (∀ task ∈ phase.visits before,
      task ∈ before.pendingListPops.map PendingListPop.task ∨
        task ∈ before.pendingWaits.map PendingWait.task) → after.Valid ∧ Passes before after :=
    fun hsteady hvisits => ⟨hvalid.steady hsteady, passes_of_settles hsettles hvisits hsteady.reads
      fun key => congrArg (streamAt key) hsteady.database⟩
  cases phase with
  | task env work => exact absurd rfl (hphase env work)
  | retryListPops inputs =>
    cases h
    obtain ⟨_, hanswers, -⟩ := answers_scan visited_retryListPop inputs before.pendingListPops
      before
    exact ⟨valid_retryPendingListPops inputs hvalid, passes_of_settles hsettles (fun _ => .inl)
      (fun _ hpending => hanswers.reads ▸ hpending) (streams_retryPendingListPops inputs hvalid)⟩
  | retryStreamReads clocks =>
    cases h
    refine ⟨valid_retryPendingStreamReads clocks hvalid, passes_reads clocks hvalid ?_⟩
    intro clock pending hpending state hstate
    have hpurges := purges_retryStreamRead clock pending state
    exact ⟨(retryStreamRead_cases clock pending state).readVisit (hfixed pending hpending) hstate,
      Invariant.purges hstate hpurges, fun key => streamAt_purges hstate hpurges⟩
  | retryWaits =>
    cases h
    exact hcalm (steady_retryPendingWaits before) fun _ => .inr
  | expireListPops now =>
    cases h
    exact hcalm (steady_expirePendingListPops now before) fun _ => .inl
  | expireStreamReads now =>
    cases h
    refine ⟨hvalid.steady (steady_expirePendingStreamReads now before),
      passes_reads _ hvalid ?_⟩
    intro input pending _ state hstate
    have hsteady := steady_expireIn PendingStreamRead.task PendingStreamRead.deadline now input
      pending state
    refine ⟨?_, hstate.steady hsteady, fun key => congrArg (streamAt key) hsteady.database⟩
    unfold expireIn
    split
    · exact .answered ⟨rfl, rfl, rfl, rfl, rfl⟩ (.inl rfl)
    · exact .kept (.refl _)
  | expireWaits now =>
    cases h
    exact hcalm (steady_expirePendingWaits now before) fun _ => .inr
  | external event =>
    cases h
    exact hcalm (steady_external event before) (by simp [Phase.visits])

theorem passes_run {phases : List Phase}
    (hphases : ∀ phase ∈ phases, ∀ env work, phase ≠ .task env work) (hvalid : before.Valid)
    (hfixed : before.Fixed) (h : runPhases host phases before = some after) :
    Passes before after := by
  have hrun := Runs.run_relation Passes.refl (fun _ _ _ h₁ h₂ => h₁.trans h₂)
    (fun phase state next hphase (hstate : state.Valid ∧ state.Fixed) hstep => by
      obtain ⟨hnext, hpasses⟩ := passes_perform hphase hstate.1 hstate.2 hstep
      exact ⟨⟨hnext, hpasses.fixed hstate.2⟩, hpasses⟩) hphases ⟨hvalid, hfixed⟩ h
  exact hrun.2

/-! ## A task -/

/-- Only an `XREAD` joins the queue of reads, and it joins with its starting points
fixed. -/
theorem reads_processTask {task : Task} (hvalid : before.Valid)
    (h : before.processTask host env task = some after) :
    ∀ pending ∈ after.pendingStreamReads, pending ∈ before.pendingStreamReads ∨
      pending.task = task ∧ Registers before after pending := by
  cases taskEnd_processTask h with
  | answered hanswers _ => exact fun _ hpending => .inl (hanswers.reads ▸ hpending)
  | pops _ _ _ | waits _ _ _ _ => exact fun _ => .inl
  | @reads readCommand _ _ _ _ hparse hread _ =>
    obtain ⟨rfl, -, hpurges⟩ := readStreams_listing hvalid hread
    intro pending hpending
    rcases List.mem_append.mp hpending with hold | hnew
    · exact .inl hold
    · rw [List.mem_singleton.mp hnew]
      exact .inr ⟨rfl, ⟨readCommand, hparse, rfl⟩, fun key => streamAt_purges hvalid hpurges⟩

/-- A task that submits no command. -/
theorem tasked_of_settles {visited : List Task} {answered : List Reply}
    (hsettles : Settles visited answered before after)
    (hreads : after.pendingStreamReads ⊆ before.pendingStreamReads)
    (hbare : ∀ reply ∈ answered, reply.response.bare = true) : Tasked before after where
  pops _ htask := .inl ((hsettles.pops.map _).subset htask)
  reads _ hpending := .inl (hreads hpending)
  waits _ htask := .inl ((hsettles.waits.map _).subset htask)
  nextPromise := hsettles.nextPromise.ge
  replies reply hreply := by
    rw [hsettles.replies] at hreply
    exact (List.mem_append.mp hreply).imp_right fun hnew => .inr (hbare reply hnew)

theorem tasked_command {clientId : ClientId} {words : Command} {source : CommandSource}
    {replicationBytes : ℕ} (hvalid : before.Valid)
    (h : ProcessorTask.perform host env (.command clientId words source replicationBytes) before =
      some after) : Tasked before after := by
  have hreads := reads_processTask (show Processor.Valid
    { before with nextPromise := before.nextPromise + 1 } from hvalid) h
  have hend := taskEnd_processTask h
  have hregisters : ∀ pending ∈ after.pendingStreamReads, pending ∈ before.pendingStreamReads ∨
      pending.task.promise = before.nextPromise ∧ Registers before after pending := by
    intro pending hpending
    rcases hreads pending hpending with hold | ⟨htask, hrequests, hstreams⟩
    · exact .inl hold
    · exact .inr ⟨by rw [htask], hrequests, hstreams⟩
  have hnext : after.nextPromise = before.nextPromise + 1 := (answered_of_taskEnd hend).2
  obtain ⟨hpops, hwaits, hreplies⟩ := joins_of_taskEnd hend
  exact {
    pops := fun task htask => (hpops task htask).imp_right fun heq => congrArg Task.promise heq
    reads := hregisters
    waits := fun task htask => (hwaits task htask).imp_right fun heq => congrArg Task.promise heq
    nextPromise := hnext ▸ Nat.le_succ _
    replies := fun reply hreply => (hreplies reply hreply).imp_right fun heq =>
      .inl (congrArg Task.promise heq) }

/-- **A task answers nobody but its own command with data.** -/
theorem tasked_perform {work : ProcessorTask} (hvalid : before.Valid)
    (h : work.perform host env before = some after) : Tasked before after := by
  cases work with
  | command clientId words source replicationBytes => exact tasked_command hvalid h
  | initializeAof file commands =>
    obtain ⟨⟨result, after'⟩, hinit, rfl⟩ := Option.map_eq_some_iff.mp h
    have hanswers := answers_processAofInitialization hinit
    exact tasked_of_settles (.of_answers hanswers) (fun _ hpending => hanswers.reads ▸ hpending)
      (by simp)
  | unregisterClient clientId =>
    cases h
    refine tasked_of_settles (settles_unregistration clientId before) (fun pending hpending => ?_)
      fun reply hreply => ?_
    · rw [processClientUnregistration, cancelPendingCommands_eq] at hpending
      exact List.mem_of_mem_filter hpending
    · obtain ⟨task, -, rfl⟩ := List.mem_map.mp hreply
      rfl
  | _ =>
    cases h
    exact tasked_of_settles (.of_answers (.nobody rfl rfl rfl rfl rfl)) (fun _ h => h) (by simp)

end Processor

/-! ## A read on its way through a run -/

/-- Nobody else has the promise of this read, and its record is as it was. -/
structure Tracked (pending : PendingStreamRead) (processor : Processor) : Prop where
  known : pending.task.promise < processor.nextPromise
  pops : ∀ task ∈ processor.pendingListPops.map PendingListPop.task,
    task.promise ≠ pending.task.promise
  reads : ∀ other ∈ processor.pendingStreamReads,
    other.task.promise = pending.task.promise → other = pending
  waits : ∀ task ∈ processor.pendingWaits.map PendingWait.task,
    task.promise ≠ pending.task.promise

namespace Tracked

variable {pending : PendingStreamRead} {before after : Processor}

theorem passes (h : Tracked pending before) (hpasses : Passes before after) :
    Tracked pending after where
  known := hpasses.nextPromise ▸ h.known
  pops task htask := h.pops task (hpasses.pops htask)
  reads other hother := h.reads other (hpasses.reads hother)
  waits task htask := h.waits task (hpasses.waits htask)

theorem tasked (h : Tracked pending before) (htasked : Tasked before after) :
    Tracked pending after where
  known := lt_of_lt_of_le h.known htasked.nextPromise
  pops task htask heq := by
    rcases htasked.pops task htask with hold | hnew
    · exact h.pops task hold heq
    · exact h.known.ne (heq.symm.trans hnew)
  reads other hother heq := by
    rcases htasked.reads other hother with hold | ⟨hnew, -⟩
    · exact h.reads other hold heq
    · exact absurd (heq.symm.trans hnew) h.known.ne
  waits task htask heq := by
    rcases htasked.waits task htask with hold | hnew
    · exact h.waits task hold heq
    · exact h.known.ne (heq.symm.trans hnew)

/-- What the read was answered with, if it was. -/
def Gets (pending : PendingStreamRead) (processor : Processor) (Good : Response → Prop) : Prop :=
  ∀ reply ∈ processor.replies, reply.task.promise = pending.task.promise → Good reply.response

/-- Whichever pass answers the read, it gets its listing. -/
theorem gets_passes (h : Tracked pending before) (hpasses : Passes before after)
    (hgets : Gets pending before (Lists before.database pending.requests)) :
    Gets pending after (Lists after.database pending.requests) := by
  intro reply hreply hpromise
  rcases hpasses.replies reply hreply with hold | hpop | hwait | ⟨other, hother, htask, hlists⟩
  · rw [Lists, listing_congr hpasses.streams]
    exact hgets reply hold hpromise
  · exact absurd hpromise (h.pops _ hpop)
  · exact absurd hpromise (h.waits _ hwait)
  · rwa [h.reads other hother (by rw [← htask, hpromise])] at hlists

/-- A task of somebody else does not answer the read with data. -/
theorem gets_tasked (h : Tracked pending before) (htasked : Tasked before after)
    (hgets : Gets pending before fun response => response.bare = true) :
    Gets pending after fun response => response.bare = true := by
  intro reply hreply hpromise
  rcases htasked.replies reply hreply with hold | hown | hbare
  · exact hgets reply hold hpromise
  · exact absurd (hpromise.symm.trans hown) h.known.ne
  · exact hbare

end Tracked

end RedisServer
