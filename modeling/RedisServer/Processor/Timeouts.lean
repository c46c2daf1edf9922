import RedisServer.Database.Deadlines
import RedisServer.Processor.WaitAnswers
import RedisServer.Processor.Reads

/-!
# Timeouts of blocked commands

A blocked `XREAD` or `WAIT` is a record with a promise and a deadline, its `timer`.  The
deadline is computed when the command joins its queue; from then on the timer is only
copied (`timers_perform`), until an expiry pass finds it over.  So everything hangs on
the sum that was stored, and the sum is in 64-bit nanoseconds while the timeout is in
milliseconds of the same width.
-/

namespace RedisServer

open Resp KeyedStore Commands Aof Database

variable {processor before after : Processor} {now : Int} {host : Host} {deadline : Option Int}
  {promise : ℕ}

/-! ## Timers -/

def PendingStreamRead.timer (pending : PendingStreamRead) : ℕ × Option Int :=
  (pending.task.promise, pending.deadline)

def PendingWait.timer (pending : PendingWait) : ℕ × Option Int :=
  (pending.task.promise, pending.deadline)

/-- The promises and deadlines of the blocked reads and waits. -/
def Processor.timers (processor : Processor) : List (ℕ × Option Int) :=
  processor.pendingStreamReads.map PendingStreamRead.timer ++
    processor.pendingWaits.map PendingWait.timer

/-- The timeout in milliseconds that the parser of a blocking command accepts. -/
def timeoutOf (command : Command) : Option Int :=
  match nameOf command with
  | some .xread =>
    match parseXread command with
    | .ok ⟨_, .blockWithTimeout timeout⟩ => some timeout
    | _ => none
  | some .wait =>
    match Processor.parseWaitRequest command with
    | .ok request => request.timeout
    | .error _ => none
  | _ => none

namespace Processor

theorem mem_timers {timer : ℕ × Option Int} :
    timer ∈ processor.timers ↔
      (∃ pending ∈ processor.pendingStreamReads, pending.timer = timer) ∨
        ∃ pending ∈ processor.pendingWaits, pending.timer = timer := by
  simp only [timers, List.mem_append, List.mem_map]

theorem timers_of_answers {answered : List Reply} (h : Answers answered before after) :
    after.timers = before.timers := by
  rw [timers, timers, h.reads, h.waits]

/-- A phase that submits no command copies timers. -/
theorem timers_of_settles {visited : List Task} {answered : List Reply}
    (h : Settles visited answered before after) : after.timers ⊆ before.timers := by
  intro timer htimer
  rcases mem_timers.mp htimer with ⟨pending, hpending, rfl⟩ | ⟨pending, hpending, rfl⟩
  · obtain ⟨origin, horigin, htask, hdeadline⟩ := h.reads pending hpending
    refine mem_timers.mpr (.inl ⟨origin, horigin, ?_⟩)
    simp only [PendingStreamRead.timer, htask, hdeadline]
  · exact mem_timers.mpr (.inr ⟨pending, h.waits.subset hpending, rfl⟩)

/-! ## One step -/

theorem timers_joinReads {pending : PendingStreamRead} {timer : ℕ × Option Int}
    (htimer : pending.timer = timer)
    (hreads : after.pendingStreamReads = before.pendingStreamReads ++ [pending])
    (hwaits : after.pendingWaits = before.pendingWaits) :
    ∀ other ∈ after.timers, other ∈ before.timers ∨ other = timer := by
  intro other hother
  simp only [timers, hreads, hwaits, List.map_append, List.mem_append, List.map_cons,
    List.map_nil, List.mem_singleton, htimer] at hother ⊢
  tauto

theorem timers_joinWaits {pending : PendingWait} {timer : ℕ × Option Int}
    (htimer : pending.timer = timer) (hreads : after.pendingStreamReads = before.pendingStreamReads)
    (hwaits : after.pendingWaits = before.pendingWaits ++ [pending]) :
    ∀ other ∈ after.timers, other ∈ before.timers ∨ other = timer := by
  intro other hother
  simp only [timers, hreads, hwaits, List.map_append, List.mem_append, List.map_cons,
    List.map_nil, List.mem_singleton, htimer] at hother ⊢
  tauto

/-- Only an `XREAD` or a `WAIT` starts a timer, with the sum of the time and its own
timeout. -/
theorem timers_processTask {env : Env} {task : Task}
    (h : before.processTask host env task = some after) :
    ∀ timer ∈ after.timers, timer ∈ before.timers ∨
      timer = (task.promise, (timeoutOf task.command).map (deadlineAfter env.now)) := by
  cases taskEnd_processTask h with
  | answered hanswers _ => exact fun timer htimer => .inl (timers_of_answers hanswers ▸ htimer)
  | pops _ _ _ => exact fun _ => .inl
  | @reads readCommand _ _ _ hname hparse _ hdeadline =>
    obtain ⟨requests, mode⟩ := readCommand
    refine timers_joinReads ?_ rfl rfl
    rcases hdeadline with ⟨rfl, rfl⟩ | ⟨timeout, rfl, rfl⟩ <;>
      simp [PendingStreamRead.timer, timeoutOf, hname, hparse]
  | waits _ hname hrequest _ =>
    refine timers_joinWaits ?_ rfl rfl
    simp [PendingWait.timer, timeoutOf, hname, hrequest]

/-- A phase copies timers, and at most starts one for the command it submits. -/
theorem timers_perform {phase : Phase} (h : phase.perform host before = some after) :
    before.nextPromise ≤ after.nextPromise ∧
      ∀ timer ∈ after.timers, timer ∈ before.timers ∨
        timer.1 = before.nextPromise ∧ before.nextPromise < after.nextPromise := by
  cases hsubmits : phase.submits with
  | none =>
    obtain ⟨answered, hsettles⟩ := settles_perform hsubmits h
    exact ⟨hsettles.nextPromise.ge, fun timer htimer => .inl (timers_of_settles hsettles htimer)⟩
  | some submit =>
    unfold Phase.submits at hsubmits
    split at hsubmits
    · obtain ⟨-, hnext⟩ := answered_of_taskEnd (taskEnd_processTask h)
      have hlt : before.nextPromise < after.nextPromise := by
        rw [hnext]
        exact Nat.lt_succ_self _
      refine ⟨hlt.le, fun timer htimer => ?_⟩
      rcases timers_processTask h timer htimer with hold | rfl
      · exact .inl hold
      · exact .inr ⟨rfl, hlt⟩
    · cases hsubmits

/-! ## Expiry passes -/

/-- A pass whose visits do not look at the state answers those who are due. -/
theorem answers_due {Pending : Type} {taskOf : Pending → Task} (due : Pending → Bool)
    {visit : Unit → Pending → Processor → Option Pending × Processor}
    (hvisit : ∀ input pending processor,
      Visited taskOf pending processor (visit input pending processor))
    (hdue : ∀ input pending processor, (visit input pending processor).1.isNone = due pending)
    (inputs : Stream' Unit) (items : List Pending) (processor : Processor) :
    ∃ answered, Answers answered processor (Scan.scan visit inputs items processor).2 ∧
      answered.map Reply.task = (items.filter due).map taskOf := by
  induction items generalizing inputs processor with
  | nil => exact ⟨[], .refl _, rfl⟩
  | cons item rest ih =>
    rw [Scan.scan_cons]
    have hfirst := hvisit inputs.head item processor
    have hgone := hdue inputs.head item processor
    generalize visit inputs.head item processor = outcome at hfirst hgone
    obtain ⟨answered, hrest, htasks⟩ := ih inputs.tail outcome.2
    cases hfirst with
    | kept _ hanswers => exact ⟨answered, hanswers.trans hrest, by simp [← hgone, htasks]⟩
    | answered hanswers => exact ⟨_, hanswers.trans hrest, by simp [← hgone, htasks]⟩

theorem isOver_iff : isOver now deadline = true ↔ ∃ time, deadline = some time ∧ time ≤ now := by
  cases deadline <;> simp [isOver]

end Processor

/-- The time of a pass that ends blocked reads or waits. -/
def Phase.expires : Phase → Option Int
  | .expireStreamReads now | .expireWaits now => some now
  | _ => none

/-- The timers that such a pass looks at. -/
def Phase.expiring (processor : Processor) : Phase → List (ℕ × Option Int)
  | .expireStreamReads _ => processor.pendingStreamReads.map PendingStreamRead.timer
  | .expireWaits _ => processor.pendingWaits.map PendingWait.timer
  | _ => []

/-- An expiry pass answers those whose time is over. -/
theorem Phase.answered_of_expires {phase : Phase} (hexpires : phase.expires = some now)
    (h : phase.perform host before = some after) :
    ∃ answered, after.replies = before.replies ++ answered ∧
      answered.map (fun reply => reply.task.promise) =
        ((phase.expiring before).filter fun timer => Processor.isOver now timer.2).map Prod.fst := by
  unfold Phase.expires at hexpires
  split at hexpires
  · cases hexpires
    cases h
    obtain ⟨answered, hanswers, htasks⟩ := Processor.answers_due
      (fun pending : PendingStreamRead => Processor.isOver now pending.deadline)
      (Processor.visited_expireIn PendingStreamRead.task PendingStreamRead.deadline now)
      (fun _ _ _ => by unfold Processor.expireIn; split <;> simp_all) (Stream'.const ())
      before.pendingStreamReads before
    refine ⟨answered, hanswers.replies, ?_⟩
    have hpromises := congrArg (List.map Task.promise) htasks
    simpa [Phase.expiring, List.filter_map, Function.comp_def, PendingStreamRead.timer]
      using hpromises
  · cases hexpires
    cases h
    obtain ⟨answered, hanswers, htasks⟩ := Processor.answers_due
      (fun pending : PendingWait => Processor.isOver now pending.deadline)
      (fun input pending processor =>
        Processor.visited_waitVisit (Processor.waitVisit_expireWait now input pending processor))
      (fun _ _ _ => by unfold Processor.expireWait; split <;> simp_all) (Stream'.const ())
      before.pendingWaits before
    refine ⟨answered, hanswers.replies, ?_⟩
    have hpromises := congrArg (List.map Task.promise) htasks
    simpa [Phase.expiring, List.filter_map, Function.comp_def, PendingWait.timer] using hpromises
  · cases hexpires

theorem Phase.expiring_subset (phase : Phase) (processor : Processor) :
    phase.expiring processor ⊆ processor.timers := by
  unfold Phase.expiring
  split
  · exact List.subset_append_left _ _
  · exact List.subset_append_right _ _
  · exact List.nil_subset _

/-- Whoever is answered by an expiry pass had a timer that was over. -/
theorem Phase.over_of_answered {phase : Phase} (hexpires : phase.expires = some now)
    (h : phase.perform host before = some after) :
    ∃ answered, after.replies = before.replies ++ answered ∧
      ∀ reply ∈ answered, ∃ deadline, (reply.task.promise, some deadline) ∈ before.timers ∧
        deadline ≤ now := by
  obtain ⟨answered, hreplies, hpromises⟩ := phase.answered_of_expires hexpires h
  refine ⟨answered, hreplies, fun reply hreply => ?_⟩
  have hmem := hpromises ▸ List.mem_map_of_mem hreply
  obtain ⟨⟨promise, deadline⟩, htimer, hpromise⟩ := List.mem_map.mp hmem
  obtain ⟨htimer, hover⟩ := List.mem_filter.mp htimer
  obtain ⟨time, rfl, hle⟩ := Processor.isOver_iff.mp hover
  exact ⟨time, hpromise ▸ phase.expiring_subset before htimer, hle⟩

/-! ## Runs -/

/-- The promise is given out, and its timers show this deadline. -/
structure Held (promise : ℕ) (deadline : Option Int) (processor : Processor) : Prop where
  known : promise < processor.nextPromise
  timers : ∀ timer ∈ processor.timers, timer.1 = promise → timer.2 = deadline

theorem Held.perform {host : Host} {promise : ℕ} {deadline : Option Int} {phase : Phase}
    {before after : Processor} (hheld : Held promise deadline before)
    (h : phase.perform host before = some after) : Held promise deadline after := by
  obtain ⟨hnext, htimers⟩ := Processor.timers_perform h
  refine ⟨lt_of_lt_of_le hheld.known hnext, fun timer htimer hpromise => ?_⟩
  rcases htimers timer htimer with hold | ⟨hnew, -⟩
  · exact hheld.timers timer hold hpromise
  · exact absurd (hpromise.symm.trans hnew) hheld.known.ne

theorem Held.run {phases : List Phase} (hheld : Held promise deadline before)
    (h : runPhases host phases before = some after) : Held promise deadline after :=
  Runs.run_invariant (fun _ _ _ (_ : True) hstate hstep => Held.perform hstate hstep)
    (fun _ _ => trivial) hheld h

/-- No timer has a promise that is still to be given out. -/
theorem timers_known {phases : List Phase} {start final : Processor}
    (hstart : ∀ timer ∈ start.timers, timer.1 < start.nextPromise)
    (hrun : runPhases host phases start = some final) :
    ∀ timer ∈ final.timers, timer.1 < final.nextPromise := by
  refine Runs.run_invariant (fun phase before after (_ : True)
    (hbefore : ∀ timer ∈ before.timers, timer.1 < before.nextPromise) hstep => ?_)
    (fun _ _ => trivial) hstart hrun
  obtain ⟨hnext, htimers⟩ := Processor.timers_perform hstep
  intro timer htimer
  rcases htimers timer htimer with hold | ⟨hnew, hlt⟩
  · exact lt_of_lt_of_le (hbefore timer hold) hnext
  · rwa [hnew]

/-- The promise is answered by an expiry pass at this time, at once or after other
phases. -/
def TimedOut (host : Host) (promise : ℕ) (now : Int) (processor : Processor) : Prop :=
  ∃ phases phase before after, runPhases host phases processor = some before ∧
    Phase.expires phase = some now ∧ phase.perform host before = some after ∧
    ∃ reply ∈ after.replies.drop before.replies.length, reply.task.promise = promise

theorem Held.over_of_timedOut (hheld : Held promise deadline processor)
    (h : TimedOut host promise now processor) : ∃ time, deadline = some time ∧ time ≤ now := by
  obtain ⟨phases, phase, before, after, hrun, hexpires, hphase, reply, hreply, hpromise⟩ := h
  obtain ⟨answered, hreplies, hover⟩ := Phase.over_of_answered hexpires hphase
  rw [hreplies, List.drop_left] at hreply
  obtain ⟨time, htimer, hle⟩ := hover reply hreply
  exact ⟨time, ((hheld.run hrun).timers _ htimer hpromise).symm, hle⟩

/-- A promise whose deadline has come is answered by the next expiry pass. -/
theorem Held.timedOut {deadline : Int} (hheld : Held promise (some deadline) processor)
    (hwaits : promise ∈ processor.timers.map Prod.fst) (hle : deadline ≤ now) :
    TimedOut host promise now processor := by
  obtain ⟨⟨promise, time⟩, htimer, rfl⟩ := List.mem_map.mp hwaits
  obtain rfl : time = some deadline := hheld.timers _ htimer rfl
  have hover : Processor.isOver now (some deadline) = true :=
    Processor.isOver_iff.mpr ⟨deadline, rfl, hle⟩
  -- The pass over the queue with the timer answers its promise.
  have hanswers : ∀ phase : Phase, phase.expires = some now →
      (promise, some deadline) ∈ phase.expiring processor → (∃ after,
        phase.perform host processor = some after) → TimedOut host promise now processor := by
    rintro phase hexpires hmem ⟨after, hperform⟩
    obtain ⟨answered, hreplies, hpromises⟩ := phase.answered_of_expires hexpires hperform
    have hanswered : promise ∈ answered.map fun reply => reply.task.promise := by
      rw [hpromises]
      exact List.mem_map_of_mem (f := Prod.fst) (List.mem_filter.mpr ⟨hmem, hover⟩)
    obtain ⟨reply, hreply, hpromise⟩ := List.mem_map.mp hanswered
    refine ⟨[], phase, processor, after, rfl, hexpires, hperform, reply, ?_, hpromise⟩
    rwa [hreplies, List.drop_left]
  rcases List.mem_append.mp htimer with hread | hwait
  · exact hanswers (.expireStreamReads now) rfl hread ⟨_, rfl⟩
  · exact hanswers (.expireWaits now) rfl hwait ⟨_, rfl⟩

/-! ## The sum -/

theorem mode_of_parseStreams {mode : ReadMode} {arguments : List Bytes} {readCommand : ReadCommand}
    (h : parseStreams mode arguments = .ok readCommand) : readCommand.mode = mode := by
  unfold parseStreams at h
  split at h
  · cases h
  · split at h
    · cases h
    · split at h
      · cases h
      · simp only at h
        cases hrequests : parseRequests _ with
        | error message =>
          rw [hrequests] at h
          cases h
        | ok requests =>
          rw [hrequests] at h
          cases h
          rfl

theorem timeoutOf_pos {command : Command} {timeout : Int} (h : timeoutOf command = some timeout) :
    0 < timeout := by
  unfold timeoutOf at h
  split at h
  · split at h
    · rename_i requests duration hparse
      cases h
      unfold parseXread at hparse
      split at hparse
      · split at hparse
        · split at hparse
          · cases hparse
          · rename_i accepted haccepted
            have hmode := mode_of_parseStreams hparse
            have hnonneg := (Option.filter_eq_some_iff.mp haccepted).2
            split at hmode
            · cases hmode
            · cases hmode
              simp only [decide_eq_true_eq] at hnonneg
              omega
        · cases mode_of_parseStreams hparse
      · cases hparse
    · cases h
  · split at h
    · rename_i request hparse
      unfold Processor.parseWaitRequest at hparse
      split at hparse
      · split at hparse
        · split at hparse
          · cases hparse
          · rename_i accepted _ _ _
            cases hparse
            simp only at h
            split at h
            · cases h
              omega
            · cases h
        · cases hparse
      · cases hparse
    · cases h
  · cases h

/-- The sum is exact if it fits, and otherwise it is too small. -/
theorem deadlineAfter_eq_iff {timeout : Int} (hnow : Fits now) (htimeout : 0 < timeout) :
    deadlineAfter now timeout = now + timeout * 1000000 ↔ now + timeout * 1000000 < 2 ^ 63 := by
  rw [deadlineAfter_eq, wrap64_eq_self_iff]
  unfold Fits at hnow ⊢
  omega

/-- A command that has just blocked holds its promise with the sum it stored. -/
theorem held_of_blocked {env : Env} {clientId : ClientId} {command : Command}
    {source : CommandSource} {replicationBytes : ℕ}
    (hknown : ∀ timer ∈ before.timers, timer.1 < before.nextPromise)
    (hphase : (Phase.task env (.command clientId command source replicationBytes)).perform host
      before = some after) :
    Held before.nextPromise ((timeoutOf command).map (deadlineAfter env.now)) after := by
  have hnext := (Processor.answered_of_taskEnd (Processor.taskEnd_processTask hphase)).2
  refine ⟨hnext ▸ Nat.lt_succ_self _, fun timer htimer hpromise => ?_⟩
  rcases Processor.timers_processTask hphase timer htimer with hold | rfl
  · exact absurd hpromise (hknown timer hold).ne
  · rfl

/-- **A blocked command keeps its timeout just when the sum fits into 64 bits**: only then
is the stored deadline the time at which it was submitted plus its timeout, and only then
does no expiry pass of any later run answer it before that. -/
theorem timeout_kept_iff (host : Host) (role : ReplicationRole) (replicationId : Bytes)
    (defaultUser : User) (rdbConfig : RdbConfig) (aofConfig : AofConfig) (earlier : List Phase)
    (env : Env) (hnow : Fits env.now) (clientId : ClientId) (command : Command)
    (source : CommandSource) (replicationBytes : ℕ) {timeout : Int}
    (htimeout : timeoutOf command = some timeout) {before after : Processor}
    (hbefore : runPhases host earlier
      (Processor.start role replicationId defaultUser rdbConfig aofConfig) = some before)
    (hphase : (Phase.task env (.command clientId command source replicationBytes)).perform host
      before = some after)
    (hblocked : before.nextPromise ∈ after.timers.map Prod.fst) :
    ((∀ timer ∈ after.timers, timer.1 = before.nextPromise →
        timer.2 = some (env.now + timeout * 1000000)) ↔
      env.now + timeout * 1000000 < 2 ^ 63) ∧
    ((∀ now, env.now ≤ now → Fits now → TimedOut host before.nextPromise now after →
        env.now + timeout * 1000000 ≤ now) ↔
      env.now + timeout * 1000000 < 2 ^ 63) := by
  have hpositive := timeoutOf_pos htimeout
  have hheld := held_of_blocked (timers_known (by simp [Processor.start, Processor.timers]) hbefore)
    hphase
  rw [htimeout, Option.map_some] at hheld
  have hsum := deadlineAfter_eq_iff hnow hpositive
  refine ⟨⟨fun hexact => hsum.mp ?_, fun hfits timer htimer hpromise => ?_⟩,
    fun hpatient => ?_, fun hfits now _ _ hout => ?_⟩
  · obtain ⟨timer, htimer, hpromise⟩ := List.mem_map.mp hblocked
    exact Option.some.inj ((hheld.timers timer htimer hpromise).symm.trans
      (hexact timer htimer hpromise))
  · rw [hheld.timers timer htimer hpromise, hsum.mpr hfits]
  · -- a sum that does not fit is over at a time that the clock still shows
    by_contra hlarge
    have hstored : Fits (deadlineAfter env.now timeout) := by
      rw [deadlineAfter_eq]
      exact fits_wrap64 _
    have hearly := hpatient (max (deadlineAfter env.now timeout) env.now) (le_max_right _ _)
      (by unfold Fits at hnow hstored ⊢; omega) (hheld.timedOut hblocked (le_max_left _ _))
    unfold Fits at hnow hstored
    omega
  · obtain ⟨time, htime, hle⟩ := hheld.over_of_timedOut hout
    rw [hsum.mpr hfits] at htime
    cases htime
    exact hle

/-- A read with a timeout of 100 ms is not answered with null before they are over. -/
theorem timeout_kept_iff_read :
    let still (task : ProcessorTask) := Phase.task (Env.still ⟨5, 0⟩) task
    let read := [ascii "XREAD", ascii "BLOCK", ascii "100", ascii "STREAMS", ascii "k", ascii "$"]
    ∃ before after,
      runPhases Host.plain [still (.registerClient 1 0)]
        (Processor.start .master [] (User.default none) {} {}) = some before ∧
      (still (.ofClient 1 read)).perform Host.plain before = some after ∧
      before.nextPromise ∈ after.timers.map Prod.fst ∧
      ∀ now, 5 ≤ now → Fits now → TimedOut Host.plain before.nextPromise now after →
        5 + 100 * 1000000 ≤ now := by
  intro still read
  have hsome : ∃ before, runPhases Host.plain [still (.registerClient 1 0)]
      (Processor.start .master [] (User.default none) {} {}) = some before ∧
        ∃ after, (still (.ofClient 1 read)).perform Host.plain before = some after ∧
          before.nextPromise ∈ after.timers.map Prod.fst := by
    decide +kernel
  obtain ⟨before, hbefore, after, hafter, hblocked⟩ := hsome
  have htimeout : timeoutOf read = some 100 := by decide
  have hnow : Fits (Env.still ⟨5, 0⟩).now := by decide
  have hiff := timeout_kept_iff Host.plain _ _ _ _ _ _ _ hnow _ _ _ _ htimeout hbefore hafter
    hblocked
  exact ⟨before, after, hbefore, hafter, hblocked, hiff.2.mpr (by decide)⟩

/-- **The longest timeouts end at once.**  At time zero, a read and a wait that are to block
for 2^63 - 1 milliseconds are stored with a deadline one millisecond in the past, and the
expiry pass of the same iteration answers them. -/
theorem timeout_lost :
    let start := Processor.start .master [] (User.default none) {} {}
    let still (task : ProcessorTask) := Phase.task (Env.still ⟨0, 0⟩) task
    let read := [ascii "XREAD", ascii "BLOCK", ascii "9223372036854775807", ascii "STREAMS",
      ascii "k", ascii "$"]
    let write := [ascii "SET", ascii "k", ascii "v"]
    let wait := [ascii "WAIT", ascii "1", ascii "9223372036854775807"]
    timeoutOf read = some (2 ^ 63 - 1) ∧ timeoutOf wait = some (2 ^ 63 - 1) ∧
    (runPhases Host.plain [still (.registerClient 1 0), still (.ofClient 1 read)]
      start).map Processor.timers = some [(0, some (-1000000))] ∧
    (runPhases Host.plain [still (.registerClient 1 0), still (.ofClient 1 read),
        .expireStreamReads 0] start).map
      (fun final => (final.timers, final.replies.map fun reply =>
        (reply.task.promise, serializeResponse reply.response))) =
      some ([], [(0, ascii "*-1\r\n")]) ∧
    (runPhases Host.plain [still (.registerClient 1 0), still (.ofClient 1 write),
      still (.ofClient 1 wait)] start).map Processor.timers = some [(1, some (-1000000))] ∧
    (runPhases Host.plain [still (.registerClient 1 0), still (.ofClient 1 write),
        still (.ofClient 1 wait), .expireWaits 0] start).map
      (fun final => (final.timers, final.replies.map fun reply =>
        (reply.task.promise, serializeResponse reply.response))) =
      some ([], [(0, ascii "+OK\r\n"), (1, ascii ":0\r\n")]) := by
  intro start still read write wait
  refine ⟨?_, ?_, ?_, ?_, ?_, ?_⟩ <;> decide +kernel

end RedisServer
