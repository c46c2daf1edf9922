import RedisServer.Processor.Conservation
import RedisServer.Processor.Fixpoint
import RedisServer.Processor.Promises

/-!
# First come, first served

Promises are given out in the order in which commands arrive.  Nobody gets an
element of a key ahead of a `BLPOP` that arrived earlier and still waits for the
same key: a command that finds an element finds nobody waiting, since at the end
of an iteration whoever waits has an absent key, and a retry serves the queue from
its front and passes over those only whose key is absent.

`InTurn` states this about the replies so far and the queue.
-/

namespace RedisServer

open Resp KeyedStore Commands Aof Database

variable {processor before after : Processor} {phase : Phase}

/-- The reply hands out an element of the key to a command outside a transaction. -/
def Reply.Takes (key : Bytes) (reply : Reply) : Prop :=
  RedisServer.takenFrom key reply.task.command reply.response ≠ []

/-- The command is a `BLPOP` of the key. -/
def Task.WaitsFor (key : Bytes) (task : Task) : Prop :=
  nameOf task.command = some .blpop ∧ task.command[1]? = some key

/-- The queue is in the order of arrival, and whoever got an element of the key came
before all `BLPOP`s of the key that were answered later or still wait. -/
structure InTurn (key : Bytes) (waiting : List Task) (processor : Processor) : Prop where
  sorted : waiting.Pairwise fun first second => first.promise < second.promise
  issued : ∀ task ∈ waiting, task.promise < processor.nextPromise
  past : ∀ reply ∈ processor.replies, reply.Takes key → reply.task.promise < processor.nextPromise
  answered : processor.replies.Pairwise fun earlier later =>
    earlier.Takes key → later.task.WaitsFor key → earlier.task.promise < later.task.promise
  ahead : ∀ reply ∈ processor.replies, reply.Takes key → ∀ task ∈ waiting, task.WaitsFor key →
    reply.task.promise < task.promise

namespace InTurn

variable {key : Bytes} {waiting kept rest : List Task} {before after : Processor}

/-- Some of the waiting are answered with nothing in their hands. -/
theorem settled {waiting' : List Task} {extra : List Reply} (h : InTurn key waiting before)
    (hsub : waiting'.Sublist waiting) (hreplies : after.replies = before.replies ++ extra)
    (hnext : after.nextPromise = before.nextPromise)
    (hextra : ∀ reply ∈ extra, ¬ reply.Takes key ∧
      (reply.task.WaitsFor key → reply.task ∈ waiting)) : InTurn key waiting' after where
  sorted := h.sorted.sublist hsub
  issued task htask := by
    rw [hnext]
    exact h.issued task (hsub.subset htask)
  past reply hreply htakes := by
    rw [hreplies] at hreply
    rw [hnext]
    rcases List.mem_append.mp hreply with hreply | hreply
    · exact h.past reply hreply htakes
    · exact absurd htakes (hextra reply hreply).1
  answered := by
    rw [hreplies, List.pairwise_append]
    refine ⟨h.answered, ?_, fun earlier hearlier later hlater htakes hwaits =>
      h.ahead earlier hearlier htakes _ ((hextra later hlater).2 hwaits) hwaits⟩
    exact List.pairwise_of_forall_mem_list fun earlier hearlier later _ htakes =>
      absurd htakes (hextra earlier hearlier).1
  ahead reply hreply htakes task htask := by
    rw [hreplies] at hreply
    rcases List.mem_append.mp hreply with hreply | hreply
    · exact h.ahead reply hreply htakes task (hsub.subset htask)
    · exact absurd htakes (hextra reply hreply).1

theorem congr (h : InTurn key waiting before) (hanswers : Answers [] before after) :
    InTurn key waiting after :=
  h.settled (.refl _) hanswers.replies hanswers.nextPromise (by simp)

/-- A waiting command is answered.  If it gets an element of the key, nobody before
it in the queue waits for that key. -/
theorem leave {task : Task} {response : Response} (h : InTurn key (kept ++ task :: rest) before)
    (hanswers : Answers [⟨task, [], response⟩] before after)
    (hserved : Reply.Takes key ⟨task, [], response⟩ → ∀ other ∈ kept, ¬ other.WaitsFor key) :
    InTurn key (kept ++ rest) after := by
  have hsub : (kept ++ rest).Sublist (kept ++ task :: rest) :=
    (List.sublist_cons_self task rest).append_left kept
  have hmem : task ∈ kept ++ task :: rest := by simp
  have hbehind : ∀ other ∈ rest, task.promise < other.promise := by
    have hpair := (List.pairwise_append.mp h.sorted).2.1
    exact (List.pairwise_cons.mp hpair).1
  refine ⟨h.sorted.sublist hsub, fun other hother => ?_, fun reply hreply htakes => ?_, ?_,
    fun reply hreply htakes other hother hwaits => ?_⟩
  · rw [hanswers.nextPromise]
    exact h.issued other (hsub.subset hother)
  · rw [hanswers.replies] at hreply
    rw [hanswers.nextPromise]
    rcases List.mem_append.mp hreply with hreply | hreply
    · exact h.past reply hreply htakes
    · obtain rfl := List.mem_singleton.mp hreply
      exact h.issued task hmem
  · rw [hanswers.replies, List.pairwise_append]
    refine ⟨h.answered, List.pairwise_singleton _ _, fun earlier hearlier later hlater htakes => ?_⟩
    obtain rfl := List.mem_singleton.mp hlater
    exact h.ahead earlier hearlier htakes task hmem
  · rw [hanswers.replies] at hreply
    rcases List.mem_append.mp hreply with hreply | hreply
    · exact h.ahead reply hreply htakes other (hsub.subset hother) hwaits
    · obtain rfl := List.mem_singleton.mp hreply
      rcases List.mem_append.mp hother with hother | hother
      · exact absurd hwaits (hserved htakes other hother)
      · exact hbehind other hother

/-- A new command is answered at once.  If it gets an element of the key, nobody
waits for that key. -/
theorem direct {reply : Reply} (h : InTurn key waiting before)
    (hpromise : reply.task.promise = before.nextPromise)
    (hreplies : after.replies = before.replies ++ [reply])
    (hnext : after.nextPromise = before.nextPromise + 1)
    (hserved : reply.Takes key → ∀ other ∈ waiting, ¬ other.WaitsFor key) :
    InTurn key waiting after := by
  refine ⟨h.sorted, fun other hother => ?_, fun earlier hearlier htakes => ?_, ?_,
    fun earlier hearlier htakes other hother hwaits => ?_⟩
  · have hissued := h.issued other hother
    omega
  · rw [hreplies] at hearlier
    rcases List.mem_append.mp hearlier with hearlier | hearlier
    · have hpast := h.past earlier hearlier htakes
      omega
    · obtain rfl := List.mem_singleton.mp hearlier
      omega
  · rw [hreplies, List.pairwise_append]
    refine ⟨h.answered, List.pairwise_singleton _ _, fun earlier hearlier later hlater htakes _ => ?_⟩
    obtain rfl := List.mem_singleton.mp hlater
    rw [hpromise]
    exact h.past earlier hearlier htakes
  · rw [hreplies] at hearlier
    rcases List.mem_append.mp hearlier with hearlier | hearlier
    · exact h.ahead earlier hearlier htakes other hother hwaits
    · obtain rfl := List.mem_singleton.mp hearlier
      exact absurd hwaits (hserved htakes other hother)

/-- A new command joins the queue, or another one. -/
theorem join {joined : List Task} (h : InTurn key waiting before)
    (hjoined : ∀ task ∈ joined, task.promise = before.nextPromise) (hone : joined.length ≤ 1)
    (hreplies : after.replies = before.replies)
    (hnext : after.nextPromise = before.nextPromise + 1) :
    InTurn key (waiting ++ joined) after := by
  refine ⟨?_, fun other hother => ?_, fun earlier hearlier htakes => ?_, ?_,
    fun earlier hearlier htakes other hother hwaits => ?_⟩
  · rw [List.pairwise_append]
    refine ⟨h.sorted, ?_, fun first hfirst second hsecond => ?_⟩
    · rcases joined with _ | ⟨task, _ | ⟨_, _⟩⟩
      · exact .nil
      · exact List.pairwise_singleton _ _
      · simp at hone
    · rw [hjoined second hsecond]
      exact h.issued first hfirst
  · rw [hnext]
    rcases List.mem_append.mp hother with hother | hother
    · have hissued := h.issued other hother
      omega
    · rw [hjoined other hother]
      exact Nat.lt_succ_self _
  · rw [hreplies] at hearlier
    have hpast := h.past earlier hearlier htakes
    omega
  · rw [hreplies]
    exact h.answered
  · rw [hreplies] at hearlier
    rcases List.mem_append.mp hother with hother | hother
    · exact h.ahead earlier hearlier htakes other hother hwaits
    · rw [hjoined other hother]
      exact h.past earlier hearlier htakes

end InTurn

namespace Processor

variable {host : Host} {key : Bytes}

/-! ## Passes -/

/-- A blocked `BLPOP` of the key waits for that key. -/
theorem key_of_waiting {pending : PendingListPop} (hwaiting : pending.Waiting host)
    (hwaits : pending.task.WaitsFor key) : pending.key = key := by
  obtain ⟨-, timeout, hparse⟩ := hwaiting
  have htarget := target_of_parseBlpop hparse
  rw [hwaits.2] at htarget
  exact (Option.some.inj htarget).symm

/-- **The retry serves the queue from its front.**  Those it passes over wait for an
absent key, so nobody behind them gets an element of that key. -/
theorem inTurn_retryPendingListPops (inputs : Stream' (Clock × Disk))
    (hholds : processor.Holds host Regime.any) (hvalid : processor.Valid)
    (h : InTurn key (processor.pendingListPops.map PendingListPop.task) processor) :
    InTurn key ((processor.retryPendingListPops inputs).pendingListPops.map PendingListPop.task)
      (processor.retryPendingListPops inputs) := by
  let Inv (kept rest : List PendingListPop) (state : Processor) : Prop :=
    InTurn key ((kept ++ rest).map PendingListPop.task) state ∧ state.Valid ∧
      (∀ pending ∈ kept, pending.Blocked state) ∧ ∀ pending ∈ kept ++ rest, pending.Waiting host
  have hstep : ∀ input pending kept rest state, Inv kept (pending :: rest) state →
      Inv (kept ++ (retryListPop input pending state).1.toList) rest
        (retryListPop input pending state).2 := by
    intro input pending kept rest state ⟨hturn, hstate, hblocked, hwaiting⟩
    have hvalid' : (retryListPop input pending state).2.Valid := by
      unfold Processor.Valid
      rw [database_retryListPop]
      exact Invariant.popListElement hstate _ _
    have hblocked' : ∀ other ∈ kept, other.Blocked (retryListPop input pending state).2 := by
      intro other hother
      unfold PendingListPop.Blocked
      rw [database_retryListPop]
      exact lookup_popListElement_of_none (hblocked other hother)
    have hown := @blocked_of_retryListPop input pending pending state hstate
    obtain ⟨waiting, after, hattempt, hretry⟩ := retryListPop_cases input pending state
    have hanswers := answers_popAttempt hattempt
    rw [hretry] at hvalid' hblocked' hown ⊢
    cases waiting with
    | true =>
      refine ⟨?_, hvalid', fun other hother => ?_, ?_⟩
      · simpa using hturn.congr hanswers
      · rcases List.mem_append.mp hother with hother | hother
        · exact hblocked' other hother
        · obtain rfl : other = pending := by simpa using hother
          exact hown rfl
      · simpa using hwaiting
    | false =>
      obtain ⟨response, hanswers, hbare⟩ := hanswers
      refine ⟨?_, hvalid', by simpa using hblocked', fun other hother => ?_⟩
      · simp only [List.map_append, List.map_cons] at hturn
        have hleft := hturn.leave hanswers fun htakes task htask hwaits => by
          obtain ⟨other, hother, rfl⟩ := List.mem_map.mp htask
          -- The one that was passed over waits for the key that was served.
          have hother' : other.key = key :=
            key_of_waiting (hwaiting other (List.mem_append_left _ hother)) hwaits
          have hpending : pending.key = key := by
            obtain ⟨-, timeout, hparse⟩ := hwaiting pending (by simp)
            by_contra hne
            refine htakes (takenFrom_of_target ?_)
            rw [target_of_parseBlpop hparse]
            exact fun heq => hne (Option.some.inj heq)
          have habsent : state.database.entries.lookup pending.key = none := by
            rw [hpending, ← hother']
            exact hblocked other hother
          exact htakes (takenFrom_of_bare (hbare habsent))
        simpa using hleft
      · refine hwaiting other ?_
        simp only [Bool.false_eq_true, if_false, Option.toList_none, List.append_nil,
          List.mem_append] at hother
        simp only [List.mem_append, List.mem_cons]
        tauto
  have hstart : Inv [] processor.pendingListPops processor :=
    ⟨h, hvalid, by simp, fun pending hpending => (hholds.pops pending hpending).2⟩
  have hend : Inv _ _ _ := Scan.scan_split hstep inputs hstart
  have hturn := hend.1
  simp only [List.nil_append, List.append_nil] at hturn
  exact { hturn with }

/-! ## Phases -/

/-- A command that gets an element finds nobody waiting for the key. -/
theorem inTurn_command {env : Env} {clientId : ClientId} {words : Command} {source : CommandSource}
    {replicationBytes : ℕ} (hholds : before.Holds host Regime.any)
    (hblocked : ∀ pending ∈ before.pendingListPops, pending.Blocked before)
    (h : InTurn key (before.pendingListPops.map PendingListPop.task) before)
    (hperform : (ProcessorTask.command clientId words source replicationBytes).perform host env
      before = some after) : InTurn key (after.pendingListPops.map PendingListPop.task) after := by
  have hend := taskEnd_processTask hperform
  cases hend with
  | answered hanswers habsent =>
    rw [hanswers.pops]
    refine h.direct rfl hanswers.replies hanswers.nextPromise fun htakes task htask hwaits => ?_
    obtain ⟨pending, hpending, rfl⟩ := List.mem_map.mp htask
    have hkey := key_of_waiting (hholds.pops pending hpending).2 hwaits
    refine htakes (habsent key ?_)
    rw [← hkey]
    exact hblocked pending hpending
  | pops _ _ _ =>
    rw [List.map_append]
    exact h.join (by simp) (by simp) rfl rfl
  | reads _ _ _ _ | waits _ _ _ _ =>
    rw [← List.append_nil (List.map _ _)]
    exact h.join (by simp) (by simp) rfl rfl

/-- A phase that hands out no element of the key. -/
theorem inTurn_settles {visited : List Task} {answered : List Reply}
    (hholds : before.Holds host Regime.any)
    (h : InTurn key (before.pendingListPops.map PendingListPop.task) before)
    (hsettles : Settles visited answered before after)
    (hempty : ∀ reply ∈ answered, ¬ reply.Takes key) :
    InTurn key (after.pendingListPops.map PendingListPop.task) after := by
  refine h.settled (hsettles.pops.map _) hsettles.replies hsettles.nextPromise fun reply hreply =>
    ⟨hempty reply hreply, fun hwaits => ?_⟩
  have hmem : reply.task ∈ (before.pendingTasks : Multiset Task) := by
    rw [← hsettles.tasks, Multiset.mem_add]
    exact .inl (Multiset.mem_coe.mpr (List.mem_map_of_mem hreply))
  simp only [Multiset.mem_coe, pendingTasks, List.mem_append] at hmem
  rcases hmem with (hmem | hmem) | hmem
  · exact hmem
  · obtain ⟨pending, hpending, htask⟩ := List.mem_map.mp hmem
    cases (hholds.reads pending hpending).symm.trans (htask ▸ hwaits.1)
  · obtain ⟨pending, hpending, htask⟩ := List.mem_map.mp hmem
    cases (hholds.waits pending hpending).symm.trans (htask ▸ hwaits.1)

/-- The commands of the other queues take nothing from lists. -/
theorem not_takes_of_name {Pending : Type} {taskOf : Pending → Task} {items : List Pending}
    {name : CommandName} (hitems : ∀ item ∈ items, nameOf (taskOf item).command = some name)
    (hlpop : name ≠ .lpop) (hblpop : name ≠ .blpop) {reply : Reply}
    (hreply : reply.task ∈ items.map taskOf) : ¬ reply.Takes key := by
  obtain ⟨item, hitem, htask⟩ := List.mem_map.mp hreply
  have hname : nameOf reply.task.command = some name := htask ▸ hitems item hitem
  refine fun htakes => htakes (takenFrom_of_name ?_ ?_) <;> simpa [hname]

/-- Every phase keeps the order; a task needs that whoever waits has an absent key. -/
theorem inTurn_perform (hholds : before.Holds host Regime.any) (hvalid : before.Valid)
    (hblocked : (∃ env work, phase = .task env work) →
      ∀ pending ∈ before.pendingListPops, pending.Blocked before)
    (h : InTurn key (before.pendingListPops.map PendingListPop.task) before)
    (hperform : phase.perform host before = some after) :
    InTurn key (after.pendingListPops.map PendingListPop.task) after := by
  cases hsubmits : phase.submits with
  | some submit =>
    unfold Phase.submits at hsubmits
    split at hsubmits
    · exact inTurn_command hholds (hblocked ⟨_, _, rfl⟩) h hperform
    · cases hsubmits
  | none =>
    obtain ⟨answered, hsettles⟩ := settles_perform hsubmits hperform
    -- Those who are sent away get nothing.
    have hdismissed : ∀ {Pending : Type} {taskOf : Pending → Task} {response : Response}
        {items : List Pending}, response.bare = true →
        after.replies = before.replies ++ dismissals taskOf response items →
        ∀ reply ∈ answered, ¬ reply.Takes key := by
      intro Pending taskOf response items hbare hreplies reply hreply htakes
      rw [List.append_cancel_left (hsettles.replies.symm.trans hreplies)] at hreply
      obtain ⟨pending, -, rfl⟩ := List.mem_map.mp hreply
      exact htakes (takenFrom_of_bare hbare)
    have hvisited := hsettles.visited
    cases phase with
    | retryListPops inputs =>
      cases hperform
      exact inTurn_retryPendingListPops inputs hholds hvalid h
    | expireListPops now =>
      cases hperform
      simp only [expirePendingListPops, scan_expireIn] at hdismissed hsettles ⊢
      exact inTurn_settles hholds h hsettles (hdismissed rfl rfl)
    | retryStreamReads _ | expireStreamReads _ =>
      exact inTurn_settles hholds h hsettles fun reply hreply =>
        not_takes_of_name hholds.reads (by decide) (by decide) (hvisited reply hreply)
    | retryWaits | expireWaits _ =>
      exact inTurn_settles hholds h hsettles fun reply hreply =>
        not_takes_of_name hholds.waits (by decide) (by decide) (hvisited reply hreply)
    | external event =>
      exact inTurn_settles hholds h hsettles fun reply hreply => by cases hvisited reply hreply
    | task env work =>
      cases work with
      | unregisterClient clientId =>
        cases hperform
        exact inTurn_settles hholds h hsettles
          (@hdismissed _ id _ _ rfl (settles_unregistration clientId before).replies)
      | _ =>
        exact inTurn_settles hholds h hsettles fun reply hreply => by
          cases hvisited reply hreply

end Processor

/-! ## Iterations -/

section Iterations

open Processor

variable {host : Host} {key : Bytes}

/-- What every phase keeps. -/
structure Processor.Orderly (host : Host) (key : Bytes) (processor : Processor) : Prop where
  holds : processor.Holds host Regime.any
  valid : processor.Valid
  turn : InTurn key (processor.pendingListPops.map PendingListPop.task) processor

theorem orderly_perform (h : before.Orderly host key)
    (hblocked : (∃ env work, phase = .task env work) →
      ∀ pending ∈ before.pendingListPops, pending.Blocked before)
    (hperform : phase.perform host before = some after) : after.Orderly host key := by
  obtain ⟨hholds, deeds, hchronicle⟩ := proceeds_perform (within_any phase) hperform h.holds
  exact ⟨hholds, hchronicle.history.invariant (fun clock _ => admits_all clock) h.valid,
    inTurn_perform h.holds h.valid hblocked h.turn hperform⟩

/-- Only the first phase of an iteration is a task. -/
theorem orderly_run {phases : List Phase} (hphases : ∀ phase ∈ phases, ∀ env work,
      phase ≠ .task env work) (h : before.Orderly host key)
    (hrun : runPhases host phases before = some after) : after.Orderly host key := by
  have hstep : ∀ phase ∈ phases, ∀ state next, state.Orderly host key →
      phase.perform host state = some next → next.Orderly host key := by
    intro phase hphase state next hstate hperform
    refine orderly_perform hstate ?_ hperform
    rintro ⟨env, work, rfl⟩
    exact absurd rfl (hphases _ hphase env work)
  induction phases generalizing before with
  | nil =>
    cases hrun
    exact h
  | cons phase rest ih =>
    obtain ⟨middle, hphase, hrest⟩ := Runs.run_cons_eq_some.mp hrun
    exact ih (fun other hother => hphases other (by simp [hother]))
      (hstep phase (by simp) before middle h hphase) hrest
      fun other hother => hstep other (by simp [hother])

theorem Phase.Calm.ne_task (h : phase.Calm) (env : Env) (work : ProcessorTask) :
    phase ≠ .task env work := by
  rintro rfl
  exact h

/-- **One iteration keeps the order**, and leaves nobody waiting for a key that is
there. -/
theorem orderly_iteration {iteration : Iteration} (h : before.Orderly host key)
    (hblocked : ∀ pending ∈ before.pendingListPops, pending.Blocked before)
    (hrun : runPhases host iteration.phases before = some after) :
    after.Orderly host key ∧ ∀ pending ∈ after.pendingListPops, pending.Blocked after := by
  cases htask : iteration.task with
  | none =>
    have hcalm : ∀ phase ∈ iteration.phases, phase.Calm := by
      intro phase hphase
      rw [Iteration.phases, htask] at hphase
      rcases List.mem_append.mp hphase with hphase | hphase
      · exact calm_externals iteration 0 phase hphase
      · exact calm_expiries iteration phase hphase
    have hsteady := steady_run hcalm hrun
    refine ⟨orderly_run (fun phase hphase => (hcalm phase hphase).ne_task) h hrun,
      fun pending hpending => ?_⟩
    unfold PendingListPop.Blocked
    rw [hsteady.database]
    exact hblocked pending (hsteady.pops hpending)
  | some input =>
    obtain ⟨env, work⟩ := input
    have hfirst : ∀ middle, (Phase.task env work).perform host before = some middle →
        middle.Orderly host key := fun middle hperform =>
      orderly_perform h (fun _ => hblocked) hperform
    refine ⟨?_, ?_⟩
    · have hphases : iteration.phases = .task env work :: (iteration.externals 0 ++
          .retryListPops iteration.pops :: iteration.externals 1 ++
          .retryStreamReads iteration.reads :: iteration.externals 2 ++
          .retryWaits :: iteration.externals 3 ++ iteration.expiries) := by
        simp [Iteration.phases, htask]
      rw [hphases] at hrun
      obtain ⟨middle, hperform, hrest⟩ := Runs.run_cons_eq_some.mp hrun
      refine orderly_run ?_ (hfirst middle hperform) hrest
      intro phase hphase env' work'
      simp only [List.mem_append, List.mem_cons] at hphase
      have hexternals : ∀ position, phase ∈ iteration.externals position →
          phase ≠ .task env' work' := fun position hmem =>
        (calm_externals iteration position phase hmem).ne_task env' work'
      rcases hphase with ((((hmem | rfl | hmem) | rfl | hmem) | rfl | hmem) | hmem)
      · exact hexternals _ hmem
      · exact Phase.noConfusion
      · exact hexternals _ hmem
      · exact Phase.noConfusion
      · exact hexternals _ hmem
      · exact Phase.noConfusion
      · exact hexternals _ hmem
      · exact (calm_expiries iteration phase hmem).ne_task env' work'
    · have hidle := idle_of_iteration (by rw [htask]; rfl) (fun env' work' middle hwork hstart => by
        obtain ⟨next, hperform, hrest⟩ := Runs.run_cons_eq_some.mp hstart
        cases htask.symm.trans hwork
        exact (orderly_run (fun phase hphase =>
          (calm_externals iteration 0 phase hphase).ne_task) (hfirst next hperform) hrest).valid)
        hrun
      exact hidle.pops

theorem orderly_iterations {iterations : List Iteration} {start final : Processor}
    (hstart : start.Orderly host key) (hblocked : ∀ pending ∈ start.pendingListPops,
      pending.Blocked start)
    (hrun : runPhases host (iterations.flatMap Iteration.phases) start = some final) :
    final.Orderly host key := by
  induction iterations generalizing start with
  | nil =>
    cases hrun
    exact hstart
  | cons iteration rest ih =>
    rw [List.flatMap_cons] at hrun
    obtain ⟨middle, hfirst, hrest⟩ := Runs.run_append_eq_some.mp hrun
    obtain ⟨hmiddle, hsettled⟩ := orderly_iteration hstart hblocked hfirst
    exact ih hmiddle hsettled hrest

/-- The only task of an iteration is the one it took. -/
theorem task_of_mem_phases {iteration : Iteration} {env : Env} {work : ProcessorTask}
    (h : .task env work ∈ iteration.phases) : iteration.task = some (env, work) := by
  have hcalm : ∀ phases : List Phase, (∀ phase ∈ phases, phase.Calm) →
      .task env work ∉ phases := fun phases hphases hmem => hphases _ hmem
  have hexternals := fun position => hcalm _ (calm_externals iteration position)
  have hexpiries := hcalm _ (calm_expiries iteration)
  unfold Iteration.phases at h
  split at h
  · simp [hexternals, hexpiries] at h
  · rename_i htask
    simp [hexternals, hexpiries] at h
    rw [htask, h.1, h.2]

/-- The task reads a file. -/
def ProcessorTask.recovers : ProcessorTask → Bool
  | .loadRdb _ | .initializeAof _ _ => true
  | _ => false

/-- No file is read, and nothing else is assumed. -/
def Regime.live : Regime := { Regime.any with Recovers := False }

theorem within_live (hrecovers : ∀ env work, phase = .task env work →
    work.recovers = false) : phase.Within Regime.live := by
  have hany := within_any phase
  cases phase with
  | task env work =>
    refine ⟨hany.1, hany.2.1, ?_⟩
    cases work with
    | loadRdb _ => cases hrecovers _ _ rfl
    | initializeAof _ _ => cases hrecovers _ _ rfl
    | command clientId words source replicationBytes => exact fun _ => trivial
    | _ => trivial
  | _ => exact hany

/-- **List elements are neither lost nor duplicated, and `BLPOP` serves first who
came first.**  In every run from the empty database in which no append to the log
failed, and for every key that no `SET` overwrote: what was pushed to the key is
what replies handed out together with what is still there; whoever got an element
outside a transaction came before every `BLPOP` of the key that was answered later
and before every one that still waits. -/
theorem elements_conserved_in_turn (host : Host) (role : ReplicationRole) (replicationId : Bytes)
    (defaultUser : User) (rdbConfig : RdbConfig) (aofConfig : AofConfig)
    (aofFile : Option AppendOnlyFile) (iterations : List Iteration)
    (hlive : ∀ iteration ∈ iterations, ∀ env work, iteration.task = some (env, work) →
      work.recovers = false) {final : Processor}
    (hrun : runPhases host (iterations.flatMap Iteration.phases)
      { Processor.start role replicationId defaultUser rdbConfig aofConfig with aofFile } =
        some final)
    (hlogged : final.appendErrors = []) (key : Bytes)
    (hset : ∀ event ∈ final.events, event.overwrites host key = false) :
    (final.events.flatMap (Event.pushedTo key) : Multiset Bytes) =
        final.replies.flatMap (Reply.takenFrom key) + final.database.elementsAt key ∧
    (final.replies.Pairwise fun earlier later =>
      earlier.Takes key → later.task.WaitsFor key → earlier.task.promise < later.task.promise) ∧
    ∀ reply ∈ final.replies, reply.Takes key → ∀ pending ∈ final.pendingListPops,
      pending.key = key → reply.task.promise < pending.task.promise := by
  have hholds : ∀ regime : Regime,
      { Processor.start role replicationId defaultUser rdbConfig aofConfig with
        aofFile }.Holds host regime := fun regime =>
    (holds_start role replicationId defaultUser rdbConfig aofConfig).congr rfl rfl rfl rfl
  have hvalid : Invariant (fun _ => True) ({} : Database) := invariant_empty
  refine ⟨?_, ?_⟩
  · have hwithin : ∀ phase ∈ iterations.flatMap Iteration.phases, phase.Within Regime.live := by
      intro phase hphase
      refine within_live ?_
      rintro env work rfl
      obtain ⟨iteration, hiteration, hmem⟩ := List.mem_flatMap.mp hphase
      exact hlive iteration hiteration env work (task_of_mem_phases hmem)
    obtain ⟨-, deeds, hchronicle⟩ := proceeds_run hwithin hrun (hholds Regime.live)
    have hlasting := hchronicle.lasting not_false hlogged
    have hevents : final.events = deeds.flatMap Deed.events := hchronicle.events
    have hreplies : final.replies = deeds.flatMap Deed.replies := hchronicle.replies
    rw [hevents] at hset
    have hbalanced := hchronicle.balanced hvalid hlasting hset
    rw [← hevents, ← hreplies] at hbalanced
    have hnothing : Database.elementsAt key ({} : Database) = [] := rfl
    calc (final.events.flatMap (Event.pushedTo key) : Multiset Bytes)
        = Database.elementsAt key ({} : Database) +
            final.events.flatMap (Event.pushedTo key) := by
          rw [hnothing, Multiset.coe_nil, zero_add]
      _ = final.replies.flatMap (Reply.takenFrom key) + final.database.elementsAt key := hbalanced
  · have horderly : final.Orderly host key := by
      refine orderly_iterations ⟨hholds _, hvalid, ?_⟩ ?_ hrun
      · exact ⟨.nil, by simp [Processor.start], by simp [Processor.start], .nil,
          by simp [Processor.start]⟩
      · simp [Processor.start]
    refine ⟨horderly.turn.answered, fun reply hreply htakes pending hpending hkey => ?_⟩
    obtain ⟨-, hname, timeout, hparse⟩ := horderly.holds.pops pending hpending
    refine horderly.turn.ahead reply hreply htakes pending.task (List.mem_map_of_mem hpending)
      ⟨hname, ?_⟩
    rw [← hkey]
    exact target_of_parseBlpop hparse

/-- Two clients wait in the order of their arrival; a third one pushes three
elements and pops one in a transaction.  Nothing is left, and everybody got what
was theirs. -/
theorem elements_conserved_in_turn_two_waiters :
    let still (task : ProcessorTask) := Iteration.still ⟨1, 1⟩ task
    let words (texts : List String) := texts.map ascii
    let iterations := [still (.registerClient 1 0), still (.registerClient 2 1),
      still (.registerClient 3 2), still (.ofClient 1 (words ["BLPOP", "k", "0"])),
      still (.ofClient 2 (words ["BLPOP", "k", "0"])), still (.ofClient 3 (words ["MULTI"])),
      still (.ofClient 3 (words ["RPUSH", "k", "a", "b", "c"])),
      still (.ofClient 3 (words ["LPOP", "k"])), still (.ofClient 3 (words ["EXEC"]))]
    ∃ final, runPhases Host.plain (iterations.flatMap Iteration.phases)
        { Processor.start .master [] (User.default none) {} {} with aofFile := none } =
          some final ∧
      final.events.flatMap (Event.pushedTo (ascii "k")) = words ["a", "b", "c"] ∧
      final.replies.flatMap (Reply.takenFrom (ascii "k")) = words ["a", "b", "c"] ∧
      (final.events.flatMap (Event.pushedTo (ascii "k")) : Multiset Bytes) =
        final.replies.flatMap (Reply.takenFrom (ascii "k")) +
          final.database.elementsAt (ascii "k") := by
  intro still words iterations
  have hsome : ∃ final, runPhases Host.plain (iterations.flatMap Iteration.phases)
      { Processor.start .master [] (User.default none) {} {} with aofFile := none } =
        some final ∧ final.appendErrors = [] ∧
          (∀ event ∈ final.events, event.overwrites Host.plain (ascii "k") = false) ∧
          final.events.flatMap (Event.pushedTo (ascii "k")) = words ["a", "b", "c"] ∧
          final.replies.flatMap (Reply.takenFrom (ascii "k")) = words ["a", "b", "c"] := by
    decide +kernel
  obtain ⟨final, hrun, herrors, hset, hpushed, htaken⟩ := hsome
  refine ⟨final, hrun, hpushed, htaken,
    (elements_conserved_in_turn Host.plain _ _ _ _ _ none iterations ?_ hrun herrors (ascii "k")
      hset).1⟩
  intro iteration hiteration env work htask
  simp only [iterations, List.mem_cons, List.not_mem_nil, or_false] at hiteration
  rcases hiteration with rfl | rfl | rfl | rfl | rfl | rfl | rfl | rfl | rfl <;>
    cases htask <;> rfl

end Iterations

end RedisServer
