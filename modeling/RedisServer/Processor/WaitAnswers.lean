import RedisServer.Processor.Guests
import RedisServer.Processor.Promises
import RedisServer.Processor.Waiters

/-!
# How a `WAIT` is answered

A `WAIT` is answered with a number at once, by the pass that tries the blocked ones
again, or by the pass that ends those whose time is over.  The number is that of the
sessions which have acknowledged the offset that was noted for it.
-/

namespace RedisServer

open Resp Commands Replication Processor

variable {before after : Processor} {reply : Reply} {clientId : ClientId} {source : CommandSource}
  {env : Env} {task : Task}

namespace Processor

variable {host : Host}

/-! ## Replies without a number -/

/-- The response is no number. -/
def NoNumber (response : Response) : Prop := ∀ value, response ≠ .integer value

theorem noNumber_processCommand {env : CommandEnv} {command : Command}
    (hname : nameOf command = some .wait) {response : Response}
    (h : before.processCommand host env clientId command source = some (response, after)) :
    NoNumber response := by
  unfold processCommand at h
  rw [if_neg (ne_nil_of_nameOf hname), hname] at h
  simp only [queueOrRun] at h
  split at h
  · cases h
    exact fun _ => nofun
  · have hdispatch : dispatch host env.clock.head before.database command =
        some (.simpleError (ascii "ERR unknown command"), before.database) := by
      unfold dispatch findCommandDefinition
      rw [if_neg (ne_nil_of_nameOf hname), hname]
      rfl
    rw [runCommand, hdispatch] at h
    cases h
    exact fun _ => nofun

/-! ## Where numbers come from -/

/-- **How a `WAIT` gets its number.** -/
inductive WaitAnswer (phase : Phase) (before : Processor) (task : Task) (count : ℕ) : Prop
  | atOnce {env : Env} {clientId : ClientId} {words : Command} {source : CommandSource}
      {replicationBytes : ℕ} {request : WaitRequest}
      (hphase : phase = .task env (.command clientId words source replicationBytes))
      (htask : task = ⟨before.nextPromise, clientId, words, source, replicationBytes⟩)
      (hrequest : parseWaitRequest words = .ok request)
      (hcount : (before.replication.countAcknowledgedReplicas
        (writeOffset clientId before.replication)).1 = count)
      (henough : writeOffset clientId before.replication = 0 ∨ request.requiredReplicas ≤ count)
  | retried {pending : PendingWait} (hphase : phase = .retryWaits)
      (hpending : pending ∈ before.pendingWaits) (htask : pending.task = task)
      (hcount : (before.replication.countAcknowledgedReplicas pending.targetOffset).1 = count)
      (henough : pending.requiredReplicas ≤ count)
  | expired {now : Int} {pending : PendingWait} (hphase : phase = .expireWaits now)
      (hpending : pending ∈ before.pendingWaits) (htask : pending.task = task)
      (hcount : (before.replication.countAcknowledgedReplicas pending.targetOffset).1 = count)
      (hover : isOver now pending.deadline = true)

/-- The reply that a command adds is its own. -/
theorem task_of_taskEnd (h : TaskEnd env task before after)
    (hreply : reply ∈ after.replies.drop before.replies.length) : reply.task = task := by
  cases h with
  | answered hanswers _ =>
    rw [hanswers.replies, List.drop_left, List.mem_singleton] at hreply
    rw [hreply]
  | _ => simp at hreply

theorem waitAnswer_of_processTask {words : Command} {replicationBytes : ℕ}
    (h : { before with nextPromise := before.nextPromise + 1 }.processTask host env
      ⟨before.nextPromise, clientId, words, source, replicationBytes⟩ = some after)
    (hreply : reply ∈ after.replies.drop before.replies.length)
    (hname : nameOf reply.task.command = some .wait) {count : ℕ}
    (hcount : reply.response = .integer count) :
    WaitAnswer (.task env (.command clientId words source replicationBytes)) before reply.task
      count := by
  let task : Task := ⟨before.nextPromise, clientId, words, source, replicationBytes⟩
  let numbered := { before with nextPromise := before.nextPromise + 1 }
  have htask : reply.task = task := task_of_taskEnd (taskEnd_processTask h) hreply
  rw [htask] at hname ⊢
  have hanswer : ∀ {transaction : List Command} {response : Response},
      after.replies = before.replies ++ [⟨task, transaction, response⟩] →
        response = .integer count := by
    intro transaction response hreplies
    rw [hreplies, List.drop_left, List.mem_singleton] at hreply
    rwa [hreply] at hcount
  cases processTask_cases h with
  | refused _ _ hnegative _ =>
    exact absurd (hanswer rfl) (Response.ne_integer_of_negative hnegative _)
  | rejected _ => cases hanswer rfl
  | popped hother _ _ _ | read hother _ _ => exact absurd (hname.symm.trans hother) (by decide)
  | waited _ houtcome _ =>
    cases houtcome with
    | refused _ => cases hanswer rfl
    | answered hrequest _ henough =>
      have hcount' := Int.ofNat.inj (Response.integer.inj (hanswer rfl))
      exact .atOnce rfl rfl hrequest hcount' (hcount' ▸ henough)
    | waits _ _ _ => simp at hreply
  | @direct response middle _ hcommand _ =>
    obtain ⟨answer, hkind, hanswers⟩ := answers_direct hcommand
      (!numbered.hasTransaction clientId && isWriteCommand host words)
      (!responseIsError response) (numbered.transactionOf task)
    have hnumber := hanswer hanswers.replies
    rcases hkind with rfl | hnegative
    · exact absurd hnumber (noNumber_processCommand hname hcommand _)
    · exact absurd hnumber (Response.ne_integer_of_negative hnegative _)

/-! ## Passes over the blocked ones -/

/-- Some of these `WAIT`s got the number of sessions that have acknowledged their
offset; counting has not changed any of these numbers. -/
structure Counts (items : List PendingWait) (Good : PendingWait → ℕ → Prop)
    (before after : Processor) : Prop where
  counts : ∀ target, (after.replication.countAcknowledgedReplicas target).1 =
    (before.replication.countAcknowledgedReplicas target).1
  replies : ∃ answered, after.replies = before.replies ++ answered ∧
    ∀ reply ∈ answered, ∃ pending ∈ items, reply.task = pending.task ∧
      reply.response =
        .integer (before.replication.countAcknowledgedReplicas pending.targetOffset).1 ∧
      Good pending (before.replication.countAcknowledgedReplicas pending.targetOffset).1

namespace Counts

variable {items : List PendingWait} {Good : PendingWait → ℕ → Prop}

theorem refl (processor : Processor) : Counts items Good processor processor :=
  ⟨fun _ => rfl, [], by simp, by simp⟩

theorem trans {first second third : Processor} (h₁ : Counts items Good first second)
    (h₂ : Counts items Good second third) : Counts items Good first third where
  counts target := (h₂.counts target).trans (h₁.counts target)
  replies := by
    obtain ⟨answered₁, hreplies₁, hgood₁⟩ := h₁.replies
    obtain ⟨answered₂, hreplies₂, hgood₂⟩ := h₂.replies
    refine ⟨answered₁ ++ answered₂, by rw [hreplies₂, hreplies₁, List.append_assoc], ?_⟩
    intro reply hreply
    rcases List.mem_append.mp hreply with hreply | hreply
    · exact hgood₁ reply hreply
    · obtain ⟨pending, hpending, htask, hresponse, hgood⟩ := hgood₂ reply hreply
      rw [h₁.counts] at hresponse hgood
      exact ⟨pending, hpending, htask, hresponse, hgood⟩

theorem waitVisit {pending : PendingWait} (hpending : pending ∈ items) {processor : Processor}
    {outcome : Option PendingWait × Processor} (h : WaitVisit Good pending processor outcome) :
    Counts items Good processor outcome.2 := by
  cases h with
  | kept => exact .refl _
  | counted => exact ⟨count_of_pruned processor.replication pending.targetOffset, [], by simp, by simp⟩
  | answered hdue =>
    refine ⟨count_of_pruned processor.replication pending.targetOffset, _, rfl, ?_⟩
    exact List.forall_mem_singleton.mpr ⟨pending, hpending, rfl, rfl, hdue⟩

/-- Whom a pass over the `WAIT`s answers with a count. -/
theorem of_pass {visit : Unit → PendingWait → Processor → Option PendingWait × Processor}
    (hvisit : ∀ input pending processor,
      WaitVisit Good pending processor (visit input pending processor)) (inputs : Stream' Unit)
    {processor : Processor} {reply : Reply}
    (hreply : reply ∈ (Scan.scan visit inputs processor.pendingWaits processor).2.replies.drop
      processor.replies.length) {count : ℕ} (hcount : reply.response = .integer count) :
    ∃ pending ∈ processor.pendingWaits, pending.task = reply.task ∧
      (processor.replication.countAcknowledgedReplicas pending.targetOffset).1 = count ∧
      Good pending count := by
  have hscan : Counts processor.pendingWaits Good processor
      (Scan.scan visit inputs processor.pendingWaits processor).2 :=
    Scan.scan_relation refl (fun _ _ _ h₁ h₂ => h₁.trans h₂)
      (fun input pending state (_ : True) hpending =>
        waitVisit hpending (hvisit input pending state))
      inputs (fun _ => trivial) processor.pendingWaits (fun _ hpending => hpending) processor
  obtain ⟨answered, hreplies, hgood⟩ := hscan.replies
  rw [hreplies, List.drop_left] at hreply
  obtain ⟨pending, hpending, htask, hresponse, hgood⟩ := hgood reply hreply
  rw [hcount] at hresponse
  have hcount := (Int.ofNat.inj (Response.integer.inj hresponse)).symm
  exact ⟨pending, hpending, htask.symm, hcount, hcount ▸ hgood⟩

end Counts

/-- **Where the number of a `WAIT` comes from.** -/
theorem waitAnswer_of_reply {phase : Phase} (hholds : before.Holds host Regime.any)
    (h : phase.perform host before = some after)
    (hreply : reply ∈ after.replies.drop before.replies.length)
    (hname : nameOf reply.task.command = some .wait) {count : ℕ}
    (hcount : reply.response = .integer count) : WaitAnswer phase before reply.task count := by
  cases hsubmits : phase.submits with
  | some submit =>
    unfold Phase.submits at hsubmits
    split at hsubmits
    · exact waitAnswer_of_processTask h hreply hname hcount
    · cases hsubmits
  | none =>
    obtain ⟨answered, hsettles⟩ := settles_perform hsubmits h
    have hvisited : reply.task ∈ phase.visits before := by
      rw [hsettles.replies, List.drop_left] at hreply
      exact hsettles.visited reply hreply
    cases phase with
    | retryWaits =>
      cases h
      obtain ⟨pending, hpending, htask, hcount, henough⟩ :=
        Counts.of_pass waitVisit_retryWait (Stream'.const ()) hreply hcount
      exact .retried rfl hpending htask hcount henough
    | expireWaits now =>
      cases h
      obtain ⟨pending, hpending, htask, hcount, hover⟩ :=
        Counts.of_pass (waitVisit_expireWait now) (Stream'.const ()) hreply hcount
      exact .expired rfl hpending htask hcount hover
    | retryListPops _ | expireListPops _ =>
      obtain ⟨pending, hpending, htask⟩ := List.mem_map.mp hvisited
      cases (hholds.pops pending hpending).2.1.symm.trans (htask ▸ hname)
    | retryStreamReads _ | expireStreamReads _ =>
      obtain ⟨pending, hpending, htask⟩ := List.mem_map.mp hvisited
      cases (hholds.reads pending hpending).symm.trans (htask ▸ hname)
    | external _ => cases hvisited
    | task env work =>
      cases work with
      | unregisterClient clientId =>
        cases h
        rw [(settles_unregistration clientId before).replies, List.drop_left] at hreply
        obtain ⟨task, -, rfl⟩ := List.mem_map.mp hreply
        cases hcount
      | _ => cases hvisited

/-! ## Where a blocked one comes from -/

/-- The phase has blocked this `WAIT`. -/
structure Blocks (phase : Phase) (before : Processor) (pending : PendingWait) : Prop where
  submitted : ∃ env clientId words source replicationBytes request,
    phase = .task env (.command clientId words source replicationBytes) ∧
    parseWaitRequest words = .ok request ∧
    pending = ⟨⟨before.nextPromise, clientId, words, source, replicationBytes⟩,
      request.requiredReplicas, writeOffset clientId before.replication,
      request.timeout.map (deadlineAfter env.now)⟩
  written : pending.targetOffset ≠ 0

theorem blocks_processTask {words : Command} {replicationBytes : ℕ}
    (h : { before with nextPromise := before.nextPromise + 1 }.processTask host env
      ⟨before.nextPromise, clientId, words, source, replicationBytes⟩ = some after)
    {pending : PendingWait} (hpending : pending ∈ after.pendingWaits) :
    pending ∈ before.pendingWaits ∨
      Blocks (.task env (.command clientId words source replicationBytes)) before pending := by
  let task : Task := ⟨before.nextPromise, clientId, words, source, replicationBytes⟩
  let numbered := { before with nextPromise := before.nextPromise + 1 }
  cases taskEnd_processTask h with
  | answered hanswers _ => exact .inl (hanswers.waits ▸ hpending)
  | pops _ _ _ | reads _ _ _ _ => exact .inl hpending
  | waits _ _ hrequest hwritten =>
    rcases List.mem_append.mp hpending with hpending | hpending
    · exact .inl hpending
    · obtain rfl := List.mem_singleton.mp hpending
      exact .inr ⟨⟨env, clientId, words, source, replicationBytes, _, rfl, hrequest, rfl⟩,
        hwritten⟩

theorem blocks_perform {phase : Phase} (h : phase.perform host before = some after)
    {pending : PendingWait} (hpending : pending ∈ after.pendingWaits) :
    pending ∈ before.pendingWaits ∨ Blocks phase before pending := by
  cases hsubmits : phase.submits with
  | none =>
    obtain ⟨answered, hsettles⟩ := settles_perform hsubmits h
    exact .inl (hsettles.waits.subset hpending)
  | some submit =>
    unfold Phase.submits at hsubmits
    split at hsubmits
    · exact blocks_processTask h hpending
    · cases hsubmits

end Processor

end RedisServer
