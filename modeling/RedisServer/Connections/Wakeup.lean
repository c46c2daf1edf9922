import RedisServer.Connections
import RedisServer.Library.Runs

/-!
# No wakeup is lost

A Pub/Sub session is shared by the worker, which puts frames into its queue, and
the thread of its connection, which sleeps in `poll` until the descriptor of the
session becomes readable.  The worker writes to the descriptor only when it puts a
frame into an empty queue; the connection resets the descriptor before it empties
the queue.

The steps are as fine as the source allows: `enqueue` and `pop_frame` hold the
mutex of the session, while the write inside `enqueue` and the read of
`clear_notification` are system calls of their own, so that a read may come
between a push and the write that belongs to it.

A pending frame is never forgotten, because the descriptor is readable or the
connection is just emptying the queue (`Watched`).
-/

namespace RedisServer

variable {session : PubSubSession}

/-- Where the thread of a connection is. -/
inductive Consumer where
  /-- In `poll`. -/
  | waiting
  /-- About to call `clear_notification`, at the start of `send_pending_pubsub_frames`. -/
  | clearing
  /-- In the loop that pops and sends frames. -/
  | draining
  /-- With the commands of its client, or on the way back to `poll`. -/
  | serving
  /-- It has left the loop for good. -/
  | closed
deriving DecidableEq, Repr

/-- A session and its two threads. -/
structure PubSubSession where
  pendingFrames : List Bytes := []
  /-- The counter of the event descriptor. -/
  counter : ℕ := 0
  /-- A producer has put a frame into the empty queue and holds the mutex; its write
  comes next. -/
  notifying : Bool := false
  consumer : Consumer := .serving
  /-- The frames of the calls of `enqueue` that succeeded. -/
  enqueued : List Bytes := []
  /-- The frames that were popped. -/
  popped : List Bytes := []
deriving DecidableEq, Repr

namespace PubSubSession

inductive Step where
  /-- A producer takes the mutex and pushes; it is done if the queue was not empty. -/
  | push (frame : Bytes)
  /-- Its write succeeds, or finds the counter full. -/
  | write
  /-- Its write is interrupted and is made again. -/
  | writeInterrupted
  /-- Its write fails, and the frame is taken back. -/
  | writeFailed
  /-- `poll` returns because the descriptor of the session is readable. -/
  | wake
  /-- `poll` returns because of the client. -/
  | input
  /-- The read of `clear_notification`, which also succeeds on an empty counter. -/
  | clear
  | pop
  /-- `pop_frame` finds the queue empty, which ends the loop. -/
  | popNothing
  /-- A command was answered through the session, which starts a drain. -/
  | queued
  /-- Back to `poll`. -/
  | poll
  /-- An error on either descriptor, or the end of the client. -/
  | close
deriving DecidableEq, Repr

/-- The largest value of the counter. -/
def maximalCounter : ℕ := 2 ^ 64 - 2

/-- A step, if it can be taken. -/
def perform (step : Step) (session : PubSubSession) : Option PubSubSession :=
  match step with
  | .push frame =>
    if session.notifying then none
    else if session.pendingFrames = [] then
      some { session with pendingFrames := [frame], notifying := true }
    else
      some
        { session with
          pendingFrames := session.pendingFrames ++ [frame]
          enqueued := session.enqueued ++ [frame] }
  | .write =>
    if session.notifying then
      some
        { session with
          counter := if session.counter < maximalCounter then session.counter + 1
            else session.counter
          notifying := false
          enqueued := session.enqueued ++ session.pendingFrames.getLast?.toList }
    else none
  | .writeInterrupted => if session.notifying then some session else none
  | .writeFailed =>
    if session.notifying then
      some
        { session with pendingFrames := session.pendingFrames.dropLast, notifying := false }
    else none
  | .wake =>
    if session.consumer = .waiting ∧ 0 < session.counter then
      some { session with consumer := .clearing }
    else none
  | .input =>
    if session.consumer = .waiting then some { session with consumer := .serving } else none
  | .clear =>
    if session.consumer = .clearing then
      some { session with counter := 0, consumer := .draining }
    else none
  | .pop =>
    if session.consumer = .draining ∧ session.notifying = false then
      match session.pendingFrames with
      | [] => none
      | frame :: rest =>
        some { session with pendingFrames := rest, popped := session.popped ++ [frame] }
    else none
  | .popNothing =>
    if session.consumer = .draining ∧ session.notifying = false ∧
        session.pendingFrames = [] then
      some { session with consumer := .serving }
    else none
  | .queued =>
    if session.consumer = .serving then some { session with consumer := .clearing } else none
  | .poll =>
    if session.consumer = .serving then some { session with consumer := .waiting } else none
  | .close => some { session with consumer := .closed }

/-- A run of the two threads. -/
abbrev run (steps : List Step) (session : PubSubSession) : Option PubSubSession :=
  Runs.run perform steps session

/-! ## The call of `enqueue` as a whole -/

/-- What the write of an `enqueue` comes to. -/
def Step.ofNotification : Notification → Step
  | none => .write
  | some _ => .writeFailed

/-- A call of `enqueue` with no step of the connection in between. -/
def enqueue (notification : Notification) (frame : Bytes) (session : PubSubSession) :
    Option PubSubSession :=
  (perform (.push frame) session).bind fun pushed =>
    if pushed.notifying then perform (.ofNotification notification) pushed else some pushed

/-! ## The invariant -/

/-- A pending frame is watched over: the descriptor is readable, or its producer is
about to write to it, or the connection is in its loop. -/
def Watched (session : PubSubSession) : Prop :=
  session.pendingFrames ≠ [] → session.notifying = false →
    0 < session.counter ∨ session.consumer = .draining ∨ session.consumer = .closed

/-- The frames whose `enqueue` has succeeded are popped or pending, in their order. -/
def Accounted (session : PubSubSession) : Prop :=
  if session.notifying then
    session.popped = session.enqueued ∧ session.pendingFrames.length = 1
  else session.popped ++ session.pendingFrames = session.enqueued

/-- What holds whenever neither thread is inside a step. -/
structure Sound (session : PubSubSession) : Prop where
  watched : session.Watched
  accounted : session.Accounted

theorem sound_new : Sound {} :=
  ⟨fun hpending => absurd rfl hpending, rfl⟩

theorem counter_pos_of_write {after : PubSubSession}
    (hwrite : perform .write session = some after) : 0 < after.counter := by
  simp only [perform] at hwrite
  split at hwrite
  · cases hwrite
    simp only
    split
    · exact Nat.succ_pos _
    -- A full counter is positive already.
    · unfold maximalCounter at *
      omega
  · cases hwrite

theorem sound_perform {step : Step} {before after : PubSubSession} (h : before.Sound)
    (hperform : perform step before = some after) : after.Sound := by
  obtain ⟨hwatched, haccounted⟩ := h
  cases step with
  | push frame =>
    simp only [perform] at hperform
    split at hperform
    · cases hperform
    rename_i hfree
    rw [Bool.not_eq_true] at hfree
    rw [Accounted, hfree] at haccounted
    split at hperform
    · -- The queue was empty, so everything that was accepted has been popped.
      rename_i hempty
      cases hperform
      refine ⟨fun _ hdone => absurd hdone (by simp), ?_⟩
      rw [hempty] at haccounted
      simpa [Accounted] using haccounted
    · rename_i hpending
      cases hperform
      refine ⟨fun _ _ => hwatched hpending hfree, ?_⟩
      simp only [Accounted, hfree, Bool.false_eq_true, if_false] at haccounted ⊢
      rw [← haccounted, List.append_assoc]
  | write =>
    have hwritten := hperform
    simp only [perform] at hperform
    split at hperform
    · rename_i hnotifying
      cases hperform
      simp only [Accounted, hnotifying, if_true] at haccounted
      obtain ⟨hpopped, hlength⟩ := haccounted
      obtain ⟨frame, hframe⟩ := List.length_eq_one_iff.mp hlength
      exact ⟨fun _ _ => .inl (counter_pos_of_write hwritten),
        by simp [Accounted, hpopped, hframe]⟩
    · cases hperform
  | writeInterrupted =>
    simp only [perform] at hperform
    split at hperform
    · cases hperform
      exact ⟨hwatched, haccounted⟩
    · cases hperform
  | writeFailed =>
    simp only [perform] at hperform
    split at hperform
    · rename_i hnotifying
      cases hperform
      simp only [Accounted, hnotifying, if_true] at haccounted
      obtain ⟨hpopped, hlength⟩ := haccounted
      obtain ⟨frame, hframe⟩ := List.length_eq_one_iff.mp hlength
      exact ⟨fun hpending => absurd (by simp [hframe]) hpending,
        by simp [Accounted, hpopped, hframe]⟩
    · cases hperform
  | wake =>
    simp only [perform] at hperform
    split at hperform
    · rename_i hready
      cases hperform
      exact ⟨fun _ _ => .inl hready.2, haccounted⟩
    · cases hperform
  | input =>
    simp only [perform] at hperform
    split at hperform
    · rename_i hwaiting
      cases hperform
      refine ⟨fun hpending hfree => ?_, haccounted⟩
      rcases hwatched hpending hfree with hcounter | hdraining | hclosed
      · exact .inl hcounter
      · rw [hwaiting] at hdraining
        cases hdraining
      · rw [hwaiting] at hclosed
        cases hclosed
    · cases hperform
  | clear =>
    simp only [perform] at hperform
    split at hperform
    · cases hperform
      exact ⟨fun _ _ => .inr (.inl rfl), haccounted⟩
    · cases hperform
  | pop =>
    simp only [perform] at hperform
    split at hperform
    · rename_i hready
      split at hperform
      · cases hperform
      · rename_i frame rest hpending
        cases hperform
        refine ⟨fun _ _ => .inr (.inl hready.1), ?_⟩
        simp only [Accounted, hready.2, Bool.false_eq_true, if_false, hpending] at haccounted ⊢
        rw [← haccounted, List.append_assoc]
        rfl
    · cases hperform
  | popNothing =>
    simp only [perform] at hperform
    split at hperform
    · rename_i hready
      cases hperform
      exact ⟨fun hpending => absurd hready.2.2 hpending, haccounted⟩
    · cases hperform
  | queued | poll =>
    simp only [perform] at hperform
    split at hperform
    · rename_i hserving
      cases hperform
      refine ⟨fun hpending hfree => ?_, haccounted⟩
      rcases hwatched hpending hfree with hcounter | hdraining | hclosed
      · exact .inl hcounter
      · rw [hserving] at hdraining
        cases hdraining
      · rw [hserving] at hclosed
        cases hclosed
    · cases hperform
  | close =>
    cases hperform
    exact ⟨fun _ _ => .inr (.inr rfl), haccounted⟩

theorem sound_run {steps : List Step} (hrun : run steps {} = some session) : session.Sound :=
  Runs.run_invariant (fun _ _ _ (_ : True) => sound_perform) (fun _ _ => trivial) sound_new hrun

/-- The pending frames whose `enqueue` has returned. -/
def settled (session : PubSubSession) : List Bytes :=
  if session.notifying then session.pendingFrames.dropLast else session.pendingFrames

theorem Sound.popped_append_settled (h : session.Sound) :
    session.popped ++ session.settled = session.enqueued := by
  have haccounted := h.accounted
  cases hnotifying : session.notifying with
  | false => simpa [Accounted, settled, hnotifying] using haccounted
  | true =>
    simp only [Accounted, hnotifying, if_true] at haccounted
    obtain ⟨hpopped, hlength⟩ := haccounted
    obtain ⟨frame, hframe⟩ := List.length_eq_one_iff.mp hlength
    simp [settled, hnotifying, hframe, hpopped]

/-- A frame that awaits a sleeping connection has made the descriptor readable, or
is about to. -/
theorem Sound.counter_pos (h : session.Sound) (hwaiting : session.consumer = .waiting)
    (hpending : session.pendingFrames ≠ []) (hfree : session.notifying = false) :
    0 < session.counter := by
  rcases h.watched hpending hfree with hcounter | hdraining | hclosed
  · exact hcounter
  · rw [hwaiting] at hdraining
    cases hdraining
  · rw [hwaiting] at hclosed
    cases hclosed

/-! ## The connection empties the queue -/

/-- The loop pops what is pending and ends. -/
theorem run_pops {session : PubSubSession} (hdraining : session.consumer = .draining)
    (hfree : session.notifying = false) :
    run (List.replicate session.pendingFrames.length .pop ++ [.popNothing]) session =
      some
        { session with
          pendingFrames := []
          popped := session.popped ++ session.pendingFrames
          consumer := .serving } := by
  obtain ⟨pending, counter, notifying, consumer, enqueued, popped⟩ := session
  obtain rfl : consumer = .draining := hdraining
  obtain rfl : notifying = false := hfree
  induction pending generalizing popped with
  | nil => simp [run, Runs.run, perform]
  | cons frame rest ih =>
    have hpop : perform .pop
        ⟨frame :: rest, counter, false, .draining, enqueued, popped⟩ =
          some ⟨rest, counter, false, .draining, enqueued, popped ++ [frame]⟩ := rfl
    rw [List.length_cons, List.replicate_succ, List.cons_append, run, Runs.run_cons, hpop,
      Option.bind_some]
    simpa using ih (popped ++ [frame])

/-- What the connection does after `poll` when nothing comes in between. -/
def drain (session : PubSubSession) : List Step :=
  .wake :: .clear :: (List.replicate session.pendingFrames.length .pop ++ [.popNothing])

theorem run_drain (hwaiting : session.consumer = .waiting) (hfree : session.notifying = false)
    (hcounter : 0 < session.counter) :
    run session.drain session =
      some
        { session with
          pendingFrames := []
          counter := 0
          popped := session.popped ++ session.pendingFrames
          consumer := .serving } := by
  have hwake : perform .wake session = some { session with consumer := .clearing } :=
    if_pos ⟨hwaiting, hcounter⟩
  have hclear : perform .clear { session with consumer := .clearing } =
      some { session with counter := 0, consumer := .draining } := rfl
  rw [drain, run, Runs.run_cons, hwake, Option.bind_some, Runs.run_cons, hclear,
    Option.bind_some]
  exact @run_pops { session with counter := 0, consumer := .draining } rfl hfree

/-- **No lost wakeup**: in every interleaving of the two threads, a frame that waits
for a sleeping connection has made its descriptor readable, unless its producer is
still inside `enqueue`, whose write then makes it readable; the frames popped so far
and those still pending are the frames that were accepted, in their order; and the
connection, once it gets to run, pops them all. -/
theorem no_lost_wakeup {steps : List Step} {session : PubSubSession}
    (hrun : run steps {} = some session) :
    (session.consumer = .waiting → session.pendingFrames ≠ [] →
      0 < session.counter ∨
        session.notifying = true ∧
          ∀ after, perform .write session = some after → 0 < after.counter) ∧
    session.popped ++ session.settled = session.enqueued ∧
    (session.consumer = .waiting → session.notifying = false → session.pendingFrames ≠ [] →
      ∃ drained, run session.drain session = some drained ∧
        drained.consumer = .serving ∧ drained.popped = session.enqueued) := by
  have hsound := sound_run hrun
  refine ⟨fun hwaiting hpending => ?_, hsound.popped_append_settled,
    fun hwaiting hfree hpending => ?_⟩
  · cases hfree : session.notifying with
    | false => exact .inl (hsound.counter_pos hwaiting hpending hfree)
    | true => exact .inr ⟨rfl, fun _ => counter_pos_of_write⟩
  · have hcounter := hsound.counter_pos hwaiting hpending hfree
    refine ⟨_, run_drain hwaiting hfree hcounter, rfl, ?_⟩
    have hsettled := hsound.popped_append_settled
    rwa [settled, hfree] at hsettled

/-- The second frame is pushed between the reset of the descriptor and the first
pop, so nobody writes for it; the third one finds the queue empty after the loop. -/
def overtakingRun : List Step :=
  [.poll, .push [97], .write, .wake, .clear, .push [98], .pop, .pop, .popNothing, .push [99],
    .poll, .write]

theorem no_lost_wakeup_overtaking :
    ∃ session, run overtakingRun {} = some session ∧ session.consumer = .waiting ∧
      session.pendingFrames = [[99]] ∧ 0 < session.counter ∧
      session.popped ++ session.settled = session.enqueued := by
  have hrun : run overtakingRun {} = some ⟨[[99]], 1, false, .waiting, [[97], [98], [99]],
    [[97], [98]]⟩ := by decide
  obtain ⟨hcounter, horder, -⟩ := no_lost_wakeup hrun
  refine ⟨_, hrun, rfl, rfl, ?_, horder⟩
  exact (hcounter rfl (by simp)).resolve_right (by simp)

end PubSubSession

end RedisServer
