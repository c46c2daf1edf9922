import RedisServer.Processor.Guests
import RedisServer.Processor.Recovery

/-!
# The link of a replica to its master

`consume_replication_stream` parses the commands that the master sends and has
them processed one by one, under the source `master`, whose commands are never
refused.  It waits for each reply, and it stops at an error.  A request for an
acknowledgement is answered with the offset before the request.

The worker serves other clients in between (`Turn`).  As long as nothing expires
they change nothing that the commands of the master depend on, and a stream of
units is applied to its end (`streams_units`).
-/

namespace RedisServer.Server

open Resp KeyedStore Commands Aof Framing Processor

variable {Timely : Clock → Prop}

/-! ## The link -/

inductive LinkStatus where
  | streaming
  /-- The reply to a command has not come. -/
  | blocked
  | failed (message : Bytes)
deriving DecidableEq, Repr

/-- The replica, as its link sees it. -/
structure MasterLink where
  processor : Processor
  status : LinkStatus := .streaming
  /-- The offsets that were sent back to the master. -/
  acknowledged : List ℕ := []

/-- What happens around one command of the stream: the phases that the worker goes
through before it reads the offset for an acknowledgement, before it takes the
command, and before the link looks at the reply. -/
structure Turn where
  env : Env
  asking : List Phase := []
  waiting : List Phase := []
  answering : List Phase := []
  /-- The acknowledgement cannot be sent. -/
  sendFailure : Option Bytes := none

/-- The response to the command that was submitted in an earlier state. -/
def answerSince (earlier processor : Processor) : Option Response :=
  ((processor.replies.drop earlier.replies.length).find? fun reply =>
    decide (reply.task.promise = earlier.nextPromise)).map Reply.response

namespace MasterLink

/-- What is left of the loop once the reply is there. -/
def conclude (sendFailure : Option Bytes) (acknowledgedOffset : Option ℕ)
    (response : Option Response) (link : MasterLink) : MasterLink :=
  match response with
  | none => { link with status := .blocked }
  | some (.simpleError message) =>
    { link with status := .failed (ascii "Failed to apply replicated command: " ++ message) }
  | some _ =>
    match acknowledgedOffset, sendFailure with
    | none, _ => link
    | some offset, none => { link with acknowledged := link.acknowledged ++ [offset] }
    | some _, some message =>
      { link with
        status := .failed (ascii "Failed to acknowledge replication offset: " ++ message) }

/-- One command of the stream, given how the worker gets through its phases. -/
def applyWith (host : Host) (work : List Phase → Processor → Option Processor) (turn : Turn)
    (command : Command) (bytesConsumed : ℕ) (link : MasterLink) : Option MasterLink :=
  (if command = getAckCommand then work turn.asking link.processor
    else some link.processor).bind fun asked =>
      (work turn.waiting asked).bind fun start =>
        ((ProcessorTask.command replicationClientId command .master bytesConsumed).perform host
          turn.env start).bind fun applied =>
            (work turn.answering applied).map fun answered =>
              { link with processor := answered }.conclude turn.sendFailure
                (if command = getAckCommand then some asked.replication.offset else none)
                (answerSince start answered)

/-- The body of the loop over the commands in the buffer. -/
def applyCommand (host : Host) (turn : Turn) (command : Command) (bytesConsumed : ℕ)
    (link : MasterLink) : Option MasterLink :=
  link.applyWith host (runPhases host) turn command bytesConsumed

end MasterLink

/-- The link, unless a command was undefined, and what is going to happen around the
next commands. -/
structure LinkRun where
  link : Option MasterLink
  turns : Stream' Turn

namespace LinkRun

def handle (host : Host) (command : Command) (bytesConsumed : ℕ) (run : LinkRun) : LinkRun :=
  ⟨run.link.bind (MasterLink.applyCommand host run.turns.head command bytesConsumed),
    run.turns.tail⟩

def fail (fault : ParseError) (run : LinkRun) : LinkRun :=
  { run with
    link := run.link.map fun link =>
      { link with
        status := .failed (ascii "Invalid command in replication stream: " ++ fault.message) } }

def stopped (run : LinkRun) : Bool :=
  match run.link with
  | none => true
  | some link => decide (link.status ≠ .streaming)

end LinkRun

/-- The loop over the commands in the buffer. -/
def linkReader (host : Host) : Reader UInt8 Command ParseError LinkRun where
  parse := parse
  handle := LinkRun.handle host
  fail := LinkRun.fail
  stopped := LinkRun.stopped
  stable := stable_parse
  stopped_fail fault run := by
    cases hlink : run.link <;> simp [LinkRun.fail, LinkRun.stopped, hlink]

/-- The loop over what `recv` returns, from what is already in the buffer. -/
def consumeReplicationStream (host : Host) (turns : Stream' Turn) (buffer : Bytes)
    (chunks : List Bytes) (link : MasterLink) : Bytes × LinkRun :=
  chunks.foldl (linkReader host).receive ((linkReader host).read buffer ⟨some link, turns⟩)

/-! ## One command -/

section Command

variable {host : Host}

/-- What never expires is not removed by a look. -/
theorem everlasting_looks {before after : Database} (h : Everlasting before)
    (hlooks : Looks Timely before after) : after = before := by
  induction hlooks with
  | refl => rfl
  | tail _ hstep ih =>
    obtain ⟨clock, -, hpurges⟩ := hstep
    subst ih
    exact hpurges.eq_of_no_stale fun key => not_stale_of_permanent (h key) clock

theorem propagateDirect_of_silent {disk : Disk} {task : Task} {processor : Processor}
    (hsilent : processor.Silent task.source disk) (writeCommand : Bool) (response : Response) :
    ∃ file, processor.propagateDirect disk task writeCommand response =
      (response, { processor with aofFile := file }) := by
  unfold propagateDirect
  cases writeCommand with
  | false => exact ⟨processor.aofFile, by simp⟩
  | true =>
    obtain ⟨file, hpropagate, -⟩ := @propagate_of_silent task.clientId task.source disk processor
      hsilent (serializeCommand (normalizeReplicationCommand task.command response))
    simp only [Bool.and_true]
    split
    · rw [hpropagate]
      exact ⟨file, rfl⟩
    · exact ⟨processor.aofFile, rfl⟩

/-- A command of the master is neither refused nor put off. -/
theorem perform_ofMaster {env : Env} {command : Command} {bytesConsumed : ℕ} {start : Processor}
    (hdirect : ¬ Blocking command) {reply : Response} {middle : Processor}
    (hsilent : middle.Silent .master env.disk)
    (hprocess : { start with nextPromise := start.nextPromise + 1 }.processCommand host
      env.toCommandEnv replicationClientId command .master = some (reply, middle)) :
    ∃ file offset transaction,
      (ProcessorTask.command replicationClientId command .master bytesConsumed).perform host env
          start =
        some ({ middle with
          aofFile := file, replication := { middle.replication with offset } }.fulfil
            ⟨start.nextPromise, replicationClientId, command, .master, bytesConsumed⟩ transaction
            reply) := by
  let task : Task := ⟨start.nextPromise, replicationClientId, command, .master, bytesConsumed⟩
  let numbered := { start with nextPromise := start.nextPromise + 1 }
  obtain ⟨file, hpropagate⟩ := @propagateDirect_of_silent env.disk task middle hsilent
    (!numbered.hasTransaction task.clientId && isWriteCommand host task.command) reply
  obtain ⟨offset, hfinish⟩ := @finishTask_direct task { middle with aofFile := file }
    (by simp [task]) env.replyNotification (numbered.transactionOf task)
    (!responseIsError reply) reply
  refine ⟨file, offset, numbered.transactionOf task, ?_⟩
  have hblpop : nameOf command ≠ some .blpop := fun h => hdirect (.inl h)
  have hxread : nameOf command ≠ some .xread := fun h => hdirect (.inr (.inl h))
  have hwait : nameOf command ≠ some .wait := fun h => hdirect (.inr (.inr h))
  have htask : numbered.processTask host env task = numbered.processDirect host env task := by
    unfold processTask
    simp [task, hblpop, hxread, hwait]
  rw [ProcessorTask.perform, htask, processDirect, hprocess, Option.map_some]
  refine congrArg some ?_
  simp only [hpropagate]
  exact hfinish

end Command

/-! ## The clients in between -/

/-- The worker's phases, or none of them if one is undefined. -/
def worked (host : Host) (phases : List Phase) (processor : Processor) : Option Processor :=
  some ((runPhases host phases processor).getD processor)

namespace Turn

def phases (turn : Turn) : List Phase := turn.asking ++ turn.waiting ++ turn.answering

/-- Around the command there are only clients, and neither the log nor the network
fails. -/
structure Undisturbed (turn : Turn) : Prop where
  guests : ∀ phase ∈ turn.phases, phase.IsGuest
  sends : turn.sendFailure = none
  logs : ∀ payload file, (append turn.env.disk payload file).1 = .ok ()

/-- No client submits anything. -/
def Quiet (turn : Turn) : Prop := ∀ phase ∈ turn.phases, ∀ env work, phase ≠ .task env work

end Turn

/-- The replica follows its master: no command of the master waits, or was answered
with an error. -/
structure Following (host : Host) (processor : Processor) : Prop where
  hosting : processor.Hosting host
  idle : processor.LinkIdle
  faultless : ∀ reply ∈ processor.replies, reply.task.isLink = true →
    faultless reply.response = true

section Turns

variable {host : Host} {processor : Processor}

theorem onTime_true (phase : Phase) : phase.OnTime fun _ => True := by
  cases phase with
  | task env work =>
    exact ⟨⟨fun _ => trivial, fun _ => trivial⟩, fun _ => ⟨fun _ => trivial, fun _ => trivial⟩⟩
  | retryListPops inputs => exact fun _ => trivial
  | retryStreamReads clocks => exact fun _ => trivial
  | _ => trivial

theorem guest_worked {phases : List Phase} (hguests : ∀ phase ∈ phases, phase.IsGuest)
    (hhosting : processor.Hosting host) (hidle : processor.LinkIdle) :
    Guest host (fun _ => True) processor ((runPhases host phases processor).getD processor) := by
  cases hrun : runPhases host phases processor with
  | none => exact .refl _
  | some after =>
    exact guest_run (fun phase _ => onTime_true phase) hguests hhosting hidle hrun

theorem Following.guest {before after : Processor} (h : Following host before)
    (hguest : Guest host Timely before after) :
    Following host after where
  hosting := h.hosting.guest hguest
  idle := h.idle.guest hguest
  faultless reply hreply hlink := by
    obtain ⟨answered, hreplies, hguests⟩ := hguest.replies
    rw [hreplies] at hreply
    rcases List.mem_append.mp hreply with hreply | hreply
    · exact h.faultless reply hreply hlink
    · rw [hguests reply hreply] at hlink
      cases hlink

theorem sameShare_of_guest {before after : Processor} (h : Guest host Timely before after) :
    SameShare replicationClientId before.transactions before.watchedKeys after :=
  ⟨h.transaction, h.watched⟩

theorem conclude_of_faultless {link : MasterLink} {response : Response}
    (hresponse : faultless response = true) (acknowledgedOffset : Option ℕ) :
    ∃ acknowledged, link.conclude none acknowledgedOffset (some response) =
      { link with acknowledged } := by
  cases response with
  | simpleError message => cases hresponse
  | _ => cases acknowledgedOffset <;> exact ⟨_, rfl⟩

/-- One command of the stream, for the processor alone. -/
def streamCommand (host : Host) (turn : Turn) (command : Command) (processor : Processor) :
    Option Processor :=
  (MasterLink.applyWith host (worked host) turn command (serializeCommand command).length
    { processor }).bind fun link =>
      if link.status = .streaming then some link.processor else none

/-- A command of the master does nothing that its clients would notice, apart from
what it writes. -/
theorem Following.applied {env : CommandEnv} {command : Command} {reply : Response}
    {start : Processor} (h : Following host start) {database : Database} {events : List Event}
    {transactions : AList fun _ : ClientId => TransactionState}
    {watchedKeys : AList fun _ : ClientId => AList fun _ : Bytes => ℕ}
    {file : Option AppendOnlyFile}
    (hprocess : start.processCommand host env replicationClientId command .master =
      some (reply, { start with database, events, transactions, watchedKeys, aofFile := file }))
    (hreply : Commands.faultless reply = true) (file' : Option AppendOnlyFile) (offset : ℕ)
    (task : Task) (transaction : List Command) :
    Following host ({ start with
      database, events, transactions, watchedKeys, aofFile := file'
      replication := { start.replication with offset } }.fulfil task transaction reply) where
  hosting :=
    { role := h.hosting.role
      queued := by
        intro clientId found hclient hfound
        have hsame := sameClient_command hclient (processCommand_cases hprocess)
        exact h.hosting.queued clientId found hclient (hsame.transaction ▸ hfound)
      pops := h.hosting.pops
      reads := h.hosting.reads
      waits := h.hosting.waits
      stranger := h.hosting.stranger }
  idle := ⟨h.idle.pops, h.idle.reads⟩
  faultless other hother hlink := by
    rcases List.mem_append.mp hother with hother | hother
    · exact h.faultless other hother hlink
    · rw [List.mem_singleton.mp hother]
      exact hreply

/-- **The link hands the commands of the master to the processor.** -/
theorem drives_streamCommand (host : Host) :
    Drives host replicationClientId .master (fun turn : Turn => turn.env.toCommandEnv)
      Turn.Undisturbed (Following host) (streamCommand host) where
  applies turn command processor hturn hfollowing heverlasting hdirect := by
    have hphases : ∀ phases, (∀ phase ∈ phases, phase ∈ turn.phases) → ∀ state,
        Following host state →
        Guest host (fun _ => True) state ((runPhases host phases state).getD state) :=
      fun phases hphases state hstate => guest_worked
        (fun phase hphase => hturn.guests phase (hphases phase hphase)) hstate.hosting hstate.idle
    -- Before the command is taken.
    let asked := if command = getAckCommand then
      (runPhases host turn.asking processor).getD processor else processor
    have hasked : Guest host (fun _ => True) processor asked := by
      by_cases hask : command = getAckCommand
      · simp only [asked, if_pos hask]
        exact hphases _ (by simp +contextual [Turn.phases]) processor hfollowing
      · simp only [asked, if_neg hask]
        exact .refl _
    let waited := (runPhases host turn.waiting asked).getD asked
    have hwaited : Guest host (fun _ => True) processor waited :=
      hasked.trans (hphases _ (by simp +contextual [Turn.phases]) asked (hfollowing.guest hasked))
    let start := { waited with nextPromise := waited.nextPromise + 1 }
    have hstart : Guest host (fun _ => True) processor start :=
      hwaited.trans (.nextPromise waited _)
    have hrole : start.replicates .master = false := by simp [replicates]
    refine ⟨start, everlasting_looks heverlasting hstart.looked, sameShare_of_guest hstart,
      ⟨hrole, fun _ => hturn.logs⟩, ?_⟩
    intro reply database events transactions watchedKeys file hprocess _ hreply heverlasting'
    obtain ⟨file', offset, transaction, hperform⟩ := @perform_ofMaster host turn.env command
      (serializeCommand command).length waited hdirect reply
      { start with database, events, transactions, watchedKeys, aofFile := file }
      ⟨hrole, fun _ => hturn.logs⟩ hprocess
    let task : Task := ⟨waited.nextPromise, replicationClientId, command, .master,
      (serializeCommand command).length⟩
    let applied := { start with
      database, events, transactions, watchedKeys, aofFile := file'
      replication := { start.replication with offset } }.fulfil task transaction reply
    have happlied : Following host applied :=
      (hfollowing.guest hstart).applied hprocess hreply file' offset task transaction
    -- After the command was processed.
    let answered := (runPhases host turn.answering applied).getD applied
    have hanswered : Guest host (fun _ => True) applied answered :=
      hphases _ (by simp +contextual [Turn.phases]) applied happlied
    obtain ⟨later, hlater, -⟩ := hanswered.replies
    have hreplies : answered.replies =
        waited.replies ++ ⟨task, transaction, reply⟩ :: later := by
      rw [hlater]
      simp [applied, start, fulfil]
    have hanswer : answerSince waited answered = some reply := by
      rw [answerSince, hreplies, List.drop_left, List.find?_cons_of_pos (by simp [task])]
      rfl
    obtain ⟨acknowledged, hconclude⟩ := @conclude_of_faultless { processor := answered } reply
      hreply (if command = getAckCommand then some asked.replication.offset else none)
    refine ⟨answered, ?_, happlied.guest hanswered, everlasting_looks heverlasting' hanswered.looked,
      sameShare_of_guest hanswered⟩
    have hask : (if command = getAckCommand then worked host turn.asking processor
        else some processor) = some asked := by
      simp only [asked, worked]
      split <;> rfl
    have happly : MasterLink.applyWith host (worked host) turn command
        (serializeCommand command).length { processor } =
          some { processor := answered, acknowledged } := by
      unfold MasterLink.applyWith
      simp only [hask, Option.bind_some]
      rw [show worked host turn.waiting asked = some waited from rfl, Option.bind_some, hperform,
        Option.bind_some]
      rw [show worked host turn.answering applied = some answered from rfl]
      simp only [Option.map_some, hanswer, hturn.sends]
      exact congrArg some hconclude
    rw [streamCommand, happly]
    rfl

/-! ### From the processor to the link -/

theorem conclude_acknowledged (sendFailure : Option Bytes) (acknowledgedOffset : Option ℕ)
    (response : Option Response) (link : MasterLink) :
    link.conclude sendFailure acknowledgedOffset response =
      { ({ link with acknowledged := [] }.conclude sendFailure acknowledgedOffset response) with
        acknowledged := link.acknowledged ++
          ({ link with acknowledged := [] }.conclude sendFailure acknowledgedOffset
            response).acknowledged } := by
  rcases response with _ | response
  · simp [MasterLink.conclude]
  · cases response <;> cases acknowledgedOffset <;> cases sendFailure <;>
      simp [MasterLink.conclude]

/-- What was acknowledged before has no influence. -/
theorem applyWith_acknowledged {work : List Phase → Processor → Option Processor} {turn : Turn}
    {command : Command} {bytesConsumed : ℕ} {link next : MasterLink}
    (h : { link with acknowledged := [] }.applyWith host work turn command bytesConsumed =
      some next) :
    link.applyWith host work turn command bytesConsumed =
      some { next with acknowledged := link.acknowledged ++ next.acknowledged } := by
  unfold MasterLink.applyWith at h ⊢
  obtain ⟨asked, hasked, h⟩ := Option.bind_eq_some_iff.mp h
  obtain ⟨start, hstart, h⟩ := Option.bind_eq_some_iff.mp h
  obtain ⟨applied, happlied, h⟩ := Option.bind_eq_some_iff.mp h
  obtain ⟨answered, hanswered, rfl⟩ := Option.map_eq_some_iff.mp h
  simp only [hasked, hstart, happlied, hanswered, Option.bind_some, Option.map_some]
  rw [conclude_acknowledged]

/-- Only a task can be undefined. -/
theorem isSome_runPhases {phases : List Phase}
    (h : ∀ phase ∈ phases, ∀ env work, phase ≠ .task env work) (processor : Processor) :
    (runPhases host phases processor).isSome = true := by
  induction phases generalizing processor with
  | nil => rfl
  | cons phase rest ih =>
    have hrest := ih fun other hother => h other (by simp [hother])
    cases phase with
    | task env work => exact (h _ (by simp) env work rfl).elim
    | _ => exact hrest _

theorem runPhases_cases (phases : List Phase) (processor : Processor) :
    (runPhases host phases processor = none ∧
        ¬ ∀ phase ∈ phases, ∀ env work, phase ≠ .task env work) ∨
      runPhases host phases processor = worked host phases processor := by
  cases hrun : runPhases host phases processor with
  | none =>
    refine .inl ⟨rfl, fun htasks => ?_⟩
    have hsome := @isSome_runPhases host _ htasks processor
    rw [hrun] at hsome
    cases hsome
  | some after => exact .inr (by simp [worked, hrun])

/-- Either one of the worker's phases was undefined, or all of them were gone
through. -/
theorem applyCommand_cases (turn : Turn) (command : Command) (bytesConsumed : ℕ)
    (link : MasterLink) :
    (link.applyCommand host turn command bytesConsumed = none ∧ ¬ turn.Quiet) ∨
      link.applyCommand host turn command bytesConsumed =
        link.applyWith host (worked host) turn command bytesConsumed := by
  have hcases : ∀ phases, (∀ phase ∈ phases, phase ∈ turn.phases) → ∀ state,
      (runPhases host phases state = none ∧ ¬ turn.Quiet) ∨
        runPhases host phases state = worked host phases state := by
    intro phases hphases state
    exact (runPhases_cases phases state).imp_left fun hnone => ⟨hnone.1, fun hquiet =>
      hnone.2 fun phase hphase => hquiet phase (hphases phase hphase)⟩
  unfold MasterLink.applyCommand MasterLink.applyWith
  have hask : ((if command = getAckCommand then runPhases host turn.asking link.processor
        else some link.processor) = none ∧ ¬ turn.Quiet) ∨
      (if command = getAckCommand then runPhases host turn.asking link.processor
        else some link.processor) =
        (if command = getAckCommand then worked host turn.asking link.processor
          else some link.processor) := by
    split
    · exact hcases _ (by simp +contextual [Turn.phases]) _
    · exact .inr rfl
  rcases hask with ⟨hnone, hloud⟩ | hask
  · exact .inl ⟨by rw [hnone]; rfl, hloud⟩
  rw [hask]
  cases (if command = getAckCommand then worked host turn.asking link.processor
    else some link.processor) with
  | none => exact .inr rfl
  | some asked =>
    simp only [Option.bind_some]
    rcases hcases turn.waiting (by simp +contextual [Turn.phases]) asked with
      ⟨hnone, hloud⟩ | hwait
    · exact .inl ⟨by rw [hnone]; rfl, hloud⟩
    rw [hwait]
    simp only [worked, Option.bind_some]
    cases (ProcessorTask.command replicationClientId command .master bytesConsumed).perform host
        turn.env ((runPhases host turn.waiting asked).getD asked) with
    | none => exact .inr rfl
    | some applied =>
      simp only [Option.bind_some]
      rcases hcases turn.answering (by simp +contextual [Turn.phases]) applied with
        ⟨hnone, hloud⟩ | hanswer
      · exact .inl ⟨by rw [hnone]; rfl, hloud⟩
      · exact .inr (by rw [hanswer]; rfl)

/-- The loop over the commands, each with the bytes it takes. -/
def streamCommands (host : Host) (commands : List Command) (run : LinkRun) : LinkRun :=
  commands.foldl (fun run command =>
    if run.stopped then run else run.handle host command (serializeCommand command).length) run

theorem streamCommands_undefined (commands : List Command) (turns : Stream' Turn) :
    streamCommands host commands ⟨none, turns⟩ = ⟨none, turns⟩ := by
  induction commands with
  | nil => rfl
  | cons command rest ih => exact ih

/-- What the processor gets through, the link does, unless a client's command was
undefined. -/
theorem streamCommands_of_runWith {commands : List Command} {turns : Stream' Turn}
    {link : MasterLink} (hstreaming : link.status = .streaming) {final : Processor}
    (h : Runs.runWith (streamCommand host) commands turns link.processor = some final) :
    ((streamCommands host commands ⟨some link, turns⟩).link = none ∧
        ¬ ∀ n, (turns.get n).Quiet) ∨
      ∃ after, (streamCommands host commands ⟨some link, turns⟩).link = some after ∧
        after.processor = final ∧ after.status = .streaming := by
  induction commands generalizing turns link with
  | nil =>
    cases h
    exact .inr ⟨link, rfl, rfl, hstreaming⟩
  | cons command rest ih =>
    obtain ⟨processed, hcommand, hrest⟩ := Option.bind_eq_some_iff.mp h
    obtain ⟨next, happly, hnext⟩ := Option.bind_eq_some_iff.mp hcommand
    have hgoes : streamCommands host (command :: rest) ⟨some link, turns⟩ =
        streamCommands host rest (LinkRun.handle host command (serializeCommand command).length
          ⟨some link, turns⟩) := by
      simp [streamCommands, LinkRun.stopped, hstreaming]
    rw [hgoes]
    rcases @applyCommand_cases host turns.head command (serializeCommand command).length link
      with ⟨hundefined, hloud⟩ | hdefined
    · -- One of the clients' commands was undefined, and that is the end of it.
      have hhandle : LinkRun.handle host command (serializeCommand command).length
          ⟨some link, turns⟩ = ⟨none, turns.tail⟩ := by
        simp [LinkRun.handle, hundefined]
      rw [hhandle, streamCommands_undefined]
      exact .inl ⟨rfl, fun hquiet => hloud (hquiet 0)⟩
    · have hstart : { link with acknowledged := [] } = { processor := link.processor } := by
        cases link
        cases hstreaming
        rfl
      split at hnext
      · rename_i hgoesOn
        cases hnext
        have hcontinues := applyWith_acknowledged (hstart ▸ happly)
        have hhandle : LinkRun.handle host command (serializeCommand command).length
            ⟨some link, turns⟩ = ⟨some { next with
              acknowledged := link.acknowledged ++ next.acknowledged }, turns.tail⟩ := by
          simp [LinkRun.handle, hdefined, hcontinues]
        rw [hhandle]
        refine Or.imp_left (And.imp_right fun hloud hquiet => ?_) (ih hgoesOn hrest)
        exact hloud fun n => hquiet (n + 1)
      · cases hnext

/-- **A stream of units is applied to its end**, however it is cut into pieces and
whatever the clients of the replica do in between, unless one of their commands is
undefined. -/
theorem streams_units {original : Database} {units : List StreamUnit}
    (hproper : ∀ unit ∈ units, unit.Proper)
    (hsized : ∀ command ∈ units.flatMap StreamUnit.writes, Sized command)
    (hfollowing : Following host processor) (hready : processor.Ready replicationClientId)
    (hreproduces : Reproduces host original (units.flatMap StreamUnit.writes) processor.database)
    {turns : Stream' Turn} (hturns : ∀ n, (turns.get n).Undisturbed) {buffer : Bytes}
    {chunks : List Bytes} (hbytes : buffer ++ chunks.flatten = units.flatMap StreamUnit.payload) :
    let outcome := consumeReplicationStream host turns buffer chunks { processor }
    (outcome.2.link = none ∧ ¬ ∀ n, (turns.get n).Quiet) ∨
      ∃ link, outcome.1 = [] ∧ outcome.2.link = some link ∧ link.status = .streaming ∧
        Following host link.processor ∧ Mirrors link.processor.database original := by
  intro outcome
  have hbetween : Drives.Between replicationClientId host original
      (units.flatMap StreamUnit.writes ++ []) processor := ⟨hready, by rwa [List.append_nil]⟩
  obtain ⟨final, hrun, hfinal, hmirrors⟩ :=
    ((drives_streamCommand host).units hproper hfollowing hbetween).runWith hturns
  have hencode : ∀ command ∈ units.flatMap StreamUnit.commands, ∀ rest,
      (linkReader host).parse (serializeCommand command ++ rest) =
        some (.ok (command, (serializeCommand command).length)) :=
    fun command hcommand rest => parse_serializeCommand (sized_commands hsized command hcommand) rest
  rw [flatMap_payload] at hbytes
  obtain ⟨hstate, hwhole⟩ := (linkReader host).foldl_receive chunks buffer ⟨some { processor }, turns⟩
  rw [hbytes] at hstate hwhole
  have hlink := hstate.trans (Reader.read_flatMap hencode ⟨some { processor }, turns⟩)
  rcases @streamCommands_of_runWith host _ turns { processor } rfl final hrun with
    ⟨hnone, hloud⟩ | ⟨link, hsome, rfl, hstreaming⟩
  · exact .inl ⟨(congrArg LinkRun.link hlink).trans hnone, hloud⟩
  · have hsome' : outcome.2.link = some link := (congrArg LinkRun.link hlink).trans hsome
    have hrunning : outcome.2.stopped = false := by simp [LinkRun.stopped, hsome', hstreaming]
    have hwhole' := hwhole (hstate ▸ hrunning)
    refine .inr ⟨link, ?_, hsome', hstreaming, hfinal, hmirrors.reproduces⟩
    refine (congrArg Prod.fst hwhole').trans (Reader.read_flatMap_running hencode ?_)
    exact hstate ▸ hrunning

end Turns

end RedisServer.Server
