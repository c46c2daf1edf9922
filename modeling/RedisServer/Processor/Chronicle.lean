import RedisServer.Processor.History
import RedisServer.Replication.Stream

/-!
# What the worker does

Every phase of the worker is a sequence of deeds: a command that ran for a task,
a transaction, a reply without any effect, a request for acknowledgements, or a
recovery from a file.  A deed determines what happens to the database, which
promise is fulfilled and how, and what goes into the log and to the replicas.
The relation `Chronicle` says so for two states of the processor and the deeds
in between.

Every phase has a chronicle (`proceeds_perform`), and chronicles compose.  So a
fact about whole runs is proved about deeds, and the functions of the processor
are opened here and nowhere else.
-/

namespace RedisServer

open Resp KeyedStore Commands Aof Replication

variable {before after : Processor} {deeds : List Deed} {disk : Disk} {result : Except Bytes Unit}

/-- What is assumed about the inputs of a run. -/
structure Regime where
  /-- The readings of the clocks. -/
  Timely : Clock → Prop
  /-- The behaviour of the disk. -/
  Safe : Disk → Prop
  /-- The commands that are submitted. -/
  Ordered : Task → Prop
  /-- The replica sessions that nobody closes or drops. -/
  Kept : SessionId → Prop
  /-- Files may be read. -/
  Recovers : Prop

/-- The command of a task that may be submitted. -/
def Regime.Queueable (regime : Regime) (command : Command) : Prop :=
  ∃ task, regime.Ordered task ∧ task.command = command

/-- One thing the worker did.  `result` is the outcome of logging it. -/
inductive Deed where
  /-- The command of the task ran. -/
  | ran (task : Task) (response : Response) (result : Except Bytes Unit)
  /-- The task was an `EXEC`, and these commands ran. -/
  | transacted (task : Task) (commands : List Command) (responses : List Response)
      (result : Except Bytes Unit)
  /-- Commands were replayed from the log, or keys loaded from a file. -/
  | recovered (events : List Event)
  /-- A promise was fulfilled, and nothing ran for it. -/
  | answered (reply : Reply)
  /-- The replicas were asked for their offsets. -/
  | askedForOffsets

/-- Nothing can leave a list through this reply. -/
def Reply.EmptyHanded (host : Host) (reply : Reply) : Prop :=
  Processor.Local host reply.task.command ∨ reply.response.bare = true

namespace Deed

def events : Deed → List Event
  | .ran task response _ => [.executed task.command response]
  | .transacted _ commands responses _ => List.zipWith Event.executed commands responses
  | .recovered events => events
  | .answered _ | .askedForOffsets => []

def replies : Deed → List Reply
  | .ran task response result => [⟨task, [], Processor.settled response result⟩]
  | .transacted task commands responses result =>
    [⟨task, commands, Processor.settled (.responseArray responses) result⟩]
  | .answered reply => [reply]
  | .recovered _ | .askedForOffsets => []

/-- The effective writes of the deed, as one payload. -/
def payload (host : Host) : Deed → Option Bytes
  | .ran task response _ =>
    if effective host task.command response then
      some (serializeCommand (normalizeReplicationCommand task.command response))
    else none
  | .transacted _ commands responses _ =>
    if (List.zipWith Event.executed commands responses).flatMap (Event.writes host) = [] then none
    else some (Processor.transactionPayload
      ((List.zipWith Event.executed commands responses).flatMap (Event.writes host)))
  | _ => none

/-- Where the writes of the deed come from. -/
def source : Deed → CommandSource
  | .ran task _ _ | .transacted task _ _ _ => task.source
  | _ => .aof

/-- What the deed appends to the log. -/
def log (host : Host) (deed : Deed) : Bytes :=
  if deed.source = .aof then [] else (deed.payload host).getD []

/-- What the deed sends to the replicas. -/
def frames (host : Host) (role : ReplicationRole) : Deed → List Bytes
  | .askedForOffsets => [serializeCommand Processor.getAckCommand]
  | deed => if role = .master ∧ deed.source = .client then (deed.payload host).toList else []

/-- The log keeps up with the deed. -/
def Lasting : Deed → Prop
  | .ran _ _ result | .transacted _ _ _ result => result = .ok ()
  | .recovered _ => False
  | .answered _ | .askedForOffsets => True

/-- The result of logging comes from a disk of the regime. -/
def Logged (regime : Regime) (result : Except Bytes Unit) : Prop :=
  result = .ok () ∨
    ∃ disk, regime.Safe disk ∧ ∃ payload file, (append disk payload file).1 = result

/-- What the log reported. -/
def errors : Deed → List Bytes
  | .ran _ _ result | .transacted _ _ _ result => Processor.reported result
  | _ => []

/-- What is known about the parts of a deed. -/
def Proper (host : Host) (regime : Regime) : Deed → Prop
  | .ran task response result =>
    regime.Ordered task ∧ nameOf task.command ≠ some .exec ∧ Logged regime result ∧
      (result ≠ .ok () → (payload host (.ran task response result)).isSome)
  | .transacted task commands responses result =>
    regime.Ordered task ∧ nameOf task.command = some .exec ∧
      (∀ command ∈ commands, regime.Queueable command) ∧
      responses.length = commands.length ∧ Logged regime result ∧
      (result ≠ .ok () → (payload host (.transacted task commands responses result)).isSome)
  | .answered reply => reply.EmptyHanded host
  | .recovered _ => regime.Recovers
  | .askedForOffsets => True

end Deed

/-- The worker went from one state to another by these deeds. -/
structure Chronicle (host : Host) (regime : Regime) (before : Processor) (deeds : List Deed)
    (after : Processor) : Prop where
  events : after.events = before.events ++ deeds.flatMap Deed.events
  replies : after.replies = before.replies ++ deeds.flatMap Deed.replies
  errors : after.appendErrors = before.appendErrors ++ deeds.flatMap Deed.errors
  history : History host regime.Timely before.database (deeds.flatMap Deed.events) after.database
  proper : ∀ deed ∈ deeds, deed.Proper host regime
  log : (∀ deed ∈ deeds, deed.Lasting) →
    after.aofFile.map AppendOnlyFile.contents =
      before.aofFile.map fun file => file.contents ++ deeds.flatMap (Deed.log host)
  stream : (∀ deed ∈ deeds, deed.Lasting) →
    Streams regime.Kept (deeds.flatMap (Deed.frames host before.replication.role))
      before.replication after.replication

namespace Chronicle

variable {host : Host} {regime : Regime}

theorem trans {first second third : Processor} {deeds' : List Deed}
    (h₁ : Chronicle host regime first deeds second)
    (h₂ : Chronicle host regime second deeds' third) :
    Chronicle host regime first (deeds ++ deeds') third where
  events := by rw [h₂.events, h₁.events, List.flatMap_append, List.append_assoc]
  replies := by rw [h₂.replies, h₁.replies, List.flatMap_append, List.append_assoc]
  errors := by rw [h₂.errors, h₁.errors, List.flatMap_append, List.append_assoc]
  history := by
    rw [List.flatMap_append]
    exact h₁.history.trans h₂.history
  proper deed hdeed := by
    rcases List.mem_append.mp hdeed with hdeed | hdeed
    · exact h₁.proper deed hdeed
    · exact h₂.proper deed hdeed
  log hlasting := by
    have hfirst := h₁.log fun deed hdeed => hlasting deed (by simp [hdeed])
    have hsecond := h₂.log fun deed hdeed => hlasting deed (by simp [hdeed])
    rw [hsecond]
    cases hfile : first.aofFile with
    | none =>
      obtain hnone : second.aofFile = none := by simpa [hfile] using hfirst
      simp [hnone]
    | some file =>
      obtain ⟨file', hfile', hcontents⟩ : ∃ file', second.aofFile = some file' ∧
          file'.contents = file.contents ++ deeds.flatMap (Deed.log host) := by
        simpa [hfile, Option.map_eq_some_iff] using hfirst
      simp [hfile', hcontents]
  stream hlasting := by
    have hfirst := h₁.stream fun deed hdeed => hlasting deed (by simp [hdeed])
    have hsecond := h₂.stream fun deed hdeed => hlasting deed (by simp [hdeed])
    rw [hfirst.role] at hsecond
    rw [List.flatMap_append]
    exact hfirst.trans hsecond

/-- The database was looked at, and nothing else is recorded. -/
theorem looked (hhistory : History host regime.Timely before.database [] after.database)
    (hevents : after.events = before.events) (hreplies : after.replies = before.replies)
    (herrors : after.appendErrors = before.appendErrors) (hfile : after.aofFile = before.aofFile)
    (hstream : Streams regime.Kept [] before.replication after.replication) :
    Chronicle host regime before [] after where
  events := by simp [hevents]
  replies := by simp [hreplies]
  errors := by simp [herrors]
  history := hhistory
  proper := by simp
  log _ := by simp [hfile]
  stream _ := hstream

/-- Only parts of the state changed that no deed is about. -/
theorem quiet (hdatabase : after.database = before.database)
    (hevents : after.events = before.events) (hreplies : after.replies = before.replies)
    (herrors : after.appendErrors = before.appendErrors) (hfile : after.aofFile = before.aofFile)
    (hreplication : after.replication = before.replication) :
    Chronicle host regime before [] after := by
  refine looked ?_ hevents hreplies herrors hfile ?_
  · rw [hdatabase]
    exact .done _
  · rw [hreplication]
    exact .refl _

theorem answered (processor : Processor) (task : Task) (transaction : List Command)
    (response : Response)
    (hempty : Reply.EmptyHanded host ⟨task, transaction, response⟩) :
    Chronicle host regime processor [.answered ⟨task, transaction, response⟩]
      (processor.fulfil task transaction response) where
  events := by simp [Processor.fulfil, Deed.events]
  replies := by simp [Processor.fulfil, Deed.replies]
  errors := by simp [Processor.fulfil, Deed.errors]
  history := .done _
  proper := by simpa [Deed.Proper] using hempty
  log _ := by simp [Processor.fulfil, Deed.log, Deed.source]
  stream _ := by simpa [Processor.fulfil, Deed.frames, Deed.source] using Streams.refl _

/-- The replicas were asked for their offsets, and a `WAIT` joined the queue. -/
theorem askedForOffsets {replication : Replication} {pendingWaits : List PendingWait}
    (hstreams : Streams regime.Kept [serializeCommand Processor.getAckCommand]
      before.replication replication) :
    Chronicle host regime before [.askedForOffsets]
      { before with replication, pendingWaits } where
  events := by simp [Deed.events]
  replies := by simp [Deed.replies]
  errors := by simp [Deed.errors]
  history := .done _
  proper := by simp [Deed.Proper]
  log _ := by simp [Deed.log, Deed.source]
  stream _ := by simpa [Deed.frames] using hstreams

end Chronicle

/-! ## Propagation -/

/-- An attempt to propagate something touched the log and the replication state
only, and if it succeeded, then it appended this to the one and that to the
other. -/
structure Propagates (regime : Regime) (log : Bytes) (frames : List Bytes)
    (result : Except Bytes Unit) (before after : Processor) : Prop where
  frame : ∃ file replication, after = { before with
    aofFile := file, replication, appendErrors := before.appendErrors ++ Processor.reported result }
  outcome : Deed.Logged regime result
  logged : result = .ok () → after.aofFile.map AppendOnlyFile.contents =
    before.aofFile.map fun file => file.contents ++ log
  streamed : result = .ok () → Streams regime.Kept frames before.replication after.replication

namespace Propagates

variable {regime : Regime}

theorem nothing (processor : Processor) :
    Propagates regime [] [] (.ok ()) processor processor where
  frame := ⟨processor.aofFile, processor.replication, by simp [Processor.reported]⟩
  outcome := .inl rfl
  logged _ := by simp
  streamed _ := .refl _

/-- Logging changes the file, and adds the payload unless it fails. -/
theorem persist (persisted : Bool) (hsafe : regime.Safe disk) (payload : Bytes)
    (processor : Processor) :
    Propagates regime (if persisted then payload else []) []
      (processor.persist persisted disk payload).1 processor
      (processor.persist persisted disk payload).2 := by
  unfold Processor.persist
  cases hfile : processor.aofFile with
  | none =>
    have hnothing : Propagates regime _ _ _ _ _ := nothing processor
    exact ⟨hnothing.frame, .inl rfl, fun _ => by simp [hfile], fun _ => .refl _⟩
  | some file =>
    cases persisted with
    | false => simpa using nothing processor
    | true =>
      refine ⟨⟨_, _, rfl⟩, .inr ⟨disk, hsafe, payload, file, rfl⟩, fun hok => ?_,
        fun _ => .refl _⟩
      have happend : append disk payload file = (.ok (), (append disk payload file).2) :=
        Prod.ext hok rfl
      simpa [hfile] using contents_append happend

theorem propagate (persisted replicated : Bool) (hsafe : regime.Safe disk) (clientId : ClientId)
    (payload : Bytes) (processor : Processor) :
    Propagates regime (if persisted then payload else []) (if replicated then [payload] else [])
      (processor.propagate persisted replicated disk clientId payload).1 processor
      (processor.propagate persisted replicated disk clientId payload).2 := by
  have hpersist : Propagates regime _ _ _ _ _ := persist persisted hsafe payload processor
  unfold Processor.propagate
  generalize processor.persist persisted disk payload = outcome at hpersist
  obtain ⟨result, middle⟩ := outcome
  simp only at hpersist
  obtain ⟨file, replication, rfl⟩ := hpersist.frame
  have hsame : ∀ hok, Streams regime.Kept [] processor.replication replication :=
    hpersist.streamed
  cases result with
  | error message => exact ⟨⟨_, _, rfl⟩, hpersist.outcome, by simp, by simp⟩
  | ok _ =>
    cases replicated with
    | false => exact ⟨⟨_, _, rfl⟩, .inl rfl, hpersist.logged, hpersist.streamed⟩
    | true =>
      refine ⟨⟨_, _, rfl⟩, .inl rfl, hpersist.logged, fun hok => ?_⟩
      exact (hsame hok).trans (.appendClientReplicationFrame clientId payload replication)

/-- The replica's own offset is no part of what it propagates. -/
theorem offset {log : Bytes} {frames : List Bytes}
    (h : Propagates regime log frames result before after) (offset : ℕ) :
    Propagates regime log frames result before
      { after with replication := { after.replication with offset } } := by
  obtain ⟨⟨file, replication, rfl⟩, houtcome, hlogged, hstreamed⟩ := h
  refine ⟨⟨file, { replication with offset }, rfl⟩, houtcome, hlogged, fun hok => ?_⟩
  have hsame : Streams regime.Kept [] replication { replication with offset } :=
    .of_eq rfl rfl rfl rfl rfl
  simpa using (hstreamed hok).trans hsame

/-- **What a source propagates.** -/
theorem fromSource (hsafe : regime.Safe disk) {source : CommandSource} {clientId : ClientId}
    {payload : Bytes}
    (h : before.propagate (before.persists source) (before.replicates source) disk clientId
      payload = (result, after)) :
    Propagates regime (if source = .aof then [] else payload)
      (if before.replication.role = .master ∧ source = .client then [payload] else []) result
      before after := by
  have hpropagates : Propagates regime _ _ _ _ _ := propagate (before.persists source)
    (before.replicates source) hsafe clientId payload before
  rw [h] at hpropagates
  obtain ⟨hframe, houtcome, hlogged, hstreamed⟩ := hpropagates
  refine ⟨hframe, houtcome, fun hok => ?_, fun hok => ?_⟩
  · rw [hlogged hok]
    cases hfile : before.aofFile with
    | none => rfl
    | some file => by_cases hsource : source = .aof <;> simp [Processor.persists, hfile, hsource]
  · simpa [Processor.replicates] using hstreamed hok

/-- If neither the log nor a replica listens, doing nothing is propagation. -/
theorem unneeded {source : CommandSource} (processor : Processor)
    (hpersists : processor.persists source = false)
    (hreplicates : processor.replicates source = false) (payload : Bytes) :
    Propagates regime (if source = .aof then [] else payload)
      (if processor.replication.role = .master ∧ source = .client then [payload] else [])
      (.ok ()) processor processor where
  frame := ⟨processor.aofFile, processor.replication, by simp [Processor.reported]⟩
  outcome := .inl rfl
  logged _ := by
    cases hfile : processor.aofFile with
    | none => rfl
    | some file =>
      have hsource : source = .aof := by simpa [Processor.persists, hfile] using hpersists
      simp [hsource]
  streamed _ := by
    rw [if_neg (by simpa [Processor.replicates] using hreplicates)]
    exact .refl _

end Propagates

/-! ## Deeds that run commands -/

namespace Chronicle

variable {host : Host} {regime : Regime}

/-- Something ran, its writes were propagated, and the promise was fulfilled. -/
theorem logged {deed : Deed} {task : Task} {transaction : List Command} {response : Response}
    {database : Database}
    (hreplies : deed.replies = [⟨task, transaction, Processor.settled response result⟩])
    (herrors : deed.errors = Processor.reported result) (hlasts : deed.Lasting → result = .ok ())
    (hhistory : History host regime.Timely before.database deed.events database)
    (hproper : Deed.Logged regime result → deed.Proper host regime)
    (hpropagates : Propagates regime (deed.log host) (deed.frames host before.replication.role)
      result { before with database, events := before.events ++ deed.events } after) :
    Chronicle host regime before [deed]
      (after.fulfil task transaction (Processor.settled response result)) := by
  obtain ⟨⟨file, replication, rfl⟩, houtcome, hlogged, hstreamed⟩ := hpropagates
  refine ⟨by simp [Processor.fulfil], by simp [Processor.fulfil, hreplies],
    by simp [Processor.fulfil, herrors], by simpa [Processor.fulfil] using hhistory,
    by simpa only [List.forall_mem_singleton] using hproper houtcome,
    fun hlasting => ?_, fun hlasting => ?_⟩ <;> rw [List.flatMap_singleton]
  · exact hlogged (hlasts (hlasting deed (by simp)))
  · exact hstreamed (hlasts (hlasting deed (by simp)))

/-- One command ran. -/
theorem ran {task : Task} {response : Response} {clock : Clock} {database : Database}
    (htimely : regime.Timely clock) (hordered : regime.Ordered task)
    (hexec : nameOf task.command ≠ some .exec)
    (hchange : Change host clock task.command response before.database database)
    (hfailed : result ≠ .ok () → (Deed.payload host (.ran task response result)).isSome)
    (hpropagates : Propagates regime (Deed.log host (.ran task response result))
      (Deed.frames host before.replication.role (.ran task response result)) result
      { before with
        database, events := before.events ++ [.executed task.command response] } after) :
    Chronicle host regime before [.ran task response result]
      (after.fulfil task [] (Processor.settled response result)) :=
  logged rfl rfl id (.executed htimely hchange (.done _))
    (fun houtcome => ⟨hordered, hexec, houtcome, hfailed⟩) hpropagates

/-- Files were read: the log says nothing about it. -/
theorem recovered {events : List Event} (hrecovers : regime.Recovers)
    (hevents : after.events = before.events ++ events)
    (hhistory : History host regime.Timely before.database events after.database)
    (hreplies : after.replies = before.replies)
    (herrors : after.appendErrors = before.appendErrors) :
    Chronicle host regime before [.recovered events] after where
  events := by simp [hevents, Deed.events]
  replies := by simp [hreplies, Deed.replies]
  errors := by simp [herrors, Deed.errors]
  history := by simpa [Deed.events] using hhistory
  proper := by simpa [Deed.Proper] using hrecovers
  log hlasting := (hlasting (.recovered events) (by simp)).elim
  stream hlasting := (hlasting (.recovered events) (by simp)).elim

/-- If nothing went wrong with the log, every deed is in it. -/
theorem lasting_of_eq (h : Chronicle host regime before deeds after) (hrecovers : ¬ regime.Recovers)
    (herrors : after.appendErrors = before.appendErrors) : ∀ deed ∈ deeds, deed.Lasting := by
  have hall := h.errors
  rw [herrors, List.self_eq_append_right, List.flatMap_eq_nil_iff] at hall
  intro deed hdeed
  have hnone := hall deed hdeed
  have hproper := h.proper deed hdeed
  cases deed with
  | ran _ _ result => rcases result with _ | _ <;> first | rfl | cases hnone
  | transacted _ _ _ result => rcases result with _ | _ <;> first | rfl | cases hnone
  | recovered events => exact hrecovers hproper
  | _ => trivial

theorem lasting (h : Chronicle host regime before deeds after) (hrecovers : ¬ regime.Recovers)
    (herrors : after.appendErrors = []) : ∀ deed ∈ deeds, deed.Lasting := by
  have hbefore : before.appendErrors = [] :=
    (List.append_eq_nil_iff.mp (h.errors.symm.trans herrors)).1
  exact h.lasting_of_eq hrecovers (herrors.trans hbefore.symm)

end Chronicle

/-! ## Blocked and queued commands -/

/-- A blocked `BLPOP` waits for the key that its command names. -/
def PendingListPop.Waiting (host : Host) (pending : PendingListPop) : Prop :=
  nameOf pending.task.command = some .blpop ∧
    ∃ timeout, parseBlpop host pending.task.command = .ok ⟨pending.key, timeout⟩

/-- What the queues hold was submitted. -/
structure Processor.Holds (host : Host) (regime : Regime) (processor : Processor) : Prop where
  queued : ∀ clientId transaction, processor.transactions.lookup clientId = some transaction →
    ∀ command ∈ transaction.commands, regime.Queueable command
  pops : ∀ pending ∈ processor.pendingListPops,
    regime.Ordered pending.task ∧ pending.Waiting host
  reads : ∀ pending ∈ processor.pendingStreamReads,
    nameOf pending.task.command = some .xread
  waits : ∀ pending ∈ processor.pendingWaits, nameOf pending.task.command = some .wait

namespace Processor.Holds

variable {host : Host} {regime : Regime} {before after : Processor}

theorem congr (h : before.Holds host regime) (htransactions : after.transactions = before.transactions)
    (hpops : after.pendingListPops = before.pendingListPops)
    (hreads : after.pendingStreamReads = before.pendingStreamReads)
    (hwaits : after.pendingWaits = before.pendingWaits) :
    after.Holds host regime :=
  ⟨htransactions ▸ h.queued, hpops ▸ h.pops, hreads ▸ h.reads, hwaits ▸ h.waits⟩

/-- One client's transaction is replaced. -/
theorem insert (h : before.Holds host regime) {clientId : ClientId}
    {transaction : TransactionState}
    (hcommands : ∀ command ∈ transaction.commands, regime.Queueable command) :
    { before with
      transactions := before.transactions.insert clientId transaction }.Holds host regime := by
  refine ⟨fun other found hfound => ?_, h.pops, h.reads, h.waits⟩
  by_cases hother : other = clientId
  · subst hother
    obtain rfl : transaction = found := by simpa using hfound
    exact hcommands
  · exact h.queued other found (by simpa [hother] using hfound)

theorem erase (h : before.Holds host regime) (clientId : ClientId) :
    { before with transactions := before.transactions.erase clientId }.Holds host regime := by
  refine ⟨fun other found hfound => ?_, h.pops, h.reads, h.waits⟩
  by_cases hother : other = clientId
  · subst hother
    simp at hfound
  · exact h.queued other found (by simpa [hother] using hfound)

end Processor.Holds

/-- The worker went from one state to another by some deeds, and its queues are
as sound as they were. -/
def Proceeds (host : Host) (regime : Regime) (before after : Processor) : Prop :=
  before.Holds host regime →
    after.Holds host regime ∧ ∃ deeds, Chronicle host regime before deeds after

namespace Proceeds

variable {host : Host} {regime : Regime}

theorem trans {first second third : Processor} (h₁ : Proceeds host regime first second)
    (h₂ : Proceeds host regime second third) : Proceeds host regime first third := by
  intro hfirst
  obtain ⟨hsecond, deeds, hdeeds⟩ := h₁ hfirst
  obtain ⟨hthird, deeds', hdeeds'⟩ := h₂ hsecond
  exact ⟨hthird, deeds ++ deeds', hdeeds.trans hdeeds'⟩

/-- A step that leaves the queues alone. -/
theorem of_chronicle (h : Chronicle host regime before deeds after)
    (htransactions : after.transactions = before.transactions)
    (hpops : after.pendingListPops = before.pendingListPops)
    (hreads : after.pendingStreamReads = before.pendingStreamReads)
    (hwaits : after.pendingWaits = before.pendingWaits) : Proceeds host regime before after :=
  fun hholds => ⟨hholds.congr htransactions hpops hreads hwaits, deeds, h⟩

theorem refl (processor : Processor) : Proceeds host regime processor processor :=
  of_chronicle (.quiet rfl rfl rfl rfl rfl rfl) rfl rfl rfl rfl

theorem fulfil (processor : Processor) {task : Task} {transaction : List Command}
    {response : Response} (hempty : Reply.EmptyHanded host ⟨task, transaction, response⟩) :
    Proceeds host regime processor (processor.fulfil task transaction response) :=
  of_chronicle (.answered processor task transaction response hempty) rfl rfl rfl rfl

end Proceeds

end RedisServer
