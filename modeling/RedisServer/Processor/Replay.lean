import RedisServer.Commands.Replay
import RedisServer.Library.Runs
import RedisServer.Processor.Chronicle

/-!
# Reading the log again

What the worker did to its database in a run, it appended to the log and sent to
its replicas unit by unit: a single write, or the writes of a transaction between
`MULTI` and `EXEC`.  Whoever processes these units, in this order and at whatever
time, ends up with the same entries and never answers with an error.

`History.reproduces` says so for the database alone.  The rest of the module is
about the processor that reads the units: it opens a transaction, queues the
writes and runs them, all on behalf of one client that nobody else acts for.
-/

namespace RedisServer

open Resp KeyedStore Commands Aof

variable {before after copy original : Database} {host : Host} {processor : Processor}
  {command : Command} {deed : Deed} {deeds : List Deed} {queued : List Command}

/-! ## The database -/

/-- The event is a command that gives no entry an expiry. -/
def Event.Permanent : Event → Prop
  | .executed command _ => setsExpiry command = false
  | .loaded _ => False

/-- A command that the log and the replicas get to see outside of the brackets
of a transaction. -/
def Replayable (command : Command) : Prop :=
  ∃ name, nameOf command = some name ∧ isReplayable name = true

/-- Nothing in the database ever expires. -/
def Everlasting (database : Database) : Prop := ∀ key, Permanent (database.entries.lookup key)

/-- These commands, one after the other and each at its own time, turn the copy
into a copy of the original, and none of them is answered with an error. -/
def Reproduces (host : Host) (original : Database) : List Command → Database → Prop
  | [], copy => Mirrors copy original
  | command :: rest, copy =>
    Everlasting copy ∧ Replayable command ∧
      ∀ clock, ∃ reply copy', dispatch host clock copy command = some (reply, copy') ∧
        faultless reply = true ∧ Reproduces host original rest copy'

theorem everlasting_of_mirrors (h : Mirrors copy original) :
    Everlasting copy := fun key => h.same key ▸ h.permanent key

theorem Reproduces.everlasting {commands : List Command}
    (h : Reproduces host original commands copy) : Everlasting copy := by
  cases commands with
  | nil => exact everlasting_of_mirrors h
  | cons command rest => exact h.1

/-- **The effective writes of a history reproduce it.** -/
theorem History.reproduces {Timely : Clock → Prop} {events : List Event}
    (h : History host Timely before events after) (hclock : ∀ clock, Timely clock → clock.Positive)
    (hpermanent : ∀ event ∈ events, event.Permanent) (hmirrors : Mirrors copy before) :
    Reproduces host after (events.flatMap (Event.writes host)) copy := by
  induction h generalizing copy with
  | done database => exact hmirrors
  | looked _ hpurges _ ih => exact ih hpermanent (hmirrors.looked hpurges)
  | @executed clock command response before middle after events htimely hchange _ ih =>
    have ih := fun {copy} => @ih copy fun event hevent => hpermanent event (by simp [hevent])
    rw [List.flatMap_cons, Event.writes]
    have hexpiry : setsExpiry command = false :=
      hpermanent (.executed command response) (by simp)
    rcases hmirrors.replay (hclock clock htimely) hexpiry hchange with
      ⟨hineffective, hmiddle⟩ | ⟨heffective, hreplayable, hreplay⟩
    · rw [if_neg (by simp [hineffective])]
      exact ih hmiddle
    · rw [if_pos heffective]
      refine ⟨everlasting_of_mirrors hmirrors, hreplayable, fun clock' => ?_⟩
      obtain ⟨reply, copy', hdispatch, hreply, hcopy'⟩ := hreplay clock'
      exact ⟨reply, copy', hdispatch, hreply, ih hcopy'⟩
  | @loaded _ key _ _ _ _ _ _ _ _ => exact (hpermanent (.loaded key) (by simp)).elim

/-- The command of an event fits memory. -/
def Event.Sized : Event → Prop
  | .executed command _ => Resp.Sized command
  | .loaded _ => True

theorem History.sized {Timely : Clock → Prop} {events : List Event}
    (h : History host Timely before events after) (hsized : ∀ event ∈ events, event.Sized) :
    ∀ command ∈ events.flatMap (Event.writes host), Resp.Sized command := by
  induction h with
  | done database => simp
  | looked _ _ _ ih => exact ih hsized
  | @executed clock command response before middle after events _ hchange _ ih =>
    have hcommand : Resp.Sized command := hsized (.executed command response) (by simp)
    have ih := ih fun event hevent => hsized event (by simp [hevent])
    intro written hwritten
    rw [List.flatMap_cons, Event.writes, List.mem_append] at hwritten
    rcases hwritten with hwritten | hwritten
    · split at hwritten
      · rename_i heffective
        obtain rfl := List.mem_singleton.mp hwritten
        cases hchange with
        | looked hineffective _ => simp [hineffective] at heffective
        | wrote key update base _ _ hdecided _ _ =>
          exact (write_cases heffective hdecided).sized hcommand
      · cases hwritten
    · exact ih written hwritten
  | loaded _ _ ih => exact ih fun event hevent => hsized event (by simp [hevent])

/-- Clients give no entry an expiry, the clock shows a time after the epoch, and
no file is read. -/
def Regime.permanent (Sent : CommandSource → Prop) (Kept : SessionId → Prop) : Regime where
  Timely := Clock.Positive
  Safe _ := True
  Ordered task := Sent task.source ∧ Sized task.command ∧ setsExpiry task.command = false
  Kept := Kept
  Recovers := False

/-! ## The processor -/

namespace Processor

variable {host : Host} {env : CommandEnv} {clientId : ClientId} {command : Command}
  {source : CommandSource} {original : Database} {rest : List Command}

/-- Nothing is queued or watched on behalf of the client. -/
structure Ready (clientId : ClientId) (processor : Processor) : Prop where
  transaction : processor.transactions.lookup clientId = none
  watched : processor.watchedKeys.lookup clientId = none

/-- What is processed here goes to no replica, and to the log without an error. -/
structure Silent (source : CommandSource) (disk : Disk) (processor : Processor) : Prop where
  replicates : processor.replicates source = false
  persists : processor.persists source = true → ∀ payload file, (append disk payload file).1 = .ok ()

/-- The commands of a unit are not among those that are answered without a look
at the transactions. -/
theorem processCommand_of_replayable (hreplayable : Replayable command) (processor : Processor) :
    processor.processCommand host env clientId command source =
      processor.queueOrRun host env clientId command := by
  obtain ⟨name, hname, hreplayable⟩ := hreplayable
  unfold processCommand
  rw [if_neg (ne_nil_of_nameOf hname), hname]
  cases name <;> first | rfl | cases hreplayable

/-- A write outside of a transaction. -/
theorem processCommand_write (hready : processor.Ready clientId)
    (h : Reproduces host original (command :: rest) processor.database) :
    ∃ reply database, processor.processCommand host env clientId command source =
        some (reply, { processor with
          database, events := processor.events ++ [.executed command reply] }) ∧
      faultless reply = true ∧ Reproduces host original rest database := by
  obtain ⟨-, hreplayable, hdispatch⟩ := h
  obtain ⟨reply, database, hdispatch, hreply, hrest⟩ := hdispatch env.clock.head
  refine ⟨reply, database, ?_, hreply, hrest⟩
  rw [processCommand_of_replayable hreplayable, queueOrRun, hready.transaction]
  simp only [runCommand, hdispatch, Option.map_some]

theorem nameOf_multi : nameOf [CommandName.multi.text] = some .multi := nameOf_cons.mpr rfl

theorem nameOf_exec : nameOf [CommandName.exec.text] = some .exec := nameOf_cons.mpr rfl

/-- Logging a payload, if it is logged at all, succeeds. -/
theorem propagate_of_silent {disk : Disk} {processor : Processor} (hsilent : processor.Silent source disk)
    (payload : Bytes) :
    ∃ file, processor.propagate (processor.persists source) (processor.replicates source) disk
      clientId payload = (.ok (), { processor with aofFile := file }) ∧
        file.isSome = processor.aofFile.isSome := by
  unfold propagate persist
  rw [hsilent.replicates]
  cases hfile : processor.aofFile with
  | none => exact ⟨none, by simp [← hfile], by simp⟩
  | some file =>
    cases hpersists : processor.persists source with
    | false => exact ⟨some file, by simp [← hfile], by simp⟩
    | true =>
      have happend := hsilent.persists hpersists payload file
      cases hresult : append disk payload file with
      | mk result after =>
        rw [hresult] at happend
        simp only at happend
        subst happend
        exact ⟨some after, by simp [hresult, reported], by simp⟩

/-- The loop of `EXEC` over the writes of a unit. -/
theorem executeCommands_reproduces {propagated : Bool} {commands : List Command}
    {processor : Processor} (clocks : Stream' Clock)
    (h : Reproduces host original (commands ++ rest) processor.database) :
    ∃ responses logged database events,
      processor.executeCommands host propagated commands clocks =
        some (responses, logged, { processor with database, events }) ∧
      (∀ response ∈ responses, responseIsError response = false) ∧
      Reproduces host original rest database := by
  induction commands generalizing processor clocks with
  | nil => exact ⟨[], [], processor.database, processor.events, rfl, by simp, h⟩
  | cons command commands ih =>
    obtain ⟨-, -, hdispatch⟩ := h
    obtain ⟨reply, database, hdispatch, hreply, hcommands⟩ := hdispatch clocks.head
    obtain ⟨responses, logged, database', events, hexecute, hresponses, hrest⟩ :=
      @ih { processor with
        database, events := processor.events ++ [.executed command reply] } clocks.tail hcommands
    refine ⟨reply :: responses,
      if propagated && (isWriteCommand host command && writeModifiedDatabase command reply)
      then normalizeReplicationCommand command reply :: logged else logged,
      database', events, ?_, ?_, hrest⟩
    · simp only [executeCommands, runCommand, hdispatch, Option.map_some, Option.bind_some,
        hexecute]
    · simpa [responseIsError_of_faultless hreply] using hresponses

/-- The `EXEC` at the end of a unit. -/
theorem processCommand_exec {commands : List Command} (hcommands : commands ≠ [])
    (htransaction : processor.transactions.lookup clientId = some { commands })
    (hwatched : processor.watchedKeys.lookup clientId = none)
    (hsilent : processor.Silent source env.disk)
    (h : Reproduces host original (commands ++ rest) processor.database) :
    ∃ responses database events file,
      processor.processCommand host env clientId [CommandName.exec.text] source =
        some (.responseArray responses, { processor with
          database, events
          transactions := processor.transactions.erase clientId
          watchedKeys := processor.watchedKeys.erase clientId
          aofFile := file }) ∧
      (∀ response ∈ responses, responseIsError response = false) ∧
      file.isSome = processor.aofFile.isSome ∧ Reproduces host original rest database := by
  have hwatchedBy : processor.watchedBy clientId = [] := by simp [watchedBy, hwatched]
  let closed := processor.closeTransaction clientId processor.database
  obtain ⟨responses, logged, database, events, hexecute, hresponses, hrest⟩ :=
    @executeCommands_reproduces host original rest
      (closed.replicates source || closed.persists source) commands closed env.clock h
  have hsilent' : { closed with database, events }.Silent source env.disk :=
    ⟨hsilent.replicates, hsilent.persists⟩
  obtain ⟨file, hpropagate, hfile⟩ : ∃ file,
      { closed with database, events }.propagateTransaction (closed.persists source)
        (closed.replicates source) env.disk clientId logged =
          (.ok (), { closed with database, events, aofFile := file }) ∧
        file.isSome = processor.aofFile.isSome := by
    unfold propagateTransaction
    split
    · exact ⟨processor.aofFile, rfl, rfl⟩
    · exact propagate_of_silent hsilent' (transactionPayload logged)
  refine ⟨responses, database, events, file, ?_, hresponses, hfile, hrest⟩
  unfold processCommand
  rw [if_neg (by simp), nameOf_exec]
  simp only [executeTransaction, htransaction, hwatchedBy, watchedKeyChanged,
    Bool.false_eq_true, if_false, if_neg hcommands]
  rw [show processor.closeTransaction clientId processor.database = closed from rfl, hexecute,
    Option.map_some, hpropagate]
  rfl

end Processor

/-! ## Units -/

/-- What is appended to the log or sent to the replicas at once: one write, the
writes of a transaction, or a request for acknowledgements. -/
inductive StreamUnit where
  | write (command : Command)
  | transaction (commands : List Command)
  | getAck
deriving DecidableEq, Repr

namespace StreamUnit

/-- The writes of the unit. -/
def writes : StreamUnit → List Command
  | .write command => [command]
  | .transaction commands => commands
  | .getAck => []

/-- The unit, as it is written. -/
def commands : StreamUnit → List Command
  | .write command => [command]
  | .transaction commands =>
    [CommandName.multi.text] :: (commands ++ [[CommandName.exec.text]])
  | .getAck => [Processor.getAckCommand]

def payload (unit : StreamUnit) : Bytes := unit.commands.flatMap serializeCommand

/-- A transaction without writes is not propagated. -/
def Proper : StreamUnit → Prop
  | .transaction commands => commands ≠ []
  | _ => True

end StreamUnit

/-- The unit that holds the effective writes of a deed. -/
def Deed.unit (host : Host) : Deed → Option StreamUnit
  | .ran task response _ =>
    if effective host task.command response then
      some (.write (normalizeReplicationCommand task.command response))
    else none
  | .transacted _ commands responses _ =>
    if (List.zipWith Event.executed commands responses).flatMap (Event.writes host) = [] then none
    else some (.transaction
      ((List.zipWith Event.executed commands responses).flatMap (Event.writes host)))
  | _ => none

/-- The units that some deeds append to the log. -/
def loggedUnits (host : Host) (deeds : List Deed) : List StreamUnit :=
  deeds.flatMap fun deed => (deed.unit host).toList

/-- The units that a deed sends to the replicas of a master. -/
def Deed.emitted (host : Host) : Deed → List StreamUnit
  | .askedForOffsets => [.getAck]
  | deed => (deed.unit host).toList

section Units

variable {host : Host}

theorem Deed.payload_eq (deed : Deed) :
    deed.payload host = (deed.unit host).map StreamUnit.payload := by
  cases deed with
  | ran task response result =>
    simp only [Deed.payload, Deed.unit]
    split
    · simp [StreamUnit.payload, StreamUnit.commands]
    · rfl
  | transacted task commands responses result =>
    simp only [Deed.payload, Deed.unit]
    split
    · rfl
    · simp [StreamUnit.payload, StreamUnit.commands, Processor.transactionPayload]
  | _ => rfl

theorem Deed.unit_proper {unit : StreamUnit} (h : deed.unit host = some unit) : unit.Proper := by
  cases deed with
  | ran task response result =>
    simp only [Deed.unit] at h
    split at h <;> cases h
    trivial
  | transacted task commands responses result =>
    simp only [Deed.unit] at h
    split at h <;> cases h
    assumption
  | _ => cases h

/-- The writes of the unit are the effective writes of the deed. -/
theorem Deed.writes_unit (hlasting : deed.Lasting) :
    (deed.unit host).toList.flatMap StreamUnit.writes =
      deed.events.flatMap (Event.writes host) := by
  cases deed with
  | ran task response result =>
    simp only [Deed.unit, Deed.events, List.flatMap_singleton, Event.writes]
    split <;> rfl
  | transacted task commands responses result =>
    simp only [Deed.unit, Deed.events]
    split
    · rename_i hnone
      rw [hnone]
      rfl
    · simp [StreamUnit.writes]
  | recovered events => exact hlasting.elim
  | answered reply => rfl
  | askedForOffsets => rfl

theorem Deed.writes_emitted (hlasting : deed.Lasting) :
    (deed.emitted host).flatMap StreamUnit.writes = deed.events.flatMap (Event.writes host) := by
  cases deed with
  | askedForOffsets => rfl
  | _ => exact Deed.writes_unit hlasting

theorem writes_loggedUnits (hlasting : ∀ deed ∈ deeds, deed.Lasting) :
    (loggedUnits host deeds).flatMap StreamUnit.writes =
      (deeds.flatMap Deed.events).flatMap (Event.writes host) := by
  unfold loggedUnits
  rw [List.flatMap_assoc, List.flatMap_assoc]
  exact List.flatMap_congr fun deed hdeed => Deed.writes_unit (hlasting deed hdeed)

theorem writes_emitted (hlasting : ∀ deed ∈ deeds, deed.Lasting) :
    (deeds.flatMap (Deed.emitted host)).flatMap StreamUnit.writes =
      (deeds.flatMap Deed.events).flatMap (Event.writes host) := by
  rw [List.flatMap_assoc, List.flatMap_assoc]
  exact List.flatMap_congr fun deed hdeed => Deed.writes_emitted (hlasting deed hdeed)

end Units

/-- **What a run propagated reproduces what it did.** -/
theorem Chronicle.reproduces {Sent : CommandSource → Prop} {Kept : SessionId → Prop}
    {before after : Processor} (h : Chronicle host (Regime.permanent Sent Kept) before deeds after)
    (hlasting : ∀ deed ∈ deeds, deed.Lasting) (hmirrors : Mirrors copy before.database) :
    Reproduces host after.database
        ((deeds.flatMap Deed.events).flatMap (Event.writes host)) copy ∧
      ∀ command ∈ (deeds.flatMap Deed.events).flatMap (Event.writes host), Sized command := by
  -- Every event is a command that a client submitted.
  have hevents : ∀ event ∈ deeds.flatMap Deed.events, event.Permanent ∧ event.Sized := by
    intro event hevent
    obtain ⟨deed, hdeed, hevent⟩ := List.mem_flatMap.mp hevent
    have hproper := h.proper deed hdeed
    cases deed with
    | ran task response result =>
      obtain rfl := List.mem_singleton.mp hevent
      exact ⟨hproper.1.2.2, hproper.1.2.1⟩
    | transacted task commands responses result =>
      obtain ⟨command, hcommand, response, rfl⟩ :
          ∃ command ∈ commands, ∃ response, event = .executed command response := by
        simp only [Deed.events, List.mem_iff_getElem, List.getElem_zipWith] at hevent
        obtain ⟨index, hindex, rfl⟩ := hevent
        exact ⟨_, List.getElem_mem _, _, rfl⟩
      obtain ⟨queued, hordered, rfl⟩ := hproper.2.2.1 command hcommand
      exact ⟨hordered.2.2, hordered.2.1⟩
    | recovered events => exact (hlasting _ hdeed).elim
    | answered reply => cases hevent
    | askedForOffsets => cases hevent
  exact ⟨h.history.reproduces (fun _ hclock => hclock) (fun event hevent => (hevents event hevent).1)
    hmirrors, h.history.sized fun event hevent => (hevents event hevent).2⟩

/-! ## Processing units -/

theorem Reproduces.replayable {commands rest : List Command}
    (h : Reproduces host original (commands ++ rest) copy) :
    ∀ command ∈ commands, Replayable command := by
  induction commands generalizing copy with
  | nil => simp
  | cons command commands ih =>
    obtain ⟨-, hreplayable, hdispatch⟩ := h
    obtain ⟨reply, copy', -, -, hcommands⟩ := hdispatch ⟨0, 0⟩
    simpa using ⟨hreplayable, ih hcommands⟩

/-- The commands that `process_task` may put off. -/
def Blocking (command : Command) : Prop :=
  nameOf command = some .blpop ∨ nameOf command = some .xread ∨ nameOf command = some .wait

theorem not_blocking_of_name {name : CommandName} (hname : nameOf command = some name)
    (hdirect : name ≠ .blpop ∧ name ≠ .xread ∧ name ≠ .wait) : ¬ Blocking command := by
  rintro (h | h | h) <;> rw [hname] at h
  · exact hdirect.1 (Option.some.inj h)
  · exact hdirect.2.1 (Option.some.inj h)
  · exact hdirect.2.2 (Option.some.inj h)

theorem Replayable.not_blocking (h : Replayable command) : ¬ Blocking command := by
  obtain ⟨name, hname, hreplayable⟩ := h
  refine not_blocking_of_name hname ⟨?_, ?_, ?_⟩ <;> rintro rfl <;> cases hreplayable

/-- What a client has queued and watches. -/
structure SameShare (clientId : ClientId) (transactions : AList fun _ : ClientId => TransactionState)
    (watchedKeys : AList fun _ : ClientId => AList fun _ : Bytes => ℕ) (processor : Processor) :
    Prop where
  transaction : processor.transactions.lookup clientId = transactions.lookup clientId
  watched : processor.watchedKeys.lookup clientId = watchedKeys.lookup clientId

/-- A way of handing commands to `process_command` on behalf of one client: what
is around it keeps an invariant and leaves what never expires, the transaction of
the client and its watched keys to the command. -/
structure Drives {Input : Type*} (host : Host) (clientId : ClientId) (source : CommandSource)
    (envOf : Input → CommandEnv) (Given : Input → Prop) (Inv : Processor → Prop)
    (apply : Input → Command → Processor → Option Processor) : Prop where
  applies : ∀ input command processor, Given input → Inv processor →
    Everlasting processor.database → ¬ Blocking command →
    ∃ start : Processor, start.database = processor.database ∧
      SameShare clientId processor.transactions processor.watchedKeys start ∧
      start.Silent source (envOf input).disk ∧
      ∀ reply database events transactions watchedKeys file,
        start.processCommand host (envOf input) clientId command source =
          some (reply, { start with
            database, events, transactions, watchedKeys, aofFile := file }) →
        file.isSome = start.aofFile.isSome → faultless reply = true → Everlasting database →
        ∃ next, apply input command processor = some next ∧ Inv next ∧
          next.database = database ∧ SameShare clientId transactions watchedKeys next

namespace Drives

variable {Input : Type*} {host : Host} {clientId : ClientId} {source : CommandSource}
  {envOf : Input → CommandEnv} {Given : Input → Prop} {Inv : Processor → Prop}
  {apply : Input → Command → Processor → Option Processor} {original : Database}
  {rest : List Command} {processor : Processor}

/-- Between two units: nothing is open, and the rest reproduces the original. -/
structure Between (clientId : ClientId) (host : Host) (original : Database) (rest : List Command)
    (processor : Processor) : Prop where
  ready : processor.Ready clientId
  reproduces : Reproduces host original rest processor.database

/-- Inside a transaction, some of whose writes are queued. -/
structure Within (clientId : ClientId) (host : Host) (original : Database)
    (queued rest : List Command) (processor : Processor) : Prop where
  transaction : processor.transactions.lookup clientId = some { commands := queued }
  watched : processor.watchedKeys.lookup clientId = none
  reproduces : Reproduces host original (queued ++ rest) processor.database

variable (drives : Drives host clientId source envOf Given Inv apply)

section Steps

variable {input : Input} (hinput : Given input) (hinv : Inv processor)

include drives hinput hinv

theorem write (hbetween : Between clientId host original (command :: rest) processor) :
    ∃ next, apply input command processor = some next ∧ Inv next ∧
      Between clientId host original rest next := by
  have hreplayable : Replayable command := hbetween.reproduces.2.1
  obtain ⟨start, hdatabase, hshare, -, happlies⟩ := drives.applies input command processor
    hinput hinv hbetween.reproduces.everlasting hreplayable.not_blocking
  have hready : start.Ready clientId :=
    ⟨hshare.transaction.trans hbetween.ready.transaction,
      hshare.watched.trans hbetween.ready.watched⟩
  obtain ⟨reply, database, hprocess, hreply, hrest⟩ :=
    Processor.processCommand_write hready (hdatabase ▸ hbetween.reproduces)
  obtain ⟨next, hnext, hinv', rfl, hshare'⟩ :=
    happlies reply database _ _ _ _ hprocess rfl hreply hrest.everlasting
  exact ⟨next, hnext, hinv', ⟨hshare'.transaction.trans hready.transaction,
    hshare'.watched.trans hready.watched⟩, hrest⟩

/-- A command that only changes the transaction of the client. -/
theorem bracket {share : Option TransactionState} (hblocking : ¬ Blocking command)
    (heverlasting : Everlasting processor.database)
    (hprocess : ∀ start, SameShare clientId processor.transactions processor.watchedKeys start →
      ∃ reply transactions, start.processCommand host (envOf input) clientId command source =
        some (reply, { start with transactions }) ∧ faultless reply = true ∧
          transactions.lookup clientId = share) :
    ∃ next, apply input command processor = some next ∧ Inv next ∧
      next.database = processor.database ∧ next.transactions.lookup clientId = share ∧
      next.watchedKeys.lookup clientId = processor.watchedKeys.lookup clientId := by
  obtain ⟨start, hdatabase, hshare, -, happlies⟩ :=
    drives.applies input command processor hinput hinv heverlasting hblocking
  obtain ⟨reply, transactions, hcommand, hreply, hlookup⟩ := hprocess start hshare
  obtain ⟨next, hnext, hinv', hdatabase', hshare'⟩ :=
    happlies reply start.database start.events transactions start.watchedKeys _ hcommand rfl
      hreply (hdatabase ▸ heverlasting)
  exact ⟨next, hnext, hinv', hdatabase'.trans hdatabase, hshare'.transaction.trans hlookup,
    hshare'.watched.trans hshare.watched⟩

theorem getAck (hbetween : Between clientId host original rest processor) :
    ∃ next, apply input Processor.getAckCommand processor = some next ∧ Inv next ∧
      Between clientId host original rest next := by
  have hname : nameOf Processor.getAckCommand = some .replconf := nameOf_cons.mpr rfl
  have hprocess : ∀ start : Processor, start.processCommand host (envOf input) clientId
      Processor.getAckCommand source = some (ok, start) := by
    intro start
    unfold Processor.processCommand
    rw [if_neg (by simp [Processor.getAckCommand]), hname]
    rfl
  obtain ⟨next, hnext, hinv', hdatabase, htransaction, hwatched⟩ := drives.bracket hinput hinv
    (not_blocking_of_name hname (by decide)) hbetween.reproduces.everlasting
    fun start hshare => ⟨ok, start.transactions, hprocess start, rfl,
      hshare.transaction.trans hbetween.ready.transaction⟩
  exact ⟨next, hnext, hinv', ⟨htransaction, hwatched.trans hbetween.ready.watched⟩,
    hdatabase ▸ hbetween.reproduces⟩

theorem multi (hbetween : Between clientId host original rest processor) :
    ∃ next, apply input [CommandName.multi.text] processor = some next ∧ Inv next ∧
      Within clientId host original [] rest next := by
  obtain ⟨next, hnext, hinv', hdatabase, htransaction, hwatched⟩ := drives.bracket hinput hinv
    (not_blocking_of_name Processor.nameOf_multi (by decide)) hbetween.reproduces.everlasting
    fun start hshare => ⟨ok, start.transactions.insert clientId {}, by
      unfold Processor.processCommand
      rw [if_neg (by simp), Processor.nameOf_multi]
      simp [Processor.multi, Processor.hasTransaction,
        hshare.transaction.trans hbetween.ready.transaction], rfl, AList.lookup_insert _⟩
  exact ⟨next, hnext, hinv', htransaction, hwatched.trans hbetween.ready.watched,
    hdatabase ▸ hbetween.reproduces⟩

theorem queue (hreplayable : Replayable command)
    (hwithin : Within clientId host original queued (command :: rest) processor) :
    ∃ next, apply input command processor = some next ∧ Inv next ∧
      Within clientId host original (queued ++ [command]) rest next := by
  obtain ⟨next, hnext, hinv', hdatabase, htransaction, hwatched⟩ := drives.bracket hinput hinv
    hreplayable.not_blocking hwithin.reproduces.everlasting
    fun start hshare => ⟨.simpleString (ascii "QUEUED"),
      start.transactions.insert clientId { commands := queued ++ [command] }, by
        rw [Processor.processCommand_of_replayable hreplayable, Processor.queueOrRun,
          hshare.transaction.trans hwithin.transaction], rfl, AList.lookup_insert _⟩
  refine ⟨next, hnext, hinv', htransaction, hwatched.trans hwithin.watched, ?_⟩
  rw [hdatabase, List.append_assoc]
  exact hwithin.reproduces

theorem exec (hqueued : queued ≠ [])
    (hwithin : Within clientId host original queued rest processor) :
    ∃ next, apply input [CommandName.exec.text] processor = some next ∧ Inv next ∧
      Between clientId host original rest next := by
  obtain ⟨start, hdatabase, hshare, hsilent, happlies⟩ :=
    drives.applies input _ processor hinput hinv hwithin.reproduces.everlasting
      (not_blocking_of_name Processor.nameOf_exec (by decide))
  obtain ⟨responses, database, events, file, hprocess, hresponses, hfile, hrest⟩ :=
    Processor.processCommand_exec hqueued (hshare.transaction.trans hwithin.transaction)
      (hshare.watched.trans hwithin.watched) hsilent (hdatabase ▸ hwithin.reproduces)
  obtain ⟨next, hnext, hinv', rfl, hshare'⟩ := happlies _ database events _ _ file hprocess hfile
    (by simpa [faultless] using hresponses) hrest.everlasting
  exact ⟨next, hnext, hinv', ⟨hshare'.transaction.trans (AList.lookup_erase _ _),
    hshare'.watched.trans (AList.lookup_erase _ _)⟩, hrest⟩

end Steps

include drives

/-- Queueing the writes of a transaction one after the other. -/
theorem queueAll {commands : List Command} (hinv : Inv processor)
    (hwithin : Within clientId host original queued (commands ++ rest) processor) :
    Runs.Ensures apply Given
      (fun next => Inv next ∧ Within clientId host original (queued ++ commands) rest next)
      commands processor := by
  induction commands generalizing processor queued with
  | nil => simpa using ⟨hinv, hwithin⟩
  | cons command commands ih =>
    intro input hinput
    have hreplayable : Replayable command := by
      have hall := hwithin.reproduces
      rw [← List.append_assoc] at hall
      exact hall.replayable command (by simp)
    obtain ⟨next, hnext, hinv', hwithin'⟩ := drives.queue hinput hinv hreplayable hwithin
    refine ⟨next, hnext, ?_⟩
    simpa using ih hinv' hwithin'

/-- **One unit after the other.** -/
theorem units {units : List StreamUnit} (hproper : ∀ unit ∈ units, unit.Proper)
    (hinv : Inv processor)
    (hbetween : Between clientId host original (units.flatMap StreamUnit.writes ++ rest)
      processor) :
    Runs.Ensures apply Given
      (fun next => Inv next ∧ Between clientId host original rest next)
      (units.flatMap StreamUnit.commands) processor := by
  induction units generalizing processor with
  | nil => exact ⟨hinv, hbetween⟩
  | cons unit units ih =>
    have ih := fun {next} => @ih next fun other hother => hproper other (by simp [hother])
    rw [List.flatMap_cons, List.append_assoc] at hbetween
    rw [List.flatMap_cons]
    cases unit with
    | write command =>
      intro input hinput
      obtain ⟨next, hnext, hinv', hbetween'⟩ := drives.write hinput hinv hbetween
      exact ⟨next, hnext, ih hinv' hbetween'⟩
    | transaction commands =>
      have hcommands : (StreamUnit.transaction commands).commands ++
          units.flatMap StreamUnit.commands = [CommandName.multi.text] ::
            (commands ++ [CommandName.exec.text] :: units.flatMap StreamUnit.commands) := by
        simp [StreamUnit.commands]
      rw [hcommands]
      intro input hinput
      obtain ⟨next, hnext, hinv', hwithin⟩ := drives.multi hinput hinv hbetween
      refine ⟨next, hnext, ?_⟩
      refine Runs.ensures_append.mpr ((drives.queueAll hinv' hwithin).mono ?_)
      rintro queued ⟨hqueuedInv, hwithin'⟩ input hinput
      obtain ⟨final, hfinal, hfinalInv, hbetween'⟩ :=
        drives.exec hinput hqueuedInv (hproper (.transaction commands) (by simp)) hwithin'
      exact ⟨final, hfinal, ih hfinalInv hbetween'⟩
    | getAck =>
      intro input hinput
      obtain ⟨next, hnext, hinv', hbetween'⟩ := drives.getAck hinput hinv hbetween
      exact ⟨next, hnext, ih hinv' hbetween'⟩

end Drives

end RedisServer
