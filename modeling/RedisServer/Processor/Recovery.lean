import RedisServer.Processor.Promises
import RedisServer.Processor.Replay

/-!
# Recovery from the log

At startup the server reads the commands in its log and processes them.  After a
run in which nothing was given an expiry and every append succeeded, this
rebuilds the entries the server had when it went down.

If the log was cut off somewhere, startup fails unless the cut is between two
units.  In that case it rebuilds the entries the server had when the log was just
that long; a transaction is one unit, so no part of one ever shows.
-/

namespace RedisServer

open Resp KeyedStore Commands Aof

variable {host : Host} {after : Processor}

/-- `initialize_persistence` with the log enabled, once the file is open. -/
def initializePersistence (host : Host) (envs : Stream' CommandEnv) (file : AppendOnlyFile)
    (processor : Processor) : Option (Except Bytes Unit × Processor) :=
  match readCommands file with
  | .error message => some (.error message, processor)
  | .ok commands => processor.processAofInitialization host envs file commands

/-! ## Replaying -/

/-- One command of the log, as long as it is not answered with an error. -/
def replayCommand (host : Host) (env : CommandEnv) (command : Command) (processor : Processor) :
    Option Processor :=
  (processor.processCommand host env Processor.aofClientId command .aof).bind fun (response, after) =>
    if responseIsError response then none else some after

theorem replayCommands_of_runWith {commands : List Command} {envs : Stream' CommandEnv}
    {before : Processor} (h : Runs.runWith (replayCommand host) commands envs before = some after) :
    before.replayCommands host commands envs = some (.ok (), after) := by
  induction commands generalizing envs before with
  | nil =>
    cases h
    rfl
  | cons command commands ih =>
    obtain ⟨middle, hcommand, hrest⟩ := Option.bind_eq_some_iff.mp h
    obtain ⟨⟨response, processed⟩, hprocess, hnext⟩ := Option.bind_eq_some_iff.mp hcommand
    simp only at hnext
    split at hnext
    · cases hnext
    · rename_i herror
      cases hnext
      rw [Processor.replayCommands, hprocess, Option.bind_some]
      cases response with
      | simpleError message => exact absurd rfl herror
      | _ => exact ih hrest

/-- The log is replayed on behalf of a client of its own. -/
theorem drives_replayCommand (host : Host) :
    Drives host Processor.aofClientId .aof id (fun _ => True) (fun _ => True)
      (replayCommand host) where
  applies env command processor _ _ _ _ := by
    refine ⟨processor, rfl, ⟨rfl, rfl⟩,
      ⟨by simp [Processor.replicates], by simp [Processor.persists]⟩,
      fun reply database events transactions watchedKeys file hprocess _ hreply _ => ?_⟩
    refine ⟨{ processor with database, events, transactions, watchedKeys, aofFile := file }, ?_,
      trivial, rfl, rfl, rfl⟩
    unfold replayCommand
    simp only [id] at hprocess
    rw [hprocess, Option.bind_some]
    simp [responseIsError_of_faultless hreply]

/-! ## The log of a run -/

section Log

variable {host : Host}

theorem sized_commands {units : List StreamUnit}
    (h : ∀ command ∈ units.flatMap StreamUnit.writes, Sized command) :
    ∀ command ∈ units.flatMap StreamUnit.commands, Sized command := by
  have hsmall : ∀ command ∈ [[CommandName.multi.text], [CommandName.exec.text],
      Processor.getAckCommand], Sized command := by
    intro command hcommand
    simp only [List.mem_cons, List.not_mem_nil, or_false] at hcommand
    rcases hcommand with rfl | rfl | rfl <;> exact ⟨by decide, by decide⟩
  intro command hcommand
  obtain ⟨unit, hunit, hcommand⟩ := List.mem_flatMap.mp hcommand
  have hwrites : ∀ written ∈ unit.writes, Sized written := fun written hwritten =>
    h written (List.mem_flatMap.mpr ⟨unit, hunit, hwritten⟩)
  cases unit with
  | write written => exact hwrites command hcommand
  | transaction commands =>
    simp only [StreamUnit.commands, List.mem_cons, List.mem_append, List.not_mem_nil,
      or_false] at hcommand
    rcases hcommand with rfl | hcommand | rfl
    · exact hsmall _ (by simp)
    · exact hwrites command hcommand
    · exact hsmall _ (by simp)
  | getAck =>
    obtain rfl := List.mem_singleton.mp hcommand
    exact hsmall _ (by simp)

theorem flatMap_payload (units : List StreamUnit) :
    units.flatMap StreamUnit.payload =
      (units.flatMap StreamUnit.commands).flatMap serializeCommand :=
  (List.flatMap_assoc ..).symm

theorem loggedUnits_proper (deeds : List Deed) :
    ∀ unit ∈ loggedUnits host deeds, unit.Proper := by
  intro unit hunit
  obtain ⟨deed, -, hunit⟩ := List.mem_flatMap.mp hunit
  exact Deed.unit_proper (Option.mem_toList.mp hunit)

/-- What goes to the log is the payloads of the units. -/
theorem log_eq_payloads {regime : Regime} {deeds : List Deed}
    (hproper : ∀ deed ∈ deeds, deed.Proper host regime)
    (hsource : ∀ task, regime.Ordered task → task.source ≠ .aof) :
    deeds.flatMap (Deed.log host) = (loggedUnits host deeds).flatMap StreamUnit.payload := by
  unfold loggedUnits
  rw [List.flatMap_assoc]
  refine List.flatMap_congr fun deed hdeed => ?_
  have hproper := hproper deed hdeed
  have hpayload : deed.payload host = _ := Deed.payload_eq deed
  unfold Deed.log
  rw [hpayload]
  cases deed with
  | ran task response result =>
    rw [show (Deed.ran task response result).source = task.source from rfl,
      if_neg (hsource task hproper.1)]
    cases Deed.unit host (.ran task response result) <;> simp
  | transacted task commands responses result =>
    rw [show (Deed.transacted task commands responses result).source = task.source from rfl,
      if_neg (hsource task hproper.1)]
    cases Deed.unit host (.transacted task commands responses result) <;> simp
  | _ => rfl

end Log

/-! ## Startup -/

section Startup

variable {host : Host} {original : Database} {units : List StreamUnit} {fresh : Processor}
  {file : AppendOnlyFile}

theorem processAofInitialization_of_replay {commands : List Command} {envs : Stream' CommandEnv}
    (h : fresh.replayCommands host commands envs = some (.ok (), after)) :
    fresh.processAofInitialization host envs file commands =
      some (if after.hasTransaction Processor.aofClientId then
        (.error (ascii "AOF file ended before its transaction was completed"), after.forgetReplay)
      else (.ok (), { after.forgetReplay with aofFile := some file })) := by
  rw [Processor.processAofInitialization, h]
  rfl

/-- A log of whole units is read. -/
theorem readCommands_units (hsized : ∀ command ∈ units.flatMap StreamUnit.writes, Sized command)
    (hcontents : file.contents = units.flatMap StreamUnit.payload) :
    readCommands file = .ok (units.flatMap StreamUnit.commands) :=
  readCommands_serialized (hcontents.trans (flatMap_payload units)) (sized_commands hsized)

/-- Whole units are replayed. -/
theorem processAofInitialization_units (hproper : ∀ unit ∈ units, unit.Proper)
    (hready : fresh.Ready Processor.aofClientId)
    (hreproduces : Reproduces host original (units.flatMap StreamUnit.writes) fresh.database)
    (envs : Stream' CommandEnv) :
    ∃ recovered, fresh.processAofInitialization host envs file
        (units.flatMap StreamUnit.commands) = some (.ok (), recovered) ∧
      ∀ key, recovered.database.entries.lookup key = original.entries.lookup key := by
  have hbetween : Drives.Between Processor.aofClientId host original
      (units.flatMap StreamUnit.writes ++ []) fresh :=
    ⟨hready, by rwa [List.append_nil]⟩
  have hgiven : ∀ n, (fun _ : CommandEnv => True) (envs.get n) := fun _ => trivial
  obtain ⟨final, hrun, -, hfinal⟩ :=
    ((drives_replayCommand host).units hproper trivial hbetween).runWith hgiven
  refine ⟨{ final.forgetReplay with aofFile := some file }, ?_, hfinal.reproduces.same⟩
  rw [processAofInitialization_of_replay (replayCommands_of_runWith hrun),
    if_neg (by simp [Processor.hasTransaction, hfinal.ready.transaction])]

end Startup

/-! ## Whole logs -/

/-- The processor was just constructed. -/
def Processor.Fresh (processor : Processor) : Prop :=
  ∃ role replicationId defaultUser rdbConfig aofConfig,
    processor = Processor.start role replicationId defaultUser rdbConfig aofConfig

namespace Processor.Fresh

variable {processor : Processor}

theorem database (h : processor.Fresh) : processor.database = {} := by
  obtain ⟨role, replicationId, defaultUser, rdbConfig, aofConfig, rfl⟩ := h
  rfl

theorem ready (h : processor.Fresh) (clientId : ClientId) : processor.Ready clientId := by
  obtain ⟨role, replicationId, defaultUser, rdbConfig, aofConfig, rfl⟩ := h
  exact ⟨by simp [Processor.start], by simp [Processor.start]⟩

theorem holds (h : processor.Fresh) (host : Host) (regime : Regime) :
    processor.Holds host regime := by
  obtain ⟨role, replicationId, defaultUser, rdbConfig, aofConfig, rfl⟩ := h
  exact holds_start role replicationId defaultUser rdbConfig aofConfig

end Processor.Fresh

/-- The runs whose log can be replayed: no entry is given an expiry, the system
clock is after the epoch, and no file is read. -/
abbrev Regime.recoverable : Regime := Regime.permanent (· ≠ .aof) fun _ => False

/-- The log holds these units, and they rebuild the database. -/
structure Logs (host : Host) (units : List StreamUnit) (processor : Processor) : Prop where
  contents : ∃ file, processor.aofFile = some file ∧
    file.contents = units.flatMap StreamUnit.payload
  proper : ∀ unit ∈ units, unit.Proper
  sized : ∀ command ∈ units.flatMap StreamUnit.writes, Sized command
  rebuilds : Reproduces host processor.database (units.flatMap StreamUnit.writes) {}

theorem Chronicle.logs {start : Processor} (hstart : start.Fresh) {file : AppendOnlyFile}
    (hempty : file.contents = []) {deeds : List Deed}
    (h : Chronicle host Regime.recoverable { start with aofFile := some file } deeds after)
    (hlasting : ∀ deed ∈ deeds, deed.Lasting) : Logs host (loggedUnits host deeds) after := by
  have hmirrors : Mirrors {} start.database := by
    rw [hstart.database]
    exact mirrors_empty
  obtain ⟨hrebuilds, hsized⟩ := h.reproduces hlasting hmirrors
  have hlog := h.log hlasting
  rw [log_eq_payloads h.proper fun _ hordered => hordered.1] at hlog
  obtain ⟨log, hlog, hcontents⟩ := Option.map_eq_some_iff.mp hlog
  simp only [hempty, List.nil_append] at hcontents
  rw [← writes_loggedUnits hlasting] at hrebuilds hsized
  exact ⟨⟨log, hlog, hcontents⟩, loggedUnits_proper deeds, hsized, hrebuilds⟩

/-- A run that starts with an empty log and an empty database logs its units. -/
theorem logs_of_run {start final : Processor} (hstart : start.Fresh) {file : AppendOnlyFile}
    (hempty : file.contents = []) {phases : List Phase}
    (hwithin : ∀ phase ∈ phases, phase.Within Regime.recoverable)
    (hrun : runPhases host phases { start with aofFile := some file } = some final)
    (hlogged : final.appendErrors = []) : ∃ units, Logs host units final := by
  have hholds : { start with aofFile := some file }.Holds host Regime.recoverable :=
    (hstart.holds host _).congr rfl rfl rfl rfl
  obtain ⟨-, deeds, hchronicle⟩ := proceeds_run hwithin hrun hholds
  exact ⟨_, hchronicle.logs hstart hempty (hchronicle.lasting not_false hlogged)⟩

/-- A log of whole units is read, and replaying it rebuilds the entries. -/
theorem Logs.recovers {units : List StreamUnit} {final : Processor} (h : Logs host units final) :
    ∃ log commands, final.aofFile = some log ∧ readCommands log = .ok commands ∧
      ∀ fresh : Processor, fresh.Fresh → ∀ envs, ∃ recovered,
        fresh.processAofInitialization host envs log commands = some (.ok (), recovered) ∧
        ∀ key, recovered.database.entries.lookup key = final.database.entries.lookup key := by
  obtain ⟨log, hlog, hcontents⟩ := h.contents
  refine ⟨log, _, hlog, readCommands_units h.sized hcontents, fun fresh hfresh envs => ?_⟩
  have hrebuilds := h.rebuilds
  rw [← hfresh.database] at hrebuilds
  exact processAofInitialization_units h.proper (hfresh.ready _) hrebuilds envs

/-- **The log rebuilds the database.**  Take a run from an empty database and an
empty log in which no entry was given an expiry, the system clock was after the
epoch and no append failed.  What is in the log at the end is read without an
error, and replaying it on a fresh processor, at any time, completes without an
error and leaves the entries of the run. -/
theorem log_rebuilds_database (host : Host) {start : Processor} (hstart : start.Fresh)
    {file : AppendOnlyFile} (hempty : file.contents = []) (phases : List Phase)
    (hwithin : ∀ phase ∈ phases, phase.Within Regime.recoverable) {final : Processor}
    (hrun : runPhases host phases { start with aofFile := some file } = some final)
    (hlogged : final.appendErrors = []) :
    ∃ log commands, final.aofFile = some log ∧ readCommands log = .ok commands ∧
      ∀ fresh : Processor, fresh.Fresh → ∀ envs, ∃ recovered,
        fresh.processAofInitialization host envs log commands = some (.ok (), recovered) ∧
        ∀ key, recovered.database.entries.lookup key = final.database.entries.lookup key := by
  obtain ⟨units, hlogs⟩ := logs_of_run hstart hempty hwithin hrun hlogged
  exact hlogs.recovers

theorem within_stillRun {Sent : CommandSource → Prop} {Kept : SessionId → Prop} {clock : Clock}
    (hclock : clock.Positive) {tasks : List ProcessorTask}
    (htasks : ∀ task ∈ tasks, task.Within (Regime.permanent Sent Kept)) :
    ∀ phase ∈ stillRun clock tasks, phase.Within (Regime.permanent Sent Kept) := by
  intro phase hphase
  obtain ⟨task, htask, hphase⟩ := List.mem_flatMap.mp hphase
  have henv : (Env.still clock).OnTime Clock.Positive :=
    ⟨⟨fun _ => hclock, fun _ => hclock⟩, fun _ => ⟨fun _ => hclock, fun _ => hclock⟩⟩
  simp only [Iteration.still, Iteration.phases, Iteration.externals, Iteration.expiries,
    List.map_nil, List.cons_append, List.nil_append, List.mem_cons, List.not_mem_nil,
    or_false] at hphase
  rcases hphase with rfl | rfl | rfl | rfl | rfl | rfl | rfl
  · exact ⟨henv, trivial, htasks task htask⟩
  · exact fun _ => ⟨hclock, trivial⟩
  · exact fun _ => hclock
  all_goals exact trivial

/-- The first client waits for an element that the second one then pushes; in a
transaction the second one adds to a stream and pops. -/
def sampleTasks : List ProcessorTask :=
  [.registerClient 1 0, .registerClient 2 1,
    .ofClient 1 [ascii "BLPOP", ascii "queue", ascii "0"],
    .ofClient 2 [ascii "RPUSH", ascii "queue", ascii "a", ascii "b", ascii "c"],
    .ofClient 2 [ascii "MULTI"],
    .ofClient 2 [ascii "XADD", ascii "stream", ascii "*", ascii "field", ascii "value"],
    .ofClient 2 [ascii "LPOP", ascii "queue"],
    .ofClient 2 [ascii "EXEC"]]

/-- What this run writes to its log. -/
def sampleLog : List Command :=
  [[ascii "RPUSH", ascii "queue", ascii "a", ascii "b", ascii "c"],
    [ascii "LPOP", ascii "queue"],
    [ascii "MULTI"],
    [ascii "XADD", ascii "stream", ascii "5-0", ascii "field", ascii "value"],
    [ascii "LPOP", ascii "queue"],
    [ascii "EXEC"]]

theorem within_sampleTasks :
    ∀ task ∈ sampleTasks, task.Within Regime.recoverable := by
  have hcommand : ∀ (clientId : ClientId) (words : Command), Sized words ∧ setsExpiry words = false →
      (ProcessorTask.ofClient clientId words).Within Regime.recoverable :=
    fun _ _ h _ => ⟨nofun, h⟩
  intro task htask
  simp only [sampleTasks, List.mem_cons, List.not_mem_nil, or_false] at htask
  rcases htask with rfl | rfl | htask
  · exact trivial
  · exact trivial
  · rcases htask with rfl | rfl | rfl | rfl | rfl | rfl <;> exact hcommand _ _ (by decide)

theorem runPhases_sample :
    ∃ final, runPhases Host.plain (stillRun ⟨5, 5⟩ sampleTasks)
        { Processor.start .master [] (User.default none) {} {} with
          aofFile := some ⟨[], .always, 0, []⟩ } = some final ∧
      final.appendErrors = [] ∧
      final.aofFile.map AppendOnlyFile.contents = some (sampleLog.flatMap serializeCommand) := by
  decide +kernel

theorem log_rebuilds_database_sample :
    ∃ final log, runPhases Host.plain (stillRun ⟨5, 5⟩ sampleTasks)
        { Processor.start .master [] (User.default none) {} {} with
          aofFile := some ⟨[], .always, 0, []⟩ } = some final ∧
      final.aofFile = some log ∧ log.contents = sampleLog.flatMap serializeCommand ∧
      ∀ envs, ∃ recovered,
        (Processor.start .master [] (User.default none) {} {}).processAofInitialization Host.plain
          envs log sampleLog = some (.ok (), recovered) ∧
        ∀ key, recovered.database.entries.lookup key = final.database.entries.lookup key := by
  have hfresh : (Processor.start .master [] (User.default none) {} {}).Fresh := ⟨_, _, _, _, _, rfl⟩
  obtain ⟨final, hrun, herrors, hcontents⟩ := runPhases_sample
  obtain ⟨log, commands, hlog, hread, hrebuilds⟩ := log_rebuilds_database Host.plain hfresh rfl _
    (within_stillRun ⟨by decide, by decide⟩ within_sampleTasks) hrun herrors
  rw [hlog, Option.map_some, Option.some.injEq] at hcontents
  obtain rfl : commands = sampleLog := by
    have hsample := readCommands_serialized hcontents (by decide)
    rw [hread] at hsample
    exact Except.ok.inj hsample
  exact ⟨final, log, hrun, hlog, hcontents, fun envs => hrebuilds _ hfresh envs⟩

/-! ## Expiries

An expiry is logged as it was given, as a span of time, and the replay counts it
from its own time on.  The removal of an expired entry is not logged at all.
-/

end RedisServer
