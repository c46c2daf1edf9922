import RedisServer.Processor.Recovery

/-!
# A log that was cut off

The log grows by one unit at a time.  So for every number of units there is a
moment of the run at which the log held just these: between two phases, or, when
one pass serves several blocked `BLPOP`s, between two of its visits
(`moments_run`).

Startup reads a beginning of the log.  If the cut is inside a command, the parser
asks for more; if it is inside a transaction, the replay ends with the transaction
open; both are errors.  What remains is a log of whole units, and it rebuilds the
entries of the moment at which the log was that long.
-/

namespace RedisServer

open Resp KeyedStore Commands Aof

variable {before after : Processor} {deeds : List Deed}

/-! ## Phases that do not write to the log -/

/-- The phases during which something may be appended to the log. -/
def Phase.appends : Phase → Bool
  | .task _ (.command _ _ _ _) | .task _ (.initializeAof _ _) | .retryListPops _ => true
  | _ => false

namespace Processor

/-- A blocking command that does not pop leaves the log alone. -/
theorem Attempts.aofFile {host : Host} {Pops : Task → Prop} (hnone : ∀ task, ¬ Pops task)
    (h : Attempts host Pops before after) : after.aofFile = before.aofFile := by
  refine h.relation (fun first second => second.aofFile = first.aofFile) (fun _ => rfl)
    (fun _ _ _ h₁ h₂ => h₂.trans h₁) ?_
  intro first second hattempt
  cases hattempt with
  | pop hpops _ => exact absurd hpops (hnone _)
  | _ => rfl

end Processor

theorem aofFile_perform {host : Host} {phase : Phase} (hquiet : phase.appends = false)
    (h : phase.perform host before = some after) : after.aofFile = before.aofFile := by
  rcases perform_cases h with ⟨env, work, rfl, hwork⟩ | ⟨event, rfl, rfl⟩ | ⟨-, -, hpass⟩
  · cases work with
    | command clientId words source replicationBytes => cases hquiet
    | initializeAof file commands => cases hquiet
    | unregisterClient clientId =>
      cases hwork
      have hcancel := Processor.attempts_cancelPendingCommands host clientId before
      have hsame := hcancel.aofFile fun _ hpops => hpops
      exact hsame
    | _ =>
      cases hwork
      rfl
  · obtain ⟨sessions, replication, hevent⟩ := external_perform_eq event before
    rw [hevent]
  · refine hpass.aofFile fun task hpops => ?_
    cases phase with
    | retryListPops inputs => cases hquiet
    | _ => exact hpops

/-! ## Units and replies -/

section Counting

variable {host : Host}

/-- Every unit comes with the reply to somebody. -/
theorem length_loggedUnits_le (deeds : List Deed) :
    (loggedUnits host deeds).length ≤ (deeds.flatMap Deed.replies).length := by
  have hone : ∀ deed : Deed, (deed.unit host).toList.length ≤ deed.replies.length := by
    intro deed
    cases deed with
    | ran task response result =>
      simp only [Deed.unit, Deed.replies]
      split <;> simp
    | transacted task commands responses result =>
      simp only [Deed.unit, Deed.replies]
      split <;> simp
    | _ => simp [Deed.unit]
  induction deeds with
  | nil => exact Nat.le_refl _
  | cons deed deeds ih =>
    have hdeed := hone deed
    simp only [loggedUnits, List.flatMap_cons, List.length_append] at ih ⊢
    omega

theorem loggedUnits_append (deeds deeds' : List Deed) :
    loggedUnits host (deeds ++ deeds') = loggedUnits host deeds ++ loggedUnits host deeds' :=
  List.flatMap_append

theorem payload_ne_nil {unit : StreamUnit} : unit.payload ≠ [] := by
  cases unit with
  | write command => simpa [StreamUnit.payload, StreamUnit.commands] using serializeCommand_ne_nil command
  | transaction commands =>
    simp [StreamUnit.payload, StreamUnit.commands, serializeCommand_ne_nil]
  | getAck => simp [StreamUnit.payload, StreamUnit.commands, serializeCommand_ne_nil]

end Counting

/-! ## Moments of a run -/

/-- The states that a phase goes through: the one before it, the one after it,
and those between two visits of the pass that serves blocked `BLPOP`s. -/
inductive Phase.Passes (host : Host) (phase : Phase) (before : Processor) : Processor → Prop
  | begin : Passes host phase before before
  | complete {after : Processor} (h : phase.perform host before = some after) :
      Passes host phase before after
  | visiting {inputs : Stream' (Clock × Disk)} {visited rest : List PendingListPop}
      (hphase : phase = .retryListPops inputs)
      (hqueue : before.pendingListPops = visited ++ rest) :
      Passes host phase before
        (Scan.scan Processor.retryListPop inputs visited before).2

/-- The states that a run goes through. -/
inductive Moment (host : Host) : List Phase → Processor → Processor → Prop
  | now {phases : List Phase} {state : Processor} : Moment host phases state state
  | within {phase : Phase} {rest : List Phase} {before state : Processor}
      (h : phase.Passes host before state) : Moment host (phase :: rest) before state
  | later {phase : Phase} {rest : List Phase} {before after state : Processor}
      (h : phase.perform host before = some after) (hrest : Moment host rest after state) :
      Moment host (phase :: rest) before state

section Moments

variable {host : Host} {regime : Regime}

/-- Deeds that end in a state with one reply more have logged one unit at most. -/
theorem length_loggedUnits_of_replies (h : Chronicle host regime before deeds after)
    (hreplies : after.replies.length ≤ before.replies.length + 1) :
    (loggedUnits host deeds).length ≤ 1 := by
  have hle : (loggedUnits host deeds).length ≤ _ := length_loggedUnits_le deeds
  rw [h.replies, List.length_append] at hreplies
  omega

/-- The deeds in between log these units, and for every number of them there is
a moment at which just these were logged. -/
def Grows (host : Host) (regime : Regime) (Passed : Processor → Prop) (before after : Processor) :
    Prop :=
  ∃ deeds, Chronicle host regime before deeds after ∧
    ∀ count ≤ (loggedUnits host deeds).length, ∃ moment deeds',
      Passed moment ∧ Chronicle host regime before deeds' moment ∧ deeds' ⊆ deeds ∧
        loggedUnits host deeds' = (loggedUnits host deeds).take count

/-- One unit at most: the moments are the two ends. -/
theorem grows_of_length_le {Passed : Processor → Prop}
    (h : Chronicle host regime before deeds after) (hlength : (loggedUnits host deeds).length ≤ 1)
    (hbefore : Passed before) (hafter : Passed after) : Grows host regime Passed before after := by
  refine ⟨deeds, h, fun count hcount => ?_⟩
  rcases Nat.eq_or_lt_of_le hcount with rfl | hlt
  · exact ⟨after, deeds, hafter, h, List.Subset.refl _, by rw [List.take_length]⟩
  · obtain rfl : count = 0 := by omega
    exact ⟨before, [], hbefore, .quiet rfl rfl rfl rfl rfl rfl, List.nil_subset _, rfl⟩

theorem Grows.trans {Passed Passed' Passed'' : Processor → Prop} {middle : Processor}
    (hfirst : Grows host regime Passed' before middle)
    (hsecond : Grows host regime Passed'' middle after)
    (hpassed' : ∀ moment, Passed' moment → Passed moment)
    (hpassed'' : ∀ moment, Passed'' moment → Passed moment) :
    Grows host regime Passed before after := by
  obtain ⟨deeds, hchronicle, hmoments⟩ := hfirst
  obtain ⟨deeds', hchronicle', hmoments'⟩ := hsecond
  refine ⟨deeds ++ deeds', hchronicle.trans hchronicle', fun count hcount => ?_⟩
  rw [loggedUnits_append, List.length_append] at hcount
  rw [loggedUnits_append, List.take_append]
  rcases Nat.le_total count (loggedUnits host deeds).length with hle | hge
  · obtain ⟨moment, passed, hmoment, hpassed, hsubset, hunits⟩ := hmoments count hle
    refine ⟨moment, passed, hpassed' moment hmoment, hpassed,
      List.subset_append_of_subset_left _ hsubset, ?_⟩
    rw [hunits, Nat.sub_eq_zero_of_le hle, List.take_zero, List.append_nil]
  · obtain ⟨moment, passed, hmoment, hpassed, hsubset, hunits⟩ :=
      hmoments' (count - (loggedUnits host deeds).length) (by omega)
    refine ⟨moment, deeds ++ passed, hpassed'' moment hmoment, hchronicle.trans hpassed,
      List.append_subset.mpr ⟨List.subset_append_left _ _,
        List.subset_append_of_subset_right _ hsubset⟩, ?_⟩
    rw [loggedUnits_append, hunits, List.take_of_length_le hge]

/-- A state of the pass over the blocked `BLPOP`s, between two of its visits. -/
def Visiting (inputs : Stream' (Clock × Disk)) (items : List PendingListPop)
    (before state : Processor) : Prop :=
  ∃ visited rest, items = visited ++ rest ∧
    state = (Scan.scan Processor.retryListPop inputs visited before).2

theorem grows_retryListPops {inputs : Stream' (Clock × Disk)}
    (hinputs : ∀ n, regime.Timely (inputs.get n).1 ∧ regime.Safe (inputs.get n).2)
    {items : List PendingListPop}
    (hitems : ∀ pending ∈ items, regime.Ordered pending.task ∧ pending.Waiting host)
    (hholds : before.Holds host regime) :
    (Scan.scan Processor.retryListPop inputs items before).2.Holds host regime ∧
      Grows host regime (Visiting inputs items before) before
        (Scan.scan Processor.retryListPop inputs items before).2 := by
  induction items generalizing inputs before with
  | nil =>
    have hnow : Visiting inputs [] before before := ⟨[], [], rfl, rfl⟩
    exact ⟨hholds, grows_of_length_le (.quiet rfl rfl rfl rfl rfl rfl) (by simp [loggedUnits])
      hnow hnow⟩
  | cons item rest ih =>
    have hproceeds : Proceeds host regime before
        (Processor.retryListPop inputs.head item before).2 :=
      Processor.proceeds_retryListPop (hinputs 0).1 (hinputs 0).2 (hitems item (by simp)) before
    obtain ⟨hmiddle, deeds, hdeeds⟩ := hproceeds hholds
    obtain ⟨hafter, hgrows⟩ := ih (fun n => hinputs (n + 1))
      (fun other hother => hitems other (by simp [hother])) hmiddle
    rw [Scan.scan_cons]
    refine ⟨hafter, ?_⟩
    -- One visit answers one command at most, so it logs one unit at most.
    have hreplies : (Processor.retryListPop inputs.head item before).2.replies.length ≤
        before.replies.length + 1 := by
      have hvisited := Processor.visited_retryListPop inputs.head item before
      generalize Processor.retryListPop inputs.head item before = outcome at hvisited
      cases hvisited with
      | kept _ hanswers => simp [hanswers.replies]
      | answered hanswers => simp [hanswers.replies]
    have hnow : Visiting inputs (item :: rest) before before := ⟨[], item :: rest, rfl, rfl⟩
    have hnext : Visiting inputs (item :: rest) before
        (Processor.retryListPop inputs.head item before).2 := ⟨[item], rest, rfl, rfl⟩
    have hfirst := grows_of_length_le hdeeds (length_loggedUnits_of_replies hdeeds hreplies)
      hnow hnext
    refine hfirst.trans hgrows (fun _ h => h) ?_
    rintro _ ⟨visited, later, rfl, rfl⟩
    exact ⟨item :: visited, later, rfl, rfl⟩

/-- A phase that leaves the log alone has logged nothing. -/
theorem loggedUnits_of_aofFile (h : Chronicle host Regime.recoverable before deeds after)
    (hlasting : ∀ deed ∈ deeds, deed.Lasting) (hopen : before.aofFile.isSome)
    (hsame : after.aofFile = before.aofFile) : loggedUnits host deeds = [] := by
  obtain ⟨file, hfile⟩ := Option.isSome_iff_exists.mp hopen
  have hlog := h.log hlasting
  rw [log_eq_payloads h.proper fun _ hordered => hordered.1, hsame, hfile] at hlog
  simp only [Option.map_some, Option.some.injEq, List.self_eq_append_right] at hlog
  rw [List.flatMap_eq_nil_iff] at hlog
  rcases hunits : loggedUnits host deeds with _ | ⟨unit, units⟩
  · rfl
  · exact absurd (hlog unit (by simp [hunits])) payload_ne_nil

theorem length_replies_processTask {env : Env} {task : Task}
    (h : before.processTask host env task = some after) :
    after.replies.length ≤ before.replies.length + 1 := by
  cases Processor.taskEnd_processTask h with
  | answered hanswers _ => simp [hanswers.replies]
  | _ => simp

/-- **A phase logs one unit after the other.** -/
theorem grows_perform {phase : Phase} (hwithin : phase.Within Regime.recoverable)
    (hholds : before.Holds host Regime.recoverable) (hopen : before.aofFile.isSome)
    (h : phase.perform host before = some after) (herrors : after.appendErrors = []) :
    after.Holds host Regime.recoverable ∧
      Grows host Regime.recoverable (phase.Passes host before) before after := by
  obtain ⟨hafter, deeds, hdeeds⟩ := proceeds_perform hwithin h hholds
  refine ⟨hafter, ?_⟩
  have hlasting := hdeeds.lasting not_false herrors
  have hquiet : phase.appends = false → Grows host Regime.recoverable (phase.Passes host before)
      before after := fun hquiet => by
    have hnone := loggedUnits_of_aofFile hdeeds hlasting hopen (aofFile_perform hquiet h)
    exact grows_of_length_le hdeeds (by simp [hnone]) .begin (.complete h)
  cases phase with
  | task env work =>
    cases work with
    | command clientId words source replicationBytes =>
      have hreplies := length_replies_processTask h
      exact grows_of_length_le hdeeds (length_loggedUnits_of_replies hdeeds hreplies) .begin
        (.complete h)
    | initializeAof file commands => exact hwithin.2.2.1.elim
    | _ => exact hquiet rfl
  | retryListPops inputs =>
    obtain ⟨-, hgrows⟩ := grows_retryListPops hwithin hholds.pops hholds
    cases h
    -- At the end of the pass the queue is replaced, which is nobody's deed.
    have hlast : Grows host Regime.recoverable
        ((Phase.retryListPops inputs).Passes host before)
        (Scan.scan Processor.retryListPop inputs before.pendingListPops before).2
        (before.retryPendingListPops inputs) :=
      grows_of_length_le (.quiet rfl rfl rfl rfl rfl rfl) (by simp [loggedUnits])
        (.visiting rfl (List.append_nil _).symm) (.complete rfl)
    refine hgrows.trans hlast ?_ fun _ h => h
    rintro _ ⟨visited, rest, hqueue, rfl⟩
    exact .visiting rfl hqueue
  | _ => exact hquiet rfl

/-- **For every number of units there is a moment at which just these were
logged.** -/
theorem grows_run {phases : List Phase} (hwithin : ∀ phase ∈ phases,
      phase.Within Regime.recoverable) {final : Processor}
    (hholds : before.Holds host Regime.recoverable) (hopen : before.aofFile.isSome)
    (h : runPhases host phases before = some final) (herrors : final.appendErrors = []) :
    Grows host Regime.recoverable (Moment host phases before) before final := by
  induction phases generalizing before with
  | nil =>
    cases h
    exact grows_of_length_le (.quiet rfl rfl rfl rfl rfl rfl) (by simp [loggedUnits]) .now .now
  | cons phase rest ih =>
    obtain ⟨middle, hphase, hrest⟩ := Runs.run_cons_eq_some.mp h
    have hrestWithin : ∀ other ∈ rest, other.Within Regime.recoverable :=
      fun other hother => hwithin other (by simp [hother])
    have hmiddleHolds := (proceeds_perform (hwithin phase (by simp)) hphase hholds).1
    -- Errors are never taken back, so there were none in the middle.
    have hmiddle : middle.appendErrors = [] := by
      obtain ⟨-, deeds, hdeeds⟩ := proceeds_run hrestWithin hrest hmiddleHolds
      have hall := hdeeds.errors
      rw [herrors, eq_comm, List.append_eq_nil_iff] at hall
      exact hall.1
    obtain ⟨-, hgrows⟩ := grows_perform (hwithin phase (by simp)) hholds hopen hphase hmiddle
    have hmiddleOpen : middle.aofFile.isSome := by
      obtain ⟨deeds, hdeeds, -⟩ := hgrows
      have hlog := congrArg Option.isSome (hdeeds.log (hdeeds.lasting not_false hmiddle))
      simpa [hopen] using hlog
    refine hgrows.trans (ih hrestWithin hmiddleHolds hmiddleOpen hrest) (fun _ h => .within h)
      fun _ h => .later hphase h

end Moments

/-! ## Startup from a part of the log -/

section Startup

variable {host : Host} {original : Database} {units : List StreamUnit} {fresh : Processor}
  {file : AppendOnlyFile}

/-- A replay that ends inside a transaction is refused. -/
theorem processAofInitialization_open (hproper : ∀ unit ∈ units, unit.Proper)
    {queued rest : List Command} (hready : fresh.Ready Processor.aofClientId)
    (hreproduces : Reproduces host original
      (units.flatMap StreamUnit.writes ++ (queued ++ rest)) fresh.database)
    (envs : Stream' CommandEnv) :
    ∃ message recovered, fresh.processAofInitialization host envs file
      (units.flatMap StreamUnit.commands ++ [CommandName.multi.text] :: queued) =
        some (.error message, recovered) := by
  have drives := drives_replayCommand host
  have hbetween : Drives.Between Processor.aofClientId host original
      (units.flatMap StreamUnit.writes ++ (queued ++ rest)) fresh := ⟨hready, hreproduces⟩
  have hends : Runs.Ensures (replayCommand host) (fun _ => True)
      (Drives.Within Processor.aofClientId host original queued rest)
      (units.flatMap StreamUnit.commands ++ [CommandName.multi.text] :: queued) fresh := by
    refine Runs.ensures_append.mpr ((drives.units hproper trivial hbetween).mono ?_)
    rintro processor ⟨-, hbetween'⟩ input hinput
    obtain ⟨next, hnext, -, hwithin⟩ := drives.multi hinput trivial hbetween'
    exact ⟨next, hnext, (drives.queueAll trivial hwithin).mono fun _ h => h.2⟩
  have hgiven : ∀ n, (fun _ : CommandEnv => True) (envs.get n) := fun _ => trivial
  obtain ⟨final, hrun, hfinal⟩ : ∃ final, Runs.runWith (replayCommand host) _ envs fresh =
      some final ∧ _ := hends.runWith hgiven
  refine ⟨ascii "AOF file ended before its transaction was completed", final.forgetReplay, ?_⟩
  rw [processAofInitialization_of_replay (replayCommands_of_runWith hrun),
    if_pos (by simp [Processor.hasTransaction, hfinal.transaction])]

/-- The proper beginnings of a unit: there are none but those of a transaction. -/
theorem open_of_cut_unit {unit : StreamUnit} {part : List Command} (hne : part ≠ [])
    (hpart : part <+: unit.commands) (hshort : part.length < unit.commands.length) :
    ∃ queued rest, unit = .transaction (queued ++ rest) ∧
      part = [CommandName.multi.text] :: queued := by
  have hpos : 0 < part.length := List.length_pos_iff.mpr hne
  cases unit with
  | write command =>
    simp only [StreamUnit.commands, List.length_singleton] at hshort
    omega
  | getAck =>
    simp only [StreamUnit.commands, List.length_singleton] at hshort
    omega
  | transaction commands =>
    obtain ⟨first, queued, rfl⟩ := List.exists_cons_of_ne_nil hne
    obtain ⟨rfl, hqueued⟩ := List.cons_prefix_cons.mp hpart
    have hle : queued.length ≤ commands.length := by
      simp only [StreamUnit.commands, List.length_cons, List.length_append, List.length_nil]
        at hshort
      omega
    obtain ⟨rest, rfl⟩ : queued <+: commands :=
      List.prefix_of_prefix_length_le hqueued (List.prefix_append _ _) hle
    exact ⟨queued, rest, rfl, rfl⟩

/-- **A beginning of the log is refused unless it consists of whole units.** -/
theorem startup_of_cut (hproper : ∀ unit ∈ units, unit.Proper)
    (hsized : ∀ command ∈ units.flatMap StreamUnit.writes, Sized command)
    (hcut : file.contents <+: units.flatMap StreamUnit.payload)
    (hready : fresh.Ready Processor.aofClientId)
    (hreproduces : Reproduces host original (units.flatMap StreamUnit.writes) fresh.database)
    (envs : Stream' CommandEnv) :
    (∃ message recovered, initializePersistence host envs file fresh =
        some (.error message, recovered)) ∨
      ∃ done rest, units = done ++ rest ∧ file.contents = done.flatMap StreamUnit.payload := by
  have hall := sized_commands hsized
  rw [flatMap_payload] at hcut
  obtain ⟨read, unread, part, hcommands, hcontents, hpart⟩ := Framing.cut_flatMap hcut
  have hreadSized : ∀ command ∈ read, Sized command := fun command hcommand =>
    hall command (by rw [hcommands]; simp [hcommand])
  rcases hpart with rfl | ⟨command, more, rfl, hne, hprefix, hshort⟩
  · rw [List.append_nil] at hcontents
    have hread : readCommands file = .ok read := readCommands_serialized hcontents hreadSized
    obtain ⟨done, rest, part, rfl, rfl, hpart⟩ :=
      Framing.cut_flatMap (show read <+: units.flatMap StreamUnit.commands from
        ⟨unread, hcommands.symm⟩)
    rcases hpart with rfl | ⟨unit, more, rfl, hne, hprefix, hshort⟩
    · refine .inr ⟨done, rest, rfl, ?_⟩
      rw [hcontents, List.append_nil, flatMap_payload]
    · obtain ⟨queued, remaining, rfl, rfl⟩ := open_of_cut_unit hne hprefix hshort
      rw [List.flatMap_append, List.flatMap_cons, StreamUnit.writes, List.append_assoc]
        at hreproduces
      obtain ⟨message, recovered, hinitialize⟩ := @processAofInitialization_open host original
        done fresh file (fun unit hunit => hproper unit (by simp [hunit])) queued _ hready
        hreproduces envs
      refine .inl ⟨message, recovered, ?_⟩
      rw [initializePersistence, hread]
      exact hinitialize
  · obtain ⟨message, herror⟩ := readCommands_torn hreadSized
      (hall command (by rw [hcommands]; simp)) hprefix hne hshort hcontents
    exact .inl ⟨message, fresh, by rw [initializePersistence, herror]⟩

end Startup

/-- **A torn log never shows a part of a transaction.**  Take a run from an empty
database and an empty log in which no entry was given an expiry, the system clock
was after the epoch and no append failed, and any beginning of its log.  Startup
from it reports an error, or there is a moment of the run at which the log was
just this long, which is a number of whole units, and startup ends with the
entries the server had at that moment. -/
theorem torn_log_rebuilds_moment (host : Host) {start : Processor} (hstart : start.Fresh)
    {file : AppendOnlyFile} (hempty : file.contents = []) (phases : List Phase)
    (hwithin : ∀ phase ∈ phases, phase.Within Regime.recoverable) {final : Processor}
    (hrun : runPhases host phases { start with aofFile := some file } = some final)
    (hlogged : final.appendErrors = []) {log torn : AppendOnlyFile}
    (hlog : final.aofFile = some log) (htorn : torn.contents <+: log.contents)
    {fresh : Processor} (hfresh : fresh.Fresh) (envs : Stream' CommandEnv) :
    (∃ message recovered, initializePersistence host envs torn fresh =
        some (.error message, recovered)) ∨
      ∃ (recovered moment : Processor) (units rest : List StreamUnit),
        initializePersistence host envs torn fresh = some (.ok (), recovered) ∧
        Moment host phases { start with aofFile := some file } moment ∧
        moment.aofFile.map AppendOnlyFile.contents = some torn.contents ∧
        torn.contents = units.flatMap StreamUnit.payload ∧
        log.contents = (units ++ rest).flatMap StreamUnit.payload ∧
        ∀ key, recovered.database.entries.lookup key = moment.database.entries.lookup key := by
  have hholds : { start with aofFile := some file }.Holds host Regime.recoverable :=
    (hstart.holds host _).congr rfl rfl rfl rfl
  obtain ⟨deeds, hdeeds, hmoments⟩ := grows_run hwithin hholds rfl hrun hlogged
  have hlasting := hdeeds.lasting not_false hlogged
  have hlogs := hdeeds.logs hstart hempty hlasting
  obtain ⟨found, hfound, hcontents⟩ := hlogs.contents
  obtain rfl : found = log := Option.some.inj (hfound.symm.trans hlog)
  rw [hcontents] at htorn
  have hrebuilds := hlogs.rebuilds
  rw [← hfresh.database] at hrebuilds
  rcases startup_of_cut hlogs.proper hlogs.sized htorn (hfresh.ready _) hrebuilds envs with
    herror | ⟨done, rest, hunits, hdone⟩
  · exact .inl herror
  · right
    -- The moment at which just these units were logged has a log of its own.
    obtain ⟨moment, passed, hmoment, hpassed, hsubset, htake⟩ :=
      hmoments done.length (by rw [hunits, List.length_append]; omega)
    rw [hunits, List.take_left] at htake
    have hmomentLogs := hpassed.logs hstart hempty fun deed hdeed => hlasting deed (hsubset hdeed)
    rw [htake] at hmomentLogs
    obtain ⟨momentLog, hmomentLog, hmomentContents⟩ := hmomentLogs.contents
    have hmomentRebuilds := hmomentLogs.rebuilds
    rw [← hfresh.database] at hmomentRebuilds
    obtain ⟨recovered, hinitialize, hsame⟩ := @processAofInitialization_units host
      moment.database done fresh torn hmomentLogs.proper (hfresh.ready _) hmomentRebuilds envs
    refine ⟨recovered, moment, done, rest, ?_, hmoment, ?_, hdone, by rw [hcontents, hunits],
      hsame⟩
    · rw [initializePersistence, readCommands_units hmomentLogs.sized hdone]
      exact hinitialize
    · rw [hmomentLog, Option.map_some, hmomentContents, hdone]

theorem torn_log_rebuilds_moment_sample :
    let start := Processor.start .master [] (User.default none) {} {}
    let file : AppendOnlyFile := ⟨[], .always, 0, []⟩
    let envs := Stream'.const (Env.still ⟨7, 7⟩).toCommandEnv
    ∃ final recovered moment,
      runPhases Host.plain (stillRun ⟨5, 5⟩ sampleTasks) { start with aofFile := some file } =
        some final ∧
      final.aofFile.map AppendOnlyFile.contents = some (sampleLog.flatMap serializeCommand) ∧
      initializePersistence Host.plain envs
        { file with contents := (sampleLog.take 2).flatMap serializeCommand } start =
          some (.ok (), recovered) ∧
      Moment Host.plain (stillRun ⟨5, 5⟩ sampleTasks) { start with aofFile := some file } moment ∧
      ∀ key, recovered.database.entries.lookup key = moment.database.entries.lookup key := by
  intro start file envs
  have hfresh : start.Fresh := ⟨_, _, _, _, _, rfl⟩
  obtain ⟨final, hrun, herrors, hcontents⟩ := runPhases_sample
  obtain ⟨log, hlog, hlogContents⟩ := Option.map_eq_some_iff.mp hcontents
  have htorn : (sampleLog.take 2).flatMap serializeCommand <+: log.contents := by
    rw [hlogContents]
    exact ⟨(sampleLog.drop 2).flatMap serializeCommand, by
      rw [← List.flatMap_append, List.take_append_drop]⟩
  rcases torn_log_rebuilds_moment Host.plain hfresh rfl _
      (within_stillRun ⟨by decide, by decide⟩ within_sampleTasks) hrun herrors hlog
      (show { file with contents := (sampleLog.take 2).flatMap serializeCommand }.contents <+: _
        from htorn) hfresh envs with
    ⟨message, recovered, herror⟩ | ⟨recovered, moment, -, -, hok, hmoment, -, -, -, hsame⟩
  · -- The first two commands are whole units.
    have hok : (initializePersistence Host.plain envs
        { file with contents := (sampleLog.take 2).flatMap serializeCommand } start).any
          (fun outcome => outcome.1.isOk) = true := by
      decide +kernel
    rw [herror] at hok
    cases hok
  · exact ⟨final, recovered, moment, hrun, hcontents, hok, hmoment, hsame⟩

end RedisServer
