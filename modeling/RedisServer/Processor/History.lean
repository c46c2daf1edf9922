import RedisServer.Processor.Tasks

/-!
# What happens to the database

Whatever the processor does, the database only goes through looks, dispatched
commands and loaded keys, and every command and every loaded key is recorded in
`events`.  The relation `History` says so for two databases and the events in
between, and `Advances` for two states of the processor.

Facts about the database are then inductions over `History`, and never look at
the processor again.  `processCommand_cases` says what one command can do.

`Timely` is a condition on the clock readings that the history is made of.
-/

namespace RedisServer

open Resp KeyedStore Commands Aof

variable {before after : Processor} {response : Response} {command : Command} {env : CommandEnv}
  {clientId : ClientId} {source : CommandSource}

/-- The writes that took effect in an event, in the form in which they are
propagated. -/
def Event.writes (host : Host) : Event → List Command
  | .executed command response =>
    if effective host command response then [normalizeReplicationCommand command response]
    else []
  | .loaded _ => []

/-- The database went from one state to another through these events. -/
inductive History (host : Host) (Timely : Clock → Prop) :
    Database → List Event → Database → Prop
  | done (database : Database) : History host Timely database [] database
  | looked {clock : Clock} {before middle after : Database} {events : List Event}
      (timely : Timely clock) (purges : Purges (Entry.expired clock) before middle)
      (rest : History host Timely middle events after) : History host Timely before events after
  | executed {clock : Clock} {command : Command} {response : Response}
      {before middle after : Database} {events : List Event} (timely : Timely clock)
      (change : Change host clock command response before middle)
      (rest : History host Timely middle events after) :
      History host Timely before (.executed command response :: events) after
  | loaded {clock : Clock} {key value : Bytes} {expiry : Option Int} {before after : Database}
      {events : List Event} (timely : Timely clock)
      (rest : History host Timely (Database.set clock key value expiry before) events after) :
      History host Timely before (.loaded key :: events) after

namespace History

variable {host : Host} {Timely : Clock → Prop}

theorem trans {first second third : Database} {events events' : List Event}
    (h₁ : History host Timely first events second)
    (h₂ : History host Timely second events' third) :
    History host Timely first (events ++ events') third := by
  induction h₁ with
  | done database => exact h₂
  | looked timely purges _ ih => exact .looked timely purges (ih h₂)
  | executed timely change _ ih => exact .executed timely change (ih h₂)
  | loaded timely _ ih => exact .loaded timely (ih h₂)

theorem invariant {Allowed : StreamId → Prop} {before after : Database} {events : List Event}
    (h : History host Timely before events after)
    (hadmits : ∀ clock, Timely clock → Admits Allowed clock)
    (hbefore : Database.Invariant Allowed before) : Database.Invariant Allowed after := by
  induction h with
  | done database => exact hbefore
  | looked _ purges _ ih => exact ih (hbefore.purges purges)
  | executed timely change _ ih => exact ih (hbefore.change (hadmits _ timely) change)
  | loaded _ _ ih => exact ih (hbefore.set _ _ _ _)

end History

/-- A state of the processor and a later one: the events grew, and the database
went through the new ones. -/
def Advances (host : Host) (Timely : Clock → Prop) (before after : Processor) : Prop :=
  ∃ events, after.events = before.events ++ events ∧
    History host Timely before.database events after.database

namespace Advances

variable {host : Host} {Timely : Clock → Prop}

theorem of_eq (hdatabase : after.database = before.database)
    (hevents : after.events = before.events) : Advances host Timely before after :=
  ⟨[], by simp [hevents], by rw [hdatabase]; exact .done _⟩

theorem refl (processor : Processor) : Advances host Timely processor processor :=
  of_eq rfl rfl

theorem trans {first second third : Processor} (h₁ : Advances host Timely first second)
    (h₂ : Advances host Timely second third) : Advances host Timely first third := by
  obtain ⟨events, hevents, hhistory⟩ := h₁
  obtain ⟨events', hevents', hhistory'⟩ := h₂
  exact ⟨events ++ events', by simp [hevents', hevents], hhistory.trans hhistory'⟩

theorem looked {clock : Clock} (htimely : Timely clock)
    (hpurges : Purges (Entry.expired clock) before.database after.database)
    (hevents : after.events = before.events) : Advances host Timely before after :=
  ⟨[], by simp [hevents], .looked htimely hpurges (.done _)⟩

end Advances

/-! ## Timely environments -/

structure CommandEnv.OnTime (Timely : Clock → Prop) (env : CommandEnv) : Prop where
  clock : ∀ n, Timely (env.clock.get n)
  watchClock : ∀ n, Timely (env.watchClock.get n)

structure Env.OnTime (Timely : Clock → Prop) (env : Env) : Prop where
  command : env.toCommandEnv.OnTime Timely
  replay : ∀ n, (env.replay.get n).OnTime Timely

namespace Processor

/-! ## Propagation leaves the database alone -/

section Propagation

variable (persisted replicated : Bool) (disk : Disk) (clientId : ClientId) (payload : Bytes)
  (processor : Processor)

theorem persist_cases :
    ∃ file errors, (processor.persist persisted disk payload).2 =
      { processor with aofFile := file, appendErrors := errors } := by
  unfold persist
  cases hfile : processor.aofFile with
  | none => exact ⟨none, processor.appendErrors, by simp [← hfile]⟩
  | some file =>
    cases persisted with
    | false => exact ⟨some file, processor.appendErrors, by simp [← hfile]⟩
    | true => exact ⟨some _, _, rfl⟩

/-- Propagation changes the log and the replication stream, nothing else. -/
theorem propagate_cases :
    ∃ file errors replication,
      (processor.propagate persisted replicated disk clientId payload).2 =
        { processor with aofFile := file, appendErrors := errors, replication } := by
  obtain ⟨file, errors, hpersist⟩ := persist_cases persisted disk payload processor
  unfold propagate
  generalize processor.persist persisted disk payload = result at hpersist
  obtain ⟨outcome, after⟩ := result
  cases hpersist
  cases outcome with
  | error message => exact ⟨file, errors, processor.replication, rfl⟩
  | ok _ =>
    cases replicated with
    | false => exact ⟨file, errors, processor.replication, rfl⟩
    | true => exact ⟨file, errors, _, rfl⟩

theorem persistBlockingPop_cases {task : Task} {key : Bytes} {result : Except Bytes Unit}
    (h : before.persistBlockingPop disk task key = (result, after)) :
    ∃ file errors replication,
      after = { before with aofFile := file, appendErrors := errors, replication } := by
  obtain ⟨file, errors, replication, hafter⟩ := propagate_cases (before.persists task.source)
    (before.replicates task.source) disk task.clientId
    (serializeCommand [CommandName.lpop.text, key]) before
  unfold persistBlockingPop at h
  rw [h] at hafter
  exact ⟨file, errors, replication, hafter⟩

end Propagation

/-! ## Commands -/

section Commands

variable {host : Host} {Timely : Clock → Prop}

theorem purges_keyRevision (clock : Clock) (key : Bytes) (database : Database) :
    Purges (Entry.expired clock) database (Database.keyRevision clock key database).2 :=
  purges_purge _ key database

/-- Asking for revisions only looks, each time with its own reading. -/
theorem history_watchKeys (keys : List Bytes) (clocks : Stream' Clock)
    (htimely : ∀ n, Timely (clocks.get n)) (watched : AList fun _ : Bytes => ℕ)
    (database : Database) :
    History host Timely database [] (watchKeys keys clocks watched database).2 := by
  induction keys generalizing clocks watched database with
  | nil => exact .done _
  | cons key rest ih =>
    have htail : ∀ n, Timely (clocks.tail.get n) := fun n => htimely (n + 1)
    unfold watchKeys
    split
    · exact ih _ htail _ _
    · exact .looked (htimely 0) (purges_keyRevision _ key database) (ih _ htail _ _)

theorem history_watchedKeyChanged (watched : List ((_ : Bytes) × ℕ)) (clocks : Stream' Clock)
    (htimely : ∀ n, Timely (clocks.get n)) (database : Database) :
    History host Timely database [] (watchedKeyChanged watched clocks database).2 := by
  induction watched generalizing clocks database with
  | nil => exact .done _
  | cons item rest ih =>
    have hlook := purges_keyRevision clocks.head item.1 database
    simp only [watchedKeyChanged]
    split
    · exact .looked (htimely 0) hlook (.done _)
    · exact .looked (htimely 0) hlook (ih _ (fun n => htimely (n + 1)) _)

/-- The loop of `EXEC` runs every command, and collects the writes that took
effect if somebody is to hear of them. -/
theorem executeCommands_spec {propagated : Bool} {commands : List Command} {clocks : Stream' Clock}
    (htimely : ∀ n, Timely (clocks.get n)) {responses : List Response} {logged : List Command}
    (h : before.executeCommands host propagated commands clocks =
      some (responses, logged, after)) :
    ∃ database,
      after = { before with
        database, events := before.events ++ List.zipWith Event.executed commands responses } ∧
      History host Timely before.database (List.zipWith Event.executed commands responses)
        database ∧
      responses.length = commands.length ∧
      logged = if propagated then
        (List.zipWith Event.executed commands responses).flatMap (Event.writes host) else [] := by
  induction commands generalizing clocks responses logged before with
  | nil =>
    cases h
    exact ⟨_, by simp, .done _, rfl, by simp⟩
  | cons command rest ih =>
    obtain ⟨⟨response, middle⟩, hrun, hrest⟩ := Option.bind_eq_some_iff.mp h
    obtain ⟨⟨responses', logged', after'⟩, hexecute, hpair⟩ := Option.map_eq_some_iff.mp hrest
    obtain ⟨⟨reply, looked⟩, hdispatch, hmiddle⟩ := Option.map_eq_some_iff.mp hrun
    cases hmiddle
    cases hpair
    obtain ⟨database, hafter, hhistory, hlength, hlogged⟩ :=
      ih (fun n => htimely (n + 1)) hexecute
    refine ⟨database, ?_, ?_, ?_, ?_⟩
    · rw [hafter]
      simp
    · exact .executed (htimely 0) (dispatch_cases hdispatch) hhistory
    · simp [hlength]
    · rw [hlogged]
      cases propagated with
      | false => simp
      | true =>
        simp only [Bool.true_and, if_true, List.zipWith_cons_cons, List.flatMap_cons,
          Event.writes]
        by_cases heffective : effective host command response = true
        · rw [if_pos heffective]
          exact if_pos heffective
        · rw [if_neg heffective]
          exact if_neg heffective

/-- What becomes of a response once the attempt to log its write is over. -/
def settled (response : Response) : Except Bytes Unit → Response
  | .ok () => response
  | .error message => misconf message

/-- **The ways an `EXEC` can go.** -/
inductive ExecOutcome (host : Host) (env : CommandEnv) (clientId : ClientId)
    (source : CommandSource) (before : Processor) : Response → Processor → Prop
  | withoutMulti (htransaction : before.transactions.lookup clientId = none) :
      ExecOutcome host env clientId source before
        (.simpleError (ascii "ERR EXEC without MULTI")) before
  | aborted {transaction : TransactionState} {changed : Bool} {database : Database}
      (htransaction : before.transactions.lookup clientId = some transaction)
      (hcheck : watchedKeyChanged (before.watchedBy clientId) env.watchClock before.database =
        (changed, database)) (herror : transaction.hasError = true) :
      ExecOutcome host env clientId source before
        (.simpleError (ascii "EXECABORT Transaction discarded because of previous errors."))
        (before.closeTransaction clientId database)
  | conflicted {transaction : TransactionState} {database : Database}
      (htransaction : before.transactions.lookup clientId = some transaction)
      (hcheck : watchedKeyChanged (before.watchedBy clientId) env.watchClock before.database =
        (true, database)) (herror : transaction.hasError = false) :
      ExecOutcome host env clientId source before .nullArray
        (before.closeTransaction clientId database)
  | empty {transaction : TransactionState} {database : Database}
      (htransaction : before.transactions.lookup clientId = some transaction)
      (hcheck : watchedKeyChanged (before.watchedBy clientId) env.watchClock before.database =
        (false, database)) (herror : transaction.hasError = false)
      (hcommands : transaction.commands = []) :
      ExecOutcome host env clientId source before .emptyArray
        (before.closeTransaction clientId database)
  | ran {transaction : TransactionState} {database : Database} {responses : List Response}
      {logged : List Command} {middle after : Processor} {result : Except Bytes Unit}
      (htransaction : before.transactions.lookup clientId = some transaction)
      (hcheck : watchedKeyChanged (before.watchedBy clientId) env.watchClock before.database =
        (false, database)) (herror : transaction.hasError = false)
      (hcommands : transaction.commands ≠ [])
      (hexecute : (before.closeTransaction clientId database).executeCommands host
        (before.replicates source || before.persists source) transaction.commands env.clock =
          some (responses, logged, middle))
      (hpropagate : middle.propagateTransaction (before.persists source)
        (before.replicates source) env.disk clientId logged = (result, after)) :
      ExecOutcome host env clientId source before (settled (.responseArray responses) result)
        after

theorem executeTransaction_cases
    (h : before.executeTransaction host env clientId source = some (response, after)) :
    ExecOutcome host env clientId source before response after := by
  unfold executeTransaction at h
  cases htransaction : before.transactions.lookup clientId with
  | none =>
    rw [htransaction] at h
    cases h
    exact .withoutMulti htransaction
  | some transaction =>
    rw [htransaction] at h
    cases hcheck : watchedKeyChanged (before.watchedBy clientId) env.watchClock
      before.database with
    | mk changed database =>
      simp only [hcheck] at h
      cases herror : transaction.hasError with
      | true =>
        simp only [herror, if_true] at h
        cases h
        exact .aborted htransaction hcheck herror
      | false =>
        cases changed with
        | true =>
          simp only [herror, if_true, Bool.false_eq_true, if_false] at h
          cases h
          exact .conflicted htransaction hcheck herror
        | false =>
          simp only [herror, Bool.false_eq_true, if_false] at h
          split at h
          · cases h
            exact .empty htransaction hcheck herror ‹_›
          · obtain ⟨⟨responses, logged, middle⟩, hexecute, hpair⟩ :=
              Option.map_eq_some_iff.mp h
            cases hpropagate : middle.propagateTransaction (before.persists source)
              (before.replicates source) env.disk clientId logged with
            | mk result final =>
              have hran := ExecOutcome.ran htransaction hcheck herror ‹_› hexecute
                hpropagate
              simp only [show (before.closeTransaction clientId database).persists source
                = before.persists source from rfl,
                show (before.closeTransaction clientId database).replicates source
                = before.replicates source from rfl, hpropagate] at hpair
              cases result with
              | error message =>
                cases hpair
                exact hran
              | ok _ =>
                cases hpair
                exact hran

theorem propagateTransaction_cases (persisted replicated : Bool) (disk : Disk)
    (clientId : ClientId) (logged : List Command) (processor : Processor) :
    ∃ file errors replication,
      (processor.propagateTransaction persisted replicated disk clientId logged).2 =
        { processor with aofFile := file, appendErrors := errors, replication } := by
  unfold propagateTransaction
  split
  · exact ⟨processor.aofFile, processor.appendErrors, processor.replication, rfl⟩
  · exact propagate_cases _ _ _ _ _ _

/-- What an `EXEC` may change. -/
theorem execOutcome_frame (h : ExecOutcome host env clientId source before response after) :
    after = before ∨ ∃ database events file errors replication,
      after = { before.closeTransaction clientId database with
        events, aofFile := file, appendErrors := errors, replication } := by
  cases h with
  | withoutMulti _ => exact .inl rfl
  | @ran _ _ _ logged middle _ _ _ _ _ _ hexecute hpropagate =>
    obtain ⟨final, hmiddle, -, -, -⟩ := @executeCommands_spec _ _ _ (fun _ => True) _ _ _
      (fun _ => trivial) _ _ hexecute
    obtain ⟨file, errors, replication, hafter⟩ := propagateTransaction_cases
      (before.persists source) (before.replicates source) env.disk clientId logged middle
    simp only [hpropagate] at hafter
    subst hafter hmiddle
    exact .inr ⟨final, _, file, errors, replication, rfl⟩
  | _ => exact .inr ⟨_, before.events, before.aofFile, before.appendErrors, before.replication, rfl⟩

theorem advances_executeTransaction (htimely : env.OnTime Timely)
    (h : ExecOutcome host env clientId source before response after) :
    Advances host Timely before after := by
  -- Whatever happens to the transaction, the watched keys are looked at first.
  have hlook : ∀ changed database,
      watchedKeyChanged (before.watchedBy clientId) env.watchClock before.database =
        (changed, database) →
      Advances host Timely before (before.closeTransaction clientId database) := by
    intro changed database hcheck
    have hhistory : History host Timely before.database [] _ :=
      history_watchedKeyChanged (before.watchedBy clientId) env.watchClock htimely.watchClock
        before.database
    rw [hcheck] at hhistory
    exact ⟨[], by simp [closeTransaction], hhistory⟩
  cases h with
  | withoutMulti _ => exact .refl _
  | aborted _ hcheck _ => exact hlook _ _ hcheck
  | conflicted _ hcheck _ => exact hlook _ _ hcheck
  | empty _ hcheck _ _ => exact hlook _ _ hcheck
  | @ran _ database responses logged middle _ _ _ hcheck _ _ hexecute hpropagate =>
    obtain ⟨final, hmiddle, hhistory, -, -⟩ := executeCommands_spec htimely.clock hexecute
    obtain ⟨file, errors, replication, hafter⟩ := propagateTransaction_cases (before.persists source)
      (before.replicates source) env.disk clientId logged middle
    simp only [hpropagate] at hafter
    subst hafter hmiddle
    exact (hlook _ _ hcheck).trans ⟨_, rfl, hhistory⟩

/-- A command that `process_command` answers itself. -/
def Local (host : Host) (command : Command) : Prop :=
  isWriteCommand host command = false ∧ nameOf command ≠ some .exec

/-- **What `process_command` can do.** -/
inductive CommandOutcome (host : Host) (env : CommandEnv) (clientId : ClientId)
    (command : Command) (source : CommandSource) (before : Processor) :
    Response → Processor → Prop
  | answered {response : Response} (hlocal : Local host command) :
      CommandOutcome host env clientId command source before response before
  | connected {response : Response} (connections : Connections) (hlocal : Local host command) :
      CommandOutcome host env clientId command source before response { before with connections }
  | changedUser {response : Response} (defaultUser : User) (hlocal : Local host command) :
      CommandOutcome host env clientId command source before response { before with defaultUser }
  | watching {keys : List Bytes} {watched : AList fun _ : Bytes => ℕ} {database : Database}
      (hname : nameOf command = some .watch) (hlocal : Local host command)
      (hkeys : keys = command.tail)
      (htransaction : before.hasTransaction clientId = false)
      (hwatch : watchKeys keys env.watchClock
        ((before.watchedKeys.lookup clientId).getD ∅) before.database = (watched, database)) :
      CommandOutcome host env clientId command source before ok
        { before with database, watchedKeys := before.watchedKeys.insert clientId watched }
  | unwatched (hname : nameOf command = some .unwatch) (hlocal : Local host command) :
      CommandOutcome host env clientId command source before ok
        { before with watchedKeys := before.watchedKeys.erase clientId }
  | opened (hname : nameOf command = some .multi) (hlocal : Local host command)
      (htransaction : before.hasTransaction clientId = false) :
      CommandOutcome host env clientId command source before ok
        { before with transactions := before.transactions.insert clientId {} }
  | discarded (hname : nameOf command = some .discard) (hlocal : Local host command)
      (htransaction : before.hasTransaction clientId = true) :
      CommandOutcome host env clientId command source before ok
        { before with
          transactions := before.transactions.erase clientId
          watchedKeys := before.watchedKeys.erase clientId }
  | transacted {response : Response} {after : Processor} (hname : nameOf command = some .exec)
      (houtcome : ExecOutcome host env clientId source before response after) :
      CommandOutcome host env clientId command source before response after
  | queued {transaction : TransactionState} (hexec : nameOf command ≠ some .exec)
      (htransaction : before.transactions.lookup clientId = some transaction) :
      CommandOutcome host env clientId command source before (.simpleString (ascii "QUEUED"))
        { before with
          transactions := before.transactions.insert clientId
            { transaction with commands := transaction.commands ++ [command] } }
  | ran {response : Response} {after : Processor} (hexec : nameOf command ≠ some .exec)
      (hallowed : allowedWhileSubscribed command = true →
        before.connections.isSubscribed clientId = false)
      (htransaction : before.transactions.lookup clientId = none)
      (hrun : before.runCommand host env.clock.head command = some (response, after)) :
      CommandOutcome host env clientId command source before response after

/-- A command outside the table and other than `EXEC` is answered locally. -/
theorem local_of_name {name : CommandName} (hname : nameOf command = some name)
    (hread : isWriteName name = false) (hexec : name ≠ .exec) : Local host command := by
  refine ⟨?_, ?_⟩
  · rw [isWriteCommand_of_name hname, hread]
  · rw [hname]
    simpa using hexec

private theorem queueOrRun_cases (hexec : nameOf command ≠ some .exec)
    (hallowed : allowedWhileSubscribed command = true →
      before.connections.isSubscribed clientId = false)
    (h : before.queueOrRun host env clientId command = some (response, after)) :
    CommandOutcome host env clientId command source before response after := by
  unfold queueOrRun at h
  cases htransaction : before.transactions.lookup clientId with
  | some transaction =>
    rw [htransaction] at h
    cases h
    exact .queued hexec htransaction
  | none =>
    rw [htransaction] at h
    exact .ran hexec hallowed htransaction h

theorem processCommand_cases
    (h : before.processCommand host env clientId command source = some (response, after)) :
    CommandOutcome host env clientId command source before response after := by
  unfold processCommand at h
  split at h
  · subst command
    cases h
    exact .answered ⟨rfl, by simp [nameOf]⟩
  cases hname : nameOf command with
  | none =>
    rw [hname] at h
    exact queueOrRun_cases (by simp [hname]) (by simp [allowedWhileSubscribed, hname]) h
  | some name =>
    have hlocal (hread : isWriteName name = false) (hexec : name ≠ .exec) :
        Local host command := local_of_name hname hread hexec
    simp only [hname] at h
    cases name with
    | subscribe | unsubscribe | publish | auth =>
      cases h
      exact .connected _ (hlocal rfl (by decide))
    | acl =>
      cases h
      exact .changedUser _ (hlocal rfl (by decide))
    | info | config | replconf | psync =>
      cases h
      exact .answered (hlocal rfl (by decide))
    | ping =>
      simp only at h
      split at h
      · cases h
        exact .answered (hlocal rfl (by decide))
      · rename_i hsubscribed
        exact queueOrRun_cases (by simp [hname]) (fun _ => by simpa using hsubscribed) h
    | watch =>
      have hlocal := hlocal rfl (by decide)
      match command, hname, hlocal, h with
      | first :: key :: keys, hname, hlocal, h =>
        simp only [watch] at h
        split at h
        · cases h
          exact .answered hlocal
        · rename_i hmulti
          cases hwatch : watchKeys (key :: keys) env.watchClock
            ((before.watchedKeys.lookup clientId).getD ∅) before.database with
          | mk watched database =>
            simp only [hwatch] at h
            cases h
            exact .watching hname hlocal rfl (by simpa using hmulti) hwatch
      | [_], _, hlocal, h =>
        cases h
        exact .answered hlocal
    | unwatch =>
      simp only [unwatch] at h
      split at h
      · cases h
        exact .answered (hlocal rfl (by decide))
      · cases h
        exact .unwatched hname (hlocal rfl (by decide))
    | multi =>
      simp only [multi] at h
      split at h
      · cases h
        exact .answered (hlocal rfl (by decide))
      · rename_i hmulti
        cases h
        exact .opened hname (hlocal rfl (by decide)) (by simpa using hmulti)
    | exec => exact .transacted hname (executeTransaction_cases h)
    | discard =>
      simp only [discard] at h
      split at h
      · cases h
        exact .discarded hname (hlocal rfl (by decide)) ‹_›
      · cases h
        exact .answered (hlocal rfl (by decide))
    | _ => exact queueOrRun_cases (by simp [hname]) (by simp [allowedWhileSubscribed, hname]) h

theorem advances_processCommand (htimely : env.OnTime Timely)
    (h : CommandOutcome host env clientId command source before response after) :
    Advances host Timely before after := by
  cases h with
  | @watching keys watched database _ _ _ _ hwatch =>
    have hhistory : History host Timely before.database [] (watchKeys keys env.watchClock
        ((before.watchedKeys.lookup clientId).getD ∅) before.database).2 :=
      history_watchKeys _ _ htimely.watchClock _ _
    rw [hwatch] at hhistory
    exact ⟨[], by simp, hhistory⟩
  | transacted _ houtcome => exact advances_executeTransaction htimely houtcome
  | ran _ _ _ hrun =>
    obtain ⟨⟨reply, database⟩, hdispatch, hpair⟩ := Option.map_eq_some_iff.mp hrun
    cases hpair
    exact ⟨[.executed command _], rfl,
      .executed (htimely.clock 0) (dispatch_cases hdispatch) (.done _)⟩
  | _ => exact .of_eq rfl rfl

end Commands

end Processor

end RedisServer
