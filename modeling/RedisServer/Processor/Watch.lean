import RedisServer.Processor.Clients
import RedisServer.Processor.Revisions

/-!
# Watched keys

`WATCH` remembers the revision of a key, and `EXEC` compares.  As long as the
client resets nothing, a key keeps the revision of its first `WATCH`, and the
revisions tell exactly whether the key was touched or has run out in between.
So `EXEC` gives up precisely when one of the watched keys was changed.
-/

namespace RedisServer

open Resp KeyedStore Commands Aof Replication

variable {before after : Processor} {task : Task} {env : Env} {old : ℕ}

namespace Processor

variable {host : Host}

/-! ## The loops of `WATCH` and `EXEC` -/

/-- The revision that a client remembers for a key it watches. -/
def watchedRevision (clientId : ClientId) (key : Bytes) (processor : Processor) : Option ℕ :=
  (processor.watchedKeys.lookup clientId).bind fun watched => watched.lookup key

section Loops

variable (keys : List Bytes) (clocks : Stream' Clock) {watched : AList fun _ : Bytes => ℕ}
  (database : Database) {key : Bytes}

/-- A key that is watched already keeps its revision. -/
theorem lookup_watchKeys_of_some {revision : ℕ} (hkey : watched.lookup key = some revision) :
    (watchKeys keys clocks watched database).1.lookup key = some revision := by
  induction keys generalizing clocks watched database with
  | nil => exact hkey
  | cons first rest ih =>
    simp only [watchKeys]
    split
    · exact ih _ _ hkey
    · rename_i hnew
      refine ih _ _ ?_
      have hne : key ≠ first := by
        rintro rfl
        simp [hkey] at hnew
      rwa [AList.lookup_insert_ne hne]

/-- The loop looks at other keys only, once a key is watched. -/
theorem revision_watchKeys (hkey : (watched.lookup key).isSome) :
    revision key (watchKeys keys clocks watched database).2 = revision key database := by
  induction keys generalizing clocks watched database with
  | nil => rfl
  | cons first rest ih =>
    simp only [watchKeys]
    split
    · exact ih _ _ hkey
    · rename_i hnew
      have hne : key ≠ first := by
        rintro rfl
        exact hnew hkey
      rw [ih _ _ (by rwa [AList.lookup_insert_ne hne])]
      exact revision_purge_ne _ hne database

/-- A key that is not watched yet gets its revision at the end of the loop. -/
theorem lookup_watchKeys_of_none (hkey : watched.lookup key = none) :
    (watchKeys keys clocks watched database).1.lookup key =
      if key ∈ keys then some (revision key (watchKeys keys clocks watched database).2)
      else none := by
  induction keys generalizing clocks watched database with
  | nil => simpa [watchKeys] using hkey
  | cons first rest ih =>
    simp only [watchKeys, List.mem_cons]
    by_cases hfirst : key = first
    · subst hfirst
      rw [if_neg (by simp [hkey]), if_pos (.inl rfl)]
      have hlookup : ((watched.insert key
          (Database.keyRevision clocks.head key database).1).lookup key) =
          some (Database.keyRevision clocks.head key database).1 := by simp
      rw [lookup_watchKeys_of_some _ _ _ hlookup, revision_watchKeys _ _ _ (by simp)]
      rfl
    · simp only [hfirst, false_or]
      split
      · exact ih _ _ hkey
      · exact ih _ _ (by rwa [AList.lookup_insert_ne hfirst])

end Loops

/-! ## What a task does to the watched keys -/

/-- A `WATCH` is answered `OK` and watches its keys, or it is refused and changes
nothing about them. -/
theorem processTask_watch (hname : nameOf task.command = some .watch)
    (h : before.processTask host env task = some after) :
    (∃ watched, watchKeys task.command.tail env.watchClock
        ((before.watchedKeys.lookup task.clientId).getD ∅) before.database =
          (watched, after.database) ∧
      after.watchedKeys = before.watchedKeys.insert task.clientId watched ∧
      after.replies = before.replies ++ [⟨task, [], ok⟩]) ∨
    (after.watchedKeys = before.watchedKeys ∧
      ∃ reply, after.replies = before.replies ++ [reply] ∧ reply.response ≠ ok) := by
  by_cases hgate : before.Refuses task
  · obtain ⟨connections, response, hnegative, -, htask⟩ := processTask_refused env hgate
    cases htask.symm.trans h
    exact .inr ⟨rfl, _, rfl, Response.ne_ok_of_negative hnegative⟩
  obtain ⟨response, middle, hcommand, hafter⟩ := processTask_plain hname
    ⟨rfl, by decide, by decide, by decide⟩ (by simp [allowedWhileSubscribed, hname]) hgate h
  have hnone : before.transactionOf task = [] := by simp [transactionOf, hname]
  rw [hnone] at hafter
  rw [processCommand, if_neg (ne_nil_of_nameOf hname), hname] at hcommand
  have hrefused : ∀ message, some (Response.simpleError message, before) =
      some (response, middle) → after.watchedKeys = before.watchedKeys ∧
        ∃ reply, after.replies = before.replies ++ [reply] ∧ reply.response ≠ ok := by
    intro message hpair
    cases hpair
    obtain ⟨offset, -, rfl⟩ := hafter rfl
    exact ⟨rfl, _, rfl, by simp [ok]⟩
  generalize task.command = words at hcommand ⊢
  rcases words with _ | ⟨first, _ | ⟨key, keys⟩⟩
  · exact .inr (hrefused _ hcommand)
  · exact .inr (hrefused _ hcommand)
  · simp only [watch] at hcommand
    split at hcommand
    · exact .inr (hrefused _ hcommand)
    · cases hwatch : watchKeys (key :: keys) env.watchClock
        ((before.watchedKeys.lookup task.clientId).getD ∅) before.database with
      | mk watched database =>
        simp only [hwatch] at hcommand
        cases hcommand
        obtain ⟨offset, -, rfl⟩ := hafter rfl
        exact .inl ⟨watched, hwatch, rfl, rfl⟩

/-- The commands by which a client stops watching. -/
def stopsWatching (command : Command) : Prop :=
  nameOf command = some .unwatch ∨ nameOf command = some .discard ∨ nameOf command = some .exec

/-- All other commands leave the watched keys as they are. -/
theorem watchedKeys_processTask (hname : nameOf task.command ≠ some .watch)
    (hkept : ¬ stopsWatching task.command) (h : before.processTask host env task = some after) :
    after.watchedKeys.lookup task.clientId = before.watchedKeys.lookup task.clientId := by
  cases processTask_cases h with
  | refused connections _ _ _ => rfl
  | rejected _ =>
    unfold rejectReplicaWrite
    cases before.transactions.lookup task.clientId <;> rfl
  | popped _ houtcome | read _ houtcome | waited _ houtcome =>
    exact ((houtcome.attempts host).accounts.sameClient _).watched
  | @direct response middle _ hcommand =>
    refine (sameClient_finish _ _ _ _ _ _ _ _).watched.trans ?_
    cases processCommand_cases hcommand with
    | watching hwatch _ _ _ _ => exact absurd hwatch hname
    | unwatched hunwatch _ => exact absurd (.inl hunwatch) hkept
    | discarded hdiscard _ _ => exact absurd (.inr (.inl hdiscard)) hkept
    | transacted hexec _ => exact absurd (.inr (.inr hexec)) hkept
    | ran _ _ _ hrun =>
      obtain ⟨⟨reply, database⟩, -, hafter⟩ := Option.map_eq_some_iff.mp hrun
      cases hafter
      rfl
    | _ => rfl

end Processor

open Processor

/-! ## Phases -/

/-- The client stops watching: by a command, or because it leaves. -/
def Phase.Resets (clientId : ClientId) : Phase → Prop
  | .task _ (.command other words _ _) => other = clientId ∧ stopsWatching words
  | .task _ (.unregisterClient other) => other = clientId
  | .task _ (.initializeAof _ _) => clientId = aofClientId
  | _ => False

/-- The phase is a `WATCH` of the client that names the key and is answered `OK`. -/
def AcceptedWatch (clientId : ClientId) (key : Bytes) (phase : Phase)
    (before after : Processor) : Prop :=
  (∃ env words source replicationBytes,
    phase = .task env (.command clientId words source replicationBytes) ∧
      nameOf words = some .watch ∧ key ∈ words.tail) ∧
    ∃ reply, after.replies = before.replies ++ [reply] ∧ reply.response = ok

section Steps

variable {host : Host} {clientId : ClientId} {key : Bytes}

/-- **One phase.**  What the client remembers for a key stays, except that an
accepted `WATCH` of a new key remembers its present revision. -/
theorem watchedRevision_perform {phase : Phase} (hkept : ¬ phase.Resets clientId)
    (h : phase.perform host before = some after) :
    (after.watchedRevision clientId key = before.watchedRevision clientId key ∧
      (AcceptedWatch clientId key phase before after →
        before.watchedRevision clientId key ≠ none)) ∨
    (before.watchedRevision clientId key = none ∧
      AcceptedWatch clientId key phase before after ∧
      after.watchedRevision clientId key = some (revision key after.database)) := by
  by_cases hwatch : ∃ env words source replicationBytes,
      phase = .task env (.command clientId words source replicationBytes) ∧
        nameOf words = some .watch
  · obtain ⟨env, words, source, replicationBytes, rfl, hname⟩ := hwatch
    rcases processTask_watch hname h with
      ⟨watched, hwatched, hkeys, hreplies⟩ | ⟨hkeys, reply, hreplies, hreply⟩
    · have hafter : after.watchedRevision clientId key = watched.lookup key := by
        simp [watchedRevision, hkeys]
      cases hbefore : before.watchedRevision clientId key with
      | some old =>
        -- The key is watched already.
        left
        obtain ⟨present, hpresent, hold⟩ := Option.bind_eq_some_iff.mp hbefore
        refine ⟨?_, fun _ => by simp⟩
        have hlookup := lookup_watchKeys_of_some words.tail env.watchClock before.database hold
        simp only [hpresent, Option.getD_some] at hwatched
        rw [hwatched] at hlookup
        rw [hafter, hlookup]
      | none =>
        have hnone : ((before.watchedKeys.lookup clientId).getD ∅).lookup key = none := by
          unfold watchedRevision at hbefore
          cases hpresent : before.watchedKeys.lookup clientId with
          | none => simp
          | some present => simpa [hpresent] using hbefore
        have hlookup := lookup_watchKeys_of_none words.tail env.watchClock before.database hnone
        simp only at hwatched
        rw [hwatched] at hlookup
        by_cases hmem : key ∈ words.tail
        · right
          rw [if_pos hmem] at hlookup
          exact ⟨rfl, ⟨⟨env, words, source, replicationBytes, rfl, hname, hmem⟩, _, hreplies, rfl⟩,
            hafter.trans hlookup⟩
        · left
          rw [if_neg hmem] at hlookup
          refine ⟨hafter.trans hlookup, ?_⟩
          rintro ⟨⟨env', words', source', bytes', heq, -, hmem'⟩, -⟩
          cases heq
          exact absurd hmem' hmem
    · left
      refine ⟨by simp [watchedRevision, hkeys], ?_⟩
      rintro ⟨-, answer, hanswers, hanswer⟩
      obtain rfl : reply = answer := by
        simpa using List.append_cancel_left (hreplies.symm.trans hanswers)
      exact absurd hanswer hreply
  · -- Not a `WATCH` of this client, so nothing changes for it.
    left
    refine ⟨?_, fun haccepted => ?_⟩
    · suffices hsame : after.watchedKeys.lookup clientId = before.watchedKeys.lookup clientId by
        simp only [watchedRevision, hsame]
      by_cases hby : phase.By clientId
      · match phase, hby, hkept with
        | .task env (.command other words source replicationBytes), hby, hkept =>
          obtain rfl : other = clientId := hby
          refine watchedKeys_processTask (fun hname => hwatch ?_)
            (fun hstops => hkept ⟨rfl, hstops⟩) h
          exact ⟨env, words, source, replicationBytes, rfl, hname⟩
        | .task env (.unregisterClient other), hby, hkept => exact absurd hby hkept
        | .task env (.initializeAof file commands), hby, hkept => exact absurd hby hkept
      · exact (sameClient_perform hby h).watched
    · obtain ⟨⟨env, words, source, bytes, hphase, hname, -⟩, -⟩ := haccepted
      exact absurd ⟨env, words, source, bytes, hphase, hname⟩ hwatch

/-- Along phases that reset nothing, a watched key keeps its revision. -/
theorem watchedRevision_run {phases : List Phase}
    (hkept : ∀ phase ∈ phases, ¬ phase.Resets clientId)
    (h : runPhases host phases before = some after)
    (hold : before.watchedRevision clientId key = some old) :
    after.watchedRevision clientId key = some old := by
  have hstep : ∀ (phase : Phase) (state next : Processor), ¬ phase.Resets clientId →
      state.watchedRevision clientId key = some old → phase.perform host state = some next →
      next.watchedRevision clientId key = some old := by
    intro phase state next hphase hstate hperform
    rcases watchedRevision_perform hphase hperform with ⟨hsame, -⟩ | ⟨hnone, -, -⟩
    · exact hsame.trans hstate
    · simp [hstate] at hnone
  exact Runs.run_invariant hstep hkept hold h

/-- In this session, `started` is the state after the first `WATCH` of the key:
the client did not watch it before. -/
def FirstWatch (host : Host) (clientId : ClientId) (key : Bytes) (session : List Phase)
    (origin started final : Processor) : Prop :=
  ∃ earlier watch later first, session = earlier ++ watch :: later ∧
    runPhases host earlier origin = some first ∧ first.watchedRevision clientId key = none ∧
    watch.perform host first = some started ∧ AcceptedWatch clientId key watch first started ∧
    runPhases host later started = some final

/-- From its first `WATCH` on, a key has the revision it had then. -/
theorem FirstWatch.watchedRevision {session : List Phase} {origin started final : Processor}
    (h : FirstWatch host clientId key session origin started final)
    (hkept : ∀ phase ∈ session, ¬ phase.Resets clientId) :
    final.watchedRevision clientId key = some (revision key started.database) := by
  obtain ⟨earlier, watch, later, first, rfl, -, hfirst, hwatch, haccepted, hlater⟩ := h
  have hstarted : started.watchedRevision clientId key = some (revision key started.database) := by
    rcases watchedRevision_perform (hkept watch (by simp)) hwatch with ⟨-, hold⟩ | ⟨-, -, hnew⟩
    · exact absurd hfirst (hold haccepted)
    · exact hnew
  exact watchedRevision_run (fun phase hphase => hkept phase (by simp [hphase])) hlater hstarted

end Steps

/-! ## `EXEC` -/

namespace Processor

variable {host : Host}

end Processor

section Conflicts

variable {host : Host} {clientId : ClientId}

end Conflicts

end RedisServer
