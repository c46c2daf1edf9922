import RedisServer.Processor.Worker

/-!
# Which keys were changed

Along a history every key either keeps its entry and its revision, or it was
written, loaded or removed because its time was over, and then its revision is
newer than all that the earlier database had given out.
-/

namespace RedisServer

open Resp KeyedStore Commands Aof

variable {key : Bytes}

/-- The event changed this key: a write to it took effect, or it was loaded. -/
def Event.Touches (host : Host) (key : Bytes) : Event → Prop
  | .executed command response =>
    effective host command response = true ∧ command[1]? = some key
  | .loaded other => other = key

namespace Commands.Change

variable {host : Host} {clock : Clock} {command : Command} {response : Response}
  {before after : Database}

/-- What a write is based on has at most lost the expired value of its key. -/
theorem evolves_base {update : Update Entry} {base : Database}
    (hbased : base = purge (Entry.expired clock) key before ∨
      base = before ∧ ∃ entry, update = .put entry) : Evolves before base := by
  rcases hbased with rfl | ⟨rfl, -⟩
  · exact evolves_purge _ key before
  · exact Evolves.refl _

theorem versioned (h : Change host clock command response before after)
    (hbefore : Versioned before) : Versioned after := by
  cases h with
  | looked _ hpurges => exact hpurges.versioned hbefore
  | wrote key update base _ _ _ _ hbased =>
    rcases hbased with rfl | ⟨rfl, -⟩
    · exact (hbefore.purge _ key).apply key update
    · exact hbefore.apply key update

theorem evolves (h : Change host clock command response before after) : Evolves before after := by
  cases h with
  | looked _ hpurges => exact hpurges.evolves
  | wrote key update base _ _ _ _ hbased =>
    exact (evolves_base hbased).trans (evolves_apply update key base)

/-- A key that is not written keeps its entry and its revision, unless it is
found expired. -/
theorem key_cases (h : Change host clock command response before after)
    (versioned : Versioned before)
    (htouches : ¬ (Event.executed command response).Touches host key) :
    (after.entries.lookup key = before.entries.lookup key ∧
        revision key after = revision key before) ∨
      (Stale (Entry.expired clock) key before ∧ after.entries.lookup key = none ∧
        revision key after ≠ revision key before) := by
  cases h with
  | looked _ hpurges => exact hpurges.key_cases versioned key
  | wrote other update base heffective htarget _ _ hbased =>
    -- The write is to another key, and only that key was looked at.
    have hne : key ≠ other := fun heq => htouches ⟨heffective, heq ▸ htarget⟩
    have hbase : base.entries.lookup key = before.entries.lookup key ∧
        revision key base = revision key before := by
      rcases hbased with rfl | ⟨rfl, -⟩
      · rw [lookup_purge, if_neg hne]
        exact ⟨rfl, revision_purge_ne _ hne before⟩
      · exact ⟨rfl, rfl⟩
    left
    rw [lookup_apply, if_neg hne, ← hbase.1, ← hbase.2]
    refine ⟨rfl, ?_⟩
    cases update with
    | keep => rfl
    | put value => rw [Update.apply, revision_put, if_neg hne]
    | remove => rw [Update.apply, revision_remove, if_neg hne]

end Commands.Change

theorem revision_set (clock : Clock) (key value : Bytes) (expiry : Option Int) (other : Bytes)
    (database : Database) :
    revision other (Database.set clock key value expiry database) =
      if other = key then database.nextRevision else revision other database :=
  revision_put key other _ database

theorem evolves_set (clock : Clock) (key value : Bytes) (expiry : Option Int)
    (database : Database) : Evolves database (Database.set clock key value expiry database) :=
  evolves_put key _ database

namespace History

variable {host : Host} {Timely : Clock → Prop} {before after : Database} {events : List Event}

theorem evolves (h : History host Timely before events after) : Evolves before after := by
  induction h with
  | done database => exact Evolves.refl _
  | looked _ purges _ ih => exact purges.evolves.trans ih
  | executed _ change _ ih => exact change.evolves.trans ih
  | loaded _ _ ih => exact (evolves_put _ _ _).trans ih

theorem versioned (h : History host Timely before events after) (hbefore : Versioned before) :
    Versioned after := by
  induction h with
  | done database => exact hbefore
  | looked _ purges _ ih => exact ih (purges.versioned hbefore)
  | executed _ change _ ih => exact ih (change.versioned hbefore)
  | loaded _ _ ih => exact ih (hbefore.put _ _)

/-- A key that is left alone at first and found expired later was expired from
the start. -/
private theorem key_cases_step {middle : Database} (versioned : Versioned before)
    (hevolves : Evolves before middle) (hrest : Evolves middle after)
    (hfirst : (middle.entries.lookup key = before.entries.lookup key ∧
        revision key middle = revision key before) ∨
      ((∃ clock, Timely clock ∧ Stale (Entry.expired clock) key before) ∧
        middle.entries.lookup key = none ∧ revision key middle ≠ revision key before))
    (hsecond : (after.entries.lookup key = middle.entries.lookup key ∧
        revision key after = revision key middle) ∨
      ((∃ clock, Timely clock ∧ Stale (Entry.expired clock) key middle) ∧
        after.entries.lookup key = none ∧ revision key after ≠ revision key middle)) :
    (after.entries.lookup key = before.entries.lookup key ∧
        revision key after = revision key before) ∨
      ((∃ clock, Timely clock ∧ Stale (Entry.expired clock) key before) ∧
        after.entries.lookup key = none ∧ revision key after ≠ revision key before) := by
  have hrevision := revision_eq_iff_of_evolves versioned hevolves hrest key
  rcases hfirst with ⟨hlookup, hsame⟩ | ⟨hstale, hnone, hnew⟩
  · rcases hsecond with ⟨hlookup', hsame'⟩ | ⟨⟨clock, htimely, entry, hentry, hdead⟩, hnone', hnew'⟩
    · exact .inl ⟨hlookup'.trans hlookup, hsame'.trans hsame⟩
    · refine .inr ⟨⟨clock, htimely, entry, hlookup ▸ hentry, hdead⟩, hnone', ?_⟩
      exact fun heq => hnew' (hrevision.mp heq).2
  · refine .inr ⟨hstale, ?_, fun heq => hnew (hrevision.mp heq).1⟩
    rcases hsecond with ⟨hlookup', -⟩ | ⟨-, hnone', -⟩
    · rw [hlookup', hnone]
    · exact hnone'

/-- **A key that was not touched is as it was, or its time was over.** -/
theorem key_cases (h : History host Timely before events after) (versioned : Versioned before)
    (huntouched : ∀ event ∈ events, ¬ event.Touches host key) :
    (after.entries.lookup key = before.entries.lookup key ∧
        revision key after = revision key before) ∨
      ((∃ clock, Timely clock ∧ Stale (Entry.expired clock) key before) ∧
        after.entries.lookup key = none ∧ revision key after ≠ revision key before) := by
  induction h with
  | done database => exact .inl ⟨rfl, rfl⟩
  | looked timely purges rest ih =>
    refine key_cases_step versioned purges.evolves rest.evolves ?_
      (ih (purges.versioned versioned) huntouched)
    exact (purges.key_cases versioned key).imp_right fun hstale =>
      ⟨⟨_, timely, hstale.1⟩, hstale.2⟩
  | executed timely change rest ih =>
    refine key_cases_step versioned change.evolves rest.evolves ?_
      (ih (change.versioned versioned) fun event hevent => huntouched event (by simp [hevent]))
    exact (change.key_cases versioned (huntouched _ (by simp))).imp_right fun hstale =>
      ⟨⟨_, timely, hstale.1⟩, hstale.2⟩
  | @loaded clock other value expiry _ _ _ _ rest ih =>
    have hne : key ≠ other := fun heq => huntouched (.loaded other) (by simp) heq.symm
    refine key_cases_step versioned (evolves_set clock other value expiry _) rest.evolves ?_
      (ih (versioned.put _ _) fun event hevent => huntouched event (by simp [hevent]))
    left
    rw [revision_set, if_neg hne, Database.set, lookup_put, if_neg hne]
    exact ⟨rfl, rfl⟩

end History

end RedisServer
