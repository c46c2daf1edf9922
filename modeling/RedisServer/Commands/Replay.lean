import RedisServer.Commands.Identifiers
import RedisServer.Database.Representation
import RedisServer.Resp.RoundTrip

/-!
# Doing a write again

A write is logged and replicated in a form that does not depend on the moment at
which it ran: a generated identifier has become an explicit one, and a blocking
pop a plain one.  Carried out on a copy of the database, at whatever time, that
form updates the same key in the same way and is not answered with an error
(`Mirrors.replay`).

This needs a database in which nothing expires.  A `SET` with an expiry option is
logged as it came, and runs anew against the clock of whoever reads it.
-/

namespace RedisServer

open Resp KeyedStore Database

variable {key : Bytes} {database : Database}

namespace Commands

/-! ## The write and its normal form -/

/-- A `SET` with an expiry option. -/
def setsExpiry : Command → Bool
  | [word, key, value, unit, time] =>
    decide (nameOf [word, key, value, unit, time] = some .set) &&
      (decide (unit = ascii "PX") || decide (unit = ascii "EX"))
  | _ => false

/-- The entry, if there is one, never expires. -/
def Permanent (current : Option Entry) : Prop :=
  ∀ entry, current = some entry → entry.expiresAt = none

variable {host : Host} {clock : Clock} {current : Option Entry} {command : Command}
  {response : Response} {update : Update Entry}

theorem permanent_some (entry : Entry) (h : entry.expiresAt = none) :
    Permanent (some entry) := by
  rintro _ ⟨⟩
  exact h

theorem Permanent.expiresAt {value : Value} {expiresAt : Option Int}
    (h : Permanent (some ⟨value, expiresAt⟩)) : expiresAt = none :=
  h _ rfl

theorem permanent_remaining {elements : List Bytes} :
    Permanent ((OnEntry.remaining none elements).outcome current) := by
  unfold OnEntry.remaining
  split
  · rintro _ ⟨⟩
  · exact permanent_some _ rfl

theorem permanent_popListElement {value : Bytes} (hpermanent : Permanent current)
    (h : OnEntry.popListElement current = (.ok value, update)) :
    Permanent (update.outcome current) := by
  rcases current with _ | ⟨_ | (_ | ⟨front, elements⟩) | _, expiresAt⟩ <;> cases h
  obtain rfl : expiresAt = none := hpermanent _ rfl
  exact permanent_remaining

/-- What a write leaves behind does not expire if it was not there to expire. -/
theorem Write.permanent (hpermanent : Permanent current) (hexpiry : setsExpiry command = false)
    (h : Write host clock current command response update) :
    Permanent (update.outcome current) := by
  cases h with
  | set _ => exact permanent_some _ rfl
  | setUntil hname hunit =>
    rcases hunit with rfl | rfl <;> simp [setsExpiry, hname] at hexpiry
  | incr _ hincrement =>
    rcases current with _ | ⟨text | _ | _, expiresAt⟩
    · cases hincrement
      exact permanent_some _ rfl
    · simp only [OnEntry.incrementKey] at hincrement
      split at hincrement <;> cases hincrement
      exact permanent_some _ hpermanent.expiresAt
    · cases hincrement
    · cases hincrement
  | push _ hadd =>
    rcases current with _ | ⟨_ | elements | _, expiresAt⟩ <;> cases hadd
    · exact permanent_some _ rfl
    · exact permanent_some _ hpermanent.expiresAt
  | lpop _ hpop => exact permanent_popListElement hpermanent hpop
  | lpopMany _ _ hpop =>
    rcases current with _ | ⟨_ | (_ | ⟨front, elements⟩) | _, expiresAt⟩
    · cases hpop
    · cases hpop
    · cases hpop
    · obtain rfl : expiresAt = none := hpermanent _ rfl
      simp only [OnEntry.popListElements] at hpop
      split at hpop <;> cases hpop
      · exact hpermanent
      · exact permanent_remaining
    · cases hpop
  | blpop _ _ hpop => exact permanent_popListElement hpermanent hpop
  | xadd _ _ _ _ hadd =>
    rcases current with _ | ⟨_ | _ | entries, expiresAt⟩
    · cases hadd
      exact permanent_some _ rfl
    · cases hadd
    · cases hadd
    · simp only [OnEntry.addStream] at hadd
      split at hadd <;> cases hadd
      exact permanent_some _ hpermanent.expiresAt

/-- An entry that was added with a generated identifier can be added with that
identifier, at any time. -/
theorem addStream_explicit {request : IdRequest} {fields : List (Bytes × Bytes)} {id : StreamId}
    (h : OnEntry.addStream clock request fields current = (.ok id, update)) (clock' : Clock) :
    OnEntry.addStream clock' (.explicit id) fields current = (.ok id, update) := by
  rcases current with _ | ⟨_ | _ | entries, expiresAt⟩
  · cases h
    rfl
  · cases h
  · cases h
  · simp only [OnEntry.addStream] at h ⊢
    split at h
    · cases h
    · rename_i hnew
      cases h
      exact if_neg hnew

/-- An identifier that was accepted is not `0-0`. -/
theorem addStream_ne_zero (hclock : clock.Positive) {request : IdRequest}
    (hrequest : request ≠ .explicit StreamId.zero) {fields : List (Bytes × Bytes)} {id : StreamId}
    (h : OnEntry.addStream clock request fields current = (.ok id, update)) :
    id ≠ StreamId.zero := by
  rcases current with _ | ⟨_ | _ | entries, expiresAt⟩
  · cases h
    exact newStreamId_nil_ne_zero hclock hrequest
  · cases h
  · cases h
  · simp only [OnEntry.addStream] at h
    split at h
    · cases h
    · rename_i hnew
      cases h
      by_cases hentries : entries = []
      · rw [hentries]
        exact newStreamId_nil_ne_zero hclock hrequest
      · exact StreamId.ne_zero_of_lt (not_le.mp (not_and.mp hnew hentries))

/-- The response is no error, and contains none. -/
def faultless : Response → Bool
  | .simpleError _ => false
  | .responseArray responses => responses.all fun response => !responseIsError response
  | _ => true

theorem responseIsError_of_faultless (h : faultless response = true) :
    responseIsError response = false := by
  cases response <;> first | rfl | cases h

/-- The plan carries out this update of the key, given its live entry. -/
inductive Plan.Updates (key : Bytes) (current : Option Entry) (update : Update Entry)
    (response : Response) : Plan → Prop
  | overwrite {entry : Entry} (hput : update = .put entry) :
      Updates key current update response (.overwrite key entry response)
  | keyed {operation : Option Entry → Option Response × Update Entry}
      (hdecides : operation current = (some response, update)) :
      Updates key current update response (.keyed key operation)

/-- The names of the commands that appear in the log outside of a transaction's
brackets. -/
def isReplayable (name : CommandName) : Bool := isWriteName name && decide (name ≠ .blpop)

/-- What it takes for a command to be the normal form of a write. -/
structure Replays (host : Host) (key : Bytes) (current : Option Entry) (update : Update Entry)
    (command : Command) : Prop where
  named : ∃ name, nameOf command = some name ∧ isReplayable name = true
  plan : ∀ clock, ∃ response, faultless response = true ∧
    (Commands.plan host clock command).Updates key current update response

theorem replays_of_plan {name : CommandName} (hname : nameOf command = some name)
    (hreplayable : isReplayable name = true) (reply : Response) (hreply : faultless reply = true)
    (hplan : ∀ clock, (plan host clock command).Updates key current update reply) :
    Replays host key current update command :=
  ⟨⟨name, hname, hreplayable⟩, fun clock => ⟨reply, hreply, hplan clock⟩⟩

/-- Only `XADD` and `BLPOP` change their form. -/
theorem normalizeReplicationCommand_of_name {name : CommandName}
    (hname : nameOf command = some name) (hxadd : name ≠ .xadd) (hblpop : name ≠ .blpop)
    (response : Response) : normalizeReplicationCommand command response = command := by
  simp [normalizeReplicationCommand, hname, hxadd, hblpop]

/-- **The normal form of a write does what the write did**, whenever it runs. -/
theorem Write.replays (hclock : clock.Positive) (hexpiry : setsExpiry command = false)
    (h : Write host clock current command response update) :
    ∃ key, command[1]? = some key ∧
      Replays host key current update (normalizeReplicationCommand command response) := by
  cases h with
  | @set word key value hname =>
    rw [normalizeReplicationCommand_of_name hname (by decide) (by decide)]
    refine ⟨key, rfl, replays_of_plan hname rfl ok rfl
      fun clock' => ?_⟩
    simp only [plan, hname]
    exact .overwrite rfl
  | setUntil hname hunit =>
    rcases hunit with rfl | rfl <;> simp [setsExpiry, hname] at hexpiry
  | @incr word key number _ hname hincrement =>
    rw [normalizeReplicationCommand_of_name hname (by decide) (by decide)]
    refine ⟨key, rfl, replays_of_plan hname rfl (.integer number) rfl
      fun clock' => ?_⟩
    simp only [plan, hname]
    exact .keyed (by simp only [hincrement]; rfl)
  | @push word key value values mode size _ hname hadd =>
    have hnormal : normalizeReplicationCommand (word :: key :: value :: values)
        (.integer size) = word :: key :: value :: values :=
      normalizeReplicationCommand_of_name hname (by cases mode <;> decide)
        (by cases mode <;> decide) _
    rw [hnormal]
    refine ⟨key, rfl, replays_of_plan hname (by cases mode <;> rfl) (.integer size) rfl
      fun clock' => ?_⟩
    cases mode <;> simp only [plan, hname, pushName] <;>
      exact .keyed (by simp only [hadd]; rfl)
  | @lpop word key value _ hname hpop =>
    rw [normalizeReplicationCommand_of_name hname (by decide) (by decide)]
    refine ⟨key, rfl, replays_of_plan hname rfl (.bulkString value) rfl
      fun clock' => ?_⟩
    simp only [plan, hname]
    exact .keyed (by simp only [hpop]; rfl)
  | @lpopMany word key number count values _ hname hparse hpop =>
    rw [normalizeReplicationCommand_of_name hname (by decide) (by decide)]
    refine ⟨key, rfl, replays_of_plan hname rfl (.array values) rfl
      fun clock' => ?_⟩
    simp only [plan, hname, lpopPlan, hparse]
    exact .keyed (by simp only [hpop]; rfl)
  | @blpop command request value _ hname hparse hpop =>
    have htarget := target_of_parseBlpop hparse
    have hnormal : normalizeReplicationCommand command (.array [request.key, value]) =
        [CommandName.lpop.text, request.key] := by
      simp [normalizeReplicationCommand, hname, List.getD, htarget]
    rw [hnormal]
    have hname' : nameOf [CommandName.lpop.text, request.key] = some .lpop :=
      nameOf_cons.mpr rfl
    refine ⟨request.key, htarget, replays_of_plan hname' rfl (.bulkString value) rfl
      fun clock' => ?_⟩
    simp only [plan, hname']
    exact .keyed (by simp only [hpop]; rfl)
  | @xadd word key idText field value values request fields id _ hname hrequest hzero hfields
      hadd =>
    have hnormal : normalizeReplicationCommand
        (word :: key :: idText :: field :: value :: values) (.bulkString id.toString) =
        word :: key :: id.toString :: field :: value :: values := by
      simp [normalizeReplicationCommand, hname]
    have hname' : nameOf (word :: key :: id.toString :: field :: value :: values) =
        some .xadd := nameOf_cons.mpr (nameOf_cons.mp hname)
    have hid : IdRequest.explicit id ≠ .explicit StreamId.zero := by
      simpa using addStream_ne_zero hclock hzero hadd
    rw [hnormal]
    refine ⟨key, rfl, replays_of_plan hname' rfl (.bulkString id.toString) rfl
      fun clock' => ?_⟩
    simp only [plan, hname', xaddPlan, parseId_toString, if_neg hid, hfields]
    exact .keyed (by simp only [addStream_explicit hadd clock']; rfl)

/-- The normal form of a write is no larger than memory either. -/
theorem Write.sized (h : Write host clock current command response update)
    (hsized : Sized command) : Sized (normalizeReplicationCommand command response) := by
  have hsame : ∀ {name}, nameOf command = some name → name ≠ .xadd → name ≠ .blpop →
      Sized (normalizeReplicationCommand command response) := by
    intro name hname hxadd hblpop
    rwa [normalizeReplicationCommand_of_name hname hxadd hblpop]
  cases h with
  | set hname => exact hsame hname (by decide) (by decide)
  | setUntil hname _ => exact hsame hname (by decide) (by decide)
  | incr hname _ => exact hsame hname (by decide) (by decide)
  | @push _ _ _ _ mode _ _ hname _ =>
    exact hsame hname (by cases mode <;> decide) (by cases mode <;> decide)
  | lpop hname _ => exact hsame hname (by decide) (by decide)
  | lpopMany hname _ _ => exact hsame hname (by decide) (by decide)
  | @blpop command request value _ hname hparse _ =>
    have htarget := target_of_parseBlpop hparse
    have hnormal : normalizeReplicationCommand command (.array [request.key, value]) =
        [CommandName.lpop.text, request.key] := by
      simp [normalizeReplicationCommand, hname, List.getD, htarget]
    have hkey := hsized.argument_lt request.key (List.mem_of_getElem? htarget)
    rw [hnormal]
    refine ⟨show 2 < 2 ^ 64 by decide, ?_⟩
    simpa using ⟨show 4 < 2 ^ 64 by decide, hkey⟩
  | @xadd word key idText field value values _ _ id _ hname _ _ _ _ =>
    have hnormal : normalizeReplicationCommand
        (word :: key :: idText :: field :: value :: values) (.bulkString id.toString) =
        word :: key :: id.toString :: field :: value :: values := by
      simp [normalizeReplicationCommand, hname]
    have hid := length_toString_le id
    rw [hnormal]
    refine ⟨hsized.length_lt, fun argument hargument => ?_⟩
    by_cases hnew : argument = id.toString
    · rw [hnew]
      omega
    · refine hsized.argument_lt argument ?_
      simp only [List.mem_cons, hnew, false_or] at hargument
      simp only [List.mem_cons]
      tauto

/-! ## A copy of the database -/

/-- The copy holds what the original holds, and none of it ever expires. -/
structure Mirrors (copy original : Database) : Prop where
  same : ∀ key, copy.entries.lookup key = original.entries.lookup key
  permanent : ∀ key, Permanent (original.entries.lookup key)

theorem mirrors_empty : Mirrors {} {} where
  same _ := rfl
  permanent _ := by rintro _ ⟨⟩

theorem not_stale_of_permanent (h : Permanent (database.entries.lookup key)) (clock : Clock) :
    ¬ Stale (Entry.expired clock) key database := by
  rintro ⟨entry, hentry, hexpired⟩
  simp [Entry.expired, h entry hentry] at hexpired

theorem view_of_permanent (h : Permanent (database.entries.lookup key)) (clock : Clock) :
    view clock database key = database.entries.lookup key :=
  live_eq_lookup_of_not_stale (not_stale_of_permanent h clock)

/-- The normal form of a write, on a database in which its key has the entry the
write was decided from. -/
theorem Replays.dispatch (h : Replays host key current update command)
    (hcurrent : database.entries.lookup key = current) (hpermanent : Permanent current)
    (clock : Clock) :
    ∃ reply after, Commands.dispatch host clock database command = some (reply, after) ∧
      faultless reply = true ∧
      ∀ other, after.entries.lookup other =
        if other = key then update.outcome current else database.entries.lookup other := by
  subst hcurrent
  obtain ⟨reply, hreply, hupdates⟩ := h.plan clock
  rw [dispatch_eq_plan]
  generalize Commands.plan host clock command = found at hupdates ⊢
  cases hupdates with
  | @overwrite entry hput =>
    refine ⟨reply, _, rfl, hreply, fun other => ?_⟩
    rw [hput]
    exact lookup_put key other entry database
  | @keyed operation hdecides =>
    have hlive : live (Entry.expired clock) key database = database.entries.lookup key :=
      view_of_permanent hpermanent clock
    refine ⟨reply, (transact (Entry.expired clock) key operation database).2, ?_, hreply,
      fun other => ?_⟩
    · simp only [Plan.execute, transact]
      rw [hlive, hdecides]
      rfl
    · rw [lookup_transact, hlive, hdecides]

namespace Mirrors

variable {copy original after : Database}

theorem looked (h : Mirrors copy original) (hpurges : Purges (Entry.expired clock) original after) :
    Mirrors copy after := by
  rw [hpurges.eq_of_no_stale fun key => not_stale_of_permanent (h.permanent key) clock]
  exact h

/-- **A write can be done again on a copy.** -/
theorem replay (h : Mirrors copy original) (hclock : clock.Positive)
    (hexpiry : setsExpiry command = false)
    (hchange : Change host clock command response original after) :
    (effective host command response = false ∧ Mirrors copy after) ∨
      (effective host command response = true ∧
        (∃ name, nameOf (normalizeReplicationCommand command response) = some name ∧
          isReplayable name = true) ∧
        ∀ clock', ∃ reply copy',
          Commands.dispatch host clock' copy (normalizeReplicationCommand command response) =
            some (reply, copy') ∧
          faultless reply = true ∧ Mirrors copy' after) := by
  cases hchange with
  | looked hineffective hpurges => exact .inl ⟨hineffective, h.looked hpurges⟩
  | wrote key update base heffective htarget hdecided _ hbased =>
    rw [view_of_permanent (h.permanent key)] at hdecided
    have hwrite := write_cases heffective hdecided
    obtain ⟨target, htarget', hreplays⟩ := hwrite.replays hclock hexpiry
    obtain rfl : target = key := Option.some.inj (htarget'.symm.trans htarget)
    -- Nothing was removed on the way.
    obtain rfl : base = original := by
      rcases hbased with hbased | ⟨hbased, -⟩
      · rw [hbased, purge_of_not_stale (not_stale_of_permanent (h.permanent target) clock)]
      · exact hbased
    refine .inr ⟨heffective, hreplays.named, fun clock' => ?_⟩
    obtain ⟨reply, copy', hdispatch, hreply, hlookup⟩ :=
      hreplays.dispatch (h.same target) (h.permanent target) clock'
    refine ⟨reply, copy', hdispatch, hreply, fun other => ?_, fun other => ?_⟩
    · rw [hlookup, lookup_apply, h.same]
    · rw [lookup_apply]
      split
      · exact hwrite.permanent (h.permanent target) hexpiry
      · exact h.permanent other

end Mirrors

end Commands

end RedisServer
