import Mathlib.Data.Stream.Init
import RedisServer.Commands.Effect
import RedisServer.Library.Runs

/-!
# The representation invariant

No key holds an empty list or an empty stream, the identifiers of a stream grow
strictly and never are `0-0`, only strings expire, and the revisions are in
order.  The binary searches of `XRANGE` and `XREAD` rest on it, and so does the
claim of the blocking commands that a waiting client has nothing to take.

The invariant is one predicate on entries, `Entry.WellFormed`, and
`KeyedStore.Versioned`.  A write keeps it because what a command decides for one
key is well formed when the entry it looked at is (`write_wellFormed`).
-/

namespace RedisServer

open Resp KeyedStore Database Commands

variable {before after database : Database} {clock : Clock} {current : Option Entry}

/-! ## Well-formed entries -/

/-- The value is not empty, and the identifiers of a stream grow strictly and are
all allowed. -/
def Value.WellFormed (Allowed : StreamId → Prop) : Value → Prop
  | .string _ => True
  | .list elements => elements ≠ []
  | .stream entries =>
    entries ≠ [] ∧ (entries.Pairwise fun first second => first.id < second.id) ∧
      ∀ entry ∈ entries, Allowed entry.id

/-- The value is well formed, and only a string may expire. -/
structure Entry.WellFormed (Allowed : StreamId → Prop) (entry : Entry) : Prop where
  value : entry.value.WellFormed Allowed
  expiry : entry.expiresAt ≠ none → ∃ text, entry.value = .string text

/-- An entry that is there is well formed. -/
def Sound (Allowed : StreamId → Prop) (current : Option Entry) : Prop :=
  ∀ entry, current = some entry → entry.WellFormed Allowed

structure Database.Invariant (Allowed : StreamId → Prop) (database : Database) : Prop where
  sound : ∀ key, Sound Allowed (database.entries.lookup key)
  versioned : Versioned database

/-- The system clock shows a time after the epoch, in the range of its type. -/
structure Clock.Positive (clock : Clock) : Prop where
  pos : 0 < clock.system
  lt : clock.system < 2 ^ 63

/-- Identifiers generated at this moment are allowed: those above another one,
and the first one of a stream. -/
structure Admits (Allowed : StreamId → Prop) (clock : Clock) : Prop where
  above : ∀ first second : StreamId, first < second → Allowed second
  first : ∀ request, request ≠ .explicit StreamId.zero → Allowed (newStreamId clock [] request)

namespace Database

variable {Allowed : StreamId → Prop}

theorem invariant_empty : Invariant Allowed {} where
  sound := by
    intro key entry hentry
    simp at hentry
  versioned := versioned_empty

theorem expiresAt_list {elements : List Bytes} {expiresAt : Option Int}
    (h : Entry.WellFormed Allowed { value := .list elements, expiresAt }) : expiresAt = none := by
  by_contra hne
  obtain ⟨text, htext⟩ := h.expiry hne
  cases htext

theorem expiresAt_stream {entries : List StreamEntry} {expiresAt : Option Int}
    (h : Entry.WellFormed Allowed { value := .stream entries, expiresAt }) :
    expiresAt = none := by
  by_contra hne
  obtain ⟨text, htext⟩ := h.expiry hne
  cases htext

private theorem sound_some {entry : Entry} (h : entry.WellFormed Allowed) :
    Sound Allowed (some entry) := by
  rintro _ ⟨⟩
  exact h

private theorem wellFormed_string (text : Bytes) (expiresAt : Option Int) :
    Entry.WellFormed Allowed { value := .string text, expiresAt } :=
  ⟨trivial, fun _ => ⟨text, rfl⟩⟩

private theorem wellFormed_list {elements : List Bytes} (h : elements ≠ []) :
    Entry.WellFormed Allowed { value := .list elements, expiresAt := none } :=
  ⟨h, fun hne => absurd rfl hne⟩

/-! ## Streams -/

/-- The identifier of a first entry. -/
theorem newStreamId_nil_ne_zero (hclock : clock.Positive) {request : IdRequest}
    (hrequest : request ≠ .explicit StreamId.zero) :
    newStreamId clock [] request ≠ StreamId.zero := by
  cases request with
  | explicit id =>
    rintro rfl
    exact hrequest rfl
  | automaticSequence milliseconds =>
    by_cases hzero : milliseconds = 0 <;> simp [newStreamId, hzero, StreamId.zero]
  | automatic =>
    have htime : UInt64.ofInt clock.system ≠ 0 := by
      intro heq
      have hnat := congrArg UInt64.toNat heq
      have hmod : clock.system % 2 ^ 64 = clock.system :=
        Int.emod_eq_of_lt (Int.le_of_lt hclock.pos) (by have := hclock.lt; omega)
      simp only [UInt64.ofInt, UInt64.toNat_ofNat', UInt64.toNat_zero] at hnat
      have := hclock.pos
      have := hclock.lt
      omega
    simp [newStreamId, StreamId.zero, htime]

/-- After the epoch no generated identifier is `0-0`. -/
theorem admits_nonzero (hclock : clock.Positive) :
    Admits (· ≠ StreamId.zero) clock where
  above _ _ hlt := StreamId.ne_zero_of_lt hlt
  first _ hrequest := newStreamId_nil_ne_zero hclock hrequest

theorem admits_all (clock : Clock) : Admits (fun _ => True) clock :=
  ⟨fun _ _ _ => trivial, fun _ _ => trivial⟩

theorem le_lastId {entries : List StreamEntry}
    (hsorted : entries.Pairwise fun first second => first.id < second.id) :
    ∀ entry ∈ entries, entry.id ≤ lastId entries := by
  intro entry hentry
  rcases List.eq_nil_or_concat' entries with rfl | ⟨front, last, rfl⟩
  · cases hentry
  · have hlast : lastId (front ++ [last]) = last.id := by simp [lastId]
    rw [hlast]
    rcases List.mem_append.mp hentry with hfront | hsame
    · exact le_of_lt ((List.pairwise_append.mp hsorted).2.2 entry hfront last (by simp))
    · rw [List.mem_singleton.mp hsame]

private theorem addStream_sound (hadmits : Admits Allowed clock) {request : IdRequest}
    (hrequest : request ≠ .explicit StreamId.zero) (fields : List (Bytes × Bytes))
    (hsound : Sound Allowed current) :
    Sound Allowed ((OnEntry.addStream clock request fields current).2.outcome current) := by
  rcases current with _ | ⟨_ | _ | entries, expiresAt⟩
  · refine sound_some ⟨⟨by simp, by simp, ?_⟩, fun hne => absurd rfl hne⟩
    simpa using hadmits.first request hrequest
  · exact hsound
  · exact hsound
  · simp only [OnEntry.addStream]
    split
    · exact hsound
    · rename_i hid
      have hold := hsound _ rfl
      obtain ⟨hne, hsorted, hallowed⟩ := hold.value
      have hlt : lastId entries < newStreamId clock entries request := by
        by_contra hle
        exact hid ⟨hne, not_lt.mp hle⟩
      obtain rfl := expiresAt_stream hold
      refine sound_some ⟨⟨by simp, ?_, ?_⟩, fun hne => absurd rfl hne⟩
      · refine List.pairwise_append.mpr ⟨hsorted, by simp, ?_⟩
        intro entry hentry added hadded
        rw [List.mem_singleton.mp hadded]
        exact lt_of_le_of_lt (le_lastId hsorted entry hentry) hlt
      · intro entry hentry
        rcases List.mem_append.mp hentry with hentry | hentry
        · exact hallowed entry hentry
        · rw [List.mem_singleton.mp hentry]
          exact hadmits.above _ _ hlt

/-! ## Strings and lists -/

private theorem incrementKey_sound (hsound : Sound Allowed current) :
    Sound Allowed ((OnEntry.incrementKey current).2.outcome current) := by
  rcases current with _ | ⟨text | _ | _, expiresAt⟩
  · exact sound_some (wellFormed_string _ _)
  · simp only [OnEntry.incrementKey]
    split
    · exact hsound
    · exact sound_some (wellFormed_string _ _)
  · exact hsound
  · exact hsound

theorem extend_ne_nil (mode : ListAddMode) {values : List Bytes} (hvalues : values ≠ [])
    (elements : List Bytes) : OnEntry.extend mode values elements ≠ [] := by
  cases mode <;> simp [OnEntry.extend, hvalues]

private theorem addListElements_sound {values : List Bytes} (hvalues : values ≠ [])
    (mode : ListAddMode) (hsound : Sound Allowed current) :
    Sound Allowed ((OnEntry.addListElements values mode current).2.outcome current) := by
  rcases current with _ | ⟨_ | elements | _, expiresAt⟩
  · exact sound_some (wellFormed_list (extend_ne_nil mode hvalues _))
  · exact hsound
  · obtain rfl := expiresAt_list (hsound _ rfl)
    exact sound_some (wellFormed_list (extend_ne_nil mode hvalues _))
  · exact hsound

private theorem remaining_sound (elements : List Bytes) (current : Option Entry) :
    Sound Allowed ((OnEntry.remaining none elements).outcome current) := by
  unfold OnEntry.remaining
  split
  · rintro _ ⟨⟩
  · exact sound_some (wellFormed_list ‹_›)

private theorem popListElement_sound (hsound : Sound Allowed current) :
    Sound Allowed ((OnEntry.popListElement current).2.outcome current) := by
  rcases current with _ | ⟨_ | (_ | ⟨front, elements⟩) | _, expiresAt⟩
  · exact hsound
  · exact hsound
  · exact hsound
  · obtain rfl := expiresAt_list (hsound _ rfl)
    exact remaining_sound _ _
  · exact hsound

private theorem popListElements_sound (number : Int) (hsound : Sound Allowed current) :
    Sound Allowed ((OnEntry.popListElements number current).2.outcome current) := by
  rcases current with _ | ⟨_ | (_ | ⟨front, elements⟩) | _, expiresAt⟩
  · exact hsound
  · exact hsound
  · exact hsound
  · obtain rfl := expiresAt_list (hsound _ rfl)
    simp only [OnEntry.popListElements]
    split
    · exact hsound
    · exact remaining_sound _ _
  · exact hsound

/-! ## One command -/

/-- What a write decides for a key is well formed if the entry it saw is. -/
theorem write_wellFormed {host : Host} (hadmits : Admits Allowed clock) {command : Command}
    {response : Response} {update : Update Entry} (hsound : Sound Allowed current)
    (h : Write host clock current command response update) :
    Sound Allowed (update.outcome current) := by
  cases h with
  | set _ => exact sound_some (wellFormed_string _ _)
  | setUntil _ _ => exact sound_some (wellFormed_string _ _)
  | incr _ hincrement =>
    have hafter := incrementKey_sound hsound
    rwa [hincrement] at hafter
  | @push word key value values mode _ _ _ hadd =>
    have hafter := addListElements_sound (List.cons_ne_nil value values) mode hsound
    rwa [hadd] at hafter
  | lpop _ hpop =>
    have hafter := popListElement_sound hsound
    rwa [hpop] at hafter
  | @lpopMany _ _ _ count _ _ _ _ hpop =>
    have hafter := popListElements_sound count hsound
    rwa [hpop] at hafter
  | blpop _ _ hpop =>
    have hafter := popListElement_sound hsound
    rwa [hpop] at hafter
  | @xadd _ _ _ _ _ _ request fields _ _ _ _ hzero _ hadd =>
    have hafter := addStream_sound hadmits hzero fields hsound
    rwa [hadd] at hafter

theorem Invariant.purges (h : Invariant Allowed before)
    (hpurges : Purges (Entry.expired clock) before after) : Invariant Allowed after where
  sound := by
    intro key
    rcases hpurges.key_cases h.versioned key with ⟨hsame, -⟩ | ⟨-, hnone, -⟩
    · rw [hsame]
      exact h.sound key
    · rw [hnone]
      rintro _ ⟨⟩
  versioned := hpurges.versioned h.versioned

theorem Invariant.sound_view (h : Invariant Allowed database) (clock : Clock) (key : Bytes) :
    Sound Allowed (view clock database key) := by
  intro entry hentry
  exact h.sound key entry (Option.filter_eq_some_iff.mp hentry).1

/-- Only a string can be there and not be seen any more. -/
theorem Invariant.view_cases (h : Invariant Allowed database) (clock : Clock) (key : Bytes) :
    view clock database key = database.entries.lookup key ∨
      view clock database key = none ∧
        ∃ text expiresAt, database.entries.lookup key = some ⟨.string text, expiresAt⟩ := by
  unfold view live
  rcases hlookup : database.entries.lookup key with _ | ⟨text | elements | entries, expiresAt⟩
  · exact .inl rfl
  · cases hexpired : Entry.expired clock ⟨.string text, expiresAt⟩ with
    | false => exact .inl (by simp [Option.filter, hexpired])
    | true => exact .inr ⟨by simp [Option.filter, hexpired], text, expiresAt, rfl⟩
  · obtain rfl := expiresAt_list (h.sound key _ hlookup)
    exact .inl rfl
  · obtain rfl := expiresAt_stream (h.sound key _ hlookup)
    exact .inl rfl

/-- Only strings are removed because they have expired. -/
theorem Invariant.purges_cases (h : Invariant Allowed before)
    (hpurges : Purges (Entry.expired clock) before after) (key : Bytes) :
    after.entries.lookup key = before.entries.lookup key ∨
      after.entries.lookup key = none ∧
        ∃ text expiresAt, before.entries.lookup key = some ⟨.string text, expiresAt⟩ := by
  rcases hpurges.key_cases h.versioned key with ⟨hsame, -⟩ | ⟨hstale, hgone, -⟩
  · exact .inl hsame
  · have hview : view clock before key = none := live_eq_none_of_stale hstale
    rcases h.view_cases clock key with hseen | ⟨-, hstring⟩
    · exact .inl (hgone.trans (hview.symm.trans hseen))
    · exact .inr ⟨hgone, hstring⟩

/-- An update of one key keeps the invariant if the new entry is well formed. -/
theorem Invariant.apply (h : Invariant Allowed database) (key : Bytes) (update : Update Entry)
    (hsound : Sound Allowed (update.outcome (database.entries.lookup key))) :
    Invariant Allowed (update.apply key database) where
  sound := by
    intro other
    rw [lookup_apply]
    split
    · exact hsound
    · exact h.sound other
  versioned := h.versioned.apply key update

/-- A pop keeps the invariant, whether or not it finds an element. -/
theorem Invariant.popListElement (h : Invariant Allowed database) (clock : Clock) (key : Bytes) :
    Invariant Allowed (popListElement clock key database).2 := by
  rw [popListElement_eq]
  refine (h.purges (purges_purge (Entry.expired clock) key database)).apply key _ ?_
  rw [lookup_purge_self]
  exact popListElement_sound (h.sound_view clock key)

/-- **A dispatched command keeps the invariant.** -/
theorem Invariant.change {host : Host} (hadmits : Admits Allowed clock) {command : Command}
    {response : Response} (h : Invariant Allowed before)
    (hchange : Change host clock command response before after) : Invariant Allowed after := by
  cases hchange with
  | looked _ hpurges => exact h.purges hpurges
  | wrote key update base heffective _ hdecided hchanges hbased =>
    have houtcome : Sound Allowed (update.outcome (view clock before key)) :=
      write_wellFormed hadmits (h.sound_view clock key) (write_cases heffective hdecided)
    rcases hbased with rfl | ⟨rfl, entry, rfl⟩
    · refine (h.purges (purges_purge _ key before)).apply key update ?_
      rw [lookup_purge_self]
      exact houtcome
    · exact h.apply key _ houtcome

theorem Invariant.set {database : Database} (h : Invariant Allowed database) (clock : Clock)
    (key value : Bytes) (expiry : Option Int) :
    Invariant Allowed (set clock key value expiry database) :=
  h.apply key (.put _) (sound_some (wellFormed_string _ _))

/-! ## Loading a snapshot -/

end Database

/-- A key of an RDB file; the deadline is in milliseconds since the epoch. -/
structure StringEntry where
  key : Bytes
  value : Bytes
  expiresAtUnixMs : Option UInt64
deriving DecidableEq, Repr

/-- The time an entry of an RDB file has left: none if it never expires, and
nothing at all if it is already over. -/
def StringEntry.remaining (unixNow : Int) (entry : StringEntry) : Option (Option Int) :=
  match entry.expiresAtUnixMs with
  | none => some none
  | some deadline =>
    if unixNow < 0 ∨ deadline.toNat ≤ unixNow.toNat then none
    else some (some (min (deadline.toNat - unixNow.toNat) (2 ^ 63 - 1) : ℕ))

/-- The loop of `process_rdb_load`; every `set` looks at the clock itself. -/
def loadEntries (unixNow : Int) : List StringEntry → Stream' Clock → Database → Database
  | [], _, database => database
  | entry :: rest, clocks, database =>
    match entry.remaining unixNow with
    | none => loadEntries unixNow rest clocks.tail database
    | some expiry =>
      loadEntries unixNow rest clocks.tail
        (Database.set clocks.head entry.key entry.value expiry database)

theorem Database.Invariant.loadEntries {Allowed : StreamId → Prop} {unixNow : Int}
    (entries : List StringEntry) (clocks : Stream' Clock)
    (h : Database.Invariant Allowed database) :
    Database.Invariant Allowed (loadEntries unixNow entries clocks database) := by
  induction entries generalizing clocks database with
  | nil => exact h
  | cons entry rest ih =>
    unfold RedisServer.loadEntries
    cases entry.remaining unixNow with
    | none => exact ih _ h
    | some expiry => exact ih _ (h.set _ _ _ _)

/-! ## Every sequence of commands and loads -/

/-- One step in the life of a database. -/
inductive DatabaseStep where
  | issue (clock : Clock) (command : Command)
  | load (unixNow : Int) (entries : List StringEntry) (clocks : Stream' Clock)

/-- The database after one step; `none` if the command takes the server down. -/
def DatabaseStep.perform (host : Host) : DatabaseStep → Database → Option Database
  | .issue clock command, database =>
    (dispatch host clock database command).map Prod.snd
  | .load unixNow entries clocks, database => some (loadEntries unixNow entries clocks database)

/-- The system clock of the step shows a time after the epoch. -/
def DatabaseStep.Timely : DatabaseStep → Prop
  | .issue clock _ => clock.Positive
  | .load _ _ _ => True

/-- **The representation invariant.**  It holds after every sequence of commands
and loads from the empty database; the steady clock does not matter. -/
theorem representation_invariant (host : Host) (steps : List DatabaseStep)
    (htimely : ∀ step ∈ steps, step.Timely) {database : Database}
    (hrun : Runs.run (DatabaseStep.perform host) steps {} = some database) :
    (∀ key entry, database.entries.lookup key = some entry →
      entry.value ≠ .list [] ∧ entry.value ≠ .stream [] ∧
      (∀ stream, entry.value = .stream stream →
        (stream.Pairwise fun first second => first.id < second.id) ∧
          ∀ item ∈ stream, item.id ≠ StreamId.zero) ∧
      (entry.expiresAt ≠ none → ∃ text, entry.value = .string text)) ∧
    (∀ key, (database.entries.lookup key).isSome → (database.keyRevisions.lookup key).isSome) ∧
    (∀ key other revision, database.keyRevisions.lookup key = some revision →
      database.keyRevisions.lookup other = some revision → key = other) ∧
    (∀ key revision, database.keyRevisions.lookup key = some revision →
      revision < database.nextRevision) := by
  have hinvariant : Database.Invariant (· ≠ StreamId.zero) database := by
    refine Runs.run_invariant ?_ htimely Database.invariant_empty hrun
    intro step before after htimely hbefore hstep
    cases step with
    | issue clock command =>
      obtain ⟨⟨response, result⟩, hdispatch, rfl⟩ := Option.map_eq_some_iff.mp hstep
      exact hbefore.change (Database.admits_nonzero htimely) (dispatch_cases hdispatch)
    | load unixNow entries clocks =>
      cases hstep
      exact hbefore.loadEntries entries clocks
  refine ⟨?_, hinvariant.versioned.recorded, hinvariant.versioned.distinct,
    hinvariant.versioned.below⟩
  intro key entry hentry
  have hwell := hinvariant.sound key entry hentry
  refine ⟨?_, ?_, ?_, hwell.expiry⟩
  · intro hlist
    have hvalue := hwell.value
    rw [hlist] at hvalue
    exact hvalue rfl
  · intro hstream
    have hvalue := hwell.value
    rw [hstream] at hvalue
    exact hvalue.1 rfl
  · intro stream hstream
    have hvalue := hwell.value
    rw [hstream] at hvalue
    exact hvalue.2

/-- A list that is emptied again, a stream with generated identifiers and a
string that expires. -/
theorem representation_invariant_three_kinds :
    let steps : List DatabaseStep :=
      [.issue ⟨0, 1⟩ [ascii "RPUSH", ascii "l", ascii "a"], .issue ⟨1, 2⟩ [ascii "LPOP", ascii "l"],
        .issue ⟨2, 5⟩ [ascii "XADD", ascii "s", ascii "*", ascii "f", ascii "v"],
        .issue ⟨3, 4⟩ [ascii "XADD", ascii "s", ascii "*", ascii "f", ascii "v"],
        .load 4 [⟨ascii "t", ascii "x", some 9⟩] (Stream'.const ⟨4, 4⟩)]
    ∃ database, Runs.run (DatabaseStep.perform Host.plain) steps {} = some database ∧
      ∀ key revision, database.keyRevisions.lookup key = some revision →
        revision < database.nextRevision := by
  intro steps
  have hsome : (Runs.run (DatabaseStep.perform Host.plain) steps {}).isSome = true := by
    decide +kernel
  obtain ⟨database, hrun⟩ := Option.isSome_iff_exists.mp hsome
  refine ⟨database, hrun, (representation_invariant Host.plain steps ?_ hrun).2.2.2⟩
  simp only [steps, List.forall_mem_cons, DatabaseStep.Timely]
  exact ⟨⟨by decide, by decide⟩, ⟨by decide, by decide⟩, ⟨by decide, by decide⟩,
    ⟨by decide, by decide⟩, trivial, by simp⟩

end RedisServer
