import RedisServer.Commands.Identifiers

/-!
# Identifiers that the server chooses

`XADD` with `*` takes the time of the clock, or goes on from the last entry if the
clock lags behind it; with `ms-*` only the sequence is chosen.  In both cases the
server adds one to the sequence of the last entry, and the sum wraps around.  For
`ms-*` that does no harm, for then no identifier with this time is left.  For `*` the
later times are still to be had, but they are not tried.
-/

namespace RedisServer

open Resp KeyedStore Database

variable {last : StreamId}

namespace Commands

/-! ## Successors -/

/-- The sum does not wrap around below the largest sequence. -/
theorem toNat_succ {sequence : UInt64} (h : sequence ≠ maximum) :
    (sequence + 1).toNat = sequence.toNat + 1 := by
  have hlt := sequence.toNat_lt
  have hne : sequence.toNat ≠ 2 ^ 64 - 1 := by
    intro heq
    exact h (UInt64.toNat_inj.mp (by rw [heq]; decide))
  rw [UInt64.toNat_add]
  simp only [UInt64.reduceToNat]
  omega

theorem succ_maximum : maximum + 1 = 0 := by decide

theorem lt_succ_iff {id : StreamId} :
    id < ⟨id.milliseconds, id.sequence + 1⟩ ↔ id.sequence ≠ maximum := by
  rw [StreamId.lt_iff]
  constructor
  · rintro h hmax
    rw [hmax, succ_maximum] at h
    simp at h
  · intro hne
    rw [toNat_succ hne]
    exact .inr ⟨rfl, Nat.lt_succ_self _⟩

/-- The identifiers with a given time above a given one. -/
def Above (last : StreamId) (milliseconds : UInt64) : Set StreamId :=
  {id | id.milliseconds = milliseconds ∧ last < id ∧ id ≠ StreamId.zero}

/-- Behind the time of the last entry, the first sequence is free. -/
theorem isLeast_above_of_lt {milliseconds : UInt64} (h : last.milliseconds < milliseconds) :
    IsLeast (Above last milliseconds) ⟨milliseconds, 0⟩ := by
  have hlt : last < ⟨milliseconds, 0⟩ := StreamId.lt_iff.mpr (.inl (UInt64.lt_iff_toNat_lt.mp h))
  refine ⟨⟨rfl, hlt, StreamId.ne_zero_of_lt hlt⟩, ?_⟩
  rintro ⟨_, sequence⟩ ⟨rfl, -, -⟩
  rw [← not_lt, StreamId.lt_iff]
  simp

/-- Within it, the sequence behind the last one is free. -/
theorem isLeast_above_of_eq (h : last.sequence ≠ maximum) :
    IsLeast (Above last last.milliseconds) ⟨last.milliseconds, last.sequence + 1⟩ := by
  have hlt := lt_succ_iff.mpr h
  refine ⟨⟨rfl, hlt, StreamId.ne_zero_of_lt hlt⟩, ?_⟩
  rintro ⟨milliseconds, sequence⟩ ⟨hsame, habove, -⟩
  simp only at hsame
  subst hsame
  rw [StreamId.lt_iff] at habove
  rw [← not_lt, StreamId.lt_iff, toNat_succ h]
  simp only at habove ⊢
  omega

/-- There is no such identifier but in these two cases. -/
theorem above_cases {id : StreamId} (h : last < id) :
    last.milliseconds < id.milliseconds ∨
      id.milliseconds = last.milliseconds ∧ last.sequence ≠ maximum := by
  rw [StreamId.lt_iff] at h
  rcases h with hlater | ⟨hsame, hlt⟩
  · exact .inl (UInt64.lt_iff_toNat_lt.mpr hlater)
  · refine .inr ⟨UInt64.toNat_inj.mp hsame.symm, ?_⟩
    intro hmax
    rw [hmax] at hlt
    have hbound := id.sequence.toNat_lt
    have htop : maximum.toNat = 2 ^ 64 - 1 := by decide
    omega

/-! ## The chosen identifier -/

section Chosen

variable {clock : Clock} {entries : List StreamEntry}

theorem newStreamId_automaticSequence (hentries : entries ≠ []) {milliseconds : UInt64}
    {id : StreamId} (hid : id.milliseconds = milliseconds) (habove : lastId entries < id) :
    IsLeast (Above (lastId entries) milliseconds)
      (newStreamId clock entries (.automaticSequence milliseconds)) := by
  subst hid
  rcases above_cases habove with hlater | ⟨hsame, hne⟩
  · have hdiffers : id.milliseconds ≠ (lastId entries).milliseconds := (UInt64.ne_of_lt hlater).symm
    have hpositive : id.milliseconds ≠ 0 := by
      intro hzero
      rw [hzero] at hlater
      exact absurd hlater UInt64.not_lt_zero
    rw [newStreamId, if_neg fun h => hdiffers h.2, if_neg hpositive]
    exact isLeast_above_of_lt hlater
  · rw [hsame, newStreamId, if_pos ⟨hentries, rfl⟩]
    exact isLeast_above_of_eq hne

/-- The clock is behind the last entry, whose sequence is the largest. -/
def Stuck (clock : Clock) (last : StreamId) : Prop :=
  UInt64.ofInt clock.system ≤ last.milliseconds ∧ last.sequence = maximum

theorem lt_newStreamId_automatic_iff (hentries : entries ≠ []) :
    lastId entries < newStreamId clock entries .automatic ↔ ¬ Stuck clock (lastId entries) := by
  rw [newStreamId, Stuck, not_and]
  by_cases hlags : UInt64.ofInt clock.system ≤ (lastId entries).milliseconds
  · rw [if_pos ⟨hentries, hlags⟩, lt_succ_iff]
    exact ⟨fun h _ => h, fun h => h hlags⟩
  · rw [if_neg fun h => hlags h.2]
    refine ⟨fun _ h => absurd h hlags, fun _ => ?_⟩
    exact StreamId.lt_iff.mpr (.inl (UInt64.lt_iff_toNat_lt.mp (UInt64.not_le.mp hlags)))

end Chosen

/-! ## `XADD` -/

section Xadd

variable {host : Host} {clock : Clock} {key idText field value : Bytes} {values : List Bytes}
  {fields : List (Bytes × Bytes)} {request : IdRequest} {database : Database}

theorem dispatch_xadd (hid : parseId idText = some request)
    (hnonzero : request ≠ .explicit StreamId.zero)
    (hfields : parseValueList (field :: value :: values) = some fields) :
    dispatch host clock database
        (CommandName.xadd.text :: key :: idText :: field :: value :: values) =
      (respondXadd (OnEntry.addStream clock request fields (view clock database key)).1).map
        (·, (transact (Entry.expired clock) key (OnEntry.addStream clock request fields)
          database).2) := by
  have hname : nameOf (CommandName.xadd.text :: key :: idText :: field :: value :: values) =
      some .xadd := nameOf_cons.mpr rfl
  rw [dispatch_eq_plan, plan, hname]
  simp only [xaddPlan, hid, if_neg hnonzero, hfields]
  rfl

/-- The entry with the chosen identifier is appended, and the identifier is the reply. -/
def Appends (host : Host) (clock : Clock) (key idText field value : Bytes) (values : List Bytes)
    (entries : List StreamEntry) (expiresAt : Option Int) (fields : List (Bytes × Bytes))
    (id : StreamId) (database : Database) : Prop :=
  ∃ after, dispatch host clock database
      (CommandName.xadd.text :: key :: idText :: field :: value :: values) =
        some (.bulkString id.toString, after) ∧
    after.entries.lookup key = some ⟨.stream (entries ++ [⟨id, fields⟩]), expiresAt⟩

/-- An identifier above the last one is taken. -/
theorem appends_of_lt {entries : List StreamEntry} {expiresAt : Option Int}
    (hid : parseId idText = some request) (hnonzero : request ≠ .explicit StreamId.zero)
    (hfields : parseValueList (field :: value :: values) = some fields)
    (hview : view clock database key = some ⟨.stream entries, expiresAt⟩)
    (hlt : lastId entries < newStreamId clock entries request) :
    Appends host clock key idText field value values entries expiresAt fields
      (newStreamId clock entries request) database := by
  have hdecision : OnEntry.addStream clock request fields (some ⟨.stream entries, expiresAt⟩) =
      (.ok (newStreamId clock entries request),
        .put ⟨.stream (entries ++ [⟨newStreamId clock entries request, fields⟩]), expiresAt⟩) := by
    rw [OnEntry.addStream, if_neg fun h => absurd hlt (not_lt_of_ge h.2)]
  have hlive : live (Entry.expired clock) key database = some ⟨.stream entries, expiresAt⟩ := hview
  refine ⟨(transact (Entry.expired clock) key (OnEntry.addStream clock request fields)
    database).2, ?_, ?_⟩
  · rw [dispatch_xadd hid hnonzero hfields, hview, hdecision]
    rfl
  · rw [lookup_transact, if_pos rfl, hlive, hdecision]
    rfl

/-- An identifier that is not above the last one is rejected. -/
theorem not_appends_of_not_lt {entries : List StreamEntry} {expiresAt : Option Int}
    (hid : parseId idText = some request) (hnonzero : request ≠ .explicit StreamId.zero)
    (hfields : parseValueList (field :: value :: values) = some fields)
    (hview : view clock database key = some ⟨.stream entries, expiresAt⟩)
    (hentries : entries ≠ []) (hnot : ¬ lastId entries < newStreamId clock entries request)
    (id : StreamId) :
    ¬ Appends host clock key idText field value values entries expiresAt fields id database := by
  rintro ⟨after, hreply, -⟩
  rw [dispatch_xadd hid hnonzero hfields, hview, OnEntry.addStream,
    if_pos ⟨hentries, not_lt.mp hnot⟩] at hreply
  cases hreply

theorem parseId_star : parseId (ascii "*") = some .automatic := rfl

/-- A time with a star for the sequence. -/
theorem parseId_millisecondsStar {text : Bytes} {milliseconds : UInt64}
    (htext : parseTextAsNumber text = some milliseconds) :
    parseId (text ++ ascii "-*") = some (.automaticSequence milliseconds) := by
  have hsplit : splitDash (text ++ ascii "-*") = some (text, ascii "*") :=
    splitDash_append (notMem_of_parseTextAsNumber htext)
  have hstar : text ++ ascii "-*" ≠ ascii "*" := by
    intro h
    have hlength := congrArg List.length h
    rw [List.length_append] at hlength
    simp [ascii] at hlength
  rw [parseId, if_neg hstar, hsplit]
  simp only [htext, if_true]

/-- **When the server finds an identifier.**  `XADD` with `*` succeeds unless the clock
is not ahead of the last entry and the sequence of that entry is the largest one.
`XADD` with `ms-*` succeeds whenever there is an identifier to be had, and takes the
smallest one. -/
theorem automatic_id_iff {entries : List StreamEntry} {expiresAt : Option Int}
    (hview : view clock database key = some ⟨.stream entries, expiresAt⟩)
    (hentries : entries ≠ [])
    (hfields : parseValueList (field :: value :: values) = some fields) :
    ((∃ id, lastId entries < id ∧
        Appends host clock key (ascii "*") field value values entries expiresAt fields id
          database) ↔
      ¬ Stuck clock (lastId entries)) ∧
    ∀ text milliseconds, parseTextAsNumber text = some milliseconds →
      (∃ id : StreamId, id.milliseconds = milliseconds ∧ lastId entries < id) →
      ∃ id, IsLeast (Above (lastId entries) milliseconds) id ∧
        Appends host clock key (text ++ ascii "-*") field value values entries expiresAt fields id
          database := by
  constructor
  · rw [← lt_newStreamId_automatic_iff hentries]
    constructor
    · rintro ⟨id, -, happends⟩
      by_contra hnot
      exact not_appends_of_not_lt parseId_star (by simp) hfields hview hentries hnot id happends
    · intro hlt
      exact ⟨_, hlt, appends_of_lt parseId_star (by simp) hfields hview hlt⟩
  · rintro text milliseconds htext ⟨id, hid, habove⟩
    have hleast := @newStreamId_automaticSequence clock entries hentries milliseconds id hid habove
    exact ⟨_, hleast, appends_of_lt (parseId_millisecondsStar htext) (by simp) hfields hview
      hleast.1.2.1⟩

end Xadd

/-- The clock shows less than the last entry, and the next sequence is free. -/
theorem automatic_id_iff_lagging_clock :
    ∃ id, lastId [⟨⟨5, 0⟩, [(ascii "f", ascii "v")]⟩] < id ∧
      Appends Host.plain ⟨0, 3⟩ (ascii "s") (ascii "*") (ascii "f") (ascii "v") []
        [⟨⟨5, 0⟩, [(ascii "f", ascii "v")]⟩] none [(ascii "f", ascii "v")] id oneEntryStream := by
  have hview : view ⟨0, 3⟩ oneEntryStream (ascii "s") =
      some ⟨.stream [⟨⟨5, 0⟩, [(ascii "f", ascii "v")]⟩], none⟩ := by decide +kernel
  have hfree : ¬ Stuck ⟨0, 3⟩ (lastId [⟨⟨5, 0⟩, [(ascii "f", ascii "v")]⟩]) := by
    rintro ⟨-, hmax⟩
    exact absurd hmax (by decide +kernel)
  exact (automatic_id_iff hview (by simp) rfl).1.mpr hfree

/-- A stream that ends with the largest sequence of the time 5. -/
def fullMillisecond : Database :=
  (Database.addStream ⟨0, 0⟩ (ascii "s") (.explicit ⟨5, maximum⟩) [(ascii "f", ascii "v")] {}).2

/-- The identifier `6-0` is free, but an `XADD` with `*` at the time 3 is rejected. -/
theorem automatic_id_stuck :
    view ⟨0, 3⟩ fullMillisecond (ascii "s") =
        some ⟨.stream [⟨⟨5, maximum⟩, [(ascii "f", ascii "v")]⟩], none⟩ ∧
      (⟨5, maximum⟩ : StreamId) < ⟨6, 0⟩ ∧ (⟨5, maximum⟩ : StreamId) ≠ ⟨maximum, maximum⟩ ∧
      (dispatch Host.plain ⟨0, 3⟩ fullMillisecond
        [ascii "XADD", ascii "s", ascii "*", ascii "f", ascii "v"]).any (fun outcome =>
          responseIsError outcome.1 &&
            decide (view ⟨0, 3⟩ outcome.2 (ascii "s") = view ⟨0, 3⟩ fullMillisecond (ascii "s"))) =
        true := by
  decide +kernel

end Commands

end RedisServer
