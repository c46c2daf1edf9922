import RedisServer.Database.Deadlines

/-!
# Counters

`INCR` reads the text of a string as a signed 64-bit integer, adds one and prints the
result.  Printing is undone by reading (`parseSigned_printSigned`), so that a counter
can be incremented again and again.  Nothing is checked before the addition: at the
largest integer it goes wrong, and nowhere else (`incr_exact_iff`).
-/

namespace RedisServer

open Resp KeyedStore Database Commands

variable {value : Int}

/-! ## Texts of integers -/

theorem fits_of_parseSigned {text : Bytes} (h : parseSigned 64 text = some value) : Fits value := by
  obtain ⟨-, hrange⟩ := Option.filter_eq_some_iff.mp h
  simpa [Fits] using hrange

/-- A numeral does not start with a sign. -/
theorem print_eq_cons (n : ℕ) :
    ∃ first digits, Decimal.print n = first :: digits ∧ first ≠ 45 := by
  cases hprint : Decimal.print n with
  | nil => exact absurd hprint (Decimal.print_ne_nil n)
  | cons first digits =>
    refine ⟨first, digits, rfl, ?_⟩
    rintro rfl
    have hminus : (45 : UInt8) ∈ Decimal.print n := by simp [hprint]
    exact absurd (Decimal.isDigit_of_mem_print hminus) (by decide)

/-- Reading undoes printing. -/
theorem parseSigned_printSigned (h : Fits value) :
    parseSigned 64 (printSigned value) = some value := by
  have hrange : (decide (-2 ^ (64 - 1) ≤ value) && decide (value < 2 ^ (64 - 1))) = true := by
    simpa [Fits] using h
  unfold printSigned
  split
  · have habs : -(value.natAbs : Int) = value := by omega
    simp only [parseSigned, Decimal.parse_print, Option.bind_eq_bind, Option.bind_some,
      Option.pure_def, Option.map_some, habs, Option.filter, hrange, if_true]
  · have habs : (value.natAbs : Int) = value := by omega
    obtain ⟨first, digits, hprint, hfirst⟩ := print_eq_cons value.natAbs
    have hparse := Decimal.parse_print value.natAbs
    rw [hprint] at hparse
    rw [hprint]
    unfold parseSigned
    split
    · rename_i rest heq
      exact absurd (List.cons.inj heq).1 hfirst
    · simp only [hparse, Option.bind_eq_bind, Option.bind_some, Option.pure_def, Option.map_some,
        habs, Option.filter, hrange, if_true]

/-! ## One `INCR` -/

section Incr

variable {host : Host} {clock : Clock} {key : Bytes} {database : Database}

theorem dispatch_incr (host : Host) (clock : Clock) (key : Bytes) (database : Database) :
    dispatch host clock database [CommandName.incr.text, key] =
      (respondIncr (OnEntry.incrementKey (view clock database key)).1).map
        (·, (transact (Entry.expired clock) key OnEntry.incrementKey database).2) := by
  have hname : nameOf [CommandName.incr.text, key] = some .incr := nameOf_cons.mpr rfl
  rw [dispatch_eq_plan, plan, hname]
  rfl

theorem lookup_incr :
    (transact (Entry.expired clock) key OnEntry.incrementKey database).2.entries.lookup key =
      (OnEntry.incrementKey (view clock database key)).2.outcome (view clock database key) := by
  rw [lookup_transact, if_pos rfl]
  rfl

/-- The live value is a text that is read as this integer. -/
def Counts (clock : Clock) (database : Database) (key : Bytes) (value : Int)
    (expiresAt : Option Int) : Prop :=
  ∃ text, view clock database key = some ⟨.string text, expiresAt⟩ ∧
    parseSigned 64 text = some value

/-- **`INCR` is exact or refuses.** -/
structure IncrExact (host : Host) (clock : Clock) (key : Bytes) (database : Database) : Prop where
  created : view clock database key = none →
    ∃ after, dispatch host clock database [CommandName.incr.text, key] =
        some (.integer 1, after) ∧
      after.entries.lookup key = some ⟨.string (printSigned 1), none⟩
  counted : ∀ value expiresAt, Counts clock database key value expiresAt → value < 2 ^ 63 - 1 →
    ∃ after, dispatch host clock database [CommandName.incr.text, key] =
        some (.integer (value + 1), after) ∧
      after.entries.lookup key = some ⟨.string (printSigned (value + 1)), expiresAt⟩
  refused : ∀ entry, view clock database key = some entry →
    (¬ ∃ value expiresAt, Counts clock database key value expiresAt ∧ value < 2 ^ 63 - 1) →
    ∃ message after, dispatch host clock database [CommandName.incr.text, key] =
        some (.simpleError message, after) ∧
      after.entries.lookup key = database.entries.lookup key ∧
      revision key after = revision key database

/-- The reply to an `INCR` of a counter, at the limit as well. -/
theorem incr_of_counts {value : Int} {expiresAt : Option Int}
    (h : Counts clock database key value expiresAt) :
    ∃ after, dispatch host clock database [CommandName.incr.text, key] =
        some (.integer (wrap64 (value + 1)), after) ∧
      after.entries.lookup key =
        some ⟨.string (printSigned (wrap64 (value + 1))), expiresAt⟩ := by
  obtain ⟨text, hview, hparse⟩ := h
  refine ⟨(transact (Entry.expired clock) key OnEntry.incrementKey database).2, ?_, ?_⟩
  · rw [dispatch_incr, hview]
    simp only [OnEntry.incrementKey, hparse, respondIncr, Option.map_some]
  · rw [lookup_incr, hview]
    simp [OnEntry.incrementKey, hparse, Update.outcome]

theorem wrap64_succ (hfits : Fits value) (hlimit : value < 2 ^ 63 - 1) :
    wrap64 (value + 1) = value + 1 := by
  refine wrap64_eq_self_iff.mpr ?_
  unfold Fits at hfits ⊢
  omega

/-- What is not a counter is refused. -/
theorem incr_refused {entry : Entry} (hview : view clock database key = some entry)
    (hnot : ¬ ∃ value expiresAt, Counts clock database key value expiresAt) :
    ∃ message, dispatch host clock database [CommandName.incr.text, key] =
      some (.simpleError message, database) := by
  have hrefuses : ∃ error message, OnEntry.incrementKey (some entry) = (.error error, .keep) ∧
      respondIncr (.error error) = some (.simpleError message) := by
    obtain ⟨value, expiresAt⟩ := entry
    cases value with
    | string text =>
      cases hparse : parseSigned 64 text with
      | none => exact ⟨.valueNotInteger, _, by simp [OnEntry.incrementKey, hparse], rfl⟩
      | some number => exact absurd ⟨number, expiresAt, text, hview, hparse⟩ hnot
    | list elements => exact ⟨.wrongType, _, rfl, rfl⟩
    | stream entries => exact ⟨.wrongType, _, rfl, rfl⟩
  obtain ⟨error, message, hdecision, hrespond⟩ := hrefuses
  have hkeep : (OnEntry.incrementKey (some entry)).2 = .keep := by rw [hdecision]
  refine ⟨message, ?_⟩
  rw [dispatch_incr, hview, hdecision, hrespond, transact_keep hview hkeep]
  rfl

/-- **`INCR` is exact or refuses, unless the value is the largest integer.** -/
theorem incrExact_iff :
    IncrExact host clock key database ↔
      ¬ ∃ expiresAt, Counts clock database key (2 ^ 63 - 1) expiresAt := by
  constructor
  · rintro h ⟨expiresAt, hcounts⟩
    obtain ⟨text, hview, hparse⟩ := hcounts
    -- The value is no smaller than the limit, and yet it is incremented.
    have hlimit : ¬ ∃ value expiresAt, Counts clock database key value expiresAt ∧
        value < 2 ^ 63 - 1 := by
      rintro ⟨value, expiresAt', ⟨text', hview', hparse'⟩, hlt⟩
      rw [hview] at hview'
      cases hview'
      rw [hparse] at hparse'
      cases hparse'
      exact absurd hlt (lt_irrefl _)
    obtain ⟨message, after, hrefused, -, -⟩ := h.refused _ hview hlimit
    obtain ⟨after', hcounted, -⟩ := @incr_of_counts host clock key database _ _
      ⟨text, hview, hparse⟩
    rw [hcounted] at hrefused
    cases hrefused
  · intro hbelow
    refine ⟨fun hview => ?_, fun value expiresAt hcounts hlimit => ?_, fun entry hview hnot => ?_⟩
    · refine ⟨(transact (Entry.expired clock) key OnEntry.incrementKey database).2, ?_, ?_⟩
      · rw [dispatch_incr, hview]
        rfl
      · rw [lookup_incr, hview]
        rfl
    · obtain ⟨text, -, hparse⟩ := id hcounts
      have hexact := wrap64_succ (fits_of_parseSigned hparse) hlimit
      obtain ⟨after, hreply, hlookup⟩ := @incr_of_counts host clock key database _ _ hcounts
      rw [hexact] at hreply hlookup
      exact ⟨after, hreply, hlookup⟩
    · have hnone : ¬ ∃ value expiresAt, Counts clock database key value expiresAt := by
        rintro ⟨value, expiresAt, hcounts⟩
        obtain ⟨text, -, hparse⟩ := id hcounts
        have hfits := fits_of_parseSigned hparse
        have hlimit : value = 2 ^ 63 - 1 := by
          by_contra hne
          refine hnot ⟨value, expiresAt, hcounts, ?_⟩
          unfold Fits at hfits
          omega
        exact hbelow ⟨expiresAt, hlimit ▸ hcounts⟩
      obtain ⟨message, hrefused⟩ := @incr_refused host clock key database _ hview hnone
      exact ⟨message, database, hrefused, rfl, rfl⟩

end Incr

/-! ## Many of them -/

/-- `INCR` again and again, at the given times. -/
def incrAll (host : Host) (key : Bytes) : List Clock → Database → Option (List Response × Database)
  | [], database => some ([], database)
  | clock :: clocks, database =>
    (dispatch host clock database [CommandName.incr.text, key]).bind fun (response, database) =>
      (incrAll host key clocks database).map fun (responses, database) =>
        (response :: responses, database)

/-- The replies count up as long as the counter lives and is below the limit. -/
theorem incrAll_counts {host : Host} {key text : Bytes} {clocks : List Clock}
    {expiresAt : Option Int} {database : Database}
    (hentry : database.entries.lookup key = some ⟨.string text, expiresAt⟩)
    (hparse : parseSigned 64 text = some value)
    (hlive : ∀ clock ∈ clocks, Entry.expired clock ⟨.string text, expiresAt⟩ = false)
    (hlimit : value + clocks.length ≤ 2 ^ 63 - 1) :
    ∃ after, incrAll host key clocks database =
        some ((List.range clocks.length).map fun i => .integer (value + 1 + i), after) ∧
      (clocks ≠ [] → after.entries.lookup key =
        some ⟨.string (printSigned (value + clocks.length)), expiresAt⟩) := by
  induction clocks generalizing database text value with
  | nil => exact ⟨database, rfl, fun h => absurd rfl h⟩
  | cons clock clocks ih =>
    have hlive' := hlive clock (by simp)
    have hview : view clock database key = some ⟨.string text, expiresAt⟩ := by
      simp [view, live, hentry, Option.filter, hlive']
    have hfits := fits_of_parseSigned hparse
    simp only [List.length_cons, Nat.cast_add, Nat.cast_one] at hlimit
    have hexact := wrap64_succ hfits (by omega)
    have hfits' : Fits (value + 1) := by
      rw [← hexact]
      exact fits_wrap64 _
    obtain ⟨middle, hreply, hlookup⟩ := @incr_of_counts host clock key database _ _
      ⟨text, hview, hparse⟩
    rw [hexact] at hreply hlookup
    obtain ⟨after, hall, hlast⟩ := ih hlookup (parseSigned_printSigned hfits')
      (fun other hother => hlive other (by simp [hother])) (by omega)
    refine ⟨after, ?_, fun _ => ?_⟩
    · rw [incrAll, hreply]
      simp only [Option.bind_some, hall, Option.map_some, List.length_cons,
        List.range_succ_eq_map, List.map_cons, List.map_map]
      refine congrArg some (Prod.ext ?_ rfl)
      refine congrArg₂ List.cons (by simp) (List.map_congr_left fun i _ => ?_)
      simp only [Function.comp_apply, Nat.cast_succ]
      congr 1
      omega
    · cases clocks with
      | nil =>
        -- Nothing follows, so the counter is as this `INCR` left it.
        cases hall
        exact hlookup
      | cons next rest =>
        rw [hlast (List.cons_ne_nil _ _)]
        simp only [List.length_cons, Nat.cast_add, Nat.cast_one]
        congr 4
        omega

/-- **`INCR` is exact or refuses just when the value is not the largest integer.**  A
counter below the limit goes on counting. -/
theorem incr_exact_iff (host : Host) (clock : Clock) (key : Bytes) (database : Database) :
    (IncrExact host clock key database ↔
      ¬ ∃ expiresAt, Counts clock database key (2 ^ 63 - 1) expiresAt) ∧
    ∀ text value expiresAt clocks,
      database.entries.lookup key = some ⟨.string text, expiresAt⟩ →
      parseSigned 64 text = some value →
      (∀ clock ∈ clocks, Entry.expired clock ⟨.string text, expiresAt⟩ = false) →
      value + clocks.length ≤ 2 ^ 63 - 1 →
      ∃ after, incrAll host key clocks database =
          some ((List.range clocks.length).map fun i => .integer (value + 1 + i), after) ∧
        (clocks ≠ [] → after.entries.lookup key =
          some ⟨.string (printSigned (value + clocks.length)), expiresAt⟩) :=
  ⟨incrExact_iff, fun _ _ _ _ hentry hparse hlive hlimit =>
    incrAll_counts hentry hparse hlive hlimit⟩

/-- The largest integer is followed by the smallest. -/
theorem incr_at_limit :
    let database : Database := ({} : Database).put (ascii "k")
      ⟨.string (ascii "9223372036854775807"), none⟩
    Counts ⟨0, 0⟩ database (ascii "k") (2 ^ 63 - 1) none ∧
    ∃ after, dispatch Host.plain ⟨0, 0⟩ database [ascii "INCR", ascii "k"] =
        some (.integer (-2 ^ 63), after) ∧
      after.entries.lookup (ascii "k") = some ⟨.string (ascii "-9223372036854775808"), none⟩ := by
  intro database
  have hcounts : Counts ⟨0, 0⟩ database (ascii "k") (2 ^ 63 - 1) none :=
    ⟨ascii "9223372036854775807", by decide +kernel, by decide +kernel⟩
  have hwraps : wrap64 (2 ^ 63 - 1 + 1) = -2 ^ 63 := by decide +kernel
  obtain ⟨after, hreply, hlookup⟩ := @incr_of_counts Host.plain _ _ _ _ _ hcounts
  rw [hwraps] at hreply hlookup
  have htext : printSigned (-2 ^ 63) = ascii "-9223372036854775808" := by decide +kernel
  rw [htext] at hlookup
  exact ⟨hcounts, after, hreply, hlookup⟩

end RedisServer
