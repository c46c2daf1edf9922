import RedisServer.Database.Representation

/-!
# Expiry times

A duration is scaled from seconds to milliseconds and from there to nanoseconds and
added to the clock, each time in signed 64 bits.  The wraps at each stage come to one
wrap of the exact sum (`deadlineAfter_eq`), so that the deadline is the right one just
when the sum is in range.  Otherwise the deadline lies before the right one, and the
key is gone too early, at the latest when the clock shows its largest value.

The only check is that the duration is positive.
-/

namespace RedisServer

open Resp KeyedStore Database Commands

variable {count unixNow : Int} {clock : Clock} {time : Bytes}

/-- The number can be held in a signed 64-bit integer. -/
def Fits (n : Int) : Prop := -2 ^ 63 ≤ n ∧ n < 2 ^ 63

instance (n : Int) : Decidable (Fits n) := inferInstanceAs (Decidable (_ ∧ _))

theorem fits_wrap64 (n : Int) : Fits (wrap64 n) := by
  have hle := Int.le_bmod (x := n) (m := 2 ^ 64) (by norm_num)
  have hlt := Int.bmod_lt (x := n) (m := 2 ^ 64) (by norm_num)
  unfold Fits wrap64
  omega

theorem wrap64_eq_self_iff {n : Int} : wrap64 n = n ↔ Fits n := by
  constructor
  · intro h
    rw [← h]
    exact fits_wrap64 n
  · intro h
    unfold Fits at h
    exact Int.bmod_eq_of_le (by omega) (by omega)

/-! ## Deadlines -/

theorem deadlineAfter_eq (now milliseconds : Int) :
    deadlineAfter now milliseconds = wrap64 (now + milliseconds * 1000000) := by
  simp [deadlineAfter, wrap64]

/-- The key shows its value for the whole duration and nothing afterwards, at every
time that the clock can show. -/
def Honoured (now duration : Int) (key value : Bytes) (database : Database) : Prop :=
  ∀ clock : Clock, now ≤ clock.steady → clock.steady < 2 ^ 63 →
    (view clock database key).map Entry.value =
      if clock.steady < now + duration then some (.string value) else none

section Stored

variable {now duration deadline : Int} {key value : Bytes} {database : Database}
  (hentry : database.entries.lookup key = some ⟨.string value, some deadline⟩)

include hentry

theorem view_of_deadline (clock : Clock) :
    (view clock database key).map Entry.value =
      if clock.steady < deadline then some (.string value) else none := by
  simp only [view, live, hentry, Option.filter, Entry.expired]
  by_cases hlt : clock.steady < deadline
  · have hnot : ¬ deadline ≤ clock.steady := by omega
    simp [hlt, hnot]
  · have hle : deadline ≤ clock.steady := by omega
    simp [hlt, hle]

/-- Only the right deadline will do. -/
theorem honoured_iff (hnow : now < 2 ^ 63) (hdeadline : deadline < 2 ^ 63)
    (hduration : 0 < duration) :
    Honoured now duration key value database ↔ deadline = now + duration := by
  constructor
  · intro h
    by_contra hne
    rcases lt_or_gt_of_ne hne with hearly | hlate
    · -- When the deadline comes too early, the key is missed right then.
      have hshows := h ⟨max now deadline, 0⟩ (le_max_left _ _) (max_lt hnow hdeadline)
      rw [view_of_deadline hentry] at hshows
      have hbefore : max now deadline < now + duration := by omega
      have hafter : ¬ max now deadline < deadline := by omega
      simp [hbefore, hafter] at hshows
    · have hshows := h ⟨now + duration, 0⟩ (by simp; omega) (by simp; omega)
      rw [view_of_deadline hentry] at hshows
      simp [hlate] at hshows
  · rintro rfl clock _ _
    exact view_of_deadline hentry clock

/-- **A deadline is right just when the exact sum is in range.** -/
theorem honoured_deadlineAfter_iff {milliseconds : Int} (hnow : Fits now)
    (hdeadline : deadline = deadlineAfter now milliseconds) (hpos : 0 < milliseconds) :
    Honoured now (milliseconds * 1000000) key value database ↔
      now + milliseconds * 1000000 < 2 ^ 63 := by
  have hfits : Fits deadline := by
    rw [hdeadline]
    exact fits_wrap64 _
  rw [honoured_iff hentry hnow.2 hfits.2 (by omega), hdeadline, deadlineAfter_eq,
    wrap64_eq_self_iff]
  unfold Fits at hnow ⊢
  omega

end Stored

/-! ## `SET` -/

/-- The units of an expiry option. -/
inductive ExpiryUnit where
  | px
  | ex
deriving DecidableEq, Repr

namespace ExpiryUnit

def text : ExpiryUnit → Bytes
  | px => ascii "PX"
  | ex => ascii "EX"

def milliseconds : ExpiryUnit → Int
  | px => 1
  | ex => 1000

end ExpiryUnit

theorem set_expiry (htime : parseExpiry time = some count) (name key value : Bytes)
    (unit : ExpiryUnit) (database : Database) :
    Commands.set clock database [name, key, value, unit.text, time] =
      (ok, database.put key ⟨.string value,
        some (deadlineAfter clock.steady (count * unit.milliseconds))⟩) := by
  cases unit with
  | px => simp [Commands.set, htime, ExpiryUnit.text, ExpiryUnit.milliseconds, Database.set]
  | ex =>
    have hunit : ascii "EX" ≠ ascii "PX" := by decide
    simp [Commands.set, htime, ExpiryUnit.text, ExpiryUnit.milliseconds, Database.set, hunit,
      deadlineAfter, wrap64]

theorem pos_of_parseExpiry (h : parseExpiry time = some count) : 0 < count := by
  obtain ⟨-, hpos⟩ := Option.filter_eq_some_iff.mp h
  simpa using hpos

/-- A `SET` with this duration is rejected and changes nothing, or is honoured,
whatever the key, the value and the database. -/
def SetHonoured (clock : Clock) (unit : ExpiryUnit) (time : Bytes) (count : Int) : Prop :=
  ∀ (name key value : Bytes) (database : Database),
    (responseIsError (Commands.set clock database [name, key, value, unit.text, time]).1 = true ∧
      (Commands.set clock database [name, key, value, unit.text, time]).2 = database) ∨
    Honoured clock.steady (count * unit.milliseconds * 1000000) key value
      (Commands.set clock database [name, key, value, unit.text, time]).2

theorem setHonoured_iff (hclock : Fits clock.steady) (unit : ExpiryUnit)
    (htime : parseExpiry time = some count) :
    SetHonoured clock unit time count ↔
      clock.steady + count * unit.milliseconds * 1000000 < 2 ^ 63 := by
  have hcount := pos_of_parseExpiry htime
  have hpos : 0 < count * unit.milliseconds := by
    cases unit <;> simp only [ExpiryUnit.milliseconds] <;> omega
  have hentry : ∀ (key value : Bytes) (database : Database),
      (database.put key ⟨.string value,
        some (deadlineAfter clock.steady (count * unit.milliseconds))⟩).entries.lookup key =
        some ⟨.string value, some (deadlineAfter clock.steady (count * unit.milliseconds))⟩ := by
    intro key value database
    rw [entries_put, AList.lookup_insert]
  constructor
  · intro h
    rcases h [] [] [] {} with ⟨herror, -⟩ | hhonoured
    · rw [set_expiry htime] at herror
      cases herror
    · rw [set_expiry htime] at hhonoured
      exact (honoured_deadlineAfter_iff (hentry _ _ _) hclock rfl hpos).mp hhonoured
  · intro hsum name key value database
    rw [set_expiry htime]
    exact .inr ((honoured_deadlineAfter_iff (hentry _ _ _) hclock rfl hpos).mpr hsum)

/-! ## Snapshots -/

theorem lookup_loadEntries {key : Bytes} (entries : List StringEntry) (clocks : Stream' Clock)
    (database : Database) (hother : ∀ entry ∈ entries, entry.key ≠ key) :
    (loadEntries unixNow entries clocks database).entries.lookup key =
      database.entries.lookup key := by
  induction entries generalizing clocks database with
  | nil => rfl
  | cons entry rest ih =>
    obtain ⟨hne, hrest⟩ := List.forall_mem_cons.mp hother
    unfold loadEntries
    split
    · exact ih _ _ hrest
    · rw [ih _ _ hrest, Database.set, entries_put, AList.lookup_insert_ne hne.symm]

/-- An entry of an RDB file with this deadline is honoured from the moment at which it
is put into the database, as long as no later entry of the file has its key. -/
def LoadHonoured (clock : Clock) (unixNow : Int) (deadline : UInt64) : Prop :=
  ∀ (key value : Bytes) (rest : List StringEntry) (clocks : Stream' Clock) (database : Database),
    (∀ entry ∈ rest, entry.key ≠ key) →
      Honoured clock.steady ((deadline.toNat - unixNow) * 1000000) key value
        (loadEntries unixNow (⟨key, value, some deadline⟩ :: rest) (Stream'.cons clock clocks)
          database)

/-- What the loop puts into the database for such an entry. -/
theorem lookup_loadEntries_cons (clock : Clock) {deadline : UInt64} (hnow : 0 ≤ unixNow)
    (hfuture : unixNow < deadline.toNat) (key value : Bytes) (rest : List StringEntry)
    (clocks : Stream' Clock) (database : Database) (hother : ∀ entry ∈ rest, entry.key ≠ key) :
    (loadEntries unixNow (⟨key, value, some deadline⟩ :: rest) (Stream'.cons clock clocks)
        database).entries.lookup key =
      some ⟨.string value,
        some (deadlineAfter clock.steady (min (deadline.toNat - unixNow) (2 ^ 63 - 1)))⟩ := by
  have hremaining : StringEntry.remaining unixNow ⟨key, value, some deadline⟩ =
      some (some (min (deadline.toNat - unixNow) (2 ^ 63 - 1))) := by
    have hcurrent : ¬ (unixNow < 0 ∨ deadline.toNat ≤ unixNow.toNat) := by omega
    simp only [StringEntry.remaining, if_neg hcurrent, Option.some.injEq]
    omega
  unfold loadEntries
  rw [hremaining]
  simp only
  rw [lookup_loadEntries rest _ _ hother, Database.set, entries_put, AList.lookup_insert]
  rfl

theorem loadHonoured_iff (hclock : Fits clock.steady) {deadline : UInt64}
    (hfuture : unixNow < deadline.toNat) :
    LoadHonoured clock unixNow deadline ↔
      0 ≤ unixNow ∧ clock.steady + (deadline.toNat - unixNow) * 1000000 < 2 ^ 63 := by
  have hlow := hclock.1
  constructor
  · intro h
    have hloaded := h [] [] [] (Stream'.const clock) {} (by simp)
    by_cases hnow : 0 ≤ unixNow
    · refine ⟨hnow, ?_⟩
      have hentry := lookup_loadEntries_cons clock hnow hfuture [] [] [] (Stream'.const clock) {}
        (by simp)
      -- The deadline in the database is in range, so the right one is as well.
      have hright := (honoured_iff hentry hclock.2 (fits_wrap64 _).2 (by omega)).mp hloaded
      rw [← hright]
      exact (fits_wrap64 _).2
    · -- The entry is skipped, so the key is missing from the start.
      have hskipped : StringEntry.remaining unixNow ⟨[], [], some deadline⟩ = none := by
        simp [StringEntry.remaining, show unixNow < 0 by omega]
      have hshows := hloaded clock le_rfl hclock.2
      simp only [loadEntries, hskipped] at hshows
      rw [if_pos (by omega)] at hshows
      cases hshows
  · rintro ⟨hnow, hsum⟩ key value rest clocks database hother
    have hentry := lookup_loadEntries_cons clock hnow hfuture key value rest clocks database
      hother
    have hmin : min ((deadline.toNat : Int) - unixNow) (2 ^ 63 - 1) =
        deadline.toNat - unixNow := by omega
    rw [hmin] at hentry
    exact (honoured_deadlineAfter_iff hentry hclock rfl (by omega)).mpr hsum

/-- **Expiry is honoured just when the deadline is in range.**  For a `SET` with an
accepted duration and for an entry of an RDB file with a deadline in the future, the
key is visible for exactly the time it should be if and only if the exact deadline can
be held in 64-bit nanoseconds (and the system clock does not show a time before the
epoch, where entries of a file are skipped); then nothing wraps around on the way as
long as the duration can be held as well. -/
theorem expiry_honoured_iff {clock : Clock} (hclock : Fits clock.steady) :
    (∀ (unit : ExpiryUnit) (time : Bytes) (count : Int), parseExpiry time = some count →
      (SetHonoured clock unit time count ↔
        clock.steady + count * unit.milliseconds * 1000000 < 2 ^ 63) ∧
      (SetHonoured clock unit time count ∧ Fits (count * unit.milliseconds) ∧
          Fits (count * unit.milliseconds * 1000000) ∧
          Fits (clock.steady + count * unit.milliseconds * 1000000) ↔
        count * unit.milliseconds * 1000000 < 2 ^ 63 ∧
          clock.steady + count * unit.milliseconds * 1000000 < 2 ^ 63)) ∧
    ∀ (unixNow : Int) (deadline : UInt64), unixNow < deadline.toNat →
      (LoadHonoured clock unixNow deadline ↔
        0 ≤ unixNow ∧ clock.steady + (deadline.toNat - unixNow) * 1000000 < 2 ^ 63) ∧
      (LoadHonoured clock unixNow deadline ∧ Fits ((deadline.toNat - unixNow) * 1000000) ∧
          Fits (clock.steady + (deadline.toNat - unixNow) * 1000000) ↔
        0 ≤ unixNow ∧ (deadline.toNat - unixNow) * 1000000 < 2 ^ 63 ∧
          clock.steady + (deadline.toNat - unixNow) * 1000000 < 2 ^ 63) := by
  have hlow := hclock.1
  refine ⟨fun unit time count htime => ?_, fun unixNow deadline hfuture => ?_⟩
  · have hcount := pos_of_parseExpiry htime
    have hpos : 0 < count * unit.milliseconds := by
      cases unit <;> simp only [ExpiryUnit.milliseconds] <;> omega
    refine ⟨setHonoured_iff hclock unit htime, ?_⟩
    rw [setHonoured_iff hclock unit htime]
    unfold Fits
    constructor <;> intro h
    · exact ⟨h.2.2.1.2, h.1⟩
    · exact ⟨h.2, by omega, by omega, by omega⟩
  · refine ⟨loadHonoured_iff hclock hfuture, ?_⟩
    rw [loadHonoured_iff hclock hfuture]
    unfold Fits
    constructor <;> intro h
    · exact ⟨h.1.1, h.2.1.2, h.1.2⟩
    · exact ⟨⟨h.1, h.2.2⟩, by omega, by omega⟩

/-- A tenth of a second by `SET`, and four milliseconds by a file. -/
theorem expiry_honoured_iff_sample :
    SetHonoured ⟨0, 5⟩ .px (ascii "100") 100 ∧ LoadHonoured ⟨0, 5⟩ 5 9 := by
  have hclock : Fits (Clock.steady ⟨0, 5⟩) := by decide
  obtain ⟨hset, hload⟩ := expiry_honoured_iff hclock
  exact ⟨(hset .px (ascii "100") 100 (by decide +kernel)).1.mpr (by decide),
    (hload 5 9 (by decide)).1.mpr (by decide)⟩

/-- A `SET` for 292 years is accepted, and the key is gone at once. -/
theorem expiry_lost :
    parseExpiry (ascii "9223372036855") = some 9223372036855 ∧
      (let outcome := Commands.set ⟨0, 0⟩ {}
        [ascii "SET", ascii "k", ascii "v", ascii "PX", ascii "9223372036855"]
      responseIsError outcome.1 = false ∧ view ⟨0, 0⟩ outcome.2 (ascii "k") = none ∧
        (0 : Int) < 0 + 9223372036855 * 1000000) := by
  decide +kernel

end RedisServer
