import Mathlib.Data.List.AList

/-!
# A keyed store with revisions and lazily removed values

A finite map whose keys carry revision numbers: every change of a key stamps it
with a fresh number.  Some values may be *dead*, which is a matter of the moment
at which one looks; a dead value stays in the map until an operation touches its
key, removes it and stamps the key.

Almost every operation of such a store has one shape, `transact`: find the live
value of one key (removing a dead one), compute a result and an update from it,
and carry the update out.  The lemmas say what `transact` does to the live view
of the store and to the revisions, so that an operation only has to be brought
into that shape once.

The *eager* store is the specification of the lazy one: a plain partial function
from keys to values, in which a dead value is gone at once.
-/

/-- A finite map with a revision number for every key that was ever changed. -/
structure KeyedStore (Key Value : Type*) where
  entries : AList fun _ : Key => Value := ∅
  keyRevisions : AList fun _ : Key => ℕ := ∅
  nextRevision : ℕ := 1

namespace KeyedStore

variable {Key Value Result : Type*} [DecidableEq Key]

/-- Stamp a key with a fresh revision. -/
def markKeyModified (key : Key) (store : KeyedStore Key Value) : KeyedStore Key Value :=
  { store with
    keyRevisions := store.keyRevisions.insert key store.nextRevision
    nextRevision := store.nextRevision + 1 }

/-- Store a value and stamp its key. -/
def put (key : Key) (value : Value) (store : KeyedStore Key Value) : KeyedStore Key Value :=
  markKeyModified key { store with entries := store.entries.insert key value }

/-- Remove a key and stamp it. -/
def remove (key : Key) (store : KeyedStore Key Value) : KeyedStore Key Value :=
  markKeyModified key { store with entries := store.entries.erase key }

/-- The revision of a key; zero for a key that was never changed. -/
def revision (key : Key) (store : KeyedStore Key Value) : ℕ :=
  (store.keyRevisions.lookup key).getD 0

/-! ## Looking a key up -/

section Lookup

variable (key other : Key) (value : Value) (store : KeyedStore Key Value)

@[simp] theorem entries_markKeyModified :
    (store.markKeyModified key).entries = store.entries := rfl

theorem entries_put : (store.put key value).entries = store.entries.insert key value := rfl

theorem entries_remove : (store.remove key).entries = store.entries.erase key := rfl

theorem lookup_put :
    (store.put key value).entries.lookup other =
      if other = key then some value else store.entries.lookup other := by
  rw [entries_put]
  split
  · subst other
    simp
  · exact AList.lookup_insert_ne ‹other ≠ key›

theorem lookup_remove :
    (store.remove key).entries.lookup other =
      if other = key then none else store.entries.lookup other := by
  rw [entries_remove]
  split
  · subst other
    simp
  · exact AList.lookup_erase_ne ‹other ≠ key›

theorem lookup_keyRevisions_markKeyModified :
    (store.markKeyModified key).keyRevisions.lookup other =
      if other = key then some store.nextRevision else store.keyRevisions.lookup other := by
  unfold markKeyModified
  split
  · subst other
    simp
  · simp [AList.lookup_insert_ne ‹other ≠ key›]

end Lookup

/-! ## The live value of a key -/

variable (dead : Value → Bool)

/-- Find the live value of a key; a dead one is removed on the way. -/
def findActive (key : Key) (store : KeyedStore Key Value) :
    Option Value × KeyedStore Key Value :=
  match store.entries.lookup key with
  | none => (none, store)
  | some value => if dead value then (none, store.remove key) else (some value, store)

/-- What the store holds under a key, dead values left out. -/
def live (key : Key) (store : KeyedStore Key Value) : Option Value :=
  (store.entries.lookup key).filter fun value => !dead value

/-- The store after its key was looked at. -/
def purge (key : Key) (store : KeyedStore Key Value) : KeyedStore Key Value :=
  (findActive dead key store).2

/-- The key holds a dead value. -/
def Stale (key : Key) (store : KeyedStore Key Value) : Prop :=
  ∃ value, store.entries.lookup key = some value ∧ dead value = true

variable {dead} {key other : Key} {store before after : KeyedStore Key Value}
  {contents : Key → Option Value}

theorem findActive_eq : findActive dead key store = (live dead key store, purge dead key store) := by
  unfold purge live findActive
  cases store.entries.lookup key with
  | none => rfl
  | some value => cases hdead : dead value <;> simp [hdead, Option.filter]

theorem purge_of_stale (h : Stale dead key store) : purge dead key store = store.remove key := by
  obtain ⟨value, hlookup, hdead⟩ := h
  simp [purge, findActive, hlookup, hdead]

theorem purge_of_not_stale (h : ¬ Stale dead key store) : purge dead key store = store := by
  unfold purge findActive
  cases hlookup : store.entries.lookup key with
  | none => rfl
  | some value =>
    have hdead : dead value = false := by
      by_contra hne
      exact h ⟨value, hlookup, by simpa using hne⟩
    simp [hdead]

theorem purge_cases (dead : Value → Bool) (key : Key) (store : KeyedStore Key Value) :
    (Stale dead key store ∧ purge dead key store = store.remove key) ∨
      (¬ Stale dead key store ∧ purge dead key store = store) := by
  by_cases h : Stale dead key store
  · exact Or.inl ⟨h, purge_of_stale h⟩
  · exact Or.inr ⟨h, purge_of_not_stale h⟩

theorem live_eq_none_of_stale (h : Stale dead key store) : live dead key store = none := by
  obtain ⟨value, hlookup, hdead⟩ := h
  simp [live, hlookup, hdead, Option.filter]

theorem not_stale_of_live {value : Value} (h : live dead key store = some value) :
    ¬ Stale dead key store := by
  intro hstale
  rw [live_eq_none_of_stale hstale] at h
  cases h

theorem live_eq_lookup_of_not_stale (h : ¬ Stale dead key store) :
    live dead key store = store.entries.lookup key := by
  unfold live
  cases hlookup : store.entries.lookup key with
  | none => rfl
  | some value =>
    have hdead : dead value = false := by
      by_contra hne
      exact h ⟨value, hlookup, by simpa using hne⟩
    simp [Option.filter, hdead]

theorem lookup_purge (dead : Value → Bool) (key other : Key) (store : KeyedStore Key Value) :
    (purge dead key store).entries.lookup other =
      if other = key then live dead key store else store.entries.lookup other := by
  rcases purge_cases dead key store with ⟨hstale, hpurge⟩ | ⟨hstale, hpurge⟩
  · rw [hpurge, lookup_remove, live_eq_none_of_stale hstale]
  · rw [hpurge, live_eq_lookup_of_not_stale hstale]
    split
    · rw [‹other = key›]
    · rfl

theorem lookup_purge_self (dead : Value → Bool) (key : Key) (store : KeyedStore Key Value) :
    (purge dead key store).entries.lookup key = live dead key store := by
  rw [lookup_purge, if_pos rfl]

/-- Looking at a key does not change the live view of any key. -/
@[simp] theorem live_purge (dead : Value → Bool) (key other : Key)
    (store : KeyedStore Key Value) :
    live dead other (purge dead key store) = live dead other store := by
  unfold live
  rw [lookup_purge]
  split
  · subst other
    simp [live, Option.filter_filter]
  · rfl

/-! ## Operations on one key -/

/-- What an operation does to the key it looked up. -/
inductive Update (Value : Type*) where
  | keep
  | put (value : Value)
  | remove
deriving DecidableEq, Repr

/-- Carry an update out. -/
def Update.apply (key : Key) : Update Value → KeyedStore Key Value → KeyedStore Key Value
  | .keep, store => store
  | .put value, store => store.put key value
  | .remove, store => store.remove key

/-- The value a key holds after an update. -/
def Update.outcome (current : Option Value) : Update Value → Option Value
  | .keep => current
  | .put value => some value
  | .remove => none

/-- The shape of an operation on one key. -/
def transact (dead : Value → Bool) (key : Key) (operation : Option Value → Result × Update Value)
    (store : KeyedStore Key Value) : Result × KeyedStore Key Value :=
  ((operation (live dead key store)).1,
    (operation (live dead key store)).2.apply key (purge dead key store))

theorem lookup_apply (update : Update Value) (key other : Key) (store : KeyedStore Key Value) :
    (update.apply key store).entries.lookup other =
      if other = key then update.outcome (store.entries.lookup key)
      else store.entries.lookup other := by
  cases update with
  | keep =>
    simp only [Update.apply, Update.outcome]
    split
    · rw [‹other = key›]
    · rfl
  | put value => exact lookup_put key other value store
  | remove => exact lookup_remove key other store

theorem lookup_transact (operation : Option Value → Result × Update Value)
    (dead : Value → Bool) (key other : Key) (store : KeyedStore Key Value) :
    (transact dead key operation store).2.entries.lookup other =
      if other = key then
        (operation (live dead key store)).2.outcome (live dead key store)
      else store.entries.lookup other := by
  unfold transact
  rw [lookup_apply, lookup_purge_self, lookup_purge]
  split <;> simp [*]

/-- An operation that keeps what it finds does no more than look at the key. -/
theorem transact_eq_purge {operation : Option Value → Result × Update Value}
    (hkeep : (operation (live dead key store)).2 = .keep) :
    (transact dead key operation store).2 = purge dead key store := by
  rw [transact, hkeep]
  rfl

/-- An operation that keeps a live value leaves the store as it is. -/
theorem transact_keep {operation : Option Value → Result × Update Value} {value : Value}
    (hlive : live dead key store = some value) (hkeep : (operation (some value)).2 = .keep) :
    (transact dead key operation store).2 = store := by
  rw [transact_eq_purge (by rw [hlive, hkeep]), purge_of_not_stale (not_stale_of_live hlive)]

/-- The step replaces the live value of one key by what the operation decides from it. -/
def Decides (dead : Value → Bool) (key : Key) (operation : Option Value → Result × Update Value)
    (before after : KeyedStore Key Value) : Prop :=
  ∀ other, after.entries.lookup other =
    if other = key then (operation (live dead key before)).2.outcome (live dead key before)
    else before.entries.lookup other

theorem Decides.live_ne {operation : Option Value → Result × Update Value}
    (h : Decides dead key operation before after)
    (hne : other ≠ key) : live dead other after = live dead other before := by
  unfold live
  rw [h other, if_neg hne]

/-- **Steps on different keys commute.** -/
theorem Decides.comm {Result' : Type*} {first second : Key} (hne : first ≠ second)
    {operation : Option Value → Result × Update Value}
    {operation' : Option Value → Result' × Update Value}
    {middle middle' after' : KeyedStore Key Value} (h₁ : Decides dead first operation store middle)
    (h₂ : Decides dead second operation' middle after)
    (h₁' : Decides dead second operation' store middle')
    (h₂' : Decides dead first operation middle' after') :
    after.entries.lookup = after'.entries.lookup := by
  funext other
  rw [h₂ other, h₂' other, h₁ other, h₁' other, h₁.live_ne hne.symm, h₁'.live_ne hne]
  by_cases hother : other = first
  · subst hother
    rw [if_neg hne, if_pos rfl, if_pos rfl]
  · rw [if_neg hother, if_neg hother]

/-! ## Revisions -/

/-- Every key present has a revision, revisions are below the next one, and no
two keys share one. -/
structure Versioned (store : KeyedStore Key Value) : Prop where
  recorded : ∀ key, (store.entries.lookup key).isSome → (store.keyRevisions.lookup key).isSome
  below : ∀ key revision, store.keyRevisions.lookup key = some revision →
    revision < store.nextRevision
  distinct : ∀ key other revision, store.keyRevisions.lookup key = some revision →
    store.keyRevisions.lookup other = some revision → key = other
  positive : 0 < store.nextRevision

theorem versioned_empty : Versioned ({} : KeyedStore Key Value) where
  recorded := by simp
  below := by simp
  distinct := by simp
  positive := Nat.one_pos

theorem Versioned.revision_lt (versioned : Versioned store) (key : Key) :
    revision key store < store.nextRevision := by
  unfold revision
  cases hlookup : store.keyRevisions.lookup key with
  | none => exact versioned.positive
  | some r => exact versioned.below key r hlookup

/-- Stamping a key keeps the revisions in order, whatever the new contents are,
as long as no other key appears. -/
theorem Versioned.stamp (versioned : Versioned store) (key : Key)
    (entries : AList fun _ : Key => Value)
    (hother : ∀ other, other ≠ key → entries.lookup other = store.entries.lookup other) :
    Versioned (markKeyModified key { store with entries := entries }) where
  recorded := by
    intro other hsome
    rw [lookup_keyRevisions_markKeyModified]
    split
    · rfl
    · rw [entries_markKeyModified, hother other ‹_›] at hsome
      exact versioned.recorded other hsome
  below := by
    intro other r hlookup
    rw [lookup_keyRevisions_markKeyModified] at hlookup
    show r < store.nextRevision + 1
    split at hlookup
    · obtain rfl : store.nextRevision = r := by simpa using hlookup
      exact Nat.lt_succ_self _
    · exact Nat.lt_succ_of_lt (versioned.below other r hlookup)
  distinct := by
    intro first second r hfirst hsecond
    rw [lookup_keyRevisions_markKeyModified] at hfirst hsecond
    split at hfirst <;> split at hsecond
    · simp [*]
    · obtain rfl : store.nextRevision = r := by simpa using hfirst
      exact absurd (versioned.below second _ hsecond) (Nat.lt_irrefl _)
    · obtain rfl : store.nextRevision = r := by simpa using hsecond
      exact absurd (versioned.below first _ hfirst) (Nat.lt_irrefl _)
    · exact versioned.distinct first second r hfirst hsecond
  positive := Nat.succ_pos _

theorem Versioned.put (versioned : Versioned store) (key : Key) (value : Value) :
    Versioned (store.put key value) :=
  versioned.stamp key _ fun _ hne => AList.lookup_insert_ne hne

theorem Versioned.remove (versioned : Versioned store) (key : Key) :
    Versioned (store.remove key) :=
  versioned.stamp key _ fun _ hne => AList.lookup_erase_ne hne

theorem Versioned.purge (versioned : Versioned store) (dead : Value → Bool) (key : Key) :
    Versioned (purge dead key store) := by
  rcases purge_cases dead key store with ⟨-, hpurge⟩ | ⟨-, hpurge⟩
  · rw [hpurge]
    exact versioned.remove key
  · rw [hpurge]
    exact versioned

theorem Versioned.apply (versioned : Versioned store) (key : Key) (update : Update Value) :
    Versioned (update.apply key store) := by
  cases update with
  | keep => exact versioned
  | put value => exact versioned.put key value
  | remove => exact versioned.remove key

theorem Versioned.transact (versioned : Versioned store) (dead : Value → Bool) (key : Key)
    (operation : Option Value → Result × Update Value) :
    Versioned (transact dead key operation store).2 :=
  (versioned.purge dead key).apply key _

/-! ### Which keys were stamped -/

/-- Revisions only grow, and a revision that changed is newer than every
revision the earlier store had given out. -/
structure Evolves (before after : KeyedStore Key Value) : Prop where
  next_le : before.nextRevision ≤ after.nextRevision
  fresh : ∀ key, revision key after = revision key before ∨
    before.nextRevision ≤ revision key after

theorem Evolves.refl (store : KeyedStore Key Value) : Evolves store store :=
  ⟨Nat.le_refl _, fun _ => Or.inl rfl⟩

theorem Evolves.trans {first second third : KeyedStore Key Value} (h₁ : Evolves first second)
    (h₂ : Evolves second third) : Evolves first third where
  next_le := Nat.le_trans h₁.next_le h₂.next_le
  fresh := by
    intro key
    rcases h₂.fresh key with heq | hle
    · rw [heq]
      exact h₁.fresh key
    · exact Or.inr (Nat.le_trans h₁.next_le hle)

theorem revision_markKeyModified (key other : Key) (store : KeyedStore Key Value) :
    revision other (store.markKeyModified key) =
      if other = key then store.nextRevision else revision other store := by
  unfold revision
  rw [lookup_keyRevisions_markKeyModified]
  split <;> rfl

theorem revision_put (key other : Key) (value : Value) (store : KeyedStore Key Value) :
    revision other (store.put key value) =
      if other = key then store.nextRevision else revision other store :=
  revision_markKeyModified key other _

theorem revision_remove (key other : Key) (store : KeyedStore Key Value) :
    revision other (store.remove key) =
      if other = key then store.nextRevision else revision other store :=
  revision_markKeyModified key other _

theorem evolves_stamp (key : Key) (entries : AList fun _ : Key => Value)
    (store : KeyedStore Key Value) :
    Evolves store (markKeyModified key { store with entries := entries }) where
  next_le := Nat.le_succ _
  fresh := by
    intro other
    rw [revision_markKeyModified]
    split
    · exact Or.inr (Nat.le_refl _)
    · exact Or.inl rfl

theorem evolves_put (key : Key) (value : Value) (store : KeyedStore Key Value) :
    Evolves store (store.put key value) :=
  evolves_stamp key _ store

theorem evolves_remove (key : Key) (store : KeyedStore Key Value) :
    Evolves store (store.remove key) :=
  evolves_stamp key _ store

theorem evolves_purge (dead : Value → Bool) (key : Key) (store : KeyedStore Key Value) :
    Evolves store (purge dead key store) := by
  rcases purge_cases dead key store with ⟨-, hpurge⟩ | ⟨-, hpurge⟩ <;> rw [hpurge]
  · exact evolves_remove key store
  · exact Evolves.refl store

theorem evolves_apply (update : Update Value) (key : Key) (store : KeyedStore Key Value) :
    Evolves store (update.apply key store) := by
  cases update with
  | keep => exact Evolves.refl store
  | put value => exact evolves_put key value store
  | remove => exact evolves_remove key store

/-- Along two successive changes of a store, a key ends with the revision it
started with only if neither change stamped it. -/
theorem revision_eq_iff_of_evolves {first second third : KeyedStore Key Value}
    (versioned : Versioned first) (h₁ : Evolves first second) (h₂ : Evolves second third)
    (key : Key) :
    revision key third = revision key first ↔
      revision key second = revision key first ∧ revision key third = revision key second := by
  constructor
  · intro heq
    have hlt := versioned.revision_lt key
    rcases h₂.fresh key with hsame | hnew
    · exact ⟨hsame ▸ heq, hsame⟩
    · have := h₁.next_le
      omega
  · rintro ⟨hfirst, hsecond⟩
    rw [hsecond, hfirst]

theorem revision_purge_ne (dead : Value → Bool) (hne : other ≠ key) (store : KeyedStore Key Value) :
    revision other (purge dead key store) = revision other store := by
  rcases purge_cases dead key store with ⟨-, hpurge⟩ | ⟨-, hpurge⟩ <;> rw [hpurge]
  rw [revision_remove, if_neg hne]

/-! ## Looking at many keys -/

/-- The second store is the first one after some keys were looked at. -/
inductive Purges (dead : Value → Bool) : KeyedStore Key Value → KeyedStore Key Value → Prop
  | refl (store : KeyedStore Key Value) : Purges dead store store
  | look {before after : KeyedStore Key Value} (key : Key) :
      Purges dead (purge dead key before) after → Purges dead before after

theorem Purges.trans {first second third : KeyedStore Key Value}
    (h₁ : Purges dead first second) (h₂ : Purges dead second third) :
    Purges dead first third := by
  induction h₁ with
  | refl store => exact h₂
  | look key _ ih => exact .look key (ih h₂)

theorem purges_purge (dead : Value → Bool) (key : Key) (store : KeyedStore Key Value) :
    Purges dead store (purge dead key store) :=
  .look key (.refl _)

/-- Look at some keys, one after the other. -/
def purgeAll (dead : Value → Bool) : List Key → KeyedStore Key Value → KeyedStore Key Value
  | [], store => store
  | key :: keys, store => purgeAll dead keys (purge dead key store)

theorem purges_purgeAll (dead : Value → Bool) (keys : List Key) (store : KeyedStore Key Value) :
    Purges dead store (purgeAll dead keys store) := by
  induction keys generalizing store with
  | nil => exact .refl store
  | cons key keys ih => exact .look key (ih _)

theorem Purges.live_eq (h : Purges dead before after)
    (key : Key) : live dead key after = live dead key before := by
  induction h with
  | refl store => rfl
  | look other _ ih => rw [ih, live_purge]

theorem Purges.versioned (h : Purges dead before after)
    (versioned : Versioned before) : Versioned after := by
  induction h with
  | refl store => exact versioned
  | look key _ ih => exact ih (versioned.purge dead key)

theorem Purges.evolves (h : Purges dead before after) :
    Evolves before after := by
  induction h with
  | refl store => exact Evolves.refl store
  | look key _ ih => exact (evolves_purge dead key _).trans ih

/-- Every key is either left alone or loses a dead value and is stamped. -/
theorem Purges.key_cases (h : Purges dead before after) (versioned : Versioned before) (key : Key) :
    (after.entries.lookup key = before.entries.lookup key ∧
        revision key after = revision key before) ∨
      (Stale dead key before ∧ after.entries.lookup key = none ∧
        revision key after ≠ revision key before) := by
  induction h with
  | refl store => exact Or.inl ⟨rfl, rfl⟩
  | @look before after looked hrest ih =>
    have ih := ih (versioned.purge dead looked)
    rcases purge_cases dead looked before with ⟨hstale, hpurge⟩ | ⟨-, hpurge⟩
    · rw [hpurge, lookup_remove, revision_remove] at ih
      by_cases hkey : key = looked
      · subst key
        have hlt := versioned.revision_lt looked
        rw [if_pos rfl, if_pos rfl] at ih
        rcases ih with ⟨hlookup, hrevision⟩ | ⟨⟨value, hvalue, -⟩, -, -⟩
        · exact Or.inr ⟨hstale, hlookup, by omega⟩
        · rw [lookup_remove, if_pos rfl] at hvalue
          cases hvalue
      · rw [if_neg hkey, if_neg hkey] at ih
        rcases ih with hsame | ⟨⟨value, hvalue, hdead⟩, hlookup, hrevision⟩
        · exact Or.inl hsame
        · rw [lookup_remove, if_neg hkey] at hvalue
          exact Or.inr ⟨⟨value, hvalue, hdead⟩, hlookup, hrevision⟩
    · rwa [hpurge] at ih

/-- What is not there does not come back by looking. -/
theorem Purges.lookup_eq_none (h : Purges dead before after)
    (hkey : before.entries.lookup key = none) : after.entries.lookup key = none := by
  induction h with
  | refl store => exact hkey
  | @look before after looked hrest ih =>
    refine ih ?_
    rw [lookup_purge]
    split
    · subst key
      simp [live, hkey]
    · exact hkey

/-- A key that was looked at once shows its live value from then on. -/
theorem Purges.lookup_eq_live (h : Purges dead before after)
    (hkey : before.entries.lookup key = live dead key before) :
    after.entries.lookup key = live dead key before := by
  induction h with
  | refl store => exact hkey
  | @look before after looked hrest ih =>
    rw [← live_purge dead looked key before]
    refine ih ?_
    rw [lookup_purge, live_purge]
    split
    · subst key
      rfl
    · exact hkey

/-- Looking at keys changes nothing when nothing is dead. -/
theorem Purges.eq_of_no_stale (h : Purges dead before after)
    (hfresh : ∀ key, ¬ Stale dead key before) : after = before := by
  induction h with
  | refl store => rfl
  | look key _ ih =>
    rw [purge_of_not_stale (hfresh key)] at ih
    exact ih hfresh

/-! ## The eager store -/

/-- The partial function without the values dead at a moment. -/
def vanish (dead : Value → Bool) (contents : Key → Option Value) : Key → Option Value :=
  fun key => (contents key).filter fun value => !dead value

omit [DecidableEq Key] in
/-- What is gone at a moment is gone later. -/
theorem vanish_vanish {sooner later : Value → Bool}
    (hmono : ∀ value, sooner value = true → later value = true)
    (contents : Key → Option Value) :
    vanish later (vanish sooner contents) = vanish later contents := by
  funext key
  unfold vanish
  cases contents key with
  | none => rfl
  | some value =>
    cases hsooner : sooner value with
    | true => simp [Option.filter, hsooner, hmono value hsooner]
    | false => simp [Option.filter, hsooner]

/-- The operation on one key of a store whose dead values are gone already. -/
def eagerly (key : Key) (operation : Option Value → Result × Update Value)
    (contents : Key → Option Value) : Result × (Key → Option Value) :=
  ((operation (contents key)).1,
    Function.update contents key ((operation (contents key)).2.outcome (contents key)))

/-- The lazy store shows, at a moment, what the eager one holds. -/
def Shows (dead : Value → Bool) (store : KeyedStore Key Value)
    (contents : Key → Option Value) : Prop :=
  ∀ key, live dead key store = contents key

/-- **Waiting keeps the two stores together**: what was dead stays dead. -/
theorem Shows.later {sooner later : Value → Bool} (hshows : Shows sooner store contents)
    (hmono : ∀ value, sooner value = true → later value = true) :
    Shows later store (vanish later contents) := by
  intro key
  have hcontents : contents = vanish sooner store.entries.lookup :=
    funext fun other => (hshows other).symm
  rw [hcontents, vanish_vanish hmono]
  rfl

theorem Shows.purges (hshows : Shows dead store contents) (hpurges : Purges dead store after) :
    Shows dead after contents := by
  intro key
  rw [hpurges.live_eq]
  exact hshows key

/-- A value that is written without a look at the old one. -/
theorem Shows.put (hshows : Shows dead store contents) (key : Key) (value : Value) :
    Shows dead (store.put key value)
      (vanish dead (Function.update contents key (some value))) := by
  intro other
  unfold live vanish
  rw [lookup_put]
  by_cases hother : other = key
  · subst other
    simp
  · have hfilter := hshows other
    unfold live at hfilter
    rw [if_neg hother, Function.update_of_ne hother, ← hfilter]
    simp [Option.filter_filter]

/-- **One operation keeps the two stores together** and gives the same result,
for what it stores is not dead yet. -/
theorem Shows.transact (hshows : Shows dead store contents)
    (key : Key) (operation : Option Value → Result × Update Value) :
    (transact dead key operation store).1 = (eagerly key operation contents).1 ∧
      Shows dead (KeyedStore.transact dead key operation store).2
        (vanish dead (eagerly key operation contents).2) := by
  have hlive := hshows key
  refine ⟨by simp [KeyedStore.transact, eagerly, hlive], ?_⟩
  intro other
  unfold live vanish
  rw [lookup_transact]
  by_cases hother : other = key
  · subst other
    simp [eagerly, hlive]
  · have hfilter : contents other = (contents other).filter fun value => !dead value := by
      rw [← hshows other]
      simp [live, Option.filter_filter]
    rw [if_neg hother]
    simp only [eagerly, Function.update_of_ne hother]
    rw [← hfilter]
    exact hshows other

end KeyedStore
