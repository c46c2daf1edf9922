import Mathlib.Data.Finset.Card
import Mathlib.Data.List.AList

/-!
# A relation that is kept twice

A map from keys to sets, where an empty set is not stored and a set is a list
without repetitions.  A relation between two types is kept as two such maps, one
for each direction; `Mirror` says that the two hold the same pairs.
-/

/-- A map from keys to sets of items. -/
abbrev Index (Key Item : Type) := AList fun _ : Key => List Item

namespace Index

variable {Key Item : Type} [DecidableEq Key] {index : Index Key Item} {key : Key}
  {items : List Item}

/-- The items of a key. -/
def members (index : Index Key Item) (key : Key) : List Item := (index.lookup key).getD []

/-- No stored set is empty, and none holds an item twice. -/
def Tidy (index : Index Key Item) : Prop :=
  ∀ key items, index.lookup key = some items → items ≠ [] ∧ items.Nodup

theorem tidy_empty : Tidy (∅ : Index Key Item) := by
  intro key items hitems
  simp at hitems

theorem members_of_lookup (h : index.lookup key = some items) : index.members key = items := by
  simp [members, h]

theorem members_of_none (h : index.lookup key = none) :
    index.members key = [] := by
  simp [members, h]

theorem erase_of_none (h : index.lookup key = none) :
    index.erase key = index :=
  AList.ext (List.kerase_of_notMem_keys (AList.lookup_eq_none.mp h))

theorem Tidy.nodup (h : index.Tidy) (key : Key) :
    (index.members key).Nodup := by
  cases hlookup : index.lookup key with
  | none =>
    rw [members_of_none hlookup]
    exact List.nodup_nil
  | some items =>
    rw [members_of_lookup hlookup]
    exact (h key items hlookup).2

/-! ## Single updates -/

@[simp] theorem members_insert (index : Index Key Item) (key other : Key) (items : List Item) :
    members (index.insert key items) other = if other = key then items else index.members other := by
  unfold members
  by_cases hother : other = key
  · subst hother
    simp
  · rw [AList.lookup_insert_ne hother, if_neg hother]

@[simp] theorem members_erase (index : Index Key Item) (key other : Key) :
    members (index.erase key) other = if other = key then [] else index.members other := by
  unfold members
  by_cases hother : other = key
  · subst hother
    simp
  · rw [AList.lookup_erase_ne hother, if_neg hother]

theorem Tidy.insert (h : index.Tidy)
    (hsome : items ≠ []) (hnodup : items.Nodup) : Tidy (index.insert key items) := by
  intro other found hfound
  by_cases hother : other = key
  · subst hother
    rw [AList.lookup_insert, Option.some.injEq] at hfound
    exact hfound ▸ ⟨hsome, hnodup⟩
  · rw [AList.lookup_insert_ne hother] at hfound
    exact h other found hfound

theorem Tidy.erase (h : index.Tidy) (key : Key) :
    Tidy (index.erase key) := by
  intro other found hfound
  by_cases hother : other = key
  · subst hother
    rw [AList.lookup_erase] at hfound
    cases hfound
  · rw [AList.lookup_erase_ne hother] at hfound
    exact h other found hfound

/-- Store a set, or drop the key if the set is empty. -/
def store (key : Key) (items : List Item) (index : Index Key Item) : Index Key Item :=
  if items = [] then index.erase key else index.insert key items

@[simp] theorem members_store (index : Index Key Item) (key other : Key)
    (items : List Item) :
    members (index.store key items) other = if other = key then items else index.members other := by
  unfold store
  split
  · rename_i hnone
    rw [members_erase, hnone]
  · exact members_insert index key other items

theorem Tidy.store (h : index.Tidy) (key : Key)
    (hnodup : items.Nodup) : Tidy (index.store key items) := by
  unfold Index.store
  split
  · exact h.erase key
  · exact h.insert ‹_› hnodup

/-! ## Single pairs -/

section Pairs

variable [BEq Item]

/-- Add an item to a key. -/
def link (key : Key) (item : Item) (index : Index Key Item) : Index Key Item :=
  index.insert key ((index.members key).insert item)

/-- Take an item from a key. -/
def unlink (key : Key) (item : Item) (index : Index Key Item) : Index Key Item :=
  index.store key ((index.members key).erase item)

theorem members_unlink (index : Index Key Item) (key other : Key) (item : Item) :
    (index.unlink key item).members other =
      if other = key then (index.members key).erase item else index.members other :=
  members_store index key other _

theorem unlink_of_none (h : index.lookup key = none)
    (item : Item) : index.unlink key item = index := by
  simp [unlink, store, members_of_none h, erase_of_none h]

variable [LawfulBEq Item]

theorem mem_link {other : Key} {item mate : Item} :
    mate ∈ (index.link key item).members other ↔
      mate ∈ index.members other ∨ other = key ∧ mate = item := by
  unfold link
  rw [members_insert]
  by_cases hother : other = key
  · subst hother
    rw [if_pos rfl, List.mem_insert_iff]
    tauto
  · rw [if_neg hother]
    tauto

theorem Tidy.link (h : index.Tidy) (key : Key) (item : Item) :
    (index.link key item).Tidy :=
  h.insert (List.ne_nil_of_mem List.mem_insert_self) ((h.nodup key).insert)

theorem Tidy.mem_unlink (h : index.Tidy) {other : Key} {item mate : Item} :
    mate ∈ (index.unlink key item).members other ↔
      mate ∈ index.members other ∧ ¬ (other = key ∧ mate = item) := by
  rw [members_unlink]
  by_cases hother : other = key
  · subst hother
    rw [if_pos rfl, (h.nodup other).mem_erase_iff]
    tauto
  · rw [if_neg hother]
    tauto

theorem Tidy.unlink (h : index.Tidy) (key : Key) (item : Item) :
    (index.unlink key item).Tidy :=
  h.store key ((h.nodup key).erase item)

end Pairs

/-! ## Both directions -/

variable [DecidableEq Item]

/-- **The two maps hold the same pairs**, and no empty set. -/
structure Mirror (first : Index Key Item) (second : Index Item Key) : Prop where
  tidy : first.Tidy
  tidy' : second.Tidy
  agree : ∀ key item, item ∈ first.members key ↔ key ∈ second.members item

namespace Mirror

variable {first : Index Key Item} {second : Index Item Key}

theorem empty : Mirror (∅ : Index Key Item) (∅ : Index Item Key) :=
  ⟨tidy_empty, tidy_empty, fun key item => by simp [members]⟩

theorem link [BEq Item] [LawfulBEq Item] [BEq Key] [LawfulBEq Key] (h : Mirror first second)
    (key : Key) (item : Item) :
    Mirror (first.link key item) (second.link item key) where
  tidy := h.tidy.link key item
  tidy' := h.tidy'.link item key
  agree other mate := by
    rw [mem_link, mem_link, h.agree other mate]
    tauto

theorem unlink [BEq Item] [LawfulBEq Item] [BEq Key] [LawfulBEq Key] (h : Mirror first second)
    (key : Key) (item : Item) :
    Mirror (first.unlink key item) (second.unlink item key) where
  tidy := h.tidy.unlink key item
  tidy' := h.tidy'.unlink item key
  agree other mate := by
    rw [h.tidy.mem_unlink, h.tidy'.mem_unlink, h.agree other mate]
    tauto

/-- Drop a key on one side and take it from some items on the other, which must be
all the items it had. -/
theorem drop (h : Mirror first second) {second' : Index Item Key} (htidy : second'.Tidy)
    (hsecond : ∀ item other, other ∈ second'.members item ↔
      other ∈ second.members item ∧ other ≠ key) :
    Mirror (first.erase key) second' where
  tidy := h.tidy.erase key
  tidy' := htidy
  agree other item := by
    rw [members_erase, hsecond, ← h.agree]
    by_cases hother : other = key
    · simp [hother]
    · simp [hother]

end Mirror

end Index
