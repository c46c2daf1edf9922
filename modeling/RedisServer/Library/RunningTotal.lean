import Mathlib

/-!
# A log whose items carry running totals

Every item of a log has a size, and is marked with the total size of the log up
to and including it.  A position in the log can then be given as a total: what
comes after it are the items with a larger mark.
-/

namespace RunningTotal

variable {base : ℕ}

variable {Item : Type*} (size ending : Item → ℕ)

/-- The size of some items together. -/
def total (items : List Item) : ℕ := (items.map size).sum

/-- The items are marked with running totals, starting from a base. -/
def Marked : ℕ → List Item → Prop
  | _, [] => True
  | base, item :: rest => ending item = base + size item ∧ Marked (base + size item) rest

variable {size ending}

@[simp] theorem total_nil : total size [] = 0 := rfl

theorem total_append (items later : List Item) :
    total size (items ++ later) = total size items + total size later := by
  simp [total]

theorem total_cons (item : Item) (items : List Item) :
    total size (item :: items) = size item + total size items := by
  simp [total]

theorem marked_append {items later : List Item} :
    Marked size ending base (items ++ later) ↔
      Marked size ending base items ∧ Marked size ending (base + total size items) later := by
  induction items generalizing base with
  | nil => simp [Marked]
  | cons item items ih =>
    rw [List.cons_append, Marked, Marked, ih, total_cons, Nat.add_assoc, and_assoc]

theorem total_flatMap {Byte : Type*} (payload : Item → List Byte) (items : List Item) :
    (items.flatMap payload).length = total (fun item => (payload item).length) items := by
  simp [total, List.length_flatMap]

/-- The mark of an item is the size of what comes up to it. -/
theorem Marked.ending_eq {front back : List Item} {item : Item}
    (h : Marked size ending base (front ++ item :: back)) :
    ending item = base + total size (front ++ [item]) := by
  obtain ⟨-, hitem, -⟩ := marked_append.mp h
  rw [hitem, total_append, total_cons, total_nil]
  omega

theorem Marked.ending_le {items : List Item} (h : Marked size ending base items) {item : Item}
    (hitem : item ∈ items) : ending item ≤ base + total size items := by
  obtain ⟨front, back, rfl⟩ := List.append_of_mem hitem
  rw [h.ending_eq, total_append, total_append, total_cons, total_cons, total_nil]
  omega

theorem Marked.lt_ending {items : List Item} (h : Marked size ending base items) {item : Item}
    (hitem : item ∈ items) (hsize : 0 < size item) : base < ending item := by
  obtain ⟨front, back, rfl⟩ := List.append_of_mem hitem
  rw [h.ending_eq, total_append, total_cons, total_nil]
  omega

/-- **What comes after a position** are the items with a larger mark. -/
theorem Marked.filter_after {earlier later : List Item}
    (h : Marked size ending 0 (earlier ++ later)) (hsize : ∀ item ∈ later, 0 < size item) :
    (earlier ++ later).filter (fun item => decide (total size earlier < ending item)) = later := by
  obtain ⟨hearlier, hlater⟩ := marked_append.mp h
  rw [Nat.zero_add] at hlater
  have hnone : earlier.filter (fun item => decide (total size earlier < ending item)) = [] := by
    refine List.filter_eq_nil_iff.mpr fun item hitem => ?_
    have hle := hearlier.ending_le hitem
    simp only [decide_eq_true_eq]
    omega
  have hall : later.filter (fun item => decide (total size earlier < ending item)) = later := by
    refine List.filter_eq_self.mpr fun item hitem => ?_
    simpa using hlater.lt_ending hitem (hsize item hitem)
  rw [List.filter_append, hnone, hall, List.nil_append]

/-- Whoever has received a first part of what comes after a position, and at least
up to a mark, has received the item with that mark. -/
theorem Marked.mem_of_ending_le {earlier received missing : List Item}
    (h : Marked size ending 0 (earlier ++ (received ++ missing)))
    (hsize : ∀ item ∈ missing, 0 < size item) {item : Item}
    (hitem : item ∈ earlier ++ (received ++ missing))
    (hafter : total size earlier < ending item)
    (hreached : ending item ≤ total size earlier + total size received) : item ∈ received := by
  obtain ⟨hearlier, hrest⟩ := marked_append.mp h
  obtain ⟨-, hmissing⟩ := marked_append.mp hrest
  rcases List.mem_append.mp hitem with hitem | hitem
  · have hle := hearlier.ending_le hitem
    omega
  · rcases List.mem_append.mp hitem with hitem | hitem
    · exact hitem
    · have hlt := hmissing.lt_ending hitem (hsize item hitem)
      omega

end RunningTotal
