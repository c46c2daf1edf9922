import Mathlib.Data.List.Basic

/-!
# Partition points by halving

The halving loop behind `std::partition_point`, `lower_bound` and `upper_bound`:
the first position of a list whose element fails a predicate.  On a list that
is not partitioned by the predicate the loop still returns a position, but
nothing is known about it.
-/

namespace BinarySearch

variable {α : Type*} (p : α → Bool) (items : List α)

/-- The loop over the window of `len` elements that starts at `first`.  The fuel
bounds the number of halvings; `items.length` is always enough. -/
def search : ℕ → ℕ → ℕ → ℕ
  | 0, first, _ => first
  | fuel + 1, first, len =>
    if len = 0 then first
    else
      match items[first + len / 2]? with
      | none => first
      | some item =>
        if p item then search fuel (first + len / 2 + 1) (len - len / 2 - 1)
        else search fuel first (len / 2)

def partitionPoint : ℕ := search p items items.length 0 items.length

theorem le_search (fuel first len : ℕ) : first ≤ search p items fuel first len := by
  induction fuel generalizing first len with
  | zero => exact Nat.le_refl _
  | succ fuel ih =>
    unfold search
    split
    · exact Nat.le_refl _
    · split
      · exact Nat.le_refl _
      · split
        · exact Nat.le_trans (by omega) (ih _ _)
        · exact ih _ _

theorem search_le (fuel first len : ℕ) : search p items fuel first len ≤ first + len := by
  induction fuel generalizing first len with
  | zero => exact Nat.le_add_right _ _
  | succ fuel ih =>
    unfold search
    split
    · exact Nat.le_add_right _ _
    · split
      · exact Nat.le_add_right _ _
      · split
        · exact Nat.le_trans (ih _ _) (by omega)
        · exact Nat.le_trans (ih _ _) (by omega)

/-- A weaker predicate is followed further, on any list: where the two searches part, the
weaker one has gone right and the other one left. -/
theorem search_mono {q : α → Bool} (himp : ∀ item ∈ items, p item = true → q item = true)
    (fuel first len : ℕ) : search p items fuel first len ≤ search q items fuel first len := by
  induction fuel generalizing first len with
  | zero => exact Nat.le_refl _
  | succ fuel ih =>
    unfold search
    split
    · exact Nat.le_refl _
    · cases hitem : items[first + len / 2]? with
      | none => exact Nat.le_refl _
      | some item =>
        have hmem : item ∈ items := List.mem_of_getElem? hitem
        simp only
        by_cases hq : q item = true
        · by_cases hp : p item = true
          · rw [if_pos hp, if_pos hq]
            exact ih _ _
          · rw [if_neg hp, if_pos hq]
            calc search p items fuel first (len / 2)
                ≤ first + len / 2 := search_le p items fuel first (len / 2)
              _ ≤ first + len / 2 + 1 := Nat.le_succ _
              _ ≤ _ := le_search q items fuel _ _
        · rw [if_neg (fun hp => hq (himp item hmem hp)), if_neg hq]
          exact ih _ _

/-- Everything before the window satisfies `p`, nothing after it does. -/
structure Window (first len : ℕ) : Prop where
  inside : first + len ≤ items.length
  before : ∀ i (h : i < items.length), i < first → p items[i] = true
  after : ∀ i (h : i < items.length), first + len ≤ i → p items[i] = false

variable {p items}

theorem partitionPoint_mono {q : α → Bool}
    (himp : ∀ item ∈ items, p item = true → q item = true) :
    partitionPoint p items ≤ partitionPoint q items :=
  search_mono p items himp _ _ _

/-- One halving keeps the window, whichever half is dropped. -/
private theorem Window.lowerHalf (hpart : items.Pairwise fun a b => p b = true → p a = true)
    {first len : ℕ} (window : Window p items first len)
    (hmid : first + len / 2 < items.length) (htrue : p items[first + len / 2] = true) :
    Window p items (first + len / 2 + 1) (len - len / 2 - 1) where
  inside := by have := window.inside; omega
  before := by
    intro i hi hlt
    rcases Nat.lt_or_eq_of_le (Nat.le_of_lt_succ hlt) with hbelow | rfl
    · exact List.pairwise_iff_getElem.mp hpart i _ hi hmid hbelow htrue
    · exact htrue
  after := fun i hi hle => window.after i hi (by omega)

private theorem Window.upperHalf (hpart : items.Pairwise fun a b => p b = true → p a = true)
    {first len : ℕ} (window : Window p items first len)
    (hmid : first + len / 2 < items.length) (hfalse : p items[first + len / 2] = false) :
    Window p items first (len / 2) where
  inside := by have := window.inside; omega
  before := window.before
  after := by
    intro i hi hle
    rcases Nat.lt_or_eq_of_le hle with habove | rfl
    · by_contra hp
      have := List.pairwise_iff_getElem.mp hpart _ i hmid hi habove (by simpa using hp)
      simp [hfalse] at this
    · exact hfalse

private theorem search_window (hpart : items.Pairwise fun a b => p b = true → p a = true) :
    ∀ (fuel first len : ℕ), Window p items first len → len ≤ fuel →
      Window p items (search p items fuel first len) 0 := by
  intro fuel
  induction fuel with
  | zero =>
    intro first len window hle
    obtain rfl : len = 0 := by omega
    exact window
  | succ fuel ih =>
    intro first len window hle
    unfold search
    split
    · subst len
      exact window
    · have hmid : first + len / 2 < items.length := by have := window.inside; omega
      rw [List.getElem?_eq_getElem hmid]
      cases hitem : p items[first + len / 2] with
      | true =>
        simp only [hitem, if_true]
        exact ih _ _ (window.lowerHalf hpart hmid hitem) (by omega)
      | false =>
        simp only [hitem, Bool.false_eq_true, if_false]
        exact ih _ _ (window.upperHalf hpart hmid hitem) (by omega)

/-- On a list partitioned by `p` the search splits it into the elements that
satisfy `p` and those that do not. -/
theorem partitionPoint_spec (hpart : items.Pairwise fun a b => p b = true → p a = true) :
    partitionPoint p items ≤ items.length ∧
      (∀ item ∈ items.take (partitionPoint p items), p item = true) ∧
      ∀ item ∈ items.drop (partitionPoint p items), p item = false := by
  have window : Window p items (partitionPoint p items) 0 :=
    search_window hpart _ _ _ ⟨by simp, by simp, fun i hi hle => by omega⟩ (Nat.le_refl _)
  refine ⟨by simpa using window.inside, ?_, ?_⟩
  · intro item hitem
    obtain ⟨i, hi, rfl⟩ := List.mem_iff_getElem.mp hitem
    rw [List.getElem_take]
    rw [List.length_take] at hi
    exact window.before i (by omega) (by omega)
  · intro item hitem
    obtain ⟨i, hi, rfl⟩ := List.mem_iff_getElem.mp hitem
    rw [List.getElem_drop]
    rw [List.length_drop] at hi
    exact window.after _ (by omega) (by omega)

theorem take_partitionPoint (hpart : items.Pairwise fun a b => p b = true → p a = true) :
    items.take (partitionPoint p items) = items.filter p := by
  obtain ⟨-, hbefore, hafter⟩ := partitionPoint_spec hpart
  have hnone : (items.drop (partitionPoint p items)).filter p = [] :=
    List.filter_eq_nil_iff.mpr fun item hitem => by simp [hafter item hitem]
  calc items.take (partitionPoint p items)
      = (items.take (partitionPoint p items)).filter p := (List.filter_eq_self.mpr hbefore).symm
    _ = (items.take (partitionPoint p items)).filter p ++
          (items.drop (partitionPoint p items)).filter p := by rw [hnone, List.append_nil]
    _ = items.filter p := by rw [← List.filter_append, List.take_append_drop]

theorem drop_partitionPoint (hpart : items.Pairwise fun a b => p b = true → p a = true) :
    items.drop (partitionPoint p items) = items.filter fun item => !p item := by
  obtain ⟨-, hbefore, hafter⟩ := partitionPoint_spec hpart
  have hnone : (items.take (partitionPoint p items)).filter (fun item => !p item) = [] :=
    List.filter_eq_nil_iff.mpr fun item hitem => by simp [hbefore item hitem]
  have hall : (items.drop (partitionPoint p items)).filter (fun item => !p item) =
      items.drop (partitionPoint p items) :=
    List.filter_eq_self.mpr fun item hitem => by simp [hafter item hitem]
  calc items.drop (partitionPoint p items)
      = (items.take (partitionPoint p items)).filter (fun item => !p item) ++
          (items.drop (partitionPoint p items)).filter (fun item => !p item) := by
        rw [hnone, hall, List.nil_append]
    _ = items.filter fun item => !p item := by
        rw [← List.filter_append, List.take_append_drop]

theorem partitionPoint_eq_countP (hpart : items.Pairwise fun a b => p b = true → p a = true) :
    partitionPoint p items = items.countP p := by
  rw [List.countP_eq_length_filter, ← take_partitionPoint hpart, List.length_take]
  exact (Nat.min_eq_left (partitionPoint_spec hpart).1).symm

/-- One partition point is not behind another one when its predicate is the stronger
one on the list. -/
theorem partitionPoint_le_iff {q : α → Bool}
    (hpart : items.Pairwise fun a b => p b = true → p a = true)
    (hpart' : items.Pairwise fun a b => q b = true → q a = true) :
    partitionPoint p items ≤ partitionPoint q items ↔
      ∀ item ∈ items, p item = true → q item = true := by
  constructor
  · intro hle item hitem hp
    have htake : item ∈ items.take (partitionPoint p items) := by
      rw [take_partitionPoint hpart]
      exact List.mem_filter.mpr ⟨hitem, hp⟩
    exact (partitionPoint_spec hpart').2.1 item (List.take_subset_take_left items hle htake)
  · exact partitionPoint_mono

/-- Between two partition points lie the elements that are past the first and not
past the second. -/
theorem slice_eq_filter {q : α → Bool}
    (hpart : items.Pairwise fun a b => p b = true → p a = true)
    (hpart' : items.Pairwise fun a b => q b = true → q a = true)
    (hle : partitionPoint p items ≤ partitionPoint q items) :
    (items.drop (partitionPoint p items)).take
        (partitionPoint q items - partitionPoint p items) =
      items.filter fun item => !p item && q item := by
  have himp := (partitionPoint_le_iff hpart hpart').mp hle
  have hsame : partitionPoint p (items.filter q) = partitionPoint p items := by
    rw [partitionPoint_eq_countP (hpart.filter q), partitionPoint_eq_countP hpart,
      List.countP_filter]
    refine List.countP_congr fun item hitem => ?_
    simpa using himp item hitem
  calc (items.drop (partitionPoint p items)).take
        (partitionPoint q items - partitionPoint p items)
      = (items.take (partitionPoint q items)).drop (partitionPoint p items) :=
        List.drop_take.symm
    _ = (items.filter q).drop (partitionPoint p (items.filter q)) := by
        rw [take_partitionPoint hpart', hsame]
    _ = (items.filter q).filter fun item => !p item := drop_partitionPoint (hpart.filter q)
    _ = items.filter fun item => !p item && q item := List.filter_filter

end BinarySearch
