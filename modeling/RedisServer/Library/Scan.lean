import Mathlib.Data.Stream.Init

/-!
# One pass over a queue

A loop that visits the items of a queue from front to back, changes a state at
every item and either keeps the item, possibly modified, or takes it out.  Each
visit also gets an input from outside.  The rules say what a whole pass does,
given what one visit does.
-/

namespace Scan

variable {Input Item State : Type*}

/-- The items that stay, and the state after the pass. -/
def scan (visit : Input → Item → State → Option Item × State) :
    Stream' Input → List Item → State → List Item × State
  | _, [], state => ([], state)
  | inputs, item :: rest, state =>
    let (kept, state) := visit inputs.head item state
    let (remaining, state) := scan visit inputs.tail rest state
    (kept.toList ++ remaining, state)

variable {visit : Input → Item → State → Option Item × State}

theorem scan_nil (inputs : Stream' Input) (state : State) :
    scan visit inputs [] state = ([], state) := rfl

theorem scan_cons (inputs : Stream' Input) (item : Item) (rest : List Item) (state : State) :
    scan visit inputs (item :: rest) state =
      ((visit inputs.head item state).1.toList ++
          (scan visit inputs.tail rest (visit inputs.head item state).2).1,
        (scan visit inputs.tail rest (visit inputs.head item state).2).2) := rfl

/-- **The relation rule.**  The two ends of a pass are related by whatever every
visit keeps that gets one of its inputs and one of its items. -/
theorem scan_relation {Given : Input → Prop} {Admitted : Item → Prop}
    {Rel : State → State → Prop} (hrefl : ∀ state, Rel state state)
    (htrans : ∀ a b c, Rel a b → Rel b c → Rel a c)
    (hvisit : ∀ input item state, Given input → Admitted item →
      Rel state (visit input item state).2)
    (inputs : Stream' Input) (hinputs : ∀ n, Given (inputs.get n)) (items : List Item)
    (hitems : ∀ item ∈ items, Admitted item) (state : State) :
    Rel state (scan visit inputs items state).2 := by
  induction items generalizing inputs state with
  | nil => exact hrefl state
  | cons item rest ih =>
    rw [scan_cons]
    exact htrans _ _ _ (hvisit _ item state (hinputs 0) (hitems item (by simp)))
      (ih _ (fun n => hinputs (n + 1)) (fun other hother => hitems other (by simp [hother])) _)

/-- **The invariant rule.** -/
theorem scan_invariant {Inv : State → Prop}
    (hvisit : ∀ input item state, Inv state → Inv (visit input item state).2)
    (inputs : Stream' Input) (items : List Item) {state : State} (hstate : Inv state) :
    Inv (scan visit inputs items state).2 := by
  induction items generalizing inputs state with
  | nil => exact hstate
  | cons item rest ih =>
    rw [scan_cons]
    exact ih _ (hvisit _ item state hstate)

/-- What a visit that keeps an item makes of it, all items that stay are. -/
theorem mem_scan {From Good : Item → Prop}
    (hkept : ∀ input item state kept, From item →
      (visit input item state).1 = some kept → Good kept)
    (inputs : Stream' Input) (items : List Item) (state : State)
    (hitems : ∀ item ∈ items, From item) :
    ∀ item ∈ (scan visit inputs items state).1, Good item := by
  induction items generalizing inputs state with
  | nil => simp [scan_nil]
  | cons item rest ih =>
    rw [scan_cons]
    intro kept hmem
    rcases List.mem_append.mp hmem with hmem | hmem
    · exact hkept _ item state kept (hitems item (by simp)) (by simpa using hmem)
    · exact ih _ _ (fun other hother => hitems other (by simp [hother])) kept hmem

/-- What every visit that keeps an item grants, all items that stay have. -/
theorem forall_mem_scan {Good : Item → Prop}
    (hkept : ∀ input item state kept, (visit input item state).1 = some kept → Good kept)
    (inputs : Stream' Input) (items : List Item) (state : State) :
    ∀ item ∈ (scan visit inputs items state).1, Good item :=
  mem_scan (fun input item state kept (_ : True) => hkept input item state kept) inputs items state
    fun _ _ => trivial

/-- A pass that keeps items as they are keeps them in their order. -/
theorem scan_sublist
    (hkept : ∀ input item state kept, (visit input item state).1 = some kept → kept = item)
    (inputs : Stream' Input) (items : List Item) (state : State) :
    (scan visit inputs items state).1.Sublist items := by
  induction items generalizing inputs state with
  | nil => exact .refl _
  | cons item rest ih =>
    rw [scan_cons]
    have hfirst := hkept inputs.head item state
    cases hvisit : (visit inputs.head item state).1 with
    | none => exact (ih _ _).cons item
    | some kept =>
      obtain rfl := hfirst kept hvisit
      exact (ih _ _).cons_cons kept

/-- **The rule for what stays.**  If a visit only keeps an item that is blocked
afterwards, and no visit unblocks another item, then after the pass all items
that stay are blocked. -/
theorem scan_blocked {Inv : State → Prop} {Blocked : Item → State → Prop}
    (hinv : ∀ input item state, Inv state → Inv (visit input item state).2)
    (hkept : ∀ input item state kept, Inv state → (visit input item state).1 = some kept →
      Blocked kept (visit input item state).2)
    (hstable : ∀ input item state other, Inv state → Blocked other state →
      Blocked other (visit input item state).2)
    (inputs : Stream' Input) (items : List Item) {state : State} (hstate : Inv state) :
    ∀ item ∈ (scan visit inputs items state).1, Blocked item (scan visit inputs items state).2 := by
  -- A blocked item stays blocked through the rest of the pass.
  have hthrough : ∀ (items : List Item) (inputs : Stream' Input) (state : State) (other : Item),
      Inv state → Blocked other state → Blocked other (scan visit inputs items state).2 := by
    intro items
    induction items with
    | nil => exact fun _ _ _ _ hblocked => hblocked
    | cons item rest ih =>
      intro inputs state other hstate hblocked
      rw [scan_cons]
      exact ih _ _ other (hinv _ item state hstate) (hstable _ item state other hstate hblocked)
  induction items generalizing inputs state with
  | nil => simp [scan_nil]
  | cons item rest ih =>
    rw [scan_cons]
    intro kept hmem
    rcases List.mem_append.mp hmem with hmem | hmem
    · exact hthrough rest _ _ kept (hinv _ item state hstate)
        (hkept _ item state kept hstate (by simpa using hmem))
    · exact ih _ (hinv _ item state hstate) kept hmem

/-- **The rule for the whole queue.**  What holds of the items kept so far, those
still to come and the state holds to the end if every visit keeps it. -/
theorem scan_split {Inv : List Item → List Item → State → Prop}
    (hvisit : ∀ input item kept rest state, Inv kept (item :: rest) state →
      Inv (kept ++ (visit input item state).1.toList) rest (visit input item state).2)
    (inputs : Stream' Input) {kept items : List Item} {state : State}
    (hstate : Inv kept items state) :
    Inv (kept ++ (scan visit inputs items state).1) [] (scan visit inputs items state).2 := by
  induction items generalizing inputs kept state with
  | nil => simpa [scan_nil] using hstate
  | cons item rest ih =>
    have hrest := ih inputs.tail (hvisit inputs.head item kept rest state hstate)
    rw [List.append_assoc] at hrest
    exact hrest

/-- **The rule for a pass that changes no item.** -/
theorem scan_kept {Inv : State → Prop} {items : List Item}
    (hvisit : ∀ input item state, item ∈ items → Inv state →
      (visit input item state).1 = some item ∧ Inv (visit input item state).2)
    (inputs : Stream' Input) {state : State} (hstate : Inv state) :
    (scan visit inputs items state).1 = items ∧ Inv (scan visit inputs items state).2 := by
  induction items generalizing inputs state with
  | nil => exact ⟨rfl, hstate⟩
  | cons item rest ih =>
    obtain ⟨hkept, hinv⟩ := hvisit inputs.head item state (by simp) hstate
    obtain ⟨hrest, hlast⟩ := ih
      (fun input other state hother => hvisit input other state (by simp [hother])) inputs.tail
      hinv
    rw [scan_cons]
    exact ⟨by simp [hkept, hrest], hlast⟩

/-- A pass that changes nothing at all. -/
theorem scan_fixed {items : List Item} {state : State}
    (hvisit : ∀ input, ∀ item ∈ items, visit input item state = (some item, state))
    (inputs : Stream' Input) : scan visit inputs items state = (items, state) := by
  induction items generalizing inputs with
  | nil => rfl
  | cons item rest ih =>
    rw [scan_cons, hvisit _ item (by simp),
      ih (fun input other hother => hvisit input other (by simp [hother]))]
    rfl

end Scan
