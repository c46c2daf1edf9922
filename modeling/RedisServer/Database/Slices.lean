import RedisServer.Database.Deadlines

/-!
# Slices of a list

`list_elements` moves two signed 64-bit indexes into the list, step by step, and then
takes iterators at them.  `checkedSlice` is the same computation in which a step fails
when its result does not fit or an iterator would leave the list; no step ever fails,
and the result is the elements at the positions in between (`slice_exact`).
-/

namespace RedisServer.Database

open Resp KeyedStore Commands

/-! ## The positions of an interval -/

/-- The elements at the positions from `first` to `last`, in order. -/
def elementsBetween (first last : Int) (elements : List Bytes) : List Bytes :=
  (elements.zipIdx.filter fun item => decide (first ≤ item.2 ∧ (item.2 : Int) ≤ last)).map
    Prod.fst

theorem filter_zipIdx (first last : ℕ) (elements : List Bytes) (offset : ℕ) :
    ((elements.zipIdx offset).filter fun item => decide (first ≤ item.2 ∧ item.2 < last)).map
        Prod.fst =
      (elements.drop (first - offset)).take (last - max first offset) := by
  induction elements generalizing offset with
  | nil => simp
  | cons element elements ih =>
    rw [List.zipIdx_cons, List.filter_cons]
    by_cases hfirst : first ≤ offset
    · have hdrop : first - offset = 0 := by omega
      have hdrop' : first - (offset + 1) = 0 := by omega
      have hmax : max first offset = offset := by omega
      have hmax' : max first (offset + 1) = offset + 1 := by omega
      by_cases hlast : offset < last
      · have htake : last - offset = last - (offset + 1) + 1 := by omega
        rw [if_pos (by simp [hfirst, hlast]), List.map_cons, ih, hdrop, hdrop', hmax, hmax',
          htake]
        simp
      · have htake : last - offset = 0 := by omega
        have htake' : last - (offset + 1) = 0 := by omega
        rw [if_neg (by simp [hlast]), ih, hdrop, hdrop', hmax, hmax', htake, htake']
        simp
    · have hdrop : first - offset = first - (offset + 1) + 1 := by omega
      have hmax : max first offset = max first (offset + 1) := by omega
      rw [if_neg (by simp [hfirst]), ih, hdrop, hmax]
      simp

/-- An interval inside the list is cut out. -/
theorem elementsBetween_eq {first last : Int} (hfirst : 0 ≤ first) (elements : List Bytes) :
    elementsBetween first last elements =
      (elements.drop first.toNat).take (last + 1 - first).toNat := by
  have hsame : ∀ item : Bytes × ℕ, decide (first ≤ item.2 ∧ (item.2 : Int) ≤ last) =
      decide (first.toNat ≤ item.2 ∧ item.2 < (last + 1).toNat) := by
    intro item
    congr 1
    rw [eq_iff_iff]
    omega
  have hcount : (last + 1).toNat - max first.toNat 0 = (last + 1 - first).toNat := by omega
  rw [elementsBetween, List.filter_congr fun item _ => hsame item, filter_zipIdx, hcount]
  simp

theorem elementsBetween_of_empty {first last : Int} {elements : List Bytes}
    (h : last < 0 ∨ (elements.length : Int) ≤ first ∨ last < first) :
    elementsBetween first last elements = [] := by
  rw [elementsBetween, List.map_eq_nil_iff, List.filter_eq_nil_iff]
  rintro ⟨element, position⟩ hmem
  obtain ⟨-, hposition, -⟩ := List.mem_zipIdx hmem
  simp only [decide_eq_true_eq]
  omega

/-! ## The computation -/

/-- A signed 64-bit result, unless it overflows. -/
def checked (n : Int) : Option Int := if Fits n then some n else none

theorem checked_of_fits {n : Int} (h : Fits n) : checked n = some n := if_pos h

/-- The vector between two iterators of the list, unless they are out of order or out
of the list. -/
def copyRange (elements : List Bytes) (first last : Int) : Option (List Bytes) :=
  if 0 ≤ first ∧ first ≤ last ∧ last ≤ elements.length then
    some ((elements.drop first.toNat).take (last - first).toNat)
  else none

/-- `list_elements`, with every step checked. -/
def checkedSlice (elements : List Bytes) (start stop : Int) : Option (List Bytes) :=
  (checked elements.length).bind fun size =>
    if size = 0 then some []
    else
      (if start < 0 then checked (start + size) else some start).bind fun start =>
        (if stop < 0 then checked (stop + size) else some stop).bind fun stop =>
          let start := if start < 0 then 0 else start
          (if stop ≥ size then checked (size - 1) else some stop).bind fun stop =>
            if stop < 0 ∨ start ≥ size ∨ start > stop then some []
            else (checked (stop + 1)).bind (copyRange elements start)

/-- A negative index counts from the end. -/
def fromEnd (size index : Int) : Int := if index < 0 then index + size else index

/-- The slice that is asked for. -/
def specifiedSlice (elements : List Bytes) (start stop : Int) : List Bytes :=
  elementsBetween (max 0 (fromEnd elements.length start))
    (min (elements.length - 1) (fromEnd elements.length stop)) elements

section Slice

variable {elements : List Bytes} {start stop : Int}

theorem clampStart_eq (size start : Int) :
    (if fromEnd size start < 0 then 0 else fromEnd size start) = max 0 (fromEnd size start) := by
  split <;> omega

theorem clampStop_eq (size stop : Int) :
    (if fromEnd size stop ≥ size then size - 1 else fromEnd size stop) =
      min (size - 1) (fromEnd size stop) := by
  split <;> omega

theorem slice_eq_specified (elements : List Bytes) (start stop : Int) :
    slice elements start stop = specifiedSlice elements start stop := by
  unfold slice specifiedSlice
  by_cases hempty : (elements.length : Int) = 0
  · have hnil : elements = [] := List.length_eq_zero_iff.mp (by omega)
    simp [hnil, elementsBetween]
  · simp only [if_neg hempty, ← fromEnd.eq_def, clampStart_eq, clampStop_eq]
    split
    · rename_i houtside
      rw [elementsBetween_of_empty (by omega)]
    · rw [elementsBetween_eq (by omega)]

theorem fits_fromEnd (hindex : Fits start) (hsize : elements.length < 2 ^ 63) :
    Fits (fromEnd elements.length start) := by
  unfold Fits at hindex ⊢
  unfold fromEnd
  split <;> omega

theorem checked_fromEnd (hindex : Fits start) (hsize : elements.length < 2 ^ 63) :
    (if start < 0 then checked (start + elements.length) else some start) =
      some (fromEnd elements.length start) := by
  have hfits := fits_fromEnd hindex hsize
  unfold fromEnd at hfits ⊢
  split
  · rw [if_pos ‹_›] at hfits
    exact checked_of_fits hfits
  · rfl

/-- No step of the computation fails. -/
theorem checkedSlice_eq (hsize : elements.length < 2 ^ 63) (hstart : Fits start)
    (hstop : Fits stop) : checkedSlice elements start stop = some (slice elements start stop) := by
  have hlength : Fits (elements.length : Int) := by
    unfold Fits
    omega
  have hlast : Fits ((elements.length : Int) - 1) := by
    unfold Fits
    omega
  have hclamp : (if fromEnd elements.length stop ≥ (elements.length : Int) then
        checked ((elements.length : Int) - 1) else some (fromEnd elements.length stop)) =
      some (min ((elements.length : Int) - 1) (fromEnd elements.length stop)) := by
    rw [← clampStop_eq]
    split
    · exact checked_of_fits hlast
    · rfl
  rw [slice_eq_specified]
  unfold checkedSlice specifiedSlice
  simp only [checked_of_fits hlength, checked_fromEnd hstart hsize, checked_fromEnd hstop hsize,
    hclamp, clampStart_eq, Option.bind_some]
  by_cases hempty : (elements.length : Int) = 0
  · have hnil : elements = [] := List.length_eq_zero_iff.mp (by omega)
    simp [hnil, elementsBetween]
  · rw [if_neg hempty]
    split
    · rename_i houtside
      rw [elementsBetween_of_empty (by omega)]
    · rename_i hinside
      have hbehind : Fits (min ((elements.length : Int) - 1) (fromEnd elements.length stop) + 1) := by
        unfold Fits
        omega
      rw [checked_of_fits hbehind, Option.bind_some, copyRange, if_pos (by omega),
        elementsBetween_eq (by omega)]

/-- **`LRANGE` slices as specified.**  The bound on the length is that of a
`std::deque`. -/
theorem lrange_exact {clock : Clock} {key : Bytes} {database : Database} {expiresAt : Option Int}
    (hview : view clock database key = some ⟨.list elements, expiresAt⟩)
    (hsize : elements.length < 2 ^ 63) (hstart : Fits start) (hstop : Fits stop) :
    listElements clock key start stop database =
        (.ok (specifiedSlice elements start stop), database) ∧
      checkedSlice elements start stop = some (specifiedSlice elements start stop) ∧
      (min (elements.length - 1 : Int) (fromEnd elements.length stop) <
          max 0 (fromEnd elements.length start) → specifiedSlice elements start stop = []) ∧
      ∀ host startText stopText, parseSigned 64 startText = some start →
        parseSigned 64 stopText = some stop →
        dispatch host clock database [CommandName.lrange.text, key, startText, stopText] =
          some (if specifiedSlice elements start stop = [] then .emptyArray
            else .array (specifiedSlice elements start stop), database) := by
  have hlive : live (Entry.expired clock) key database = some ⟨.list elements, expiresAt⟩ := hview
  have hkeep : (OnEntry.listElements start stop (some ⟨.list elements, expiresAt⟩)).2 = .keep := rfl
  have helements : listElements clock key start stop database =
      (.ok (specifiedSlice elements start stop), database) := by
    rw [listElements_eq]
    refine Prod.ext ?_ (transact_keep hlive hkeep)
    rw [transact, hlive, ← slice_eq_specified]
    rfl
  refine ⟨helements, ?_, fun hempty => elementsBetween_of_empty (by omega), ?_⟩
  · rw [checkedSlice_eq hsize hstart hstop, slice_eq_specified]
  · intro host startText stopText hstartText hstopText
    have hname : nameOf [CommandName.lrange.text, key, startText, stopText] = some .lrange :=
      nameOf_cons.mpr rfl
    simp only [dispatch, List.cons_ne_nil, if_false, findCommandDefinition, hname,
      Option.bind_some, commandHandlers, lrange, hstartText, hstopText, helements]

/-- The last two of three elements. -/
theorem lrange_exact_last_two :
    listElements ⟨0, 0⟩ (ascii "l") (-2) (2 ^ 63 - 1)
        (({} : Database).put (ascii "l") ⟨.list [ascii "a", ascii "b", ascii "c"], none⟩) =
      (.ok [ascii "b", ascii "c"],
        ({} : Database).put (ascii "l") ⟨.list [ascii "a", ascii "b", ascii "c"], none⟩) := by
  have hview : view ⟨0, 0⟩
      (({} : Database).put (ascii "l") ⟨.list [ascii "a", ascii "b", ascii "c"], none⟩)
      (ascii "l") = some ⟨.list [ascii "a", ascii "b", ascii "c"], none⟩ := by decide +kernel
  have hslice : specifiedSlice [ascii "a", ascii "b", ascii "c"] (-2) (2 ^ 63 - 1) =
      [ascii "b", ascii "c"] := by decide +kernel
  rw [← hslice]
  exact (lrange_exact hview (by decide) (by decide) (by decide)).1

end Slice

end RedisServer.Database
