import Mathlib.Data.List.Basic

/-!
# Lines and fields

A text is read line by line, and a line field by field: a field is what stands between
separators.  Whatever was read as a field has no separator in it, and a field without
separators is read back as it was written.
-/

namespace Fields

variable {α : Type}

/-- The lines of a text.  Behind the last newline there is one more line only if something
stands there. -/
def lines [DecidableEq α] (newline : α) : List α → List (List α)
  | [] => []
  | first :: rest =>
    if first = newline then [] :: lines newline rest
    else
      match lines newline rest with
      | [] => [[first]]
      | line :: others => (first :: line) :: others

/-- Skip separators and take what stands before the next one. -/
def readField (separator : α → Bool) (text : List α) : Option (List α × List α) :=
  let text := text.dropWhile separator
  if text.isEmpty then none
  else some (text.takeWhile (!separator ·), text.dropWhile (!separator ·))

/-- One line, with its newline. -/
theorem lines_concat [DecidableEq α] {newline : α} {line : List α} (h : newline ∉ line) :
    lines newline (line ++ [newline]) = [line] := by
  induction line with
  | nil => simp [lines]
  | cons first rest ih =>
    have hfirst : first ≠ newline := fun heq => h (heq ▸ List.mem_cons_self)
    have hrest : newline ∉ rest := fun hmem => h (List.mem_cons_of_mem _ hmem)
    rw [List.cons_append, lines, if_neg hfirst, ih hrest]

section Field

variable {separator : α → Bool}

theorem not_separator_of_readField {text word rest : List α}
    (h : readField separator text = some (word, rest)) : ∀ a ∈ word, separator a = false := by
  simp only [readField] at h
  split at h
  · cases h
  · cases h
    intro a ha
    simpa using List.all_eq_true.mp List.all_takeWhile a ha

/-- **A field is read back**, up to the separator behind it. -/
theorem readField_word {word : List α} (hne : word ≠ [])
    (hword : ∀ a ∈ word, separator a = false) {gap : α} (hgap : separator gap = true)
    (rest : List α) :
    readField separator (word ++ gap :: rest) = some (word, gap :: rest) := by
  have hskip : (word ++ gap :: rest).dropWhile separator = word ++ gap :: rest := by
    obtain ⟨first, others, rfl⟩ := List.exists_cons_of_ne_nil hne
    rw [List.cons_append, List.dropWhile_cons_of_neg (by simp [hword first])]
  have htake : (word ++ gap :: rest).takeWhile (!separator ·) = word := by
    rw [List.takeWhile_append_of_pos (by simpa using hword),
      List.takeWhile_cons_of_neg (by simp [hgap]), List.append_nil]
  have hdrop : (word ++ gap :: rest).dropWhile (!separator ·) = gap :: rest := by
    rw [List.dropWhile_append_of_pos (by simpa using hword),
      List.dropWhile_cons_of_neg (by simp [hgap])]
  simp only [readField, hskip, htake, hdrop]
  simp

/-- Leading separators do not matter. -/
theorem readField_gap {gap : α} (hgap : separator gap = true) (text : List α) :
    readField separator (gap :: text) = readField separator text := by
  simp only [readField, List.dropWhile_cons_of_pos hgap]

end Field

end Fields
