import Mathlib.Data.Nat.Digits.Lemmas

/-!
# Decimal numerals as bytes

Printing a natural number in base ten and reading it back.  Reading accepts a
non-empty string of digits, leading zeros included, and nothing else; printing
never produces a leading zero, so reading undoes printing but not conversely.
-/

namespace Decimal

variable {n : ℕ}

/-- The ASCII byte of a digit below ten. -/
def digit (n : ℕ) : UInt8 := UInt8.ofNat (48 + n)

def isDigit (byte : UInt8) : Bool := decide (48 ≤ byte) && decide (byte ≤ 57)

/-- The decimal numeral of `n`, most significant digit first. -/
def print (n : ℕ) : List UInt8 :=
  if n = 0 then [48] else ((Nat.digits 10 n).map digit).reverse

/-- The number a string of digits denotes, continuing from `acc`. -/
def valueFrom (acc : ℕ) (text : List UInt8) : ℕ :=
  text.foldl (fun acc byte => acc * 10 + (byte.toNat - 48)) acc

/-- The number denoted by a non-empty string of digits. -/
def parse (text : List UInt8) : Option ℕ :=
  if text ≠ [] ∧ text.all isDigit = true then some (valueFrom 0 text) else none

/-! ## Digits -/

theorem digit_toNat (h : n < 10) : (digit n).toNat = 48 + n := by
  unfold digit
  rw [UInt8.toNat_ofNat']
  omega

theorem isDigit_digit (h : n < 10) : isDigit (digit n) = true := by
  have htoNat := digit_toNat h
  simp only [isDigit, Bool.and_eq_true, decide_eq_true_eq, UInt8.le_iff_toNat_le, htoNat]
  constructor
  · show 48 ≤ 48 + n
    omega
  · show 48 + n ≤ 57
    omega

/-! ## Printing and reading -/

theorem print_ne_nil (n : ℕ) : print n ≠ [] := by
  unfold print
  split
  · simp
  · simpa using Nat.digits_ne_nil_iff_ne_zero.mpr ‹n ≠ 0›

theorem all_isDigit_print (n : ℕ) : (print n).all isDigit = true := by
  unfold print
  split
  · decide
  · simp only [List.all_reverse, List.all_map, List.all_eq_true, Function.comp]
    intro d hd
    exact isDigit_digit (Nat.digits_lt_base (by norm_num) hd)

theorem isDigit_of_mem_print {byte : UInt8} (h : byte ∈ print n) : isDigit byte = true :=
  List.all_eq_true.mp (all_isDigit_print n) byte h

private theorem valueFrom_reverse_digits (digits : List ℕ) (h : ∀ d ∈ digits, d < 10) :
    valueFrom 0 (digits.map digit).reverse = Nat.ofDigits 10 digits := by
  unfold valueFrom
  rw [List.foldl_reverse]
  induction digits with
  | nil => rfl
  | cons d rest ih =>
    have hd : (digit d).toNat = 48 + d := digit_toNat (h d (by simp))
    have hrest := ih fun e he => h e (by simp [he])
    simp only [List.map_cons, List.foldr_cons, hrest, hd, Nat.ofDigits_cons]
    omega

theorem valueFrom_print (n : ℕ) : valueFrom 0 (print n) = n := by
  unfold print
  split
  · subst n
    rfl
  · rw [valueFrom_reverse_digits _ fun d hd => Nat.digits_lt_base (by norm_num) hd]
    exact Nat.ofDigits_digits 10 n

/-- Reading undoes printing. -/
@[simp] theorem parse_print (n : ℕ) : parse (print n) = some n := by
  simp [parse, print_ne_nil, all_isDigit_print, valueFrom_print]

theorem length_print_le {k : ℕ} (hk : 0 < k) (h : n < 10 ^ k) : (print n).length ≤ k := by
  unfold print
  split
  · exact hk
  · simpa using (Nat.digits_length_le_iff (by decide) n).mpr h

theorem print_injective : Function.Injective print := by
  intro m n h
  simpa using congrArg parse h

end Decimal
