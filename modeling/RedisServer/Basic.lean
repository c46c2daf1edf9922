import RedisServer.Library.Decimal

/-!
# Bytes, machine integers and clocks

The source keeps every text in a `std::string`, which is a sequence of arbitrary
bytes; here it is a list of bytes.  Numbers in texts are read with
`std::from_chars`, always with the same check around it: the text must be
non-empty, be consumed whole and be in the range of the type.
-/

namespace RedisServer

/-- A `std::string`: arbitrary bytes. -/
abbrev Bytes := List UInt8

instance : LawfulBEq Bytes := inferInstance

/-- The bytes of a string literal of the source; all of them are ASCII. -/
def ascii (text : String) : Bytes := text.toList.map fun c => UInt8.ofNat c.toNat

/-- Two's complement wrap-around of a signed 64-bit result. -/
def wrap64 (n : Int) : Int := n.bmod (2 ^ 64)

/-- One look at the clocks: `steady_clock` in nanoseconds, and `system_clock` in
milliseconds since the epoch. -/
structure Clock where
  steady : Int
  system : Int
deriving DecidableEq, Repr

/-! ## Reading numbers -/

/-- `std::from_chars` into an unsigned 64-bit integer, over the whole text. -/
def parseUnsigned (text : Bytes) : Option ℕ :=
  (Decimal.parse text).filter fun n => decide (n < 2 ^ 64)

/-- `std::from_chars` into a signed integer of the given width, over the whole
text: an optional minus sign, then digits. -/
def parseSigned (bits : ℕ) (text : Bytes) : Option Int :=
  let value : Option Int :=
    match text with
    | 45 :: digits => (Decimal.parse digits).map fun n => -(n : Int)
    | digits => (Decimal.parse digits).map fun n => (n : Int)
  value.filter fun n => decide (-2 ^ (bits - 1) ≤ n) && decide (n < 2 ^ (bits - 1))

/-- `std::to_string` of a signed integer. -/
def printSigned (n : Int) : Bytes :=
  if n < 0 then 45 :: Decimal.print n.natAbs else Decimal.print n.natAbs

theorem parseUnsigned_print {n : ℕ} (h : n < 2 ^ 64) :
    parseUnsigned (Decimal.print n) = some n := by
  simp only [parseUnsigned, Decimal.parse_print, Option.filter, decide_eq_true_eq]
  rw [if_pos h]

end RedisServer
