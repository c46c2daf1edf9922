import Mathlib.Data.List.Basic
import Mathlib.Tactic.Ring

/-!
# Reading what was written

A reader takes a value off the front of some bytes, or fails.  `Reads` relates it to
the bytes of one value: it takes exactly these, whatever is behind them, and it fails if
they are cut short anywhere.  Readers that run one after the other read what was written
one behind the other (`Reads.bind`), so a format is followed construct by construct.
`Takes` is the other direction: whatever the reader accepts has a given form, and it leaves
exactly what is behind it.

The last part is about unsigned integers of a fixed number of bytes, in either order.
-/

namespace Wire

variable {width n : ℕ}

variable {ε α β : Type}

/-- A reader of a value, with failures in `ε`. -/
abbrev Reader (ε α : Type) := StateT (List UInt8) (Except ε) α

/-- The reader takes the value off these bytes.  Where they are cut short, it fails in a
way that counts as a refusal. -/
structure Reads (Refused : ε → Prop) (reader : Reader ε α) (bytes : List UInt8) (value : α) :
    Prop where
  whole : ∀ rest, reader (bytes ++ rest) = .ok (value, rest)
  cut : ∀ {front}, front <+: bytes → front ≠ bytes →
    ∃ fault, Refused fault ∧ reader front = .error fault

/-- Two runs of bytes are cut short in the first or in the second one. -/
theorem cut_append {front first second : List UInt8} (h : front <+: first ++ second) :
    (front <+: first ∧ front ≠ first) ∨ ∃ tail, front = first ++ tail ∧ tail <+: second := by
  rcases Nat.lt_or_ge front.length first.length with hshort | hlong
  · refine .inl ⟨List.prefix_of_prefix_length_le h (List.prefix_append _ _) (by omega), ?_⟩
    rintro rfl
    exact Nat.lt_irrefl _ hshort
  · obtain ⟨tail, rfl⟩ : first <+: front :=
      List.prefix_of_prefix_length_le (List.prefix_append _ _) h hlong
    exact .inr ⟨tail, rfl, (List.prefix_append_right_inj _).mp h⟩

section Rules

variable {Refused : ε → Prop} {reader : Reader ε α} {next : α → Reader ε β}

theorem reads_pure (value : α) : Reads Refused (pure value : Reader ε α) [] value where
  whole _ := rfl
  cut h hne := absurd (List.prefix_nil.mp h) hne

/-- **The rule for one reader after the other.** -/
theorem Reads.bind {first second : List UInt8}
    {value : α} {result : β} (hfirst : Reads Refused reader first value)
    (hsecond : Reads Refused (next value) second result) :
    Reads Refused (reader >>= next) (first ++ second) result where
  whole rest := by
    have hrun : (reader >>= next) (first ++ second ++ rest) = next value (second ++ rest) := by
      rw [List.append_assoc]
      show (reader (first ++ (second ++ rest))).bind (fun outcome => next outcome.1 outcome.2) = _
      rw [hfirst.whole]
      rfl
    rw [hrun, hsecond.whole]
  cut {front} h hne := by
    rcases cut_append h with ⟨hcut, hshort⟩ | ⟨tail, rfl, htail⟩
    · obtain ⟨fault, hrefused, hfault⟩ := hfirst.cut hcut hshort
      refine ⟨fault, hrefused, ?_⟩
      show (reader front).bind (fun outcome => next outcome.1 outcome.2) = _
      rw [hfault]
      rfl
    · obtain ⟨fault, hrefused, hfault⟩ := hsecond.cut htail (by rintro rfl; exact hne rfl)
      refine ⟨fault, hrefused, ?_⟩
      show (reader (first ++ tail)).bind (fun outcome => next outcome.1 outcome.2) = _
      rw [hfirst.whole]
      exact hfault

/-- A result that is computed from what was read. -/
theorem Reads.map {bytes : List UInt8} {value : α} {result : β}
    (h : Reads Refused reader bytes value)
    (hnext : next value = pure result) : Reads Refused (reader >>= next) bytes result := by
  have hbind := h.bind (hnext ▸ reads_pure result)
  rwa [List.append_nil] at hbind

end Rules

/-! ## What is accepted -/

/-- Whatever the reader takes off the front has this form. -/
def Takes (reader : Reader ε α) (Form : List UInt8 → α → Prop) : Prop :=
  ∀ ⦃bytes rest value⦄, reader bytes = .ok (value, rest) →
    ∃ taken, bytes = taken ++ rest ∧ Form taken value

/-- The reader fails in these ways only. -/
def Faults (Allowed : ε → Prop) (reader : Reader ε α) : Prop :=
  ∀ ⦃bytes fault⦄, reader bytes = .error fault → Allowed fault

/-- One reader after the other: the first one fails, or the second one goes on behind it. -/
theorem bind_apply (reader : Reader ε α) (next : α → Reader ε β) (bytes : List UInt8) :
    (reader >>= next) bytes = (reader bytes).bind fun outcome => next outcome.1 outcome.2 := rfl

/-- A failure is one of the first reader, or of the second one behind it. -/
theorem bind_eq_error {reader : Reader ε α} {next : α → Reader ε β} {bytes : List UInt8} {fault : ε}
    (h : (reader >>= next) bytes = .error fault) :
    reader bytes = .error fault ∨
      ∃ value rest, reader bytes = .ok (value, rest) ∧ next value rest = .error fault := by
  rw [bind_apply] at h
  cases hvalue : reader bytes with
  | error other =>
    rw [hvalue] at h
    cases h
    exact .inl rfl
  | ok outcome =>
    rw [hvalue] at h
    exact .inr ⟨outcome.1, outcome.2, rfl, h⟩

section Accepted

variable {reader : Reader ε α} {Form : List UInt8 → α → Prop}

theorem takes_pure (value : α) :
    Takes (pure value : Reader ε α) fun taken result => taken = [] ∧ result = value := by
  rintro bytes rest result ⟨⟩
  exact ⟨[], rfl, rfl, rfl⟩

theorem Takes.mono {Weaker : List UInt8 → α → Prop} (h : Takes reader Form)
    (hweaker : ∀ taken value, Form taken value → Weaker taken value) : Takes reader Weaker := by
  intro bytes rest value hread
  obtain ⟨taken, hbytes, hform⟩ := h hread
  exact ⟨taken, hbytes, hweaker taken value hform⟩

/-- A check takes nothing. -/
theorem takes_check (condition : Prop) [Decidable condition] (value : α) {fault : ε} :
    Takes (if condition then throw fault else pure value : Reader ε α)
      fun taken result => ¬ condition ∧ taken = [] ∧ result = value := by
  split
  · rintro bytes rest result ⟨⟩
  · rename_i hcondition
    exact (takes_pure value).mono fun _ _ htaken => ⟨hcondition, htaken⟩

/-- **The rule for one reader after the other**: what they take stands one behind the other. -/
theorem Takes.bind {next : α → Reader ε β} {After : α → List UInt8 → β → Prop}
    (hfirst : Takes reader Form) (hsecond : ∀ value, Takes (next value) (After value)) :
    Takes (reader >>= next) fun taken result =>
      ∃ first second value, taken = first ++ second ∧ Form first value ∧
        After value second result := by
  intro bytes rest result hread
  rw [bind_apply] at hread
  cases hvalue : reader bytes with
  | error fault =>
    rw [hvalue] at hread
    cases hread
  | ok outcome =>
    obtain ⟨value, middle⟩ := outcome
    rw [hvalue] at hread
    obtain ⟨first, rfl, hform⟩ := hfirst hvalue
    obtain ⟨second, rfl, hafter⟩ := hsecond value hread
    exact ⟨first ++ second, (List.append_assoc _ _ _).symm, first, second, value, rfl, hform,
      hafter⟩

variable {Allowed : ε → Prop}

theorem faults_pure (value : α) : Faults Allowed (pure value : Reader ε α) := by
  rintro bytes fault ⟨⟩

theorem faults_throw {fault : ε} (h : Allowed fault) :
    Faults Allowed (throw fault : Reader ε α) := by
  rintro bytes other ⟨⟩
  exact h

theorem Faults.bind {next : α → Reader ε β} (hfirst : Faults Allowed reader)
    (hsecond : ∀ value, Faults Allowed (next value)) : Faults Allowed (reader >>= next) := by
  intro bytes fault hread
  rcases bind_eq_error hread with hfault | ⟨value, rest, -, hnext⟩
  · exact hfirst hfault
  · exact hsecond value hnext

theorem Faults.ite {condition : Prop} [Decidable condition] {other : Reader ε α}
    (h : Faults Allowed reader) (hother : Faults Allowed other) :
    Faults Allowed (if condition then reader else other) := by
  split
  · exact h
  · exact hother

end Accepted

/-! ## Bytes -/

def readByte (fault : ε) : Reader ε UInt8
  | [] => .error fault
  | byte :: rest => .ok (byte, rest)

def readBytes (fault : ε) (count : ℕ) : Reader ε (List UInt8) := fun bytes =>
  if count > bytes.length then .error fault else .ok (bytes.take count, bytes.drop count)

section Bytes

variable {Refused : ε → Prop} {fault : ε}

theorem reads_byte (hrefused : Refused fault) (byte : UInt8) :
    Reads Refused (readByte fault) [byte] byte where
  whole _ := rfl
  cut {front} h hne := by
    have hempty : front = [] := by
      rcases List.prefix_cons_iff.mp h with hnil | ⟨tail, rfl, htail⟩
      · exact hnil
      · exact absurd (by rw [List.prefix_nil.mp htail]) hne
    exact ⟨fault, hrefused, by rw [hempty]; rfl⟩

theorem reads_bytes (hrefused : Refused fault) (bytes : List UInt8) :
    Reads Refused (readBytes fault bytes.length) bytes bytes where
  whole rest := by
    rw [readBytes, if_neg (by rw [List.length_append]; omega), List.take_left, List.drop_left]
  cut {front} h hne := by
    have hshort : front.length < bytes.length := by
      refine lt_of_le_of_ne h.length_le fun heq => hne (h.eq_of_length heq)
    exact ⟨fault, hrefused, if_pos hshort⟩

theorem takes_byte (fault : ε) : Takes (readByte fault) fun taken byte => taken = [byte] := by
  intro bytes rest byte hread
  cases bytes with
  | nil => cases hread
  | cons first rest =>
    cases hread
    exact ⟨[_], rfl, rfl⟩

theorem takes_bytes (fault : ε) (count : ℕ) :
    Takes (readBytes fault count) fun taken bytes => taken = bytes ∧ bytes.length = count := by
  intro bytes rest value hread
  unfold readBytes at hread
  split at hread
  · cases hread
  · rename_i henough
    cases hread
    refine ⟨bytes.take count, (List.take_append_drop count bytes).symm, rfl, ?_⟩
    rw [List.length_take]
    omega

theorem faults_byte (hallowed : Refused fault) : Faults Refused (readByte fault) := by
  intro bytes other hread
  cases bytes with
  | nil =>
    cases hread
    exact hallowed
  | cons first rest => cases hread

theorem faults_bytes (hallowed : Refused fault) (count : ℕ) :
    Faults Refused (readBytes fault count) := by
  intro bytes other hread
  unfold readBytes at hread
  split at hread
  · cases hread
    exact hallowed
  · cases hread

end Bytes

/-! ## Integers -/

/-- The number of bytes, the least significant one first. -/
def value : List UInt8 → ℕ
  | [] => 0
  | byte :: rest => byte.toNat + 256 * value rest

/-- So many bytes of a number, the least significant one first. -/
def littleBytes : ℕ → ℕ → List UInt8
  | 0, _ => []
  | width + 1, n => UInt8.ofNat n :: littleBytes width (n / 256)

def bigBytes (width n : ℕ) : List UInt8 := (littleBytes width n).reverse

/-- The loop that puts bytes together, the least significant one first. -/
def littleEndian (bytes : List UInt8) : ℕ :=
  bytes.zipIdx.foldl (fun result item => result ||| item.1.toNat <<< (item.2 * 8)) 0

/-- The loop that puts bytes together, the most significant one first. -/
def bigEndian (bytes : List UInt8) : ℕ :=
  bytes.foldl (fun result byte => result <<< 8 ||| byte.toNat) 0

theorem length_littleBytes (width n : ℕ) : (littleBytes width n).length = width := by
  induction width generalizing n with
  | zero => rfl
  | succ width ih => rw [littleBytes, List.length_cons, ih]

theorem length_bigBytes (width n : ℕ) : (bigBytes width n).length = width := by
  rw [bigBytes, List.length_reverse, length_littleBytes]

theorem value_littleBytes (h : n < 256 ^ width) : value (littleBytes width n) = n := by
  induction width generalizing n with
  | zero =>
    obtain rfl : n = 0 := by simpa using h
    rfl
  | succ width ih =>
    have hlow : (UInt8.ofNat n).toNat = n % 256 := UInt8.toNat_ofNat'
    have hhigh : n / 256 < 256 ^ width := by
      rw [Nat.div_lt_iff_lt_mul (by decide), ← pow_succ]
      exact h
    rw [littleBytes, value, ih hhigh, hlow]
    omega

theorem littleBytes_value (bytes : List UInt8) :
    littleBytes bytes.length (value bytes) = bytes := by
  induction bytes with
  | nil => rfl
  | cons byte rest ih =>
    have hbyte : byte.toNat < 256 := byte.toNat_lt
    have hlow : UInt8.ofNat (byte.toNat + 256 * value rest) = byte := by
      apply UInt8.toNat_inj.mp
      rw [UInt8.toNat_ofNat']
      omega
    have hhigh : (byte.toNat + 256 * value rest) / 256 = value rest := by omega
    rw [List.length_cons, littleBytes, value, hlow, hhigh, ih]

theorem value_lt (bytes : List UInt8) : value bytes < 256 ^ bytes.length := by
  induction bytes with
  | nil => decide
  | cons byte rest ih =>
    have hbyte : byte.toNat < 256 := byte.toNat_lt
    rw [value, List.length_cons, pow_succ]
    omega

theorem littleEndian_eq_value (bytes : List UInt8) : littleEndian bytes = value bytes := by
  -- with bytes put together already, those that come have the bits above them
  have hloop : ∀ (bytes : List UInt8) (index result : ℕ), result < 2 ^ (index * 8) →
      (bytes.zipIdx index).foldl (fun result item => result ||| item.1.toNat <<< (item.2 * 8))
        result = result + 2 ^ (index * 8) * value bytes := by
    intro bytes
    induction bytes with
    | nil => intro index result _; simp [value]
    | cons byte rest ih =>
      intro index result hresult
      have hbyte : byte.toNat < 256 := byte.toNat_lt
      have hor : result ||| byte.toNat <<< (index * 8) =
          result + 2 ^ (index * 8) * byte.toNat := by
        rw [Nat.or_comm, ← Nat.shiftLeft_add_eq_or_of_lt hresult, Nat.shiftLeft_eq]
        ring
      have hpow : 2 ^ ((index + 1) * 8) = 2 ^ (index * 8) * 256 := by
        rw [Nat.add_mul, pow_add]
        norm_num
      have hnext : result + 2 ^ (index * 8) * byte.toNat < 2 ^ ((index + 1) * 8) := by
        calc result + 2 ^ (index * 8) * byte.toNat
            < 2 ^ (index * 8) + 2 ^ (index * 8) * byte.toNat := Nat.add_lt_add_right hresult _
          _ = 2 ^ (index * 8) * (byte.toNat + 1) := by ring
          _ ≤ 2 ^ (index * 8) * 256 := Nat.mul_le_mul_left _ hbyte
          _ = 2 ^ ((index + 1) * 8) := hpow.symm
      rw [List.zipIdx_cons, List.foldl_cons, hor, ih _ _ hnext, hpow, value]
      ring
  have hwhole := hloop bytes 0 0 (by norm_num)
  simpa [littleEndian] using hwhole

theorem bigEndian_eq_value (bytes : List UInt8) : bigEndian bytes.reverse = value bytes := by
  induction bytes with
  | nil => rfl
  | cons byte rest ih =>
    have hbyte : byte.toNat < 2 ^ 8 := byte.toNat_lt
    rw [bigEndian, List.reverse_cons, List.foldl_append, List.foldl_cons, List.foldl_nil,
      ← Nat.shiftLeft_add_eq_or_of_lt hbyte, Nat.shiftLeft_eq, value]
    rw [bigEndian] at ih
    rw [ih]
    ring

/-- Reading undoes writing, in both orders. -/
theorem littleEndian_littleBytes (h : n < 256 ^ width) :
    littleEndian (littleBytes width n) = n := by
  rw [littleEndian_eq_value, value_littleBytes h]

theorem bigEndian_bigBytes (h : n < 256 ^ width) : bigEndian (bigBytes width n) = n := by
  rw [bigBytes, bigEndian_eq_value, value_littleBytes h]

/-- All bytes are the bytes of a number. -/
theorem littleBytes_littleEndian (bytes : List UInt8) :
    littleBytes bytes.length (littleEndian bytes) = bytes := by
  rw [littleEndian_eq_value, littleBytes_value]

theorem littleEndian_lt (bytes : List UInt8) : littleEndian bytes < 256 ^ bytes.length :=
  littleEndian_eq_value bytes ▸ value_lt bytes

theorem bigBytes_bigEndian (bytes : List UInt8) :
    bigBytes bytes.length (bigEndian bytes) = bytes := by
  have hvalue : bigEndian bytes = value bytes.reverse := by
    rw [← bigEndian_eq_value, List.reverse_reverse]
  have hbytes := littleBytes_value bytes.reverse
  rw [List.length_reverse] at hbytes
  rw [bigBytes, hvalue, hbytes, List.reverse_reverse]

theorem bigEndian_lt (bytes : List UInt8) : bigEndian bytes < 256 ^ bytes.length := by
  have hlt := value_lt bytes.reverse
  rwa [← bigEndian_eq_value, List.reverse_reverse, List.length_reverse] at hlt

end Wire
