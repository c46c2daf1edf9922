import Mathlib.Data.List.DropRight
import RedisServer.Rdb

/-!
# The supported part of the RDB format

There is no writer of RDB files in the source, so the format is stated here: `Item.bytes`
writes an item in any of the encodings that the reader supports.  The reader gets back
the entries with their expiries, and it refuses every file that ends before its end
marker (`decoding_exact`).

Each construct has a lemma that the reader takes exactly its bytes (`Wire.Reads`); the
rule for one reader after the other puts them together.
-/

namespace RedisServer.Rdb

open Wire

variable {n : ℕ}

/-! ## Lengths -/

/-- The four ways of writing a length. -/
inductive LengthForm where
  | sixBit
  | fourteenBit
  | thirtyTwoBit
  | sixtyFourBit
deriving DecidableEq, Repr

namespace LengthForm

def limit : LengthForm → ℕ
  | sixBit => 2 ^ 6
  | fourteenBit => 2 ^ 14
  | thirtyTwoBit => 2 ^ 32
  | sixtyFourBit => 2 ^ 64

/-- The bytes of a length; the upper bits of the first byte say which form it is. -/
def bytes (length : ℕ) : LengthForm → Bytes
  | sixBit => [UInt8.ofNat length]
  | fourteenBit => [UInt8.ofNat (64 + length / 256), UInt8.ofNat length]
  | thirtyTwoBit => 0x80 :: bigBytes 4 length
  | sixtyFourBit => 0x81 :: bigBytes 8 length

end LengthForm

/-- A length in a form that has room for it. -/
structure PlainLength where
  form : LengthForm
  value : ℕ
  fits : value < form.limit

def PlainLength.bytes (length : PlainLength) : Bytes := length.form.bytes length.value

/-! ## Strings -/

/-- The three widths of integers. -/
inductive IntegerForm where
  | eightBit
  | sixteenBit
  | thirtyTwoBit
deriving DecidableEq, Repr

namespace IntegerForm

def width : IntegerForm → ℕ
  | eightBit => 1
  | sixteenBit => 2
  | thirtyTwoBit => 4

def index : IntegerForm → ℕ
  | eightBit => 0
  | sixteenBit => 1
  | thirtyTwoBit => 2

/-- The byte in the place of a length. -/
def tag (form : IntegerForm) : UInt8 := UInt8.ofNat (0xc0 + form.index)

end IntegerForm

/-- A string, as bytes behind their length or as an integer in two's complement. -/
inductive Text where
  | raw (form : LengthForm) (text : Bytes) (fits : text.length < form.limit)
  | integer (form : IntegerForm) (value : Int)
      (fits : -2 ^ (8 * form.width - 1) ≤ value ∧ value < 2 ^ (8 * form.width - 1))

namespace Text

def bytes : Text → Bytes
  | raw form text _ => form.bytes text.length ++ text
  | integer form value _ =>
    form.tag :: littleBytes form.width (value % (256 ^ form.width : ℕ)).toNat

/-- What the string says. -/
def decoded : Text → Bytes
  | raw _ text _ => text
  | integer _ value _ => printSigned value

end Text

/-! ## Items -/

inductive Item where
  | auxiliary (key value : Text)
  /-- The database is always 0. -/
  | selectDatabase (form : LengthForm)
  | resizeDatabase (keyCount expiringKeyCount : PlainLength)
  | idle (time : PlainLength)
  | frequency (count : UInt8)
  | expireTimeMs (time : UInt64)
  | expireTimeSeconds (time : UInt32)
  | entry (key value : Text)

namespace Item

def marker : Item → UInt8
  | idle _ => 248
  | frequency _ => 249
  | auxiliary _ _ => 250
  | resizeDatabase _ _ => 251
  | expireTimeMs _ => 252
  | expireTimeSeconds _ => 253
  | selectDatabase _ => 254
  | entry _ _ => 0

def body : Item → Bytes
  | auxiliary key value | entry key value => key.bytes ++ value.bytes
  | selectDatabase form => form.bytes 0
  | resizeDatabase keyCount expiringKeyCount => keyCount.bytes ++ expiringKeyCount.bytes
  | idle time => time.bytes
  | frequency count => [count]
  | expireTimeMs time => littleBytes 8 time.toNat
  | expireTimeSeconds time => littleBytes 4 time.toNat

def bytes (item : Item) : Bytes := item.marker :: item.body

/-- The expiry that an item states, in milliseconds. -/
def expiry : Item → Option UInt64
  | expireTimeMs time => some time
  | expireTimeSeconds time => some (UInt64.ofNat (time.toNat * 1000))
  | _ => none

def isEntry : Item → Bool
  | entry _ _ => true
  | _ => false

/-- There is room for the number of keys that is announced. -/
def modest (capacity : ℕ) : Item → Prop
  | resizeDatabase keyCount _ => keyCount.value ≤ capacity
  | _ => True

end Item

/-- The last expiry since the last entry. -/
def lastExpiry (items : List Item) : Option UInt64 :=
  ((items.rtakeWhile fun item => !item.isEntry).filterMap Item.expiry).getLast?

/-- The entries of a file: each with the last expiry that was stated since the entry
before. -/
def entriesOf (items : List Item) : List StringEntry :=
  (List.range items.length).filterMap fun (position : ℕ) =>
    match items[position]? with
    | some (.entry key value) =>
      some ⟨key.decoded, value.decoded, lastExpiry (items.take position)⟩
    | _ => none

/-- A file up to its end marker. -/
structure File where
  version : Bytes
  items : List Item
  length_version : version.length = 4
  digits_version : ∀ character ∈ version, 48 ≤ character ∧ character ≤ 57

def File.bytes (file : File) : Bytes :=
  ascii "REDIS" ++ file.version ++ file.items.flatMap Item.bytes

/-! ## Reading lengths -/

/-- `parse` returned an error. -/
def Refused (failure : Failure) : Prop := ∃ message, failure = .error message

theorem refused_unexpectedEnd : Refused unexpectedEnd := ⟨_, rfl⟩

theorem reads_readByte (byte : UInt8) : Reads Refused readByte [byte] byte :=
  reads_byte refused_unexpectedEnd byte

theorem reads_readBytes {bytes : Bytes} {count : ℕ} (h : bytes.length = count) :
    Reads Refused (readBytes count) bytes bytes := by
  subst h
  exact reads_bytes refused_unexpectedEnd bytes

theorem reads_u32 (h : n < 2 ^ 32) : Reads Refused readU32LittleEndian (littleBytes 4 n) n :=
  (reads_readBytes (length_littleBytes 4 n)).map
    (congrArg pure (littleEndian_littleBytes (lt_of_lt_of_eq h (by norm_num))))

theorem reads_u64 (h : n < 2 ^ 64) : Reads Refused readU64LittleEndian (littleBytes 8 n) n :=
  (reads_readBytes (length_littleBytes 8 n)).map
    (congrArg pure (littleEndian_littleBytes (lt_of_lt_of_eq h (by norm_num))))

theorem toNat_ofNat_of_lt (h : n < 256) : (UInt8.ofNat n).toNat = n := by
  rw [UInt8.toNat_ofNat']
  exact Nat.mod_eq_of_lt h

/-- The two upper bits of a byte, and the six lower ones. -/
theorem shiftRight_six (n : ℕ) : n >>> 6 = n / 64 := Nat.shiftRight_eq_div_pow n 6

theorem and_sixBits (n : ℕ) : n &&& 0x3f = n % 64 := Nat.and_two_pow_sub_one_eq_mod n 6

theorem reads_length {form : LengthForm} (h : n < form.limit) :
    Reads Refused readLength (form.bytes n) ⟨n, false⟩ := by
  cases form with
  | sixBit =>
    have hsmall : n < 64 := h
    refine (reads_readByte _).map ?_
    rw [readLengthAfter, toNat_ofNat_of_lt (by omega), shiftRight_six, and_sixBits]
    simp only [Nat.div_eq_of_lt hsmall, Nat.mod_eq_of_lt hsmall, if_true]
  | fourteenBit =>
    have hsmall : n < 16384 := h
    have hfirst : (UInt8.ofNat (64 + n / 256)).toNat = 64 + n / 256 :=
      toNat_ofNat_of_lt (by omega)
    have hkind : (64 + n / 256) / 64 = 1 := by omega
    have hhigh : (64 + n / 256) % 64 = n / 256 := by omega
    have hlow : (UInt8.ofNat n).toNat = n % 256 := UInt8.toNat_ofNat'
    have hjoined : (n / 256) <<< 8 ||| n % 256 = n := by
      rw [← Nat.shiftLeft_add_eq_or_of_lt (Nat.mod_lt n (by decide)), Nat.shiftLeft_eq]
      omega
    refine (reads_readByte _).bind ?_
    rw [readLengthAfter, hfirst, shiftRight_six, and_sixBits, hkind, hhigh]
    refine (reads_readByte _).map ?_
    rw [hlow, hjoined]
  | thirtyTwoBit =>
    have hvalue := bigEndian_bigBytes (lt_of_lt_of_eq h (show 2 ^ 32 = 256 ^ 4 by norm_num))
    exact (reads_readByte 0x80).bind
      ((reads_readBytes (length_bigBytes 4 n)).map (by rw [hvalue]))
  | sixtyFourBit =>
    have hvalue := bigEndian_bigBytes (lt_of_lt_of_eq h (show 2 ^ 64 = 256 ^ 8 by norm_num))
    exact (reads_readByte 0x81).bind
      ((reads_readBytes (length_bigBytes 8 n)).map (by rw [hvalue]))

theorem reads_plainLength (length : PlainLength) :
    Reads Refused readPlainLength length.bytes length.value :=
  (reads_length length.fits).map rfl

/-! ## Reading strings -/

/-- The tag of an integer is read as a length of its own kind. -/
theorem reads_tag (form : IntegerForm) :
    Reads Refused readLength [form.tag] ⟨form.index, true⟩ := by
  cases form with
  | eightBit => exact (reads_readByte 0xc0).map rfl
  | sixteenBit => exact (reads_readByte 0xc1).map rfl
  | thirtyTwoBit => exact (reads_readByte 0xc2).map rfl

/-- What is behind the tag is read as a residue. -/
theorem reads_residue {form : IntegerForm} (h : n < 256 ^ form.width) :
    Reads Refused (readStringAfter ⟨form.index, true⟩) (littleBytes form.width n)
      (printSigned (Int.bmod n (256 ^ form.width))) := by
  cases form with
  | eightBit =>
    have hbyte : (UInt8.ofNat n).toNat = n := toNat_ofNat_of_lt h
    have hread : readStringAfter ⟨0, true⟩ =
        readByte >>= fun value => pure (printSigned (Int.bmod value.toNat (256 ^ 1))) := rfl
    refine hread ▸ (reads_readByte _).map ?_
    rw [hbyte]
    rfl
  | sixteenBit =>
    have hread : readStringAfter ⟨1, true⟩ =
        readBytes 2 >>= fun bytes => pure (printSigned (Int.bmod (littleEndian bytes) (256 ^ 2))) :=
      rfl
    have hbytes : littleEndian (littleBytes 2 n) = n := littleEndian_littleBytes h
    refine hread ▸ (reads_readBytes (length_littleBytes 2 n)).map ?_
    rw [hbytes]
    rfl
  | thirtyTwoBit =>
    have hread : readStringAfter ⟨2, true⟩ =
        readU32LittleEndian >>= fun value => pure (printSigned (Int.bmod value (256 ^ 4))) := rfl
    exact hread ▸ (reads_u32 (lt_of_lt_of_eq h (by norm_num [IntegerForm.width]))).map rfl

/-- Two's complement of a number that has room. -/
theorem bmod_residue {modulus : ℕ} {value : Int} (hpos : 0 < modulus)
    (hlow : -(modulus / 2 : Int) ≤ value) (hhigh : value < (modulus + 1 : Int) / 2) :
    Int.bmod (value % modulus).toNat modulus = value := by
  rw [Int.toNat_of_nonneg (Int.emod_nonneg _ (by omega)), Int.emod_bmod,
    Int.bmod_eq_of_le hlow hhigh]

theorem residue_lt {modulus : ℕ} (hpos : 0 < modulus) (value : Int) :
    (value % modulus).toNat < modulus := by
  have hlt := Int.emod_lt_of_pos value (show (0 : Int) < modulus by omega)
  omega

theorem reads_text (text : Text) : Reads Refused readString text.bytes text.decoded := by
  cases text with
  | raw form bytes fits =>
    have hsize : ¬ bytes.length > 2 ^ 64 - 1 := by
      have hlimit : form.limit ≤ 2 ^ 64 := by cases form <;> decide
      omega
    refine (reads_length fits).bind ?_
    rw [readStringAfter, if_pos rfl, if_neg hsize]
    exact reads_readBytes rfl
  | integer form value fits =>
    have hpos : 0 < 256 ^ form.width := Nat.pow_pos (by decide)
    have hvalue : Int.bmod (value % (256 ^ form.width : ℕ)).toNat (256 ^ form.width) = value := by
      cases form <;> exact bmod_residue hpos fits.1 fits.2
    have hread := reads_residue (residue_lt hpos value)
    rw [hvalue] at hread
    exact (reads_tag form).bind hread

/-! ## Reading items -/

/-- What an item adds to the progress of the loop. -/
def Progress.advance (progress : Progress) (item : Item) : Progress :=
  match item with
  | .entry key value =>
    ⟨none, progress.entries ++ [⟨key.decoded, value.decoded, progress.pendingExpiration⟩]⟩
  | item => { progress with pendingExpiration := item.expiry.or progress.pendingExpiration }

/-- **The body of the loop reads one item.** -/
theorem reads_item {capacity : ℕ} {item : Item} (hmodest : item.modest capacity)
    (progress : Progress) :
    Reads Refused (readItem capacity item.marker progress) item.body (progress.advance item) := by
  cases item with
  | auxiliary key value => exact (reads_text key).bind ((reads_text value).map rfl)
  | selectDatabase form =>
    have hzero : 0 < form.limit := by cases form <;> decide
    exact (reads_plainLength ⟨form, 0, hzero⟩).map rfl
  | resizeDatabase keyCount expiringKeyCount =>
    refine (reads_plainLength keyCount).bind ((reads_plainLength expiringKeyCount).map ?_)
    rw [if_neg (Nat.not_lt.mpr hmodest)]
    rfl
  | idle time => exact (reads_plainLength time).map rfl
  | frequency count => exact (reads_readByte count).map rfl
  | expireTimeMs time =>
    refine (reads_u64 time.toNat_lt).map ?_
    rw [UInt64.ofNat_toNat]
    rfl
  | expireTimeSeconds time =>
    refine (reads_u32 time.toNat_lt).map (congrArg pure ?_)
    simp only [Progress.advance, Item.expiry, UInt64.ofNat_mul]
    rfl
  | entry key value => exact (reads_text key).bind ((reads_text value).map rfl)

theorem marker_ne_end (item : Item) : item.marker ≠ 255 := by
  cases item <;> simp [Item.marker]

/-! ## Reading files -/

section Files

variable {capacity : ℕ} {items : List Item}

/-- The loop reads the items one after the other, up to the end marker. -/
theorem parseItems_whole (hmodest : ∀ item ∈ items, item.modest capacity) {fuel : ℕ}
    (hfuel : (items.flatMap Item.bytes).length < fuel) (trailing : Bytes) (progress : Progress) :
    parseItems capacity fuel (items.flatMap Item.bytes ++ 255 :: trailing) progress =
      .ok (items.foldl Progress.advance progress).entries := by
  induction items generalizing fuel progress with
  | nil =>
    obtain ⟨fuel, rfl⟩ := Nat.exists_eq_add_of_lt hfuel
    rfl
  | cons item items ih =>
    obtain ⟨fuel, rfl⟩ := Nat.exists_eq_succ_of_ne_zero (Nat.ne_zero_of_lt hfuel)
    have hread := (reads_item (hmodest item (by simp)) progress).whole
      (items.flatMap Item.bytes ++ 255 :: trailing)
    rw [List.flatMap_cons, Item.bytes, List.cons_append, List.cons_append, List.append_assoc,
      parseItems, if_neg (marker_ne_end item), hread]
    rw [List.flatMap_cons, Item.bytes, List.length_append, List.length_cons] at hfuel
    exact ih (fun other hother => hmodest other (by simp [hother])) (by omega) _

/-- Where the file is cut off between two items, its end marker is missing; where it is
cut off inside an item, that item cannot be read. -/
theorem parseItems_cut (hmodest : ∀ item ∈ items, item.modest capacity) {fuel : ℕ} {front : Bytes}
    (hfront : front <+: items.flatMap Item.bytes) (progress : Progress) :
    ∃ failure, Refused failure ∧ parseItems capacity fuel front progress = .error failure := by
  induction items generalizing fuel front progress with
  | nil =>
    obtain rfl := List.prefix_nil.mp hfront
    cases fuel <;> exact ⟨_, ⟨_, rfl⟩, rfl⟩
  | cons item items ih =>
    cases fuel with
    | zero => exact ⟨_, ⟨_, rfl⟩, rfl⟩
    | succ fuel =>
      cases front with
      | nil => exact ⟨_, ⟨_, rfl⟩, rfl⟩
      | cons marker front =>
        rw [List.flatMap_cons, Item.bytes, List.cons_append, List.cons_prefix_cons] at hfront
        obtain ⟨rfl, hfront⟩ := hfront
        have hread := reads_item (hmodest item (by simp)) progress
        rw [parseItems, if_neg (marker_ne_end item)]
        rcases cut_append hfront with ⟨hcut, hshort⟩ | ⟨tail, rfl, htail⟩
        · obtain ⟨failure, hrefused, hfailure⟩ := hread.cut hcut hshort
          exact ⟨failure, hrefused, by rw [hfailure]⟩
        · rw [hread.whole]
          exact ih (fun other hother => hmodest other (by simp [hother])) htail _

theorem lastExpiry_concat (items : List Item) (item : Item) :
    lastExpiry (items ++ [item]) =
      if item.isEntry then none else item.expiry.or (lastExpiry items) := by
  unfold lastExpiry
  rw [List.rtakeWhile_concat]
  cases hentry : item.isEntry with
  | true => rfl
  | false =>
    cases hexpiry : item.expiry with
    | none => simp [hexpiry]
    | some expiry => simp [hexpiry]

theorem entriesOf_concat (items : List Item) (item : Item) :
    entriesOf (items ++ [item]) = entriesOf items ++
      match item with
      | .entry key value => [⟨key.decoded, value.decoded, lastExpiry items⟩]
      | _ => [] := by
  unfold entriesOf
  rw [List.length_append, List.length_singleton, List.range_succ, List.filterMap_append]
  congr 1
  · refine List.filterMap_congr fun position hposition => ?_
    have hlt : position < items.length := List.mem_range.mp hposition
    rw [List.getElem?_append_left hlt, List.take_append_of_le_length hlt.le]
  · rw [List.filterMap_cons, List.getElem?_concat_length, List.take_left]
    cases item <;> rfl

/-- What the loop has collected after some items. -/
theorem foldl_advance (items : List Item) :
    items.foldl Progress.advance {} = ⟨lastExpiry items, entriesOf items⟩ := by
  induction items using List.reverseRecOn with
  | nil => rfl
  | append_singleton items item ih =>
    rw [List.foldl_append, ih, lastExpiry_concat, entriesOf_concat]
    cases item <;> simp [Progress.advance, Item.isEntry]

/-- Behind a header the items begin. -/
theorem parse_header {file : File} {rest : Bytes} (hne : rest ≠ []) :
    parse capacity (ascii "REDIS" ++ file.version ++ rest) =
      parseItems capacity (ascii "REDIS" ++ file.version ++ rest).length rest {} := by
  have hpos : 0 < rest.length := List.length_pos_of_ne_nil hne
  have hredis : (ascii "REDIS").length = 5 := by decide
  have hversion := file.length_version
  have hlong : ¬ (ascii "REDIS" ++ file.version ++ rest).length < 10 := by
    simp only [List.length_append]
    omega
  have htake : (ascii "REDIS" ++ file.version ++ rest).take 5 = ascii "REDIS" := by
    rw [List.append_assoc]
    exact List.take_left' hredis
  have hmiddle : ((ascii "REDIS" ++ file.version ++ rest).drop 5).take 4 = file.version := by
    rw [List.append_assoc, List.drop_left' hredis]
    exact List.take_left' hversion
  have hdrop : (ascii "REDIS" ++ file.version ++ rest).drop 9 = rest := by
    refine List.drop_left' ?_
    rw [List.length_append]
    omega
  have hdigits : ¬ (file.version.any fun character => character < 48 || character > 57) = true := by
    simp only [List.any_eq_true, Bool.or_eq_true, decide_eq_true_eq, not_exists, not_and, not_or,
      UInt8.not_lt]
    exact file.digits_version
  rw [parse, if_neg (by rw [htake]; simpa using hlong), hmiddle, if_neg hdigits, hdrop]

end Files

/-- **RDB files are decoded exactly.**  A file with its end marker gives its entries in
order, whatever follows; a file that is cut off before its end marker gives an error and
no entries. -/
theorem decoding_exact (capacity : ℕ) (file : File)
    (hmodest : ∀ item ∈ file.items, item.modest capacity) :
    (∀ trailing, parse capacity (file.bytes ++ 255 :: trailing) = .ok (entriesOf file.items)) ∧
    ∀ front, front <+: file.bytes → ∃ message, parse capacity front = .error (.error message) := by
  refine ⟨fun trailing => ?_, fun front hfront => ?_⟩
  · have hfuel : (file.items.flatMap Item.bytes).length <
        (ascii "REDIS" ++ file.version ++ (file.items.flatMap Item.bytes ++
          255 :: trailing)).length := by
      simp only [List.length_append, List.length_cons]
      omega
    rw [File.bytes, List.append_assoc, parse_header (by simp),
      parseItems_whole hmodest hfuel trailing {}, foldl_advance]
  · by_cases hshort : front.length < 10
    · exact ⟨_, if_pos (.inl hshort)⟩
    · rcases cut_append hfront with ⟨hcut, -⟩ | ⟨tail, rfl, htail⟩
      · -- the header is shorter than that
        have hlength := hcut.length_le
        have hredis : (ascii "REDIS").length = 5 := by decide
        rw [List.length_append, file.length_version] at hlength
        omega
      · have hne : tail ≠ [] := by
          rintro rfl
          have hredis : (ascii "REDIS").length = 5 := by decide
          simp only [List.append_nil, List.length_append, file.length_version] at hshort
          omega
        obtain ⟨failure, ⟨message, rfl⟩, hfailure⟩ := parseItems_cut hmodest htail {}
        exact ⟨message, (parse_header hne).trans hfailure⟩

/-- A file with lengths and strings of several forms: the second entry has no expiry, the
first one the last of two. -/
def mixed : File where
  version := [48, 48, 49, 49]
  items := [.auxiliary (.raw .sixBit (ascii "bits") (by decide)) (.integer .eightBit 64 (by decide)),
    .selectDatabase .fourteenBit,
    .resizeDatabase ⟨.sixBit, 2, by decide⟩ ⟨.thirtyTwoBit, 1, by decide⟩,
    .expireTimeSeconds 5, .idle ⟨.sixBit, 9, by decide⟩, .expireTimeMs 1700000000000,
    .entry (.raw .fourteenBit (ascii "k") (by decide)) (.integer .sixteenBit (-300) (by decide)),
    .frequency 255,
    .entry (.raw .sixtyFourBit [255] (by decide)) (.integer .thirtyTwoBit 70000 (by decide))]
  length_version := by decide
  digits_version := by simp

theorem decoding_exact_mixed :
    parse 16 (mixed.bytes ++ 255 :: [1, 2, 3]) =
      .ok [⟨ascii "k", ascii "-300", some 1700000000000⟩, ⟨[255], ascii "70000", none⟩] ∧
    ∃ message, parse 16 mixed.bytes = .error (.error message) := by
  have hmodest : ∀ item ∈ mixed.items, item.modest 16 := by
    simp [mixed, Item.modest]
  obtain ⟨hwhole, hcut⟩ := decoding_exact 16 mixed hmodest
  have hentries : entriesOf mixed.items =
      [⟨ascii "k", ascii "-300", some 1700000000000⟩, ⟨[255], ascii "70000", none⟩] := by
    decide +kernel
  exact ⟨hentries ▸ hwhole [1, 2, 3], hcut mixed.bytes (List.prefix_refl _)⟩

end RedisServer.Rdb
