import RedisServer.Rdb.Format

/-!
# Arbitrary files

The format was written down for files that are read.  Here the bytes come first, whatever
they are: what a reader accepts is always one of the constructs of the format (`Takes`), so
wherever the loop gets in a file, the file begins with a `File`, and everything it reads
lies in the input.

The number of keys that a resize item announces is a hint for `reserve`.  The only way not
to return is a hint that is too large (`lengthError_iff`), and apart from that the hints
make no difference (`parse_rehinted`).
-/

namespace RedisServer.Rdb

open Wire

variable {capacity : ℕ} {bytes rest : Bytes} {marker : UInt8}

/-! ## What is accepted: lengths and strings -/

theorem faults_readByte : Faults Refused readByte := faults_byte refused_unexpectedEnd

theorem faults_readBytes (count : ℕ) : Faults Refused (readBytes count) :=
  faults_bytes refused_unexpectedEnd count

theorem refused_error (message : Bytes) : Refused (.error message) := ⟨message, rfl⟩

theorem faults_readLength : Faults Refused readLength := by
  refine faults_readByte.bind fun first => ?_
  refine .ite (faults_pure _) (.ite (faults_readByte.bind fun _ => faults_pure _) ?_)
  refine .ite (faults_pure _) (.ite ((faults_readBytes 4).bind fun _ => faults_pure _) ?_)
  exact .ite ((faults_readBytes 8).bind fun _ => faults_pure _) (faults_throw (refused_error _))

theorem faults_readPlainLength : Faults Refused readPlainLength :=
  faults_readLength.bind fun _ => .ite (faults_throw (refused_error _)) (faults_pure _)

theorem faults_readString : Faults Refused readString := by
  refine faults_readLength.bind fun length => ?_
  refine .ite (.ite (faults_throw (refused_error _)) (faults_readBytes _)) ?_
  refine .ite (faults_readByte.bind fun _ => faults_pure _) ?_
  refine .ite ((faults_readBytes 2).bind fun _ => faults_pure _) ?_
  refine .ite (((faults_readBytes 4).bind fun _ => faults_pure _).bind fun _ => faults_pure _) ?_
  exact faults_throw (refused_error _)

/-- The bytes of a length, or the byte in the place of one. -/
def IsLength (taken : Bytes) (length : Length) : Prop :=
  if length.encoded then length.value < 64 ∧ taken = [UInt8.ofNat (192 + length.value)]
  else ∃ form : LengthForm, length.value < form.limit ∧ taken = form.bytes length.value

/-- What follows the first byte of a length completes it. -/
theorem takes_readLengthAfter (first : UInt8) :
    Takes (readLengthAfter first) fun taken length => IsLength (first :: taken) length := by
  have hfirst : first.toNat < 256 := first.toNat_lt
  unfold readLengthAfter
  simp only [shiftRight_six, and_sixBits]
  split
  · rename_i hkind
    refine (takes_pure _).mono ?_
    rintro _ _ ⟨rfl, rfl⟩
    have hsmall : first.toNat % 64 = first.toNat := by omega
    refine ⟨.sixBit, Nat.mod_lt _ (by decide), ?_⟩
    simp only [LengthForm.bytes, hsmall, UInt8.ofNat_toNat]
  split
  · rename_i hkind
    refine ((takes_byte _).bind fun second => takes_pure _).mono ?_
    rintro _ _ ⟨_, _, second, rfl, rfl, rfl, rfl⟩
    have hsecond : second.toNat < 256 := second.toNat_lt
    have hjoined : (first.toNat % 64) <<< 8 ||| second.toNat =
        first.toNat % 64 * 256 + second.toNat := by
      rw [← Nat.shiftLeft_add_eq_or_of_lt hsecond, Nat.shiftLeft_eq]
    have hhigh : UInt8.ofNat (64 + (first.toNat % 64 * 256 + second.toNat) / 256) = first := by
      apply UInt8.toNat_inj.mp
      rw [UInt8.toNat_ofNat']
      omega
    have hlow : UInt8.ofNat (first.toNat % 64 * 256 + second.toNat) = second := by
      apply UInt8.toNat_inj.mp
      rw [UInt8.toNat_ofNat']
      omega
    refine ⟨.fourteenBit, ?_, ?_⟩
    · simp only [hjoined, LengthForm.limit]
      omega
    · simp only [hjoined, LengthForm.bytes, hhigh, hlow, List.append_nil]
  split
  · rename_i hkind
    refine (takes_pure _).mono ?_
    rintro _ _ ⟨rfl, rfl⟩
    have htag : UInt8.ofNat (192 + first.toNat % 64) = first := by
      apply UInt8.toNat_inj.mp
      rw [UInt8.toNat_ofNat']
      omega
    exact ⟨Nat.mod_lt _ (by decide), by rw [htag]⟩
  split
  · rename_i hwide
    refine ((takes_bytes _ 4).bind fun bytes => takes_pure _).mono ?_
    rintro _ _ ⟨bytes, _, _, rfl, ⟨rfl, hlength⟩, rfl, rfl⟩
    have hlt := bigEndian_lt bytes
    have hbytes := bigBytes_bigEndian bytes
    rw [hlength] at hlt hbytes
    refine ⟨.thirtyTwoBit, hlt, ?_⟩
    rw [LengthForm.bytes, hbytes, hwide, List.append_nil]
  split
  · rename_i hwide
    refine ((takes_bytes _ 8).bind fun bytes => takes_pure _).mono ?_
    rintro _ _ ⟨bytes, _, _, rfl, ⟨rfl, hlength⟩, rfl, rfl⟩
    have hlt := bigEndian_lt bytes
    have hbytes := bigBytes_bigEndian bytes
    rw [hlength] at hlt hbytes
    refine ⟨.sixtyFourBit, hlt, ?_⟩
    rw [LengthForm.bytes, hbytes, hwide, List.append_nil]
  · rintro bytes rest length ⟨⟩

theorem takes_readLength : Takes readLength IsLength := by
  refine ((takes_byte _).bind takes_readLengthAfter).mono ?_
  rintro _ length ⟨_, after, first, rfl, rfl, hlength⟩
  exact hlength

theorem takes_readPlainLength :
    Takes readPlainLength fun taken value =>
      ∃ length : PlainLength, taken = length.bytes ∧ value = length.value := by
  refine (takes_readLength.bind fun length => takes_check _ length.value).mono ?_
  rintro _ _ ⟨first, _, length, rfl, hlength, hplain, rfl, rfl⟩
  rw [IsLength, if_neg hplain] at hlength
  obtain ⟨form, hfits, rfl⟩ := hlength
  exact ⟨⟨form, length.value, hfits⟩, List.append_nil _, rfl⟩

/-- So many bytes are an integer, the least significant one first. -/
theorem takes_littleEndian (count : ℕ) {reader : Reader Failure ℕ}
    (hreader : reader = readBytes count >>= fun bytes => pure (littleEndian bytes)) :
    Takes reader fun taken value => value < 256 ^ count ∧ taken = littleBytes count value := by
  subst hreader
  refine ((takes_bytes unexpectedEnd count).bind fun value => takes_pure _).mono ?_
  rintro _ _ ⟨bytes, _, _, rfl, ⟨rfl, hlength⟩, rfl, rfl⟩
  have hlt := littleEndian_lt bytes
  have hbytes := littleBytes_littleEndian bytes
  rw [hlength] at hlt hbytes
  exact ⟨hlt, by rw [hbytes, List.append_nil]⟩

/-- A tag that stands for an integer. -/
theorem takes_residue (form : IntegerForm) :
    Takes (readStringAfter ⟨form.index, true⟩) fun taken text =>
      ∃ n < 256 ^ form.width, taken = littleBytes form.width n ∧
        text = printSigned (Int.bmod n (256 ^ form.width)) := by
  have hprinted : ∀ {reader : Reader Failure ℕ}, Takes reader (fun taken value =>
      value < 256 ^ form.width ∧ taken = littleBytes form.width value) →
      Takes (reader >>= fun value => pure (printSigned (Int.bmod value (256 ^ form.width))))
        fun taken text => ∃ n < 256 ^ form.width, taken = littleBytes form.width n ∧
          text = printSigned (Int.bmod n (256 ^ form.width)) := by
    intro reader hreader
    refine (hreader.bind fun value => takes_pure _).mono ?_
    rintro _ _ ⟨_, _, n, rfl, ⟨hn, rfl⟩, rfl, htext⟩
    exact ⟨n, hn, List.append_nil _, htext⟩
  cases form with
  | eightBit =>
    have hbyte : Takes (readByte >>= fun value => pure value.toNat) fun taken value =>
        value < 256 ^ 1 ∧ taken = littleBytes 1 value := by
      refine ((takes_byte unexpectedEnd).bind fun value => takes_pure _).mono ?_
      rintro _ _ ⟨_, _, byte, rfl, rfl, rfl, rfl⟩
      exact ⟨byte.toNat_lt, by simp [littleBytes]⟩
    have hread := hprinted hbyte
    rw [bind_assoc] at hread
    exact hread
  | sixteenBit =>
    have hread := hprinted (takes_littleEndian 2 rfl)
    rw [bind_assoc] at hread
    exact hread
  | thirtyTwoBit => exact hprinted (takes_littleEndian 4 rfl)

theorem takes_readStringAfter (length : Length) :
    Takes (readStringAfter length) fun taken text =>
      (length.encoded = false ∧ taken = text ∧ text.length = length.value) ∨
        ∃ form : IntegerForm, length = ⟨form.index, true⟩ ∧ ∃ n < 256 ^ form.width,
          taken = littleBytes form.width n ∧
            text = printSigned (Int.bmod n (256 ^ form.width)) := by
  obtain ⟨value, encoded⟩ := length
  cases encoded with
  | false =>
    rw [readStringAfter, if_pos rfl]
    split
    · rintro bytes rest text ⟨⟩
    · exact (takes_bytes _ _).mono fun _ _ htaken => .inl ⟨rfl, htaken⟩
  | true =>
    by_cases hform : ∃ form : IntegerForm, value = form.index
    · obtain ⟨form, rfl⟩ := hform
      exact (takes_residue form).mono fun _ _ htaken => .inr ⟨form, rfl, htaken⟩
    · have hother : value ≠ 0 ∧ value ≠ 1 ∧ value ≠ 2 :=
        ⟨fun h => hform ⟨.eightBit, h⟩, fun h => hform ⟨.sixteenBit, h⟩,
          fun h => hform ⟨.thirtyTwoBit, h⟩⟩
      rw [readStringAfter, if_neg (by simp), if_neg hother.1, if_neg hother.2.1,
        if_neg hother.2.2]
      rintro bytes rest text ⟨⟩

/-- A residue is an integer in two's complement. -/
theorem exists_integer (form : IntegerForm) {n : ℕ} (hn : n < 256 ^ form.width) :
    ∃ text : Text, text.bytes = form.tag :: littleBytes form.width n ∧
      text.decoded = printSigned (Int.bmod n (256 ^ form.width)) := by
  have hpos : 0 < 256 ^ form.width := Nat.pow_pos (by decide)
  have hlow := Int.le_bmod (x := n) hpos
  have hhigh := Int.bmod_lt (x := n) hpos
  have hresidue : (Int.bmod n (256 ^ form.width) % (256 ^ form.width : ℕ)).toNat = n := by
    rw [Int.bmod_emod, Int.emod_eq_of_lt (by omega) (by exact_mod_cast hn), Int.toNat_natCast]
  refine ⟨.integer form (Int.bmod n (256 ^ form.width)) ?_, ?_, rfl⟩
  · cases form <;> exact ⟨hlow, hhigh⟩
  · rw [Text.bytes, hresidue]

theorem takes_readString :
    Takes readString fun taken value =>
      ∃ text : Text, taken = text.bytes ∧ value = text.decoded := by
  refine (takes_readLength.bind takes_readStringAfter).mono ?_
  rintro _ value ⟨first, taken, length, rfl, hlength, hraw | ⟨form, rfl, n, hn, rfl, htext⟩⟩
  · obtain ⟨hplain, rfl, hcount⟩ := hraw
    rw [IsLength, hplain] at hlength
    obtain ⟨form, hfits, rfl⟩ := hlength
    rw [← hcount] at hfits ⊢
    exact ⟨.raw form taken hfits, rfl, rfl⟩
  · obtain ⟨-, rfl⟩ : form.index < 64 ∧ first = [UInt8.ofNat (192 + form.index)] := hlength
    obtain ⟨text, hbytes, hdecoded⟩ := exists_integer form hn
    exact ⟨text, hbytes.symm, htext.trans hdecoded.symm⟩

/-! ## What is accepted: items -/

/-- The number of keys that the item announces has room, whichever it is. -/
def unlimited : ℕ := 2 ^ 64 - 1

theorem modest_unlimited (item : Item) : item.modest unlimited := by
  cases item with
  | resizeDatabase keyCount _ =>
    have hlimit : keyCount.form.limit ≤ 2 ^ 64 := by cases keyCount.form <;> decide
    have hfits := keyCount.fits
    show keyCount.value ≤ 2 ^ 64 - 1
    omega
  | _ => trivial

/-- Two strings, one behind the other. -/
theorem takes_texts {result : Bytes → Bytes → Progress} :
    Takes (readString >>= fun key => readString >>= fun value => pure (result key value))
      fun taken progress => ∃ key value : Text, taken = key.bytes ++ value.bytes ∧
        progress = result key.decoded value.decoded := by
  refine (takes_readString.bind fun key => takes_readString.bind fun value =>
    takes_pure _).mono ?_
  rintro _ _ ⟨_, _, _, rfl, ⟨key, rfl, rfl⟩, _, _, _, rfl, ⟨value, rfl, rfl⟩, rfl, rfl⟩
  exact ⟨key, value, by rw [List.append_nil], rfl⟩

/-- **What the body of the loop reads is an item.** -/
theorem takes_readItem (capacity : ℕ) (marker : UInt8) (progress : Progress) :
    Takes (readItem capacity marker progress) fun taken progress' =>
      ∃ item : Item, marker = item.marker ∧ taken = item.body ∧ item.modest capacity ∧
        progress' = progress.advance item := by
  unfold readItem
  split
  · rename_i hmarker
    refine takes_texts.mono ?_
    rintro _ _ ⟨key, value, rfl, rfl⟩
    exact ⟨.auxiliary key value, hmarker, rfl, trivial, rfl⟩
  split
  · rename_i hmarker
    refine (takes_readPlainLength.bind fun database => takes_check _ _).mono ?_
    rintro _ _ ⟨_, _, _, rfl, ⟨database, rfl, rfl⟩, hzero, rfl, rfl⟩
    have hbytes : database.bytes = database.form.bytes 0 := by
      rw [PlainLength.bytes, not_not.mp hzero]
    exact ⟨.selectDatabase database.form, hmarker, by rw [List.append_nil, hbytes]; rfl, trivial,
      rfl⟩
  split
  · rename_i hmarker
    refine (takes_readPlainLength.bind fun keyCount => takes_readPlainLength.bind fun _ =>
      takes_check _ _).mono ?_
    rintro _ _ ⟨_, _, _, rfl, ⟨keyCount, rfl, rfl⟩, _, _, _, rfl, ⟨expiring, rfl, rfl⟩, hfits,
      rfl, rfl⟩
    exact ⟨.resizeDatabase keyCount expiring, hmarker, by rw [List.append_nil]; rfl,
      Nat.not_lt.mp hfits, rfl⟩
  split
  · rename_i hmarker
    refine ((takes_littleEndian 8 rfl).bind fun time => takes_pure _).mono ?_
    rintro _ _ ⟨_, _, time, rfl, ⟨htime, rfl⟩, rfl, rfl⟩
    have hvalue : (UInt64.ofNat time).toNat = time :=
      UInt64.toNat_ofNat_of_lt' (lt_of_lt_of_eq htime (by norm_num))
    exact ⟨.expireTimeMs (UInt64.ofNat time), hmarker, by rw [Item.body, hvalue, List.append_nil],
      trivial, rfl⟩
  split
  · rename_i hmarker
    refine ((takes_littleEndian 4 rfl).bind fun time => takes_pure _).mono ?_
    rintro _ _ ⟨_, _, time, rfl, ⟨htime, rfl⟩, rfl, rfl⟩
    have hvalue : (UInt32.ofNat time).toNat = time :=
      UInt32.toNat_ofNat_of_lt' (lt_of_lt_of_eq htime (by norm_num))
    refine ⟨.expireTimeSeconds (UInt32.ofNat time), hmarker,
      by rw [Item.body, hvalue, List.append_nil], trivial, ?_⟩
    simp only [Progress.advance, Item.expiry, hvalue, UInt64.ofNat_mul]
    rfl
  split
  · rename_i hmarker
    refine (takes_readPlainLength.bind fun time => takes_pure _).mono ?_
    rintro _ _ ⟨_, _, _, rfl, ⟨time, rfl, rfl⟩, rfl, rfl⟩
    exact ⟨.idle time, hmarker, List.append_nil _, trivial, rfl⟩
  split
  · rename_i hmarker
    refine ((takes_byte unexpectedEnd).bind fun count => takes_pure _).mono ?_
    rintro _ _ ⟨_, _, count, rfl, rfl, rfl, rfl⟩
    exact ⟨.frequency count, hmarker, rfl, trivial, rfl⟩
  split
  · rintro bytes rest value ⟨⟩
  · rename_i hmarker
    refine takes_texts.mono ?_
    rintro _ _ ⟨key, value, rfl, rfl⟩
    exact ⟨.entry key value, not_not.mp hmarker, rfl, trivial, rfl⟩

/-- Only a hint that is too large keeps the body of the loop from returning. -/
theorem readItem_lengthError {progress : Progress}
    (h : readItem capacity marker progress bytes = .error .lengthError) :
    ∃ keyCount expiring rest, marker :: bytes =
        (Item.resizeDatabase keyCount expiring).bytes ++ rest ∧ capacity < keyCount.value := by
  have hrefused : ∀ {α : Type} {reader : Reader Failure α} {bytes : Bytes}, Faults Refused reader →
      reader bytes ≠ .error .lengthError := by
    intro α reader bytes hfaults hread
    obtain ⟨message, hmessage⟩ := hfaults hread
    cases hmessage
  unfold readItem at h
  split at h
  · exact absurd h (hrefused (faults_readString.bind fun _ => faults_readString.bind fun _ =>
      faults_pure _))
  split at h
  · exact absurd h (hrefused (faults_readPlainLength.bind fun _ =>
      .ite (faults_throw (refused_error _)) (faults_pure _)))
  split at h
  · rename_i hmarker
    rcases bind_eq_error h with hfirst | ⟨keyCount, middle, hfirst, hnext⟩
    · exact absurd hfirst (hrefused faults_readPlainLength)
    rcases bind_eq_error hnext with hsecond | ⟨expiring, rest, hsecond, hcheck⟩
    · exact absurd hsecond (hrefused faults_readPlainLength)
    split at hcheck
    · rename_i hlarge
      obtain ⟨_, rfl, keyCount, rfl, rfl⟩ := takes_readPlainLength hfirst
      obtain ⟨_, rfl, expiring, rfl, rfl⟩ := takes_readPlainLength hsecond
      refine ⟨keyCount, expiring, rest, ?_, hlarge⟩
      rw [hmarker, Item.bytes, Item.body, List.cons_append, List.append_assoc]
      rfl
    · cases hcheck
  split at h
  · exact absurd h (hrefused (((faults_readBytes 8).bind fun _ => faults_pure _).bind fun _ =>
      faults_pure _))
  split at h
  · exact absurd h (hrefused (((faults_readBytes 4).bind fun _ => faults_pure _).bind fun _ =>
      faults_pure _))
  split at h
  · exact absurd h (hrefused (faults_readPlainLength.bind fun _ => faults_pure _))
  split at h
  · exact absurd h (hrefused (faults_readByte.bind fun _ => faults_pure _))
  split at h
  · exact absurd h (hrefused (faults_throw (refused_error _)))
  · exact absurd h (hrefused (faults_readString.bind fun _ => faults_readString.bind fun _ =>
      faults_pure _))

/-- Room for more keys changes nothing, as long as there was enough. -/
theorem readItem_unlimited (capacity : ℕ) (marker : UInt8) (progress : Progress) (bytes : Bytes) :
    readItem capacity marker progress bytes = .error .lengthError ∨
      readItem capacity marker progress bytes = readItem unlimited marker progress bytes := by
  by_cases hmarker : marker = 251
  · subst hmarker
    have hresize : ∀ limit, readItem limit 251 progress bytes =
        (readPlainLength bytes).bind fun first => (readPlainLength first.2).bind fun second =>
          if first.1 > limit then .error .lengthError else .ok (progress, second.2) := by
      intro limit
      have hread : readItem limit 251 progress bytes =
          (readPlainLength >>= fun keyCount => readPlainLength >>= fun _ =>
            if keyCount > limit then throw .lengthError else pure progress) bytes := rfl
      rw [hread, bind_apply]
      cases readPlainLength bytes with
      | error failure => rfl
      | ok first =>
        simp only [Except.bind, bind_apply]
        cases readPlainLength first.2 with
        | error failure => rfl
        | ok second =>
          simp only
          split <;> rfl
    rw [hresize, hresize]
    cases hfirst : readPlainLength bytes with
    | error failure => exact .inr rfl
    | ok first =>
      simp only [Except.bind]
      cases readPlainLength first.2 with
      | error failure => exact .inr rfl
      | ok second =>
        obtain ⟨_, -, keyCount, -, hvalue⟩ := takes_readPlainLength hfirst
        have hfits : ¬ first.1 > unlimited := by
          rw [hvalue]
          exact Nat.not_lt.mpr (modest_unlimited (.resizeDatabase keyCount keyCount))
        simp only [if_neg hfits]
        split
        · exact .inl rfl
        · exact .inr rfl
  · refine .inr ?_
    simp only [readItem, if_neg hmarker]

/-! ## Files -/

/-- One more item at the end. -/
def File.append (file : File) (item : Item) : File :=
  { file with items := file.items ++ [item] }

theorem File.bytes_append (file : File) (item : Item) :
    (file.append item).bytes = file.bytes ++ item.bytes := by
  simp [File.bytes, File.append]

/-- What is left after an item is shorter by its marker at least. -/
theorem length_of_readItem {progress progress' : Progress}
    (h : readItem capacity marker progress bytes = .ok (progress', rest)) :
    rest.length ≤ bytes.length := by
  obtain ⟨taken, rfl, -⟩ := takes_readItem capacity marker progress h
  rw [List.length_append]
  omega

/-- The fuel does not matter, as long as there is a unit for every byte. -/
theorem parseItems_fuel (capacity : ℕ) {fuel : ℕ} (h : bytes.length ≤ fuel) (progress : Progress) :
    parseItems capacity fuel bytes progress =
      parseItems capacity bytes.length bytes progress := by
  induction fuel using Nat.strong_induction_on generalizing bytes progress with
  | _ fuel ih =>
    cases bytes with
    | nil => cases fuel <;> rfl
    | cons marker rest =>
      obtain ⟨fuel, rfl⟩ := Nat.exists_eq_succ_of_ne_zero (Nat.ne_zero_of_lt h)
      rw [List.length_cons] at h ⊢
      rw [parseItems, parseItems]
      split
      · rfl
      · cases hread : readItem capacity marker progress rest with
        | error failure => rfl
        | ok outcome =>
          have hshort := length_of_readItem hread
          simp only
          rw [ih fuel (by omega) (by omega), ih rest.length (by omega) hshort]

/-- The loop goes through the items of a file, up to what is behind them. -/
theorem parseItems_items {items : List Item} (hmodest : ∀ item ∈ items, item.modest capacity)
    {fuel : ℕ} (hfuel : (items.flatMap Item.bytes ++ rest).length ≤ fuel) (progress : Progress) :
    parseItems capacity fuel (items.flatMap Item.bytes ++ rest) progress =
      parseItems capacity rest.length rest (items.foldl Progress.advance progress) := by
  induction items generalizing fuel progress with
  | nil => exact parseItems_fuel capacity hfuel progress
  | cons item items ih =>
    have hlong : (items.flatMap Item.bytes ++ rest).length + item.bytes.length ≤ fuel := by
      rw [List.flatMap_cons, List.append_assoc, List.length_append] at hfuel
      omega
    rw [Item.bytes, List.length_cons] at hlong
    obtain ⟨fuel, rfl⟩ := Nat.exists_eq_succ_of_ne_zero (show fuel ≠ 0 by omega)
    have hread := (reads_item (hmodest item (by simp)) progress).whole
      (items.flatMap Item.bytes ++ rest)
    rw [List.flatMap_cons, Item.bytes, List.cons_append, List.cons_append, List.append_assoc,
      parseItems, if_neg (marker_ne_end item), hread]
    exact ih (fun other hother => hmodest other (by simp [hother])) (by omega) _

theorem parse_behind {file : File} (hmodest : ∀ item ∈ file.items, item.modest capacity)
    (hne : file.items.flatMap Item.bytes ++ rest ≠ []) :
    parse capacity (file.bytes ++ rest) =
      parseItems capacity rest.length rest (file.items.foldl Progress.advance {}) := by
  rw [File.bytes, List.append_assoc, parse_header hne]
  refine parseItems_items hmodest ?_ {}
  simp only [List.length_append]
  omega

/-- Bytes with a header begin with a file, without items yet. -/
theorem header_cases (contents : Bytes) :
    (∃ message, ∀ capacity, parse capacity contents = .error (.error message)) ∨
      ∃ file rest, file.items = [] ∧ rest ≠ [] ∧ contents = File.bytes file ++ rest := by
  by_cases hheader : contents.length < 10 ∨ contents.take 5 ≠ ascii "REDIS"
  · exact .inl ⟨_, fun capacity => if_pos hheader⟩
  by_cases hversion : (((contents.drop 5).take 4).any fun character =>
      character < 48 || character > 57) = true
  · refine .inl ⟨ascii "Invalid RDB version", fun capacity => ?_⟩
    rw [parse, if_neg hheader, if_pos hversion]
  · obtain ⟨hlong, hmagic⟩ := not_or.mp hheader
    have hdigits : ∀ character ∈ (contents.drop 5).take 4, 48 ≤ character ∧ character ≤ 57 := by
      simpa only [List.any_eq_true, Bool.or_eq_true, decide_eq_true_eq, not_exists, not_and,
        not_or, UInt8.not_lt] using hversion
    have hfour : ((contents.drop 5).take 4).length = 4 := by
      rw [List.length_take, List.length_drop]
      omega
    refine .inr ⟨⟨(contents.drop 5).take 4, [], hfour, hdigits⟩, contents.drop 9, rfl, ?_, ?_⟩
    · refine List.ne_nil_of_length_pos ?_
      rw [List.length_drop]
      omega
    · have hrest : contents.drop 9 = (contents.drop 5).drop 4 := by rw [List.drop_drop]
      rw [File.bytes, List.flatMap_nil, List.append_nil, ← not_not.mp hmagic, hrest,
        List.append_assoc, List.take_append_drop, List.take_append_drop]

/-- There is room for every number of keys that the bytes announce: in a resize item behind
the beginning of a file. -/
def Modest (capacity : ℕ) (contents : Bytes) : Prop :=
  ∀ (file : File) (keyCount expiring : PlainLength) (rest : Bytes),
    contents = file.bytes ++ (Item.resizeDatabase keyCount expiring).bytes ++ rest →
      keyCount.value ≤ capacity

section Loop

variable {capacity fuel : ℕ} {file : File} {contents rest : Bytes} {progress : Progress}

/-- A step of the loop goes on behind a longer file. -/
theorem append_of_readItem {progress' : Progress} {rest' : Bytes}
    (hcontents : contents = file.bytes ++ marker :: rest)
    (h : readItem capacity marker progress rest = .ok (progress', rest')) :
    ∃ item, contents = (file.append item).bytes ++ rest' := by
  obtain ⟨_, rfl, item, rfl, rfl, -⟩ := takes_readItem capacity marker progress h
  refine ⟨item, ?_⟩
  rw [hcontents, File.bytes_append, List.append_assoc]
  rfl

theorem parseItems_lengthError (hcontents : contents = file.bytes ++ rest)
    (h : parseItems capacity fuel rest progress = .error .lengthError) :
    ¬ Modest capacity contents := by
  induction fuel generalizing file rest progress with
  | zero => cases h
  | succ fuel ih =>
    cases rest with
    | nil => cases h
    | cons marker rest =>
      rw [parseItems] at h
      split at h
      · cases h
      cases hread : readItem capacity marker progress rest with
      | ok outcome =>
        rw [hread] at h
        obtain ⟨item, hitem⟩ := append_of_readItem hcontents hread
        exact ih hitem h
      | error failure =>
        rw [hread] at h
        cases h
        obtain ⟨keyCount, expiring, rest', hbytes, hlarge⟩ := readItem_lengthError hread
        intro hmodest
        rw [hbytes, ← List.append_assoc] at hcontents
        exact absurd (hmodest file keyCount expiring rest' hcontents) (Nat.not_le.mpr hlarge)

/-- Where there is room for all of them, the hints are as good as none. -/
theorem parseItems_of_modest (hmodest : Modest capacity contents)
    (hcontents : contents = file.bytes ++ rest) :
    parseItems capacity fuel rest progress = parseItems unlimited fuel rest progress := by
  induction fuel generalizing file rest progress with
  | zero => rfl
  | succ fuel ih =>
    cases rest with
    | nil => rfl
    | cons marker rest =>
      rw [parseItems, parseItems]
      split
      · rfl
      rcases readItem_unlimited capacity marker progress rest with habort | hsame
      · obtain ⟨keyCount, expiring, rest', hbytes, hlarge⟩ := readItem_lengthError habort
        rw [hbytes, ← List.append_assoc] at hcontents
        exact absurd (hmodest file keyCount expiring rest' hcontents) (Nat.not_le.mpr hlarge)
      · rw [← hsame]
        cases hread : readItem capacity marker progress rest with
        | error failure => rfl
        | ok outcome =>
          obtain ⟨item, hitem⟩ := append_of_readItem hcontents hread
          exact ih hitem

end Loop

/-! ## Whole files -/

/-- The items up to the first one that is too large are modest. -/
theorem modest_or_first {capacity : ℕ} (items : List Item) :
    (∀ item ∈ items, item.modest capacity) ∨
      ∃ before keyCount expiring after,
        items = before ++ .resizeDatabase keyCount expiring :: after ∧
        (∀ item ∈ before, item.modest capacity) ∧ capacity < keyCount.value := by
  induction items with
  | nil => exact .inl (by simp)
  | cons item items ih =>
    by_cases hmodest : item.modest capacity
    · rcases ih with hall | ⟨before, keyCount, expiring, after, rfl, hbefore, hlarge⟩
      · exact .inl (by simpa [hmodest] using hall)
      · exact .inr ⟨item :: before, keyCount, expiring, after, rfl,
          by simpa [hmodest] using hbefore, hlarge⟩
    · cases item with
      | resizeDatabase keyCount expiring =>
        exact .inr ⟨[], keyCount, expiring, items, rfl, by simp, Nat.not_le.mp hmodest⟩
      | _ => exact absurd trivial hmodest

/-- The first hint that is too large ends the parse. -/
theorem parse_lengthError {file : File} (hmodest : ∀ item ∈ file.items, item.modest capacity)
    {keyCount : PlainLength} (hlarge : capacity < keyCount.value) (expiring : PlainLength)
    (rest : Bytes) :
    parse capacity (file.bytes ++ ((Item.resizeDatabase keyCount expiring).bytes ++ rest)) =
      .error .lengthError := by
  have hread : readItem capacity 251 (file.items.foldl Progress.advance {})
      (keyCount.bytes ++ (expiring.bytes ++ rest)) = .error .lengthError := by
    show (readPlainLength >>= fun count => readPlainLength >>= fun _ =>
      if count > capacity then throw .lengthError
      else pure (file.items.foldl Progress.advance {})) _ = _
    rw [bind_apply, (reads_plainLength keyCount).whole]
    simp only [Except.bind, bind_apply, (reads_plainLength expiring).whole, if_pos hlarge]
    rfl
  rw [parse_behind hmodest (by simp [Item.bytes])]
  rw [Item.bytes, Item.body, List.cons_append, List.length_cons, parseItems,
    if_neg (marker_ne_end _), List.append_assoc]
  rw [show (Item.resizeDatabase keyCount expiring).marker = 251 from rfl, hread]

/-- **`parse` aborts exactly if the bytes announce more keys than there can be room for.** -/
theorem lengthError_iff (capacity : ℕ) (contents : Bytes) :
    parse capacity contents = .error .lengthError ↔ ¬ Modest capacity contents := by
  constructor
  · intro h
    rcases header_cases contents with ⟨message, herror⟩ | ⟨file, rest, hitems, hne, rfl⟩
    · rw [herror] at h
      cases h
    · rw [parse_behind (by simp [hitems]) (by simpa [hitems] using hne)] at h
      exact parseItems_lengthError rfl h
  · intro h
    simp only [Modest, not_forall, not_le] at h
    obtain ⟨file, keyCount, expiring, rest, rfl, hlarge⟩ := h
    rcases @modest_or_first capacity file.items with
      hall | ⟨before, first, others, after, hitems, hbefore, hfirst⟩
    · rw [List.append_assoc]
      exact parse_lengthError hall hlarge expiring rest
    · -- an earlier item of the file is too large already
      have hsplit : file.bytes ++ (Item.resizeDatabase keyCount expiring).bytes ++ rest =
          File.bytes { file with items := before } ++
            ((Item.resizeDatabase first others).bytes ++ (after.flatMap Item.bytes ++
              ((Item.resizeDatabase keyCount expiring).bytes ++ rest))) := by
        simp [File.bytes, hitems]
      rw [hsplit]
      exact parse_lengthError hbefore hfirst others _

theorem parse_of_modest {contents : Bytes} (hmodest : Modest capacity contents) :
    parse capacity contents = parse unlimited contents := by
  rcases header_cases contents with ⟨message, herror⟩ | ⟨file, rest, hitems, hne, rfl⟩
  · rw [herror, herror]
  · rw [parse_behind (by simp [hitems]) (by simpa [hitems] using hne),
      parse_behind (by simp [hitems]) (by simpa [hitems] using hne)]
    exact parseItems_of_modest hmodest rfl

/-- One resize item of a file gets other hints, in any form. -/
inductive Rehinted : Bytes → Bytes → Prop
  | hints (file : File) (keyCount expiring keyCount' expiring' : PlainLength) (rest : Bytes) :
      Rehinted (file.bytes ++ (Item.resizeDatabase keyCount expiring).bytes ++ rest)
        (file.bytes ++ (Item.resizeDatabase keyCount' expiring').bytes ++ rest)

/-- The files are the same, apart from the hints of some resize items. -/
abbrev SameButHints : Bytes → Bytes → Prop := Relation.ReflTransGen Rehinted

theorem parse_rehinted {first second : Bytes} (h : SameButHints first second) :
    parse unlimited first = parse unlimited second := by
  induction h with
  | refl => rfl
  | tail _ hstep ih =>
    obtain ⟨file, keyCount, expiring, keyCount', expiring', rest⟩ := hstep
    have hbehind : ∀ count others,
        parse unlimited (file.bytes ++ (Item.resizeDatabase count others).bytes ++ rest) =
          parseItems unlimited rest.length rest (file.items.foldl Progress.advance {}) := by
      intro count others
      rw [← File.bytes_append, parse_behind (fun item _ => modest_unlimited item)
        (by simp [File.append, Item.bytes]), File.append, List.foldl_append]
      rfl
    rw [ih, hbehind, hbehind]

/-- `parse` returned entries or an error. -/
def Returns (outcome : Except Failure (List StringEntry)) : Prop :=
  (∃ entries, outcome = .ok entries) ∨ ∃ message, outcome = .error (.error message)

theorem returns_iff (outcome : Except Failure (List StringEntry)) :
    Returns outcome ↔ outcome ≠ .error .lengthError := by
  cases outcome with
  | ok entries => simp [Returns]
  | error failure => cases failure <;> simp [Returns]

/-- Wherever the loop gets in the bytes, what it reads there are the next bytes of them, and
it goes on right behind these. -/
def Contained (capacity : ℕ) (contents : Bytes) : Prop :=
  ∀ (file : File) (marker : UInt8) (rest rest' : Bytes) (progress progress' : Progress),
    contents = file.bytes ++ marker :: rest →
    readItem capacity marker progress rest = .ok (progress', rest') →
      ∃ item : Item, contents = file.bytes ++ item.bytes ++ rest' ∧
        progress' = progress.advance item

theorem contained (capacity : ℕ) (contents : Bytes) : Contained capacity contents := by
  rintro file marker rest rest' progress progress' rfl hread
  obtain ⟨_, rfl, item, rfl, rfl, -, rfl⟩ := takes_readItem capacity marker progress hread
  exact ⟨item, by simp [Item.bytes], rfl⟩

/-- **When parsing arbitrary bytes always returns.**  Two inputs are the same but for the
hints of their resize items.  Both are parsed without leaving the input and without an abort,
to the same entries or the same error, exactly if there is room for every number of keys that
either announces. -/
theorem parse_returns_iff (capacity : ℕ) {first second : Bytes} (h : SameButHints first second) :
    (Returns (parse capacity first) ∧ Returns (parse capacity second) ∧
        parse capacity first = parse capacity second ∧
        Contained capacity first ∧ Contained capacity second) ↔
      Modest capacity first ∧ Modest capacity second := by
  constructor
  · rintro ⟨hfirst, hsecond, -, -, -⟩
    rw [returns_iff, ne_eq, lengthError_iff, not_not] at hfirst hsecond
    exact ⟨hfirst, hsecond⟩
  · rintro ⟨hfirst, hsecond⟩
    refine ⟨?_, ?_, ?_, contained capacity first, contained capacity second⟩
    · rw [returns_iff, ne_eq, lengthError_iff, not_not]
      exact hfirst
    · rw [returns_iff, ne_eq, lengthError_iff, not_not]
      exact hsecond
    · rw [parse_of_modest hfirst, parse_of_modest hsecond, parse_rehinted h]

/-- A file with one resize item and one entry. -/
def hinted (keyCount : PlainLength) : Bytes :=
  File.bytes { mixed with items := [] } ++
    (Item.resizeDatabase keyCount ⟨.sixBit, 0, by decide⟩).bytes ++
    (Item.entry (.raw .sixBit (ascii "k") (by decide)) (.raw .sixBit (ascii "v") (by decide))).bytes
      ++ [255]

/-- The largest number of entries that a vector can have room for. -/
def maxSize : ℕ := (2 ^ 63 - 1) / 80

/-- With one hint the file is read, with another one the server goes down. -/
theorem huge_hint_aborts :
    parse maxSize (hinted ⟨.sixBit, 1, by decide⟩) = .ok [⟨ascii "k", ascii "v", none⟩] ∧
      parse maxSize (hinted ⟨.sixtyFourBit, 2 ^ 64 - 1, by decide⟩) = .error .lengthError := by
  decide +kernel

/-- Two files with different hints that are read alike. -/
theorem parse_returns_iff_modest :
    Returns (parse maxSize (hinted ⟨.sixBit, 1, by decide⟩)) ∧
      parse maxSize (hinted ⟨.sixBit, 1, by decide⟩) =
        parse maxSize (hinted ⟨.thirtyTwoBit, 2 ^ 32 - 1, by decide⟩) := by
  have hsame : ∀ keyCount keyCount', SameButHints (hinted keyCount) (hinted keyCount') := by
    intro keyCount keyCount'
    refine .single ?_
    rw [hinted, hinted, List.append_assoc, List.append_assoc (File.bytes _ ++ _)]
    exact .hints _ _ _ _ _ _
  have hreturned : ∀ {keyCount}, parse maxSize (hinted keyCount) ≠ .error .lengthError →
      Modest maxSize (hinted keyCount) := by
    intro keyCount hreturned
    rwa [ne_eq, lengthError_iff, not_not] at hreturned
  obtain ⟨hfirst, -, heq, -⟩ := (parse_returns_iff maxSize
    (hsame ⟨.sixBit, 1, by decide⟩ ⟨.thirtyTwoBit, 2 ^ 32 - 1, by decide⟩)).mpr
      ⟨hreturned (by decide +kernel), hreturned (by decide +kernel)⟩
  exact ⟨hfirst, heq⟩

end RedisServer.Rdb
