import RedisServer.Resp

/-!
# Parsing undoes serializing

`parseCommand_serializeCommand`: a serialized command is parsed back from the
front of any buffer, and exactly its own bytes are consumed.  The arguments may
contain anything, CR LF included, because their lengths are sent first; the
length lines themselves consist of digits, so the search for CR LF stops at
their end.

Lengths travel as 64-bit numbers.  `Sized` is the bound that every
`std::string` and `std::vector` in memory satisfies.
-/

namespace RedisServer.Resp

variable {digits before after : Bytes} {n : ℕ}

/-- The sizes fit a `std::size_t`. -/
structure Sized (command : Command) : Prop where
  length_lt : command.length < 2 ^ 64
  argument_lt : ∀ argument ∈ command, argument.length < 2 ^ 64

instance (command : Command) : Decidable (Sized command) :=
  decidable_of_iff
    (command.length < 2 ^ 64 ∧ ∀ argument ∈ command, argument.length < 2 ^ 64)
    ⟨fun h => ⟨h.1, h.2⟩, fun h => ⟨h.length_lt, h.argument_lt⟩⟩

/-! ## Lines -/

theorem findCrlf_append {text rest : Bytes} (h : ∀ byte ∈ text, byte ≠ 13) :
    findCrlf (text ++ crlf ++ rest) = some text.length := by
  induction text with
  | nil => rfl
  | cons byte text ih =>
    have hbyte : byte ≠ 13 := h byte (by simp)
    have htext := ih fun b hb => h b (by simp [hb])
    have hstep : findCrlf (byte :: (text ++ crlf ++ rest)) =
        (findCrlf (text ++ crlf ++ rest)).map (· + 1) := by
      rw [findCrlf]
      intro rest' heq
      exact absurd heq hbyte
    simp only [List.cons_append, hstep, htext, Option.map_some, List.length_cons]

theorem ne_cr_of_mem_print {byte : UInt8} (h : byte ∈ Decimal.print n) : byte ≠ 13 := by
  rintro rfl
  exact absurd (Decimal.isDigit_of_mem_print h) (by decide)

/-- A non-empty string of decimal digits, and the number it denotes. -/
structure Numeral (digits : Bytes) (n : ℕ) : Prop where
  ne_nil : digits ≠ []
  isDigit : ∀ byte ∈ digits, 48 ≤ byte ∧ byte ≤ 57
  value : Decimal.valueFrom 0 digits = n
  lt : n < 2 ^ 64

theorem parseUnsigned_eq_some : parseUnsigned digits = some n ↔ Numeral digits n := by
  have hdigits : digits.all Decimal.isDigit = true ↔ ∀ byte ∈ digits, 48 ≤ byte ∧ byte ≤ 57 := by
    simp [List.all_eq_true, Decimal.isDigit]
  rw [parseUnsigned, Option.filter_eq_some_iff, Decimal.parse, Option.ite_none_right_eq_some,
    hdigits, decide_eq_true_eq, Option.some.injEq]
  constructor
  · rintro ⟨⟨⟨hne, hall⟩, hvalue⟩, hlt⟩
    exact ⟨hne, hall, hvalue, hlt⟩
  · rintro ⟨hne, hall, hvalue, hlt⟩
    exact ⟨⟨⟨hne, hall⟩, hvalue⟩, hlt⟩

theorem numeral_print (h : n < 2 ^ 64) : Numeral (Decimal.print n) n :=
  parseUnsigned_eq_some.mp (parseUnsigned_print h)

theorem Numeral.ne_cr (h : Numeral digits n) : ∀ byte ∈ digits, byte ≠ 13 := by
  rintro byte hbyte rfl
  exact absurd (h.isDigit _ hbyte).1 (by decide)

/-- A number line in the middle of a buffer. -/
theorem readLine_numeral (h : Numeral digits n) (before rest : Bytes) :
    readLine (before ++ (digits ++ crlf ++ rest)) before.length =
      some (digits, before.length + digits.length + 2) := by
  unfold readLine
  rw [List.drop_left, findCrlf_append h.ne_cr]
  simp

theorem parseLength_eq_ok : parseLength digits = .ok n ↔ Numeral digits n := by
  rw [← parseUnsigned_eq_some, parseLength]
  cases parseUnsigned digits <;> simp

/-! ## Arguments -/

/-- An argument behind its length, which may be written with leading zeros. -/
def group (digits value : Bytes) : Bytes := 36 :: digits ++ crlf ++ value ++ crlf

theorem bulkString_eq_group (value : Bytes) :
    bulkString value = group (Decimal.print value.length) value := rfl

theorem group_eq (digits value : Bytes) :
    group digits value = 36 :: (digits ++ crlf ++ (value ++ crlf)) := by
  simp [group]

/-- One turn of the loop, on an argument in the middle of the buffer. -/
theorem parseArguments_group {value : Bytes} (hdigits : Numeral digits value.length)
    (before rest : Bytes) (missing : ℕ) (command : Command) :
    parseArguments (before ++ group digits value ++ rest) (missing + 1) before.length command =
      parseArguments (before ++ group digits value ++ rest) missing
        (before ++ group digits value).length (command ++ [value]) := by
  have hinput : before ++ group digits value ++ rest =
      (before ++ [36]) ++ (digits ++ crlf ++ (value ++ (crlf ++ rest))) := by
    simp [group_eq]
  have hposition : (before ++ [36]).length = before.length + 1 := by simp
  have hfirst : (before ++ group digits value ++ rest)[before.length]? = some 36 := by
    simp [group_eq]
  have hline := readLine_numeral hdigits (before ++ [36]) (value ++ (crlf ++ rest))
  rw [← hinput, hposition] at hline
  have hlength : (before ++ group digits value ++ rest).length =
      before.length + 1 + digits.length + 2 + value.length + 2 + rest.length := by
    simp [group_eq, crlf]
    omega
  have hdrop : (before ++ group digits value ++ rest).drop
      (before.length + 1 + digits.length + 2) = value ++ (crlf ++ rest) := by
    have hsplit : before ++ group digits value ++ rest =
        (before ++ [36] ++ digits ++ crlf) ++ (value ++ (crlf ++ rest)) := by
      simp [group_eq]
    rw [hsplit]
    refine List.drop_left' ?_
    simp [crlf]
    omega
  have hcr : (before ++ group digits value ++ rest)[before.length + 1 + digits.length + 2 +
      value.length]? = some 13 := by
    rw [← List.getElem?_drop, hdrop]
    simp [crlf]
  have hlf : (before ++ group digits value ++ rest)[before.length + 1 + digits.length + 2 +
      value.length + 1]? = some 10 := by
    rw [Nat.add_assoc _ value.length 1, ← List.getElem?_drop, hdrop]
    simp [crlf]
  have hend : before.length + 1 + digits.length + 2 + value.length + 2 =
      (before ++ group digits value).length := by
    simp [group_eq, crlf]
    omega
  rw [parseArguments, hfirst]
  simp only [ne_eq, not_true_eq_false, if_false, hline, parseLength_eq_ok.mpr hdigits]
  have hends : ¬ ((before ++ group digits value ++ rest)[before.length + 1 + digits.length + 2 +
      value.length]? ≠ some 13 ∨
      (before ++ group digits value ++ rest)[before.length + 1 + digits.length + 2 +
      value.length + 1]? ≠ some 10) := by
    rw [hcr, hlf]
    simp
  rw [if_neg (by omega), if_neg (by omega), if_neg hends, hdrop, hend]
  simp

/-- The loop over arguments that lie in the buffer one behind the other. -/
theorem parseArguments_groups (groups : List (Bytes × Bytes)) (before rest : Bytes)
    (command : Command) (hgroups : ∀ item ∈ groups, Numeral item.1 item.2.length) :
    parseArguments (before ++ groups.flatMap (fun item => group item.1 item.2) ++ rest)
        groups.length before.length command =
      .result (command ++ groups.map Prod.snd)
        (before ++ groups.flatMap fun item => group item.1 item.2).length := by
  induction groups generalizing before command with
  | nil => simp [parseArguments]
  | cons item groups ih =>
    have hinput : before ++ (item :: groups).flatMap (fun item => group item.1 item.2) ++ rest =
        before ++ group item.1 item.2 ++
          (groups.flatMap (fun item => group item.1 item.2) ++ rest) := by
      simp
    rw [hinput, List.length_cons, parseArguments_group (hgroups item (by simp)),
      ← List.append_assoc, ih _ _ fun other hother => hgroups other (by simp [hother])]
    simp

/-! ## Frames -/

/-- A command as it may lie in a buffer: the number of its arguments, then the arguments,
each behind its length. -/
structure Frame where
  digits : Bytes
  groups : List (Bytes × Bytes)
  count : Numeral digits groups.length
  lengths : ∀ item ∈ groups, Numeral item.1 item.2.length

namespace Frame

def command (frame : Frame) : Command := frame.groups.map Prod.snd

def bytes (frame : Frame) : Bytes :=
  42 :: frame.digits ++ crlf ++ frame.groups.flatMap fun item => group item.1 item.2

end Frame

/-- **A frame is parsed from the front of any buffer.** -/
theorem parseCommand_frame (frame : Frame) (rest : Bytes) :
    parseCommand (frame.bytes ++ rest) = .result frame.command frame.bytes.length := by
  obtain ⟨digits, groups, hcount, hlengths⟩ := frame
  have hinput : 42 :: digits ++ crlf ++ groups.flatMap (fun item => group item.1 item.2) ++ rest =
      [42] ++ (digits ++ crlf ++ (groups.flatMap (fun item => group item.1 item.2) ++ rest)) := by
    simp
  have hline := readLine_numeral hcount [42]
    (groups.flatMap (fun item => group item.1 item.2) ++ rest)
  have hbefore : ([42] ++ digits ++ crlf).length = [(42 : UInt8)].length + digits.length + 2 := by
    simp [crlf]
    omega
  have harguments := parseArguments_groups groups ([42] ++ digits ++ crlf) rest [] hlengths
  have hwhole : [42] ++ digits ++ crlf ++ groups.flatMap (fun item => group item.1 item.2) =
      42 :: digits ++ crlf ++ groups.flatMap fun item => group item.1 item.2 := by
    simp
  rw [hbefore, hwhole, List.nil_append] at harguments
  rw [← hinput] at hline
  have hcons : 42 :: digits ++ crlf ++ groups.flatMap (fun item => group item.1 item.2) ++ rest =
      42 :: (digits ++ crlf ++ (groups.flatMap (fun item => group item.1 item.2) ++ rest)) :=
    hinput
  unfold parseCommand Frame.bytes Frame.command
  simp only
  rw [hcons]
  simp only [ne_eq, not_true_eq_false, if_false]
  rw [← hcons]
  simp only [List.length_singleton] at hline harguments
  simp only [hline, parseLength_eq_ok.mpr hcount, harguments]

/-- What the serializer writes is a frame. -/
def Frame.ofCommand (command : Command) (hsized : Sized command) : Frame where
  digits := Decimal.print command.length
  groups := command.map fun value => (Decimal.print value.length, value)
  count := by
    rw [List.length_map]
    exact numeral_print hsized.length_lt
  lengths := by
    intro item hitem
    obtain ⟨value, hvalue, rfl⟩ := List.mem_map.mp hitem
    exact numeral_print (hsized.argument_lt value hvalue)

theorem Frame.command_ofCommand (command : Command) (hsized : Sized command) :
    (Frame.ofCommand command hsized).command = command := by
  simp only [Frame.ofCommand, Frame.command, List.map_map]
  exact List.map_id command

theorem Frame.bytes_ofCommand (command : Command) (hsized : Sized command) :
    (Frame.ofCommand command hsized).bytes = serializeCommand command := by
  simp only [Frame.ofCommand, Frame.bytes, List.flatMap_map, serializeCommand,
    ← bulkString_eq_group]

/-! ## Commands -/

/-- **A serialized command is parsed back from the front of any buffer.** -/
theorem parseCommand_serializeCommand {command : Command} (hsized : Sized command)
    (rest : Bytes) :
    parseCommand (serializeCommand command ++ rest) =
      .result command (serializeCommand command).length := by
  have hparse := parseCommand_frame (Frame.ofCommand command hsized) rest
  rwa [Frame.bytes_ofCommand, Frame.command_ofCommand] at hparse

theorem serializeCommand_ne_nil (command : Command) : serializeCommand command ≠ [] := by
  simp [serializeCommand]

theorem length_serializeCommand_pos (command : Command) :
    0 < (serializeCommand command).length :=
  List.length_pos_iff.mpr (serializeCommand_ne_nil command)

/-! ## Commands one behind the other -/

/-- Parse so many commands, dropping the bytes of each. -/
def parseMany : ℕ → Bytes → Option (List (Command × ℕ) × Bytes)
  | 0, input => some ([], input)
  | count + 1, input =>
    match parseCommand input with
    | .result command bytesConsumed =>
      (parseMany count (input.drop bytesConsumed)).map fun (commands, rest) =>
        ((command, bytesConsumed) :: commands, rest)
    | .incomplete | .error _ => none

theorem parseMany_flatMap {commands : List Command} (hsized : ∀ command ∈ commands, Sized command)
    (rest : Bytes) :
    parseMany commands.length (commands.flatMap serializeCommand ++ rest) =
      some (commands.map fun command => (command, (serializeCommand command).length), rest) := by
  induction commands with
  | nil => rfl
  | cons command commands ih =>
    rw [List.length_cons, parseMany, List.flatMap_cons, List.append_assoc,
      parseCommand_serializeCommand (hsized command (by simp))]
    simp only [List.drop_left, ih fun other hother => hsized other (by simp [hother]),
      Option.map_some, List.map_cons]

/-- A number line ends at the first CR LF. -/
theorem print_cancel {m : ℕ}
    (h : Decimal.print m ++ crlf ++ before = Decimal.print n ++ crlf ++ after) :
    m = n ∧ before = after := by
  have hlength : (Decimal.print m).length = (Decimal.print n).length := by
    have hfind := congrArg findCrlf h
    rw [findCrlf_append fun _ => ne_cr_of_mem_print,
      findCrlf_append fun _ => ne_cr_of_mem_print] at hfind
    exact Option.some.inj hfind
  rw [List.append_assoc, List.append_assoc] at h
  obtain ⟨hprint, hrest⟩ := List.append_inj h hlength
  exact ⟨Decimal.print_injective hprint, List.append_cancel_left hrest⟩

theorem bulkString_cancel {first second : Bytes}
    (h : bulkString first ++ before = bulkString second ++ after) :
    first = second ∧ before = after := by
  simp only [bulkString, List.cons_append, List.cons.injEq, true_and, List.append_assoc] at h
  rw [← List.append_assoc, ← List.append_assoc (Decimal.print second.length)] at h
  obtain ⟨hlength, hvalues⟩ := print_cancel h
  obtain ⟨hvalue, hrest⟩ := List.append_inj hvalues hlength
  exact ⟨hvalue, List.append_cancel_left hrest⟩

theorem flatMap_bulkString_cancel {first second : Command} (hlength : first.length = second.length)
    (h : first.flatMap bulkString ++ before = second.flatMap bulkString ++ after) :
    first = second ∧ before = after := by
  induction first generalizing second with
  | nil =>
    obtain rfl := List.eq_nil_of_length_eq_zero hlength.symm
    exact ⟨rfl, h⟩
  | cons argument first ih =>
    cases second with
    | nil => cases hlength
    | cons argument' second =>
      rw [List.flatMap_cons, List.flatMap_cons, List.append_assoc, List.append_assoc] at h
      obtain ⟨rfl, hrest⟩ := bulkString_cancel h
      obtain ⟨rfl, hafter⟩ := ih (Nat.succ.inj hlength) hrest
      exact ⟨rfl, hafter⟩

/-- The bytes of a command determine it, whatever follows. -/
theorem serializeCommand_cancel {first second : Command}
    (h : serializeCommand first ++ before = serializeCommand second ++ after) :
    first = second ∧ before = after := by
  simp only [serializeCommand, List.cons_append, List.cons.injEq, true_and, List.append_assoc] at h
  rw [← List.append_assoc, ← List.append_assoc (Decimal.print second.length)] at h
  obtain ⟨hlength, harguments⟩ := print_cancel h
  exact flatMap_bulkString_cancel hlength harguments

/-- **The encoding of commands round-trips**: commands one behind the other are parsed back
with the lengths they were written with, up to exactly what follows them.  No command is
written like another one, nor as the beginning of another one. -/
theorem command_round_trip (commands : List Command)
    (hsized : ∀ command ∈ commands, Sized command) (rest : Bytes) :
    parseMany commands.length (commands.flatMap serializeCommand ++ rest) =
      some (commands.map fun command => (command, (serializeCommand command).length), rest) ∧
    Function.Injective serializeCommand ∧
    ∀ first second : Command, serializeCommand first <+: serializeCommand second →
      first = second := by
  refine ⟨parseMany_flatMap hsized rest, fun first second h => ?_, ?_⟩
  · exact (serializeCommand_cancel (congrArg (· ++ []) h)).1
  · rintro first second ⟨tail, htail⟩
    rw [← List.append_nil (serializeCommand second)] at htail
    exact (serializeCommand_cancel htail).1

/-- An empty command, an empty argument and an argument that looks like a frame. -/
theorem command_round_trip_mimicry :
    parseMany 3 ([[], [[]], [ascii "*1\r\n$0\r\n\r\n"]].flatMap serializeCommand ++ ascii "$") =
      some ([[], [[]], [ascii "*1\r\n$0\r\n\r\n"]].map fun command =>
        (command, (serializeCommand command).length), ascii "$") :=
  (command_round_trip [[], [[]], [ascii "*1\r\n$0\r\n\r\n"]] (by decide) (ascii "$")).1

end RedisServer.Resp
