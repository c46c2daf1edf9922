import RedisServer.Library.Framing
import RedisServer.Resp.RoundTrip

/-!
# More bytes do not change a verdict

`parseCommand` starts from scratch whenever bytes have been appended to its
buffer.  That does no harm: a command or an error that it has found it finds
again, whatever follows (`stable_parse`).  Every step of the parser looks at
bytes that are there already; where one is missing, it answers `incomplete`.
-/

namespace RedisServer.Resp

open Framing

variable {input : Bytes} {position : ℕ}

/-- The verdict of `parseCommand`, as the reader of a connection sees it. -/
def ParseOutcome.verdict : ParseOutcome → Option (Except ParseError (Command × ℕ))
  | .result command bytesConsumed => some (.ok (command, bytesConsumed))
  | .incomplete => none
  | .error found => some (.error found)

theorem verdict_injective : Function.Injective ParseOutcome.verdict := by
  rintro (⟨command, count⟩ | _ | fault) (⟨command', count'⟩ | _ | fault') h <;> cases h <;> rfl

def parse : Parser UInt8 Command ParseError := fun input => (parseCommand input).verdict

/-! ## Lines -/

theorem findCrlf_stable {text : Bytes} {offset : ℕ} (h : findCrlf text = some offset) :
    offset + 2 ≤ text.length ∧ ∀ rest, findCrlf (text ++ rest) = some offset := by
  induction text using findCrlf.induct generalizing offset with
  | case1 => cases h
  | case2 tail =>
    obtain rfl : 0 = offset := by simpa [findCrlf] using h
    exact ⟨by simp, fun rest => rfl⟩
  | case3 byte tail hnot ih =>
    rw [findCrlf] at h
    · obtain ⟨found, hfound, rfl⟩ := Option.map_eq_some_iff.mp h
      obtain ⟨hlength, hstable⟩ := ih hfound
      refine ⟨by simp only [List.length_cons]; omega, fun rest => ?_⟩
      rw [List.cons_append, findCrlf, hstable, Option.map_some]
      -- The line end was found further on, so the second byte is there already.
      intro tail' hbyte htail
      cases tail with
      | nil => simp at hlength
      | cons second tail =>
        obtain ⟨rfl, -⟩ := List.cons.inj htail
        exact hnot tail hbyte rfl
    · exact hnot

theorem readLine_stable {line : Bytes} {next : ℕ}
    (h : readLine input position = some (line, next)) :
    position < next ∧ next ≤ input.length ∧
      ∀ rest, readLine (input ++ rest) position = some (line, next) := by
  obtain ⟨offset, hoffset, hpair⟩ := Option.map_eq_some_iff.mp h
  obtain ⟨rfl, rfl⟩ := Prod.mk.inj hpair
  obtain ⟨hlength, hstable⟩ := findCrlf_stable hoffset
  rw [List.length_drop] at hlength
  refine ⟨by omega, by omega, fun rest => ?_⟩
  have hdrop : (input ++ rest).drop position = input.drop position ++ rest :=
    List.drop_append_of_le_length (by omega)
  have htake : (input.drop position ++ rest).take offset = (input.drop position).take offset :=
    List.take_append_of_le_length (by rw [List.length_drop]; omega)
  unfold readLine
  rw [hdrop, hstable, Option.map_some, htake]

/-! ## Arguments -/

/-- One bulk string: the body of the loop over the arguments. -/
def parseBulk (input : Bytes) (position : ℕ) : Option (Except ParseError (Bytes × ℕ)) :=
  match input[position]? with
  | none => none
  | some byte =>
    if byte ≠ 36 then some (.error ⟨.invalidFormat, ascii "Expected RESP bulk string"⟩)
    else
      match readLine input (position + 1) with
      | none => none
      | some (text, position) =>
        match parseLength text with
        | .error fault => some (.error fault)
        | .ok bulkLength =>
          if input.length - position < bulkLength then none
          else if input.length - (position + bulkLength) < 2 then none
          else if input[position + bulkLength]? ≠ some 13 ∨
              input[position + bulkLength + 1]? ≠ some 10 then
            some (.error ⟨.invalidFormat, ascii "Bulk string must end with CRLF"⟩)
          else some (.ok ((input.drop position).take bulkLength, position + bulkLength + 2))

theorem parseArguments_succ (input : Bytes) (missing position : ℕ) (command : Command) :
    parseArguments input (missing + 1) position command =
      match parseBulk input position with
      | none => .incomplete
      | some (.error fault) => .error fault
      | some (.ok (value, next)) => parseArguments input missing next (command ++ [value]) := by
  rw [parseArguments, parseBulk]
  cases input[position]? with
  | none => rfl
  | some byte =>
    simp only
    split
    · rfl
    · cases readLine input (position + 1) with
      | none => rfl
      | some line =>
        simp only
        cases parseLength line.1 with
        | error fault => rfl
        | ok bulkLength =>
          simp only
          split
          · rfl
          · split
            · rfl
            · split <;> rfl

/-- A byte of the input stays where it is. -/
theorem getElem?_append_of_lt (h : position < input.length) (rest : Bytes) :
    (input ++ rest)[position]? = input[position]? :=
  List.getElem?_append_left h

theorem parseBulk_stable {outcome : Except ParseError (Bytes × ℕ)}
    (h : parseBulk input position = some outcome) :
    (∀ value next, outcome = .ok (value, next) → position < next ∧ next ≤ input.length) ∧
      ∀ rest, parseBulk (input ++ rest) position = some outcome := by
  unfold parseBulk at h ⊢
  cases hbyte : input[position]? with
  | none =>
    rw [hbyte] at h
    cases h
  | some byte =>
    have hlt : position < input.length := (List.getElem?_eq_some_iff.mp hbyte).1
    simp only [hbyte] at h
    simp only [getElem?_append_of_lt hlt, hbyte]
    by_cases hdollar : byte ≠ 36
    · rw [if_pos hdollar] at h
      cases h
      exact ⟨by rintro _ _ ⟨⟩, fun rest => if_pos hdollar⟩
    · simp only [if_neg hdollar] at h ⊢
      cases hline : readLine input (position + 1) with
      | none =>
        rw [hline] at h
        cases h
      | some line =>
        obtain ⟨text, next⟩ := line
        obtain ⟨hnext, hinside, hstable⟩ := readLine_stable hline
        simp only [hline] at h
        simp only [hstable]
        cases hlength : parseLength text with
        | error fault =>
          rw [hlength] at h
          cases h
          exact ⟨by rintro _ _ ⟨⟩, fun rest => rfl⟩
        | ok bulkLength =>
          simp only [hlength] at h ⊢
          -- What is tested is inside the input, so it reads the same in the longer one.
          split at h
          · cases h
          · split at h
            · cases h
            · rename_i hvalue hend
              have hcr := getElem?_append_of_lt
                (show next + bulkLength < input.length by omega)
              have hlf := getElem?_append_of_lt
                (show next + bulkLength + 1 < input.length by omega)
              have hargument : ∀ rest, ((input ++ rest).drop next).take bulkLength =
                  (input.drop next).take bulkLength := by
                intro rest
                rw [List.drop_append_of_le_length hinside,
                  List.take_append_of_le_length (by rw [List.length_drop]; omega)]
              refine ⟨?_, fun rest => ?_⟩
              · split at h
                · cases h
                  rintro _ _ ⟨⟩
                · cases h
                  rintro _ _ ⟨⟩
                  omega
              · rw [if_neg (by rw [List.length_append]; omega),
                  if_neg (by rw [List.length_append]; omega), hcr, hlf, hargument]
                exact h

/-- The loop over the arguments, started inside the input. -/
theorem parseArguments_stable {missing : ℕ} {command : Command}
    {outcome : Except ParseError (Command × ℕ)} (hposition : position ≤ input.length)
    (h : (parseArguments input missing position command).verdict = some outcome) :
    (∀ found count, outcome = .ok (found, count) → position ≤ count ∧ count ≤ input.length) ∧
      ∀ rest, (parseArguments (input ++ rest) missing position command).verdict = some outcome := by
  induction missing generalizing position command with
  | zero =>
    cases h
    refine ⟨?_, fun rest => rfl⟩
    rintro _ _ ⟨⟩
    exact ⟨Nat.le_refl _, hposition⟩
  | succ missing ih =>
    simp only [parseArguments_succ] at h ⊢
    cases hbulk : parseBulk input position with
    | none =>
      rw [hbulk] at h
      cases h
    | some verdict =>
      obtain ⟨hinside, hstable⟩ := parseBulk_stable hbulk
      simp only [hbulk] at h
      simp only [hstable]
      rcases verdict with fault | ⟨value, next⟩
      · cases h
        exact ⟨by rintro _ _ ⟨⟩, fun rest => rfl⟩
      · obtain ⟨hnext, hle⟩ := hinside value next rfl
        obtain ⟨hcount, hrest⟩ := ih hle h
        refine ⟨fun found count hfound => ?_, hrest⟩
        obtain ⟨hge, hend⟩ := hcount found count hfound
        exact ⟨by omega, hend⟩

/-! ## Commands -/

/-- **A verdict on the front of a buffer is final.** -/
theorem stable_parse : Stable parse := by
  have hverdict : ∀ {input : Bytes} {outcome}, parse input = some outcome →
      (∀ found count, outcome = .ok (found, count) → 0 < count ∧ count ≤ input.length) ∧
        ∀ rest, parse (input ++ rest) = some outcome := by
    intro input outcome h
    unfold parse parseCommand at h ⊢
    cases input with
    | nil => cases h
    | cons byte tail =>
      simp only [List.cons_append] at h ⊢
      by_cases hstar : byte ≠ 42
      · rw [if_pos hstar] at h
        cases h
        exact ⟨by rintro _ _ ⟨⟩, fun rest => by rw [if_pos hstar]; rfl⟩
      · simp only [if_neg hstar] at h ⊢
        cases hline : readLine (byte :: tail) 1 with
        | none =>
          rw [hline] at h
          cases h
        | some line =>
          obtain ⟨text, next⟩ := line
          obtain ⟨hnext, hinside, hstable⟩ := readLine_stable hline
          simp only [hline] at h
          simp only [← List.cons_append, hstable]
          cases hlength : parseLength text with
          | error fault =>
            rw [hlength] at h
            cases h
            exact ⟨by rintro _ _ ⟨⟩, fun rest => rfl⟩
          | ok arrayLength =>
            simp only [hlength] at h ⊢
            obtain ⟨hcount, hrest⟩ := parseArguments_stable hinside h
            refine ⟨fun found count hfound => ?_, hrest⟩
            obtain ⟨hge, hend⟩ := hcount found count hfound
            exact ⟨by omega, hend⟩
  exact ⟨rfl, fun h => (hverdict h).1 _ _ rfl, fun h => (hverdict h).2⟩

/-- A serialized command is one frame. -/
theorem parse_serializeCommand {command : Command} (hsized : Sized command) (rest : Bytes) :
    parse (serializeCommand command ++ rest) =
      some (.ok (command, (serializeCommand command).length)) := by
  unfold parse
  rw [parseCommand_serializeCommand hsized]
  rfl

end RedisServer.Resp
