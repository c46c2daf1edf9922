import RedisServer.Resp.Stability

/-!
# The parser accepts its grammar

A `Frame` is what a command looks like in a buffer.  `parseCommand` finds a command
exactly where the buffer starts with a frame, and gives up only where no frame can come
any more (`parser_exact`).

The source computes with positions in the buffer and with differences of positions, all
of them unsigned.  `checkedCommand` is the same parser in which a position beyond the end
and a difference below zero are failures; it never fails.
-/

namespace RedisServer.Resp

variable {input : Bytes} {position : ℕ}

/-! ## What the parser has read -/

theorem findCrlf_spec {text : Bytes} {offset : ℕ} (h : findCrlf text = some offset) :
    text = text.take offset ++ crlf ++ text.drop (offset + 2) := by
  induction text using findCrlf.induct generalizing offset with
  | case1 => cases h
  | case2 tail =>
    obtain rfl : 0 = offset := by simpa [findCrlf] using h
    rfl
  | case3 byte tail hnot ih =>
    rw [findCrlf] at h
    · obtain ⟨found, hfound, rfl⟩ := Option.map_eq_some_iff.mp h
      exact congrArg (byte :: ·) (ih hfound)
    · exact hnot

theorem readLine_spec {line : Bytes} {next : ℕ} (h : readLine input position = some (line, next)) :
    input.drop position = line ++ crlf ++ input.drop next := by
  obtain ⟨offset, hoffset, hpair⟩ := Option.map_eq_some_iff.mp h
  obtain ⟨rfl, rfl⟩ := Prod.mk.inj hpair
  have hspec := findCrlf_spec hoffset
  rw [List.drop_drop, ← Nat.add_assoc] at hspec
  exact hspec

/-- A byte at a position is the first one of what is left. -/
theorem drop_eq_cons {byte : UInt8} (h : input[position]? = some byte) :
    input.drop position = byte :: input.drop (position + 1) := by
  obtain ⟨hlt, rfl⟩ := List.getElem?_eq_some_iff.mp h
  exact List.drop_eq_getElem_cons hlt

theorem parseBulk_spec {value : Bytes} {next : ℕ}
    (h : parseBulk input position = some (.ok (value, next))) :
    ∃ digits, Numeral digits value.length ∧
      input.drop position = group digits value ++ input.drop next := by
  unfold parseBulk at h
  cases hbyte : input[position]? with
  | none =>
    rw [hbyte] at h
    cases h
  | some byte =>
    simp only [hbyte] at h
    split at h
    · cases h
    · rename_i hdollar
      obtain rfl : byte = 36 := by simpa using hdollar
      cases hline : readLine input (position + 1) with
      | none =>
        rw [hline] at h
        cases h
      | some line =>
        obtain ⟨digits, start⟩ := line
        simp only [hline] at h
        cases hlength : parseLength digits with
        | error fault =>
          rw [hlength] at h
          cases h
        | ok bulkLength =>
          simp only [hlength] at h
          split at h
          · cases h
          · rename_i hlong
            split at h
            · cases h
            · split at h
              · cases h
              · rename_i hends
                push Not at hends
                cases h
                have hsize : ((input.drop start).take bulkLength).length = bulkLength := by
                  rw [List.length_take, List.length_drop]
                  omega
                refine ⟨digits, ?_, ?_⟩
                · rw [hsize]
                  exact parseLength_eq_ok.mp hlength
                · have hend : input.drop (start + bulkLength) =
                      crlf ++ input.drop (start + bulkLength + 2) := by
                    rw [drop_eq_cons hends.1, drop_eq_cons hends.2]
                    rfl
                  have hvalue : input.drop start = (input.drop start).take bulkLength ++
                      (crlf ++ input.drop (start + bulkLength + 2)) := by
                    rw [← hend, ← List.drop_drop, List.take_append_drop]
                  rw [drop_eq_cons hbyte, readLine_spec hline]
                  nth_rewrite 1 [hvalue]
                  simp [group]

/-- The loop has read arguments that lie one behind the other. -/
theorem parseArguments_spec {missing count : ℕ} {command found : Command}
    (hposition : position ≤ input.length)
    (h : parseArguments input missing position command = .result found count) :
    count ≤ input.length ∧ ∃ groups : List (Bytes × Bytes), groups.length = missing ∧
      (∀ item ∈ groups, Numeral item.1 item.2.length) ∧
      found = command ++ groups.map Prod.snd ∧
      input.drop position =
        groups.flatMap (fun item => group item.1 item.2) ++ input.drop count := by
  induction missing generalizing position command with
  | zero =>
    cases h
    exact ⟨hposition, [], rfl, by simp, by simp, rfl⟩
  | succ missing ih =>
    rw [parseArguments_succ] at h
    cases hbulk : parseBulk input position with
    | none =>
      rw [hbulk] at h
      cases h
    | some verdict =>
      simp only [hbulk] at h
      rcases verdict with fault | ⟨value, next⟩
      · cases h
      · obtain ⟨-, hinside⟩ := (parseBulk_stable hbulk).1 value next rfl
        obtain ⟨digits, hnumeral, hdrop⟩ := parseBulk_spec hbulk
        obtain ⟨hcount, groups, rfl, hgroups, rfl, hrest⟩ := ih hinside h
        refine ⟨hcount, (digits, value) :: groups, rfl, ?_, by simp, ?_⟩
        · exact List.forall_mem_cons.mpr ⟨hnumeral, hgroups⟩
        · rw [hdrop, hrest]
          simp

/-- **Whatever is parsed is a frame at the front of the buffer.** -/
theorem parseCommand_spec {command : Command} {count : ℕ}
    (h : parseCommand input = .result command count) :
    ∃ frame : Frame, frame.command = command ∧ frame.bytes = input.take count := by
  cases input with
  | nil => cases h
  | cons byte tail =>
    simp only [parseCommand] at h
    split at h
    · cases h
    · rename_i hstar
      obtain rfl : byte = 42 := by simpa using hstar
      cases hline : readLine (42 :: tail) 1 with
      | none =>
        rw [hline] at h
        cases h
      | some line =>
        obtain ⟨digits, next⟩ := line
        obtain ⟨-, hinside, -⟩ := readLine_stable hline
        simp only [hline] at h
        cases hlength : parseLength digits with
        | error fault =>
          rw [hlength] at h
          cases h
        | ok arrayLength =>
          simp only [hlength] at h
          obtain ⟨hcount, groups, rfl, hgroups, rfl, hrest⟩ := parseArguments_spec hinside h
          refine ⟨⟨digits, groups, parseLength_eq_ok.mp hlength, hgroups⟩, rfl, ?_⟩
          have hwhole : 42 :: tail = 42 :: digits ++ crlf ++
              groups.flatMap (fun item => group item.1 item.2) ++
                (42 :: tail).drop count := by
            have hdrop := readLine_spec hline
            rw [List.drop_succ_cons, List.drop_zero, hrest] at hdrop
            nth_rewrite 1 [hdrop]
            simp
          -- what is in front of the rest is as long as what was taken
          have hsame := congrArg (List.take count) hwhole
          rw [List.take_left'] at hsame
          · exact hsame.symm
          · have hlengths := congrArg List.length hwhole
            rw [List.length_append, List.length_drop] at hlengths
            omega

/-! ## The positions -/

/-- A position in the buffer or at its end. -/
def within (input : Bytes) (position : ℕ) : Option ℕ :=
  if position ≤ input.length then some position else none

/-- A difference of positions. -/
def minus (last first : ℕ) : Option ℕ := if first ≤ last then some (last - first) else none

theorem within_eq (h : position ≤ input.length) : within input position = some position := if_pos h

theorem minus_eq {last first : ℕ} (h : first ≤ last) : minus last first = some (last - first) :=
  if_pos h

def checkedLine (input : Bytes) (position : ℕ) : Option (Option (Bytes × ℕ)) :=
  match findCrlf (input.drop position) with
  | none => some none
  | some offset =>
    (minus (position + offset) position).bind fun length =>
      (within input (position + offset + 2)).map fun next =>
        some ((input.drop position).take length, next)

def checkedArguments (input : Bytes) : ℕ → ℕ → Command → Option ParseOutcome
  | 0, position, command => some (.result command position)
  | missing + 1, position, command =>
    if position ≥ input.length then some .incomplete
    else
      input[position]?.bind fun byte =>
        if byte ≠ 36 then
          some (.error ⟨.invalidFormat, ascii "Expected RESP bulk string"⟩)
        else
          (within input (position + 1)).bind fun position =>
            (checkedLine input position).bind fun line =>
              match line with
              | none => some .incomplete
              | some (text, position) =>
                match parseLength text with
                | .error error => some (.error error)
                | .ok bulkLength =>
                  (minus input.length position).bind fun left =>
                    if bulkLength > left then some .incomplete
                    else
                      (within input (position + bulkLength)).bind fun stop =>
                        (minus input.length stop).bind fun left =>
                          if left < 2 then some .incomplete
                          else
                            input[stop]?.bind fun cr =>
                              input[stop + 1]?.bind fun lf =>
                                if cr ≠ 13 ∨ lf ≠ 10 then
                                  some (.error ⟨.invalidFormat,
                                    ascii "Bulk string must end with CRLF"⟩)
                                else
                                  (within input (stop + 2)).bind fun next =>
                                    checkedArguments input missing next
                                      (command ++ [(input.drop position).take bulkLength])

/-- `parse_command`, failing wherever the source would leave the buffer. -/
def checkedCommand (input : Bytes) : Option ParseOutcome :=
  if input.length = 0 then some .incomplete
  else
    input[0]?.bind fun byte =>
      if byte ≠ 42 then some (.error ⟨.invalidFormat, ascii "Expected RESP array"⟩)
      else
        (within input 1).bind fun position =>
          (checkedLine input position).bind fun line =>
            match line with
            | none => some .incomplete
            | some (text, position) =>
              match parseLength text with
              | .error error => some (.error error)
              | .ok arrayLength => checkedArguments input arrayLength position []

theorem checkedLine_eq (h : position ≤ input.length) :
    checkedLine input position = some (readLine input position) := by
  unfold checkedLine readLine
  cases hoffset : findCrlf (input.drop position) with
  | none => rfl
  | some offset =>
    have hlength := (findCrlf_stable hoffset).1
    rw [List.length_drop] at hlength
    simp only [minus_eq (Nat.le_add_right position offset), Option.bind_some,
      within_eq (show position + offset + 2 ≤ input.length by omega), Option.map_some,
      Nat.add_sub_cancel_left]

/-- Started inside the buffer, the loop stays inside. -/
theorem checkedArguments_eq {missing : ℕ} (command : Command) (h : position ≤ input.length) :
    checkedArguments input missing position command =
      some (parseArguments input missing position command) := by
  induction missing generalizing position command with
  | zero => rfl
  | succ missing ih =>
    rw [checkedArguments, parseArguments]
    by_cases hend : position ≥ input.length
    · rw [if_pos hend, List.getElem?_eq_none hend]
    · have hlt : position < input.length := by omega
      rw [if_neg hend, List.getElem?_eq_getElem hlt, Option.bind_some]
      simp only
      by_cases hdollar : input[position] ≠ 36
      · rw [if_pos hdollar, if_pos hdollar]
      · rw [if_neg hdollar, if_neg hdollar, within_eq hlt, Option.bind_some,
          checkedLine_eq hlt, Option.bind_some]
        cases hline : readLine input (position + 1) with
        | none => rfl
        | some line =>
          obtain ⟨text, start⟩ := line
          obtain ⟨-, hinside, -⟩ := readLine_stable hline
          simp only
          cases parseLength text with
          | error fault => rfl
          | ok bulkLength =>
            simp only [minus_eq hinside, Option.bind_some]
            by_cases hshort : bulkLength > input.length - start
            · rw [if_pos hshort, if_pos hshort]
            · have hstop : start + bulkLength ≤ input.length := by omega
              rw [if_neg hshort, if_neg hshort, within_eq hstop, Option.bind_some,
                minus_eq hstop, Option.bind_some]
              by_cases htwo : input.length - (start + bulkLength) < 2
              · rw [if_pos htwo, if_pos htwo]
              · have hcr : start + bulkLength < input.length := by omega
                have hlf : start + bulkLength + 1 < input.length := by omega
                rw [if_neg htwo, if_neg htwo, List.getElem?_eq_getElem hcr,
                  List.getElem?_eq_getElem hlf, Option.bind_some, Option.bind_some]
                simp only [ne_eq, Option.some.injEq]
                split
                · rfl
                · have hnext : start + bulkLength + 2 ≤ input.length := by omega
                  rw [within_eq hnext, Option.bind_some]
                  exact ih _ hnext

/-- **The parser never leaves the buffer.** -/
theorem checkedCommand_eq (input : Bytes) : checkedCommand input = some (parseCommand input) := by
  cases input with
  | nil => rfl
  | cons byte tail =>
    have hone : 1 ≤ (byte :: tail).length := by simp
    rw [checkedCommand, parseCommand, if_neg (by simp), List.getElem?_cons_zero,
      Option.bind_some]
    by_cases hstar : byte ≠ 42
    · rw [if_pos hstar, if_pos hstar]
    · rw [if_neg hstar, if_neg hstar, within_eq hone, Option.bind_some, checkedLine_eq hone,
        Option.bind_some]
      cases hline : readLine (byte :: tail) 1 with
      | none => rfl
      | some line =>
        obtain ⟨text, start⟩ := line
        obtain ⟨-, hinside, -⟩ := readLine_stable hline
        simp only
        cases parseLength text with
        | error fault => rfl
        | ok arrayLength => exact checkedArguments_eq [] hinside

/-! ## Exactness -/

/-- A verdict that is an error is one on every longer buffer. -/
theorem parseCommand_error_append {fault : ParseError} (h : parseCommand input = .error fault)
    (rest : Bytes) : parseCommand (input ++ rest) = .error fault := by
  have hverdict : parse input = some (.error fault) := by rw [parse, h]; rfl
  exact verdict_injective (stable_parse.append hverdict rest)

/-- **The parser accepts exactly its grammar**: it finds a command just where the buffer
starts with a frame of that command, it fails only where no frame can come any more, and
it computes no position outside the buffer. -/
theorem parser_exact (input : Bytes) :
    (∀ command count, parseCommand input = .result command count ↔
      count ≤ input.length ∧
        ∃ frame : Frame, frame.bytes = input.take count ∧ frame.command = command) ∧
    (∀ command count, parseCommand input = .result command count →
      0 < count ∧ count ≤ input.length) ∧
    (∀ fault, parseCommand input = .error fault →
      ∀ rest (frame : Frame), ¬ frame.bytes <+: input ++ rest) ∧
    checkedCommand input = some (parseCommand input) := by
  have hconsumed : ∀ command count, parseCommand input = .result command count →
      0 < count ∧ count ≤ input.length := by
    intro command count h
    have hverdict : parse input = some (.ok (command, count)) := by rw [parse, h]; rfl
    exact stable_parse.consumed hverdict
  refine ⟨fun command count => ⟨fun h => ?_, ?_⟩, hconsumed, ?_, checkedCommand_eq input⟩
  · obtain ⟨frame, hcommand, hbytes⟩ := parseCommand_spec h
    exact ⟨(hconsumed command count h).2, frame, hbytes, hcommand⟩
  · rintro ⟨hcount, frame, hbytes, rfl⟩
    have hparse := parseCommand_frame frame (input.drop count)
    rw [hbytes, List.take_append_drop, List.length_take, Nat.min_eq_left hcount] at hparse
    exact hparse
  · rintro fault h rest frame ⟨tail, htail⟩
    have hfails := parseCommand_error_append h rest
    rw [← htail, parseCommand_frame] at hfails
    cases hfails

end RedisServer.Resp
