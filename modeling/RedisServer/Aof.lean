import RedisServer.Resp.Stability

/-!
# The append-only file

A log of serialized commands.  `append` loops over `write(2)` until the payload
is out and then syncs as the policy says; `readCommands` parses the contents
frame by frame.  What the operating system does during one append is a script,
`Disk`: the results of the successive writes, and of the sync.
-/

namespace RedisServer.Aof

open Resp

variable {file : AppendOnlyFile}

inductive SyncPolicy where
  | always
  | everySecond
  | never
deriving DecidableEq, Repr

/-- The open file; the contents are what the operating system holds of it. -/
structure AppendOnlyFile where
  path : Bytes
  syncPolicy : SyncPolicy
  lastSync : Int
  contents : Bytes := []
deriving DecidableEq, Repr

/-- The result of one `write(2)`; a negative one is either an interruption or a
failure. -/
inductive WriteResult where
  | wrote (count : ℕ)
  | interrupted
  | failed (reason : Bytes)
deriving DecidableEq, Repr

/-- What happens during one append.  Once the listed writes are over, the next
one takes all that is left. -/
structure Disk where
  writes : List WriteResult := []
  now : Int := 0
  syncFailure : Option Bytes := none
  syncedAt : Int := 0
deriving DecidableEq, Repr

/-- The loop of `append` over the bytes that are not written yet. -/
def writeAll (path : Bytes) : List WriteResult → Bytes → Bytes → Except Bytes Unit × Bytes
  | _, [], contents => (.ok (), contents)
  | [], rest, contents => (.ok (), contents ++ rest)
  | .wrote count :: writes, rest, contents =>
    if count = 0 then (.error (ascii "AOF write made no progress"), contents)
    else writeAll path writes (rest.drop count) (contents ++ rest.take count)
  | .interrupted :: writes, rest, contents => writeAll path writes rest contents
  | .failed reason :: _, _, contents =>
    (.error (ascii "Cannot append to AOF file '" ++ path ++ ascii "': " ++ reason), contents)

def sync (disk : Disk) (file : AppendOnlyFile) : Except Bytes Unit × AppendOnlyFile :=
  match disk.syncFailure with
  | some reason =>
    (.error (ascii "Cannot sync AOF file '" ++ file.path ++ ascii "': " ++ reason), file)
  | none => (.ok (), { file with lastSync := disk.syncedAt })

def append (disk : Disk) (payload : Bytes) (file : AppendOnlyFile) :
    Except Bytes Unit × AppendOnlyFile :=
  match writeAll file.path disk.writes payload file.contents with
  | (.error message, contents) => (.error message, { file with contents })
  | (.ok (), contents) =>
    let file := { file with contents }
    if file.syncPolicy = .always then sync disk file
    else if file.syncPolicy = .everySecond ∧ disk.now - file.lastSync ≥ 1000000000 then
      sync disk file
    else (.ok (), file)

/-- The loop of `read_commands`.  A parsed command takes at least one byte, so
the length of the contents is fuel enough. -/
def readCommandsFrom (contents : Bytes) : ℕ → ℕ → List Command → Except Bytes (List Command)
  | 0, _, commands => .ok commands
  | fuel + 1, position, commands =>
    if position < contents.length then
      match parseCommand (contents.drop position) with
      | .result command bytesConsumed =>
        if bytesConsumed = 0 then
          .error (ascii "AOF parser made no progress at byte " ++ Decimal.print position)
        else
          readCommandsFrom contents fuel (position + bytesConsumed) (commands ++ [command])
      | .incomplete =>
        .error (ascii "Incomplete command in AOF file at byte " ++ Decimal.print position)
      | .error error =>
        .error (ascii "Invalid command in AOF file at byte " ++ Decimal.print position ++
          ascii ": " ++ error.message)
    else .ok commands

def readCommands (file : AppendOnlyFile) : Except Bytes (List Command) :=
  readCommandsFrom file.contents (file.contents.length + 1) 0 []

/-! ## Appending -/

theorem writeAll_ok {path : Bytes} {writes : List WriteResult} {rest contents written : Bytes}
    (h : writeAll path writes rest contents = (.ok (), written)) : written = contents ++ rest := by
  induction writes generalizing rest contents with
  | nil =>
    cases rest with
    | nil => simpa [writeAll] using h.symm
    | cons byte rest => simpa [writeAll] using h.symm
  | cons result writes ih =>
    cases rest with
    | nil => simpa [writeAll] using h.symm
    | cons byte rest =>
      cases result with
      | wrote count =>
        simp only [writeAll] at h
        split at h
        · cases h
        · rw [ih h, List.append_assoc, List.take_append_drop]
      | interrupted => exact ih (by simpa [writeAll] using h)
      | failed reason => simp [writeAll] at h

theorem sync_contents (disk : Disk) (file : AppendOnlyFile) :
    (sync disk file).2.contents = file.contents := by
  unfold sync
  split <;> rfl

/-- **A successful append adds exactly the payload.** -/
theorem contents_append {disk : Disk} {payload : Bytes} {after : AppendOnlyFile}
    (h : append disk payload file = (.ok (), after)) :
    after.contents = file.contents ++ payload := by
  unfold append at h
  split at h
  · cases h
  · rename_i contents hwrite
    have hcontents := writeAll_ok hwrite
    have hsync := sync_contents disk { file with contents }
    have hafter : after.contents = contents := by
      simp only at h
      split at h
      · rw [h] at hsync
        exact hsync
      · split at h
        · rw [h] at hsync
          exact hsync
        · cases h
          rfl
    rw [hafter, hcontents]

/-! ## Reading back -/

/-- The loop goes over serialized commands one by one. -/
theorem readCommandsFrom_flatMap (commands : List Command) (hsized : ∀ c ∈ commands, Sized c)
    (before rest : Bytes) (read : List Command) (fuel : ℕ) :
    readCommandsFrom (before ++ commands.flatMap serializeCommand ++ rest)
        (fuel + commands.length) before.length read =
      readCommandsFrom (before ++ commands.flatMap serializeCommand ++ rest) fuel
        (before ++ commands.flatMap serializeCommand).length (read ++ commands) := by
  induction commands generalizing before read with
  | nil => simp
  | cons command commands ih =>
    have hpos := length_serializeCommand_pos command
    have hparse := parseCommand_serializeCommand (hsized command (by simp))
      (commands.flatMap serializeCommand ++ rest)
    have hnext := ih (fun c hc => hsized c (by simp [hc])) (before ++ serializeCommand command)
      (read ++ [command])
    have hcontents : before ++ (command :: commands).flatMap serializeCommand ++ rest =
        before ++ (serializeCommand command ++
          (commands.flatMap serializeCommand ++ rest)) := by simp
    rw [List.length_cons, ← Nat.add_assoc, hcontents, readCommandsFrom, List.drop_left, hparse]
    simp only
    rw [if_pos (by simp only [List.length_append]; omega), if_neg (by omega)]
    simpa [List.append_assoc] using hnext

private theorem length_le_length_flatMap (commands : List Command) :
    commands.length ≤ (commands.flatMap serializeCommand).length := by
  induction commands with
  | nil => exact Nat.le_refl _
  | cons command rest ih =>
    have hpos := length_serializeCommand_pos command
    simp only [List.flatMap_cons, List.length_append, List.length_cons]
    omega

/-- **What was appended is read back.** -/
theorem readCommands_serialized {commands : List Command}
    (hcontents : file.contents = commands.flatMap serializeCommand)
    (hsized : ∀ c ∈ commands, Sized c) : readCommands file = .ok commands := by
  have hlength := length_le_length_flatMap commands
  obtain ⟨fuel, hfuel⟩ := Nat.exists_eq_add_of_le' hlength
  have hread := readCommandsFrom_flatMap commands hsized [] [] [] (fuel + 1)
  unfold readCommands
  rw [hcontents, hfuel, Nat.add_right_comm]
  simpa [readCommandsFrom] using hread

/-- **A log that is cut off inside a command is refused.** -/
theorem readCommands_torn {commands : List Command} {command : Command} {part : Bytes}
    (hsized : ∀ c ∈ commands, Sized c) (hcommand : Sized command)
    (hpart : part <+: serializeCommand command) (hne : part ≠ [])
    (hshort : part.length < (serializeCommand command).length)
    (hcontents : file.contents = commands.flatMap serializeCommand ++ part) :
    ∃ message, readCommands file = .error message := by
  have hlength := length_le_length_flatMap commands
  obtain ⟨fuel, hfuel⟩ := Nat.exists_eq_add_of_le' hlength
  have hread := readCommandsFrom_flatMap commands hsized [] part [] (fuel + part.length + 1)
  have hparse : parse part = none := stable_parse.incomplete_of_prefix
    (by simpa using parse_serializeCommand hcommand []) hpart hshort
  have hincomplete : parseCommand part = .incomplete := verdict_injective hparse
  have hpos : 0 < part.length := List.length_pos_iff.mpr hne
  refine ⟨ascii "Incomplete command in AOF file at byte " ++
    Decimal.print (commands.flatMap serializeCommand).length, ?_⟩
  unfold readCommands
  rw [hcontents, List.length_append, hfuel,
    show fuel + commands.length + part.length + 1 = fuel + part.length + 1 + commands.length by
      omega]
  simp only [List.nil_append, List.length_nil] at hread
  rw [hread, readCommandsFrom, List.drop_left, hincomplete, if_pos (by simpa using hpos), ← hfuel]

end RedisServer.Aof
