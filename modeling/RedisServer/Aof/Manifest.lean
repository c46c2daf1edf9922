import RedisServer.Library.Fields
import RedisServer.Processor

/-!
# The manifest of the append-only file

The manifest names the file that holds the log.  `create_manifest` writes it, one line of
six fields with blanks between them, and `read_active_filename` reads it at the next start.
The name comes from the command line, where `is_valid_database_filename` looks at its path
structure only.

Nothing is quoted, so a name with white space in it is written as several fields, and a
field never has white space.  That is the whole condition (`manifest_read_back_iff`).

Paths are those of POSIX: what has a parent path has a slash.  The file system is taken to
return what was written.
-/

namespace RedisServer.Aof

open Fields

variable {filename : Bytes}

/-! ## The validation of file names -/

/-- `path::has_parent_path`. -/
def hasParentPath (filename : Bytes) : Bool := decide (47 ∈ filename)

/-- `path::is_absolute`. -/
def isAbsolute (filename : Bytes) : Bool := filename.head? == some 47

def isValidDatabaseFilename (filename : Bytes) : Bool :=
  if filename.isEmpty then false
  else !hasParentPath filename && filename != ascii "." && filename != ascii ".."

def isSafeManifestFilename (filename : Bytes) : Bool :=
  if filename.isEmpty then false
  else !isAbsolute filename && !hasParentPath filename && filename != ascii "." &&
    filename != ascii ".."

/-! ## Reading -/

structure ManifestEntry where
  filename : Bytes
  sequence : ℕ
deriving DecidableEq, Repr

def parseSequence (text : Bytes) : Except Bytes ℕ :=
  match parseUnsigned text with
  | none => .error (ascii "Invalid sequence number in AOF manifest")
  | some sequence => .ok sequence

/-- `std::isspace` in the classic locale. -/
def isSpace (byte : UInt8) : Bool := byte == 32 || (9 ≤ byte && byte ≤ 13)

/-- `std::istream::operator>>` into a string. -/
def readWord (text : Bytes) : Option (Bytes × Bytes) := readField isSpace text

/-- The six fields of a line: the name, the sequence number and the type, each behind its
label.  There must not be a seventh one. -/
def readEntryFields (line : Bytes) : Option (Bytes × Bytes × Bytes) := do
  let (fileLabel, fields) ← readWord line
  let (filename, fields) ← readWord fields
  let (sequenceLabel, fields) ← readWord fields
  let (sequenceText, fields) ← readWord fields
  let (typeLabel, fields) ← readWord fields
  let (type, fields) ← readWord fields
  if (readWord fields).isSome ∨ fileLabel ≠ ascii "file" ∨ sequenceLabel ≠ ascii "seq" ∨
      typeLabel ≠ ascii "type" then none
  else some (filename, sequenceText, type)

/-- The loop of `read_active_filename` over the lines. -/
def readEntries (manifestPath : Bytes) :
    List Bytes → Option ManifestEntry → Except Bytes (Option ManifestEntry)
  | [], activeEntry => .ok activeEntry
  | line :: rest, activeEntry =>
    match readEntryFields line with
    | none => .error (ascii "Invalid entry in AOF manifest '" ++ manifestPath ++ ascii "'")
    | some (filename, sequenceText, type) =>
      if type ≠ ascii "i" then readEntries manifestPath rest activeEntry
      else if !isSafeManifestFilename filename then
        .error (ascii "Invalid incremental filename in AOF manifest")
      else
        match parseSequence sequenceText with
        | .error message => .error message
        | .ok sequence =>
          if activeEntry.all fun entry => decide (sequence > entry.sequence) then
            readEntries manifestPath rest (some ⟨filename, sequence⟩)
          else readEntries manifestPath rest activeEntry

def readActiveFilename (manifestPath contents : Bytes) : Except Bytes Bytes :=
  match readEntries manifestPath (lines 10 contents) none with
  | .error message => .error message
  | .ok none => .error (ascii "AOF manifest does not contain an incremental file")
  | .ok (some entry) => .ok entry.filename

/-! ## Writing -/

/-- The active file name, and what is written into the manifest. -/
def createManifest (config : AofConfig) : Bytes × Bytes :=
  let activeFilename := config.appendFilename ++ ascii ".1.incr.aof"
  (activeFilename, ascii "file " ++ activeFilename ++ ascii " seq 1 type i\n")

/-- Where `AppendOnlyFile::open` takes the name of the log from, and the manifest that it
leaves behind. -/
def openActive (manifestPath : Bytes) (config : AofConfig) (manifest : Option Bytes) :
    Except Bytes Bytes × Option Bytes :=
  match manifest with
  | some contents => (readActiveFilename manifestPath contents, some contents)
  | none => (.ok (createManifest config).1, some (createManifest config).2)

/-! ## What is read is a field -/

theorem isSpace_of_readEntryFields {line sequenceText type : Bytes}
    (h : readEntryFields line = some (filename, sequenceText, type)) :
    ∀ byte ∈ filename, isSpace byte = false := by
  simp only [readEntryFields, Option.bind_eq_bind, Option.bind_eq_some_iff, Prod.exists] at h
  obtain ⟨_, _, -, word, _, hword, _, _, -, _, _, -, _, _, -, _, _, -, hfields⟩ := h
  split at hfields
  · cases hfields
  · cases hfields
    exact not_separator_of_readField hword

/-- Neither does the active entry have white space in its name, however many lines there
are. -/
theorem isSpace_of_readEntries {manifestPath : Bytes} {lines : List Bytes}
    {activeEntry : Option ManifestEntry} {entry : ManifestEntry}
    (hactive : ∀ active ∈ activeEntry, ∀ byte ∈ active.filename, isSpace byte = false)
    (h : readEntries manifestPath lines activeEntry = .ok (some entry)) :
    ∀ byte ∈ entry.filename, isSpace byte = false := by
  induction lines generalizing activeEntry with
  | nil =>
    cases h
    exact hactive entry rfl
  | cons line rest ih =>
    rw [readEntries] at h
    split at h
    · cases h
    rename_i filename sequenceText type hfields
    split at h
    · exact ih hactive h
    split at h
    · cases h
    split at h
    · cases h
    split at h
    · refine ih ?_ h
      rintro active ⟨⟩
      exact isSpace_of_readEntryFields hfields
    · exact ih hactive h

theorem isSpace_of_readActiveFilename {manifestPath contents : Bytes}
    (h : readActiveFilename manifestPath contents = .ok filename) :
    ∀ byte ∈ filename, isSpace byte = false := by
  unfold readActiveFilename at h
  split at h
  · cases h
  · cases h
  · rename_i entry hentry
    cases h
    exact isSpace_of_readEntries (by simp) hentry

/-! ## What is written is read -/

theorem isSafe_of_isValid (h : isValidDatabaseFilename filename = true) :
    isSafeManifestFilename (filename ++ ascii ".1.incr.aof") = true := by
  unfold isValidDatabaseFilename at h
  split at h
  · cases h
  rename_i hempty
  obtain ⟨first, rest, rfl⟩ : ∃ first rest, filename = first :: rest :=
    List.exists_cons_of_ne_nil (by simpa using hempty)
  have hslash : 47 ∉ first :: rest := by
    intro hmem
    simp [hasParentPath, hmem] at h
  have hparent : 47 ∉ first :: rest ++ ascii ".1.incr.aof" := by
    intro hmem
    rcases List.mem_append.mp hmem with hname | hsuffix
    · exact hslash hname
    · exact absurd hsuffix (by decide)
  have hfirst : first ≠ 47 := fun heq => hslash (heq ▸ List.mem_cons_self)
  -- the suffix alone is longer than both dots
  have hlong : ∀ {dots : Bytes}, dots.length < 11 → first :: rest ++ ascii ".1.incr.aof" ≠ dots := by
    rintro dots hshort rfl
    have hsuffix : (ascii ".1.incr.aof").length = 11 := by decide
    rw [List.length_append] at hshort
    omega
  have hdot : first :: rest ++ ascii ".1.incr.aof" ≠ ascii "." := hlong (by decide)
  have hdots : first :: rest ++ ascii ".1.incr.aof" ≠ ascii ".." := hlong (by decide)
  have hrelative : isAbsolute (first :: rest ++ ascii ".1.incr.aof") = false := by
    simp [isAbsolute, hfirst]
  rw [isSafeManifestFilename, if_neg (by simp), hrelative, hasParentPath, decide_eq_false hparent,
    bne_iff_ne.mpr hdot, bne_iff_ne.mpr hdots]
  rfl

/-- A name without white space is the second of the six fields. -/
theorem readEntryFields_written (hne : filename ≠ [])
    (hname : ∀ byte ∈ filename, isSpace byte = false) :
    readEntryFields (ascii "file " ++ filename ++ ascii " seq 1 type i") =
      some (filename, ascii "1", ascii "i") := by
  have hline : ascii "file " ++ filename ++ ascii " seq 1 type i" =
      ascii "file" ++ 32 :: (filename ++ 32 :: ascii "seq 1 type i") := by
    rw [List.append_assoc]
    rfl
  have hlabel : readWord (ascii "file" ++ 32 :: (filename ++ 32 :: ascii "seq 1 type i")) =
      some (ascii "file", 32 :: (filename ++ 32 :: ascii "seq 1 type i")) :=
    readField_word (by decide) (by decide +kernel) (by decide) _
  have hfilename : readWord (32 :: (filename ++ 32 :: ascii "seq 1 type i")) =
      some (filename, 32 :: ascii "seq 1 type i") := by
    rw [readWord, readField_gap (by decide)]
    exact readField_word hne hname (by decide) _
  have hsequence : readWord (32 :: ascii "seq 1 type i") =
      some (ascii "seq", ascii " 1 type i") := by decide
  have hone : readWord (ascii " 1 type i") = some (ascii "1", ascii " type i") := by decide
  have htype : readWord (ascii " type i") = some (ascii "type", ascii " i") := by decide
  have hincremental : readWord (ascii " i") = some (ascii "i", []) := by decide
  have hnone : readWord [] = none := by decide
  simp only [readEntryFields, hline, hlabel, hfilename, hsequence, hone, htype, hincremental,
    hnone, Option.bind_eq_bind, Option.bind_some]
  simp

/-- The manifest is one line. -/
theorem lines_createManifest {config : AofConfig}
    (hname : ∀ byte ∈ config.appendFilename, isSpace byte = false) :
    lines 10 (createManifest config).2 =
      [ascii "file " ++ (createManifest config).1 ++ ascii " seq 1 type i"] := by
  have hwritten : (createManifest config).2 =
      ascii "file " ++ (createManifest config).1 ++ ascii " seq 1 type i" ++ [10] := by
    simp only [createManifest, List.append_assoc]
    rfl
  rw [hwritten]
  refine lines_concat fun hmem => ?_
  simp only [createManifest, List.mem_append] at hmem
  rcases hmem with (hlabel | hfilename | hsuffix) | hfields
  · exact absurd hlabel (by decide)
  · exact absurd (hname 10 hfilename) (by decide)
  · exact absurd hsuffix (by decide)
  · exact absurd hfields (by decide)

/-- **The manifest is read back exactly if the name has no white space.**  Then, and only
then, a restart with the same configuration opens the same log. -/
theorem manifest_read_back_iff (manifestPath : Bytes) (config : AofConfig)
    (hvalid : isValidDatabaseFilename config.appendFilename = true) :
    (readActiveFilename manifestPath (createManifest config).2 = .ok (createManifest config).1 ∧
        (openActive manifestPath config (openActive manifestPath config none).2).1 =
          (openActive manifestPath config none).1) ↔
      ∀ byte ∈ config.appendFilename, isSpace byte = false := by
  have hreopened : (openActive manifestPath config (openActive manifestPath config none).2).1 =
      readActiveFilename manifestPath (createManifest config).2 := rfl
  rw [hreopened, openActive, and_self_iff]
  constructor
  · intro hread byte hbyte
    exact isSpace_of_readActiveFilename hread byte (List.mem_append_left _ hbyte)
  · intro hname
    have hne : (createManifest config).1 ≠ [] :=
      List.append_ne_nil_of_right_ne_nil _ (by decide)
    have hactive : ∀ byte ∈ (createManifest config).1, isSpace byte = false := by
      intro byte hbyte
      rcases List.mem_append.mp hbyte with hbyte | hsuffix
      · exact hname byte hbyte
      · have hplain : (ascii ".1.incr.aof").all (fun byte => !isSpace byte) = true := by decide
        simpa using List.all_eq_true.mp hplain byte hsuffix
    have hsafe : isSafeManifestFilename (createManifest config).1 = true :=
      isSafe_of_isValid hvalid
    have hsequence : parseSequence (ascii "1") = .ok 1 := by decide
    simp only [readActiveFilename, lines_createManifest hname, readEntries,
      readEntryFields_written hne hactive, hsafe, hsequence]
    simp

/-- A name that the command line accepts, and that is not read back. -/
theorem blank_in_filename :
    isValidDatabaseFilename (ascii "my log") = true ∧
      createManifest { appendFilename := ascii "my log" } =
        (ascii "my log.1.incr.aof", ascii "file my log.1.incr.aof seq 1 type i\n") ∧
      readActiveFilename (ascii "m") (ascii "file my log.1.incr.aof seq 1 type i\n") =
        .error (ascii "Invalid entry in AOF manifest 'm'") := by
  decide +kernel

/-- The name of the default configuration is read back. -/
theorem manifest_read_back_default :
    readActiveFilename (ascii "m") (createManifest {}).2 = .ok (createManifest {}).1 := by
  have hplain : (ascii "appendonly.aof").all (fun byte => !isSpace byte) = true := by decide
  refine ((manifest_read_back_iff (ascii "m") {} (by decide)).mpr fun byte hbyte => ?_).1
  simpa using List.all_eq_true.mp hplain byte hbyte

end RedisServer.Aof
