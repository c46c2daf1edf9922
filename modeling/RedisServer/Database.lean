import Mathlib.Data.Prod.Lex
import RedisServer.Library.BinarySearch
import RedisServer.Library.KeyedStore
import RedisServer.Basic

/-!
# The database

One map from keys to entries, an entry being a string, a list or a stream with
an optional deadline, together with the revision numbers that `WATCH` compares.
Both are a `KeyedStore`: `entries` is `_entries`, `keyRevisions` is
`_key_revisions` and `nextRevision` is `_next_revision`.

Deadlines are kept in nanoseconds of the steady clock and computed in signed
64-bit arithmetic.  An operation takes one reading of the clocks.
-/

namespace RedisServer

/-! ## Values -/

/-- The identifier of a stream entry, ordered by milliseconds, then sequence. -/
structure StreamId where
  milliseconds : UInt64
  sequence : UInt64
deriving DecidableEq, Repr

namespace StreamId

instance : LinearOrder StreamId :=
  LinearOrder.lift' (fun id => toLex (id.milliseconds.toNat, id.sequence.toNat)) <| by
    rintro ⟨ms₁, seq₁⟩ ⟨ms₂, seq₂⟩ h
    simpa [← UInt64.toNat_inj] using h

def toString (id : StreamId) : Bytes :=
  Decimal.print id.milliseconds.toNat ++ ascii "-" ++ Decimal.print id.sequence.toNat

/-- The value-initialised identifier `0-0`. -/
def zero : StreamId := ⟨0, 0⟩

theorem lt_iff {first second : StreamId} :
    first < second ↔ first.milliseconds.toNat < second.milliseconds.toNat ∨
      first.milliseconds.toNat = second.milliseconds.toNat ∧
        first.sequence.toNat < second.sequence.toNat :=
  Prod.Lex.toLex_lt_toLex

theorem zero_le (id : StreamId) : zero ≤ id := by
  rw [← not_lt, lt_iff]
  simp [zero]

theorem ne_zero_of_lt {first second : StreamId} (h : first < second) : second ≠ zero := by
  rintro rfl
  exact absurd h (not_lt_of_ge (zero_le first))

end StreamId

structure StreamEntry where
  id : StreamId
  values : List (Bytes × Bytes)
deriving DecidableEq, Repr

/-- The identifier an `XADD` asks for. -/
inductive IdRequest where
  | automatic
  | automaticSequence (milliseconds : UInt64)
  | explicit (id : StreamId)
deriving DecidableEq, Repr

inductive ReadStartMode where
  | afterId
  | latest
deriving DecidableEq, Repr

structure ReadRequest where
  key : Bytes
  startMode : ReadStartMode
  afterId : StreamId := StreamId.zero
deriving DecidableEq, Repr

structure ReadResult where
  key : Bytes
  entries : List StreamEntry
deriving DecidableEq, Repr

inductive Value where
  | string (text : Bytes)
  | list (elements : List Bytes)
  | stream (entries : List StreamEntry)
deriving DecidableEq, Repr

structure Entry where
  value : Value
  expiresAt : Option Int := none
deriving DecidableEq, Repr

/-- The deadline of the entry has been reached. -/
def Entry.expired (clock : Clock) (entry : Entry) : Bool :=
  match entry.expiresAt with
  | some deadline => decide (deadline ≤ clock.steady)
  | none => false

/-- What has expired stays expired. -/
theorem Entry.expired_mono {sooner later : Clock} (hle : sooner.steady ≤ later.steady) (entry : Entry)
    (h : entry.expired sooner = true) : entry.expired later = true := by
  unfold expired at h ⊢
  cases hdeadline : entry.expiresAt with
  | none => simp [hdeadline] at h
  | some deadline =>
    simp only [hdeadline, decide_eq_true_eq] at h ⊢
    omega

/-- `now() + milliseconds`, in 64-bit nanoseconds. -/
def deadlineAfter (now milliseconds : Int) : Int :=
  wrap64 (now + wrap64 (milliseconds * 1000000))

abbrev Database := KeyedStore Bytes Entry

namespace Database

inductive ListAddMode where
  | append
  | prepend
deriving DecidableEq, Repr

/-- The errors an operation can return. -/
inductive Error where
  | keyNotFound
  | wrongType
  | invalidStreamIdValue
  | valueNotInteger
deriving DecidableEq, Repr

inductive ValueType where
  | none
  | string
  | list
  | stream
deriving DecidableEq, Repr

/-! ## Strings and keys -/

def findActiveEntry (clock : Clock) (key : Bytes) (database : Database) :
    Option Entry × Database :=
  database.findActive (Entry.expired clock) key

def set (clock : Clock) (key value : Bytes) (expiry : Option Int) (database : Database) :
    Database :=
  database.put key
    { value := .string value, expiresAt := expiry.map (deadlineAfter clock.steady) }

def get (clock : Clock) (key : Bytes) (database : Database) : Except Error Bytes × Database :=
  match findActiveEntry clock key database with
  | (none, database) => (.error .keyNotFound, database)
  | (some entry, database) =>
    match entry.value with
    | .string text => (.ok text, database)
    | _ => (.error .wrongType, database)

def getType (clock : Clock) (key : Bytes) (database : Database) : ValueType × Database :=
  match findActiveEntry clock key database with
  | (none, database) => (.none, database)
  | (some entry, database) =>
    match entry.value with
    | .string _ => (.string, database)
    | .list _ => (.list, database)
    | .stream _ => (.stream, database)

/-- The loop of `keys` over the entries not visited yet. -/
def keysFrom (clock : Clock) :
    List ((_ : Bytes) × Entry) → Database → List Bytes × Database
  | [], database => ([], database)
  | ⟨key, entry⟩ :: rest, database =>
    if entry.expired clock then keysFrom clock rest (database.remove key)
    else
      let (result, database) := keysFrom clock rest database
      (key :: result, database)

def keys (clock : Clock) (database : Database) : List Bytes × Database :=
  keysFrom clock database.entries.entries database

def incrementKey (clock : Clock) (key : Bytes) (database : Database) :
    Except Error Int × Database :=
  match findActiveEntry clock key database with
  | (some entry, database) =>
    match entry.value with
    | .string text =>
      match parseSigned 64 text with
      | none => (.error .valueNotInteger, database)
      | some parsed =>
        let result := wrap64 (parsed + 1)
        (.ok result, database.put key { entry with value := .string (printSigned result) })
    | _ => (.error .wrongType, database)
  | (none, database) => (.ok 1, database.put key { value := .string (printSigned 1) })

/-! ## Lists -/

def addListElements (clock : Clock) (key : Bytes) (values : List Bytes) (mode : ListAddMode)
    (database : Database) : Except Error ℕ × Database :=
  let (found, database) := findActiveEntry clock key database
  let (entry, database) :=
    match found with
    | some entry => (entry, database)
    | none =>
      ({ value := .list [] },
        { database with entries := database.entries.insert key { value := .list [] } })
  match entry.value with
  | .list elements =>
    let elements :=
      match mode with
      | .append => elements ++ values
      | .prepend => values.reverse ++ elements
    (.ok elements.length, database.put key { entry with value := .list elements })
  | _ => (.error .wrongType, database)

/-- The slice that `list_elements` takes of a list. -/
def slice (elements : List Bytes) (start stop : Int) : List Bytes :=
  let size : Int := elements.length
  if size = 0 then []
  else
    let start := if start < 0 then start + size else start
    let stop := if stop < 0 then stop + size else stop
    let start := if start < 0 then 0 else start
    let stop := if stop ≥ size then size - 1 else stop
    if stop < 0 ∨ start ≥ size ∨ start > stop then []
    else (elements.drop start.toNat).take (stop + 1 - start).toNat

def listElements (clock : Clock) (key : Bytes) (start stop : Int) (database : Database) :
    Except Error (List Bytes) × Database :=
  match findActiveEntry clock key database with
  | (none, database) => (.ok [], database)
  | (some entry, database) =>
    match entry.value with
    | .list elements => (.ok (slice elements start stop), database)
    | _ => (.error .wrongType, database)

def getListLength (clock : Clock) (key : Bytes) (database : Database) :
    Except Error ℕ × Database :=
  match findActiveEntry clock key database with
  | (none, database) => (.ok 0, database)
  | (some entry, database) =>
    match entry.value with
    | .list elements => (.ok elements.length, database)
    | _ => (.error .wrongType, database)

/-- Write a list back after a pop; an emptied list is removed with its key. -/
def storeRemaining (key : Bytes) (entry : Entry) (remaining : List Bytes)
    (database : Database) : Database :=
  if remaining = [] then database.remove key
  else database.put key { entry with value := .list remaining }

def popListElement (clock : Clock) (key : Bytes) (database : Database) :
    Except Error Bytes × Database :=
  match findActiveEntry clock key database with
  | (none, database) => (.error .keyNotFound, database)
  | (some entry, database) =>
    match entry.value with
    | .list [] => (.error .keyNotFound, database)
    | .list (front :: remaining) =>
      (.ok front, storeRemaining key entry remaining database)
    | _ => (.error .wrongType, database)

def popListElements (clock : Clock) (key : Bytes) (numberOfItems : Int) (database : Database) :
    Except Error (List Bytes) × Database :=
  match findActiveEntry clock key database with
  | (none, database) => (.error .keyNotFound, database)
  | (some entry, database) =>
    match entry.value with
    | .list [] => (.error .keyNotFound, database)
    | .list elements =>
      if numberOfItems ≤ 0 then (.ok [], database)
      else
        let count := min numberOfItems.toNat elements.length
        (.ok (elements.take count), storeRemaining key entry (elements.drop count) database)
    | _ => (.error .wrongType, database)

/-! ## Streams -/

/-- The identifier of the last entry, `0-0` for an empty stream. -/
def lastId (entries : List StreamEntry) : StreamId :=
  match entries.getLast? with
  | some entry => entry.id
  | none => StreamId.zero

/-- The identifier that an `XADD` gets on a stream with the given entries. -/
def newStreamId (clock : Clock) (entries : List StreamEntry) : IdRequest → StreamId
  | .explicit id => id
  | .automaticSequence milliseconds =>
    if entries ≠ [] ∧ milliseconds = (lastId entries).milliseconds then
      ⟨milliseconds, (lastId entries).sequence + 1⟩
    else ⟨milliseconds, if milliseconds = 0 then 1 else 0⟩
  | .automatic =>
    let currentTime := UInt64.ofInt clock.system
    if entries ≠ [] ∧ currentTime ≤ (lastId entries).milliseconds then
      ⟨(lastId entries).milliseconds, (lastId entries).sequence + 1⟩
    else ⟨currentTime, 0⟩

def addStream (clock : Clock) (key : Bytes) (id : IdRequest) (values : List (Bytes × Bytes))
    (database : Database) : Except Error StreamId × Database :=
  let (found, database) := findActiveEntry clock key database
  let (entry, database) :=
    match found with
    | some entry => (entry, database)
    | none =>
      ({ value := .stream [] },
        { database with entries := database.entries.insert key { value := .stream [] } })
  match entry.value with
  | .stream entries =>
    let newId := newStreamId clock entries id
    if entries ≠ [] ∧ newId ≤ lastId entries then (.error .invalidStreamIdValue, database)
    else
      (.ok newId,
        database.put key { entry with value := .stream (entries ++ [⟨newId, values⟩]) })
  | _ => (.error .wrongType, database)

/-- `std::ranges::lower_bound` by identifier. -/
def lowerBound (entries : List StreamEntry) (id : StreamId) : ℕ :=
  BinarySearch.partitionPoint (fun entry => decide (entry.id < id)) entries

/-- `std::ranges::upper_bound` by identifier. -/
def upperBound (entries : List StreamEntry) (id : StreamId) : ℕ :=
  BinarySearch.partitionPoint (fun entry => decide (¬ id < entry.id)) entries

/-- The entries between two identifiers.  `none` when the two searches cross:
the source then builds a vector from an inverted range, which throws in the
worker thread and takes the server down. -/
def streamRange (clock : Clock) (key : Bytes) (start stop : StreamId) (database : Database) :
    Option (Except Error (List StreamEntry)) × Database :=
  match findActiveEntry clock key database with
  | (none, database) => (some (.error .keyNotFound), database)
  | (some entry, database) =>
    match entry.value with
    | .stream entries =>
      let first := lowerBound entries start
      let last := upperBound entries stop
      if first ≤ last then (some (.ok ((entries.drop first).take (last - first))), database)
      else (none, database)
    | _ => (some (.error .wrongType), database)

/-- Fix the starting point of one request against the stream it names. -/
def ReadRequest.resolve (request : ReadRequest) (entries : List StreamEntry) : ReadRequest :=
  match request.startMode with
  | .afterId => request
  | .latest => { request with afterId := lastId entries, startMode := .afterId }

/-- The first loop of `read_streams`.  The requests are updated in place, so an
error in the middle leaves the earlier ones resolved. -/
def resolveRequests (clock : Clock) :
    List ReadRequest → Database → Except Error Unit × List ReadRequest × Database
  | [], database => (.ok (), [], database)
  | request :: rest, database =>
    match findActiveEntry clock request.key database with
    | (none, database) =>
      let (result, rest, database) := resolveRequests clock rest database
      (result, ReadRequest.resolve request [] :: rest, database)
    | (some entry, database) =>
      match entry.value with
      | .stream entries =>
        let (result, rest, database) := resolveRequests clock rest database
        (result, ReadRequest.resolve request entries :: rest, database)
      | _ => (.error .wrongType, request :: rest, database)

/-- The second loop of `read_streams`. -/
def collectResults (clock : Clock) :
    List ReadRequest → Database → Except Error (List ReadResult) × Database
  | [], database => (.ok [], database)
  | request :: rest, database =>
    match findActiveEntry clock request.key database with
    | (none, database) => collectResults clock rest database
    | (some entry, database) =>
      match entry.value with
      | .stream entries =>
        let newer := entries.drop (upperBound entries request.afterId)
        let (results, database) := collectResults clock rest database
        if newer = [] then (results, database)
        else (results.map (⟨request.key, newer⟩ :: ·), database)
      | _ => (.error .wrongType, database)

/-- Read what is newer than the requests ask for; the requests come back with
their starting points resolved. -/
def readStreams (clock : Clock) (requests : List ReadRequest) (database : Database) :
    Except Error (List ReadResult) × List ReadRequest × Database :=
  match resolveRequests clock requests database with
  | (.error error, requests, database) => (.error error, requests, database)
  | (.ok (), requests, database) =>
    let (results, database) := collectResults clock requests database
    (results, requests, database)

/-! ## Revisions -/

def keyRevision (clock : Clock) (key : Bytes) (database : Database) : ℕ × Database :=
  let (_, database) := findActiveEntry clock key database
  (database.revision key, database)

end Database

end RedisServer
