import RedisServer.Library.Wire
import RedisServer.Database.Representation

/-!
# RDB files

`rdb.cpp`: a header, then a sequence of items that each start with a marker byte, up to
the end marker.  Only strings are supported as values; an expiry is an item of its own
and belongs to the next entry.

A reader is a function of the bytes that are left.  The source throws when it cannot
reserve room for the announced number of keys; `capacity` is the largest number for
which it can.
-/

namespace RedisServer.Rdb

open Wire

inductive Failure where
  /-- The error that `parse` returns. -/
  | error (message : Bytes)
  /-- What `reserve` throws. -/
  | lengthError
deriving DecidableEq, Repr

def unexpectedEnd : Failure := .error (ascii "Unexpected end of RDB file")

/-! ## The reader -/

def readByte : Reader Failure UInt8 := Wire.readByte unexpectedEnd

def readBytes (count : ℕ) : Reader Failure Bytes := Wire.readBytes unexpectedEnd count

def readU32LittleEndian : Reader Failure ℕ := do
  let bytes ← readBytes 4
  return littleEndian bytes

def readU64LittleEndian : Reader Failure ℕ := do
  let bytes ← readBytes 8
  return littleEndian bytes

structure Length where
  value : ℕ
  encoded : Bool
deriving DecidableEq, Repr

/-- What follows the first byte of a length. -/
def readLengthAfter (first : UInt8) : Reader Failure Length :=
  let kind := first.toNat >>> 6
  if kind = 0 then return ⟨first.toNat &&& 0x3f, false⟩
  else if kind = 1 then do
    let second ← readByte
    return ⟨(first.toNat &&& 0x3f) <<< 8 ||| second.toNat, false⟩
  else if kind = 3 then return ⟨first.toNat &&& 0x3f, true⟩
  else if first = 0x80 then do
    let bytes ← readBytes 4
    return ⟨bigEndian bytes, false⟩
  else if first = 0x81 then do
    let bytes ← readBytes 8
    return ⟨bigEndian bytes, false⟩
  else throw (.error (ascii "Unsupported RDB length encoding"))

def readLength : Reader Failure Length := do
  let first ← readByte
  readLengthAfter first

def readPlainLength : Reader Failure ℕ := do
  let length ← readLength
  if length.encoded then throw (.error (ascii "Expected an ordinary RDB length"))
  else return length.value

/-- What follows the length of a string, which may be the tag of an integer instead. -/
def readStringAfter (length : Length) : Reader Failure Bytes :=
  if length.encoded = false then
    if length.value > 2 ^ 64 - 1 then throw (.error (ascii "RDB string is too large"))
    else readBytes length.value
  else if length.value = 0 then do
    let value ← readByte
    return printSigned (Int.bmod value.toNat (2 ^ 8))
  else if length.value = 1 then do
    let bytes ← readBytes 2
    return printSigned (Int.bmod (littleEndian bytes) (2 ^ 16))
  else if length.value = 2 then do
    let value ← readU32LittleEndian
    return printSigned (Int.bmod value (2 ^ 32))
  else throw (.error (ascii "LZF-compressed RDB strings are not supported"))

def readString : Reader Failure Bytes := do
  let length ← readLength
  readStringAfter length

/-! ## The items -/

/-- What the loop carries from item to item: the expiry that waits for its entry, and the
entries so far. -/
structure Progress where
  pendingExpiration : Option UInt64 := none
  entries : List StringEntry := []
deriving DecidableEq, Repr

/-- The body of the loop, after the marker of an item that is not the end. -/
def readItem (capacity : ℕ) (marker : UInt8) (progress : Progress) : Reader Failure Progress :=
  if marker = 250 then do
    let _ ← readString
    let _ ← readString
    return progress
  else if marker = 254 then do
    let database ← readPlainLength
    if database ≠ 0 then throw (.error (ascii "Only RDB database 0 is supported"))
    else return progress
  else if marker = 251 then do
    let keyCount ← readPlainLength
    let _ ← readPlainLength
    if keyCount > capacity then throw .lengthError
    else return progress
  else if marker = 252 then do
    let expiration ← readU64LittleEndian
    return { progress with pendingExpiration := some (UInt64.ofNat expiration) }
  else if marker = 253 then do
    let expiration ← readU32LittleEndian
    return { progress with pendingExpiration := some (UInt64.ofNat expiration * 1000) }
  else if marker = 248 then do
    let _ ← readPlainLength
    return progress
  else if marker = 249 then do
    let _ ← readByte
    return progress
  else if marker ≠ 0 then
    throw (.error (ascii "Only string values are supported in RDB files"))
  else do
    let key ← readString
    let value ← readString
    return ⟨none, progress.entries ++ [⟨key, value, progress.pendingExpiration⟩]⟩

/-- The loop over the items.  An item takes at least its marker, so the number of bytes
is fuel enough. -/
def parseItems (capacity : ℕ) : ℕ → Bytes → Progress → Except Failure (List StringEntry)
  | 0, _, _ | _, [], _ => .error (.error (ascii "RDB file is missing its end marker"))
  | fuel + 1, marker :: rest, progress =>
    if marker = 255 then .ok progress.entries
    else
      match readItem capacity marker progress rest with
      | .error failure => .error failure
      | .ok (progress, rest) => parseItems capacity fuel rest progress

def parse (capacity : ℕ) (contents : Bytes) : Except Failure (List StringEntry) :=
  if contents.length < 10 ∨ contents.take 5 ≠ ascii "REDIS" then
    .error (.error (ascii "Invalid RDB header"))
  else if ((contents.drop 5).take 4).any fun character => character < 48 || character > 57 then
    .error (.error (ascii "Invalid RDB version"))
  else parseItems capacity contents.length (contents.drop 9) {}

end RedisServer.Rdb
