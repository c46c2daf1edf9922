import RedisServer.Database
import RedisServer.Resp

/-!
# The command handlers

The handlers behind the table `command_handlers`: each reads the arguments of a
command, calls one operation of the database and turns its result into a reply.
A handler returns `none` when the source goes down in it: a range that `XRANGE`
cannot build, or the value of an error that the handler does not expect.

`BLPOP` reads its timeout with the floating point `std::from_chars`; that
conversion is a parameter of the model, together with the SHA-256 of the
cryptographic library, in the structure `Host`.
-/

namespace RedisServer

open Resp

/-- What the server takes from the libraries around it. -/
structure Host where
  /-- The timeout of a `BLPOP` in milliseconds: invalid, none, or some. -/
  blockingTimeout : Bytes → Option (Option Int)
  sha256 : Bytes → Except Bytes Bytes

/-- A host to run the model with: timeouts in whole seconds, passwords kept as
they are. -/
def Host.plain : Host where
  blockingTimeout text :=
    (parseUnsigned text).map fun seconds => if seconds = 0 then none else some (seconds * 1000)
  sha256 := .ok

/-! ## Command names -/

/-- The command names the server knows. -/
inductive CommandName where
  | ping | echo | set | get | keys | type | incr
  | rpush | lpush | lrange | llen | lpop | blpop
  | xadd | xrange | xread
  | subscribe | unsubscribe | publish
  | auth | acl | info | config | replconf | psync
  | watch | unwatch | multi | exec | discard | wait
deriving DecidableEq, Repr

namespace CommandName

def text : CommandName → Bytes
  | ping => ascii "PING"
  | echo => ascii "ECHO"
  | set => ascii "SET"
  | get => ascii "GET"
  | keys => ascii "KEYS"
  | type => ascii "TYPE"
  | incr => ascii "INCR"
  | rpush => ascii "RPUSH"
  | lpush => ascii "LPUSH"
  | lrange => ascii "LRANGE"
  | llen => ascii "LLEN"
  | lpop => ascii "LPOP"
  | blpop => ascii "BLPOP"
  | xadd => ascii "XADD"
  | xrange => ascii "XRANGE"
  | xread => ascii "XREAD"
  | subscribe => ascii "SUBSCRIBE"
  | unsubscribe => ascii "UNSUBSCRIBE"
  | publish => ascii "PUBLISH"
  | auth => ascii "AUTH"
  | acl => ascii "ACL"
  | info => ascii "INFO"
  | config => ascii "CONFIG"
  | replconf => ascii "REPLCONF"
  | psync => ascii "PSYNC"
  | watch => ascii "WATCH"
  | unwatch => ascii "UNWATCH"
  | multi => ascii "MULTI"
  | exec => ascii "EXEC"
  | discard => ascii "DISCARD"
  | wait => ascii "WAIT"

def all : List CommandName :=
  [ping, echo, set, get, keys, type, incr, rpush, lpush, lrange, llen, lpop, blpop, xadd, xrange,
    xread, subscribe, unsubscribe, publish, auth, acl, info, config, replconf, psync, watch,
    unwatch, multi, exec, discard, wait]

def ofText (text : Bytes) : Option CommandName := all.find? fun name => name.text == text

@[simp] theorem ofText_text (name : CommandName) : ofText name.text = some name := by
  cases name <;> decide

theorem text_of_ofText {text : Bytes} {name : CommandName} (h : ofText text = some name) :
    name.text = text := by
  simpa using List.find?_some h

end CommandName

/-- The name a command starts with, if the server knows it. -/
def nameOf (command : Command) : Option CommandName :=
  command.head?.bind CommandName.ofText

theorem ne_nil_of_nameOf {name : CommandName} {command : Command}
    (h : nameOf command = some name) : command ≠ [] := by
  rintro rfl
  cases h

theorem nameOf_cons {name : CommandName} {first : Bytes} {arguments : List Bytes} :
    nameOf (first :: arguments) = some name ↔ first = name.text := by
  constructor
  · intro h
    exact (CommandName.text_of_ofText h).symm
  · rintro rfl
    exact CommandName.ofText_text name

namespace Commands

def wrongTypeError : Response :=
  .simpleError (ascii "WRONGTYPE Operation against a key holding the wrong kind of value")

def ok : Response := .simpleString (ascii "OK")

/-! ## Keys and strings -/

def ping (_command : Command) : Response := .simpleString (ascii "PONG")

def echo (command : Command) : Response :=
  match command with
  | [_, text] => .bulkString text
  | _ => .simpleError (ascii "ERR expected format ECHO <text>")

/-- `time_utils::parse_expiry`. -/
def parseExpiry (text : Bytes) : Option Int :=
  (parseSigned 64 text).filter fun count => decide (0 < count)

def set (clock : Clock) (database : Database) (command : Command) : Response × Database :=
  match command with
  | [_, key, value] => (ok, Database.set clock key value none database)
  | [_, key, value, unit, time] =>
    match parseExpiry time with
    | none => (.simpleError (ascii "ERR invalid expire time in set command"), database)
    | some expiration =>
      if unit = ascii "PX" then
        (ok, Database.set clock key value (some expiration) database)
      else if unit = ascii "EX" then
        (ok, Database.set clock key value (some (wrap64 (expiration * 1000))) database)
      else (.simpleError (ascii "ERR syntax error"), database)
  | _ =>
    (.simpleError
      (ascii "ERR invalid syntax. Expected usage SET <key> <value> <EX/PX> <time>"), database)

def get (clock : Clock) (database : Database) (command : Command) : Response × Database :=
  match command with
  | [_, key] =>
    match Database.get clock key database with
    | (.ok value, database) => (.bulkString value, database)
    | (.error .wrongType, database) => (wrongTypeError, database)
    | (.error _, database) => (.nullBulkString, database)
  | _ => (.simpleError (ascii "ERR invalid syntax. Expected usage GET <key>"), database)

def keys (clock : Clock) (database : Database) (command : Command) : Response × Database :=
  match command with
  | [_, pattern] =>
    if pattern ≠ ascii "*" then
      (.simpleError (ascii "ERR only the '*' key pattern is supported"), database)
    else
      let (result, database) := Database.keys clock database
      (.array result, database)
  | _ => (.simpleError (ascii "ERR wrong number of arguments for 'keys' command"), database)

def typeName : Database.ValueType → Bytes
  | .none => ascii "none"
  | .string => ascii "string"
  | .list => ascii "list"
  | .stream => ascii "stream"

def type (clock : Clock) (database : Database) (command : Command) : Response × Database :=
  match command with
  | [_, key] =>
    let (result, database) := Database.getType clock key database
    (.simpleString (typeName result), database)
  | _ => (.simpleError (ascii "ERR invalid syntax. Expected usage TYPE <key>"), database)

def incr (clock : Clock) (database : Database) (command : Command) :
    Option (Response × Database) :=
  match command with
  | [_, key] =>
    match Database.incrementKey clock key database with
    | (.ok value, database) => some (.integer value, database)
    | (.error .wrongType, database) => some (wrongTypeError, database)
    | (.error .valueNotInteger, database) =>
      some (.simpleError (ascii "ERR value is not an integer or out of range"), database)
    | (.error _, _) => none
  | _ => some (.simpleError (ascii "ERR invalid syntax. Expected usage INCR <key>"), database)

/-! ## Lists -/

/-- The body that `RPUSH` and `LPUSH` share. -/
def push (mode : Database.ListAddMode) (usage : Bytes) (clock : Clock) (database : Database)
    (command : Command) : Response × Database :=
  match command with
  | _ :: key :: value :: values =>
    match Database.addListElements clock key (value :: values) mode database with
    | (.ok size, database) => (.integer size, database)
    | (.error _, database) => (wrongTypeError, database)
  | _ => (.simpleError usage, database)

def rpush : Clock → Database → Command → Response × Database :=
  push .append (ascii "ERR invalid syntax. Expected usage RPUSH <list_name> <values...>")

def lpush : Clock → Database → Command → Response × Database :=
  push .prepend (ascii "ERR invalid syntax. Expected usage LPUSH <list_name> <values...>")

def lrange (clock : Clock) (database : Database) (command : Command) : Response × Database :=
  match command with
  | [_, key, start, stop] =>
    match parseSigned 64 start, parseSigned 64 stop with
    | some start, some stop =>
      match Database.listElements clock key start stop database with
      | (.ok values, database) =>
        (if values = [] then .emptyArray else .array values, database)
      | (.error _, database) => (wrongTypeError, database)
    | _, _ => (.simpleError (ascii "ERR invalid index value"), database)
  | _ =>
    (.simpleError
      (ascii "ERR invalid syntax. Expected usage LRANGE <list_name> <start_index> <stop_index>"),
      database)

def llen (clock : Clock) (database : Database) (command : Command) : Response × Database :=
  match command with
  | [_, key] =>
    match Database.getListLength clock key database with
    | (.ok size, database) => (.integer size, database)
    | (.error _, database) => (wrongTypeError, database)
  | _ => (.simpleError (ascii "ERR invalid syntax. Expected usage LLEN <list_name>"), database)

/-- `parse_number_of_elements`: a positive `int`. -/
def parseNumberOfElements (text : Bytes) : Option Int :=
  (parseSigned 32 text).filter fun count => decide (0 < count)

def lpop (clock : Clock) (database : Database) (command : Command) : Response × Database :=
  match command with
  | [_, key] =>
    match Database.popListElement clock key database with
    | (.ok value, database) => (.bulkString value, database)
    | (.error .wrongType, database) => (wrongTypeError, database)
    | (.error _, database) => (.nullBulkString, database)
  | [_, key, number] =>
    match parseNumberOfElements number with
    | none => (.simpleError (ascii "ERR Invalid number of items format"), database)
    | some number =>
      match Database.popListElements clock key number database with
      | (.ok values, database) => (.array values, database)
      | (.error .wrongType, database) => (wrongTypeError, database)
      | (.error _, database) => (.nullBulkString, database)
  | _ =>
    (.simpleError
      (ascii "ERR invalid syntax. Expected usage LPOP <list_name> <number_of_items?>"), database)

structure BlockingPopRequest where
  key : Bytes
  timeout : Option Int

def parseBlpop (host : Host) (command : Command) : Except Bytes BlockingPopRequest :=
  match command with
  | [_, key, timeout] =>
    match host.blockingTimeout timeout with
    | none => .error (ascii "ERR Invalid timeout value")
    | some timeout => .ok ⟨key, timeout⟩
  | _ => .error (ascii "ERR invalid syntax. Expected usage BLPOP <list_name> <timeout>")

def blpop (host : Host) (clock : Clock) (database : Database) (command : Command) :
    Response × Database :=
  match parseBlpop host command with
  | .error message => (.simpleError message, database)
  | .ok request =>
    match Database.popListElement clock request.key database with
    | (.ok value, database) => (.array [request.key, value], database)
    | (.error .wrongType, database) => (wrongTypeError, database)
    | (.error _, database) => (.nullArray, database)

/-! ## Streams -/

/-- `std::toupper` in the C locale. -/
def toUpper (character : UInt8) : UInt8 :=
  if 97 ≤ character ∧ character ≤ 122 then character - 32 else character

def equalsIgnoreCase (left right : Bytes) : Bool := left.map toUpper == right.map toUpper

/-- `parse_text_as_number`. -/
def parseTextAsNumber (text : Bytes) : Option UInt64 := (parseUnsigned text).map UInt64.ofNat

/-- The parts of a text before and after its first dash. -/
def splitDash (text : Bytes) : Option (Bytes × Bytes) :=
  match text.dropWhile (· != 45) with
  | [] => none
  | _ :: after => some (text.takeWhile (· != 45), after)

/-- An identifier whose sequence part may be missing. -/
def parseIdWithDefault (sequence : UInt64) (text : Bytes) : Option StreamId :=
  match splitDash text with
  | none => (parseTextAsNumber text).map fun milliseconds => ⟨milliseconds, sequence⟩
  | some (before, after) =>
    match parseTextAsNumber before, parseTextAsNumber after with
    | some milliseconds, some sequence => some ⟨milliseconds, sequence⟩
    | _, _ => none

def parseReadId (text : Bytes) : Option StreamId := parseIdWithDefault 0 text

def parseRangeStart (start : Bytes) : Option StreamId :=
  if start = ascii "-" then some ⟨0, 0⟩ else parseIdWithDefault 0 start

/-- The largest 64-bit number, which stands for an open end. -/
def maximum : UInt64 := UInt64.ofNat (2 ^ 64 - 1)

def parseRangeStop (stop : Bytes) : Option StreamId :=
  if stop = ascii "+" then some ⟨maximum, maximum⟩ else parseIdWithDefault maximum stop

def parseId (id : Bytes) : Option IdRequest :=
  if id = ascii "*" then some .automatic
  else
    match splitDash id with
    | none => none
    | some (millisecondsPart, sequencePart) =>
      match parseTextAsNumber millisecondsPart with
      | none => none
      | some milliseconds =>
        if sequencePart = ascii "*" then some (.automaticSequence milliseconds)
        else
          (parseTextAsNumber sequencePart).map fun sequence =>
            .explicit ⟨milliseconds, sequence⟩

/-- Neighbours two by two. -/
def pairs : List Bytes → List (Bytes × Bytes)
  | field :: value :: rest => (field, value) :: pairs rest
  | _ => []

def parseValueList (values : List Bytes) : Option (List (Bytes × Bytes)) :=
  if values = [] ∨ values.length % 2 ≠ 0 then none else some (pairs values)

def xadd (clock : Clock) (database : Database) (command : Command) :
    Option (Response × Database) :=
  match command with
  | _ :: key :: idText :: field :: value :: values =>
    match parseId idText with
    | none => some (.simpleError (ascii "ERR Invalid id format"), database)
    | some request =>
      if request = .explicit StreamId.zero then
        some (.simpleError (ascii "ERR The ID specified in XADD must be greater than 0-0"),
          database)
      else
        match parseValueList (field :: value :: values) with
        | none => some (.simpleError (ascii "ERR Invalid value list format"), database)
        | some fields =>
          match Database.addStream clock key request fields database with
          | (.ok id, database) => some (.bulkString id.toString, database)
          | (.error .wrongType, database) => some (wrongTypeError, database)
          | (.error .invalidStreamIdValue, database) =>
            some (.simpleError (ascii "ERR The ID specified in XADD is equal or smaller " ++
              ascii "than the target stream top item"), database)
          | (.error _, _) => none
  | _ =>
    some (.simpleError
      (ascii "ERR Invalid usage. Expected usage <XADD> <name> <id> <key> <value> pairs..."),
      database)

/-- One entry of a stream as a reply: its identifier and its fields. -/
def entryResponse (entry : StreamEntry) : Response :=
  .responseArray
    [.bulkString entry.id.toString,
      .responseArray (entry.values.flatMap fun (field, value) =>
        [.bulkString field, .bulkString value])]

def xrange (clock : Clock) (database : Database) (command : Command) :
    Option (Response × Database) :=
  match command with
  | [_, key, start, stop] =>
    match parseRangeStart start, parseRangeStop stop with
    | some start, some stop =>
      match Database.streamRange clock key start stop database with
      | (some (.ok entries), database) =>
        some (.responseArray (entries.map entryResponse), database)
      | (some (.error .keyNotFound), database) =>
        some (.simpleError (ascii "ERR stream with given key does not exits"), database)
      | (some (.error .wrongType), database) =>
        some (.simpleError (ascii "ERR wrong type"), database)
      | (some (.error _), _) => none
      | (none, _) => none
    | _, _ => some (.simpleError (ascii "ERR Invalid range indexes format"), database)
  | _ =>
    some (.simpleError
      (ascii "ERR Invalid usage. Expected usage <XRANGE> <name> <start> <stop>"), database)

inductive ReadMode where
  | immediate
  | blockIndefinitely
  | blockWithTimeout (timeout : Int)
deriving DecidableEq, Repr

structure ReadCommand where
  requests : List ReadRequest
  mode : ReadMode
deriving DecidableEq, Repr

/-- `time_utils::parse_stream_blocking_timeout`. -/
def parseStreamBlockingTimeout (text : Bytes) : Option Int :=
  (parseSigned 64 text).filter fun count => decide (0 ≤ count)

/-- The loop of `parse_xread` over keys and their starting points. -/
def parseRequests : List (Bytes × Bytes) → Except Bytes (List ReadRequest)
  | [] => .ok []
  | (key, idText) :: rest =>
    if idText = ascii "$" then
      (parseRequests rest).map ({ key, startMode := .latest } :: ·)
    else
      match parseReadId idText with
      | none => .error (ascii "ERR Invalid id format")
      | some afterId => (parseRequests rest).map ({ key, startMode := .afterId, afterId } :: ·)

/-- What follows the optional `BLOCK` of an `XREAD`. -/
def parseStreams (mode : ReadMode) (arguments : List Bytes) : Except Bytes ReadCommand :=
  match arguments with
  | [] => .error (ascii "ERR STREAMS keyword is required")
  | keyword :: keysAndIds =>
    if !equalsIgnoreCase keyword (ascii "STREAMS") then
      .error (ascii "ERR STREAMS keyword is required")
    else if keysAndIds = [] ∨ keysAndIds.length % 2 ≠ 0 then
      .error (ascii "ERR every key must have a corresponding ID")
    else
      let streamCount := keysAndIds.length / 2
      (parseRequests ((keysAndIds.take streamCount).zip (keysAndIds.drop streamCount))).map
        fun requests => { requests, mode }

def parseXread (command : Command) : Except Bytes ReadCommand :=
  match command with
  | _ :: first :: second :: third :: rest =>
    if equalsIgnoreCase first (ascii "BLOCK") then
      match parseStreamBlockingTimeout second with
      | none => .error (ascii "ERR Invalid timeout value")
      | some timeout =>
        parseStreams (if timeout = 0 then .blockIndefinitely else .blockWithTimeout timeout)
          (third :: rest)
    else parseStreams .immediate (first :: second :: third :: rest)
  | _ =>
    .error (ascii "ERR Invalid usage. Expected usage <XREAD> <BLOCK?> " ++
      ascii "<timeout?> <STREAMS> <name> <id/$>")

def makeXreadResponse (results : List ReadResult) : Response :=
  if results = [] then .nullArray
  else
    .responseArray (results.map fun result =>
      .responseArray [.bulkString result.key, .responseArray (result.entries.map entryResponse)])

/-- The reply to a failed `read_streams`. -/
def readStreamsError : Database.Error → Response
  | .wrongType => wrongTypeError
  | _ => .simpleError (ascii "ERR Unable to read streams")

def xread (clock : Clock) (database : Database) (command : Command) : Response × Database :=
  match parseXread command with
  | .error message => (.simpleError message, database)
  | .ok readCommand =>
    match Database.readStreams clock readCommand.requests database with
    | (.ok results, _, database) => (makeXreadResponse results, database)
    | (.error error, _, database) => (readStreamsError error, database)

/-! ## The command table -/

inductive CommandAccess where
  | readOnly
  | write
deriving DecidableEq, Repr

structure CommandDefinition where
  handler : Clock → Database → Command → Option (Response × Database)
  access : CommandAccess

/-- The table `command_handlers`; the other commands are not in it. -/
def commandHandlers (host : Host) : CommandName → Option CommandDefinition
  | .ping => some ⟨fun _ database command => some (ping command, database), .readOnly⟩
  | .echo => some ⟨fun _ database command => some (echo command, database), .readOnly⟩
  | .set => some ⟨fun clock database command => some (set clock database command), .write⟩
  | .get => some ⟨fun clock database command => some (get clock database command), .readOnly⟩
  | .keys => some ⟨fun clock database command => some (keys clock database command), .readOnly⟩
  | .type => some ⟨fun clock database command => some (type clock database command), .readOnly⟩
  | .incr => some ⟨incr, .write⟩
  | .rpush => some ⟨fun clock database command => some (rpush clock database command), .write⟩
  | .lpush => some ⟨fun clock database command => some (lpush clock database command), .write⟩
  | .lrange => some ⟨fun clock database command => some (lrange clock database command), .readOnly⟩
  | .llen => some ⟨fun clock database command => some (llen clock database command), .readOnly⟩
  | .lpop => some ⟨fun clock database command => some (lpop clock database command), .write⟩
  | .blpop => some ⟨fun clock database command => some (blpop host clock database command), .write⟩
  | .xadd => some ⟨xadd, .write⟩
  | .xrange => some ⟨xrange, .readOnly⟩
  | .xread => some ⟨fun clock database command => some (xread clock database command), .readOnly⟩
  | _ => none

def findCommandDefinition (host : Host) (command : Command) : Option CommandDefinition :=
  (nameOf command).bind (commandHandlers host)

def isWriteCommand (host : Host) (command : Command) : Bool :=
  (findCommandDefinition host command).any fun definition => definition.access = .write

def responseIsError : Response → Bool
  | .simpleError _ => true
  | _ => false

def writeModifiedDatabase (command : Command) (response : Response) : Bool :=
  if responseIsError response then false
  else if nameOf command = some .blpop then
    match response with
    | .array values => !values.isEmpty
    | _ => false
  else if nameOf command ≠ some .lpop then true
  else
    match response with
    | .nullBulkString => false
    | .array values => !values.isEmpty
    | _ => true

/-- The form in which a write is logged and replicated: a generated identifier
is fixed, and a blocking pop becomes a pop. -/
def normalizeReplicationCommand (command : Command) (response : Response) : Command :=
  if nameOf command = some .xadd then
    match response with
    | .bulkString generatedId => command.set 2 generatedId
    | _ => command
  else if nameOf command = some .blpop then
    [CommandName.lpop.text, command.getD 1 []]
  else command

def dispatch (host : Host) (clock : Clock) (database : Database) (command : Command) :
    Option (Response × Database) :=
  if command = [] then some (.nullBulkString, database)
  else
    match findCommandDefinition host command with
    | none => some (.simpleError (ascii "ERR unknown command"), database)
    | some definition => definition.handler clock database command

end Commands

end RedisServer
