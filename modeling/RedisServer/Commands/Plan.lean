import RedisServer.Commands
import RedisServer.Database.Operations

/-!
# What a command does to the database

Seen from outside, a dispatched command replies without looking at the database,
overwrites one key, decides about one key from its live entry, lists the keys or
reads some streams.  `plan` computes which, from the words of the command alone,
and `dispatch_eq_plan` says that the handlers do just that.

The result that the rest of the development uses is `dispatch_cases`: a command
either only looks (it may remove expired entries) and is not an effective write,
or it is an effective write and updates the key that its first argument names.
-/

namespace RedisServer.Commands

open Resp KeyedStore Database

/-- What a command is going to do. -/
inductive Plan where
  | reply (response : Response)
  | overwrite (key : Bytes) (entry : Entry) (response : Response)
  | keyed (key : Bytes) (operation : Option Entry → Option Response × Update Entry)
  | listKeys
  | readStreams (requests : List ReadRequest)

namespace Plan

def execute (clock : Clock) (database : Database) : Plan → Option (Response × Database)
  | reply response => some (response, database)
  | overwrite key entry response => some (response, database.put key entry)
  | keyed key operation =>
    ((transact (Entry.expired clock) key operation database).1).map
      (·, (transact (Entry.expired clock) key operation database).2)
  | listKeys => some (.array (Database.keys clock database).1, (Database.keys clock database).2)
  | readStreams requests =>
    match Database.readStreams clock requests database with
    | (.ok results, _, database) => some (makeXreadResponse results, database)
    | (.error error, _, database) => some (readStreamsError error, database)

/-- Answer with the result of an operation on one key. -/
def answer {Result : Type} (key : Bytes) (operation : Option Entry → Result × Update Entry)
    (respond : Result → Option Response) : Plan :=
  keyed key fun current => (respond (operation current).1, (operation current).2)

theorem execute_answer {Result : Type} (clock : Clock) (database : Database) (key : Bytes)
    (operation : Option Entry → Result × Update Entry) (respond : Result → Option Response) :
    (answer key operation respond).execute clock database =
      (respond (transact (Entry.expired clock) key operation database).1).map
        (·, (transact (Entry.expired clock) key operation database).2) :=
  rfl

end Plan

/-! ## The plan of each handler -/

def setPlan (clock : Clock) : Command → Plan
  | [_, key, value] => .overwrite key { value := .string value } ok
  | [_, key, value, unit, time] =>
    match parseExpiry time with
    | none => .reply (.simpleError (ascii "ERR invalid expire time in set command"))
    | some expiration =>
      if unit = ascii "PX" then
        .overwrite key
          { value := .string value, expiresAt := deadlineAfter clock.steady expiration } ok
      else if unit = ascii "EX" then
        .overwrite key
          { value := .string value
            expiresAt := deadlineAfter clock.steady (wrap64 (expiration * 1000)) } ok
      else .reply (.simpleError (ascii "ERR syntax error"))
  | _ =>
    .reply (.simpleError
      (ascii "ERR invalid syntax. Expected usage SET <key> <value> <EX/PX> <time>"))

/-- The reply to a result that is absent unless it has the wrong type. -/
def respondOr {Result : Type} (missing : Response) (respond : Result → Response) :
    Except Error Result → Option Response
  | .ok value => some (respond value)
  | .error .wrongType => some wrongTypeError
  | .error _ => some missing

def getPlan : Command → Plan
  | [_, key] => .answer key OnEntry.get (respondOr .nullBulkString .bulkString)
  | _ => .reply (.simpleError (ascii "ERR invalid syntax. Expected usage GET <key>"))

def keysPlan : Command → Plan
  | [_, pattern] =>
    if pattern ≠ ascii "*" then
      .reply (.simpleError (ascii "ERR only the '*' key pattern is supported"))
    else .listKeys
  | _ => .reply (.simpleError (ascii "ERR wrong number of arguments for 'keys' command"))

def typePlan : Command → Plan
  | [_, key] => .answer key OnEntry.getType fun result => some (.simpleString (typeName result))
  | _ => .reply (.simpleError (ascii "ERR invalid syntax. Expected usage TYPE <key>"))

def respondIncr : Except Error Int → Option Response
  | .ok value => some (.integer value)
  | .error .wrongType => some wrongTypeError
  | .error .valueNotInteger =>
    some (.simpleError (ascii "ERR value is not an integer or out of range"))
  | .error _ => none

def incrPlan : Command → Plan
  | [_, key] => .answer key OnEntry.incrementKey respondIncr
  | _ => .reply (.simpleError (ascii "ERR invalid syntax. Expected usage INCR <key>"))

/-- The reply to a result whose only error is the wrong type. -/
def respondTyped {Result : Type} (respond : Result → Response) :
    Except Error Result → Option Response
  | .ok value => some (respond value)
  | .error _ => some wrongTypeError

def pushPlan (mode : ListAddMode) (usage : Bytes) : Command → Plan
  | _ :: key :: value :: values =>
    .answer key (OnEntry.addListElements (value :: values) mode)
      (respondTyped fun size => .integer size)
  | _ => .reply (.simpleError usage)

def lrangePlan : Command → Plan
  | [_, key, start, stop] =>
    match parseSigned 64 start, parseSigned 64 stop with
    | some start, some stop =>
      .answer key (OnEntry.listElements start stop)
        (respondTyped fun values => if values = [] then .emptyArray else .array values)
    | _, _ => .reply (.simpleError (ascii "ERR invalid index value"))
  | _ =>
    .reply (.simpleError
      (ascii "ERR invalid syntax. Expected usage LRANGE <list_name> <start_index> <stop_index>"))

def llenPlan : Command → Plan
  | [_, key] => .answer key OnEntry.getListLength (respondTyped fun size => .integer size)
  | _ => .reply (.simpleError (ascii "ERR invalid syntax. Expected usage LLEN <list_name>"))

def lpopPlan : Command → Plan
  | [_, key] => .answer key OnEntry.popListElement (respondOr .nullBulkString .bulkString)
  | [_, key, number] =>
    match parseNumberOfElements number with
    | none => .reply (.simpleError (ascii "ERR Invalid number of items format"))
    | some number =>
      .answer key (OnEntry.popListElements number) (respondOr .nullBulkString .array)
  | _ =>
    .reply (.simpleError
      (ascii "ERR invalid syntax. Expected usage LPOP <list_name> <number_of_items?>"))

def blpopPlan (host : Host) (command : Command) : Plan :=
  match parseBlpop host command with
  | .error message => .reply (.simpleError message)
  | .ok request =>
    .answer request.key OnEntry.popListElement
      (respondOr .nullArray fun value => .array [request.key, value])

def respondXadd : Except Error StreamId → Option Response
  | .ok id => some (.bulkString id.toString)
  | .error .wrongType => some wrongTypeError
  | .error .invalidStreamIdValue =>
    some (.simpleError (ascii "ERR The ID specified in XADD is equal or smaller " ++
                    ascii "than the target stream top item"))
  | .error _ => none

def xaddPlan (clock : Clock) : Command → Plan
  | _ :: key :: idText :: field :: value :: values =>
    match parseId idText with
    | none => .reply (.simpleError (ascii "ERR Invalid id format"))
    | some request =>
      if request = .explicit StreamId.zero then
        .reply (.simpleError (ascii "ERR The ID specified in XADD must be greater than 0-0"))
      else
        match parseValueList (field :: value :: values) with
        | none => .reply (.simpleError (ascii "ERR Invalid value list format"))
        | some fields => .answer key (OnEntry.addStream clock request fields) respondXadd
  | _ =>
    .reply (.simpleError
      (ascii "ERR Invalid usage. Expected usage <XADD> <name> <id> <key> <value> pairs..."))

def respondXrange : Option (Except Error (List StreamEntry)) → Option Response
  | some (.ok entries) => some (.responseArray (entries.map entryResponse))
  | some (.error .keyNotFound) =>
    some (.simpleError (ascii "ERR stream with given key does not exits"))
  | some (.error .wrongType) => some (.simpleError (ascii "ERR wrong type"))
  | some (.error _) => none
  | none => none

def xrangePlan : Command → Plan
  | [_, key, start, stop] =>
    match parseRangeStart start, parseRangeStop stop with
    | some start, some stop => .answer key (OnEntry.streamRange start stop) respondXrange
    | _, _ => .reply (.simpleError (ascii "ERR Invalid range indexes format"))
  | _ =>
    .reply (.simpleError
      (ascii "ERR Invalid usage. Expected usage <XRANGE> <name> <start> <stop>"))

def xreadPlan (command : Command) : Plan :=
  match parseXread command with
  | .error message => .reply (.simpleError message)
  | .ok readCommand => .readStreams readCommand.requests

/-- The plan of a command. -/
def plan (host : Host) (clock : Clock) (command : Command) : Plan :=
  match nameOf command with
  | some .ping => .reply (ping command)
  | some .echo => .reply (echo command)
  | some .set => setPlan clock command
  | some .get => getPlan command
  | some .keys => keysPlan command
  | some .type => typePlan command
  | some .incr => incrPlan command
  | some .rpush =>
    pushPlan .append
      (ascii "ERR invalid syntax. Expected usage RPUSH <list_name> <values...>") command
  | some .lpush =>
    pushPlan .prepend
      (ascii "ERR invalid syntax. Expected usage LPUSH <list_name> <values...>") command
  | some .lrange => lrangePlan command
  | some .llen => llenPlan command
  | some .lpop => lpopPlan command
  | some .blpop => blpopPlan host command
  | some .xadd => xaddPlan clock command
  | some .xrange => xrangePlan command
  | some .xread => xreadPlan command
  | _ =>
    .reply (if command = [] then .nullBulkString else .simpleError (ascii "ERR unknown command"))

/-! ## The handlers follow their plans -/

section Handlers

variable (clock : Clock) (database : Database)

theorem set_eq_plan (command : Command) :
    some (set clock database command) = (setPlan clock command).execute clock database := by
  match command with
  | [_, _, _] => rfl
  | [_, _, _, unit, time] =>
    simp only [set, setPlan]
    cases parseExpiry time with
    | none => rfl
    | some expiration =>
      simp only
      split
      · rfl
      · split <;> rfl
  | [] | [_] | [_, _] | [_, _, _, _] | _ :: _ :: _ :: _ :: _ :: _ :: _ => rfl

theorem get_eq_plan (command : Command) :
    some (get clock database command) = (getPlan command).execute clock database := by
  match command with
  | [_, key] =>
    simp only [get, getPlan, Plan.execute_answer, Database.get_eq]
    rcases transact _ key OnEntry.get database with ⟨(_ | _ | _ | _) | _, after⟩ <;> rfl
  | [] | [_] | _ :: _ :: _ :: _ => rfl

theorem keys_eq_plan (command : Command) :
    some (keys clock database command) = (keysPlan command).execute clock database := by
  match command with
  | [_, pattern] =>
    simp only [keys, keysPlan]
    split <;> rfl
  | [] | [_] | _ :: _ :: _ :: _ => rfl

theorem type_eq_plan (command : Command) :
    some (type clock database command) = (typePlan command).execute clock database := by
  match command with
  | [_, key] =>
    simp only [type, typePlan, Plan.execute_answer, Database.getType_eq]
    rfl
  | [] | [_] | _ :: _ :: _ :: _ => rfl

theorem incr_eq_plan (command : Command) :
    incr clock database command = (incrPlan command).execute clock database := by
  match command with
  | [_, key] =>
    simp only [incr, incrPlan, Plan.execute_answer, Database.incrementKey_eq]
    rcases transact _ key OnEntry.incrementKey database with
      ⟨(_ | _ | _ | _) | _, after⟩ <;> rfl
  | [] | [_] | _ :: _ :: _ :: _ => rfl

theorem push_eq_plan (mode : ListAddMode) (usage : Bytes) (command : Command) :
    some (push mode usage clock database command) =
      (pushPlan mode usage command).execute clock database := by
  match command with
  | _ :: key :: value :: values =>
    simp only [push, pushPlan, Plan.execute_answer, Database.addListElements_eq]
    rcases transact _ key (OnEntry.addListElements _ mode) database with
      ⟨_ | _, after⟩ <;> rfl
  | [] | [_] | [_, _] => rfl

theorem lrange_eq_plan (command : Command) :
    some (lrange clock database command) = (lrangePlan command).execute clock database := by
  match command with
  | [_, key, start, stop] =>
    simp only [lrange, lrangePlan]
    rcases parseSigned 64 start with _ | start <;> rcases parseSigned 64 stop with _ | stop
    · rfl
    · rfl
    · rfl
    · simp only [Plan.execute_answer, Database.listElements_eq]
      rcases transact _ key (OnEntry.listElements start stop) database with
        ⟨_ | _, after⟩ <;> rfl
  | [] | [_] | [_, _] | [_, _, _] | _ :: _ :: _ :: _ :: _ :: _ => rfl

theorem llen_eq_plan (command : Command) :
    some (llen clock database command) = (llenPlan command).execute clock database := by
  match command with
  | [_, key] =>
    simp only [llen, llenPlan, Plan.execute_answer, Database.getListLength_eq]
    rcases transact _ key OnEntry.getListLength database with ⟨_ | _, after⟩ <;> rfl
  | [] | [_] | _ :: _ :: _ :: _ => rfl

theorem lpop_eq_plan (command : Command) :
    some (lpop clock database command) = (lpopPlan command).execute clock database := by
  match command with
  | [_, key] =>
    simp only [lpop, lpopPlan, Plan.execute_answer, Database.popListElement_eq]
    rcases transact _ key OnEntry.popListElement database with
      ⟨(_ | _ | _ | _) | _, after⟩ <;> rfl
  | [_, key, number] =>
    simp only [lpop, lpopPlan]
    cases parseNumberOfElements number with
    | none => rfl
    | some number =>
      simp only [Plan.execute_answer, Database.popListElements_eq]
      rcases transact _ key (OnEntry.popListElements number) database with
        ⟨(_ | _ | _ | _) | _, after⟩ <;> rfl
  | [] | [_] | _ :: _ :: _ :: _ :: _ => rfl

theorem blpop_eq_plan (host : Host) (command : Command) :
    some (blpop host clock database command) =
      (blpopPlan host command).execute clock database := by
  unfold blpop blpopPlan
  cases parseBlpop host command with
  | error message => rfl
  | ok request =>
    simp only [Plan.execute_answer, Database.popListElement_eq]
    rcases transact _ request.key OnEntry.popListElement database with
      ⟨(_ | _ | _ | _) | _, after⟩ <;> rfl

theorem xadd_eq_plan (command : Command) :
    xadd clock database command = (xaddPlan clock command).execute clock database := by
  match command with
  | _ :: key :: idText :: field :: value :: values =>
    simp only [xadd, xaddPlan]
    cases parseId idText with
    | none => rfl
    | some request =>
      simp only
      split
      · rfl
      · cases parseValueList (field :: value :: values) with
        | none => rfl
        | some fields =>
          simp only [Plan.execute_answer, Database.addStream_eq]
          rcases transact _ key (OnEntry.addStream clock request fields) database with
            ⟨(_ | _ | _ | _) | _, after⟩ <;> rfl
  | [] | [_] | [_, _] | [_, _, _] | [_, _, _, _] => rfl

theorem xrange_eq_plan (command : Command) :
    xrange clock database command = (xrangePlan command).execute clock database := by
  match command with
  | [_, key, start, stop] =>
    simp only [xrange, xrangePlan]
    rcases parseRangeStart start with _ | start <;> rcases parseRangeStop stop with _ | stop
    · rfl
    · rfl
    · rfl
    · simp only [Plan.execute_answer, Database.streamRange_eq]
      rcases transact _ key (OnEntry.streamRange start stop) database with
        ⟨_ | (_ | _ | _ | _) | _, after⟩ <;> rfl
  | [] | [_] | [_, _] | [_, _, _] | _ :: _ :: _ :: _ :: _ :: _ => rfl

theorem xread_eq_plan (command : Command) :
    some (xread clock database command) = (xreadPlan command).execute clock database := by
  unfold xread xreadPlan
  cases parseXread command with
  | error message => rfl
  | ok readCommand =>
    simp only [Plan.execute]
    rcases Database.readStreams clock readCommand.requests database with ⟨_ | _, _, _⟩ <;> rfl

end Handlers

/-- **The handlers do what the plan says.** -/
theorem dispatch_eq_plan (host : Host) (clock : Clock) (database : Database) (command : Command) :
    dispatch host clock database command = (plan host clock command).execute clock database := by
  cases command with
  | nil => rfl
  | cons first arguments =>
    unfold dispatch findCommandDefinition plan
    rw [if_neg (List.cons_ne_nil _ _)]
    cases nameOf (first :: arguments) with
    | none => rfl
    | some name =>
      cases name with
      | set => exact set_eq_plan clock database _
      | get => exact get_eq_plan clock database _
      | keys => exact keys_eq_plan clock database _
      | type => exact type_eq_plan clock database _
      | incr => exact incr_eq_plan clock database _
      | rpush => exact push_eq_plan clock database _ _ _
      | lpush => exact push_eq_plan clock database _ _ _
      | lrange => exact lrange_eq_plan clock database _
      | llen => exact llen_eq_plan clock database _
      | lpop => exact lpop_eq_plan clock database _
      | blpop => exact blpop_eq_plan clock database host _
      | xadd => exact xadd_eq_plan clock database _
      | xrange => exact xrange_eq_plan clock database _
      | xread => exact xread_eq_plan clock database _
      | _ => rfl

end RedisServer.Commands
