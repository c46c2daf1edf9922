import RedisServer.Commands.Plan

/-!
# Effective writes

A write took effect when its reply is not an error and, for the pops, not empty;
this is the test `write_modified_database` by which the processor decides what
to log and to replicate.  The test is exact: it succeeds on precisely the
commands that changed the key their first argument names.
-/

namespace RedisServer.Commands

open Resp KeyedStore Database

variable {key : Bytes} {clock : Clock}

/-- The command is a write and its reply says that it took effect. -/
def effective (host : Host) (command : Command) (response : Response) : Bool :=
  isWriteCommand host command && writeModifiedDatabase command response

/-! ## The test, name by name -/

/-- The write commands of the table. -/
def isWriteName : CommandName → Bool
  | .set | .incr | .rpush | .lpush | .lpop | .blpop | .xadd => true
  | _ => false

section Names

variable {host : Host} {command : Command} {name : CommandName}

theorem isWriteCommand_of_name (hname : nameOf command = some name) :
    isWriteCommand host command = isWriteName name := by
  unfold isWriteCommand findCommandDefinition
  rw [hname]
  cases name <;> rfl

theorem isWriteCommand_iff :
    isWriteCommand host command = true ↔
      ∃ name, nameOf command = some name ∧ isWriteName name = true := by
  cases hname : nameOf command with
  | none => simp [isWriteCommand, findCommandDefinition, hname]
  | some name => simp [isWriteCommand_of_name hname]

theorem effective_of_read (hname : nameOf command = some name) (hread : isWriteName name = false)
    (response : Response) : effective host command response = false := by
  rw [effective, isWriteCommand_of_name hname, hread, Bool.false_and]

/-- Apart from the pops, a write took effect unless it failed. -/
theorem effective_of_write (hname : nameOf command = some name)
    (hwrite : isWriteName name = true) (hlpop : name ≠ .lpop) (hblpop : name ≠ .blpop)
    (response : Response) :
    effective host command response = !responseIsError response := by
  rw [effective, isWriteCommand_of_name hname, hwrite, Bool.true_and]
  unfold writeModifiedDatabase
  rw [hname]
  cases hresponse : responseIsError response <;> simp [hlpop, hblpop]

theorem effective_lpop (hname : nameOf command = some .lpop) (response : Response) :
    effective host command response = true ↔
      responseIsError response = false ∧ response ≠ .nullBulkString ∧
        response ≠ .array [] := by
  rw [effective, isWriteCommand_of_name hname]
  unfold writeModifiedDatabase
  rw [hname]
  rcases response with _ | _ | _ | _ | _ | _ | _ | _ | (_ | _) | _ <;>
    simp [isWriteName, responseIsError]

theorem effective_blpop (hname : nameOf command = some .blpop) (response : Response) :
    effective host command response = true ↔
      ∃ value values, response = .array (value :: values) := by
  rw [effective, isWriteCommand_of_name hname]
  unfold writeModifiedDatabase
  rw [hname]
  rcases response with _ | _ | _ | _ | _ | _ | _ | _ | (_ | _) | _ <;>
    simp [isWriteName, responseIsError]

theorem effective_error (message : Bytes) :
    effective host command (.simpleError message) = false := by
  simp [effective, writeModifiedDatabase, responseIsError]

end Names

/-! ## Plans and their replies agree -/

/-- The replies of a plan tell whether it changes a key, and which. -/
def Plan.Faithful (host : Host) (command : Command) : Plan → Prop
  | .reply response => effective host command response = false
  | .overwrite key _ response =>
    effective host command response = true ∧ command[1]? = some key
  | .keyed key operation => ∀ current response, (operation current).1 = some response →
      (effective host command response = true ↔ (operation current).2 ≠ .keep) ∧
        (effective host command response = true → command[1]? = some key)
  | .listKeys => ∀ response, effective host command response = false
  | .readStreams _ => ∀ response, effective host command response = false

section Plans

variable {host : Host} {command : Command} {name : CommandName}

/-- A plan that only reads. -/
private theorem faithful_read (hname : nameOf command = some name)
    (hread : isWriteName name = false) {Result : Type} (key : Bytes)
    (operation : Option Entry → Result × Update Entry) (respond : Result → Option Response)
    (hkeep : ∀ current, (operation current).2 = .keep) :
    (Plan.answer key operation respond).Faithful host command := by
  intro current response _
  simp [effective_of_read hname hread, hkeep current]

private theorem faithful_set (clock : Clock) (hname : nameOf command = some .set) :
    (setPlan clock command).Faithful host command := by
  have heffective : effective host command ok = true :=
    effective_of_write hname rfl (by decide) (by decide) ok
  match command with
  | [_, _, _] => exact ⟨heffective, rfl⟩
  | [_, _, _, unit, time] =>
    simp only [setPlan]
    cases parseExpiry time with
    | none => exact effective_error _
    | some expiration =>
      simp only
      split
      · exact ⟨heffective, rfl⟩
      · split
        · exact ⟨heffective, rfl⟩
        · exact effective_error _
  | [] | [_] | [_, _] | [_, _, _, _] | _ :: _ :: _ :: _ :: _ :: _ :: _ => exact effective_error _

private theorem faithful_incr (hname : nameOf command = some .incr) :
    (incrPlan command).Faithful host command := by
  match command with
  | [_, key] =>
    intro current response hresponse
    rw [effective_of_write hname rfl (by decide) (by decide)]
    refine ⟨?_, fun _ => rfl⟩
    rcases current with _ | ⟨text | _ | _, expiresAt⟩
    · obtain rfl : .integer 1 = response := by simpa [OnEntry.incrementKey, respondIncr] using hresponse
      simp [responseIsError, OnEntry.incrementKey]
    · cases hparse : parseSigned 64 text <;>
        simp only [OnEntry.incrementKey, hparse, respondIncr, Option.some.injEq] at hresponse ⊢ <;>
        simp [← hresponse, responseIsError]
    all_goals
      simp only [OnEntry.incrementKey, respondIncr, Option.some.injEq] at hresponse ⊢
      simp [← hresponse, responseIsError, wrongTypeError]
  | [] | [_] | _ :: _ :: _ :: _ => exact effective_error _

private theorem faithful_push (mode : ListAddMode) (usage : Bytes)
    (hname : nameOf command = some name) (hpush : name = .rpush ∨ name = .lpush) :
    (pushPlan mode usage command).Faithful host command := by
  match command with
  | _ :: key :: value :: values =>
    intro current response hresponse
    have hwrite : isWriteName name = true := by rcases hpush with rfl | rfl <;> rfl
    rw [effective_of_write hname hwrite (by rcases hpush with rfl | rfl <;> decide)
      (by rcases hpush with rfl | rfl <;> decide)]
    refine ⟨?_, fun _ => rfl⟩
    rcases current with _ | ⟨_ | _ | _, expiresAt⟩ <;>
      simp only [OnEntry.addListElements, respondTyped, Option.some.injEq] at hresponse ⊢ <;>
      simp [← hresponse, responseIsError, wrongTypeError]
  | [] | [_] | [_, _] => exact effective_error _

private theorem remaining_ne_keep (expiresAt : Option Int) (elements : List Bytes) :
    OnEntry.remaining expiresAt elements ≠ .keep := by
  unfold OnEntry.remaining
  split <;> simp

private theorem faithful_lpop (hname : nameOf command = some .lpop) :
    (lpopPlan command).Faithful host command := by
  match command with
  | [_, key] =>
    intro current response hresponse
    rw [effective_lpop hname]
    refine ⟨?_, fun _ => rfl⟩
    rcases current with _ | ⟨_ | (_ | ⟨front, elements⟩) | _, expiresAt⟩ <;>
      simp only [OnEntry.popListElement, respondOr, Option.some.injEq] at hresponse ⊢ <;>
      simp [← hresponse, responseIsError, wrongTypeError, remaining_ne_keep]
  | [_, key, number] =>
    simp only [lpopPlan]
    cases hnumber : parseNumberOfElements number with
    | none => exact effective_error _
    | some count =>
      have hpos : 0 < count := by
        simpa [parseNumberOfElements, Option.filter_eq_some_iff] using
          (Option.filter_eq_some_iff.mp hnumber).2
      intro current response hresponse
      rw [effective_lpop hname]
      refine ⟨?_, fun _ => rfl⟩
      rcases current with _ | ⟨_ | (_ | ⟨front, elements⟩) | _, expiresAt⟩ <;>
        simp only [OnEntry.popListElements, respondOr, Option.some.injEq,
          if_neg (show ¬ count ≤ 0 by omega)] at hresponse ⊢ <;>
        simp [← hresponse, responseIsError, wrongTypeError, remaining_ne_keep]
      omega
  | [] | [_] | _ :: _ :: _ :: _ :: _ => exact effective_error _

private theorem faithful_blpop (hname : nameOf command = some .blpop) :
    (blpopPlan host command).Faithful host command := by
  unfold blpopPlan
  cases hrequest : parseBlpop host command with
  | error message => exact effective_error _
  | ok request =>
    intro current response hresponse
    rw [effective_blpop hname]
    constructor
    · rcases current with _ | ⟨_ | (_ | ⟨front, elements⟩) | _, expiresAt⟩ <;>
        simp only [OnEntry.popListElement, respondOr, Option.some.injEq] at hresponse ⊢ <;>
        simp [← hresponse, wrongTypeError, remaining_ne_keep]
    · intro _
      unfold parseBlpop at hrequest
      split at hrequest
      · split at hrequest
        · cases hrequest
        · cases hrequest
          rfl
      · cases hrequest

private theorem faithful_xadd (clock : Clock) (hname : nameOf command = some .xadd) :
    (xaddPlan clock command).Faithful host command := by
  match command with
  | _ :: key :: idText :: field :: value :: values =>
    simp only [xaddPlan]
    cases parseId idText with
    | none => exact effective_error _
    | some request =>
      simp only
      split
      · exact effective_error _
      · cases parseValueList (field :: value :: values) with
        | none => exact effective_error _
        | some fields =>
          intro current response hresponse
          rw [effective_of_write hname rfl (by decide) (by decide)]
          refine ⟨?_, fun _ => rfl⟩
          rcases current with _ | ⟨_ | _ | entries, expiresAt⟩
          case some.stream =>
            simp only [OnEntry.addStream] at hresponse ⊢
            by_cases hid : entries ≠ [] ∧ newStreamId clock entries request ≤ lastId entries
            · rw [if_pos hid] at hresponse ⊢
              simp only [respondXadd, Option.some.injEq] at hresponse
              simp [← hresponse, responseIsError]
            · rw [if_neg hid] at hresponse ⊢
              simp only [respondXadd, Option.some.injEq] at hresponse
              simp [← hresponse, responseIsError]
          all_goals
            simp only [OnEntry.addStream, respondXadd, Option.some.injEq] at hresponse ⊢
            simp [← hresponse, responseIsError, wrongTypeError]
  | [] | [_] | [_, _] | [_, _, _] | [_, _, _, _] => exact effective_error _

/-- **Every plan is faithful.** -/
theorem plan_faithful (host : Host) (clock : Clock) (command : Command) :
    (plan host clock command).Faithful host command := by
  unfold plan
  cases hname : nameOf command with
  | none =>
    show effective host command _ = false
    simp [effective, isWriteCommand, findCommandDefinition, hname]
  | some name =>
    have hread : isWriteName name = false → ∀ response, effective host command response = false :=
      fun h => effective_of_read hname h
    cases name with
    | set => exact faithful_set clock hname
    | get =>
      simp only [getPlan]
      split
      · refine faithful_read hname rfl _ _ _ fun current => ?_
        rcases current with _ | ⟨_ | _ | _, _⟩ <;> rfl
      · exact effective_error _
    | keys =>
      simp only [keysPlan]
      split
      · split
        · exact effective_error _
        · exact hread rfl
      · exact effective_error _
    | type =>
      simp only [typePlan]
      split
      · refine faithful_read hname rfl _ OnEntry.getType
          (fun result => some (.simpleString (typeName result))) fun current => ?_
        rcases current with _ | ⟨_ | _ | _, _⟩ <;> rfl
      · exact effective_error _
    | incr => exact faithful_incr hname
    | rpush => exact faithful_push _ _ hname (.inl rfl)
    | lpush => exact faithful_push _ _ hname (.inr rfl)
    | lrange =>
      simp only [lrangePlan]
      split
      · split
        · refine faithful_read hname rfl _ _ _ fun current => ?_
          rcases current with _ | ⟨_ | _ | _, _⟩ <;> rfl
        · exact effective_error _
      · exact effective_error _
    | llen =>
      simp only [llenPlan]
      split
      · refine faithful_read hname rfl _ _ _ fun current => ?_
        rcases current with _ | ⟨_ | _ | _, _⟩ <;> rfl
      · exact effective_error _
    | lpop => exact faithful_lpop hname
    | blpop => exact faithful_blpop hname
    | xadd => exact faithful_xadd clock hname
    | xrange =>
      simp only [xrangePlan]
      split
      · split
        · refine faithful_read hname rfl _ _ _ fun current => ?_
          rcases current with _ | ⟨_ | _ | _, _⟩
          · rfl
          · rfl
          · rfl
          · simp only [OnEntry.streamRange]
            split <;> rfl
        · exact effective_error _
      · exact effective_error _
    | xread =>
      simp only [xreadPlan]
      cases parseXread command with
      | error message => exact effective_error _
      | ok readCommand => exact hread rfl
    | _ => exact hread rfl _

end Plans

/-! ## What one command does -/

/-- What a command decides for its key, given the live entry. -/
def Plan.decision : Plan → Option Entry → Option Response × Update Entry
  | .reply response, _ => (some response, .keep)
  | .overwrite _ entry response, _ => (some response, .put entry)
  | .keyed _ operation, current => operation current
  | .listKeys, _ => (none, .keep)
  | .readStreams _, _ => (none, .keep)

/-- The name of the command that pushes at an end of a list. -/
def pushName : ListAddMode → CommandName
  | .append => .rpush
  | .prepend => .lpush

/-- **The effective writes, one by one**: the shape of the command, its reply and
its update, given the live entry. -/
inductive Write (host : Host) (clock : Clock) (current : Option Entry) :
    Command → Response → Update Entry → Prop
  | set {word key value : Bytes} (hname : nameOf [word, key, value] = some .set) :
      Write host clock current [word, key, value] ok (.put { value := .string value })
  | setUntil {word key value unit time : Bytes} {expiresAt : Option Int}
      (hname : nameOf [word, key, value, unit, time] = some .set)
      (hunit : unit = ascii "PX" ∨ unit = ascii "EX") :
      Write host clock current [word, key, value, unit, time] ok
        (.put { value := .string value, expiresAt })
  | incr {word key : Bytes} {number : Int} {update : Update Entry}
      (hname : nameOf [word, key] = some .incr)
      (hincrement : OnEntry.incrementKey current = (.ok number, update)) :
      Write host clock current [word, key] (.integer number) update
  | push {word key value : Bytes} {values : List Bytes} {mode : ListAddMode} {size : ℕ}
      {update : Update Entry}
      (hname : nameOf (word :: key :: value :: values) = some (pushName mode))
      (hadd : OnEntry.addListElements (value :: values) mode current = (.ok size, update)) :
      Write host clock current (word :: key :: value :: values) (.integer size) update
  | lpop {word key value : Bytes} {update : Update Entry}
      (hname : nameOf [word, key] = some .lpop)
      (hpop : OnEntry.popListElement current = (.ok value, update)) :
      Write host clock current [word, key] (.bulkString value) update
  | lpopMany {word key number : Bytes} {count : Int} {values : List Bytes}
      {update : Update Entry} (hname : nameOf [word, key, number] = some .lpop)
      (hparse : parseNumberOfElements number = some count)
      (hpop : OnEntry.popListElements count current = (.ok values, update)) :
      Write host clock current [word, key, number] (.array values) update
  | blpop {command : Command} {request : BlockingPopRequest} {value : Bytes}
      {update : Update Entry} (hname : nameOf command = some .blpop)
      (hparse : parseBlpop host command = .ok request)
      (hpop : OnEntry.popListElement current = (.ok value, update)) :
      Write host clock current command (.array [request.key, value]) update
  | xadd {word key idText field value : Bytes} {values : List Bytes} {request : IdRequest}
      {fields : List (Bytes × Bytes)} {id : StreamId} {update : Update Entry}
      (hname : nameOf (word :: key :: idText :: field :: value :: values) = some .xadd)
      (hrequest : parseId idText = some request) (hzero : request ≠ .explicit StreamId.zero)
      (hfields : parseValueList (field :: value :: values) = some fields)
      (hadd : OnEntry.addStream clock request fields current = (.ok id, update)) :
      Write host clock current (word :: key :: idText :: field :: value :: values)
        (.bulkString id.toString) update

section Writes

variable {host : Host} {clock : Clock} {command : Command} {current : Option Entry}
  {response : Response} {update : Update Entry}

/-- The key of a `BLPOP` is its first argument. -/
theorem target_of_parseBlpop {request : BlockingPopRequest}
    (hparse : parseBlpop host command = .ok request) : command[1]? = some request.key := by
  match command with
  | [_, key, timeout] =>
    simp only [parseBlpop] at hparse
    split at hparse
    · cases hparse
    · cases hparse
      rfl

/-- A plan that only replies with an error is no effective write. -/
private theorem not_effective_of_error {message : Bytes}
    (heffective : effective host command response = true)
    (h : (Plan.reply (.simpleError message)).decision current = (some response, update)) :
    False := by
  cases h
  rw [effective_error] at heffective
  cases heffective

private theorem write_set (hname : nameOf command = some .set)
    (heffective : effective host command response = true)
    (h : (setPlan clock command).decision current = (some response, update)) :
    Write host clock current command response update := by
  match command with
  | [word, key, value] =>
    cases h
    exact .set hname
  | [word, key, value, unit, time] =>
    simp only [setPlan] at h
    split at h
    · exact (not_effective_of_error heffective h).elim
    · split at h
      · cases h
        exact .setUntil hname (.inl ‹_›)
      · split at h
        · cases h
          exact .setUntil hname (.inr ‹_›)
        · exact (not_effective_of_error heffective h).elim
  | [] | [_] | [_, _] | [_, _, _, _] | _ :: _ :: _ :: _ :: _ :: _ :: _ =>
    exact (not_effective_of_error heffective h).elim

/-- An operation behind an effective write succeeded. -/
private theorem succeeded_of_answer {Result : Type}
    {operation : Option Entry → Except Error Result × Update Entry}
    {respond : Except Error Result → Option Response}
    (hfailed : ∀ error, respond (.error error) = some response →
      effective host command response = false) (heffective : effective host command response = true)
    (h : (Plan.answer key operation respond).decision current = (some response, update)) :
    ∃ value, operation current = (.ok value, update) ∧ respond (.ok value) = some response := by
  obtain ⟨hresponse, hupdate⟩ := Prod.mk.inj h
  cases hresult : operation current with
  | mk outcome decided =>
    rw [hresult] at hresponse hupdate
    cases outcome with
    | error error =>
      rw [hfailed error hresponse] at heffective
      cases heffective
    | ok value => exact ⟨value, Prod.ext rfl hupdate, hresponse⟩

private theorem write_incr (hname : nameOf command = some .incr)
    (heffective : effective host command response = true)
    (h : (incrPlan command).decision current = (some response, update)) :
    Write host clock current command response update := by
  match command with
  | [word, key] =>
    obtain ⟨number, hincrement, hresponse⟩ := succeeded_of_answer (fun error herror => by
      cases error <;> cases herror <;> exact effective_error _) heffective h
    cases hresponse
    exact .incr hname hincrement
  | [] | [_] | _ :: _ :: _ :: _ => exact (not_effective_of_error heffective h).elim

private theorem write_push {mode : ListAddMode} {usage : Bytes}
    (hname : nameOf command = some (pushName mode))
    (heffective : effective host command response = true)
    (h : (pushPlan mode usage command).decision current = (some response, update)) :
    Write host clock current command response update := by
  match command with
  | word :: key :: value :: values =>
    obtain ⟨size, hadd, hresponse⟩ := succeeded_of_answer (fun error herror => by
      cases herror
      exact effective_error _) heffective h
    cases hresponse
    exact .push hname hadd
  | [] | [_] | [_, _] => exact (not_effective_of_error heffective h).elim

private theorem write_lpop (hname : nameOf command = some .lpop)
    (heffective : effective host command response = true)
    (h : (lpopPlan command).decision current = (some response, update)) :
    Write host clock current command response update := by
  have hmissing : effective host command .nullBulkString = false := by
    rw [← Bool.not_eq_true, effective_lpop hname]
    simp
  match command with
  | [word, key] =>
    obtain ⟨value, hpop, hresponse⟩ := succeeded_of_answer (fun error herror => by
      cases error <;> cases herror <;> first | exact effective_error _ | exact hmissing)
      heffective h
    cases hresponse
    exact .lpop hname hpop
  | [word, key, number] =>
    simp only [lpopPlan] at h
    split at h
    · exact (not_effective_of_error heffective h).elim
    · rename_i count hparse
      obtain ⟨values, hpop, hresponse⟩ := succeeded_of_answer (fun error herror => by
        cases error <;> cases herror <;> first | exact effective_error _ | exact hmissing)
        heffective h
      cases hresponse
      exact .lpopMany hname hparse hpop
  | [] | [_] | _ :: _ :: _ :: _ :: _ => exact (not_effective_of_error heffective h).elim

private theorem write_blpop (hname : nameOf command = some .blpop)
    (heffective : effective host command response = true)
    (h : (blpopPlan host command).decision current = (some response, update)) :
    Write host clock current command response update := by
  have hmissing : effective host command .nullArray = false := by
    rw [← Bool.not_eq_true, effective_blpop hname]
    simp
  unfold blpopPlan at h
  split at h
  · exact (not_effective_of_error heffective h).elim
  · rename_i request hparse
    obtain ⟨value, hpop, hresponse⟩ := succeeded_of_answer (fun error herror => by
      cases error <;> cases herror <;> first | exact effective_error _ | exact hmissing)
      heffective h
    cases hresponse
    exact .blpop hname hparse hpop

private theorem write_xadd (hname : nameOf command = some .xadd)
    (heffective : effective host command response = true)
    (h : (xaddPlan clock command).decision current = (some response, update)) :
    Write host clock current command response update := by
  match command with
  | word :: key :: idText :: field :: value :: values =>
    simp only [xaddPlan] at h
    split at h
    · exact (not_effective_of_error heffective h).elim
    · rename_i request hrequest
      split at h
      · exact (not_effective_of_error heffective h).elim
      · rename_i hzero
        split at h
        · exact (not_effective_of_error heffective h).elim
        · rename_i fields hfields
          obtain ⟨id, hadd, hresponse⟩ := succeeded_of_answer (fun error herror => by
            cases error <;> cases herror <;> exact effective_error _) heffective h
          cases hresponse
          exact .xadd hname hrequest hzero hfields hadd
  | [] | [_] | [_, _] | [_, _, _] | [_, _, _, _] =>
    exact (not_effective_of_error heffective h).elim

theorem write_cases (heffective : effective host command response = true)
    (h : (plan host clock command).decision current = (some response, update)) :
    Write host clock current command response update := by
  have hwrite : isWriteCommand host command = true := (Bool.and_eq_true_iff.mp heffective).1
  obtain ⟨name, hname, hwrite⟩ := isWriteCommand_iff.mp hwrite
  unfold plan at h
  rw [hname] at h
  cases name with
  | set => exact write_set hname heffective h
  | incr => exact write_incr hname heffective h
  | rpush => exact @write_push host clock command current response update .append _ hname heffective h
  | lpush => exact @write_push host clock command current response update .prepend _ hname heffective h
  | lpop => exact write_lpop hname heffective h
  | blpop => exact write_blpop hname heffective h
  | xadd => exact write_xadd hname heffective h
  | _ => cases hwrite

end Writes

/-- The change one command makes to the database. -/
inductive Change (host : Host) (clock : Clock) (command : Command) (response : Response)
    (before : Database) : Database → Prop
  /-- It is no effective write, and at most removes what has expired. -/
  | looked {after : Database} (ineffective : effective host command response = false)
      (purges : Purges (Entry.expired clock) before after) :
      Change host clock command response before after
  /-- It is an effective write, and updates its key by what it decided from the
  live entry.  A `SET` does not look at the key first. -/
  | wrote (key : Bytes) (update : Update Entry) (base : Database)
      (effective_write : effective host command response = true)
      (target : command[1]? = some key)
      (decided : (plan host clock command).decision (view clock before key) =
        (some response, update))
      (changes : update ≠ .keep)
      (based : base = purge (Entry.expired clock) key before ∨
        base = before ∧ ∃ entry, update = .put entry) :
      Change host clock command response before (update.apply key base)

/-- A write puts its decision in place of the live entry, and leaves the other keys. -/
theorem lookup_wrote {update : Update Entry} {before base : Database}
    (hbased : base = purge (Entry.expired clock) key before ∨
      base = before ∧ ∃ entry, update = .put entry) (other : Bytes) :
    (update.apply key base).entries.lookup other =
      if other = key then update.outcome (view clock before key)
      else before.entries.lookup other := by
  rw [lookup_apply]
  split
  · rename_i hsame
    subst hsame
    rcases hbased with rfl | ⟨rfl, entry, rfl⟩
    · rw [lookup_purge_self]
      rfl
    · rfl
  · rename_i hother
    rcases hbased with rfl | ⟨rfl, -⟩
    · rw [lookup_purge, if_neg hother]
    · rfl

/-- **A dispatched command only looks, or is an effective write to the key that
its first argument names.** -/
theorem dispatch_cases {host : Host} {command : Command} {response : Response}
    {before after : Database}
    (hdispatch : dispatch host clock before command = some (response, after)) :
    Change host clock command response before after := by
  rw [dispatch_eq_plan] at hdispatch
  have hfaithful := plan_faithful host clock command
  cases hplan : plan host clock command with
  | reply reply =>
    rw [hplan] at hdispatch hfaithful
    cases hdispatch
    exact .looked hfaithful (.refl _)
  | overwrite key entry reply =>
    rw [hplan] at hdispatch hfaithful
    cases hdispatch
    refine .wrote key (.put entry) before hfaithful.1 hfaithful.2 ?_ (by simp)
      (Or.inr ⟨rfl, entry, rfl⟩)
    rw [hplan]
    rfl
  | keyed key operation =>
    rw [hplan] at hdispatch hfaithful
    obtain ⟨reply, hreply, hpair⟩ := Option.map_eq_some_iff.mp hdispatch
    cases hpair
    obtain ⟨heffective, htarget⟩ := hfaithful _ response hreply
    have hafter : (transact (Entry.expired clock) key operation before).2 =
        (operation (view clock before key)).2.apply key
          (purge (Entry.expired clock) key before) := rfl
    rw [hafter]
    by_cases hkeep : (operation (view clock before key)).2 = .keep
    · rw [hkeep]
      refine .looked ?_ (purges_purge _ key before)
      simpa using mt heffective.mp (not_not_intro hkeep)
    · refine .wrote key _ _ (heffective.mpr hkeep) (htarget (heffective.mpr hkeep)) ?_ hkeep
        (Or.inl rfl)
      rw [hplan]
      exact Prod.ext hreply rfl
  | listKeys =>
    rw [hplan] at hdispatch hfaithful
    cases hdispatch
    exact .looked (hfaithful _) (keys_spec clock before).2.2
  | readStreams requests =>
    rw [hplan] at hdispatch hfaithful
    obtain ⟨looked, hread, hpurges, -⟩ := readStreams_spec clock requests before
    simp only [Plan.execute, hread] at hdispatch
    generalize OnEntry.readStreams (view clock before) requests = outcome at hdispatch
    rcases outcome with ⟨error | results, resolved⟩
    all_goals
      cases hdispatch
      exact .looked (hfaithful _) hpurges

/-! ## What is not propagated changes nothing -/

/-- An update of one key leaves what the others show. -/
theorem view_apply_ne {other : Bytes} (hne : other ≠ key) (update : Update Entry)
    (database : Database) :
    view clock (update.apply key database) other = view clock database other := by
  unfold view live
  rw [lookup_apply, if_neg hne]

/-- **What is neither logged nor replicated changes nothing**: the live contents are
the same after a command that is no write, and after a write whose reply does not
count as a modification; and no command changes what another key than the one its
first argument names shows. -/
theorem dispatch_frame {host : Host} {clock : Clock} {command : Command} {response : Response}
    {before after : Database}
    (hdispatch : dispatch host clock before command = some (response, after)) :
    (isWriteCommand host command = false ∨ writeModifiedDatabase command response = false →
      view clock after = view clock before) ∧
    ∀ key, command[1]? ≠ some key → view clock after key = view clock before key := by
  cases dispatch_cases hdispatch with
  | looked hineffective hpurges =>
    exact ⟨fun _ => funext hpurges.live_eq, fun key _ => hpurges.live_eq key⟩
  | wrote key update base heffective htarget _ _ hbased =>
    rw [effective, Bool.and_eq_true] at heffective
    refine ⟨?_, fun other hother => ?_⟩
    · rintro (hread | hunmodified)
      · rw [hread] at heffective
        cases heffective.1
      · rw [hunmodified] at heffective
        cases heffective.2
    · have hne : other ≠ key := by
        rintro rfl
        exact hother htarget
      rw [view_apply_ne hne]
      rcases hbased with rfl | ⟨rfl, -⟩
      · exact live_purge _ _ _ _
      · rfl

/-- A stream, and a string that has expired by the time `7`. -/
def partlyExpired : Database where
  entries := (AList.singleton (ascii "s") ⟨.stream [⟨⟨5, 0⟩, []⟩], none⟩).insert
    (ascii "t") ⟨.string (ascii "x"), some 3⟩

/-- An `XADD` below the last identifier. -/
theorem dispatch_frame_failed_xadd :
    ∃ after, dispatch Host.plain ⟨7, 1⟩ partlyExpired
        [ascii "XADD", ascii "s", ascii "4-0", ascii "f", ascii "v"] =
          some (.simpleError (ascii "ERR The ID specified in XADD is equal or smaller " ++
            ascii "than the target stream top item"), after) ∧
      view ⟨7, 1⟩ after (ascii "s") = some ⟨.stream [⟨⟨5, 0⟩, []⟩], none⟩ := by
  obtain ⟨after, hafter⟩ : ∃ after, dispatch Host.plain ⟨7, 1⟩ partlyExpired
        [ascii "XADD", ascii "s", ascii "4-0", ascii "f", ascii "v"] =
          some (.simpleError (ascii "ERR The ID specified in XADD is equal or smaller " ++
            ascii "than the target stream top item"), after) := ⟨_, rfl⟩
  refine ⟨after, hafter, ?_⟩
  rw [(dispatch_frame hafter).1 (.inr rfl)]
  decide +kernel

end RedisServer.Commands
