import RedisServer.Commands.Effect
import RedisServer.Database.Streams

/-!
# Commands on different keys

A command on one key decides about that key from its live entry and does nothing
else (`plan_onKey`).  Two such commands with different keys can therefore be exchanged:
neither sees what the other did (`commands_commute`).
-/

namespace RedisServer.Commands

open Resp KeyedStore Database

/-- The commands on one key. -/
def isSingleKey : CommandName → Bool
  | .set | .get | .type | .incr | .rpush | .lpush | .lrange | .llen | .lpop | .blpop | .xadd
  | .xrange => true
  | _ => false

/-- The range of an `XRANGE`, where both ends can be read, does not start behind its
end. -/
def rangeOrdered : Command → Bool
  | [_, _, start, stop] =>
    match parseRangeStart start, parseRangeStop stop with
    | some start, some stop => decide (start ≤ stop)
    | _, _ => true
  | _ => true

/-- The plan is about this key, or about none, and always has an answer. -/
inductive Plan.OnKey (target : Option Bytes) : Plan → Prop
  | reply (response : Response) : Plan.OnKey target (.reply response)
  | overwrite {key : Bytes} (htarget : target = some key) (entry : Entry) (response : Response) :
      Plan.OnKey target (.overwrite key entry response)
  | keyed {key : Bytes} (htarget : target = some key)
      (operation : Option Entry → Option Response × Update Entry)
      (hanswers : ∀ current, (operation current).1.isSome) :
      Plan.OnKey target (.keyed key operation)

section Answers

variable {Result : Type} {target : Option Bytes} {key : Bytes}

theorem onKey_respondOr (htarget : target = some key)
    (operation : Option Entry → Except Error Result × Update Entry) (missing : Response)
    (respond : Result → Response) :
    (Plan.answer key operation (respondOr missing respond)).OnKey target := by
  refine .keyed htarget _ fun current => ?_
  match (operation current).1 with
  | .ok _ | .error .wrongType | .error .keyNotFound | .error .invalidStreamIdValue
  | .error .valueNotInteger => rfl

theorem onKey_respondTyped (htarget : target = some key)
    (operation : Option Entry → Except Error Result × Update Entry)
    (respond : Result → Response) :
    (Plan.answer key operation (respondTyped respond)).OnKey target := by
  refine .keyed htarget _ fun current => ?_
  match (operation current).1 with
  | .ok _ | .error _ => rfl

theorem respondIncr_isSome (current : Option Entry) :
    (respondIncr (OnEntry.incrementKey current).1).isSome := by
  match current with
  | none | some ⟨.list _, _⟩ | some ⟨.stream _, _⟩ => rfl
  | some ⟨.string text, _⟩ =>
    simp only [OnEntry.incrementKey]
    cases parseSigned 64 text with
    | none => rfl
    | some parsed => rfl

theorem respondXadd_isSome (clock : Clock) (id : IdRequest) (values : List (Bytes × Bytes))
    (current : Option Entry) :
    (respondXadd (OnEntry.addStream clock id values current).1).isSome := by
  match current with
  | none | some ⟨.list _, _⟩ | some ⟨.string _, _⟩ => rfl
  | some ⟨.stream entries, _⟩ =>
    simp only [OnEntry.addStream]
    split
    · rfl
    · rfl

/-- The searches of a range in order do not cross, so that a slice is always taken. -/
theorem respondXrange_isSome {start stop : StreamId} (hle : start ≤ stop)
    (current : Option Entry) :
    (respondXrange (OnEntry.streamRange start stop current).1).isSome := by
  match current with
  | none | some ⟨.list _, _⟩ | some ⟨.string _, _⟩ => rfl
  | some ⟨.stream entries, _⟩ =>
    simp only [OnEntry.streamRange, if_pos (lowerBound_le_upperBound entries hle)]
    rfl

end Answers

section Plans

variable {clock : Clock} {command : Command}

theorem setPlan_onKey : (setPlan clock command).OnKey command[1]? := by
  match command with
  | [_, key, value] => exact .overwrite rfl _ _
  | [_, key, value, unit, time] =>
    simp only [setPlan]
    split
    · exact .reply _
    · split
      · exact .overwrite rfl _ _
      · split
        · exact .overwrite rfl _ _
        · exact .reply _
  | [] | [_] | [_, _] | [_, _, _, _] | _ :: _ :: _ :: _ :: _ :: _ :: _ => exact .reply _

theorem pushPlan_onKey (mode : ListAddMode) (usage : Bytes) :
    (pushPlan mode usage command).OnKey command[1]? := by
  match command with
  | _ :: key :: value :: values => exact onKey_respondTyped rfl _ _
  | [] | [_] | [_, _] => exact .reply _

theorem lrangePlan_onKey : (lrangePlan command).OnKey command[1]? := by
  match command with
  | [_, key, start, stop] =>
    simp only [lrangePlan]
    split
    · exact onKey_respondTyped rfl _ _
    · exact .reply _
  | [] | [_] | [_, _] | [_, _, _] | _ :: _ :: _ :: _ :: _ :: _ => exact .reply _

theorem lpopPlan_onKey : (lpopPlan command).OnKey command[1]? := by
  match command with
  | [_, key] => exact onKey_respondOr rfl _ _ _
  | [_, key, number] =>
    simp only [lpopPlan]
    split
    · exact .reply _
    · exact onKey_respondOr rfl _ _ _
  | [] | [_] | _ :: _ :: _ :: _ :: _ => exact .reply _

theorem blpopPlan_onKey (host : Host) : (blpopPlan host command).OnKey command[1]? := by
  unfold blpopPlan
  split
  · exact .reply _
  · rename_i request hparse
    exact onKey_respondOr (target_of_parseBlpop hparse) _ _ _

theorem xaddPlan_onKey : (xaddPlan clock command).OnKey command[1]? := by
  match command with
  | _ :: key :: idText :: field :: value :: values =>
    simp only [xaddPlan]
    split
    · exact .reply _
    · split
      · exact .reply _
      · split
        · exact .reply _
        · exact .keyed rfl _ (respondXadd_isSome clock _ _)
  | [] | [_] | [_, _] | [_, _, _] | [_, _, _, _] => exact .reply _

theorem xrangePlan_onKey (hordered : rangeOrdered command = true) :
    (xrangePlan command).OnKey command[1]? := by
  match command, hordered with
  | [_, key, startText, stopText], hordered =>
    simp only [xrangePlan, rangeOrdered] at hordered ⊢
    cases hstart : parseRangeStart startText with
    | none => exact .reply _
    | some start =>
      cases hstop : parseRangeStop stopText with
      | none => exact .reply _
      | some stop =>
        rw [hstart, hstop] at hordered
        exact .keyed rfl _ (respondXrange_isSome (of_decide_eq_true hordered))
  | [], _ | [_], _ | [_, _], _ | [_, _, _], _ | _ :: _ :: _ :: _ :: _ :: _, _ => exact .reply _

/-- **A command on one key is about its first argument.** -/
theorem plan_onKey (host : Host) (clock : Clock) {name : CommandName}
    (hname : nameOf command = some name) (hsingle : isSingleKey name = true)
    (hordered : name = .xrange → rangeOrdered command = true) :
    (plan host clock command).OnKey command[1]? := by
  unfold plan
  rw [hname]
  cases name with
  | set => exact setPlan_onKey
  | get =>
    match command with
    | [_, key] => exact onKey_respondOr rfl _ _ _
    | [] | [_] | _ :: _ :: _ :: _ => exact .reply _
  | type =>
    match command with
    | [_, key] => exact .keyed rfl _ fun _ => rfl
    | [] | [_] | _ :: _ :: _ :: _ => exact .reply _
  | incr =>
    match command with
    | [_, key] => exact .keyed rfl _ respondIncr_isSome
    | [] | [_] | _ :: _ :: _ :: _ => exact .reply _
  | llen =>
    match command with
    | [_, key] => exact onKey_respondTyped rfl _ _
    | [] | [_] | _ :: _ :: _ :: _ => exact .reply _
  | rpush => exact pushPlan_onKey _ _
  | lpush => exact pushPlan_onKey _ _
  | lrange => exact lrangePlan_onKey
  | lpop => exact lpopPlan_onKey
  | blpop => exact blpopPlan_onKey host
  | xadd => exact xaddPlan_onKey
  | xrange => exact xrangePlan_onKey (hordered rfl)
  | _ => cases hsingle

end Plans

/-! ## Exchanging two commands -/

/-- The plan answers and decides about one key from the live entry there. -/
def Plan.Acts (clock : Clock) (key : Bytes) (operation : Option Entry → Response × Update Entry)
    (plan : Plan) : Prop :=
  ∀ database, ∃ after,
    plan.execute clock database = some ((operation (view clock database key)).1, after) ∧
      Decides (Entry.expired clock) key operation database after

theorem Plan.OnKey.cases_acts {target : Option Bytes} {plan : Plan} (h : plan.OnKey target)
    (clock : Clock) :
    (∃ response, plan = .reply response) ∨
      ∃ key operation, target = some key ∧ plan.Acts clock key operation := by
  cases h with
  | reply response => exact .inl ⟨response, rfl⟩
  | @overwrite key htarget entry response =>
    exact .inr ⟨key, fun _ => (response, .put entry), htarget,
      fun database => ⟨_, rfl, fun other => lookup_put key other entry database⟩⟩
  | @keyed key htarget operation hanswers =>
    refine .inr ⟨key, fun current => ((operation current).1.get (hanswers current),
      (operation current).2), htarget, fun database => ⟨_, ?_, fun other =>
        lookup_transact operation _ key other database⟩⟩
    have hresponse : (transact (Entry.expired clock) key operation database).1 =
        some ((operation (view clock database key)).1.get (hanswers _)) :=
      (Option.some_get _).symm
    simp only [Plan.execute, hresponse, Option.map_some]

/-- Two commands one after the other, with the replies of both. -/
def inOrder (host : Host) (clock : Clock) (database : Database) (first second : Command) :
    Option ((Response × Response) × Database) :=
  (dispatch host clock database first).bind fun (response, database) =>
    (dispatch host clock database second).map fun (response', database) =>
      ((response, response'), database)

section Exchange

variable {host : Host} {clock : Clock} {database : Database} {first second : Command}

/-- The two orders agree: on the replies and on every entry. -/
def Exchanged (host : Host) (clock : Clock) (database : Database) (first second : Command) :
    Prop :=
  ∃ response response' after after',
    inOrder host clock database first second = some ((response, response'), after) ∧
    inOrder host clock database second first = some ((response', response), after') ∧
    after.entries.lookup = after'.entries.lookup

theorem exchanged_acts {key key' : Bytes}
    {operation operation' : Option Entry → Response × Update Entry} (hne : key ≠ key')
    (hfirst : (plan host clock first).Acts clock key operation)
    (hsecond : (plan host clock second).Acts clock key' operation') :
    Exchanged host clock database first second := by
  obtain ⟨middle, hrun₁, hdecides₁⟩ := hfirst database
  obtain ⟨after, hrun₂, hdecides₂⟩ := hsecond middle
  obtain ⟨middle', hrun₁', hdecides₁'⟩ := hsecond database
  obtain ⟨after', hrun₂', hdecides₂'⟩ := hfirst middle'
  -- neither command sees what the other one did
  have hview : view clock middle key' = view clock database key' := hdecides₁.live_ne hne.symm
  have hview' : view clock middle' key = view clock database key := hdecides₁'.live_ne hne
  rw [hview] at hrun₂
  rw [hview'] at hrun₂'
  refine ⟨(operation (view clock database key)).1, (operation' (view clock database key')).1,
    after, after', ?_, ?_, hdecides₁.comm hne hdecides₂ hdecides₁' hdecides₂'⟩
  · simp only [inOrder, dispatch_eq_plan, hrun₁, Option.bind_some, hrun₂, Option.map_some]
  · simp only [inOrder, dispatch_eq_plan, hrun₁', Option.bind_some, hrun₂', Option.map_some]

/-- A reply that does not look at the database can be given at any time. -/
theorem exchanged_reply {response : Response} (hfirst : plan host clock first = .reply response)
    (hsecond : ∀ database, ∃ response' after,
      (plan host clock second).execute clock database = some (response', after)) :
    Exchanged host clock database first second ∧ Exchanged host clock database second first := by
  obtain ⟨response', after, hrun⟩ := hsecond database
  have hreply : ∀ database, (plan host clock first).execute clock database =
      some (response, database) := by
    intro database
    rw [hfirst]
    rfl
  have hstraight : inOrder host clock database first second =
      some ((response, response'), after) := by
    simp only [inOrder, dispatch_eq_plan, hreply, Option.bind_some, hrun, Option.map_some]
  have hcrossed : inOrder host clock database second first =
      some ((response', response), after) := by
    simp only [inOrder, dispatch_eq_plan, hreply, Option.bind_some, hrun, Option.map_some]
  exact ⟨⟨_, _, after, after, hstraight, hcrossed, rfl⟩,
    ⟨_, _, after, after, hcrossed, hstraight, rfl⟩⟩

theorem exchanged_onKey {target target' : Option Bytes}
    (hfirst : (plan host clock first).OnKey target)
    (hsecond : (plan host clock second).OnKey target')
    (hkeys : ∀ key, target = some key → target' ≠ some key) :
    Exchanged host clock database first second := by
  obtain ⟨response, hreply⟩ | ⟨key, operation, htarget, hacts⟩ := hfirst.cases_acts clock
  · obtain ⟨response', hreply'⟩ | ⟨key', operation', -, hacts'⟩ := hsecond.cases_acts clock
    · exact (exchanged_reply hreply fun database => ⟨response', database, by rw [hreply']; rfl⟩).1
    · exact (exchanged_reply hreply fun database =>
        let ⟨after, hrun, _⟩ := hacts' database
        ⟨_, after, hrun⟩).1
  · obtain ⟨response', hreply'⟩ | ⟨key', operation', htarget', hacts'⟩ := hsecond.cases_acts clock
    · exact (exchanged_reply hreply' fun database =>
        let ⟨after, hrun, _⟩ := hacts database
        ⟨_, after, hrun⟩).2
    · have hne : key ≠ key' := by
        rintro rfl
        exact hkeys key htarget htarget'
      exact exchanged_acts hne hacts hacts'

end Exchange

/-- **Commands on different keys commute**: in either order they give the same two replies
and leave the same live contents, now and at any later time. -/
theorem commands_commute (host : Host) (clock : Clock) (database : Database)
    {first second : Command} {name name' : CommandName}
    (hname : nameOf first = some name) (hsingle : isSingleKey name = true)
    (hordered : name = .xrange → rangeOrdered first = true)
    (hname' : nameOf second = some name') (hsingle' : isSingleKey name' = true)
    (hordered' : name' = .xrange → rangeOrdered second = true)
    (hkeys : ∀ key, first[1]? = some key → second[1]? ≠ some key) :
    ∃ response response' after after',
      inOrder host clock database first second = some ((response, response'), after) ∧
      inOrder host clock database second first = some ((response', response), after') ∧
      ∀ time key, view time after key = view time after' key := by
  obtain ⟨response, response', after, after', hstraight, hcrossed, hlookup⟩ :=
    exchanged_onKey (plan_onKey host clock hname hsingle hordered)
      (plan_onKey host clock hname' hsingle' hordered') hkeys
  refine ⟨response, response', after, after', hstraight, hcrossed, fun time key => ?_⟩
  have hkey : after.entries.lookup key = after'.entries.lookup key := congrFun hlookup key
  rw [view, view, live, live, hkey]

/-- A pop that empties its list and a range of an absent stream, in either order. -/
theorem commands_commute_pop_range :
    ∃ response response' after after',
      inOrder Host.plain ⟨0, 0⟩ (KeyedStore.put [1] { value := .list [[7]] } {})
        [ascii "LPOP", [1]] [ascii "XRANGE", [2], ascii "1", ascii "2"] =
          some ((response, response'), after) ∧
      inOrder Host.plain ⟨0, 0⟩ (KeyedStore.put [1] { value := .list [[7]] } {})
        [ascii "XRANGE", [2], ascii "1", ascii "2"] [ascii "LPOP", [1]] =
          some ((response', response), after') ∧
      ∀ time key, view time after key = view time after' key :=
  have hpop : nameOf [ascii "LPOP", [1]] = some .lpop := by decide
  have hrange : nameOf [ascii "XRANGE", [2], ascii "1", ascii "2"] = some .xrange := by decide
  commands_commute Host.plain ⟨0, 0⟩ _ hpop rfl (fun h => nomatch h) hrange rfl
    (fun _ => by decide) (by rintro _ ⟨rfl⟩; decide)

end RedisServer.Commands
