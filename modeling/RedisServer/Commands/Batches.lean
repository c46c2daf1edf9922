import RedisServer.Commands.Effect

/-!
# Batches of list commands

`RPUSH` and `LPUSH` of several values and `LPOP` with a count have loops of their own.
They come to what single pushes and pops come to: both are compared with the list that
the key shows (`Shelved`), which a single command changes by one element and a batch by
all of them at once.
-/

namespace RedisServer.Commands

open Resp KeyedStore Database

variable {database after : Database} {clock : Clock} {elements : List Bytes} {number : Bytes}
  {expiresAt : Option Int} {count : Int} {values : List (Clock × Bytes)}

/-! ## One command after the other -/

/-- Run commands one after the other on a database, each at its own time. -/
def dispatchAll (host : Host) :
    List (Clock × Command) → Database → Option (List Response × Database)
  | [], database => some ([], database)
  | (clock, command) :: rest, database =>
    (dispatch host clock database command).bind fun (response, database) =>
      (dispatchAll host rest database).map fun (responses, database) =>
        (response :: responses, database)

theorem dispatchAll_cons {host : Host} {command : Command} {rest : List (Clock × Command)}
    {middle : Database} {response : Response} {responses : List Response}
    (hfirst : dispatch host clock database command = some (response, middle))
    (hrest : dispatchAll host rest middle = some (responses, after)) :
    dispatchAll host ((clock, command) :: rest) database =
      some (response :: responses, after) := by
  rw [dispatchAll, hfirst]
  simp only [Option.bind_some, hrest, Option.map_some]

/-! ## The commands -/

def pushCommand (mode : ListAddMode) (key : Bytes) (values : List Bytes) : Command :=
  (pushName mode).text :: key :: values

def popCommand (key : Bytes) : Command := [CommandName.lpop.text, key]

section Dispatch

variable (host : Host) (clock : Clock) (database : Database) (key : Bytes)

theorem dispatch_push (mode : ListAddMode) (value : Bytes) (values : List Bytes) :
    dispatch host clock database (pushCommand mode key (value :: values)) =
      (respondTyped (fun size : ℕ => .integer size)
        (OnEntry.addListElements (value :: values) mode (view clock database key)).1).map
        (·, (transact (Entry.expired clock) key
          (OnEntry.addListElements (value :: values) mode) database).2) := by
  have hname : nameOf (pushCommand mode key (value :: values)) = some (pushName mode) :=
    nameOf_cons.mpr rfl
  rw [dispatch_eq_plan, plan, hname]
  cases mode <;> rfl

theorem dispatch_pop :
    dispatch host clock database (popCommand key) =
      (respondOr .nullBulkString .bulkString
        (OnEntry.popListElement (view clock database key)).1).map
        (·, (transact (Entry.expired clock) key OnEntry.popListElement database).2) := by
  have hname : nameOf (popCommand key) = some .lpop := nameOf_cons.mpr rfl
  rw [dispatch_eq_plan, plan, hname]
  rfl

theorem dispatch_popMany (hcount : parseNumberOfElements number = some count) :
    dispatch host clock database (popCommand key ++ [number]) =
      (respondOr .nullBulkString .array
        (OnEntry.popListElements count (view clock database key)).1).map
        (·, (transact (Entry.expired clock) key (OnEntry.popListElements count) database).2) := by
  have hname : nameOf (popCommand key ++ [number]) = some .lpop := nameOf_cons.mpr rfl
  rw [dispatch_eq_plan, plan, hname]
  simp only [popCommand, List.cons_append, List.nil_append, lpopPlan, hcount]
  rfl

end Dispatch

/-! ## What a key shows as a list -/

/-- The list and the deadline that a push finds; an absent key counts as an empty list. -/
def stored : Option Entry → Option (List Bytes × Option Int)
  | none => some ([], none)
  | some ⟨.list elements, expiresAt⟩ => some (elements, expiresAt)
  | some _ => none

/-- The elements of a live list, none when there is no list. -/
def listOf (current : Option Entry) : List Bytes := ((stored current).map Prod.fst).getD []

theorem stored_eq_none {current : Option Entry} (h : stored current = none) :
    ∃ entry, current = some entry ∧
      (∀ values mode, OnEntry.addListElements values mode (some entry) =
        (.error .wrongType, .keep)) := by
  match current, h with
  | some ⟨.string _, _⟩, _ => exact ⟨_, rfl, fun _ _ => rfl⟩
  | some ⟨.stream _, _⟩, _ => exact ⟨_, rfl, fun _ _ => rfl⟩

theorem addListElements_of_stored {current : Option Entry}
    (h : stored current = some (elements, expiresAt)) (values : List Bytes) (mode : ListAddMode) :
    OnEntry.addListElements values mode current =
      (.ok (OnEntry.extend mode values elements).length,
        .put ⟨.list (OnEntry.extend mode values elements), expiresAt⟩) := by
  match current, h with
  | none, rfl => rfl
  | some ⟨.list _, _⟩, rfl => rfl

/-- A deadline that was found has not been reached. -/
theorem not_expired_of_stored {key : Bytes}
    (h : stored (view clock database key) = some (elements, expiresAt)) (value : Value) :
    Entry.expired clock ⟨value, expiresAt⟩ = false := by
  cases hview : view clock database key with
  | none =>
    rw [hview] at h
    cases h
    rfl
  | some entry =>
    obtain ⟨-, hlive⟩ := Option.filter_eq_some_iff.mp hview
    rw [hview] at h
    match entry, h with
    | ⟨.list _, _⟩, rfl => simpa [Entry.expired] using hlive

/-! ## Pushing -/

section Push

variable {host : Host} {key : Bytes} {mode : ListAddMode}

theorem length_extend (values elements : List Bytes) :
    (OnEntry.extend mode values elements).length = elements.length + values.length := by
  cases mode with
  | append => simp [OnEntry.extend]
  | prepend => simp [OnEntry.extend, Nat.add_comm]

theorem extend_cons (value : Bytes) (values elements : List Bytes) :
    OnEntry.extend mode (value :: values) elements =
      OnEntry.extend mode values (OnEntry.extend mode [value] elements) := by
  cases mode <;> simp [OnEntry.extend]

/-- The database after the list at the key has become this one. -/
structure Shelved (key : Bytes) (entry : Option Entry) (before after : Database) : Prop where
  here : after.entries.lookup key = entry
  elsewhere : ∀ other ≠ key, after.entries.lookup other = before.entries.lookup other

theorem Shelved.trans {entry entry' : Option Entry} {before middle : Database}
    (h₁ : Shelved key entry before middle) (h₂ : Shelved key entry' middle after) :
    Shelved key entry' before after :=
  ⟨h₂.here, fun other hne => (h₂.elsewhere other hne).trans (h₁.elsewhere other hne)⟩

theorem Shelved.lookup_eq {entry : Option Entry} {before after' : Database}
    (h : Shelved key entry before after) (h' : Shelved key entry before after') :
    after.entries.lookup = after'.entries.lookup := by
  funext other
  by_cases hother : other = key
  · subst hother
    exact h.here.trans h'.here.symm
  · exact (h.elsewhere other hother).trans (h'.elsewhere other hother).symm

theorem shelved_transact {Result : Type} (clock : Clock) (database : Database)
    (operation : Option Entry → Result × Update Entry) :
    Shelved key ((operation (view clock database key)).2.outcome (view clock database key))
      database (transact (Entry.expired clock) key operation database).2 where
  here := by
    rw [lookup_transact, if_pos rfl]
    rfl
  elsewhere other hne := by rw [lookup_transact, if_neg hne]

/-- A push, of one value or of many, onto what is a list. -/
theorem push_stored
    (hstored : stored (view clock database key) = some (elements, expiresAt)) (value : Bytes)
    (values : List Bytes) :
    ∃ after, dispatch host clock database (pushCommand mode key (value :: values)) =
        some (.integer (elements.length + (value :: values).length : ℕ), after) ∧
      Shelved key (some ⟨.list (OnEntry.extend mode (value :: values) elements), expiresAt⟩)
        database after := by
  have hadd := addListElements_of_stored hstored (value :: values) mode
  have hshelved := @shelved_transact key _ clock database
    (OnEntry.addListElements (value :: values) mode)
  rw [hadd] at hshelved
  refine ⟨_, ?_, hshelved⟩
  rw [dispatch_push, hadd, length_extend]
  rfl

/-- A push onto something else changes nothing. -/
theorem push_refused (hstored : stored (view clock database key) = none) (value : Bytes)
    (values : List Bytes) :
    dispatch host clock database (pushCommand mode key (value :: values)) =
      some (wrongTypeError, database) := by
  obtain ⟨entry, hview, hrefuses⟩ := stored_eq_none hstored
  have hkeep := transact_keep hview (congrArg Prod.snd (hrefuses (value :: values) mode))
  rw [dispatch_push, hview, hrefuses, hkeep]
  rfl

/-- The single pushes of these values, each at its own time. -/
def pushes (mode : ListAddMode) (key : Bytes) (values : List (Clock × Bytes)) :
    List (Clock × Command) :=
  values.map fun (clock, value) => (clock, pushCommand mode key [value])

/-- Single pushes onto a list that lives as long as they take. -/
theorem pushes_stored (hne : values ≠ [])
    (hstored : ∀ item ∈ values, stored (view item.1 database key) = some (elements, expiresAt)) :
    ∃ after, dispatchAll host (pushes mode key values) database =
        some ((List.range values.length).map fun i => .integer (elements.length + i + 1 : ℕ),
          after) ∧
      Shelved key
        (some ⟨.list (OnEntry.extend mode (values.map Prod.snd) elements), expiresAt⟩)
        database after := by
  induction values generalizing database elements with
  | nil => exact absurd rfl hne
  | cons item rest ih =>
    obtain ⟨clock, value⟩ := item
    obtain ⟨middle, hpush, hmiddle⟩ := @push_stored _ _ _ _ host key mode
      (hstored (clock, value) (by simp)) value []
    cases rest with
    | nil => exact ⟨middle, dispatchAll_cons hpush rfl, hmiddle⟩
    | cons next rest =>
      -- the longer list has the same deadline, which the later pushes do not reach
      have hstored' : ∀ item ∈ next :: rest, stored (view item.1 middle key) =
          some (OnEntry.extend mode [value] elements, expiresAt) := by
        intro item hitem
        have hlive := not_expired_of_stored
          (hstored item (List.mem_cons_of_mem _ hitem))
          (.list (OnEntry.extend mode [value] elements))
        have hview : view item.1 middle key =
            some ⟨.list (OnEntry.extend mode [value] elements), expiresAt⟩ := by
          simp [view, live, hmiddle.here, Option.filter, hlive]
        rw [hview]
        rfl
      obtain ⟨after, hall, hafter⟩ := ih (List.cons_ne_nil _ _) hstored'
      refine ⟨after, ?_, ?_⟩
      · have hcons := dispatchAll_cons hpush hall
        rw [length_extend] at hcons
        refine hcons.trans (congrArg some (Prod.ext ?_ rfl))
        rw [@List.length_cons _ _ (next :: rest), List.range_succ_eq_map, List.map_cons,
          List.map_map]
        refine congrArg₂ List.cons (by simp) (List.map_congr_left fun i _ => ?_)
        simp only [Function.comp_apply, List.length_cons, List.length_nil]
        congr 2
        omega
      · rw [List.map_cons, extend_cons]
        exact hmiddle.trans hafter

theorem pushes_refused (hstored : ∀ item ∈ values, stored (view item.1 database key) = none) :
    dispatchAll host (pushes mode key values) database =
      some (List.replicate values.length wrongTypeError, database) := by
  induction values with
  | nil => rfl
  | cons item rest ih =>
    exact dispatchAll_cons (push_refused (hstored item (by simp)) _ _)
      (ih fun item hitem => hstored item (List.mem_cons_of_mem _ hitem))

end Push

/-! ## Popping -/

section Pop

variable {host : Host} {key : Bytes}

/-- A list as it is kept: an empty one is not. -/
def shelf (expiresAt : Option Int) (elements : List Bytes) : Option Entry :=
  if elements = [] then none else some ⟨.list elements, expiresAt⟩

theorem outcome_remaining (expiresAt : Option Int) (elements : List Bytes)
    (current : Option Entry) :
    (OnEntry.remaining expiresAt elements).outcome current = shelf expiresAt elements := by
  unfold OnEntry.remaining shelf
  split <;> rfl

theorem pop_list {front : Bytes}
    (hview : view clock database key = some ⟨.list (front :: elements), expiresAt⟩) :
    ∃ after, dispatch host clock database (popCommand key) = some (.bulkString front, after) ∧
      Shelved key (shelf expiresAt elements) database after := by
  have hshelved := @shelved_transact key _ clock database OnEntry.popListElement
  rw [hview] at hshelved
  simp only [OnEntry.popListElement, outcome_remaining] at hshelved
  refine ⟨_, ?_, hshelved⟩
  rw [dispatch_pop, hview]
  rfl

theorem popMany_list (hcount : parseNumberOfElements number = some count)
    (hview : view clock database key = some ⟨.list elements, expiresAt⟩) (hne : elements ≠ []) :
    ∃ after, dispatch host clock database (popCommand key ++ [number]) =
        some (.array (elements.take count.toNat), after) ∧
      Shelved key (shelf expiresAt (elements.drop count.toNat)) database after := by
  have hpositive : ¬ count ≤ 0 := by
    have := (Option.filter_eq_some_iff.mp hcount).2
    simpa using this
  have hpop : OnEntry.popListElements count (view clock database key) =
      (.ok (elements.take count.toNat),
        OnEntry.remaining expiresAt (elements.drop count.toNat)) := by
    obtain ⟨front, rest, rfl⟩ := List.exists_cons_of_ne_nil hne
    rw [hview]
    simp only [OnEntry.popListElements, if_neg hpositive]
  have hshelved := @shelved_transact key _ clock database (OnEntry.popListElements count)
  rw [hpop, outcome_remaining] at hshelved
  refine ⟨_, ?_, hshelved⟩
  rw [dispatch_popMany host clock database key hcount, hpop]
  rfl

/-- Where there is no element, a count makes no difference. -/
theorem popMany_nothing (hcount : parseNumberOfElements number = some count)
    (hnothing : listOf (view clock database key) = []) :
    ∃ response,
      dispatch host clock database (popCommand key ++ [number]) =
        some (response, purge (Entry.expired clock) key database) ∧
      dispatch host clock database (popCommand key) =
        some (response, purge (Entry.expired clock) key database) := by
  have hdecisions : ∃ error, OnEntry.popListElement (view clock database key) =
        (.error error, .keep) ∧
      OnEntry.popListElements count (view clock database key) = (.error error, .keep) := by
    match view clock database key, hnothing with
    | none, _ => exact ⟨_, rfl, rfl⟩
    | some ⟨.list [], _⟩, _ => exact ⟨_, rfl, rfl⟩
    | some ⟨.string _, _⟩, _ => exact ⟨_, rfl, rfl⟩
    | some ⟨.stream _, _⟩, _ => exact ⟨_, rfl, rfl⟩
  obtain ⟨error, hsingle, hmany⟩ := hdecisions
  have hpurge : (transact (Entry.expired clock) key OnEntry.popListElement database).2 =
      purge (Entry.expired clock) key database :=
    transact_eq_purge (congrArg Prod.snd hsingle)
  have hpurge' : (transact (Entry.expired clock) key (OnEntry.popListElements count)
      database).2 = purge (Entry.expired clock) key database :=
    transact_eq_purge (congrArg Prod.snd hmany)
  rw [dispatch_popMany host clock database key hcount, dispatch_pop, hpurge, hpurge', hsingle,
    hmany]
  cases error <;> exact ⟨_, rfl, rfl⟩

/-- Single pops, each at its own time. -/
def pops (key : Bytes) (clocks : List Clock) : List (Clock × Command) :=
  clocks.map fun clock => (clock, popCommand key)

/-- Single pops of a list that lives as long as they take. -/
theorem pops_list {clocks : List Clock}
    (hne : clocks ≠ []) (hlength : clocks.length ≤ elements.length)
    (hview : ∀ clock ∈ clocks, view clock database key = some ⟨.list elements, expiresAt⟩) :
    ∃ after, dispatchAll host (pops key clocks) database =
        some ((elements.take clocks.length).map .bulkString, after) ∧
      Shelved key (shelf expiresAt (elements.drop clocks.length)) database after := by
  induction clocks generalizing database elements with
  | nil => exact absurd rfl hne
  | cons clock clocks ih =>
    cases elements with
    | nil => exact absurd hlength (by simp)
    | cons front elements =>
      obtain ⟨middle, hpop, hmiddle⟩ := @pop_list _ _ _ _ host key _
        (hview clock (by simp))
      cases clocks with
      | nil => exact ⟨middle, dispatchAll_cons hpop rfl, hmiddle⟩
      | cons next rest =>
        simp only [List.length_cons] at hlength
        have hmore : elements ≠ [] := by
          rintro rfl
          simp at hlength
        have hview' : ∀ clock ∈ next :: rest, view clock middle key =
            some ⟨.list elements, expiresAt⟩ := by
          intro clock hclock
          have hstored : stored (view clock database key) =
              some (front :: elements, expiresAt) := by
            rw [hview clock (List.mem_cons_of_mem _ hclock)]
            rfl
          have hlive := not_expired_of_stored hstored (.list elements)
          simp [view, live, hmiddle.here, shelf, hmore, Option.filter, hlive]
        obtain ⟨after, hall, hafter⟩ := ih (List.cons_ne_nil _ _)
          (by simpa using hlength) hview'
        exact ⟨after, dispatchAll_cons hpop hall, hmiddle.trans hafter⟩

end Pop

/-! ## Batches -/

section Batches

variable (host : Host) (clock : Clock) (key : Bytes) (database : Database)

/-- A push of these values at once ends as their single pushes do: with the same entries
and with the same last reply, which is an error when each of the others is. -/
def PushesAgree (mode : ListAddMode) (values : List (Clock × Bytes)) : Prop :=
  ∃ response after responses after',
    dispatch host clock database (pushCommand mode key (values.map Prod.snd)) =
      some (response, after) ∧
    dispatchAll host (pushes mode key values) database = some (responses, after') ∧
    after.entries.lookup = after'.entries.lookup ∧
    responses.getLast? = some response ∧
    ∀ single ∈ responses, responseIsError single = responseIsError response

/-- A pop of this many ends as the single pops do.  Where there is an element, the entries
are the same, the reply has the elements of the single replies and the key is gone just
when none is left; where there is none, nothing live changes and the reply is that of a
pop without a count. -/
def PopsAgree (number : Bytes) (count : Int) (clocks : List Clock) : Prop :=
  ∃ response after responses after',
    dispatch host clock database (popCommand key ++ [number]) = some (response, after) ∧
    dispatchAll host (pops key clocks) database = some (responses, after') ∧
    (listOf (view clock database key) ≠ [] →
      after.entries.lookup = after'.entries.lookup ∧
      (∃ popped, response = .array popped ∧ responses = popped.map .bulkString) ∧
      (after.entries.lookup key = none ↔
        ((listOf (view clock database key)).length : Int) ≤ count)) ∧
    (listOf (view clock database key) = [] →
      (∀ other, view clock after other = view clock database other) ∧ after' = database ∧
      dispatch host clock database (popCommand key) = some (response, after))

variable {host clock key database}

theorem pushesAgree {mode : ListAddMode} (hne : values ≠ [])
    (hsame : ∀ item ∈ values, view item.1 database key = view clock database key) :
    PushesAgree host clock key database mode values := by
  obtain ⟨⟨first, value⟩, rest, rfl⟩ := List.exists_cons_of_ne_nil hne
  cases hstored : stored (view clock database key) with
  | none =>
    have hall := @pushes_refused database ((first, value) :: rest) host key mode
      fun item hitem => by rw [hsame item hitem, hstored]
    refine ⟨_, _, _, _, push_refused hstored value (rest.map Prod.snd), hall, rfl, ?_, ?_⟩
    · simp [List.getLast?_replicate]
    · intro single hsingle
      rw [List.eq_of_mem_replicate hsingle]
  | some found =>
    obtain ⟨elements, expiresAt⟩ := found
    obtain ⟨after, hpush, hafter⟩ := @push_stored _ _ _ _ host key mode hstored value
      (rest.map Prod.snd)
    obtain ⟨after', hall, hafter'⟩ := @pushes_stored database _ _ _ host key mode hne
      fun item hitem => by rw [hsame item hitem, hstored]
    refine ⟨_, after, _, after', hpush, hall, hafter.lookup_eq hafter', ?_, ?_⟩
    · simp [List.range_succ, Nat.add_assoc]
    · intro single hsingle
      obtain ⟨i, -, rfl⟩ := List.mem_map.mp hsingle
      rfl

theorem popsAgree {clocks : List Clock} (hcount : parseNumberOfElements number = some count)
    (hclocks : clocks.length = min count.toNat (listOf (view clock database key)).length)
    (hsame : ∀ time ∈ clocks, view time database key = view clock database key) :
    PopsAgree host clock key database number count clocks := by
  have hpositive : 0 < count := by
    simpa using (Option.filter_eq_some_iff.mp hcount).2
  by_cases hlist : listOf (view clock database key) = []
  · obtain ⟨response, hmany, hsingle⟩ := @popMany_nothing database clock _ _ host key hcount hlist
    rw [hlist] at hclocks
    obtain rfl : clocks = [] := List.length_eq_zero_iff.mp (by simpa using hclocks)
    exact ⟨response, _, [], database, hmany, rfl, fun h => absurd hlist h,
      fun _ => ⟨fun other => live_purge _ _ _ _, rfl, hsingle⟩⟩
  · obtain ⟨elements, expiresAt, hview, helements⟩ : ∃ elements expiresAt,
        view clock database key = some ⟨.list elements, expiresAt⟩ ∧ elements ≠ [] := by
      match view clock database key, hlist with
      | some ⟨.list elements, expiresAt⟩, hlist => exact ⟨elements, expiresAt, rfl, hlist⟩
      | none, hlist => exact absurd rfl hlist
      | some ⟨.string _, _⟩, hlist => exact absurd rfl hlist
      | some ⟨.stream _, _⟩, hlist => exact absurd rfl hlist
    have hof : listOf (view clock database key) = elements := by
      rw [hview]
      rfl
    rw [hof] at hclocks
    have hlength : 0 < elements.length := List.length_pos_of_ne_nil helements
    obtain ⟨after, hmany, hafter⟩ := @popMany_list _ _ _ _ _ _ host key hcount hview helements
    obtain ⟨after', hall, hafter'⟩ := @pops_list database elements expiresAt host key clocks
      (List.ne_nil_of_length_pos (by omega)) (by omega)
      fun time htime => by rw [hsame time htime, hview]
    -- a count beyond the end takes what there is
    have htake : elements.take clocks.length = elements.take count.toNat := by
      rw [hclocks, ← List.take_take, List.take_length]
    have hdrop : elements.drop clocks.length = elements.drop count.toNat := by
      rw [hclocks]
      rcases Nat.le_total count.toNat elements.length with hle | hle
      · rw [Nat.min_eq_left hle]
      · rw [Nat.min_eq_right hle, List.drop_length, List.drop_eq_nil_of_le hle]
    rw [htake] at hall
    rw [hdrop] at hafter'
    refine ⟨_, after, _, after', hmany, hall, fun _ => ⟨hafter.lookup_eq hafter', ⟨_, rfl, rfl⟩, ?_⟩,
      fun h => absurd h hlist⟩
    rw [hafter.here, hof, shelf]
    simp only [ite_eq_left_iff, reduceCtorEq, imp_false, not_not, List.drop_eq_nil_iff]
    omega

end Batches

/-- **Batches equal repeated single commands**, as long as time alone does not change what
the key shows. -/
theorem batches_agree (host : Host) (clock : Clock) (key : Bytes) (database : Database) :
    (∀ mode (values : List (Clock × Bytes)), values ≠ [] →
      (∀ item ∈ values, view item.1 database key = view clock database key) →
      PushesAgree host clock key database mode values) ∧
    ∀ number count (clocks : List Clock), parseNumberOfElements number = some count →
      clocks.length = min count.toNat (listOf (view clock database key)).length →
      (∀ time ∈ clocks, view time database key = view clock database key) →
      PopsAgree host clock key database number count clocks :=
  ⟨fun _ _ => pushesAgree, fun _ _ _ => popsAgree⟩

/-- Two values pushed onto an absent list, and a pop of five from a list of two. -/
theorem batches_agree_two :
    PushesAgree Host.plain ⟨0, 0⟩ [1] {} .prepend [(⟨0, 0⟩, [7]), (⟨1, 0⟩, [8])] ∧
    PopsAgree Host.plain ⟨0, 0⟩ [1] (KeyedStore.put [1] { value := .list [[7], [8]] } {})
      (ascii "5") 5 [⟨0, 0⟩, ⟨1, 0⟩] :=
  ⟨(batches_agree _ _ _ _).1 _ _ (by decide) (by decide),
    (batches_agree _ _ _ _).2 _ _ _ (by decide) (by decide) (by decide)⟩

end RedisServer.Commands
