import RedisServer.Database.Representation

/-!
# What comes into a list and what leaves it

A push adds the values its command names, and a pop takes away the values its
reply hands out.  Every other command except `SET` leaves the elements of every
list as they are.  Both can be read off a command and its reply, so the elements
of a list are accounted for without a look at the database.
-/

namespace RedisServer

open Resp KeyedStore Database Commands

/-- The elements of an entry, if it is a list. -/
def elementsOf : Option Entry → List Bytes
  | some ⟨.list elements, _⟩ => elements
  | _ => []

/-- The elements of the list a key holds. -/
def Database.elementsAt (key : Bytes) (database : Database) : List Bytes :=
  elementsOf (database.entries.lookup key)

/-- The values a command pushed to a key, given its reply. -/
def pushedTo (key : Bytes) (command : Command) (response : Response) : List Bytes :=
  if command[1]? = some key then
    match nameOf command, response with
    | some .rpush, .integer _ | some .lpush, .integer _ => command.drop 2
    | _, _ => []
  else []

/-- The values of a key that the reply to a command hands out. -/
def takenFrom (key : Bytes) (command : Command) (response : Response) : List Bytes :=
  if command[1]? = some key then
    match nameOf command, response with
    | some .lpop, .bulkString value => [value]
    | some .lpop, .array values => values
    | some .blpop, .array [_, value] => [value]
    | _, _ => []
  else []

section Names

variable {host : Host} {key : Bytes} {command : Command} {response : Response}

/-- A reply that hands out something carries data. -/
theorem takenFrom_of_bare (hbare : response.bare = true) :
    takenFrom key command response = [] := by
  unfold takenFrom
  split
  · split <;> first | rfl | cases hbare
  · rfl

/-- Only a pop hands out something. -/
theorem takenFrom_of_name (hlpop : nameOf command ≠ some .lpop)
    (hblpop : nameOf command ≠ some .blpop) : takenFrom key command response = [] := by
  unfold takenFrom
  split
  · rcases hname : nameOf command with _ | name
    · rfl
    · cases name <;> first | rfl | exact absurd hname hlpop | exact absurd hname hblpop
  · rfl

theorem takenFrom_of_read (hread : isWriteCommand host command = false) :
    takenFrom key command response = [] := by
  refine takenFrom_of_name (fun hname => ?_) (fun hname => ?_)
  all_goals
    rw [isWriteCommand_of_name hname] at hread
    cases hread

/-- A push that failed pushed nothing. -/
theorem pushedTo_of_ineffective (hineffective : effective host command response = false) :
    pushedTo key command response = [] := by
  unfold pushedTo
  split
  · split
    · rename_i hname
      rw [effective_of_write hname rfl (by decide) (by decide)] at hineffective
      cases hineffective
    · rename_i hname
      rw [effective_of_write hname rfl (by decide) (by decide)] at hineffective
      cases hineffective
    · rfl
  · rfl

/-- A pop without effect hands out nothing. -/
theorem takenFrom_of_ineffective (hineffective : effective host command response = false) :
    takenFrom key command response = [] := by
  have hineffective' : ¬ effective host command response = true := by simp [hineffective]
  unfold takenFrom
  split
  · split
    · rename_i hname
      rw [effective_lpop hname] at hineffective'
      simp [responseIsError] at hineffective'
    · rename_i values hname
      rw [effective_lpop hname] at hineffective'
      simpa [responseIsError] using hineffective'
    · rename_i hname
      rw [effective_blpop hname] at hineffective'
      simp at hineffective'
    · rfl
  · rfl

theorem pushedTo_of_target (htarget : command[1]? ≠ some key) :
    pushedTo key command response = [] :=
  if_neg htarget

theorem takenFrom_of_target (htarget : command[1]? ≠ some key) :
    takenFrom key command response = [] :=
  if_neg htarget

end Names

/-! ## What a command decides -/

/-- The elements before an operation and those it adds are the elements it hands
out and those after it. -/
def Balanced (pushed taken : List Bytes) (current after : Option Entry) : Prop :=
  (elementsOf current : Multiset Bytes) + pushed = taken + elementsOf after

section Decisions

variable {host : Host} {clock : Clock} {key : Bytes} {command : Command} {response : Response}
  {current : Option Entry} {update : Update Entry}

theorem elementsOf_remaining (expiresAt : Option Int) (elements : List Bytes) :
    elementsOf ((OnEntry.remaining expiresAt elements).outcome current) = elements := by
  unfold OnEntry.remaining
  split
  · rename_i hempty
    simp [Update.outcome, elementsOf, hempty]
  · rfl

/-- A push adds its values at one of the two ends. -/
theorem extend_coe (mode : ListAddMode) (values elements : List Bytes) :
    (OnEntry.extend mode values elements : Multiset Bytes) = elements + values := by
  cases mode with
  | append => exact (Multiset.coe_add elements values).symm
  | prepend =>
    calc (↑(values.reverse ++ elements) : Multiset Bytes)
        = values.reverse + elements := (Multiset.coe_add _ _).symm
      _ = values + elements := by rw [Multiset.coe_reverse]
      _ = elements + values := add_comm _ _

theorem balanced_push {mode : ListAddMode} {values : List Bytes} {size : ℕ}
    (hadd : OnEntry.addListElements values mode current = (.ok size, update)) :
    Balanced values [] current (update.outcome current) := by
  rcases current with _ | ⟨_ | elements | _, expiresAt⟩
  all_goals cases hadd
  all_goals simp [Balanced, Update.outcome, elementsOf, extend_coe]

theorem balanced_pop {value : Bytes}
    (hpop : OnEntry.popListElement current = (.ok value, update)) :
    Balanced [] [value] current (update.outcome current) := by
  rcases current with _ | ⟨_ | (_ | ⟨front, elements⟩) | _, expiresAt⟩
  all_goals cases hpop
  rw [Balanced, elementsOf_remaining]
  simp [elementsOf]

theorem balanced_popMany {count : Int} {values : List Bytes}
    (hpop : OnEntry.popListElements count current = (.ok values, update)) :
    Balanced [] values current (update.outcome current) := by
  rcases current with _ | ⟨_ | (_ | ⟨front, elements⟩) | _, expiresAt⟩
  case some.list.cons =>
    simp only [OnEntry.popListElements] at hpop
    split at hpop
    · cases hpop
      simp [Balanced, Update.outcome]
    · cases hpop
      rw [Balanced, elementsOf_remaining, Multiset.coe_add, Multiset.coe_add,
        List.take_append_drop, List.append_nil]
      rfl
  all_goals cases hpop

/-- An increment makes or keeps a string. -/
theorem balanced_incr {number : Int}
    (hincrement : OnEntry.incrementKey current = (.ok number, update)) :
    Balanced [] [] current (update.outcome current) := by
  rcases current with _ | ⟨text | _ | _, expiresAt⟩
  case some.string =>
    simp only [OnEntry.incrementKey] at hincrement
    split at hincrement
    all_goals cases hincrement
    rfl
  all_goals cases hincrement
  rfl

/-- A new entry makes or keeps a stream. -/
theorem balanced_xadd {request : IdRequest} {fields : List (Bytes × Bytes)} {id : StreamId}
    (hadd : OnEntry.addStream clock request fields current = (.ok id, update)) :
    Balanced [] [] current (update.outcome current) := by
  rcases current with _ | ⟨_ | _ | entries, expiresAt⟩
  case some.stream =>
    simp only [OnEntry.addStream] at hadd
    split at hadd
    all_goals cases hadd
    rfl
  all_goals cases hadd
  rfl

/-- **The books of one write.** -/
theorem balanced_write (h : Write host clock current command response update)
    (hset : nameOf command ≠ some .set) (htarget : command[1]? = some key) :
    Balanced (pushedTo key command response) (takenFrom key command response) current
      (update.outcome current) := by
  unfold pushedTo takenFrom
  rw [if_pos htarget, if_pos htarget]
  cases h with
  | set hname => exact absurd hname hset
  | setUntil hname _ => exact absurd hname hset
  | incr hname hincrement =>
    rw [hname]
    exact balanced_incr hincrement
  | @push _ _ _ _ mode _ _ hname hadd =>
    rw [hname]
    cases mode <;> exact balanced_push hadd
  | lpop hname hpop =>
    rw [hname]
    exact balanced_pop hpop
  | lpopMany hname _ hpop =>
    rw [hname]
    exact balanced_popMany hpop
  | blpop hname _ hpop =>
    rw [hname]
    exact balanced_pop hpop
  | xadd hname _ _ _ hadd =>
    rw [hname]
    exact balanced_xadd hadd

end Decisions

/-! ## What a command changes -/

section Changes

variable {host : Host} {clock : Clock} {key : Bytes} {command : Command} {response : Response}
  {Allowed : StreamId → Prop} {before after : Database}

/-- Only strings expire, so what has expired had no elements. -/
theorem elementsOf_view (hinvariant : Invariant Allowed before) (clock : Clock) (key : Bytes) :
    elementsOf (view clock before key) = before.elementsAt key := by
  rcases hinvariant.view_cases clock key with hsame | ⟨hnone, text, expiresAt, hstring⟩
  · rw [hsame]
    rfl
  · rw [hnone, elementsAt, hstring]
    rfl

theorem elementsAt_purges (hinvariant : Invariant Allowed before)
    (hpurges : Purges (Entry.expired clock) before after) :
    after.elementsAt key = before.elementsAt key := by
  rcases hinvariant.purges_cases hpurges key with hsame | ⟨hgone, text, expiresAt, hstring⟩
  · rw [elementsAt, hsame]
    rfl
  · rw [elementsAt, elementsAt, hgone, hstring]
    rfl

/-- Nothing is taken from a key that is not there. -/
theorem takenFrom_of_absent (hchange : Change host clock command response before after)
    (habsent : before.entries.lookup key = none) : takenFrom key command response = [] := by
  cases hchange with
  | looked hineffective _ => exact takenFrom_of_ineffective hineffective
  | wrote target update base heffective htarget hdecided _ _ =>
    by_cases hkey : key = target
    · subst hkey
      have hview : view clock before key = none := by
        rw [view, live, habsent]
        rfl
      rw [hview] at hdecided
      -- The pops do not succeed, and the other writes hand out nothing.
      cases write_cases heffective hdecided with
      | lpop _ hpop => cases hpop
      | lpopMany _ _ hpop => cases hpop
      | blpop _ _ hpop => cases hpop
      | @push _ _ _ _ mode _ _ hname _ =>
        refine takenFrom_of_name ?_ ?_ <;> rw [hname] <;> cases mode <;> simp [pushName]
      | set hname => exact takenFrom_of_name (by simp [hname]) (by simp [hname])
      | setUntil hname _ => exact takenFrom_of_name (by simp [hname]) (by simp [hname])
      | incr hname _ => exact takenFrom_of_name (by simp [hname]) (by simp [hname])
      | xadd hname _ _ _ _ => exact takenFrom_of_name (by simp [hname]) (by simp [hname])
    · refine takenFrom_of_target ?_
      rw [htarget]
      exact fun heq => hkey (Option.some.inj heq).symm

/-- **The books of one command**, unless it is a `SET` of the key. -/
theorem balanced_change (hinvariant : Invariant Allowed before)
    (hchange : Change host clock command response before after)
    (hset : effective host command response = true → command[1]? = some key →
      nameOf command ≠ some .set) :
    (before.elementsAt key : Multiset Bytes) + pushedTo key command response =
      takenFrom key command response + after.elementsAt key := by
  cases hchange with
  | looked hineffective hpurges =>
    rw [pushedTo_of_ineffective hineffective, takenFrom_of_ineffective hineffective,
      elementsAt_purges hinvariant hpurges, add_comm]
  | wrote target update base heffective htarget hdecided _ hbased =>
    by_cases hkey : key = target
    · subst hkey
      have hbalanced := balanced_write (write_cases heffective hdecided)
        (hset heffective htarget) htarget
      rw [Balanced, elementsOf_view hinvariant] at hbalanced
      have hafter : Database.elementsAt key (update.apply key base) =
          elementsOf (update.outcome (view clock before key)) := by
        rw [elementsAt, lookup_wrote hbased, if_pos rfl]
      rw [hafter]
      exact hbalanced
    · -- Another key is written.
      have htarget' : command[1]? ≠ some key := by
        rw [htarget]
        exact fun heq => hkey (Option.some.inj heq).symm
      have hafter : Database.elementsAt key (update.apply target base) = before.elementsAt key := by
        rw [elementsAt, lookup_wrote hbased, if_neg hkey]
        rfl
      rw [pushedTo_of_target htarget', takenFrom_of_target htarget', hafter, add_comm]

end Changes

end RedisServer
