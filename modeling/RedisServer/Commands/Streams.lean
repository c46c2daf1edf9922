import RedisServer.Commands.Lists
import RedisServer.Database.Streams

/-!
# What comes into a stream and what a read of it lists

Streams only grow at their end, unless a `SET` overwrites them.  A read of several
streams first fixes every `$` to the last identifier of its stream, and then lists
for each request the entries behind its starting point.  Since only strings expire,
neither depends on the clock.
-/

namespace RedisServer

open Resp KeyedStore Database Commands

/-- The entries of a stream; nothing and the other types have none. -/
def streamOf : Option Entry → List StreamEntry
  | some ⟨.stream entries, _⟩ => entries
  | _ => []

namespace Database

/-- The entries of the stream a key holds. -/
def streamAt (key : Bytes) (database : Database) : List StreamEntry :=
  streamOf (database.entries.lookup key)

/-- A request with its `$` fixed to the last identifier there is. -/
def fixed (database : Database) (request : ReadRequest) : ReadRequest :=
  ReadRequest.resolve request (database.streamAt request.key)

/-- The entries behind the starting point of a request. -/
def newEntries (database : Database) (request : ReadRequest) : List StreamEntry :=
  (database.streamAt request.key).filter fun entry => decide (request.afterId < entry.id)

/-- For each request, in their order, the entries that are new; requests without any
are omitted. -/
def listing (database : Database) (requests : List ReadRequest) : List ReadResult :=
  requests.filterMap fun request =>
    if database.newEntries request = [] then none
    else some ⟨request.key, database.newEntries request⟩

end Database

/-! ## Streams grow at their end -/

section Growth

variable {host : Host} {clock : Clock} {key : Bytes} {command : Command} {response : Response}
  {current : Option Entry} {update : Update Entry} {Allowed : StreamId → Prop}
  {before after : Database}

theorem streamOf_addStream {request : IdRequest} {fields : List (Bytes × Bytes)} {id : StreamId}
    (hadd : OnEntry.addStream clock request fields current = (.ok id, update)) :
    streamOf (update.outcome current) = streamOf current ++ [⟨id, fields⟩] := by
  rcases current with _ | ⟨_ | _ | entries, expiresAt⟩
  case some.stream =>
    simp only [OnEntry.addStream] at hadd
    split at hadd
    all_goals cases hadd
    rfl
  all_goals cases hadd
  rfl

/-- A pop leaves a list or nothing. -/
theorem streamOf_remaining (expiresAt : Option Int) (elements : List Bytes) :
    streamOf ((OnEntry.remaining expiresAt elements).outcome current) = [] := by
  unfold OnEntry.remaining
  split <;> rfl

theorem streamOf_popListElement (current : Option Entry) :
    streamOf ((OnEntry.popListElement current).2.outcome current) = streamOf current := by
  rcases current with _ | ⟨_ | (_ | ⟨front, elements⟩) | entries, expiresAt⟩
  case some.list.cons => exact streamOf_remaining _ _
  all_goals rfl

theorem streamOf_popListElements (count : Int) (current : Option Entry) :
    streamOf ((OnEntry.popListElements count current).2.outcome current) = streamOf current := by
  rcases current with _ | ⟨_ | (_ | ⟨front, elements⟩) | entries, expiresAt⟩
  case some.list.cons =>
    simp only [OnEntry.popListElements]
    split
    · rfl
    · exact streamOf_remaining _ _
  all_goals rfl

theorem streamOf_addListElements (values : List Bytes) (mode : ListAddMode)
    (current : Option Entry) :
    streamOf ((OnEntry.addListElements values mode current).2.outcome current) =
      streamOf current := by
  rcases current with _ | ⟨_ | _ | _, expiresAt⟩ <;> rfl

theorem streamOf_incrementKey (current : Option Entry) :
    streamOf ((OnEntry.incrementKey current).2.outcome current) = streamOf current := by
  rcases current with _ | ⟨text | _ | _, expiresAt⟩
  case some.string =>
    simp only [OnEntry.incrementKey]
    split <;> rfl
  all_goals rfl

/-- A write other than `SET` appends to a stream or leaves it as it is. -/
theorem grows_write (h : Write host clock current command response update)
    (hset : nameOf command ≠ some .set) :
    ∃ added, streamOf (update.outcome current) = streamOf current ++ added := by
  -- An operation on another type leaves nothing new in the stream.
  have hother : ∀ {Result : Type} {result : Result} {outcome : Result × Update Entry},
      streamOf (outcome.2.outcome current) = streamOf current → outcome = (result, update) →
        ∃ added, streamOf (update.outcome current) = streamOf current ++ added := by
    rintro _ _ _ hsame rfl
    exact ⟨[], by rw [hsame, List.append_nil]⟩
  cases h with
  | set hname => exact absurd hname hset
  | setUntil hname _ => exact absurd hname hset
  | incr _ hincrement => exact hother (streamOf_incrementKey current) hincrement
  | push _ hadd => exact hother (streamOf_addListElements _ _ current) hadd
  | lpop _ hpop => exact hother (streamOf_popListElement current) hpop
  | lpopMany _ _ hpop => exact hother (streamOf_popListElements _ current) hpop
  | blpop _ _ hpop => exact hother (streamOf_popListElement current) hpop
  | xadd _ _ _ _ hadd => exact ⟨_, streamOf_addStream hadd⟩

theorem streamOf_view (hinvariant : Invariant Allowed before) (clock : Clock) (key : Bytes) :
    streamOf (view clock before key) = before.streamAt key := by
  rcases hinvariant.view_cases clock key with hsame | ⟨hnone, text, expiresAt, hstring⟩
  · rw [hsame]
    rfl
  · rw [hnone, streamAt, hstring]
    rfl

theorem streamAt_purges (hinvariant : Invariant Allowed before)
    (hpurges : Purges (Entry.expired clock) before after) :
    after.streamAt key = before.streamAt key := by
  rcases hinvariant.purges_cases hpurges key with hsame | ⟨hgone, text, expiresAt, hstring⟩
  · rw [streamAt, hsame]
    rfl
  · rw [streamAt, streamAt, hgone, hstring]
    rfl

/-- The pop of a list leaves every stream as it is. -/
theorem streamAt_popListElement (hinvariant : Invariant Allowed before) (list : Bytes) :
    streamAt key (popListElement clock list before).2 = before.streamAt key := by
  rw [popListElement_eq, streamAt, lookup_transact]
  split
  · rename_i hsame
    subst hsame
    exact (streamOf_popListElement _).trans (streamOf_view hinvariant clock key)
  · rfl

/-- **A command appends to a stream or leaves it**, unless it is a `SET` of the key. -/
theorem grows_change (hinvariant : Invariant Allowed before)
    (hchange : Change host clock command response before after)
    (hset : effective host command response = true → command[1]? = some key →
      nameOf command ≠ some .set) :
    ∃ added, after.streamAt key = before.streamAt key ++ added := by
  cases hchange with
  | looked _ hpurges => exact ⟨[], by rw [streamAt_purges hinvariant hpurges, List.append_nil]⟩
  | wrote target update base heffective htarget hdecided _ hbased =>
    rw [streamAt, lookup_wrote hbased]
    split
    · rename_i hkey
      subst hkey
      rw [← streamOf_view hinvariant clock key]
      exact grows_write (write_cases heffective hdecided) (hset heffective htarget)
    · exact ⟨[], (List.append_nil _).symm⟩

end Growth

/-! ## What a read lists -/

section Reading

variable {Allowed : StreamId → Prop} {clock : Clock} {database before after : Database}
  {requests : List ReadRequest}

theorem startMode_fixed (request : ReadRequest) :
    (database.fixed request).startMode = .afterId :=
  startMode_resolve request _

theorem key_fixed (request : ReadRequest) : (database.fixed request).key = request.key :=
  key_resolve request _

/-- A starting point that is fixed stays where it is. -/
theorem fixed_of_afterId {request : ReadRequest} (hmode : request.startMode = .afterId) :
    database.fixed request = request := by
  rw [Database.fixed, ReadRequest.resolve, hmode]

/-- The first loop fixes every request, if it does not meet a value of another type. -/
theorem resolveRequests_fixed (hinvariant : Invariant Allowed database)
    (hok : (OnEntry.resolveRequests (view clock database) requests).1 = .ok ()) :
    (OnEntry.resolveRequests (view clock database) requests).2 = requests.map database.fixed := by
  induction requests with
  | nil => rfl
  | cons request rest ih =>
    have hstream := streamOf_view hinvariant clock request.key
    unfold OnEntry.resolveRequests at hok ⊢
    rcases hview : view clock database request.key with _ | ⟨_ | _ | entries, expiresAt⟩
    case none | some.stream =>
      simp only [hview] at hok hstream ⊢
      rw [ih hok, List.map_cons, Database.fixed, ← hstream]
      rfl
    all_goals
      rw [hview] at hok
      cases hok

/-- The second loop collects the listing. -/
theorem collectResults_listing (hinvariant : Invariant Allowed database)
    {results : List ReadResult}
    (hok : OnEntry.collectResults (view clock database) requests = .ok results) :
    results = database.listing requests := by
  induction requests generalizing results with
  | nil =>
    cases hok
    rfl
  | cons request rest ih =>
    have hstream := streamOf_view hinvariant clock request.key
    have hnew : database.newEntries request = (streamOf (view clock database request.key)).filter
        fun entry => decide (request.afterId < entry.id) := by rw [hstream]; rfl
    unfold OnEntry.collectResults at hok
    rw [Database.listing, List.filterMap_cons, ← Database.listing]
    rcases hview : view clock database request.key with _ | ⟨_ | _ | entries, expiresAt⟩
    case none =>
      rw [hview] at hok hnew
      have hnothing : database.newEntries request = [] := hnew
      rw [if_pos hnothing]
      exact ih hok
    case some.stream =>
      have hsorted := (hinvariant.sound_view clock request.key _ hview).value.2.1
      rw [hview] at hnew
      have hdrop : entries.drop (upperBound entries request.afterId) =
          database.newEntries request := (drop_upperBound hsorted _).trans hnew.symm
      simp only [hview, hdrop] at hok
      split at hok
      · rename_i hnothing
        rw [if_pos hnothing]
        exact ih hok
      · rename_i hsome
        rw [if_neg hsome]
        cases hcollect : OnEntry.collectResults (view clock database) rest with
        | error error => simp [hcollect, Except.map] at hok
        | ok others =>
          rw [hcollect] at hok
          cases hok
          rw [ih hcollect]
    all_goals
      rw [hview] at hok
      cases hok

/-- **A read that succeeds fixes the requests and returns their listing**, and leaves
the streams as they are. -/
theorem readStreams_listing (hinvariant : Invariant Allowed before) {results : List ReadResult}
    {requests' : List ReadRequest}
    (hread : Database.readStreams clock requests before = (.ok results, requests', after)) :
    requests' = requests.map before.fixed ∧ results = before.listing requests' ∧
      Purges (Entry.expired clock) before after := by
  obtain ⟨looked, hspec, hpurges, -⟩ := readStreams_spec clock requests before
  rw [hread] at hspec
  obtain ⟨hresult, hrest⟩ := Prod.mk.inj hspec
  obtain ⟨hrequests, rfl⟩ := Prod.mk.inj hrest
  have hfixed := @resolveRequests_fixed Allowed clock before requests hinvariant
  unfold OnEntry.readStreams at hresult hrequests
  generalize OnEntry.resolveRequests (view clock before) requests = resolution
    at hresult hrequests hfixed
  obtain ⟨outcome, resolved⟩ := resolution
  cases outcome with
  | error error => cases hresult
  | ok _ =>
    cases hrequests
    exact ⟨hfixed rfl, collectResults_listing hinvariant hresult.symm, hpurges⟩

/-- Streams that are the same give the same listing. -/
theorem listing_congr (hsame : ∀ key, after.streamAt key = before.streamAt key) :
    after.listing requests = before.listing requests := by
  have hnew : after.newEntries = before.newEntries := by
    funext request
    rw [Database.newEntries, hsame]
    rfl
  rw [Database.listing, Database.listing, hnew]

end Reading

end RedisServer
