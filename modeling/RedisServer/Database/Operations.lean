import RedisServer.Database

/-!
# The operations as functions of a live entry

Every operation on one key first finds the entry of that key that has not
expired, and decides everything else from it.  `OnEntry` states each operation
as that decision alone: a result and an update of the key.  The equations below
bring the operations into the shape `KeyedStore.transact`; from then on no proof
unfolds an operation again.

`keys` and `read_streams` look at many keys and change none of them beyond
removing what has expired, which is the relation `KeyedStore.Purges`.
-/

namespace RedisServer.Database

open KeyedStore

/-! ## The decisions -/

namespace OnEntry

def set (clock : Clock) (value : Bytes) (expiry : Option Int) : Update Entry :=
  .put { value := .string value, expiresAt := expiry.map (deadlineAfter clock.steady) }

def get : Option Entry → Except Error Bytes × Update Entry
  | none => (.error .keyNotFound, .keep)
  | some ⟨.string text, _⟩ => (.ok text, .keep)
  | some _ => (.error .wrongType, .keep)

def getType : Option Entry → ValueType × Update Entry
  | none => (.none, .keep)
  | some ⟨.string _, _⟩ => (.string, .keep)
  | some ⟨.list _, _⟩ => (.list, .keep)
  | some ⟨.stream _, _⟩ => (.stream, .keep)

def incrementKey : Option Entry → Except Error Int × Update Entry
  | none => (.ok 1, .put { value := .string (printSigned 1) })
  | some ⟨.string text, expiresAt⟩ =>
    match parseSigned 64 text with
    | none => (.error .valueNotInteger, .keep)
    | some parsed =>
      (.ok (wrap64 (parsed + 1)),
        .put { value := .string (printSigned (wrap64 (parsed + 1))), expiresAt })
  | some _ => (.error .wrongType, .keep)

/-- The list after a push. -/
def extend (mode : ListAddMode) (values elements : List Bytes) : List Bytes :=
  match mode with
  | .append => elements ++ values
  | .prepend => values.reverse ++ elements

def addListElements (values : List Bytes) (mode : ListAddMode) :
    Option Entry → Except Error ℕ × Update Entry
  | none => (.ok (extend mode values []).length, .put { value := .list (extend mode values []) })
  | some ⟨.list elements, expiresAt⟩ =>
    (.ok (extend mode values elements).length,
      .put { value := .list (extend mode values elements), expiresAt })
  | some _ => (.error .wrongType, .keep)

def listElements (start stop : Int) : Option Entry → Except Error (List Bytes) × Update Entry
  | none => (.ok [], .keep)
  | some ⟨.list elements, _⟩ => (.ok (slice elements start stop), .keep)
  | some _ => (.error .wrongType, .keep)

def getListLength : Option Entry → Except Error ℕ × Update Entry
  | none => (.ok 0, .keep)
  | some ⟨.list elements, _⟩ => (.ok elements.length, .keep)
  | some _ => (.error .wrongType, .keep)

/-- The update that leaves the given elements of a list. -/
def remaining (expiresAt : Option Int) (elements : List Bytes) : Update Entry :=
  if elements = [] then .remove else .put { value := .list elements, expiresAt }

def popListElement : Option Entry → Except Error Bytes × Update Entry
  | none => (.error .keyNotFound, .keep)
  | some ⟨.list [], _⟩ => (.error .keyNotFound, .keep)
  | some ⟨.list (front :: elements), expiresAt⟩ => (.ok front, remaining expiresAt elements)
  | some _ => (.error .wrongType, .keep)

def popListElements (numberOfItems : Int) :
    Option Entry → Except Error (List Bytes) × Update Entry
  | none => (.error .keyNotFound, .keep)
  | some ⟨.list [], _⟩ => (.error .keyNotFound, .keep)
  | some ⟨.list elements, expiresAt⟩ =>
    if numberOfItems ≤ 0 then (.ok [], .keep)
    else
      (.ok (elements.take numberOfItems.toNat),
        remaining expiresAt (elements.drop numberOfItems.toNat))
  | some _ => (.error .wrongType, .keep)

def addStream (clock : Clock) (id : IdRequest) (values : List (Bytes × Bytes)) :
    Option Entry → Except Error StreamId × Update Entry
  | none =>
    (.ok (newStreamId clock [] id),
      .put { value := .stream [⟨newStreamId clock [] id, values⟩] })
  | some ⟨.stream entries, expiresAt⟩ =>
    if entries ≠ [] ∧ newStreamId clock entries id ≤ lastId entries then
      (.error .invalidStreamIdValue, .keep)
    else
      (.ok (newStreamId clock entries id),
        .put { value := .stream (entries ++ [⟨newStreamId clock entries id, values⟩]), expiresAt })
  | some _ => (.error .wrongType, .keep)

def streamRange (start stop : StreamId) :
    Option Entry → Option (Except Error (List StreamEntry)) × Update Entry
  | none => (some (.error .keyNotFound), .keep)
  | some ⟨.stream entries, _⟩ =>
    if lowerBound entries start ≤ upperBound entries stop then
      (some (.ok ((entries.drop (lowerBound entries start)).take
        (upperBound entries stop - lowerBound entries start))), .keep)
    else (none, .keep)
  | some _ => (some (.error .wrongType), .keep)

/-! Reading several streams against a view of the live entries. -/

def resolveRequests (view : Bytes → Option Entry) :
    List ReadRequest → Except Error Unit × List ReadRequest
  | [] => (.ok (), [])
  | request :: rest =>
    match view request.key with
    | none =>
      ((resolveRequests view rest).1,
        ReadRequest.resolve request [] :: (resolveRequests view rest).2)
    | some ⟨.stream entries, _⟩ =>
      ((resolveRequests view rest).1,
        ReadRequest.resolve request entries :: (resolveRequests view rest).2)
    | some _ => (.error .wrongType, request :: rest)

def collectResults (view : Bytes → Option Entry) :
    List ReadRequest → Except Error (List ReadResult)
  | [] => .ok []
  | request :: rest =>
    match view request.key with
    | none => collectResults view rest
    | some ⟨.stream entries, _⟩ =>
      let newer := entries.drop (upperBound entries request.afterId)
      if newer = [] then collectResults view rest
      else (collectResults view rest).map (⟨request.key, newer⟩ :: ·)
    | some _ => .error .wrongType

def readStreams (view : Bytes → Option Entry) (requests : List ReadRequest) :
    Except Error (List ReadResult) × List ReadRequest :=
  match resolveRequests view requests with
  | (.error error, requests) => (.error error, requests)
  | (.ok (), requests) => (collectResults view requests, requests)

end OnEntry

/-! ## The operations are those decisions -/

section Equations

variable (clock : Clock) (key : Bytes) (database : Database)

theorem get_eq :
    get clock key database = transact (Entry.expired clock) key OnEntry.get database := by
  unfold get findActiveEntry transact
  rw [findActive_eq]
  rcases live (Entry.expired clock) key database with _ | ⟨_ | _ | _, expiresAt⟩ <;> rfl

theorem getType_eq :
    getType clock key database = transact (Entry.expired clock) key OnEntry.getType database := by
  unfold getType findActiveEntry transact
  rw [findActive_eq]
  rcases live (Entry.expired clock) key database with _ | ⟨_ | _ | _, expiresAt⟩ <;> rfl

theorem incrementKey_eq :
    incrementKey clock key database =
      transact (Entry.expired clock) key OnEntry.incrementKey database := by
  unfold incrementKey findActiveEntry transact
  rw [findActive_eq]
  rcases live (Entry.expired clock) key database with _ | ⟨text | _ | _, expiresAt⟩
  · rfl
  · cases hparse : parseSigned 64 text <;> simp [OnEntry.incrementKey, hparse, Update.apply]
  · rfl
  · rfl

/-- Inserting a placeholder before the value changes nothing. -/
private theorem put_insert (placeholder entry : Entry) :
    put key entry { database with entries := database.entries.insert key placeholder } =
      put key entry database := by
  simp only [put, AList.insert_insert]

theorem addListElements_eq (values : List Bytes) (mode : ListAddMode) :
    addListElements clock key values mode database =
      transact (Entry.expired clock) key (OnEntry.addListElements values mode) database := by
  unfold addListElements findActiveEntry transact
  rw [findActive_eq]
  rcases live (Entry.expired clock) key database with _ | ⟨_ | _ | _, expiresAt⟩
  · cases mode <;> simp [OnEntry.addListElements, OnEntry.extend, Update.apply, put_insert]
  · rfl
  · cases mode <;> rfl
  · rfl

theorem listElements_eq (start stop : Int) :
    listElements clock key start stop database =
      transact (Entry.expired clock) key (OnEntry.listElements start stop) database := by
  unfold listElements findActiveEntry transact
  rw [findActive_eq]
  rcases live (Entry.expired clock) key database with _ | ⟨_ | _ | _, expiresAt⟩ <;> rfl

theorem getListLength_eq :
    getListLength clock key database =
      transact (Entry.expired clock) key OnEntry.getListLength database := by
  unfold getListLength findActiveEntry transact
  rw [findActive_eq]
  rcases live (Entry.expired clock) key database with _ | ⟨_ | _ | _, expiresAt⟩ <;> rfl

private theorem storeRemaining_eq (value : Value) (expiresAt : Option Int)
    (elements : List Bytes) :
    storeRemaining key ⟨value, expiresAt⟩ elements database =
      (OnEntry.remaining expiresAt elements).apply key database := by
  unfold storeRemaining OnEntry.remaining
  split <;> rfl

theorem popListElement_eq :
    popListElement clock key database =
      transact (Entry.expired clock) key OnEntry.popListElement database := by
  unfold popListElement findActiveEntry transact
  rw [findActive_eq]
  rcases live (Entry.expired clock) key database with _ | ⟨_ | elements | _, expiresAt⟩
  · rfl
  · rfl
  · cases elements with
    | nil => rfl
    | cons front elements => simp [OnEntry.popListElement, storeRemaining_eq]
  · rfl

theorem popListElements_eq (numberOfItems : Int) :
    popListElements clock key numberOfItems database =
      transact (Entry.expired clock) key (OnEntry.popListElements numberOfItems) database := by
  unfold popListElements findActiveEntry transact
  rw [findActive_eq]
  rcases live (Entry.expired clock) key database with _ | ⟨_ | elements | _, expiresAt⟩
  · rfl
  · rfl
  · cases elements with
    | nil => rfl
    | cons front elements =>
      simp only [OnEntry.popListElements, storeRemaining_eq]
      split
      · rfl
      · rw [← List.take_eq_take_min, ← List.drop_eq_drop_min]
  · rfl

theorem addStream_eq (id : IdRequest) (values : List (Bytes × Bytes)) :
    addStream clock key id values database =
      transact (Entry.expired clock) key (OnEntry.addStream clock id values) database := by
  unfold addStream findActiveEntry transact
  rw [findActive_eq]
  rcases live (Entry.expired clock) key database with _ | ⟨_ | _ | entries, expiresAt⟩
  · simp [OnEntry.addStream, Update.apply, put_insert]
  · rfl
  · rfl
  · simp only [OnEntry.addStream]
    split <;> rfl

theorem streamRange_eq (start stop : StreamId) :
    streamRange clock key start stop database =
      transact (Entry.expired clock) key (OnEntry.streamRange start stop) database := by
  unfold streamRange findActiveEntry transact
  rw [findActive_eq]
  rcases live (Entry.expired clock) key database with _ | ⟨_ | _ | entries, expiresAt⟩
  · rfl
  · rfl
  · rfl
  · simp only [OnEntry.streamRange]
    split <;> rfl

end Equations

/-! ## Looking at many keys -/

/-- What the database shows at a moment. -/
def view (clock : Clock) (database : Database) (key : Bytes) : Option Entry :=
  live (Entry.expired clock) key database

/-- The loop of `keys`, started on entries of the map that it has not passed yet. -/
private theorem keysFrom_spec (clock : Clock) (rest : List ((_ : Bytes) × Entry))
    (database : Database) (hnodup : (rest.map Sigma.fst).Nodup)
    (hpresent : ∀ item ∈ rest, database.entries.lookup item.1 = some item.2) :
    keysFrom clock rest database =
      ((rest.filter fun item => !item.2.expired clock).map Sigma.fst,
        purgeAll (Entry.expired clock) (rest.map Sigma.fst) database) := by
  induction rest generalizing database with
  | nil => rfl
  | cons item rest ih =>
    obtain ⟨key, entry⟩ := item
    obtain ⟨hfresh, hnodup⟩ := List.nodup_cons.mp hnodup
    have hkey : database.entries.lookup key = some entry := hpresent ⟨key, entry⟩ (by simp)
    unfold keysFrom
    cases hexpired : entry.expired clock with
    | true =>
      have hpurge : purge (Entry.expired clock) key database = database.remove key :=
        purge_of_stale ⟨entry, hkey, hexpired⟩
      have hremoved : ∀ item ∈ rest,
          (database.remove key).entries.lookup item.1 = some item.2 := by
        intro item hitem
        have hne : item.1 ≠ key := by
          intro heq
          exact hfresh (List.mem_map.mpr ⟨item, hitem, heq⟩)
        rw [lookup_remove, if_neg hne]
        exact hpresent item (by simp [hitem])
      have hrest := ih (database.remove key) hnodup hremoved
      simp [hexpired, hrest, purgeAll, hpurge]
    | false =>
      have hpurge : purge (Entry.expired clock) key database = database := by
        refine purge_of_not_stale ?_
        rintro ⟨value, hlookup, hdead⟩
        obtain rfl := Option.some.inj (hkey.symm.trans hlookup)
        rw [hexpired] at hdead
        cases hdead
      have hrest := ih database hnodup fun item hitem => hpresent item (by simp [hitem])
      simp [hexpired, hrest, purgeAll, hpurge]

private theorem findActiveEntry_eq (clock : Clock) (key : Bytes) (database : Database) :
    findActiveEntry clock key database =
      (view clock database key, purge (Entry.expired clock) key database) :=
  findActive_eq

private theorem view_purge (clock : Clock) (key : Bytes) (database : Database) :
    view clock (purge (Entry.expired clock) key database) = view clock database :=
  funext fun other => live_purge (Entry.expired clock) key other database

theorem keys_spec (clock : Clock) (database : Database) :
    (keys clock database).1.Nodup ∧
      (∀ key, key ∈ (keys clock database).1 ↔ (view clock database key).isSome) ∧
      Purges (Entry.expired clock) database (keys clock database).2 := by
  have hnodup : (database.entries.entries.map Sigma.fst).Nodup := database.entries.nodupKeys
  have hlookup : ∀ item ∈ database.entries.entries,
      database.entries.lookup item.1 = some item.2 := fun item hitem =>
    AList.mem_lookup_iff.mpr hitem
  -- `keys` lists the live keys in the order of the map and looks at all of them.
  rw [keys, keysFrom_spec clock _ database database.entries.nodupKeys fun _ hitem =>
    AList.mem_lookup_iff.mpr hitem]
  refine ⟨hnodup.sublist (List.filter_sublist.map Sigma.fst), ?_, purges_purgeAll _ _ _⟩
  · intro key
    unfold view live
    simp only [List.mem_map, List.mem_filter, Option.isSome_filter, Sigma.exists,
      exists_and_right, exists_eq_right]
    constructor
    · rintro ⟨entry, hmem, hlive⟩
      simp [hlookup ⟨key, entry⟩ hmem, Option.any, hlive]
    · intro hany
      cases hentry : database.entries.lookup key with
      | none => simp [hentry] at hany
      | some entry =>
        exact ⟨entry, AList.mem_lookup_iff.mp hentry, by simpa [hentry] using hany⟩

private theorem resolveRequests_spec (clock : Clock) (requests : List ReadRequest)
    (database : Database) :
    ∃ after, resolveRequests clock requests database =
        ((OnEntry.resolveRequests (view clock database) requests).1,
          (OnEntry.resolveRequests (view clock database) requests).2, after) ∧
      Purges (Entry.expired clock) database after ∧
      ((OnEntry.resolveRequests (view clock database) requests).1 = .ok () →
        ∀ request ∈ requests, after.entries.lookup request.key = view clock database request.key) := by
  induction requests generalizing database with
  | nil => exact ⟨database, rfl, .refl _, by simp⟩
  | cons request rest ih =>
    have hlook := purges_purge (Entry.expired clock) request.key database
    obtain ⟨after, heq, hpurges, hlooked⟩ := ih (purge (Entry.expired clock) request.key database)
    rw [view_purge] at heq hlooked
    -- The key of this request was looked at first, and stays as it was found.
    have hfirst : after.entries.lookup request.key = view clock database request.key := by
      have hlive := live_purge (Entry.expired clock) request.key request.key database
      rw [hpurges.lookup_eq_live (by rw [hlive]; exact lookup_purge_self _ _ _), hlive]
      rfl
    have hall : (OnEntry.resolveRequests (view clock database) rest).1 = .ok () →
        ∀ asked ∈ request :: rest,
          after.entries.lookup asked.key = view clock database asked.key := by
      intro hok asked hasked
      rcases List.mem_cons.mp hasked with rfl | hasked
      · exact hfirst
      · exact hlooked hok asked hasked
    clear hfirst
    unfold resolveRequests OnEntry.resolveRequests
    rw [findActiveEntry_eq]
    rcases view clock database request.key with _ | ⟨_ | _ | entries, expiresAt⟩
    · exact ⟨after, by simp [heq], hlook.trans hpurges, hall⟩
    · exact ⟨_, rfl, hlook, by simp⟩
    · exact ⟨_, rfl, hlook, by simp⟩
    · exact ⟨after, by simp [heq], hlook.trans hpurges, hall⟩

private theorem collectResults_spec (clock : Clock) (requests : List ReadRequest)
    (database : Database) :
    ∃ after, collectResults clock requests database =
        (OnEntry.collectResults (view clock database) requests, after) ∧
      Purges (Entry.expired clock) database after := by
  induction requests generalizing database with
  | nil => exact ⟨database, rfl, .refl _⟩
  | cons request rest ih =>
    have hlook := purges_purge (Entry.expired clock) request.key database
    obtain ⟨after, heq, hpurges⟩ := ih (purge (Entry.expired clock) request.key database)
    rw [view_purge] at heq
    unfold collectResults OnEntry.collectResults
    rw [findActiveEntry_eq]
    rcases view clock database request.key with _ | ⟨_ | _ | entries, expiresAt⟩
    · exact ⟨after, by simp [heq], hlook.trans hpurges⟩
    · exact ⟨_, rfl, hlook⟩
    · exact ⟨_, rfl, hlook⟩
    · refine ⟨after, ?_, hlook.trans hpurges⟩
      simp only [heq]
      split <;> rfl

/-- `read_streams` reads the live view and at most removes what has expired; if
it succeeds, it has looked at every key. -/
theorem readStreams_spec (clock : Clock) (requests : List ReadRequest) (database : Database) :
    ∃ after, readStreams clock requests database =
        ((OnEntry.readStreams (view clock database) requests).1,
          (OnEntry.readStreams (view clock database) requests).2, after) ∧
      Purges (Entry.expired clock) database after ∧
      ∀ results, (OnEntry.readStreams (view clock database) requests).1 = .ok results →
        ∀ request ∈ requests,
          after.entries.lookup request.key = view clock database request.key := by
  obtain ⟨resolved, hresolve, hpurges, hlooked⟩ := resolveRequests_spec clock requests database
  unfold readStreams OnEntry.readStreams
  rw [hresolve]
  generalize OnEntry.resolveRequests (view clock database) requests = outcome at hlooked ⊢
  obtain ⟨result, updated⟩ := outcome
  cases result with
  | error error => exact ⟨resolved, rfl, hpurges, by simp⟩
  | ok _ =>
    obtain ⟨after, hcollect, hpurges'⟩ := collectResults_spec clock updated resolved
    have hview : view clock resolved = view clock database := funext hpurges.live_eq
    refine ⟨after, by simp [hcollect, hview], hpurges.trans hpurges', ?_⟩
    intro results _ request hrequest
    have hlive := hpurges.live_eq request.key
    have hsame := hlooked rfl request hrequest
    have hkept := hpurges'.lookup_eq_live (hsame.trans hlive.symm)
    exact hkept.trans hlive

end RedisServer.Database
