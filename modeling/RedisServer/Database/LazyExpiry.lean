import RedisServer.Database.Operations

/-!
# Lazy expiry refines eager expiry

An expired entry physically stays in the map until an operation touches its key.
The reference store is a partial function from keys to entries in which an entry
is gone at the instant its deadline is reached.  A sequence of calls, with clock
readings that never go back, returns the same on both.

The simulation relation is `KeyedStore.Shows`: what the map shows at the moment
of the last call is what the reference store holds.
-/

namespace RedisServer.Database

open KeyedStore

variable {database : Database}

/-! ## Calls and what they return -/

/-- A call of one of the operations. -/
inductive Operation where
  | set (key value : Bytes) (expiry : Option Int)
  | get (key : Bytes)
  | getType (key : Bytes)
  | keys
  | addListElements (key : Bytes) (values : List Bytes) (mode : ListAddMode)
  | listElements (key : Bytes) (start stop : Int)
  | getListLength (key : Bytes)
  | popListElement (key : Bytes)
  | popListElements (key : Bytes) (numberOfItems : Int)
  | addStream (key : Bytes) (request : IdRequest) (values : List (Bytes × Bytes))
  | streamRange (key : Bytes) (start stop : StreamId)
  | readStreams (requests : List ReadRequest)
  | incrementKey (key : Bytes)

/-- What a call returns.  The map gives its keys as a list, the reference store
as a set. -/
inductive Outcome (Keys : Type) where
  | done
  | text (result : Except Error Bytes)
  | valueType (result : ValueType)
  | keys (result : Keys)
  | size (result : Except Error ℕ)
  | texts (result : Except Error (List Bytes))
  | id (result : Except Error StreamId)
  | range (result : Option (Except Error (List StreamEntry)))
  | streams (result : Except Error (List ReadResult)) (requests : List ReadRequest)
  | integer (result : Except Error Int)
deriving DecidableEq

/-- The same outcome, keys being compared up to their order. -/
inductive Outcome.Agrees : Outcome (List Bytes) → Outcome (Set Bytes) → Prop
  | done : Agrees .done .done
  | text (result : Except Error Bytes) : Agrees (.text result) (.text result)
  | valueType (result : ValueType) : Agrees (.valueType result) (.valueType result)
  | keys {listed : List Bytes} {held : Set Bytes} (nodup : listed.Nodup)
      (mem_iff : ∀ key, key ∈ listed ↔ key ∈ held) : Agrees (.keys listed) (.keys held)
  | size (result : Except Error ℕ) : Agrees (.size result) (.size result)
  | texts (result : Except Error (List Bytes)) : Agrees (.texts result) (.texts result)
  | id (result : Except Error StreamId) : Agrees (.id result) (.id result)
  | range (result : Option (Except Error (List StreamEntry))) :
      Agrees (.range result) (.range result)
  | streams (result : Except Error (List ReadResult)) (requests : List ReadRequest) :
      Agrees (.streams result requests) (.streams result requests)
  | integer (result : Except Error Int) : Agrees (.integer result) (.integer result)

/-- Carry a call out on the database. -/
def perform (clock : Clock) (operation : Operation) (database : Database) :
    Outcome (List Bytes) × Database :=
  match operation with
  | .set key value expiry => (.done, set clock key value expiry database)
  | .get key => (get clock key database).map .text id
  | .getType key => (getType clock key database).map .valueType id
  | .keys => (keys clock database).map .keys id
  | .addListElements key values mode =>
    (addListElements clock key values mode database).map .size id
  | .listElements key start stop => (listElements clock key start stop database).map .texts id
  | .getListLength key => (getListLength clock key database).map .size id
  | .popListElement key => (popListElement clock key database).map .text id
  | .popListElements key numberOfItems =>
    (popListElements clock key numberOfItems database).map .texts id
  | .addStream key request values => (addStream clock key request values database).map .id id
  | .streamRange key start stop => (streamRange clock key start stop database).map .range id
  | .readStreams requests =>
    let (result, requests, database) := readStreams clock requests database
    (.streams result requests, database)
  | .incrementKey key => (incrementKey clock key database).map .integer id

/-- Carry out one call after another, each with its own reading of the clocks. -/
def results : List (Clock × Operation) → Database → List (Outcome (List Bytes))
  | [], _ => []
  | (clock, operation) :: rest, database =>
    (perform clock operation database).1 ::
      results rest (perform clock operation database).2

/-- The database after the calls. -/
def stateAfter : List (Clock × Operation) → Database → Database
  | [], database => database
  | (clock, operation) :: rest, database =>
    stateAfter rest (perform clock operation database).2

/-! ## The reference store -/

namespace Reference

/-- The contents of the reference store. -/
abbrev Contents := Bytes → Option Entry

/-- One call on the reference store: first everything whose deadline has been
reached is gone. -/
def perform (clock : Clock) (operation : Operation) (contents : Contents) :
    Outcome (Set Bytes) × Contents :=
  let contents := vanish (Entry.expired clock) contents
  match operation with
  | .set key value expiry =>
    (.done, Function.update contents key (some
      { value := .string value, expiresAt := expiry.map (deadlineAfter clock.steady) }))
  | .get key => (eagerly key OnEntry.get contents).map .text id
  | .getType key => (eagerly key OnEntry.getType contents).map .valueType id
  | .keys => (.keys { key | (contents key).isSome }, contents)
  | .addListElements key values mode =>
    (eagerly key (OnEntry.addListElements values mode) contents).map .size id
  | .listElements key start stop =>
    (eagerly key (OnEntry.listElements start stop) contents).map .texts id
  | .getListLength key => (eagerly key OnEntry.getListLength contents).map .size id
  | .popListElement key => (eagerly key OnEntry.popListElement contents).map .text id
  | .popListElements key numberOfItems =>
    (eagerly key (OnEntry.popListElements numberOfItems) contents).map .texts id
  | .addStream key request values =>
    (eagerly key (OnEntry.addStream clock request values) contents).map .id id
  | .streamRange key start stop =>
    (eagerly key (OnEntry.streamRange start stop) contents).map .range id
  | .readStreams requests =>
    let (result, requests) := OnEntry.readStreams contents requests
    (.streams result requests, contents)
  | .incrementKey key => (eagerly key OnEntry.incrementKey contents).map .integer id

def results : List (Clock × Operation) → Contents → List (Outcome (Set Bytes))
  | [], _ => []
  | (clock, operation) :: rest, contents =>
    (perform clock operation contents).1 ::
      results rest (perform clock operation contents).2

end Reference

/-! ## The simulation -/

section Step

variable {clock : Clock} {database : Database} {contents : Reference.Contents}

/-- The calls on one key all go through `KeyedStore.Shows.transact`. -/
private theorem transact_agrees {Result : Type}
    (hshows : Shows (Entry.expired clock) database (vanish (Entry.expired clock) contents))
    (key : Bytes) (operation : Option Entry → Result × Update Entry)
    (listed : Result → Outcome (List Bytes)) (held : Result → Outcome (Set Bytes))
    (hagrees : ∀ result, (listed result).Agrees (held result)) :
    (listed (transact (Entry.expired clock) key operation database).1).Agrees
        (held (eagerly key operation (vanish (Entry.expired clock) contents)).1) ∧
      Shows (Entry.expired clock) (transact (Entry.expired clock) key operation database).2
        (vanish (Entry.expired clock)
          (eagerly key operation (vanish (Entry.expired clock) contents)).2) := by
  obtain ⟨hresult, hafter⟩ := hshows.transact key operation
  exact ⟨hresult ▸ hagrees _, hafter⟩

private theorem vanish_self (contents : Reference.Contents) :
    vanish (Entry.expired clock) (vanish (Entry.expired clock) contents) =
      vanish (Entry.expired clock) contents :=
  vanish_vanish (fun _ h => h) contents

/-- **One call.**  Both stores return the same and still show the same. -/
theorem perform_agrees
    (hshows : Shows (Entry.expired clock) database (vanish (Entry.expired clock) contents))
    (operation : Operation) :
    (perform clock operation database).1.Agrees
        (Reference.perform clock operation contents).1 ∧
      Shows (Entry.expired clock) (perform clock operation database).2
        (vanish (Entry.expired clock) (Reference.perform clock operation contents).2) := by
  cases operation with
  | set key value expiry => exact ⟨.done, hshows.put key _⟩
  | get key =>
    simp only [perform, get_eq]
    exact transact_agrees hshows key _ _ _ .text
  | getType key =>
    simp only [perform, getType_eq]
    exact transact_agrees hshows key _ _ _ .valueType
  | keys =>
    obtain ⟨hnodup, hmem, hpurges⟩ := keys_spec clock database
    have hheld : ∀ key, key ∈ (keys clock database).1 ↔
        (vanish (Entry.expired clock) contents key).isSome := by
      intro key
      rw [hmem, ← hshows key]
      rfl
    refine ⟨.keys hnodup hheld, ?_⟩
    simp only [Reference.perform, vanish_self]
    exact hshows.purges hpurges
  | addListElements key values mode =>
    simp only [perform, addListElements_eq]
    exact transact_agrees hshows key _ _ _ .size
  | listElements key start stop =>
    simp only [perform, listElements_eq]
    exact transact_agrees hshows key _ _ _ .texts
  | getListLength key =>
    simp only [perform, getListLength_eq]
    exact transact_agrees hshows key _ _ _ .size
  | popListElement key =>
    simp only [perform, popListElement_eq]
    exact transact_agrees hshows key _ _ _ .text
  | popListElements key numberOfItems =>
    simp only [perform, popListElements_eq]
    exact transact_agrees hshows key _ _ _ .texts
  | addStream key request values =>
    simp only [perform, addStream_eq]
    exact transact_agrees hshows key _ _ _ .id
  | streamRange key start stop =>
    simp only [perform, streamRange_eq]
    exact transact_agrees hshows key _ _ _ .range
  | readStreams requests =>
    obtain ⟨after, heq, hpurges, -⟩ := readStreams_spec clock requests database
    have hview : view clock database = vanish (Entry.expired clock) contents :=
      funext hshows
    simp only [perform, heq, hview, Reference.perform, vanish_self]
    exact ⟨.streams _ _, hshows.purges hpurges⟩
  | incrementKey key =>
    simp only [perform, incrementKey_eq]
    exact transact_agrees hshows key _ _ _ .integer

end Step

/-- **A whole sequence of calls.**  The induction carries the moment of the last
call, up to which the two stores are known to agree. -/
theorem results_agree {sooner : Entry → Bool} (calls : List (Clock × Operation))
    (hsooner : ∀ call ∈ calls, ∀ entry, sooner entry = true →
      Entry.expired call.1 entry = true)
    (hclock : calls.Pairwise fun first second => first.1.steady ≤ second.1.steady)
    {contents : Reference.Contents} (hshows : Shows sooner database (vanish sooner contents)) :
    List.Forall₂ Outcome.Agrees (results calls database) (Reference.results calls contents) := by
  induction calls generalizing sooner database contents with
  | nil => exact .nil
  | cons call rest ih =>
    obtain ⟨clock, operation⟩ := call
    obtain ⟨hfirst, hrest⟩ := List.pairwise_cons.mp hclock
    have hmono := hsooner (clock, operation) (by simp)
    have hnow : Shows (Entry.expired clock) database
        (vanish (Entry.expired clock) contents) := by
      have hlater := hshows.later hmono
      rwa [vanish_vanish hmono] at hlater
    obtain ⟨hagrees, hafter⟩ := perform_agrees hnow operation
    refine .cons hagrees (ih ?_ hrest hafter)
    intro call hcall entry
    exact Entry.expired_mono (hfirst call hcall) entry

/-! ## What follows for an expired entry -/

/-- The key counts as absent from a moment on, whatever the map still stores
under it. -/
structure Forgotten (clock : Clock) (key : Bytes) (database : Database) : Prop where
  not_returned : (get clock key database).1 = .error .keyNotFound
  no_type : (getType clock key database).1 = .none
  not_listed : key ∉ (keys clock database).1
  stays_gone : ∀ later, clock.steady ≤ later.steady → view later database key = none
  pushed_without_expiry : ∀ values mode,
    (addListElements clock key values mode database).2.entries.lookup key =
      some { value := .list (OnEntry.extend mode values []), expiresAt := none }
  added_without_expiry : ∀ request values,
    (addStream clock key request values database).2.entries.lookup key =
      some { value := .stream [⟨newStreamId clock [] request, values⟩], expiresAt := none }
  counted_without_expiry : (incrementKey clock key database).2.entries.lookup key =
    some { value := .string (printSigned 1), expiresAt := none }

theorem forgotten_of_expired {clock : Clock} {key : Bytes} {entry : Entry}
    (hentry : database.entries.lookup key = some entry) (hexpired : entry.expired clock = true) :
    Forgotten clock key database := by
  have hgone : ∀ later : Clock, clock.steady ≤ later.steady →
      live (Entry.expired later) key database = none := fun later hle =>
    live_eq_none_of_stale ⟨entry, hentry, Entry.expired_mono hle entry hexpired⟩
  have hnow := hgone clock (Int.le_refl _)
  refine ⟨?_, ?_, ?_, hgone, fun values mode => ?_, fun request values => ?_, ?_⟩
  · rw [get_eq]
    simp [transact, hnow, OnEntry.get]
  · rw [getType_eq]
    simp [transact, hnow, OnEntry.getType]
  · rw [(keys_spec clock database).2.1]
    simp [view, hnow]
  · rw [addListElements_eq, lookup_transact, if_pos rfl, hnow]
    rfl
  · rw [addStream_eq, lookup_transact, if_pos rfl, hnow]
    rfl
  · rw [incrementKey_eq, lookup_transact, if_pos rfl, hnow]
    rfl

theorem incrementKey_keeps_expiry {clock : Clock} {key text : Bytes} {expiresAt : Option Int}
    {parsed : Int}
    (hentry : database.entries.lookup key = some { value := .string text, expiresAt })
    (hlive : Entry.expired clock { value := .string text, expiresAt } = false)
    (hparse : parseSigned 64 text = some parsed) :
    (incrementKey clock key database).2.entries.lookup key =
      some { value := .string (printSigned (wrap64 (parsed + 1))), expiresAt } := by
  have hnow : live (Entry.expired clock) key database =
      some { value := .string text, expiresAt } := by
    simp [live, hentry, Option.filter, hlive]
  rw [incrementKey_eq, lookup_transact, if_pos rfl, hnow]
  simp [OnEntry.incrementKey, hparse, Update.outcome]

/-- **Lazy expiry refines eager expiry.**  The reference store starts with
everything that the map stores. -/
theorem lazy_expiry_refines_eager (database : Database) (calls : List (Clock × Operation))
    (hclock : calls.Pairwise fun first second => first.1.steady ≤ second.1.steady) :
    List.Forall₂ Outcome.Agrees (results calls database)
        (Reference.results calls database.entries.lookup) ∧
      (∀ clock key entry, (stateAfter calls database).entries.lookup key = some entry →
        entry.expired clock = true → Forgotten clock key (stateAfter calls database)) ∧
      (∀ clock key text expiresAt parsed,
        (stateAfter calls database).entries.lookup key =
            some { value := .string text, expiresAt } →
          Entry.expired clock { value := .string text, expiresAt } = false →
          parseSigned 64 text = some parsed →
          (incrementKey clock key (stateAfter calls database)).2.entries.lookup key =
            some { value := .string (printSigned (wrap64 (parsed + 1))), expiresAt }) := by
  -- At the start nothing has vanished from the reference store yet.
  have hstart : Shows (fun _ => false) database
      (vanish (fun _ => false) database.entries.lookup) := fun _ => rfl
  refine ⟨results_agree calls ?_ hclock hstart, ?_, ?_⟩
  · intro call hcall entry h
    cases h
  · intro clock key entry hentry hexpired
    exact forgotten_of_expired hentry hexpired
  · intro clock key text expiresAt parsed hentry hlive hparse
    exact incrementKey_keeps_expiry hentry hlive hparse

/-- A counter with a lifetime of one millisecond is incremented in time, then
read and incremented too late. -/
theorem lazy_expiry_refines_eager_counter :
    let calls : List (Clock × Operation) :=
      [(⟨0, 1⟩, .set (ascii "k") (ascii "7") (some 1)), (⟨999999, 2⟩, .incrementKey (ascii "k")),
        (⟨1000000, 3⟩, .get (ascii "k")), (⟨1000000, 4⟩, .incrementKey (ascii "k"))]
    results calls {} = [.done, .integer (.ok 8), .text (.error .keyNotFound), .integer (.ok 1)] ∧
      List.Forall₂ Outcome.Agrees (results calls {}) (Reference.results calls fun _ => none) := by
  refine ⟨by decide +kernel, ?_⟩
  exact (lazy_expiry_refines_eager {} _ (by simp)).1

end RedisServer.Database
