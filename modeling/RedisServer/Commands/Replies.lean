import RedisServer.Commands.Plan
import RedisServer.Resp.Decoder

/-!
# The replies of commands

Whatever a command on the database is given, its reply is one value: what comes from
the words of the command or from the database goes into bulk strings, and the texts of
the errors are fixed.
-/

namespace RedisServer.Commands

open Resp Database

variable {message : Bytes} {command : Command}

/-! ## Fixed texts -/

theorem tidy_readStreamsError (error : Error) : (readStreamsError error).tidy = true := by
  cases error <;> decide

theorem tidyAll_map {Item : Type} {respond : Item → Response}
    (h : ∀ item, (respond item).tidy = true) (items : List Item) :
    Response.tidyAll (items.map respond) = true := by
  induction items with
  | nil => rfl
  | cons item items ih => rw [List.map_cons, Response.tidyAll, h item, ih, Bool.and_true]

theorem tidyAll_fields (values : List (Bytes × Bytes)) : Response.tidyAll (values.flatMap
    fun (field, value) => [.bulkString field, .bulkString value]) = true := by
  induction values with
  | nil => rfl
  | cons pair values ih => simpa [Response.tidyAll, Response.tidy] using ih

theorem tidy_entryResponse (entry : StreamEntry) : (entryResponse entry).tidy = true := by
  simp only [entryResponse, Response.tidy, Response.tidyAll, tidyAll_fields, Bool.and_true]

theorem tidy_makeXreadResponse (results : List ReadResult) :
    (makeXreadResponse results).tidy = true := by
  unfold makeXreadResponse
  split
  · rfl
  · refine tidyAll_map (fun result => ?_) results
    simp only [Response.tidy, Response.tidyAll, tidyAll_map tidy_entryResponse, Bool.and_true]

/-! ## Plans -/

/-- Whatever the database holds, the reply is one value. -/
def Plan.Tidy : Plan → Prop
  | .reply response | .overwrite _ _ response => response.tidy = true
  | .keyed _ operation => ∀ current response, (operation current).1 = some response →
      response.tidy = true
  | .listKeys | .readStreams _ => True

theorem Plan.Tidy.execute {plan : Plan} (h : plan.Tidy) {clock : Clock}
    {database after : Database} {response : Response}
    (hexecute : plan.execute clock database = some (response, after)) : response.tidy = true := by
  cases plan with
  | reply _ | overwrite _ _ _ =>
    cases hexecute
    exact h
  | keyed key operation =>
    obtain ⟨answer, hanswer, heq⟩ := Option.map_eq_some_iff.mp hexecute
    cases heq
    exact h _ _ hanswer
  | listKeys =>
    cases hexecute
    rfl
  | readStreams requests =>
    simp only [Plan.execute] at hexecute
    split at hexecute
    · cases hexecute
      exact tidy_makeXreadResponse _
    · cases hexecute
      exact tidy_readStreamsError _

section Handlers

variable (command : Command)

end Handlers

end RedisServer.Commands
