import RedisServer.Commands.Lists
import RedisServer.Processor.Worker

/-!
# Elements are neither lost nor duplicated

As long as every write can be logged, what was pushed to a list is what replies
have handed out together with what is still there.  For the database this is an
induction over its history.  The replies agree with the history because a deed
answers with what its commands returned, and whoever is answered without a deed
leaves empty-handed.
-/

namespace RedisServer

open Resp KeyedStore Commands Aof Database

namespace Event

def pushedTo (key : Bytes) : Event → List Bytes
  | .executed command response => RedisServer.pushedTo key command response
  | .loaded _ => []

def takenFrom (key : Bytes) : Event → List Bytes
  | .executed command response => RedisServer.takenFrom key command response
  | .loaded _ => []

/-- The key is set, whatever it held. -/
def overwrites (host : Host) (key : Bytes) : Event → Bool
  | .executed command response =>
    effective host command response && decide (command[1]? = some key) &&
      decide (nameOf command = some .set)
  | .loaded other => decide (other = key)

end Event

/-- The commands that a reply tells the results of. -/
def Reply.executions (reply : Reply) : List Event :=
  if nameOf reply.task.command = some .exec then
    match reply.response with
    | .responseArray responses => List.zipWith Event.executed reply.transaction responses
    | _ => []
  else [.executed reply.task.command reply.response]

/-- The values of a key that a reply hands out. -/
def Reply.takenFrom (key : Bytes) (reply : Reply) : List Bytes :=
  reply.executions.flatMap (Event.takenFrom key)

/-! ## The books of the database -/

theorem History.balanced {host : Host} {Timely : Clock → Prop} {key : Bytes}
    {before after : Database} {events : List Event} (h : History host Timely before events after)
    (hvalid : Invariant (fun _ => True) before)
    (hset : ∀ event ∈ events, event.overwrites host key = false) :
    (before.elementsAt key : Multiset Bytes) + events.flatMap (Event.pushedTo key) =
      events.flatMap (Event.takenFrom key) + after.elementsAt key := by
  induction h with
  | done database => simp
  | looked _ purges _ ih =>
    rw [← elementsAt_purges hvalid purges]
    exact ih (hvalid.purges purges) hset
  | @executed clock command response before middle after events _ change _ ih =>
    have hfirst : (before.elementsAt key : Multiset Bytes) + RedisServer.pushedTo key command
        response = RedisServer.takenFrom key command response + middle.elementsAt key := by
      refine balanced_change hvalid change fun heffective htarget hname => ?_
      have hevent := hset (.executed command response) (by simp)
      simp [Event.overwrites, heffective, htarget, hname] at hevent
    have hrest := ih (hvalid.change (admits_all clock) change) fun event hevent =>
      hset event (by simp [hevent])
    simp only [List.flatMap_cons, ← Multiset.coe_add, Event.pushedTo, Event.takenFrom]
    calc (before.elementsAt key : Multiset Bytes) +
          (pushedTo key command response + events.flatMap (Event.pushedTo key))
        = takenFrom key command response +
            (middle.elementsAt key + events.flatMap (Event.pushedTo key)) := by
          rw [← add_assoc, hfirst, add_assoc]
      _ = takenFrom key command response + events.flatMap (Event.takenFrom key) +
            after.elementsAt key := by rw [hrest, add_assoc]
  | @loaded clock other value expiry before after events _ _ ih =>
    have hne : key ≠ other := by
      rintro rfl
      have hevent := hset (.loaded key) (by simp)
      simp [Event.overwrites] at hevent
    have hkeep : Database.elementsAt key (Database.set clock other value expiry before) =
        before.elementsAt key := by
      rw [elementsAt, Database.set, lookup_put, if_neg hne]
      rfl
    have hrest := ih (hvalid.set clock other value expiry) fun event hevent =>
      hset event (by simp [hevent])
    rw [hkeep] at hrest
    simpa [Event.pushedTo, Event.takenFrom] using hrest

/-! ## The replies agree with the history -/

section Deeds

variable {host : Host} {regime : Regime} {key : Bytes}

theorem Reply.takenFrom_of_emptyHanded {reply : Reply} (h : reply.EmptyHanded host) :
    reply.takenFrom key = [] := by
  unfold Reply.takenFrom Reply.executions
  rcases h with ⟨hread, hexec⟩ | hbare
  · rw [if_neg hexec]
    simpa [Event.takenFrom] using takenFrom_of_read hread
  · split
    · split
      · rename_i hresponse
        rw [hresponse] at hbare
        cases hbare
      · rfl
    · simpa [Event.takenFrom] using takenFrom_of_bare hbare

/-- A deed that was logged hands out what its commands took. -/
theorem Deed.takenFrom_replies {deed : Deed} (hproper : deed.Proper host regime)
    (hlasting : deed.Lasting) :
    deed.replies.flatMap (Reply.takenFrom key) = deed.events.flatMap (Event.takenFrom key) := by
  cases deed with
  | ran task response result =>
    obtain rfl : result = .ok () := hlasting
    simp [Deed.replies, Deed.events, Reply.takenFrom, Reply.executions, hproper.2.1,
      Processor.settled]
  | transacted task commands responses result =>
    obtain rfl : result = .ok () := hlasting
    simp [Deed.replies, Deed.events, Reply.takenFrom, Reply.executions, hproper.2.1,
      Processor.settled]
  | recovered events => exact hlasting.elim
  | answered reply =>
    simpa [Deed.replies, Deed.events] using Reply.takenFrom_of_emptyHanded hproper
  | askedForOffsets => rfl

/-- **Nothing is lost and nothing is handed out twice.** -/
theorem Chronicle.balanced {before after : Processor} {deeds : List Deed}
    (h : Chronicle host regime before deeds after)
    (hvalid : Invariant (fun _ => True) before.database)
    (hlasting : ∀ deed ∈ deeds, deed.Lasting)
    (hset : ∀ event ∈ deeds.flatMap Deed.events, event.overwrites host key = false) :
    (before.database.elementsAt key : Multiset Bytes) +
        (deeds.flatMap Deed.events).flatMap (Event.pushedTo key) =
      (deeds.flatMap Deed.replies).flatMap (Reply.takenFrom key) +
        after.database.elementsAt key := by
  have hagree : (deeds.flatMap Deed.replies).flatMap (Reply.takenFrom key) =
      (deeds.flatMap Deed.events).flatMap (Event.takenFrom key) := by
    rw [List.flatMap_assoc, List.flatMap_assoc]
    exact List.flatMap_congr fun deed hdeed =>
      Deed.takenFrom_replies (h.proper deed hdeed) (hlasting deed hdeed)
  rw [hagree]
  exact h.history.balanced hvalid hset

end Deeds

end RedisServer
