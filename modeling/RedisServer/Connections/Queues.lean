import RedisServer.Connections.Moves
import RedisServer.Resp.Values

/-!
# The queues of the sessions

What the commands of a client put into the queues of the Pub/Sub sessions.  A queue only
grows (`Adds`), and the acknowledgement of several channels is one value for each of them.
-/

namespace RedisServer

open Resp Commands

variable {notification : Notification}

/-! ## Frames -/

namespace Connections

variable {actor : ClientId} {Sends : Bytes → Prop} {before after : Connections}

/-- Every queue has kept its frames, and whatever was added to it may be sent. -/
def Adds (Sends : Bytes → Prop) (before after : Connections) : Prop :=
  ∀ session pending, before.sessions.lookup session = some pending →
    ∃ frames, after.sessions.lookup session = some (pending ++ frames) ∧
      ∀ frame ∈ frames, Sends frame

/-- Whatever stands in a queue behind what was in it before may be sent. -/
def AddsOnly (Sends : Bytes → Prop) (before after : Connections) : Prop :=
  ∀ session pending queue, before.sessions.lookup session = some pending →
    after.sessions.lookup session = some queue → ∀ frame ∈ queue.drop pending.length, Sends frame

theorem Adds.of_eq (h : after.sessions = before.sessions) : Adds Sends before after :=
  fun _ _ hsession => ⟨[], by rw [h, hsession, List.append_nil], by simp⟩

theorem Adds.trans {middle : Connections} (h₁ : Adds Sends before middle)
    (h₂ : Adds Sends middle after) : Adds Sends before after := by
  intro session pending hsession
  obtain ⟨frames, hframes, hsends⟩ := h₁ session pending hsession
  obtain ⟨frames', hframes', hsends'⟩ := h₂ session _ hframes
  refine ⟨frames ++ frames', by rw [hframes', List.append_assoc], fun frame hframe => ?_⟩
  exact (List.mem_append.mp hframe).elim (hsends frame) (hsends' frame)

/-- A frame for the client goes into its queue. -/
def reaches (notification : Notification) (clientId : ClientId) (connections : Connections) :
    Bool :=
  (connections.liveSession clientId).any fun (_, pending) =>
    !pending.isEmpty || notification.isNone

/-- How many channels a command on subscriptions acknowledges.  An `UNSUBSCRIBE` without
channels is for all of them, and is acknowledged even if there is none. -/
def acknowledged (clientId : ClientId) (command : Command) (connections : Connections) :
    Option ℕ :=
  match nameOf command with
  | some .subscribe => some (command.length - 1)
  | some .unsubscribe =>
    some (if 1 < command.length then command.length - 1
      else max 1 ((connections.clientSubscriptions.lookup clientId).getD []).length)
  | _ => none

end Connections

end RedisServer
