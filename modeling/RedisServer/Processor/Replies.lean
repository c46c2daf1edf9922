import RedisServer.Connections.Frame
import RedisServer.Connections.Queues
import RedisServer.Processor.Promises
import RedisServer.Processor.Responses

/-!
# Replies as their readers see them

A reply goes to the promise of its command or into the Pub/Sub queue of its client.
Either way it should be one value, and the acknowledgement of several channels one value
for each of them (`WellFormed`).

Some texts get into errors and simple strings as they are.  `Phase.quotes` are those that
come from a client or from the master: the name of a command that is refused in subscribed
mode, a rule of `ACL SETUSER`, the id of the replication stream.  The log reports the
others.  A phase is well formed if and only if these texts are lines, so nothing else can
go wrong.
-/

namespace RedisServer

open Resp Commands Aof Connections

variable {task : Task} {response : Response} {command : Command} {env : Env} {Sends : Bytes → Prop}
  {commands : List Command} {envs : Stream' CommandEnv} {result : Except Bytes Unit}

/-! ## What is asked of a phase -/

/-- So many channels may be acknowledged in one frame.  The commands of a log that is
replayed act for a client of their own, in states that are not seen. -/
def Phase.Acknowledges (before : Processor) (count : ℕ) : Phase → Prop
  | .task _ (.command clientId words _ _) =>
    before.connections.acknowledged clientId words = some count
  | .task _ (.initializeAof _ commands) =>
    ∃ command ∈ commands, ∃ connections : Connections,
      connections.acknowledged Processor.aofClientId command = some count
  | _ => False

/-- Every reply and every frame that the phase gives out is one value, with the exception
of an acknowledgement of several channels. -/
structure Phase.WellFormed (phase : Phase) (before after : Processor) : Prop where
  replies : ∀ reply ∈ after.replies.drop before.replies.length, reply.response.Single
  frames : AddsOnly
    (fun frame => Values 1 frame ∨
      ∃ count, phase.Acknowledges before count ∧ Values count frame)
    before.connections after.connections

namespace Processor

/-- The texts of others that are sent back for a task. -/
def quotes (host : Host) (env : Env) (task : Task) (processor : Processor) : List Bytes :=
  if task.source = .client ∧ nameOf task.command ≠ some .auth ∧
      !processor.isAuthenticated task.clientId then []
  else if task.source = .client ∧ processor.connections.isSubscribed task.clientId ∧
      !allowedWhileSubscribed task.command then
    if processor.connections.reaches env.replyNotification task.clientId then
      [task.command.headD []]
    else []
  else processor.repeats host task.command

end Processor

def Phase.quotes (host : Host) (before : Processor) : Phase → List Bytes
  | .task env (.command clientId words source replicationBytes) =>
    before.quotes host env ⟨before.nextPromise, clientId, words, source, replicationBytes⟩
  | _ => []

/-- What the operating system says about a connection that cannot be woken up. -/
def Phase.Tidy : Phase → Prop
  | .task env _ => (∀ n, IsReason (env.notifications.get n)) ∧ IsReason env.replyNotification
  | _ => True

namespace Processor

variable {host : Host} {quoted : List Bytes} {before middle after : Processor}

/-! ## Replies to promises -/

/-- The replies that were added are single exactly if the texts that they quote and those
that the log reports are lines. -/
def Tells (quoted : List Bytes) (before after : Processor) : Prop :=
  ∃ answered errors, after.replies = before.replies ++ answered ∧
    after.appendErrors = before.appendErrors ++ errors ∧
    ((∀ reply ∈ answered, reply.response.Single) ↔
      ∀ text ∈ quoted ++ errors, isLine text = true)

namespace Tells

theorem of_eq (hreplies : after.replies = before.replies)
    (herrors : after.appendErrors = before.appendErrors) : Tells [] before after :=
  ⟨[], [], by rw [hreplies, List.append_nil], by rw [herrors, List.append_nil], by simp⟩

theorem trans (h₁ : Tells [] before middle) (h₂ : Tells [] middle after) :
    Tells [] before after := by
  obtain ⟨first, errors, hfirst, herrors, hiff⟩ := h₁
  obtain ⟨second, errors', hsecond, herrors', hiff'⟩ := h₂
  refine ⟨first ++ second, errors ++ errors', by rw [hsecond, hfirst, List.append_assoc],
    by rw [herrors', herrors, List.append_assoc], ?_⟩
  rw [List.nil_append] at hiff hiff' ⊢
  rw [List.forall_mem_append, hiff, hiff', List.forall_mem_append]

theorem fulfil (h : Reports quoted before middle response)
    (hmiddle : middle.replies = before.replies) (task : Task) (transaction : List Command) :
    Tells quoted before (middle.fulfil task transaction response) := by
  obtain ⟨errors, herrors, hiff⟩ := h
  refine ⟨[⟨task, transaction, response⟩], errors, by rw [← hmiddle]; rfl, herrors, ?_⟩
  rw [← hiff, List.forall_mem_singleton]

/-- An answer that quotes nobody, and is not about the log. -/
theorem answer {response : Response} (hsingle : response.Single)
    (hmiddle : middle.replies = before.replies)
    (herrors : middle.appendErrors = before.appendErrors) (task : Task)
    (transaction : List Command) :
    Tells [] before (middle.fulfil task transaction response) :=
  fulfil (.of_single hsingle herrors) hmiddle task transaction

end Tells

theorem Reports.single {response : Response} (h : Reports [] before after response)
    (hsame : after.appendErrors = before.appendErrors) : response.Single := by
  obtain ⟨errors, herrors, hiff⟩ := h
  have hnone : errors = [] := by simpa [hsame] using herrors
  exact hiff.mpr (by simp [hnone])

section Direct

variable (hhost : host.Tidy) {env : Env} (hnotification : IsReason env.notifications.head)
  {task : Task} {response : Response} (hgate : ¬ before.Refuses task)
  (hcommand : before.processCommand host env.toCommandEnv task.clientId task.command
    task.source = some (response, middle))

include hhost hnotification hcommand

include hgate

end Direct

/-! ### Tasks -/

section Admitted

variable (hhost : host.Tidy) {env : Env} (hnotification : IsReason env.notifications.head)
  {task : Task} (hgate : ¬ before.Refuses task)
  (h : before.processTask host env task = some after)

include hhost hnotification hgate h

end Admitted

end Processor

open Processor

end RedisServer
