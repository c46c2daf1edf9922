import RedisServer.Commands
import RedisServer.Resp.Stability

/-!
# The connection of a client

`handle_connection` appends what it receives to a buffer, and then parses and
submits the commands in it, one after the other.  It stops at malformed input,
and at a `PSYNC`, which turns the connection into the link to a replica.

What the client sends is a stream of bytes; `recv` hands it over in pieces.  The
commands that are submitted and the reason to stop do not depend on the pieces.
-/

namespace RedisServer.Server

open Resp Framing

/-- The command hands the connection over to the replication code.  The test
is the connection's own, and comes before any other. -/
def startsReplication (command : Command) : Bool :=
  decide (command.length = 3) && decide (command.head? = some CommandName.psync.text)

inductive ConnectionStatus where
  | reading
  /-- The input was malformed, and the connection is closed. -/
  | malformed
  /-- A `PSYNC` has arrived; nothing more is submitted. -/
  | replicating
deriving DecidableEq, Repr

/-- What the loop of `handle_connection` has done so far. -/
structure Connection where
  submitted : List Command := []
  status : ConnectionStatus := .reading
deriving DecidableEq, Repr

/-- One complete command. -/
def Connection.handleCommand (command : Command) (connection : Connection) : Connection :=
  if startsReplication command then { connection with status := .replicating }
  else { connection with submitted := connection.submitted ++ [command] }

/-- The loop over the commands in the buffer. -/
def connectionReader : Reader UInt8 Command ParseError Connection where
  parse := parse
  handle command _ connection := connection.handleCommand command
  fail _ connection := { connection with status := .malformed }
  stopped connection := connection.status ≠ .reading
  stable := stable_parse
  stopped_fail _ _ := rfl

/-- The loop of `handle_connection` over what `recv` returns. -/
def handleConnection (chunks : List Bytes) : Connection :=
  (chunks.foldl connectionReader.receive ([], {})).2

theorem handleConnection_eq (chunks : List Bytes) :
    handleConnection chunks = (connectionReader.read chunks.flatten {}).2 :=
  (connectionReader.foldl_receive chunks [] {}).1

/-- **Framing does not depend on packets.**  Two ways of cutting a stream into
pieces lead to the same submitted commands and to the same end, because the
parser never takes back a command or an error, and has no verdict on less than a
whole command. -/
theorem framing_independent_of_packets {chunks chunks' : List Bytes}
    (hsame : chunks.flatten = chunks'.flatten) :
    handleConnection chunks = handleConnection chunks' ∧
      (∀ input rest command count, parseCommand input = .result command count →
        parseCommand (input ++ rest) = .result command count) ∧
      (∀ input rest fault, parseCommand input = .error fault →
        parseCommand (input ++ rest) = .error fault) ∧
      ∀ input front command count, parseCommand input = .result command count →
        front <+: input.take count → front.length < count →
        parseCommand front = .incomplete := by
  refine ⟨?_, ?_, ?_, ?_⟩
  · rw [handleConnection_eq, handleConnection_eq, hsame]
  · intro input rest command count h
    have hparse : parse input = some (.ok (command, count)) := congrArg ParseOutcome.verdict h
    exact verdict_injective (stable_parse.append hparse rest)
  · intro input rest fault h
    have hparse : parse input = some (.error fault) := congrArg ParseOutcome.verdict h
    exact verdict_injective (stable_parse.append hparse rest)
  · intro input front command count h hfront hshort
    have hparse : parse input = some (.ok (command, count)) := congrArg ParseOutcome.verdict h
    have hincomplete := stable_parse.incomplete_of_prefix hparse
      (hfront.trans (List.take_prefix count input)) hshort
    exact verdict_injective hincomplete

/-- A `PING` and the beginning of a `PSYNC`, cut between CR and LF and inside a
length, or not at all. -/
theorem framing_independent_of_packets_ping :
    let stream := serializeCommand [ascii "PING"] ++
      serializeCommand [ascii "PSYNC", ascii "?", ascii "-1"] ++ ascii "rest"
    let chunks := [stream.take 3, (stream.drop 3).take 4, stream.drop 7]
    handleConnection chunks = handleConnection [stream] ∧
      handleConnection chunks = ⟨[[ascii "PING"]], .replicating⟩ :=
  ⟨(framing_independent_of_packets (by decide)).1, by decide⟩

end RedisServer.Server
