import RedisServer.Library.Inbox
import RedisServer.Server.MasterLink

/-!
# The handshake of a replica

The replica exchanges three lines with its master, and then receives the answer to
`PSYNC`: a line with the replication id and the offset, a line with the length of the
snapshot, and the snapshot, which has no line end.  The commands of the stream follow
directly.  All of this comes in through one buffer.

Each of the three kinds of reading takes its part from the front of the stream, however
the stream is cut into pieces, so that the replica recovers exactly what the master has
sent (`handshake_recovers`).
-/

namespace RedisServer.Server

open Resp Framing

variable {rest : Bytes} {inbox : Inbox UInt8}

/-- Reading from the master: it waits, or it fails with a message. -/
abbrev Reading := ExceptT Bytes Option

/-! ## Lines and payloads -/

/-- The first line in the buffer. -/
def takeLine (buffer : Bytes) : Option (Bytes × Bytes) :=
  (findCrlf buffer).map fun lineEnd => (buffer.take lineEnd, buffer.drop (lineEnd + 2))

def takeBytes (size : ℕ) (buffer : Bytes) : Option (Bytes × Bytes) :=
  if buffer.length < size then none else some (buffer.take size, buffer.drop size)

def readMasterResponseLine (inbox : Inbox UInt8) : Reading (Bytes × Inbox UInt8) :=
  inbox.await takeLine (ascii "Failed to read response from master")
    (ascii "Master closed the connection")

/-! ## The handshake -/

/-- The connection to the master, and what was sent on it. -/
structure MasterConnection where
  inbox : Inbox UInt8
  sent : List Command := []

/-- Sending a command, which may fail with a message. -/
def sendCommand (failure : Option Bytes) (command : Command) (connection : MasterConnection) :
    Reading MasterConnection :=
  match failure with
  | some message => throw message
  | none => pure { connection with sent := connection.sent ++ [command] }

def sendCommandAndExpect (failure : Option Bytes) (command : Command) (expectedResponse : Bytes)
    (connection : MasterConnection) : Reading MasterConnection := do
  let connection ← sendCommand failure command connection
  let (response, inbox) ← readMasterResponseLine connection.inbox
  if response ≠ expectedResponse then
    throw (ascii "Expected response " ++ expectedResponse ++ ascii ", received " ++ response)
  else pure { connection with inbox }

/-- The four commands of the handshake; `failures` says which of them cannot be sent. -/
def performReplicationHandshake (port : ℕ) (failures : Command → Option Bytes)
    (connection : MasterConnection) : Reading MasterConnection := do
  let expect (command : Command) := sendCommandAndExpect (failures command) command
  let connection ← expect [ascii "PING"] (ascii "+PONG") connection
  let connection ←
    expect [ascii "REPLCONF", ascii "listening-port", Decimal.print port] (ascii "+OK") connection
  let connection ←
    expect [ascii "REPLCONF", ascii "capa", ascii "psync2"] (ascii "+OK") connection
  let psync := [ascii "PSYNC", ascii "?", ascii "-1"]
  sendCommand (failures psync) psync connection

/-- The commands in the order in which they are sent. -/
def handshakeCommands (port : ℕ) : List Command :=
  [[ascii "PING"], [ascii "REPLCONF", ascii "listening-port", Decimal.print port],
    [ascii "REPLCONF", ascii "capa", ascii "psync2"], [ascii "PSYNC", ascii "?", ascii "-1"]]

/-! ## The answer to `PSYNC` -/

structure FullResync where
  replicationId : Bytes
  offset : ℕ
deriving DecidableEq, Repr

def isHexDigit (character : UInt8) : Bool :=
  decide (48 ≤ character ∧ character ≤ 57) || decide (97 ≤ character ∧ character ≤ 102) ||
    decide (65 ≤ character ∧ character ≤ 70)

/-- What `receive_full_resync` makes of the line. -/
def parseFullResync (response : Bytes) : Except Bytes FullResync :=
  if !(ascii "+FULLRESYNC ").isPrefixOf response then
    .error (ascii "Expected FULLRESYNC response, received " ++ response)
  else
    let payload := response.drop (ascii "+FULLRESYNC ").length
    match payload.findIdx? (· == 32) with
    | none => .error (ascii "Invalid FULLRESYNC response")
    | some separator =>
      let replicationId := payload.take separator
      let offsetText := payload.drop (separator + 1)
      if replicationId.length ≠ 40 ∨ offsetText = [] then
        .error (ascii "Invalid FULLRESYNC response")
      else if replicationId.any fun character => !isHexDigit character then
        .error (ascii "Invalid replication ID in FULLRESYNC response")
      else
        match parseUnsigned offsetText with
        | none => .error (ascii "Invalid replication offset in FULLRESYNC response")
        | some offset => .ok ⟨replicationId, offset⟩

def receiveFullResync (inbox : Inbox UInt8) : Reading (FullResync × Inbox UInt8) := do
  let (response, inbox) ← readMasterResponseLine inbox
  let fullResync ← ExceptT.mk (some (parseFullResync response))
  pure (fullResync, inbox)

/-- The length that the header of the snapshot announces. -/
def parseRdbHeader (header : Bytes) : Except Bytes ℕ :=
  match header with
  | 36 :: lengthText =>
    match parseUnsigned lengthText with
    | none => .error (ascii "Invalid RDB payload length")
    | some payloadSize => .ok payloadSize
  | _ => .error (ascii "Expected RDB bulk length, received " ++ header)

def receiveRdbPayload (inbox : Inbox UInt8) : Reading (Bytes × Inbox UInt8) := do
  let (header, inbox) ← readMasterResponseLine inbox
  let payloadSize ← ExceptT.mk (some (parseRdbHeader header))
  inbox.await (takeBytes payloadSize) (ascii "Failed to read RDB payload from master")
    (ascii "Master closed the connection while sending RDB payload")

/-- `replication_loop` up to the point at which it starts to apply commands. -/
def synchronize (port : ℕ) (failures : Command → Option Bytes) (inbox : Inbox UInt8) :
    Reading (FullResync × Bytes × MasterConnection) := do
  let connection ← performReplicationHandshake port failures { inbox }
  let (fullResync, inbox) ← receiveFullResync connection.inbox
  let (payload, inbox) ← receiveRdbPayload inbox
  pure (fullResync, payload, { connection with inbox })

/-! ## The side of the master -/

/-- `empty_rdb_payload`. -/
def emptyRdbPayload : Bytes := ascii "REDIS0011" ++ [255, 0, 0, 0, 0, 0, 0, 0, 0]

/-- What `send_full_resync` sends; the payload of the source is `emptyRdbPayload`. -/
def sendFullResync (replicationId : Bytes) (startingOffset : ℕ) (payload : Bytes) : Bytes :=
  ascii "+FULLRESYNC " ++ replicationId ++ ascii " " ++ Decimal.print startingOffset ++ crlf ++
    (ascii "$" ++ Decimal.print payload.length ++ crlf) ++ payload

/-- The answers to the first three commands. -/
def handshakeReplies : Bytes :=
  ascii "+PONG" ++ crlf ++ (ascii "+OK" ++ crlf) ++ (ascii "+OK" ++ crlf)

/-! ## What is taken from the front of the stream -/

theorem fromFront_takeLine : Inbox.FromFront takeLine := by
  intro buffer line rest h more
  obtain ⟨lineEnd, hfound, htaken⟩ := Option.map_eq_some_iff.mp h
  obtain ⟨rfl, rfl⟩ : buffer.take lineEnd = line ∧ buffer.drop (lineEnd + 2) = rest := by
    simpa using htaken
  obtain ⟨hle, hlong⟩ := findCrlf_stable hfound
  rw [takeLine, hlong more, Option.map_some, List.take_append_of_le_length (by omega),
    List.drop_append_of_le_length (by omega)]

theorem takeLine_append {line : Bytes} (hline : ∀ byte ∈ line, byte ≠ 13) (rest : Bytes) :
    takeLine (line ++ crlf ++ rest) = some (line, rest) := by
  rw [takeLine, findCrlf_append hline, Option.map_some]
  simp [crlf]

theorem fromFront_takeBytes (size : ℕ) : Inbox.FromFront (takeBytes size) := by
  intro buffer payload rest h more
  unfold takeBytes at h
  split at h
  · cases h
  · cases h
    have hlong : ¬ (buffer ++ more).length < size := by
      rw [List.length_append]
      omega
    rw [takeBytes, if_neg hlong, List.take_append_of_le_length (by omega),
      List.drop_append_of_le_length (by omega)]

theorem takeBytes_append (payload rest : Bytes) :
    takeBytes payload.length (payload ++ rest) = some (payload, rest) := by
  simp [takeBytes]

theorem ne_cr_of_all {bytes : Bytes} (h : bytes.all (fun byte => decide (byte ≠ 13)) = true) :
    ∀ byte ∈ bytes, byte ≠ 13 :=
  fun byte hbyte => of_decide_eq_true (List.all_eq_true.mp h byte hbyte)

section Reading

variable {inbox : Inbox UInt8} (hsound : inbox.Sound)

include hsound

theorem readMasterResponseLine_spec {line : Bytes} (hline : ∀ byte ∈ line, byte ≠ 13)
    (hstream : inbox.stream = line ++ crlf ++ rest) :
    ∃ next, readMasterResponseLine inbox = pure (line, next) ∧ next.Sound ∧
      next.stream = rest :=
  Inbox.await_spec fromFront_takeLine _ _ hsound (by rw [hstream, takeLine_append hline])

/-- A line that is expected. -/
theorem sendCommandAndExpect_spec {expected : Bytes} (hline : ∀ byte ∈ expected, byte ≠ 13)
    (hstream : inbox.stream = expected ++ crlf ++ rest) (command : Command) :
    ∃ next, (∀ sent, sendCommandAndExpect none command expected ⟨inbox, sent⟩ =
        pure ⟨next, sent ++ [command]⟩) ∧ next.Sound ∧ next.stream = rest := by
  obtain ⟨next, hread, hnext⟩ := readMasterResponseLine_spec hsound hline hstream
  refine ⟨next, fun sent => ?_, hnext⟩
  simp only [sendCommandAndExpect, sendCommand, pure_bind, hread, ne_eq, not_true_eq_false,
    if_false]

theorem performReplicationHandshake_spec (port : ℕ)
    (hstream : inbox.stream = handshakeReplies ++ rest) :
    ∃ next, performReplicationHandshake port (fun _ => none) { inbox } =
      pure ⟨next, handshakeCommands port⟩ ∧ next.Sound ∧ next.stream = rest := by
  have hpong : ∀ byte ∈ ascii "+PONG", byte ≠ 13 := ne_cr_of_all (by decide)
  have hok : ∀ byte ∈ ascii "+OK", byte ≠ 13 := ne_cr_of_all (by decide)
  simp only [handshakeReplies, List.append_assoc] at hstream
  simp only [← List.append_assoc _ crlf] at hstream
  obtain ⟨first, hfirst, hsound₁, hstream₁⟩ :=
    sendCommandAndExpect_spec hsound hpong hstream [ascii "PING"]
  obtain ⟨second, hsecond, hsound₂, hstream₂⟩ := sendCommandAndExpect_spec hsound₁ hok hstream₁
    [ascii "REPLCONF", ascii "listening-port", Decimal.print port]
  obtain ⟨third, hthird, hsound₃, hstream₃⟩ := sendCommandAndExpect_spec hsound₂ hok hstream₂
    [ascii "REPLCONF", ascii "capa", ascii "psync2"]
  refine ⟨third, ?_, hsound₃, hstream₃⟩
  simp only [performReplicationHandshake, hfirst, hsecond, hthird, pure_bind, sendCommand]
  rfl

end Reading

/-! ## The answer to `PSYNC`, read back -/

/-- A replication id: forty hexadecimal digits. -/
structure IsReplicationId (replicationId : Bytes) : Prop where
  length : replicationId.length = 40
  digits : ∀ character ∈ replicationId, isHexDigit character = true

theorem IsReplicationId.ne_of_mem {replicationId : Bytes} (h : IsReplicationId replicationId)
    {other character : UInt8} (hother : isHexDigit other = false)
    (hmem : character ∈ replicationId) : character ≠ other := by
  rintro rfl
  rw [h.digits _ hmem] at hother
  cases hother

section Answer

variable {replicationId : Bytes} (hid : IsReplicationId replicationId) {offset : ℕ}

include hid

theorem ne_cr_of_mem_fullResync {byte : UInt8}
    (hbyte : byte ∈ ascii "+FULLRESYNC " ++ replicationId ++ ascii " " ++ Decimal.print offset) :
    byte ≠ 13 := by
  have hprefix : ∀ byte ∈ ascii "+FULLRESYNC ", byte ≠ 13 := ne_cr_of_all (by decide)
  have hspace : ∀ byte ∈ ascii " ", byte ≠ 13 := ne_cr_of_all (by decide)
  simp only [List.mem_append] at hbyte
  rcases hbyte with ((hbyte | hbyte) | hbyte) | hbyte
  · exact hprefix byte hbyte
  · exact hid.ne_of_mem (by decide) hbyte
  · exact hspace byte hbyte
  · exact ne_cr_of_mem_print hbyte

/-- The line is read back. -/
theorem parseFullResync_sent (hoffset : offset < 2 ^ 64) :
    parseFullResync
        (ascii "+FULLRESYNC " ++ replicationId ++ ascii " " ++ Decimal.print offset) =
      .ok ⟨replicationId, offset⟩ := by
  have hspace : ascii " " = [32] := rfl
  -- The id has no blank, so the first blank is the one behind it.
  have hseparator : (replicationId ++ 32 :: Decimal.print offset).findIdx? (· == 32) = some 40 := by
    have hnone : replicationId.findIdx? (· == 32) = none := by
      refine List.findIdx?_eq_none_iff.mpr fun character hcharacter => ?_
      simpa using hid.ne_of_mem (by decide) hcharacter
    rw [List.findIdx?_append, hnone]
    simp [List.findIdx?_cons, hid.length]
  have hdigits : (replicationId.any fun character => !isHexDigit character) = false := by
    simpa using hid.digits
  have htake : (replicationId ++ 32 :: Decimal.print offset).take 40 = replicationId := by
    rw [← hid.length, List.take_left]
  have hdrop : (replicationId ++ 32 :: Decimal.print offset).drop 41 = Decimal.print offset := by
    rw [show 41 = replicationId.length + 1 by rw [hid.length], List.drop_length_add_append]
    rfl
  have hpayload : (ascii "+FULLRESYNC " ++ replicationId ++ ascii " " ++
      Decimal.print offset).drop (ascii "+FULLRESYNC ").length =
        replicationId ++ 32 :: Decimal.print offset := by
    simp [hspace]
  have hprefix : (ascii "+FULLRESYNC ").isPrefixOf (ascii "+FULLRESYNC " ++ replicationId ++
      ascii " " ++ Decimal.print offset) = true := by
    simp [List.isPrefixOf_iff_prefix]
  simp only [parseFullResync, hprefix, hpayload, hseparator, htake, hdrop, hid.length, hdigits,
    parseUnsigned_print hoffset, Decimal.print_ne_nil]
  simp

end Answer

theorem parseRdbHeader_sent {size : ℕ} (hsize : size < 2 ^ 64) :
    parseRdbHeader (ascii "$" ++ Decimal.print size) = .ok size := by
  show parseRdbHeader (36 :: Decimal.print size) = .ok size
  simp only [parseRdbHeader, parseUnsigned_print hsize]

theorem receiveFullResync_spec (hsound : inbox.Sound) {replicationId : Bytes}
    (hid : IsReplicationId replicationId) {offset : ℕ} (hoffset : offset < 2 ^ 64)
    (hstream : inbox.stream = ascii "+FULLRESYNC " ++ replicationId ++ ascii " " ++
      Decimal.print offset ++ crlf ++ rest) :
    ∃ next, receiveFullResync inbox = pure (⟨replicationId, offset⟩, next) ∧ next.Sound ∧
      next.stream = rest := by
  obtain ⟨next, hread, hnext⟩ :=
    readMasterResponseLine_spec hsound (fun _ => ne_cr_of_mem_fullResync hid) hstream
  refine ⟨next, ?_, hnext⟩
  simp only [receiveFullResync, hread, pure_bind, parseFullResync_sent hid hoffset]
  rfl

theorem receiveRdbPayload_spec (hsound : inbox.Sound) {payload : Bytes}
    (hpayload : payload.length < 2 ^ 64) (hstream : inbox.stream =
      ascii "$" ++ Decimal.print payload.length ++ crlf ++ (payload ++ rest)) :
    ∃ next, receiveRdbPayload inbox = pure (payload, next) ∧ next.Sound ∧ next.stream = rest := by
  have hline : ∀ byte ∈ ascii "$" ++ Decimal.print payload.length, byte ≠ 13 := by
    have hdollar : ∀ byte ∈ ascii "$", byte ≠ 13 := ne_cr_of_all (by decide)
    exact List.forall_mem_append.mpr ⟨hdollar, fun _ => ne_cr_of_mem_print⟩
  obtain ⟨middle, hread, hsound', hstream'⟩ := readMasterResponseLine_spec hsound hline hstream
  have htaken : takeBytes payload.length middle.stream = some (payload, rest) := by
    rw [hstream', takeBytes_append]
  obtain ⟨next, hawait, hnext⟩ := Inbox.await_spec (fromFront_takeBytes _)
    (ascii "Failed to read RDB payload from master")
    (ascii "Master closed the connection while sending RDB payload") hsound' htaken
  refine ⟨next, ?_, hnext⟩
  simp only [receiveRdbPayload, hread, pure_bind, parseRdbHeader_sent hpayload]
  exact hawait

/-! ## The stream of commands -/

/-- What the loop of `consume_replication_stream` has taken from the buffer: the commands
with the bytes they took, and the error that ended it. -/
structure Parsed where
  taken : List (Command × ℕ) := []
  fault : Option ParseError := none
deriving DecidableEq, Repr

/-- The loop without what is done with the commands. -/
def parsingReader : Reader UInt8 Command ParseError Parsed where
  parse := parse
  handle command bytesConsumed parsed :=
    { parsed with taken := parsed.taken ++ [(command, bytesConsumed)] }
  fail fault parsed := { parsed with fault := some fault }
  stopped parsed := parsed.fault.isSome
  stable := stable_parse
  stopped_fail _ _ := rfl

/-- Read what is in the buffer, and again after everything that is received. -/
def consume {State : Type} (reader : Reader UInt8 Command ParseError State)
    (inbox : Inbox UInt8) (state : State) : Bytes × State :=
  (inbox.arrivals.map Arrival.chunk).foldl reader.receive (reader.read inbox.buffer state)

/-- The commands are taken one after the other until one of them ends the loop, and
nothing is left if none does. -/
theorem consume_eq {State : Type} (reader : Reader UInt8 Command ParseError State)
    (hparse : reader.parse = parse) {commands : List Command}
    (hsized : ∀ command ∈ commands, Sized command)
    (hstream : inbox.stream = commands.flatMap serializeCommand) (state : State) :
    (consume reader inbox state).2 =
        commands.foldl (fun state command =>
          if reader.stopped state then state
          else reader.handle command (serializeCommand command).length state) state ∧
      (reader.stopped (consume reader inbox state).2 = false →
        (consume reader inbox state).1 = []) := by
  have hencode : ∀ command ∈ commands, ∀ rest,
      reader.parse (serializeCommand command ++ rest) =
        some (.ok (command, (serializeCommand command).length)) := by
    intro command hcommand rest
    rw [hparse]
    exact parse_serializeCommand (hsized command hcommand) rest
  obtain ⟨hstate, hall⟩ :=
    reader.foldl_receive (inbox.arrivals.map Arrival.chunk) inbox.buffer state
  rw [show inbox.buffer ++ (inbox.arrivals.map Arrival.chunk).flatten =
    commands.flatMap serializeCommand from hstream] at hstate hall
  refine ⟨hstate.trans (Reader.read_flatMap hencode state), fun hrunning => ?_⟩
  rw [consume, hstate] at hrunning
  rw [consume, hall hrunning]
  exact Reader.read_flatMap_running hencode hrunning

theorem foldl_parsed (commands : List Command) (parsed : Parsed) (hrunning : parsed.fault = none) :
    commands.foldl (fun parsed command =>
        if parsingReader.stopped parsed then parsed
        else parsingReader.handle command (serializeCommand command).length parsed) parsed =
      { parsed with
        taken := parsed.taken ++
          commands.map fun command => (command, (serializeCommand command).length) } := by
  induction commands generalizing parsed with
  | nil => simp
  | cons command rest ih =>
    have hstopped : parsingReader.stopped parsed = false := by simp [parsingReader, hrunning]
    rw [List.foldl_cons, hstopped, if_neg Bool.false_ne_true]
    refine (ih (parsingReader.handle command _ parsed) hrunning).trans ?_
    simp [parsingReader]

/-- **The replica recovers what the master has sent**, however the bytes are cut into
pieces and interrupted: the replication id and the offset, the snapshot, and the
commands, each with its number of bytes.  The link applies just these commands, in this
order, until one of them stops it. -/
theorem handshake_recovers {replicationId : Bytes} (hid : IsReplicationId replicationId)
    {offset : ℕ} (hoffset : offset < 2 ^ 64) {payload : Bytes} (hpayload : payload.length < 2 ^ 64)
    {commands : List Command} (hsized : ∀ command ∈ commands, Sized command)
    {arrivals : List (Arrival UInt8)} (hsound : ∀ arrival ∈ arrivals, arrival.Sound)
    (hbytes : (arrivals.map Arrival.chunk).flatten =
      handshakeReplies ++ sendFullResync replicationId offset payload ++
        commands.flatMap serializeCommand) (port : ℕ) :
    ∃ inbox,
      synchronize port (fun _ => none) { arrivals } =
        pure (⟨replicationId, offset⟩, payload, ⟨inbox, handshakeCommands port⟩) ∧
      (consume parsingReader inbox {}).2 =
        { taken := commands.map fun command => (command, (serializeCommand command).length) } ∧
      (consume parsingReader inbox {}).1 = [] ∧
      ((consume parsingReader inbox {}).2.taken.map Prod.snd).sum =
        (commands.flatMap serializeCommand).length ∧
      ∀ host turns link,
        (consumeReplicationStream host turns inbox.buffer (inbox.arrivals.map Arrival.chunk)
            link).2 =
          commands.foldl (fun run command =>
            if run.stopped then run
            else run.handle host command (serializeCommand command).length) ⟨some link, turns⟩ := by
  have hstream : Inbox.stream { arrivals } = handshakeReplies ++
      (ascii "+FULLRESYNC " ++ replicationId ++ ascii " " ++ Decimal.print offset ++ crlf ++
        (ascii "$" ++ Decimal.print payload.length ++ crlf ++
          (payload ++ commands.flatMap serializeCommand))) := by
    rw [Inbox.stream, hbytes]
    simp [sendFullResync]
  have hsound₀ : Inbox.Sound { arrivals } := hsound
  obtain ⟨greeted, hgreeted, hsound₁, hstream₁⟩ :=
    performReplicationHandshake_spec hsound₀ port hstream
  obtain ⟨resynced, hresynced, hsound₂, hstream₂⟩ :=
    receiveFullResync_spec hsound₁ hid hoffset hstream₁
  obtain ⟨inbox, hloaded, -, hstream₃⟩ := receiveRdbPayload_spec hsound₂ hpayload hstream₂
  obtain ⟨hloop, hempty⟩ := consume_eq parsingReader rfl hsized hstream₃ {}
  have hparsed : (consume parsingReader inbox {}).2 =
      { taken := commands.map fun command => (command, (serializeCommand command).length) } := by
    rw [hloop, foldl_parsed commands {} rfl]
    rfl
  refine ⟨inbox, ?_, hparsed, hempty (by rw [hparsed]; rfl), ?_, fun host turns link => ?_⟩
  · simp only [synchronize, hgreeted, hresynced, hloaded, pure_bind]
  · rw [hparsed, List.length_flatMap, List.map_map]
    rfl
  · exact (consume_eq (linkReader host) rfl hsized hstream₃ _).1

/-- The bytes of a whole session with the snapshot of the source and one command. -/
def sampleSession : Bytes :=
  handshakeReplies ++ sendFullResync (List.replicate 40 97) 7 emptyRdbPayload ++
    [[ascii "INCR", ascii "a"]].flatMap serializeCommand

/-- The first piece ends inside a line, the second inside the snapshot. -/
def sampleArrivals : List (Arrival UInt8) :=
  [.bytes (sampleSession.take 3), .interrupted, .bytes ((sampleSession.drop 3).take 80),
    .bytes (sampleSession.drop 83)]

theorem handshake_recovers_sample :
    ∃ inbox, synchronize 6380 (fun _ => none) { arrivals := sampleArrivals } =
        pure (⟨List.replicate 40 97, 7⟩, emptyRdbPayload, ⟨inbox, handshakeCommands 6380⟩) ∧
      (consume parsingReader inbox {}).2.taken = [([ascii "INCR", ascii "a"], 21)] := by
  have hid : IsReplicationId (List.replicate 40 97) := ⟨by simp, by simp [isHexDigit]⟩
  have hpayload : emptyRdbPayload.length < 2 ^ 64 := by decide
  have hsized : ∀ command ∈ [[ascii "INCR", ascii "a"]], Sized command := by decide
  have hsound : ∀ arrival ∈ sampleArrivals, arrival.Sound := by
    have hpieces : sampleSession.take 3 ≠ [] ∧ (sampleSession.drop 3).take 80 ≠ [] ∧
        sampleSession.drop 83 ≠ [] := by decide +kernel
    simpa [sampleArrivals, Arrival.Sound] using hpieces
  have hbytes : (sampleArrivals.map Arrival.chunk).flatten = sampleSession := by decide +kernel
  have hoffset : 7 < 2 ^ 64 := by norm_num
  obtain ⟨inbox, hsynchronize, hconsumed, -⟩ :=
    handshake_recovers hid hoffset hpayload hsized hsound hbytes 6380
  refine ⟨inbox, hsynchronize, ?_⟩
  rw [hconsumed]
  decide +kernel

end RedisServer.Server
