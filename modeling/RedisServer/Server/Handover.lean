import RedisServer.Resp.Grammar
import RedisServer.Server.Gate

/-!
# The handover of a connection to the replication code

A `PSYNC` of three words ends the loop of `handle_connection`.  The connection goes on in
`consume_replica_acknowledgements`, which receives into a buffer of its own.  Whatever the
first loop has received behind the `PSYNC` stays behind in the first buffer.

So it matters where the stream is cut into pieces.  Every acknowledgement is noted exactly if
there is a cut right behind the `PSYNC` (`acknowledgements_kept_iff`); otherwise the second
loop begins late, at a later acknowledgement or inside of one, where it finds no command.

The connection stays open and the full resynchronisation is sent.
-/

namespace RedisServer.Server

open Resp Framing Commands

/-! ## The two loops -/

/-- What `recv` returns from an open connection. -/
structure Chunk where
  bytes : Bytes
  nonempty : bytes ≠ []
  fits : bytes.length ≤ 1024

/-- What the loop of `consume_replica_acknowledgements` has done: the offsets it has
reported with `acknowledge_replica`, and the error that it has returned. -/
structure Acknowledgements where
  acknowledged : List ℕ := []
  failure : Option Bytes := none
deriving DecidableEq, Repr

/-- One complete command of the replica. -/
def Acknowledgements.handleCommand (command : Command) (state : Acknowledgements) :
    Acknowledgements :=
  match command with
  | [name, kind, offsetText] =>
    if name ≠ ascii "REPLCONF" ∨ kind ≠ ascii "ACK" then
      { state with failure := some (ascii "Expected REPLCONF ACK from replica") }
    else
      match parseUnsigned offsetText with
      | none => { state with failure := some (ascii "Invalid replication offset in replica ACK") }
      | some offset => { state with acknowledged := state.acknowledged ++ [offset] }
  | _ => { state with failure := some (ascii "Expected REPLCONF ACK from replica") }

def acknowledgementReader : Reader UInt8 Command ParseError Acknowledgements where
  parse := parse
  handle command _ state := state.handleCommand command
  fail error state :=
    { state with failure := some (ascii "Invalid response from replica: " ++ error.message) }
  stopped state := state.failure.isSome
  stable := stable_parse
  stopped_fail _ _ := rfl

def consumeReplicaAcknowledgements (chunks : List Chunk) : Acknowledgements :=
  ((chunks.map Chunk.bytes).foldl acknowledgementReader.receive ([], {})).2

/-- `handle_connection` over what `recv` returns: the loop for a client with its buffer, and
once a `PSYNC` has arrived, the loop for a replica over the chunks that are still to come. -/
def serveConnection : List Chunk → Bytes × Connection → Connection × Option Acknowledgements
  | [], (_, connection) => (connection, none)
  | chunk :: rest, state =>
    let state := connectionReader.receive state chunk.bytes
    if state.2.status = .replicating then (state.2, some (consumeReplicaAcknowledgements rest))
    else serveConnection rest state

/-- The calls of `acknowledge_replica` that a new connection leads to. -/
def acknowledgeCalls (chunks : List Chunk) : List ℕ :=
  ((serveConnection chunks ([], {})).2.map Acknowledgements.acknowledged).getD []

/-! ## The stream -/

/-- Some commands, a `PSYNC` of three words, and the acknowledgements behind it.  Every
command is in one of the encodings that the parser accepts. -/
structure ReplicaStream where
  opening : List Frame
  psync : Frame
  acks : List (Frame × ℕ)
  serves : ∀ frame ∈ opening, startsReplication frame.command = false
  starts : startsReplication psync.command = true
  acknowledges : ∀ ack ∈ acks, acknowledgedOffset ack.1.command = some ack.2

namespace ReplicaStream

/-- The stream up to the end of the `PSYNC`. -/
def front (stream : ReplicaStream) : Bytes :=
  stream.opening.flatMap Frame.bytes ++ stream.psync.bytes

def tail (stream : ReplicaStream) : Bytes := stream.acks.flatMap fun ack => ack.1.bytes

def bytes (stream : ReplicaStream) : Bytes := stream.front ++ stream.tail

def offsets (stream : ReplicaStream) : List ℕ := stream.acks.map Prod.snd

end ReplicaStream

theorem parse_frame (frame : Frame) (rest : Bytes) :
    parse (frame.bytes ++ rest) = some (.ok (frame.command, frame.bytes.length)) :=
  congrArg ParseOutcome.verdict (parseCommand_frame frame rest)

/-! ## The loop for a client -/

theorem stopped_of_replicating {connection : Connection} (h : connection.status = .replicating) :
    connectionReader.stopped connection = true := by
  simp [connectionReader, h]

/-- The commands before the `PSYNC` are submitted. -/
theorem read_opening {frames : List Frame}
    (hserves : ∀ frame ∈ frames, startsReplication frame.command = false) (rest : Bytes) :
    ∃ connection : Connection, connection.status = .reading ∧
      connectionReader.read (frames.flatMap Frame.bytes ++ rest) {} =
        connectionReader.read rest connection := by
  have hread := @Reader.read_items UInt8 Command ParseError Connection {} connectionReader Frame
    Frame.bytes Frame.command (fun connection => connection.status = .reading)
    (fun connection hreading => by simp [connectionReader, hreading]) frames
    (fun frame _ rest => parse_frame frame rest)
    (fun frame hframe connection hreading => by
      simp only [connectionReader, Connection.handleCommand, hserves frame hframe]
      exact hreading)
    rfl rest
  exact ⟨_, hread⟩

/-- Before the end of the `PSYNC` the connection is that of a client. -/
theorem status_before (stream : ReplicaStream) {part : Bytes} (hpart : part <+: stream.front)
    (hshort : part.length < stream.front.length) :
    (connectionReader.read part {}).2.status = .reading := by
  have hframes : stream.front = (stream.opening ++ [stream.psync]).flatMap Frame.bytes := by
    simp [ReplicaStream.front]
  rw [hframes] at hpart hshort
  obtain ⟨done, rest, piece, hsplit, rfl, hpiece⟩ := cut_flatMap hpart
  have hrest : rest ≠ [] := by
    rintro rfl
    rw [hsplit, List.append_nil, List.length_append] at hshort
    omega
  have hdone : done <+: stream.opening := by
    obtain ⟨others, last, rfl⟩ : ∃ others last, rest = others ++ [last] :=
      ⟨_, _, (List.dropLast_append_getLast hrest).symm⟩
    rw [← List.append_assoc] at hsplit
    exact ⟨others, (List.append_inj_left' hsplit rfl).symm⟩
  have hincomplete : parse piece = none := by
    rcases hpiece with rfl | ⟨next, more, -, -, hfront, hcut⟩
    · exact stable_parse.empty
    · have hparse := parse_frame next []
      rw [List.append_nil] at hparse
      exact stable_parse.incomplete_of_prefix hparse hfront hcut
  obtain ⟨connection, hreading, hread⟩ := read_opening
    (fun frame hframe => stream.serves frame (hdone.subset hframe)) piece
  rw [hread, Reader.read_incomplete hincomplete]
  exact hreading

/-- With its end the connection is handed over, whatever has arrived behind it. -/
theorem status_behind (stream : ReplicaStream) (lost : Bytes) :
    (connectionReader.read (stream.front ++ lost) {}).2.status = .replicating := by
  obtain ⟨connection, hreading, hread⟩ := read_opening stream.serves (stream.psync.bytes ++ lost)
  have hrunning : connectionReader.stopped connection = false := by
    simp [connectionReader, hreading]
  have hhandled : connectionReader.handle stream.psync.command stream.psync.bytes.length
      connection = { connection with status := .replicating } := by
    simp [connectionReader, Connection.handleCommand, stream.starts]
  have hstopped : connectionReader.stopped { connection with status := .replicating } = true :=
    stopped_of_replicating rfl
  rw [ReplicaStream.front, List.append_assoc, hread,
    Reader.read_frame hrunning (parse_frame stream.psync lost), hhandled,
    Reader.read_stopped hstopped]

theorem foldl_receive_eq (chunks : List Chunk) :
    ((chunks.map Chunk.bytes).foldl connectionReader.receive ([], {})).2 =
      (connectionReader.read (chunks.map Chunk.bytes).flatten {}).2 :=
  (connectionReader.foldl_receive (chunks.map Chunk.bytes) [] {}).1

/-- Nothing is handed over while the connection is that of a client. -/
theorem serveConnection_append {done : List Chunk} (rest : List Chunk)
    {state : Bytes × Connection}
    (h : ((done.map Chunk.bytes).foldl connectionReader.receive state).2.status ≠ .replicating) :
    serveConnection (done ++ rest) state =
      serveConnection rest ((done.map Chunk.bytes).foldl connectionReader.receive state) := by
  induction done generalizing state with
  | nil => rfl
  | cons chunk done ih =>
    have hstatus : (connectionReader.receive state chunk.bytes).2.status ≠ .replicating := by
      intro hreplicating
      rw [List.map_cons, List.foldl_cons,
        Reader.foldl_receive_stopped (stopped_of_replicating hreplicating)] at h
      exact h hreplicating
    rw [List.cons_append, serveConnection, if_neg hstatus]
    exact ih h

/-- **The handover.**  The second loop gets the chunks behind the one that completes the
`PSYNC`, and what that one has behind the `PSYNC` is lost. -/
theorem acknowledgeCalls_eq (stream : ReplicaStream) {done rest : List Chunk} {last : Chunk}
    {lost : Bytes} (hbefore : (done.map Chunk.bytes).flatten.length < stream.front.length)
    (hlast : (done.map Chunk.bytes).flatten ++ last.bytes = stream.front ++ lost) :
    acknowledgeCalls (done ++ last :: rest) =
      (consumeReplicaAcknowledgements rest).acknowledged := by
  have hpart : (done.map Chunk.bytes).flatten <+: stream.front :=
    List.prefix_of_prefix_length_le ⟨last.bytes, hlast⟩ (List.prefix_append _ _) hbefore.le
  have hreading : ((done.map Chunk.bytes).foldl connectionReader.receive ([], {})).2.status =
      .reading := by
    rw [foldl_receive_eq]
    exact status_before stream hpart hbefore
  have hreplicating : (connectionReader.receive
      ((done.map Chunk.bytes).foldl connectionReader.receive ([], {})) last.bytes).2.status =
        .replicating := by
    have hfold := foldl_receive_eq (done ++ [last])
    rw [List.map_append, List.foldl_append, List.flatten_append] at hfold
    have hflat : ([last].map Chunk.bytes).flatten = last.bytes := by simp
    rw [hflat, hlast] at hfold
    exact hfold ▸ status_behind stream lost
  rw [acknowledgeCalls, serveConnection_append _ (by rw [hreading]; decide), serveConnection,
    if_pos hreplicating]
  rfl

/-! ## The loop for a replica -/

theorem handleCommand_ack {command : Command} {offset : ℕ}
    (h : acknowledgedOffset command = some offset) (state : Acknowledgements) :
    state.handleCommand command =
      { state with acknowledged := state.acknowledged ++ [offset] } := by
  unfold acknowledgedOffset at h
  split at h
  · rename_i name kind offsetText
    split at h
    · rename_i hnames
      obtain ⟨rfl, rfl⟩ := hnames
      have hreplconf : CommandName.replconf.text = ascii "REPLCONF" := by decide
      simp only [Acknowledgements.handleCommand, hreplconf, ne_eq, not_true_eq_false, or_self,
        if_false, h]
    · cases h
  · cases h

/-- The acknowledgements at the front of the buffer are reported in their order. -/
theorem read_acks {acks : List (Frame × ℕ)}
    (hacks : ∀ ack ∈ acks, acknowledgedOffset ack.1.command = some ack.2) :
    (acknowledgementReader.read (acks.flatMap fun ack => ack.1.bytes) {}).2.acknowledged =
      acks.map Prod.snd := by
  have hhandled : ∀ state : Acknowledgements, acks.foldl (fun state ack =>
      acknowledgementReader.handle ack.1.command ack.1.bytes.length state) state =
        { state with acknowledged := state.acknowledged ++ acks.map Prod.snd } := by
    intro state
    induction acks generalizing state with
    | nil => simp
    | cons ack acks ih =>
      have hack : acknowledgementReader.handle ack.1.command ack.1.bytes.length state =
          { state with acknowledged := state.acknowledged ++ [ack.2] } :=
        handleCommand_ack (hacks ack (by simp)) state
      rw [List.foldl_cons, hack, ih (fun other hother => hacks other (by simp [hother]))]
      simp
  have hread := (@Reader.read_items UInt8 Command ParseError Acknowledgements
    {} acknowledgementReader (Frame × ℕ) (fun ack => ack.1.bytes) (fun ack => ack.1.command)
    (fun state => state.failure = none)
    (fun state hrunning => by simp [acknowledgementReader, hrunning]) acks
    (fun ack _ rest => parse_frame ack.1 rest)
    (fun ack hack state hrunning => by
      have hhandle : acknowledgementReader.handle ack.1.command ack.1.bytes.length state =
          { state with acknowledged := state.acknowledged ++ [ack.2] } :=
        handleCommand_ack (hacks ack hack) state
      rw [hhandle]
      exact hrunning)
    rfl []).2
  rw [List.append_nil, hhandled] at hread
  rw [hread, Reader.read_incomplete stable_parse.empty]
  rfl

/-- A command begins with a star. -/
theorem head_of_parse {input : Bytes} {outcome : Command × ℕ}
    (h : parse input = some (.ok outcome)) : input.head? = some 42 := by
  have hresult : parseCommand input = .result outcome.1 outcome.2 := verdict_injective h
  cases input with
  | nil => cases hresult
  | cons byte rest =>
    simp only [parseCommand] at hresult
    split at hresult
    · cases hresult
    · rename_i hstar
      simpa using hstar

/-- Where no command begins, nothing is reported. -/
theorem read_astray {input : Bytes} (h : input.head? ≠ some 42) :
    (acknowledgementReader.read input {}).2.acknowledged = [] := by
  have hrunning : acknowledgementReader.stopped {} = false := rfl
  cases hparse : parse input with
  | none => rw [Reader.read_incomplete hparse]
  | some outcome =>
    cases outcome with
    | error fault =>
      rw [Reader.read_fault hrunning hparse]
      rfl
    | ok frame => exact absurd (head_of_parse hparse) h

/-- An acknowledgement has its star at its beginning only. -/
theorem star_not_mem_tail {frame : Frame} {offset : ℕ}
    (h : acknowledgedOffset frame.command = some offset) : 42 ∉ frame.bytes.tail := by
  have hdigits : ∀ {digits : Bytes} {n : ℕ}, Numeral digits n → 42 ∉ digits := fun hnumeral hmem =>
    absurd (hnumeral.isDigit 42 hmem).1 (by decide)
  have hwords : ∀ word ∈ frame.command, 42 ∉ word := by
    unfold acknowledgedOffset at h
    split at h
    · rename_i name kind offsetText hcommand
      split at h
      · rename_i hnames
        obtain ⟨rfl, rfl⟩ := hnames
        intro word hword
        rw [hcommand] at hword
        simp only [List.mem_cons, List.not_mem_nil, or_false] at hword
        rcases hword with rfl | rfl | rfl
        · decide
        · decide
        · exact hdigits (parseUnsigned_eq_some.mp h)
      · cases h
    · cases h
  have hgroups : ∀ item ∈ frame.groups, 42 ∉ group item.1 item.2 := by
    intro item hitem hmem
    have hlength := hdigits (frame.lengths item hitem)
    have hvalue := hwords item.2 (List.mem_map_of_mem hitem)
    simp only [group, List.cons_append, List.mem_cons, List.mem_append] at hmem
    rcases hmem with hmem | ((hmem | hmem) | hmem) | hmem
    · exact absurd hmem (by decide)
    · exact hlength hmem
    · exact absurd hmem (by decide)
    · exact hvalue hmem
    · exact absurd hmem (by decide)
  intro hmem
  simp only [Frame.bytes, List.cons_append, List.tail_cons, List.mem_append, List.mem_flatMap]
    at hmem
  rcases hmem with (hmem | hmem) | ⟨item, hitem, hmem⟩
  · exact hdigits frame.count hmem
  · exact absurd hmem (by decide)
  · exact hgroups item hitem hmem

/-- **What is lost is missed.**  The second loop reports all offsets exactly if it begins
with the first acknowledgement. -/
theorem read_behind_iff (stream : ReplicaStream) {lost kept : Bytes}
    (h : stream.tail = lost ++ kept) :
    (acknowledgementReader.read kept {}).2.acknowledged = stream.offsets ↔ lost = [] := by
  constructor
  · intro hall
    by_contra hlost
    have hfront : lost <+: stream.acks.flatMap fun ack => ack.1.bytes := ⟨kept, h.symm⟩
    obtain ⟨done, rest, part, hacks, hcut, hpart⟩ := cut_flatMap hfront
    have hkept : part ++ kept = rest.flatMap fun ack => ack.1.bytes := by
      rw [ReplicaStream.tail, hacks, List.flatMap_append, hcut, List.append_assoc,
        List.append_cancel_left_eq] at h
      exact h.symm
    have hmem : ∀ ack ∈ rest, ack ∈ stream.acks := fun ack hack => by simp [hacks, hack]
    rcases hpart with rfl | ⟨next, more, rfl, hne, ⟨piece, hpiece⟩, hshort⟩
    · -- it begins with a later one
      have hread := read_acks fun ack hack => stream.acknowledges ack (hmem ack hack)
      rw [List.nil_append] at hkept
      rw [← hkept, hall, ReplicaStream.offsets, hacks] at hread
      have hlength := congrArg List.length hread
      have hdone : done ≠ [] := by
        rintro rfl
        exact hlost hcut
      have hpos := List.length_pos_of_ne_nil hdone
      simp only [List.length_map, List.length_append] at hlength
      omega
    · -- it begins inside of one
      rw [List.flatMap_cons, ← hpiece, List.append_assoc, List.append_cancel_left_eq] at hkept
      have hstar : kept.head? ≠ some 42 := by
        have hpiecene : piece ≠ [] := by
          rintro rfl
          rw [← hpiece, List.append_nil] at hshort
          exact Nat.lt_irrefl _ hshort
        obtain ⟨first, others, rfl⟩ := List.exists_cons_of_ne_nil hpiecene
        obtain ⟨star, front, rfl⟩ := List.exists_cons_of_ne_nil hne
        have htail := star_not_mem_tail (stream.acknowledges next (hmem next (by simp)))
        rw [← hpiece] at htail
        intro hhead
        rw [hkept] at hhead
        obtain rfl : first = 42 := by simpa using hhead
        exact htail (by simp)
      rw [read_astray hstar, ReplicaStream.offsets, hacks] at hall
      simp at hall
  · rintro rfl
    rw [List.nil_append] at h
    rw [← h]
    exact read_acks stream.acknowledges

theorem consumeReplicaAcknowledgements_eq (chunks : List Chunk) :
    consumeReplicaAcknowledgements chunks =
      (acknowledgementReader.read (chunks.map Chunk.bytes).flatten {}).2 :=
  (acknowledgementReader.foldl_receive (chunks.map Chunk.bytes) [] {}).1

/-- **Bytes behind a `PSYNC` are kept exactly if it ends a chunk.**  The acknowledgements in
the stream are all reported, each once and in their order, if and only if some number of
chunks holds the stream up to the end of the `PSYNC` and nothing more. -/
theorem acknowledgements_kept_iff (stream : ReplicaStream) {chunks : List Chunk}
    (hchunks : (chunks.map Chunk.bytes).flatten = stream.bytes) :
    acknowledgeCalls chunks = stream.offsets ↔
      ∃ count, ((chunks.take count).map Chunk.bytes).flatten = stream.front := by
  have hfront : stream.front ≠ [] := by simp [ReplicaStream.front, Frame.bytes]
  obtain ⟨done, last, rest, lost, rfl, hbefore, hlast, htail⟩ := exists_completing hfront hchunks
  rw [acknowledgeCalls_eq stream hbefore hlast, consumeReplicaAcknowledgements_eq,
    read_behind_iff stream htail]
  constructor
  · rintro rfl
    refine ⟨done.length + 1, ?_⟩
    have htake : (done ++ last :: rest).take (done.length + 1) = done ++ [last] := by
      rw [List.take_append, List.take_of_length_le (by omega)]
      simp
    rw [htake, List.map_append, List.flatten_append]
    simpa using hlast
  · rintro ⟨count, hcount⟩
    have hlengths := congrArg List.length hlast
    rw [List.length_append, List.length_append] at hlengths
    rcases Nat.lt_or_ge done.length count with hmore | hless
    · -- the chunks up to the last one are among the first ones
      obtain ⟨extra, rfl⟩ := Nat.exists_eq_add_of_lt hmore
      have htake : (done ++ last :: rest).take (done.length + extra + 1) =
          done ++ last :: rest.take extra := by
        rw [List.take_append, List.take_of_length_le (by omega),
          show done.length + extra + 1 - done.length = extra + 1 by omega, List.take_succ_cons]
      rw [htake, List.map_append, List.flatten_append, List.map_cons, List.flatten_cons,
        ← List.append_assoc, hlast, List.append_assoc] at hcount
      have hlong := congrArg List.length hcount
      simp only [List.length_append] at hlong
      exact List.eq_nil_of_length_eq_zero (by omega)
    · have htake : (done ++ last :: rest).take count = done.take count :=
        List.take_append_of_le_length hless
      have hsub : ((done.take count).map Chunk.bytes).flatten.length ≤
          (done.map Chunk.bytes).flatten.length := by
        obtain ⟨others, hothers⟩ := List.take_prefix count done
        nth_rewrite 2 [← hothers]
        rw [List.map_append, List.flatten_append, List.length_append]
        omega
      rw [htake] at hcount
      rw [hcount] at hsub
      omega

/-- A `PSYNC`, and two acknowledgements behind it. -/
def eagerReplica : ReplicaStream where
  opening := [.ofCommand [ascii "PING"] ⟨by decide, by decide⟩]
  psync := .ofCommand [ascii "PSYNC", ascii "?", ascii "-1"] ⟨by decide, by decide⟩
  acks := [(.ofCommand [ascii "REPLCONF", ascii "ACK", ascii "0"] ⟨by decide, by decide⟩, 0),
    (.ofCommand [ascii "REPLCONF", ascii "ACK", ascii "31"] ⟨by decide, by decide⟩, 31)]
  serves := by simp [Frame.command_ofCommand, startsReplication]
  starts := by simp [Frame.command_ofCommand, startsReplication]; decide
  acknowledges := by
    simp only [List.mem_cons, List.not_mem_nil, or_false, forall_eq_or_imp, forall_eq,
      Frame.command_ofCommand]
    decide

/-- If all of it arrives at once, neither acknowledgement is reported. -/
theorem acknowledgements_lost :
    ∃ chunk : Chunk, chunk.bytes = eagerReplica.bytes ∧ acknowledgeCalls [chunk] = [] ∧
      eagerReplica.offsets = [0, 31] := by
  refine ⟨⟨eagerReplica.bytes, by decide +kernel, by decide +kernel⟩, rfl, ?_, rfl⟩
  decide +kernel

/-- With a cut behind the `PSYNC` both are, wherever else there are cuts. -/
theorem acknowledgements_kept_cut :
    ∃ first second third : Chunk,
      ([first, second, third].map Chunk.bytes).flatten = eagerReplica.bytes ∧
      acknowledgeCalls [first, second, third] = [0, 31] := by
  have hsplit : [eagerReplica.front, eagerReplica.tail.take 7, eagerReplica.tail.drop 7].flatten =
      eagerReplica.bytes := by decide +kernel
  let first : Chunk := ⟨eagerReplica.front, by decide +kernel, by decide +kernel⟩
  let second : Chunk := ⟨eagerReplica.tail.take 7, by decide +kernel, by decide +kernel⟩
  let third : Chunk := ⟨eagerReplica.tail.drop 7, by decide +kernel, by decide +kernel⟩
  have hchunks : ([first, second, third].map Chunk.bytes).flatten = eagerReplica.bytes := hsplit
  exact ⟨first, second, third, hchunks,
    (acknowledgements_kept_iff eagerReplica hchunks).mpr ⟨1, by simp [first]⟩⟩

end RedisServer.Server
