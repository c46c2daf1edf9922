import Mathlib.Data.List.Basic

/-!
# Reading frames from a growing buffer

A reader keeps the bytes it has received in a buffer.  Whenever more arrive it
parses frames from the front of the buffer, one after the other, until what is
left is the beginning of a frame at most.  It parses from scratch each time, and
it may stop for good, because the input is malformed or because a frame says so.

The parser has to be *stable*: once it has a verdict on an input, more bytes do
not change it.  Then the way the input was cut into pieces does not matter
(`Reader.foldl_receive`), and an input that consists of encoded frames is read as
these frames (`Reader.read_flatMap`).
-/

namespace Framing

variable {Byte Frame Fault State : Type*} {state : State} {buffer front : List Byte}
  {encode : Frame → List Byte} {frames : List Frame}

/-- A parser for the frame at the front of an input: no verdict yet, a fault, or
a frame and the number of bytes it takes. -/
abbrev Parser (Byte Frame Fault : Type*) := List Byte → Option (Except Fault (Frame × ℕ))

/-- The verdict on an input does not change when bytes are appended to it. -/
structure Stable (parse : Parser Byte Frame Fault) : Prop where
  empty : parse [] = none
  consumed : ∀ {input frame count}, parse input = some (.ok (frame, count)) →
    0 < count ∧ count ≤ input.length
  append : ∀ {input outcome}, parse input = some outcome →
    ∀ rest, parse (input ++ rest) = some outcome

/-- Less than the bytes of a frame is not enough for a verdict. -/
theorem Stable.incomplete_of_prefix {parse : Parser Byte Frame Fault} (stable : Stable parse)
    {input : List Byte} {frame : Frame} {count : ℕ}
    (hparse : parse input = some (.ok (frame, count))) (hfront : front <+: input)
    (hshort : front.length < count) : parse front = none := by
  obtain ⟨rest, rfl⟩ := hfront
  cases hverdict : parse front with
  | none => rfl
  | some outcome =>
    -- The verdict on the beginning would be the one on the whole input.
    have hsame := stable.append hverdict rest
    rw [hparse] at hsame
    obtain rfl := Option.some.inj hsame
    have hcount := (stable.consumed hverdict).2
    omega

/-- Where an input made of encoded frames is cut off: between two of them, or
inside one. -/
theorem cut_flatMap (h : front <+: frames.flatMap encode) :
    ∃ done rest part, frames = done ++ rest ∧ front = done.flatMap encode ++ part ∧
      (part = [] ∨ ∃ next more, rest = next :: more ∧ part ≠ [] ∧ part <+: encode next ∧
        part.length < (encode next).length) := by
  induction frames generalizing front with
  | nil => exact ⟨[], [], [], rfl, by simpa using h, .inl rfl⟩
  | cons frame frames ih =>
    rw [List.flatMap_cons] at h
    rcases Nat.lt_or_ge front.length (encode frame).length with hshort | hlong
    · have hfront : front <+: encode frame :=
        List.prefix_of_prefix_length_le h (List.prefix_append _ _) (by omega)
      refine ⟨[], frame :: frames, front, rfl, by simp, ?_⟩
      by_cases hempty : front = []
      · exact .inl hempty
      · exact .inr ⟨frame, frames, rfl, hempty, hfront, hshort⟩
    · obtain ⟨tail, rfl⟩ : encode frame <+: front :=
        List.prefix_of_prefix_length_le (List.prefix_append _ _) h hlong
      obtain ⟨done, rest, part, rfl, rfl, hpart⟩ := ih ((List.prefix_append_right_inj _).mp h)
      exact ⟨frame :: done, rest, part, rfl, by simp, hpart⟩

/-- The piece of an input with which its front is complete, and what that piece has behind
the front. -/
theorem exists_completing {Piece : Type*} {content : Piece → List Byte} {pieces : List Piece}
    {tail : List Byte} (hfront : front ≠ []) (h : (pieces.map content).flatten = front ++ tail) :
    ∃ done last rest behind, pieces = done ++ last :: rest ∧
      (done.map content).flatten.length < front.length ∧
      (done.map content).flatten ++ content last = front ++ behind ∧
      tail = behind ++ (rest.map content).flatten := by
  induction pieces generalizing front with
  | nil =>
    have hempty : front ++ tail = [] := h.symm
    exact absurd (List.append_eq_nil_iff.mp hempty).1 hfront
  | cons piece pieces ih =>
    rw [List.map_cons, List.flatten_cons] at h
    rcases Nat.lt_or_ge (content piece).length front.length with hshort | hlong
    · obtain ⟨front', rfl⟩ : content piece <+: front :=
        List.prefix_of_prefix_length_le ⟨_, h⟩ (List.prefix_append _ _) (Nat.le_of_lt hshort)
      rw [List.append_assoc, List.append_cancel_left_eq] at h
      have hfront' : front' ≠ [] := by
        rintro rfl
        simp at hshort
      obtain ⟨done, last, rest, behind, rfl, hbefore, hlast, htail⟩ := ih hfront' h
      refine ⟨piece :: done, last, rest, behind, rfl, ?_, ?_, htail⟩
      · simp only [List.map_cons, List.flatten_cons, List.length_append]
        omega
      · rw [List.map_cons, List.flatten_cons, List.append_assoc, hlast, List.append_assoc]
    · obtain ⟨behind, hpiece⟩ : front <+: content piece :=
        List.prefix_of_prefix_length_le (List.prefix_append _ _) ⟨_, h⟩ hlong
      rw [← hpiece, List.append_assoc, List.append_cancel_left_eq] at h
      exact ⟨[], piece, pieces, behind, rfl, by simpa using List.length_pos_of_ne_nil hfront,
        hpiece.symm, h.symm⟩

/-- What is done with frames and faults, and when reading is over. -/
structure Reader (Byte Frame Fault State : Type*) where
  parse : Parser Byte Frame Fault
  handle : Frame → ℕ → State → State
  fail : Fault → State → State
  stopped : State → Bool
  stable : Stable parse
  stopped_fail : ∀ fault state, stopped (fail fault state) = true

namespace Reader

variable (reader : Reader Byte Frame Fault State)

/-- The loop over the frames in the buffer.  A frame takes at least one byte, so
the length of the buffer is fuel enough. -/
def drain : ℕ → List Byte → State → List Byte × State
  | 0, buffer, state => (buffer, state)
  | fuel + 1, buffer, state =>
    if reader.stopped state then (buffer, state)
    else
      match reader.parse buffer with
      | none => (buffer, state)
      | some (.error fault) => (buffer, reader.fail fault state)
      | some (.ok (frame, count)) =>
        drain fuel (buffer.drop count) (reader.handle frame count state)

/-- Read all frames in the buffer. -/
def read (buffer : List Byte) (state : State) : List Byte × State :=
  reader.drain buffer.length buffer state

/-- More bytes arrive. -/
def receive (connection : List Byte × State) (chunk : List Byte) : List Byte × State :=
  if reader.stopped connection.2 then connection
  else reader.read (connection.1 ++ chunk) connection.2

variable {reader}

theorem drain_nil (fuel : ℕ) (state : State) : reader.drain fuel [] state = ([], state) := by
  cases fuel with
  | zero => rfl
  | succ fuel =>
    simp only [drain, reader.stable.empty]
    split <;> rfl

/-- Fuel beyond the length of the buffer is inert. -/
theorem drain_eq_of_le {fuel larger : ℕ} (hfuel : buffer.length ≤ fuel)
    (hlarger : buffer.length ≤ larger) (state : State) :
    reader.drain fuel buffer state = reader.drain larger buffer state := by
  induction fuel generalizing larger buffer state with
  | zero =>
    obtain rfl := List.eq_nil_of_length_eq_zero (Nat.le_zero.mp hfuel)
    rw [drain_nil, drain_nil]
  | succ fuel ih =>
    cases larger with
    | zero =>
      obtain rfl := List.eq_nil_of_length_eq_zero (Nat.le_zero.mp hlarger)
      rw [drain_nil, drain_nil]
    | succ larger =>
      simp only [drain]
      split
      · rfl
      · cases hparse : reader.parse buffer with
        | none => rfl
        | some outcome =>
          rcases outcome with fault | ⟨frame, count⟩
          · rfl
          · have hconsumed := reader.stable.consumed hparse
            have hdrop : (buffer.drop count).length = buffer.length - count :=
              List.length_drop
            exact ih (by omega) (by omega) _

/-- One turn of the loop, without its fuel. -/
theorem read_eq (buffer : List Byte) (state : State) :
    reader.read buffer state =
      if reader.stopped state then (buffer, state)
      else
        match reader.parse buffer with
        | none => (buffer, state)
        | some (.error fault) => (buffer, reader.fail fault state)
        | some (.ok (frame, count)) =>
          reader.read (buffer.drop count) (reader.handle frame count state) := by
  have hmore : reader.read buffer state = reader.drain (buffer.length + 1) buffer state :=
    drain_eq_of_le (Nat.le_refl _) (Nat.le_succ _) state
  rw [hmore, drain]
  split
  · rfl
  · cases hparse : reader.parse buffer with
    | none => rfl
    | some outcome =>
      rcases outcome with fault | ⟨frame, count⟩
      · rfl
      · have hdrop : (buffer.drop count).length = buffer.length - count := List.length_drop
        exact drain_eq_of_le (by omega) (Nat.le_refl _) _

theorem read_stopped (hstopped : reader.stopped state = true)
    (buffer : List Byte) : reader.read buffer state = (buffer, state) := by
  rw [read_eq, if_pos hstopped]

theorem read_incomplete (hparse : reader.parse buffer = none)
    (state : State) : reader.read buffer state = (buffer, state) := by
  rw [read_eq, hparse]
  split <;> rfl

theorem read_fault {fault : Fault} (hstopped : reader.stopped state = false)
    (hparse : reader.parse buffer = some (.error fault)) :
    reader.read buffer state = (buffer, reader.fail fault state) := by
  rw [read_eq, hparse, hstopped]
  rfl

theorem read_frame {frame : Frame} {count : ℕ} (hstopped : reader.stopped state = false)
    (hparse : reader.parse buffer = some (.ok (frame, count))) :
    reader.read buffer state =
      reader.read (buffer.drop count) (reader.handle frame count state) := by
  rw [read_eq, hparse, hstopped]
  rfl

/-- An induction along the loop: what holds when it ends, and is carried back
over a frame, holds from the start. -/
theorem read_induction {Holds : List Byte → State → Prop}
    (stopped : ∀ buffer state, reader.stopped state = true → Holds buffer state)
    (incomplete : ∀ buffer state, reader.parse buffer = none → Holds buffer state)
    (fault : ∀ buffer state fault, reader.stopped state = false →
      reader.parse buffer = some (.error fault) → Holds buffer state)
    (frame : ∀ buffer state frame count, reader.stopped state = false →
      reader.parse buffer = some (.ok (frame, count)) →
      Holds (buffer.drop count) (reader.handle frame count state) → Holds buffer state)
    (buffer : List Byte) (state : State) : Holds buffer state := by
  induction hlength : buffer.length using Nat.strongRecOn generalizing buffer state with
  | _ length ih =>
    cases hstopped : reader.stopped state with
    | true => exact stopped buffer state hstopped
    | false =>
      cases hparse : reader.parse buffer with
      | none => exact incomplete buffer state hparse
      | some outcome =>
        rcases outcome with found | ⟨found, count⟩
        · exact fault buffer state found hstopped hparse
        · have hconsumed := reader.stable.consumed hparse
          refine frame buffer state found count hstopped hparse (ih _ ?_ _ _ rfl)
          rw [List.length_drop]
          omega

/-- Reading on after more bytes have arrived is reading the longer buffer. -/
theorem read_append (reader : Reader Byte Frame Fault State) (buffer rest : List Byte)
    (state : State) :
    (reader.read (buffer ++ rest) state).2 =
        (reader.receive (reader.read buffer state) rest).2 ∧
      (reader.stopped (reader.read (buffer ++ rest) state).2 = false →
        reader.read (buffer ++ rest) state = reader.receive (reader.read buffer state) rest) := by
  induction buffer, state using reader.read_induction with
  | stopped buffer state hstopped =>
    rw [read_stopped hstopped, read_stopped hstopped, receive, if_pos hstopped]
    exact ⟨rfl, fun hrunning => by simp [hstopped] at hrunning⟩
  | incomplete buffer state hparse =>
    rw [read_incomplete hparse, receive]
    split
    · rename_i hstopped
      rw [read_stopped hstopped]
      exact ⟨rfl, fun hrunning => by simp_all⟩
    · exact ⟨rfl, fun _ => rfl⟩
  | fault buffer state found hstopped hparse =>
    have hover := reader.stopped_fail found state
    rw [read_fault hstopped hparse, read_fault hstopped (reader.stable.append hparse rest),
      receive, if_pos hover]
    exact ⟨rfl, fun hrunning => by simp [hover] at hrunning⟩
  | frame buffer state found count hstopped hparse ih =>
    have hdrop : (buffer ++ rest).drop count = buffer.drop count ++ rest :=
      List.drop_append_of_le_length (reader.stable.consumed hparse).2
    rw [read_frame hstopped hparse, read_frame hstopped (reader.stable.append hparse rest), hdrop]
    exact ih

theorem foldl_receive_stopped {connection : List Byte × State}
    (hstopped : reader.stopped connection.2 = true) (chunks : List (List Byte)) :
    chunks.foldl reader.receive connection = connection := by
  induction chunks with
  | nil => rfl
  | cons chunk chunks ih => rw [List.foldl_cons, receive, if_pos hstopped, ih]

/-- **The way the input is cut into pieces does not matter.** -/
theorem foldl_receive (reader : Reader Byte Frame Fault State) (chunks : List (List Byte))
    (buffer : List Byte) (state : State) :
    (chunks.foldl reader.receive (reader.read buffer state)).2 =
        (reader.read (buffer ++ chunks.flatten) state).2 ∧
      (reader.stopped (reader.read (buffer ++ chunks.flatten) state).2 = false →
        chunks.foldl reader.receive (reader.read buffer state) =
          reader.read (buffer ++ chunks.flatten) state) := by
  induction chunks generalizing buffer with
  | nil => simp
  | cons chunk chunks ih =>
    obtain ⟨hstate, hall⟩ := read_append reader buffer chunk state
    obtain ⟨ihstate, ihall⟩ := ih (buffer ++ chunk)
    rw [List.append_assoc, ← List.flatten_cons] at ihstate ihall
    rw [List.foldl_cons]
    cases hstopped : reader.stopped (reader.read (buffer ++ chunk) state).2 with
    | false =>
      rw [← hall hstopped]
      exact ⟨ihstate, ihall⟩
    | true =>
      -- Nothing is read any more, on either side.
      have hover := hstate ▸ hstopped
      obtain ⟨hrest, -⟩ := read_append reader (buffer ++ chunk) chunks.flatten state
      rw [receive, if_pos hstopped, List.append_assoc, ← List.flatten_cons] at hrest
      rw [foldl_receive_stopped hover, ← hstate, hrest]
      exact ⟨rfl, fun hrunning => by simp [hstopped] at hrunning⟩

/-- Frames at the front of the buffer are handled one after the other, as long as none of
them ends the reading; there may be several encodings of a frame. -/
theorem read_items {Item : Type*} {encode : Item → List Byte} {frameOf : Item → Frame}
    {Running : State → Prop} (hrunning : ∀ state, Running state → reader.stopped state = false)
    {items : List Item} (hencode : ∀ item ∈ items, ∀ rest,
      reader.parse (encode item ++ rest) = some (.ok (frameOf item, (encode item).length)))
    (hhandle : ∀ item ∈ items, ∀ state, Running state →
      Running (reader.handle (frameOf item) (encode item).length state))
    (hstate : Running state) (rest : List Byte) :
    Running (items.foldl (fun state item =>
        reader.handle (frameOf item) (encode item).length state) state) ∧
      reader.read (items.flatMap encode ++ rest) state =
        reader.read rest (items.foldl (fun state item =>
          reader.handle (frameOf item) (encode item).length state) state) := by
  induction items generalizing state with
  | nil => exact ⟨hstate, rfl⟩
  | cons item items ih =>
    have hparse := hencode item (by simp) (items.flatMap encode ++ rest)
    have hnext := hhandle item (by simp) state hstate
    rw [List.flatMap_cons, List.append_assoc, read_frame (hrunning state hstate) hparse,
      List.drop_left]
    exact ih (fun other hother => hencode other (by simp [hother]))
      (fun other hother => hhandle other (by simp [hother])) hnext

/-- An input made of encoded frames is read as these frames, until one of them
ends it. -/
theorem read_flatMap (hencode : ∀ frame ∈ frames, ∀ rest,
      reader.parse (encode frame ++ rest) = some (.ok (frame, (encode frame).length)))
    (state : State) :
    (reader.read (frames.flatMap encode) state).2 =
        frames.foldl (fun state frame =>
          if reader.stopped state then state
          else reader.handle frame (encode frame).length state) state := by
  induction frames generalizing state with
  | nil => rfl
  | cons frame frames ih =>
    have hparse := hencode frame (by simp) (frames.flatMap encode)
    have hrest := fun state => ih (fun other hother => hencode other (by simp [hother])) state
    rw [List.flatMap_cons, List.foldl_cons]
    cases hstopped : reader.stopped state with
    | true =>
      rw [read_stopped hstopped, ← hrest, if_pos rfl, read_stopped hstopped]
    | false =>
      rw [read_frame hstopped hparse, List.drop_left, hrest]
      rfl

/-- Unless one of the frames ends it, nothing is left in the buffer. -/
theorem read_flatMap_running (hencode : ∀ frame ∈ frames, ∀ rest,
      reader.parse (encode frame ++ rest) = some (.ok (frame, (encode frame).length)))
    (hrunning : reader.stopped (reader.read (frames.flatMap encode) state).2 = false) :
    (reader.read (frames.flatMap encode) state).1 = [] := by
  induction frames generalizing state with
  | nil => rw [List.flatMap_nil, read_incomplete reader.stable.empty]
  | cons frame frames ih =>
    have hparse := hencode frame (by simp) (frames.flatMap encode)
    rw [List.flatMap_cons] at hrunning ⊢
    cases hstopped : reader.stopped state with
    | true => simp [read_stopped hstopped, hstopped] at hrunning
    | false =>
      rw [read_frame hstopped hparse, List.drop_left] at hrunning ⊢
      exact ih (fun other hother => hencode other (by simp [hother])) hrunning

end Reader

end Framing
