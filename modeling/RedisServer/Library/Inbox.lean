import Mathlib.Data.List.Basic

/-!
# Waiting for a stream that arrives in pieces

A consumer keeps a buffer and takes one thing after another from its front.  When the
buffer does not hold enough, it receives more.  As long as nothing goes wrong, what it
takes depends on the stream alone, that is on the bytes in the buffer and those still to
come, and the rest of the stream is there for the next one (`await_spec`).
-/

/-- What one attempt to receive comes to. -/
inductive Arrival (Byte : Type) where
  /-- Some bytes, or the end of the stream if there are none. -/
  | bytes (chunk : List Byte)
  | interrupted
  | failed
deriving Repr

namespace Arrival

variable {Byte : Type}

def chunk : Arrival Byte → List Byte
  | bytes chunk => chunk
  | interrupted | failed => []

/-- Neither a failure nor the end of the stream. -/
def Sound : Arrival Byte → Prop
  | bytes chunk => chunk ≠ []
  | interrupted => True
  | failed => False

end Arrival

/-- The buffer, and what the next attempts to receive come to. -/
structure Inbox (Byte : Type) where
  buffer : List Byte := []
  arrivals : List (Arrival Byte) := []
deriving Repr

namespace Inbox

variable {Byte Fault Value : Type}

/-- The bytes in the buffer and those still to come. -/
def stream (inbox : Inbox Byte) : List Byte :=
  inbox.buffer ++ (inbox.arrivals.map Arrival.chunk).flatten

def Sound (inbox : Inbox Byte) : Prop := ∀ arrival ∈ inbox.arrivals, arrival.Sound

section Await

variable (taking : List Byte → Option (Value × List Byte)) (failed closed : Fault)

/-- Receive until something can be taken from the front of the buffer.  Without a value
it waits for bytes that do not come. -/
def awaitFrom : List (Arrival Byte) → List Byte → ExceptT Fault Option (Value × Inbox Byte)
  | [], buffer => .mk ((taking buffer).map fun (value, rest) => .ok (value, ⟨rest, []⟩))
  | arrival :: later, buffer =>
    match taking buffer with
    | some (value, rest) => pure (value, ⟨rest, arrival :: later⟩)
    | none =>
      match arrival with
      | .interrupted => awaitFrom later buffer
      | .failed => throw failed
      | .bytes [] => throw closed
      | .bytes (byte :: chunk) => awaitFrom later (buffer ++ byte :: chunk)

def await (inbox : Inbox Byte) : ExceptT Fault Option (Value × Inbox Byte) :=
  awaitFrom taking failed closed inbox.arrivals inbox.buffer

end Await

/-- What is taken from a buffer is taken from every longer one. -/
def FromFront (taking : List Byte → Option (Value × List Byte)) : Prop :=
  ∀ buffer value rest, taking buffer = some (value, rest) →
    ∀ more, taking (buffer ++ more) = some (value, rest ++ more)

/-- **What is taken depends on the stream alone.** -/
theorem await_spec {taking : List Byte → Option (Value × List Byte)} (hfront : FromFront taking)
    (failed closed : Fault) {inbox : Inbox Byte} (hsound : inbox.Sound) {value : Value}
    {rest : List Byte} (htaken : taking inbox.stream = some (value, rest)) :
    ∃ next, inbox.await taking failed closed = pure (value, next) ∧ next.Sound ∧
      next.stream = rest := by
  obtain ⟨buffer, arrivals⟩ := inbox
  unfold await
  induction arrivals generalizing buffer with
  | nil =>
    simp only [stream, List.map_nil, List.flatten_nil, List.append_nil] at htaken
    refine ⟨⟨rest, []⟩, ?_, by simp [Sound], by simp [stream]⟩
    simp only [awaitFrom, htaken]
    rfl
  | cons arrival later ih =>
    obtain ⟨harrival, hlater⟩ := List.forall_mem_cons.mp hsound
    simp only [awaitFrom]
    cases hbuffer : taking buffer with
    | some taken =>
      -- There is enough, and the longer stream begins with it.
      obtain ⟨value', rest'⟩ := taken
      have hlong := hfront buffer value' rest' hbuffer
        ((arrival :: later).map Arrival.chunk).flatten
      rw [stream, hlong] at htaken
      obtain ⟨rfl, rfl⟩ : value' = value ∧ _ = rest := by simpa using htaken
      exact ⟨⟨rest', arrival :: later⟩, rfl, hsound, rfl⟩
    | none =>
      cases arrival with
      | interrupted => exact ih buffer hlater (by simpa [stream, Arrival.chunk] using htaken)
      | failed => exact harrival.elim
      | bytes chunk =>
        cases chunk with
        | nil => exact absurd rfl harrival
        | cons byte chunk =>
          exact ih _ hlater (by simpa [stream, Arrival.chunk] using htaken)

end Inbox
