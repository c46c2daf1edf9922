import RedisServer.Processor.Revisions

/-!
# Writes that could not be logged

The database is changed before the log is asked to take the write.  When the log
refuses it, the client is told so with a `MISCONF` error and the replicas hear
nothing of it, but the write stays in the database.  So a failed append always
leaves an effect, whichever way the write ran.
-/

namespace RedisServer

open Resp KeyedStore Commands Aof Processor

variable {host : Host} {regime : Regime}

/-- A deed whose write the log refused has answered so, and its write is among
its events. -/
theorem Deed.refused {deed : Deed} (hproper : deed.Proper host regime) {message : Bytes}
    (herror : message ∈ deed.errors) :
    (∃ reply ∈ deed.replies, reply.response = misconf message) ∧
      ∃ event ∈ deed.events, event.writes host ≠ [] := by
  cases deed with
  | ran task response result =>
    obtain rfl : result = .error message := by
      cases result <;> simp_all [errors, reported]
    obtain ⟨-, -, -, hpayload⟩ := hproper
    refine ⟨⟨_, List.mem_singleton.mpr rfl, rfl⟩, _, List.mem_singleton.mpr rfl, ?_⟩
    have heffective : effective host task.command response = true := by
      simpa [payload, Option.isSome_ite'] using hpayload (by simp)
    simp [Event.writes, heffective]
  | transacted task commands responses result =>
    obtain rfl : result = .error message := by
      cases result <;> simp_all [errors, reported]
    obtain ⟨-, -, -, -, -, hpayload⟩ := hproper
    refine ⟨⟨_, List.mem_singleton.mpr rfl, rfl⟩, ?_⟩
    -- An `EXEC` is logged only if the list of its writes is not empty.
    by_contra hnone
    push Not at hnone
    have hempty : (List.zipWith Event.executed commands responses).flatMap
        (Event.writes host) = [] := List.flatMap_eq_nil_iff.mpr hnone
    simpa [payload, hempty] using hpayload (by simp)
  | _ => simp [errors] at herror

end RedisServer
