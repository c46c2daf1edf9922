import RedisServer.Resp.Decoder
import RedisServer.Resp.Grammar

/-!
# Values in a row

What a client makes of the bytes that it is sent: so many values, one behind the other,
and nothing else.  A tidy response is one value.  An error is one value only if its text
is a line; whatever else stands in it is read as further values, or not at all.
-/

namespace RedisServer.Resp

/-- The bytes are so many values in a row. -/
def Values (count : ℕ) (bytes : Bytes) : Prop :=
  ∃ values, values.length = count ∧ decodeMany bytes.length count bytes = some (values, [])

instance (count : ℕ) (bytes : Bytes) : Decidable (Values count bytes) :=
  decidable_of_iff ((decodeMany bytes.length count bytes).any
    fun (values, rest) => decide (values.length = count) && rest.isEmpty) (by
      simp [Values, Option.any_eq_true, and_comm])

namespace Response

/-- The response is one value, or none at all. -/
def Single (response : Response) : Prop :=
  response = .noResponse ∨ Values 1 (serializeResponse response)

end Response

end RedisServer.Resp
