import RedisServer.Resp.RoundTrip

/-!
# Decoding replies

A client reads replies off the bytes it receives.  `decode` is such a reader: a value
starts with a line, and the line says how the value goes on.  It gives back what
`serializeResponse` was given (`reply_round_trip`), up to the three ways in which the
server writes an array.

The serializer copies whatever it is given between the type byte and the CR LF of a
simple string or an error.  `Response.tidy` is what the rest of the server has to care
for so that one response becomes one value.
-/

namespace RedisServer.Resp

/-! ## Lines -/

/-- There is neither CR nor LF in the text. -/
def isLine (text : Bytes) : Bool := text.all fun byte => byte != 13 && byte != 10

theorem isLine_cons {byte : UInt8} {text : Bytes} (hbyte : byte ≠ 13 ∧ byte ≠ 10)
    (h : isLine text = true) : isLine (byte :: text) = true := by
  simpa [isLine, hbyte] using h

theorem isLine_print (n : ℕ) : isLine (Decimal.print n) = true := by
  refine List.all_eq_true.mpr fun byte hbyte => ?_
  have hdigit := Decimal.isDigit_of_mem_print hbyte
  have hcr : byte ≠ 13 := by
    rintro rfl
    exact absurd hdigit (by decide)
  have hlf : byte ≠ 10 := by
    rintro rfl
    exact absurd hdigit (by decide)
  simp [hcr, hlf]

theorem isLine_printSigned (n : Int) : isLine (printSigned n) = true := by
  unfold printSigned
  split
  · exact isLine_cons (by decide) (isLine_print _)
  · exact isLine_print _

/-- The first line, and what follows it. -/
def splitLine (bytes : Bytes) : Option (Bytes × Bytes) :=
  (findCrlf bytes).bind fun offset =>
    if isLine (bytes.take offset) then some (bytes.take offset, bytes.drop (offset + 2)) else none

theorem splitLine_append {line : Bytes} (h : isLine line = true) (rest : Bytes) :
    splitLine (line ++ crlf ++ rest) = some (line, rest) := by
  have hcr : ∀ byte ∈ line, byte ≠ 13 := by
    intro byte hbyte
    have hboth := List.all_eq_true.mp h byte hbyte
    simp only [Bool.and_eq_true, bne_iff_ne] at hboth
    exact hboth.1
  have htake : (line ++ crlf ++ rest).take line.length = line := by simp
  have hdrop : (line ++ crlf ++ rest).drop (line.length + 2) = rest := by
    refine List.drop_left' ?_
    simp [crlf]
  rw [splitLine, findCrlf_append hcr, Option.bind_some, htake, if_pos h, hdrop]

/-! ## The decoder -/

/-- A signed number of any size. -/
def decodeInteger (text : Bytes) : Option Int :=
  match text with
  | 45 :: digits => (Decimal.parse digits).map fun (n : ℕ) => -(n : Int)
  | digits => (Decimal.parse digits).map fun (n : ℕ) => (n : Int)

/-- How a value goes on after its first line. -/
inductive Header where
  | whole (response : Response)
  | bulkString (length : ℕ)
  | array (length : ℕ)

def decodeHeader (line : Bytes) : Option Header :=
  match line with
  | 43 :: text => some (.whole (.simpleString text))
  | 45 :: text => some (.whole (.simpleError text))
  | 58 :: text => (decodeInteger text).map fun value => .whole (.integer value)
  | 36 :: text =>
    if text = ascii "-1" then some (.whole .nullBulkString)
    else (Decimal.parse text).map .bulkString
  | 42 :: text =>
    if text = ascii "-1" then some (.whole .nullArray)
    else (Decimal.parse text).map .array
  | _ => none

/-- The bytes of a bulk string, and what follows its CR LF. -/
def decodeBulk (length : ℕ) (bytes : Bytes) : Option (Bytes × Bytes) :=
  if (bytes.drop length).take 2 = crlf then
    some (bytes.take length, bytes.drop (length + 2))
  else none

/-- So many values in a row.  A value takes at least one byte, so the number of bytes is
fuel enough. -/
def decodeMany : ℕ → ℕ → Bytes → Option (List Response × Bytes)
  | _, 0, bytes => some ([], bytes)
  | 0, _ + 1, _ => none
  | fuel + 1, count + 1, bytes =>
    (splitLine bytes).bind fun (line, rest) =>
      (decodeHeader line).bind fun header =>
        match header with
        | .whole response =>
          (decodeMany fuel count rest).map fun (responses, rest) =>
            (response :: responses, rest)
        | .bulkString length =>
          (decodeBulk length rest).bind fun (value, rest) =>
            (decodeMany fuel count rest).map fun (responses, rest) =>
              (.bulkString value :: responses, rest)
        | .array length =>
          (decodeMany fuel length rest).bind fun (elements, rest) =>
            (decodeMany fuel count rest).map fun (responses, rest) =>
              (.responseArray elements :: responses, rest)

/-- The value at the front of the bytes, and what follows it. -/
def decode (bytes : Bytes) : Option (Response × Bytes) :=
  match decodeMany bytes.length 1 bytes with
  | some ([response], rest) => some (response, rest)
  | _ => none

/-! ## Responses that are one value -/

mutual

/-- Simple strings and errors are lines, and nothing is left out. -/
def Response.tidy : Response → Bool
  | .simpleString value | .simpleError value => isLine value
  | .noResponse => false
  | .responseArray values => Response.tidyAll values
  | .bulkString _ | .integer _ | .nullBulkString | .nullArray | .emptyArray | .array _ => true

def Response.tidyAll : List Response → Bool
  | [] => true
  | response :: rest => response.tidy && Response.tidyAll rest

end

mutual

/-- One way of writing an array instead of three. -/
def Response.normal : Response → Response
  | .emptyArray => .responseArray []
  | .array values => .responseArray (values.map .bulkString)
  | .responseArray values => .responseArray (Response.normalAll values)
  | response => response

def Response.normalAll : List Response → List Response
  | [] => []
  | response :: rest => response.normal :: Response.normalAll rest

end

/-! ## Decoding what was serialized -/

theorem decodeInteger_printSigned (n : Int) : decodeInteger (printSigned n) = some n := by
  unfold printSigned
  split
  · rename_i hneg
    simp only [decodeInteger, Decimal.parse_print, Option.map_some]
    congr 1
    omega
  · rename_i hnonneg
    have hdigits : decodeInteger (Decimal.print n.natAbs) =
        (Decimal.parse (Decimal.print n.natAbs)).map fun (n : ℕ) => (n : Int) := by
      unfold decodeInteger
      split
      · rename_i digits hprint
        -- a numeral does not start with a minus sign
        have hminus : (45 : UInt8) ∈ Decimal.print n.natAbs := by rw [hprint]; simp
        exact absurd (Decimal.isDigit_of_mem_print hminus) (by decide)
      · rfl
    rw [hdigits, Decimal.parse_print, Option.map_some]
    congr 1
    omega

theorem print_ne_null (n : ℕ) : Decimal.print n ≠ ascii "-1" := by
  intro h
  have hminus : (45 : UInt8) ∈ Decimal.print n := by
    rw [h]
    decide
  exact absurd (Decimal.isDigit_of_mem_print hminus) (by decide)

theorem decodeHeader_bulkString (n : ℕ) :
    decodeHeader (36 :: Decimal.print n) = some (.bulkString n) := by
  simp [decodeHeader, print_ne_null]

theorem decodeHeader_array (n : ℕ) :
    decodeHeader (42 :: Decimal.print n) = some (.array n) := by
  simp [decodeHeader, print_ne_null]

theorem decodeBulk_append (value rest : Bytes) :
    decodeBulk value.length (value ++ crlf ++ rest) = some (value, rest) := by
  have hdrop : (value ++ crlf ++ rest).drop (value.length + 2) = rest := by
    refine List.drop_left' ?_
    simp [crlf]
  rw [decodeBulk, if_pos (by simp [crlf]), hdrop]
  simp

theorem serializeResponses_bulkString (values : List Bytes) :
    serializeResponses (values.map .bulkString) = values.flatMap bulkString := by
  induction values with
  | nil => rfl
  | cons value values ih =>
    rw [List.map_cons, serializeResponses, ih, List.flatMap_cons, serializeResponse]

theorem normalAll_bulkString (values : List Bytes) :
    Response.normalAll (values.map .bulkString) = values.map .bulkString := by
  induction values with
  | nil => rfl
  | cons value values ih =>
    rw [List.map_cons, Response.normalAll, ih]
    rfl

theorem tidyAll_bulkString (values : List Bytes) :
    Response.tidyAll (values.map .bulkString) = true := by
  induction values with
  | nil => rfl
  | cons value values ih => rw [List.map_cons, Response.tidyAll, ih, Response.tidy, Bool.and_true]

/-- Whatever is tidy takes some bytes. -/
theorem serializeResponse_pos {response : Response} (h : response.tidy = true) :
    0 < (serializeResponse response).length := by
  cases response with
  | noResponse => cases h
  | _ => simp [serializeResponse, bulkString, crlf]

section Turns

variable {fuel count : ℕ} {bytes : Bytes}

theorem decodeMany_zero : decodeMany fuel 0 bytes = some ([], bytes) := by
  cases fuel <;> rfl

theorem decodeMany_whole {line : Bytes} {response : Response} (hline : isLine line = true)
    (hheader : decodeHeader line = some (.whole response)) :
    decodeMany (fuel + 1) (count + 1) (line ++ crlf ++ bytes) =
      (decodeMany fuel count bytes).map fun (responses, rest) => (response :: responses, rest) := by
  rw [decodeMany, splitLine_append hline, Option.bind_some]
  simp only [hheader, Option.bind_some]

theorem decodeMany_bulkString (value : Bytes) :
    decodeMany (fuel + 1) (count + 1) (bulkString value ++ bytes) =
      (decodeMany fuel count bytes).map fun (responses, rest) =>
        (.bulkString value :: responses, rest) := by
  have hline : isLine (36 :: Decimal.print value.length) = true :=
    isLine_cons (by decide) (isLine_print _)
  have hbytes : bulkString value ++ bytes =
      36 :: Decimal.print value.length ++ crlf ++ (value ++ crlf ++ bytes) := by
    simp [bulkString]
  rw [hbytes, decodeMany, splitLine_append hline, Option.bind_some]
  simp only [decodeHeader_bulkString, Option.bind_some, decodeBulk_append]

theorem decodeMany_array {length : ℕ} {values : List Response} {elements : Bytes}
    (helements : decodeMany fuel length (elements ++ bytes) = some (values, bytes)) :
    decodeMany (fuel + 1) (count + 1)
        (42 :: Decimal.print length ++ crlf ++ elements ++ bytes) =
      (decodeMany fuel count bytes).map fun (responses, rest) =>
        (.responseArray values :: responses, rest) := by
  have hline : isLine (42 :: Decimal.print length) = true :=
    isLine_cons (by decide) (isLine_print _)
  rw [List.append_assoc, decodeMany, splitLine_append hline, Option.bind_some]
  simp only [decodeHeader_array, Option.bind_some, helements]

end Turns

/-- The decoder reads back responses one behind the other.  The induction is on the fuel:
the elements of an array take less of it than the array, and so do the responses behind
it. -/
theorem decodeMany_serializeResponses {fuel : ℕ} {responses : List Response}
    (htidy : Response.tidyAll responses = true)
    (hfuel : (serializeResponses responses).length ≤ fuel) (rest : Bytes) :
    decodeMany fuel responses.length (serializeResponses responses ++ rest) =
      some (Response.normalAll responses, rest) := by
  induction fuel generalizing responses rest with
  | zero =>
    cases responses with
    | nil => rfl
    | cons response responses =>
      rw [Response.tidyAll, Bool.and_eq_true] at htidy
      have hpos := serializeResponse_pos htidy.1
      rw [serializeResponses, List.length_append] at hfuel
      omega
  | succ fuel ih =>
    cases responses with
    | nil => rfl
    | cons response responses =>
      rw [Response.tidyAll, Bool.and_eq_true] at htidy
      have hpos := serializeResponse_pos htidy.1
      rw [serializeResponses, List.length_append] at hfuel
      have hrest := @ih responses htidy.2 (by omega) rest
      rw [List.length_cons, serializeResponses, List.append_assoc, Response.normalAll]
      cases response with
      | simpleString value =>
        have hline : isLine (43 :: value) = true := isLine_cons (by decide) htidy.1
        exact (decodeMany_whole hline rfl).trans (by rw [hrest]; rfl)
      | simpleError value =>
        have hline : isLine (45 :: value) = true := isLine_cons (by decide) htidy.1
        exact (decodeMany_whole hline rfl).trans (by rw [hrest]; rfl)
      | bulkString value =>
        exact (decodeMany_bulkString value).trans (by rw [hrest]; rfl)
      | integer value =>
        have hline : isLine (58 :: printSigned value) = true :=
          isLine_cons (by decide) (isLine_printSigned value)
        have hheader : decodeHeader (58 :: printSigned value) =
            some (.whole (.integer value)) := by
          simp [decodeHeader, decodeInteger_printSigned]
        exact (decodeMany_whole hline hheader).trans (by rw [hrest]; rfl)
      | nullBulkString =>
        exact (decodeMany_whole (by decide) rfl).trans (by rw [hrest]; rfl)
      | nullArray =>
        exact (decodeMany_whole (by decide) rfl).trans (by rw [hrest]; rfl)
      | emptyArray =>
        have helements : decodeMany fuel 0 ([] ++ (serializeResponses responses ++ rest)) =
            some ([], serializeResponses responses ++ rest) := decodeMany_zero
        exact (decodeMany_array helements).trans (by rw [hrest]; rfl)
      | noResponse => cases htidy.1
      | array values =>
        rw [serializeResponse, ← serializeResponses_bulkString] at hfuel ⊢
        simp only [List.length_cons, List.length_append] at hfuel
        have helements := @ih (values.map .bulkString) (tidyAll_bulkString values)
          (by omega) (serializeResponses responses ++ rest)
        rw [List.length_map, normalAll_bulkString] at helements
        exact (decodeMany_array helements).trans (by rw [hrest]; rfl)
      | responseArray values =>
        rw [serializeResponse] at hfuel ⊢
        simp only [List.length_cons, List.length_append] at hfuel
        have helements := @ih values htidy.1 (by omega) (serializeResponses responses ++ rest)
        exact (decodeMany_array helements).trans (by rw [hrest]; rfl)

/-! ## Replies -/

/-- What the serializer asks of a reply, which may be none at all. -/
def Response.clean : Response → Bool
  | .noResponse => true
  | response => response.tidy

/-- **No decoder reads back a reply that was not sent**, however replies are identified.
Nothing is written for it, and so its bytes are the beginning of whatever is sent next. -/
theorem no_decoder_of_noResponse :
    ¬ ∃ (Value : Type) (meaning : Response → Value) (decode : Bytes → Option (Value × Bytes)),
      ∀ (response : Response) (rest : Bytes), response.clean = true →
        decode (serializeResponse response ++ rest) = some (meaning response, rest) := by
  rintro ⟨Value, meaning, decode, hall⟩
  have hnothing : decode (43 :: crlf) = some (meaning .noResponse, 43 :: crlf) :=
    hall .noResponse (43 :: crlf) rfl
  have hempty : decode (43 :: crlf) = some (meaning (.simpleString []), []) :=
    hall (.simpleString []) [] rfl
  rw [hnothing] at hempty
  cases congrArg Prod.snd (Option.some.inj hempty)

/-- **Replies are uniquely decodable**: from the bytes of a reply and anything behind them,
the decoder reads the reply, up to the way its arrays were written, and leaves what is
behind. -/
theorem reply_round_trip (response : Response) (htidy : response.tidy = true) (rest : Bytes) :
    decode (serializeResponse response ++ rest) = some (response.normal, rest) := by
  have htidyAll : Response.tidyAll [response] = true := by
    rw [Response.tidyAll, htidy]
    rfl
  have hserialize : serializeResponses [response] = serializeResponse response :=
    List.append_nil _
  have hfuel : (serializeResponses [response]).length ≤
      (serializeResponse response ++ rest).length := by
    rw [hserialize, List.length_append]
    omega
  have hmany := decodeMany_serializeResponses htidyAll hfuel rest
  rw [hserialize, List.length_singleton] at hmany
  rw [decode, hmany]
  rfl

/-- The reply to an `EXEC`, with the three empty replies, an array of strings that look
like frames and one nested array, and another reply behind it. -/
theorem reply_round_trip_exec :
    decode (serializeResponse (.responseArray [.simpleString (ascii "OK"), .nullBulkString,
        .nullArray, .emptyArray, .array [ascii "*1\r\n", []], .responseArray [.integer (-7)]]) ++
        ascii "+PONG\r\n") =
      some (.responseArray [.simpleString (ascii "OK"), .nullBulkString, .nullArray,
        .responseArray [], .responseArray [.bulkString (ascii "*1\r\n"), .bulkString []],
        .responseArray [.integer (-7)]], ascii "+PONG\r\n") :=
  reply_round_trip (.responseArray [.simpleString (ascii "OK"), .nullBulkString, .nullArray,
    .emptyArray, .array [ascii "*1\r\n", []], .responseArray [.integer (-7)]]) (by decide) _

end RedisServer.Resp
