import RedisServer.Basic

/-!
# The RESP protocol

Commands arrive, are logged and are replicated as arrays of bulk strings
(`parseCommand`, `serializeCommand`); replies are the variant `Response`
(`serializeResponse`).  The parser works on positions of a growing buffer, as
the source does: it starts over whenever more bytes have arrived.
-/

namespace RedisServer.Resp

/-- The command name followed by its arguments. -/
abbrev Command := List Bytes

inductive ParseErrorCode where
  | invalidFormat
  | invalidLength
deriving DecidableEq, Repr

structure ParseError where
  code : ParseErrorCode
  message : Bytes
deriving DecidableEq, Repr

inductive ParseOutcome where
  | result (command : Command) (bytesConsumed : ℕ)
  | incomplete
  | error (error : ParseError)
deriving DecidableEq, Repr

/-! ## Parsing a command -/

/-- The offset of the first CR LF. -/
def findCrlf : Bytes → Option ℕ
  | [] => none
  | 13 :: 10 :: _ => some 0
  | _ :: rest => (findCrlf rest).map (· + 1)

/-- The line that starts at a position, and the position behind its CR LF. -/
def readLine (input : Bytes) (position : ℕ) : Option (Bytes × ℕ) :=
  (findCrlf (input.drop position)).map fun offset =>
    ((input.drop position).take offset, position + offset + 2)

def parseLength (text : Bytes) : Except ParseError ℕ :=
  match parseUnsigned text with
  | some length => .ok length
  | none => .error ⟨.invalidLength, ascii "Invalid RESP length"⟩

/-- The loop over the bulk strings that are still missing. -/
def parseArguments (input : Bytes) : ℕ → ℕ → Command → ParseOutcome
  | 0, position, command => .result command position
  | missing + 1, position, command =>
    match input[position]? with
    | none => .incomplete
    | some byte =>
      if byte ≠ 36 then
        .error ⟨.invalidFormat, ascii "Expected RESP bulk string"⟩
      else
        match readLine input (position + 1) with
        | none => .incomplete
        | some (text, position) =>
          match parseLength text with
          | .error error => .error error
          | .ok bulkLength =>
            if input.length - position < bulkLength then .incomplete
            else if input.length - (position + bulkLength) < 2 then .incomplete
            else if input[position + bulkLength]? ≠ some 13 ∨
                input[position + bulkLength + 1]? ≠ some 10 then
              .error ⟨.invalidFormat, ascii "Bulk string must end with CRLF"⟩
            else
              parseArguments input missing (position + bulkLength + 2)
                (command ++ [(input.drop position).take bulkLength])

def parseCommand (input : Bytes) : ParseOutcome :=
  match input with
  | [] => .incomplete
  | byte :: _ =>
    if byte ≠ 42 then .error ⟨.invalidFormat, ascii "Expected RESP array"⟩
    else
      match readLine input 1 with
      | none => .incomplete
      | some (text, position) =>
        match parseLength text with
        | .error error => .error error
        | .ok arrayLength => parseArguments input arrayLength position []

/-! ## Serializing -/

def crlf : Bytes := [13, 10]

def bulkString (value : Bytes) : Bytes :=
  36 :: Decimal.print value.length ++ crlf ++ value ++ crlf

def serializeCommand (command : Command) : Bytes :=
  42 :: Decimal.print command.length ++ crlf ++ command.flatMap bulkString

/-- A reply.  `noResponse` stands for a reply that is delivered elsewhere. -/
inductive Response where
  | simpleString (value : Bytes)
  | simpleError (value : Bytes)
  | bulkString (value : Bytes)
  | integer (value : Int)
  | nullBulkString
  | nullArray
  | emptyArray
  | noResponse
  | array (values : List Bytes)
  | responseArray (values : List Response)
deriving Repr

/-- A response that carries no data. -/
def Response.bare : Response → Bool
  | .bulkString _ | .array _ | .responseArray _ => false
  | _ => true

mutual

def serializeResponse : Response → Bytes
  | .simpleString value => 43 :: value ++ crlf
  | .simpleError value => 45 :: value ++ crlf
  | .bulkString value => Resp.bulkString value
  | .integer value => 58 :: printSigned value ++ crlf
  | .nullBulkString => ascii "$-1" ++ crlf
  | .nullArray => ascii "*-1" ++ crlf
  | .emptyArray => ascii "*0" ++ crlf
  | .noResponse => []
  | .array values => 42 :: Decimal.print values.length ++ crlf ++ values.flatMap Resp.bulkString
  | .responseArray values =>
    42 :: Decimal.print values.length ++ crlf ++ serializeResponses values

def serializeResponses : List Response → Bytes
  | [] => []
  | response :: rest => serializeResponse response ++ serializeResponses rest

end

end RedisServer.Resp
