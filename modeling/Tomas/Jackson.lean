import Tomas.Msgpack
import Tomas.Protocol

/-! Jackson's `ObjectMapper` over MessagePack. It is outside the repository, so
it is a parameter of the development: `Lawful` names what the program relies on,
and `msgpack` is a mapper for these beans that shows the laws can be met. -/
namespace Tomas.Jackson
open Tomas.Framing Tomas.Msgpack Tomas.Protocol

/-- `new ObjectMapper(new MessagePackFactory())`. Reading gives `none` where
Jackson returns null. -/
structure ObjectMapper where
  writeValueAsBytes : Message → Except Throwable Bytes
  readValue : Bytes → Except Throwable (Option Message)

/-! ## Encoded sizes -/

/-- Nil, or a map of the four named fields. -/
def headerSize : Option Header → Nat
  | none => 1
  | some header =>
    1 + (8 + intSize header.crcCode.toInt) + (7 + intSize header.length.toInt) +
      (10 + intSize header.sessionID.toInt) + (5 + intSize header.type.toInt)

def bodySize : Option String → Nat
  | none => 1
  | some text => strHeaderSize text.utf8ByteSize + text.utf8ByteSize

/-- The MessagePack size of the bean: a map of `header` and `body`. -/
def messageSize (message : ProtocolMessage String) : Nat :=
  1 + (7 + headerSize message.header) + (5 + bodySize message.body)

/-- What is relied on: these beans are written in the MessagePack form, of the
size above, and read back; and reading never changes a header. -/
structure Lawful (om : ObjectMapper) : Prop where
  encodes : ∀ message : ProtocolMessage String, messageSize message < 2 ^ 30 →
    ∃ bytes, om.writeValueAsBytes message.raw = .ok bytes
  size : ∀ (message : ProtocolMessage String) bytes,
    om.writeValueAsBytes message.raw = .ok bytes → bytes.length = messageSize message
  roundTrip : ∀ (message : ProtocolMessage String) bytes,
    om.writeValueAsBytes message.raw = .ok bytes → om.readValue bytes = .ok (some message.raw)
  keepsHeader : ∀ message bytes back,
    om.writeValueAsBytes message = .ok bytes → om.readValue bytes = .ok (some back) →
      back.header = message.header

/-! ## A mapper for these beans -/

def headerTokens : Option Header → List Token
  | none => [.nil]
  | some header =>
    [.map 4, .str "crcCode", .int header.crcCode.toInt, .str "length", .int header.length.toInt,
      .str "sessionID", .int header.sessionID.toInt, .str "type", .int header.type.toInt]

def bodyTokens : Option String → List Token
  | none => [.nil]
  | some text => [.str text]

def messageTokens (message : ProtocolMessage String) : List Token :=
  .map 2 :: .str "header" :: headerTokens message.header ++ .str "body" :: bodyTokens message.body

def writeTokens (tokens : List Token) : Bytes := tokens.flatMap writeToken

/-- Objects that are not strings have no serializer here. -/
def writeMessage (message : Message) : Except Throwable Bytes :=
  let body := match message.body with
    | none => some none
    | some (.string text) => some (some text)
    | some (.other _) => none
  match body with
  | none => .error .ioException
  | some body =>
    let plain : ProtocolMessage String := { header := message.header, body }
    if messageSize plain < 2 ^ 30 then .ok (writeTokens (messageTokens plain))
    else .error .ioException

/-- The fields of a header in any order; an unknown one is refused, and so is a
number its field cannot hold. -/
def readHeaderFields : Nat → Bytes → Header → Option (Header × Bytes)
  | 0, bytes, header => some (header, bytes)
  | count + 1, bytes, header =>
    match readToken bytes with
    | some (.str name, bytes) =>
      match readToken bytes with
      | some (.int value, bytes) =>
        if name = "crcCode" ∧ (Int32.ofInt value).toInt = value then
          readHeaderFields count bytes { header with crcCode := Int32.ofInt value }
        else if name = "length" ∧ (Int32.ofInt value).toInt = value then
          readHeaderFields count bytes { header with length := Int32.ofInt value }
        else if name = "sessionID" ∧ (Int64.ofInt value).toInt = value then
          readHeaderFields count bytes { header with sessionID := Int64.ofInt value }
        else if name = "type" ∧ (Int8.ofInt value).toInt = value then
          readHeaderFields count bytes { header with type := Int8.ofInt value }
        else none
      | _ => none
    | _ => none

def readHeader (bytes : Bytes) : Option (Option Header × Bytes) :=
  match readToken bytes with
  | some (.nil, bytes) => some (none, bytes)
  | some (.map count, bytes) =>
    (readHeaderFields count bytes {}).map fun (header, bytes) => (some header, bytes)
  | _ => none

def readBody (bytes : Bytes) : Option (Option Object × Bytes) :=
  match readToken bytes with
  | some (.nil, bytes) => some (none, bytes)
  | some (.str text, bytes) => some (some (.string text), bytes)
  | some (.int value, bytes) => some (some (.other (toString value)), bytes)
  | _ => none

def readMessageFields : Nat → Bytes → Message → Option Message
  | 0, _, message => some message
  | count + 1, bytes, message =>
    match readToken bytes with
    | some (.str name, bytes) =>
      if name = "header" then
        match readHeader bytes with
        | some (header, bytes) => readMessageFields count bytes { message with header }
        | none => none
      else if name = "body" then
        match readBody bytes with
        | some (body, bytes) => readMessageFields count bytes { message with body }
        | none => none
      else none
    | _ => none

def readMessage (bytes : Bytes) : Except Throwable (Option Message) :=
  match readToken bytes with
  | some (.nil, _) => .ok none
  | some (.map count, bytes) =>
    match readMessageFields count bytes {} with
    | some message => .ok (some message)
    | none => .error .ioException
  | _ => .error .ioException

def msgpack : ObjectMapper where
  writeValueAsBytes := writeMessage
  readValue := readMessage

@[simp] theorem msgpack_writeValueAsBytes (message : Message) :
    msgpack.writeValueAsBytes message = writeMessage message := rfl

@[simp] theorem msgpack_readValue (bytes : Bytes) : msgpack.readValue bytes = readMessage bytes := rfl

/-! ## Its laws -/

@[simp] theorem writeTokens_nil : writeTokens [] = [] := rfl

@[simp] theorem writeTokens_cons (token : Token) (tokens : List Token) :
    writeTokens (token :: tokens) = writeToken token ++ writeTokens tokens := rfl

@[simp] theorem writeTokens_append (first second : List Token) :
    writeTokens (first ++ second) = writeTokens first ++ writeTokens second := by
  simp [writeTokens]

private theorem length_str (text : String) :
    (writeToken (.str text)).length = strHeaderSize text.utf8ByteSize + text.utf8ByteSize := by
  rw [writeToken, List.length_append, length_writeStrHeader, length_utf8]

private theorem length_headerTokens (header : Option Header) :
    (writeTokens (headerTokens header)).length = headerSize header := by
  cases header with
  | none => rfl
  | some header =>
    have crcCode : (writeToken (.str "crcCode")).length = 8 := by rw [length_str]; decide
    have length : (writeToken (.str "length")).length = 7 := by rw [length_str]; decide
    have sessionID : (writeToken (.str "sessionID")).length = 10 := by rw [length_str]; decide
    have type : (writeToken (.str "type")).length = 5 := by rw [length_str]; decide
    have map : (writeToken (.map 4)).length = 1 := by decide
    have int (value : Int) : (writeToken (.int value)).length = intSize value := length_writeInt value
    simp only [headerTokens, writeTokens_cons, writeTokens_nil, List.length_append, crcCode, length,
      sessionID, type, map, int, headerSize, List.length_nil]
    omega

private theorem length_bodyTokens (body : Option String) :
    (writeTokens (bodyTokens body)).length = bodySize body := by
  cases body with
  | none => rfl
  | some text => simp [bodyTokens, length_str, bodySize]

theorem length_writeTokens (message : ProtocolMessage String) :
    (writeTokens (messageTokens message)).length = messageSize message := by
  have header : (writeToken (.str "header")).length = 7 := by rw [length_str]; decide
  have body : (writeToken (.str "body")).length = 5 := by rw [length_str]; decide
  have map : (writeToken (.map 2)).length = 1 := by decide
  simp only [messageTokens, writeTokens_cons, writeTokens_append, List.length_append, header, body,
    map, length_headerTokens, length_bodyTokens, messageSize]

private theorem read_str (text : String) (rest : Bytes) (short : text.utf8ByteSize < 2 ^ 32) :
    readToken (writeToken (.str text) ++ rest) = some (.str text, rest) :=
  readToken_writeToken _ rest short

private theorem read_map (size : Nat) (rest : Bytes) (short : size < 2 ^ 32) :
    readToken (writeToken (.map size) ++ rest) = some (.map size, rest) :=
  readToken_writeToken _ rest short

/-- A field that holds the value written for it is read back. -/
private theorem readHeaderFields_step (name : String) (value : Int) (count : Nat) (rest : Bytes)
    (header : Header) (short : name.utf8ByteSize < 2 ^ 32) (low : -2 ^ 63 ≤ value)
    (high : value < 2 ^ 63) :
    readHeaderFields (count + 1) (writeToken (.str name) ++ (writeToken (.int value) ++ rest)) header =
      if name = "crcCode" ∧ (Int32.ofInt value).toInt = value then
        readHeaderFields count rest { header with crcCode := Int32.ofInt value }
      else if name = "length" ∧ (Int32.ofInt value).toInt = value then
        readHeaderFields count rest { header with length := Int32.ofInt value }
      else if name = "sessionID" ∧ (Int64.ofInt value).toInt = value then
        readHeaderFields count rest { header with sessionID := Int64.ofInt value }
      else if name = "type" ∧ (Int8.ofInt value).toInt = value then
        readHeaderFields count rest { header with type := Int8.ofInt value }
      else none := by
  have int : readToken (writeToken (.int value) ++ rest) = some (.int value, rest) :=
    readToken_writeToken _ rest ⟨low, by omega⟩
  rw [readHeaderFields, read_str name _ short]
  simp only [int]

private theorem readHeader_headerTokens (header : Option Header) (rest : Bytes) :
    readHeader (writeTokens (headerTokens header) ++ rest) = some (header, rest) := by
  cases header with
  | none => rfl
  | some header =>
    obtain ⟨crcCode, length, sessionID, type⟩ := header
    have crcCodeLow := crcCode.le_toInt
    have crcCodeHigh := crcCode.toInt_lt
    have lengthLow := length.le_toInt
    have lengthHigh := length.toInt_lt
    have sessionIDLow := sessionID.le_toInt
    have sessionIDHigh := sessionID.toInt_lt
    have typeLow := type.le_toInt
    have typeHigh := type.toInt_lt
    simp only [headerTokens, writeTokens_cons, writeTokens_nil, List.append_assoc, List.nil_append,
      readHeader, read_map 4 _ (by decide)]
    rw [readHeaderFields_step "crcCode" _ _ _ _ (by decide) (by omega) (by omega),
      if_pos ⟨rfl, by simp⟩]
    rw [readHeaderFields_step "length" _ _ _ _ (by decide) (by omega) (by omega),
      if_neg (by simp), if_pos ⟨rfl, by simp⟩]
    rw [readHeaderFields_step "sessionID" _ _ _ _ (by decide) (by omega) (by omega),
      if_neg (by simp), if_neg (by simp), if_pos ⟨rfl, by simp⟩]
    rw [readHeaderFields_step "type" _ _ _ _ (by decide) (by omega) (by omega),
      if_neg (by simp), if_neg (by simp), if_neg (by simp), if_pos ⟨rfl, by simp⟩]
    simp [readHeaderFields]

private theorem readBody_bodyTokens (body : Option String) (rest : Bytes)
    (bounded : bodySize body < 2 ^ 30) :
    readBody (writeTokens (bodyTokens body) ++ rest) = some (body.map .string, rest) := by
  cases body with
  | none => rfl
  | some text =>
    have writable : text.utf8ByteSize < 2 ^ 32 := by
      simp only [bodySize] at bounded
      omega
    have read := readToken_writeToken (.str text) rest writable
    simp [bodyTokens, readBody, read]

theorem readMessage_writeTokens (message : ProtocolMessage String)
    (bounded : messageSize message < 2 ^ 30) :
    readMessage (writeTokens (messageTokens message)) = .ok (some message.raw) := by
  have body := readBody_bodyTokens message.body [] (by simp only [messageSize] at bounded; omega)
  rw [List.append_nil] at body
  simp only [messageTokens, writeTokens_cons, writeTokens_append, List.append_assoc, readMessage,
    read_map 2 _ (by decide)]
  simp only [readMessageFields, read_str "header" _ (by decide), read_str "body" _ (by decide),
    readHeader_headerTokens, body, if_pos, ProtocolMessage.raw]
  simp

private theorem writeMessage_raw (message : ProtocolMessage String) :
    writeMessage message.raw =
      if messageSize message < 2 ^ 30 then .ok (writeTokens (messageTokens message))
      else .error .ioException := by
  obtain ⟨header, body⟩ := message
  cases body <;> rfl

/-- Only a message with a string body, or none, is written. -/
private theorem writeMessage_ok {message : Message} {bytes : Bytes}
    (written : writeMessage message = .ok bytes) :
    ∃ plain : ProtocolMessage String, message = plain.raw ∧ messageSize plain < 2 ^ 30 ∧
      bytes = writeTokens (messageTokens plain) := by
  have plain : ∃ plain : ProtocolMessage String, message = plain.raw := by
    obtain ⟨header, body⟩ := message
    cases body with
    | none => exact ⟨{ header, body := none }, rfl⟩
    | some object =>
      cases object with
      | string text => exact ⟨{ header, body := some text }, rfl⟩
      | other text => simp [writeMessage] at written
  obtain ⟨plain, rfl⟩ := plain
  rw [writeMessage_raw] at written
  split at written
  · rename_i bounded
    exact ⟨plain, rfl, bounded, by cases written; rfl⟩
  · cases written

theorem raw_injective {first second : ProtocolMessage String} (same : first.raw = second.raw) :
    first = second := by
  obtain ⟨header, body⟩ := first
  obtain ⟨header', body'⟩ := second
  simp only [ProtocolMessage.raw, ProtocolMessage.mk.injEq] at same
  have bodies : body = body' :=
    Option.map_injective (fun _ _ equal => by cases equal; rfl) same.2
  rw [same.1, bodies]

theorem msgpack_lawful : Lawful msgpack where
  encodes message bounded := ⟨_, (writeMessage_raw message).trans (if_pos bounded)⟩
  size message bytes written := by
    obtain ⟨plain, same, _, rfl⟩ := writeMessage_ok written
    rw [raw_injective same, length_writeTokens]
  roundTrip message bytes written := by
    obtain ⟨plain, same, bounded, rfl⟩ := writeMessage_ok written
    rw [raw_injective same, msgpack_readValue, readMessage_writeTokens plain bounded]
  keepsHeader message bytes back written read := by
    obtain ⟨plain, rfl, bounded, rfl⟩ := writeMessage_ok written
    rw [msgpack_readValue, readMessage_writeTokens plain bounded] at read
    cases read
    rfl

end Tomas.Jackson
