import Tomas.Delivery

/-! Whether what one end writes is what the other end reads. The writer bounds
the payload of a frame, the reader bounds the frame with its length field, so
the two agree exactly on payloads of at most 65533 bytes. -/
namespace Tomas.WireAgreement
open Tomas.Framing Tomas.Msgpack Tomas.Pipeline Tomas.Protocol Tomas.Jackson Tomas.Codec
open Tomas.Delivery

/-- A new channel with the codecs alone, and nothing behind them. -/
abbrev CodecMachine := ChannelMachine Unit

def fresh : CodecMachine := { channel := { id := "", own := () } }

/-- The messages are written in order; each write gives its promise. -/
def writeAll (om : ObjectMapper) : List (ProtocolMessage String) → CodecMachine →
    List (Promise Throwable) × CodecMachine
  | [], machine => ([], machine)
  | message :: messages, machine =>
    let first := channelWrite socket (codecHandlers om) (.message message.raw) machine
    let later := writeAll om messages first.2
    (first.1 :: later.1, later.2)

/-- Every write succeeds. -/
def Written (om : ObjectMapper) (messages : List (ProtocolMessage String)) : Prop :=
  ∀ promise ∈ (writeAll om messages fresh).1, promise = .success

def wire (om : ObjectMapper) (messages : List (ProtocolMessage String)) : Bytes :=
  (writeAll om messages fresh).2.channel.out

def readAll (om : ObjectMapper) (chunks : List Bytes) : CodecMachine :=
  chunks.foldl (fun machine chunk =>
    fireChannelRead socket (codecHandlers om) (.byteBuf chunk) machine) fresh

/-- The messages that came out behind the codecs. -/
def yielded (trace : List Event) : List Message :=
  trace.filterMap fun event =>
    match event with
    | .tailRead (.message message) => some message
    | _ => none

/-- However the bytes are cut into pieces, the peer yields the list written. -/
def Agrees (om : ObjectMapper) (messages : List (ProtocolMessage String)) : Prop :=
  ∀ chunks : List Bytes, (∀ chunk ∈ chunks, chunk ≠ []) → chunks.flatten = wire om messages →
    yielded (readAll om chunks).trace = messages.map .raw

/-! ## What is on the wire -/

/-- The payload a message is written as, where it can be written. -/
def payloadOf (om : ObjectMapper) (message : ProtocolMessage String) : Bytes :=
  match om.writeValueAsBytes message.raw with
  | .ok payload => payload
  | .error _ => []

section Wire

variable {om : ObjectMapper} {message : ProtocolMessage String}
  {messages : List (ProtocolMessage String)}

private theorem write_eq (om : ObjectMapper) (message : Message) (machine : CodecMachine) :
    channelWrite socket (codecHandlers om) (.message message) machine =
      ((machine.channel.written (wireFrame om message)).1,
        (machine.withChannel (machine.channel.written (wireFrame om message)).2).log
          (writeEvents om message)) := by
  have written := channelWrite_message om ([] : List (ChannelHandler Unit)) (by simp) message machine
  rwa [List.append_nil] at written

/-- A write that succeeds puts the framed payload on the wire. -/
theorem written_success {channel : Channel χ}
    (success : (channel.written (wireFrame om message.raw)).1 = .success) :
    om.writeValueAsBytes message.raw = .ok (payloadOf om message) ∧
      (payloadOf om message).length < 256 ^ 2 ∧
      (channel.written (wireFrame om message.raw)).2 =
        { channel with out := channel.out ++ framed 2 (payloadOf om message) } := by
  unfold wireFrame payloadOf at *
  cases encoded : om.writeValueAsBytes message.raw with
  | error cause => simp [encoded, Channel.written] at success
  | ok payload =>
    cases framing : prepend 2 payload with
    | none => simp [encoded, framing, Channel.written] at success
    | some frame =>
      obtain ⟨bounded, rfl⟩ := prepend_eq_some.mp framing
      cases active : channel.active with
      | false => simp [encoded, framing, Channel.written, active] at success
      | true =>
        refine ⟨rfl, bounded, ?_⟩
        simp [framing, Channel.written, active]

private theorem writeAll_success (machine : CodecMachine)
    (success : ∀ promise ∈ (writeAll om messages machine).1, promise = .success) :
    (∀ message ∈ messages, om.writeValueAsBytes message.raw = .ok (payloadOf om message) ∧
      (payloadOf om message).length < 256 ^ 2) ∧
      (writeAll om messages machine).2.channel.out =
        machine.channel.out ++ stream 2 (messages.map (payloadOf om)) := by
  induction messages generalizing machine with
  | nil => simp [writeAll]
  | cons message messages ih =>
    simp only [writeAll, List.forall_mem_cons] at success
    rw [write_eq] at success
    obtain ⟨encoded, bounded, out⟩ := written_success success.1
    obtain ⟨all, later⟩ := ih _ success.2
    refine ⟨List.forall_mem_cons.mpr ⟨⟨encoded, bounded⟩, all⟩, ?_⟩
    have unfolded : (writeAll om (message :: messages) machine).2 =
        (writeAll om messages
          (channelWrite socket (codecHandlers om) (.message message.raw) machine).2).2 := rfl
    rw [unfolded, write_eq, later]
    simp only [Machine.log_channel, Machine.withChannel_channel, out, List.map_cons, stream_cons,
      List.append_assoc]

/-- A message the length field can announce is framed. -/
theorem wirePayload_of_size (lawful : Lawful om) (small : messageSize message < 256 ^ 2) :
    wirePayload om message.raw = some (payloadOf om message) := by
  obtain ⟨payload, encoded⟩ := lawful.encodes message (by omega)
  have length := lawful.size message payload encoded
  have same : payloadOf om message = payload := by simp only [payloadOf, encoded]
  rw [same]
  exact wirePayload_eq_some.mpr ⟨encoded, by omega⟩

/-- A message written is read back from its payload. -/
theorem decoded_payloadOf (lawful : Lawful om)
    (encoded : om.writeValueAsBytes message.raw = .ok (payloadOf om message)) :
    decoded om (payloadOf om message) = some message.raw := by
  simp only [decoded, lawful.roundTrip message _ encoded]

/-- The reader's limit leaves 65533 bytes for the payload. -/
theorem fits_payloadOf (lawful : Lawful om)
    (encoded : om.writeValueAsBytes message.raw = .ok (payloadOf om message)) :
    Fits frameParams (payloadOf om message) ↔ messageSize message ≤ 65533 := by
  rw [← lawful.size message _ encoded]
  simp only [Fits, frameParams]
  omega

end Wire

/-! ## What the peer yields -/

/-- Nothing is behind the codecs: what they read comes out at the tail. -/
def tailReceiver (om : ObjectMapper) : Receiver om ([] : List (ChannelHandler Unit)) where
  effect message channel := (channel, [.tailRead (.message message)])
  reads _ _ := rfl
  keepsDecoder _ _ _ := rfl
  runsBehind _ _ := rfl

private theorem yielded_behind (trace : List Event) : yielded (behind trace) = yielded trace := by
  apply filterMap_behind
  intro event inside
  cases event <;> first | rfl | simp [inDecoders] at inside

private theorem yielded_effects (om : ObjectMapper) (messages : List Message) (channel : Channel Unit) :
    yielded ((tailReceiver om).effects messages channel).2 = messages := by
  induction messages generalizing channel with
  | nil => rfl
  | cons message messages ih =>
    exact congrArg (message :: ·) (ih channel)

private theorem readAll_eq (om : ObjectMapper) (chunks : List Bytes) :
    readAll om chunks = chunks.foldl (readChunk om []) fresh := by
  have same : (fun (machine : CodecMachine) chunk =>
      fireChannelRead socket (codecHandlers om) (.byteBuf chunk) machine) = readChunk om [] := by
    funext machine chunk
    have read := fireChannelRead_chunk om [] machine chunk
    rwa [List.append_nil] at read
  rw [readAll, same]

section Agreement

variable {om : ObjectMapper} {messages : List (ProtocolMessage String)}

private theorem wire_eq (written : Written om messages) :
    wire om messages = stream 2 (messages.map (payloadOf om)) :=
  (writeAll_success fresh written).2

private theorem yielded_of_delivered {after : CodecMachine} {seen : List Message}
    (delivered : (tailReceiver om).Delivered seen fresh after) : yielded after.trace = seen := by
  rw [← yielded_behind, delivered.trace, yielded, List.filterMap_append]
  exact yielded_effects om seen _

theorem agrees_of_fits (lawful : Lawful om) (written : Written om messages)
    (fit : ∀ message ∈ messages, messageSize message ≤ 65533) : Agrees om messages := by
  intro chunks nonempty whole
  have encoded := (writeAll_success fresh written).1
  have fitting : ∀ payload ∈ messages.map (payloadOf om), Fits frameParams payload := by
    intro payload member
    obtain ⟨message, known, rfl⟩ := List.mem_map.mp member
    exact (fits_payloadOf lawful (encoded message known).1).mpr (fit message known)
  have ahead : Ahead frameParams fresh.channel.decoder (chunks.flatten ++ [])
      (messages.map (payloadOf om)) := by
    rw [List.append_nil, whole, wire_eq written]
    apply ahead_initial
    intro payload member
    obtain ⟨message, known, rfl⟩ := List.mem_map.mp member
    exact (encoded message known).2
  have settled : chunks = [] → ([] : Bytes) = [] → messages.map (payloadOf om) = [] := by
    rintro rfl -
    rw [wire_eq written] at whole
    exact stream_eq_nil (by omega) whole.symm
  obtain ⟨taken, later, split, delivered, -, exhausted⟩ :=
    (tailReceiver om).delivered_chunks fresh chunks [] _ fitting ahead settled
  rw [exhausted rfl, List.append_nil] at split
  rw [readAll_eq, yielded_of_delivered delivered, ← split, List.filterMap_map]
  have back : ∀ message ∈ messages, (decoded om ∘ payloadOf om) message = some message.raw :=
    fun message known => decoded_payloadOf lawful (encoded message known).1
  rw [List.filterMap_congr back]
  exact congrFun List.filterMap_eq_map messages

/-- In one piece, a message too large for the reader is missing from what it yields. -/
theorem not_agrees_of_unfit (lawful : Lawful om) (written : Written om messages)
    {message : ProtocolMessage String} (member : message ∈ messages)
    (unfit : 65533 < messageSize message) : ¬ Agrees om messages := by
  intro agrees
  have encoded := (writeAll_success fresh written).1
  let payloads := messages.map (payloadOf om)
  have whole : wire om messages = stream 2 payloads := wire_eq written
  have bounded : ∀ payload ∈ payloads, payload.length < 256 ^ 2 := by
    intro payload listed
    obtain ⟨other, sent, rfl⟩ := List.mem_map.mp listed
    exact (encoded other sent).2
  have ahead : Ahead frameParams fresh.channel.decoder (wire om messages ++ []) payloads := by
    rw [List.append_nil, whole]
    exact ahead_initial bounded
  have nonempty : wire om messages ≠ [] := by
    intro empty
    rw [whole] at empty
    have none := stream_eq_nil (by omega) empty
    rw [List.map_eq_nil_iff.mp none] at member
    cases member
  have same := agrees [wire om messages] (by simpa using nonempty) (by simp)
  have delivered := ((tailReceiver om).delivered_chunk fresh (wire om messages)).1
  obtain ⟨taken, later, front⟩ := feed_takes frameParams_plain ahead
  rw [readAll_eq, List.foldl_cons, List.foldl_nil, yielded_of_delivered delivered, front.frames] at same
  have lost : (payloads.filter (Fits frameParams)).length < payloads.length := by
    refine List.length_filter_lt_length_iff_exists.mpr ⟨payloadOf om message, ?_, ?_⟩
    · exact List.mem_map_of_mem member
    · have tooLong := (fits_payloadOf lawful (encoded message member).1).not.mpr (by omega)
      simpa using tooLong
  have seen := (List.length_filterMap_le (decoded om) (taken.filter (Fits frameParams)))
  rw [same, List.length_map] at seen
  have part : (taken.filter (Fits frameParams)).length ≤ (payloads.filter (Fits frameParams)).length := by
    rw [show payloads = taken ++ later from front.split, List.filter_append, List.length_append]
    omega
  have count : payloads.length = messages.length := List.length_map ..
  omega

/-- The writer accepts every payload its length field can announce. -/
theorem written_of_size (lawful : Lawful om)
    (small : ∀ message ∈ messages, messageSize message < 256 ^ 2) : Written om messages := by
  have step (message : ProtocolMessage String) (channel : Channel Unit)
      (bounded : messageSize message < 256 ^ 2) (active : channel.active = true) :
      channel.written (wireFrame om message.raw) =
        (.success, { channel with out := channel.out ++ framed 2 (payloadOf om message) }) := by
    obtain ⟨encoded, short⟩ := wirePayload_eq_some.mp (wirePayload_of_size lawful bounded)
    have framing : prepend 2 (payloadOf om message) = some (framed 2 (payloadOf om message)) :=
      prepend_eq_some.mpr ⟨short, rfl⟩
    simp [wireFrame, encoded, framing, Channel.written, active]
  have all (machine : CodecMachine) (active : machine.channel.active = true) :
      ∀ promise ∈ (writeAll om messages machine).1, promise = .success := by
    induction messages generalizing machine with
    | nil => simp [writeAll]
    | cons message messages ih =>
      have first := step message machine.channel (small message (by simp)) active
      simp only [writeAll, write_eq, first, List.forall_mem_cons, true_and]
      exact ih (fun other member => small other (List.mem_cons_of_mem _ member)) _ active
  exact all fresh rfl

/-- A list that is written without an exception is read back as it was, however
its bytes are cut, exactly when every message takes at most 65533 bytes. -/
theorem agrees_iff_fits (lawful : Lawful om) (written : Written om messages) :
    Agrees om messages ↔ ∀ message ∈ messages, messageSize message ≤ 65533 := by
  constructor
  · intro agrees message member
    by_contra unfit
    exact not_agrees_of_unfit lawful written member (Nat.lt_of_not_le unfit) agrees
  · exact agrees_of_fits lawful written

end Agreement

/-- A text of so many one-byte characters. -/
def letters (size : Nat) : String := String.ofList (List.replicate size 'a')

@[simp] theorem utf8ByteSize_letters (size : Nat) : (letters size).utf8ByteSize = size := by
  induction size with
  | zero => rfl
  | succ size ih =>
    have one : (letters (size + 1)) = String.singleton 'a' ++ letters size := by
      simp [letters, List.replicate_succ, String.ofList_cons]
    rw [one, String.utf8ByteSize_append, ih]
    exact Nat.add_comm 1 size

theorem messageSize_letters (size : Nat) (long : 2 ^ 8 ≤ size) (short : size < 2 ^ 16) :
    messageSize { body := some (letters size) } = size + 17 := by
  have header : strHeaderSize size = 3 := by
    rw [strHeaderSize, if_neg (by omega), if_neg (by omega), if_pos short]
  simp only [messageSize, headerSize, bodySize, utf8ByteSize_letters, header]
  omega

/-- A message without a header, a greeting and an empty request. -/
private def threeMessages : List (ProtocolMessage String) :=
  [{ header := none, body := some (letters 300) }, getProtocolMessage (some "hello") .messageBussiness .request,
    getProtocolMessage none .heartBeatReq .request]

theorem agrees_iff_fits_three :
    Agrees msgpack threeMessages ∧ (Agrees msgpack threeMessages ↔
      ∀ message ∈ threeMessages, messageSize message ≤ 65533) := by
  have fit : ∀ message ∈ threeMessages, messageSize message ≤ 65533 := by
    have first : messageSize { header := none, body := some (letters 300) } = 317 :=
      messageSize_letters 300 (by omega) (by omega)
    simp only [threeMessages, List.forall_mem_cons]
    exact ⟨by omega, by decide, by decide, List.forall_mem_nil _⟩
  have agrees := agrees_iff_fits msgpack_lawful
    (written_of_size msgpack_lawful fun message member => by have small := fit message member; omega)
  exact ⟨agrees.mpr fit, agrees⟩

/-- Written without an exception, and not yielded by the peer. -/
theorem oversized_message_is_lost :
    Written msgpack [{ body := some (letters 65517) }] ∧
      ¬ Agrees msgpack [{ body := some (letters 65517) }] := by
  have lost (size : Nat) (exact : size = 65517) :
      Written msgpack [{ body := some (letters size) }] ∧
        ¬ Agrees msgpack [{ body := some (letters size) }] := by
    have total := messageSize_letters size (by omega) (by omega)
    have written : Written msgpack [{ body := some (letters size) }] := by
      apply written_of_size msgpack_lawful
      intro message member
      rw [List.mem_singleton.mp member]
      omega
    exact ⟨written,
      not_agrees_of_unfit msgpack_lawful written (List.mem_singleton_self _) (by omega)⟩
  exact lost 65517 rfl

end Tomas.WireAgreement
