import Tomas.Jackson
import Tomas.Pipeline

/-! The four codec handlers both ends add first: the two frame codecs with the
arguments the program passes, `MsgpackDecoder` and `MsgpackEncoder`. -/
namespace Tomas.Codec
open Tomas.Framing Tomas.Pipeline Tomas.Protocol Tomas.Jackson

/-- The names of the handlers of both pipelines. -/
inductive HandlerName where
  | frameDecoder
  | msgpackDecoder
  | frameEncoder
  | msgpackEncoder
  | heartBeatResp
  | closeChannelAdapter
  | msgpackServerHandler
  | heartBeatReqHandler
  | messageBusinessHandler
  deriving DecidableEq, Repr

/-- What travels through a pipeline. -/
inductive Traffic where
  | byteBuf (bytes : Bytes)
  | message (message : Message)
  deriving DecidableEq, Repr

/-- One end of a connection: its identifier, the frame decoder's state, the
socket with the bytes written and not yet read by the peer, and what the end's
own handlers keep. -/
structure Channel (χ : Type) where
  id : String
  decoder : Decoder := {}
  active : Bool := true
  out : Bytes := []
  own : χ

variable {χ : Type}

abbrev ChannelMachine (χ : Type) := Machine (Channel χ) HandlerName Traffic Throwable
abbrev ChannelHandler (χ : Type) := Handler (Channel χ) HandlerName Traffic Throwable
abbrev Event := Invocation HandlerName Traffic Throwable

/-- The socket takes buffers only, and only while it is open. -/
def socket : Transport (Channel χ) Traffic Throwable where
  write msg channel :=
    match msg with
    | .message _ => (.failure .unsupportedOperationException, channel)
    | .byteBuf bytes =>
      if channel.active then (.success, { channel with out := channel.out ++ bytes })
      else (.failure .closedChannelException, channel)
  close channel := (.success, { channel with active := false })

/-- A callback of a handler on such a channel. -/
abbrev ChannelCallback (χ α : Type) := Callback (Channel χ) HandlerName Traffic Throwable α
abbrev ChannelContext (χ : Type) := Context (Channel χ) HandlerName Traffic Throwable
abbrev ChannelOutbound (χ : Type) := Outbound (Channel χ) HandlerName Traffic Throwable

/-- The cast `(ProtocolMessage) msg`. -/
def asProtocolMessage : Traffic → ChannelCallback χ Message
  | .message message => pure message
  | .byteBuf _ => throw .classCastException

/-- `MessageUtil.sendMessage(ctx, pm)`; the write's future is ignored. -/
def sendMessage (ctx : ChannelContext χ) (pm : Message) : ChannelCallback χ Unit := do
  let _ ← request (ctx.writeAndFlush (.message pm))

/-! ## The frame codecs -/

/-- `new LengthFieldBasedFrameDecoder(65535, 0, 2, 0, 2)`. -/
def frameParams : Params where
  maxFrameLength := 65535
  lengthFieldOffset := 0
  lengthFieldLength := 2
  lengthAdjustment := 0
  initialBytesToStrip := 2

theorem frameParams_plain : frameParams.Plain := ⟨rfl, rfl, rfl, by decide⟩

def frameException : Failure → Throwable
  | .tooLongFrame _ => .tooLongFrameException
  | .corruptedFrame => .corruptedFrameException

/-- Whole frames are passed on one by one; an exception comes after them. -/
def LengthFieldBasedFrameDecoder.channelRead (ctx : ChannelContext χ) (msg : Traffic) :
    ChannelCallback χ Unit :=
  match msg with
  | .message _ => call (ctx.fireChannelRead msg)
  | .byteBuf chunk => do
    let received ← onChannel fun channel =>
      let received := feed frameParams channel.decoder chunk
      (received, { channel with decoder := received.next })
    call fun machine =>
      received.frames.foldl (fun machine frame => ctx.fireChannelRead (.byteBuf frame) machine) machine
    match received.failure with
    | none => pure ()
    | some failure => throw (frameException failure)

def lengthFieldBasedFrameDecoder : ChannelHandler χ where
  name := .frameDecoder
  channelRead := some LengthFieldBasedFrameDecoder.channelRead

/-- `new LengthFieldPrepender(2)`. -/
def LengthFieldPrepender.write (ctx : ChannelOutbound χ) (msg : Traffic) :
    ChannelCallback χ (Promise Throwable) :=
  match msg with
  | .message _ => request (ctx.write msg)
  | .byteBuf payload =>
    match prepend 2 payload with
    | none => throw .illegalArgumentException
    | some bytes => request (ctx.write (.byteBuf bytes))

def lengthFieldPrepender : ChannelHandler χ where
  name := .frameEncoder
  write := some LengthFieldPrepender.write

/-! ## `MsgpackDecoder` and `MsgpackEncoder` -/

/-- What Jackson returns goes on a list that takes no null. -/
def MsgpackDecoder.channelRead (om : ObjectMapper) (ctx : ChannelContext χ) (msg : Traffic) :
    ChannelCallback χ Unit :=
  match msg with
  | .message _ => call (ctx.fireChannelRead msg)
  | .byteBuf bytes =>
    match om.readValue bytes with
    | .error _ | .ok none => throw .decoderException
    | .ok (some message) => call (ctx.fireChannelRead (.message message))

/-- It logs and does not forward. -/
def MsgpackDecoder.exceptionCaught (_ctx : ChannelContext χ) (_cause : Throwable) :
    ChannelCallback χ Unit := pure ()

def msgpackDecoder (om : ObjectMapper) : ChannelHandler χ where
  name := .msgpackDecoder
  channelRead := some (MsgpackDecoder.channelRead om)
  exceptionCaught := some MsgpackDecoder.exceptionCaught

def MsgpackEncoder.write (om : ObjectMapper) (ctx : ChannelOutbound χ) (msg : Traffic) :
    ChannelCallback χ (Promise Throwable) := do
  let message ← asProtocolMessage msg
  match om.writeValueAsBytes message with
  | .error cause => throw cause
  | .ok bytes => request (ctx.write (.byteBuf bytes))

/-- It logs and does not forward. -/
def MsgpackEncoder.exceptionCaught (_ctx : ChannelContext χ) (_cause : Throwable) :
    ChannelCallback χ Unit := pure ()

def msgpackEncoder (om : ObjectMapper) : ChannelHandler χ where
  name := .msgpackEncoder
  write := some (MsgpackEncoder.write om)
  exceptionCaught := some MsgpackEncoder.exceptionCaught

/-- The handlers both `initChannel` methods add first, in this order. -/
def codecHandlers (om : ObjectMapper) : List (ChannelHandler χ) :=
  [lengthFieldBasedFrameDecoder, msgpackDecoder om, lengthFieldPrepender, msgpackEncoder om]

/-! ## Writing a message -/

/-- What a message becomes on the wire, or why it does not get there. -/
def wireFrame (om : ObjectMapper) (message : Message) : Except Throwable Bytes :=
  match om.writeValueAsBytes message with
  | .error cause => .error cause
  | .ok payload =>
    match prepend 2 payload with
    | none => .error .illegalArgumentException
    | some frame => .ok frame

/-- The callbacks a write runs on its way to the socket. -/
def writeEvents (om : ObjectMapper) (message : Message) : List Event :=
  .write .msgpackEncoder (.message message) ::
    match om.writeValueAsBytes message with
    | .error _ => []
    | .ok payload =>
      .write .frameEncoder (.byteBuf payload) ::
        match prepend 2 payload with
        | none => []
        | some frame => [.transportWrite (.byteBuf frame)]

/-- The channel after a write: the frame is behind everything written before. -/
def Channel.written (channel : Channel χ) (frame : Except Throwable Bytes) :
    Promise Throwable × Channel χ :=
  match frame with
  | .error cause => (.failure cause, channel)
  | .ok frame =>
    if channel.active then (.success, { channel with out := channel.out ++ frame })
    else (.failure .closedChannelException, channel)

/-- The payload a message is framed with, if it can be written. -/
def wirePayload (om : ObjectMapper) (message : Message) : Option Bytes :=
  match om.writeValueAsBytes message with
  | .error _ => none
  | .ok payload => if payload.length < 256 ^ 2 then some payload else none

theorem wirePayload_eq_some {om : ObjectMapper} {message : Message} {payload : Bytes} :
    wirePayload om message = some payload ↔
      om.writeValueAsBytes message = .ok payload ∧ payload.length < 256 ^ 2 := by
  unfold wirePayload
  cases om.writeValueAsBytes message with
  | error cause => simp
  | ok encoded =>
    by_cases bounded : encoded.length < 256 ^ 2
    · simp only [if_pos bounded, Option.some.injEq, Except.ok.injEq]
      constructor
      · rintro rfl
        exact ⟨rfl, bounded⟩
      · exact fun ⟨same, _⟩ => same
    · simp only [if_neg bounded, reduceCtorEq, Except.ok.injEq, false_iff, not_and]
      rintro rfl
      exact bounded

/-- On an open channel a write appends the frame, if there is one. -/
theorem written_active {channel : Channel χ} (active : channel.active = true) (om : ObjectMapper)
    (message : Message) :
    (channel.written (wireFrame om message)).2 =
      { channel with out := channel.out ++ stream 2 (wirePayload om message).toList } := by
  unfold wireFrame wirePayload
  cases om.writeValueAsBytes message with
  | error cause => simp [Channel.written]
  | ok payload =>
    by_cases bounded : payload.length < 256 ^ 2
    · have framing : prepend 2 payload = some (framed 2 payload) :=
        prepend_eq_some.mpr ⟨bounded, rfl⟩
      simp only [framing, if_pos bounded, Channel.written, active, if_true, Option.toList_some,
        stream_cons, stream_nil, List.append_nil]
    · have refused : prepend 2 payload = none := if_pos (Nat.le_of_not_lt bounded)
      simp only [refused, if_neg bounded, Channel.written, Option.toList_none, stream_nil,
        List.append_nil]

section Writing

variable {om : ObjectMapper} {message : Message} {machine : ChannelMachine χ}
  {payload : Bytes} {cause : Throwable}

private theorem encoder_throws (ctx : ChannelOutbound χ)
    (encoded : om.writeValueAsBytes message = .error cause) :
    MsgpackEncoder.write om ctx (.message message) machine = (.error cause, machine) := by
  simp only [MsgpackEncoder.write, asProtocolMessage, pure_bind, encoded]
  rfl

private theorem encoder_writes (ctx : ChannelOutbound χ)
    (encoded : om.writeValueAsBytes message = .ok payload) :
    MsgpackEncoder.write om ctx (.message message) machine =
      (.ok (ctx.write (.byteBuf payload) machine).1, (ctx.write (.byteBuf payload) machine).2) := by
  simp only [MsgpackEncoder.write, asProtocolMessage, pure_bind, encoded]
  rfl

private theorem prepender_throws (ctx : ChannelOutbound χ) (refused : prepend 2 payload = none) :
    LengthFieldPrepender.write ctx (.byteBuf payload) machine =
      (.error .illegalArgumentException, machine) := by
  simp only [LengthFieldPrepender.write, refused]
  rfl

/-- A write from the tail goes through the two encoders to the socket, whatever
handlers that leave writes alone come after the codecs. -/
theorem channelWrite_message (om : ObjectMapper) (rest : List (ChannelHandler χ))
    (skip : ∀ handler ∈ rest, handler.write = none) (message : Message) (machine : ChannelMachine χ) :
    channelWrite socket (codecHandlers om ++ rest) (.message message) machine =
      ((machine.channel.written (wireFrame om message)).1,
        (machine.withChannel (machine.channel.written (wireFrame om message)).2).log
          (writeEvents om message)) := by
  have reversed : ∀ handler ∈ rest.reverse, handler.write = none :=
    fun handler member => skip handler (List.mem_reverse.mp member)
  simp only [channelWrite, List.reverse_append]
  rw [outbound_write_append _ reversed]
  simp only [wireFrame, writeEvents, codecHandlers, List.reverse_cons, List.reverse_nil,
    List.nil_append, List.cons_append, outbound, msgpackEncoder, lengthFieldPrepender, settle]
  cases encoded : om.writeValueAsBytes message with
  | error cause => simp [encoder_throws _ encoded, Channel.written]
  | ok payload =>
    simp only [encoder_writes _ encoded]
    cases fits : prepend 2 payload with
    | none => simp [prepender_throws _ fits, Channel.written]
    | some frame =>
      simp only [LengthFieldPrepender.write, fits, request, msgpackDecoder,
        lengthFieldBasedFrameDecoder, socket]
      cases active : machine.channel.active <;> simp [active, Channel.written]

end Writing

/-! ## Reading a piece of the stream -/

/-- The chain behind the codecs. -/
def afterCodecs (om : ObjectMapper) (rest : List (ChannelHandler χ)) :
    Inbound (Channel χ) HandlerName Traffic Throwable :=
  inboundAt socket (codecHandlers om ++ rest) 4

/-- One whole frame's payload, from the frame decoder on. -/
def deliver (om : ObjectMapper) (rest : List (ChannelHandler χ)) (machine : ChannelMachine χ)
    (payload : Bytes) : ChannelMachine χ :=
  match om.readValue payload with
  | .error _ | .ok none =>
    machine.log [.channelRead .msgpackDecoder (.byteBuf payload),
      .exceptionCaught .msgpackDecoder .decoderException]
  | .ok (some message) =>
    (afterCodecs om rest).read (.message message)
      (machine.log [.channelRead .msgpackDecoder (.byteBuf payload)])

/-- What the frame decoder's exception leaves behind: `MsgpackDecoder` logs it. -/
def failureEvents : Option Failure → List Event
  | none => []
  | some failure => [.exceptionCaught .msgpackDecoder (frameException failure)]

/-- A piece of the stream arrives at the head of a pipeline that starts with the
codecs: its whole frames are delivered in order. -/
def readChunk (om : ObjectMapper) (rest : List (ChannelHandler χ)) (machine : ChannelMachine χ)
    (chunk : Bytes) : ChannelMachine χ :=
  let received := feed frameParams machine.channel.decoder chunk
  let decoded := (machine.withChannel { machine.channel with decoder := received.next }).log
    [.channelRead .frameDecoder (.byteBuf chunk)]
  (received.frames.foldl (deliver om rest) decoded).log (failureEvents received.failure)

section Reading

variable {om : ObjectMapper} {rest : List (ChannelHandler χ)} {machine : ChannelMachine χ}
  {message : Message} {payload : Bytes}

private theorem decoder_throws (ctx : ChannelContext χ)
    (bad : ∀ message, om.readValue payload ≠ .ok (some message)) :
    MsgpackDecoder.channelRead om ctx (.byteBuf payload) machine =
      (.error .decoderException, machine) := by
  simp only [MsgpackDecoder.channelRead]
  cases decoded : om.readValue payload with
  | error cause => rfl
  | ok value =>
    cases value with
    | none => rfl
    | some message => exact absurd decoded (bad message)

private theorem decoder_reads (ctx : ChannelContext χ)
    (good : om.readValue payload = .ok (some message)) :
    MsgpackDecoder.channelRead om ctx (.byteBuf payload) machine =
      (.ok (), ctx.fireChannelRead (.message message) machine) := by
  simp only [MsgpackDecoder.channelRead, good]
  rfl

private theorem frameDecoder_reads (ctx : ChannelContext χ) (machine : ChannelMachine χ)
    (chunk : Bytes) :
    LengthFieldBasedFrameDecoder.channelRead ctx (.byteBuf chunk) machine =
      let received := feed frameParams machine.channel.decoder chunk
      ((match received.failure with
        | none => .ok ()
        | some failure => .error (frameException failure)),
        received.frames.foldl (fun machine frame => ctx.fireChannelRead (.byteBuf frame) machine)
          (machine.withChannel { machine.channel with decoder := received.next })) := by
  simp only [LengthFieldBasedFrameDecoder.channelRead, onChannel, call, bind, ExceptT.bind,
    ExceptT.mk, StateT.bind, ExceptT.bindCont]
  cases (feed frameParams machine.channel.decoder chunk).failure <;> rfl

/-- A payload that is no message runs nothing behind the codecs. -/
theorem deliver_bad (rest : List (ChannelHandler χ)) (machine : ChannelMachine χ)
    (bad : ∀ message, om.readValue payload ≠ .ok (some message)) :
    deliver om rest machine payload =
      machine.log [.channelRead .msgpackDecoder (.byteBuf payload),
        .exceptionCaught .msgpackDecoder .decoderException] := by
  unfold deliver
  split
  · rfl
  · rfl
  · rename_i message decoded
    exact absurd decoded (bad message)

theorem deliver_good (rest : List (ChannelHandler χ)) (machine : ChannelMachine χ)
    (good : om.readValue payload = .ok (some message)) :
    deliver om rest machine payload =
      (afterCodecs om rest).read (.message message)
        (machine.log [.channelRead .msgpackDecoder (.byteBuf payload)]) := by
  simp only [deliver, good]

/-- `deliver` is what the chain behind the frame decoder does with a payload. -/
theorem read_payload (om : ObjectMapper) (rest : List (ChannelHandler χ))
    (machine : ChannelMachine χ) (payload : Bytes) :
    (inboundAt socket (codecHandlers om ++ rest) 1).read (.byteBuf payload) machine =
      deliver om rest machine payload := by
  change readAt (msgpackDecoder om) _ _ _ = _
  by_cases good : ∃ message, om.readValue payload = .ok (some message)
  · obtain ⟨message, good⟩ := good
    rw [readAt_ok rfl (decoder_reads _ good), deliver_good rest machine good]
    rfl
  · have bad := not_exists.mp good
    rw [readAt_throw rfl (decoder_throws _ bad), deliver_bad rest machine bad]
    simp [catchAt, msgpackDecoder, MsgpackDecoder.exceptionCaught]
    rfl

/-- `readChunk` is what a pipeline that starts with the codecs does with a piece
of the stream. -/
theorem fireChannelRead_chunk (om : ObjectMapper) (rest : List (ChannelHandler χ))
    (machine : ChannelMachine χ) (chunk : Bytes) :
    fireChannelRead socket (codecHandlers om ++ rest) (.byteBuf chunk) machine =
      readChunk om rest machine chunk := by
  let next := inboundAt socket (codecHandlers om ++ rest) 1
  have passed : (fun (machine : ChannelMachine χ) frame => next.read (.byteBuf frame) machine) =
      deliver om rest := by
    funext machine payload
    exact read_payload om rest machine payload
  change readAt lengthFieldBasedFrameDecoder (contextOf _ _ [] next) _ _ = _
  have ran := frameDecoder_reads
    (contextOf socket (channelWrite socket (codecHandlers om ++ rest)) [] next)
    (machine.log [.channelRead .frameDecoder (.byteBuf chunk)]) chunk
  simp only [Machine.log_channel, Machine.log_withChannel, contextOf, passed] at ran
  simp only [readChunk]
  cases failed : (feed frameParams machine.channel.decoder chunk).failure with
  | none =>
    simp only [failed] at ran
    rw [readAt_ok rfl ran]
    simp [failureEvents]
  | some failure =>
    simp only [failed] at ran
    rw [readAt_throw rfl ran]
    rfl

end Reading

end Tomas.Codec
