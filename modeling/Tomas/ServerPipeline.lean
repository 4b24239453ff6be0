import Tomas.Delivery

/-! The server's handlers behind the codecs and what one message, one exception
and one close request make them do. The end's own state is the calls made so far
on `ChannelCache`, which all connections share. -/
namespace Tomas.ServerPipeline
open Tomas.Framing Tomas.Pipeline Tomas.Protocol Tomas.Jackson Tomas.Codec
open Tomas.Delivery

/-- A call the server makes on `ChannelCache`, with the channel's long-text id. -/
inductive SessionCall where
  | addSession (channelId : String)
  | removeSession (channelId : String)
  deriving DecidableEq, Repr

abbrev ServerChannel := Channel (List SessionCall)
abbrev ServerMachine := ChannelMachine (List SessionCall)
abbrev ServerHandler := ChannelHandler (List SessionCall)
abbrev ServerContext := ChannelContext (List SessionCall)
abbrev ServerCallback := ChannelCallback (List SessionCall)

/-! ## `HeartBeatRespHandlerAdapter` -/

/-- The stack left for the handler's calls is a parameter. -/
def HeartBeatRespHandlerAdapter.channelRead (stack : Nat) (ctx : ServerContext) (msg : Traffic) :
    ServerCallback Unit := do
  let message ← asProtocolMessage msg
  if hasType message .heartBeatReq then
    match getProtocolMessageNoBody stack .heartBeatRes .request with
    | .error cause => throw cause
    | .ok pm => sendMessage ctx pm.raw
  else
    call (ctx.fireChannelRead msg)

def HeartBeatRespHandlerAdapter.exceptionCaught (ctx : ServerContext) (cause : Throwable) :
    ServerCallback Unit :=
  call (ctx.fireExceptionCaught cause)

def heartBeatRespHandlerAdapter (stack : Nat) : ServerHandler where
  name := .heartBeatResp
  channelRead := some (HeartBeatRespHandlerAdapter.channelRead stack)
  exceptionCaught := some HeartBeatRespHandlerAdapter.exceptionCaught

/-! ## `CloseChannelAdapter` -/

/-- The close is neither forwarded nor is its promise completed. -/
def CloseChannelAdapter.close (_ctx : ChannelOutbound (List SessionCall)) :
    ServerCallback (Promise Throwable) := do
  onChannel fun channel =>
    ((), { channel with own := channel.own ++ [.removeSession channel.id] })
  return .pending

/-- A read timeout is logged; every exception is forwarded. -/
def CloseChannelAdapter.exceptionCaught (ctx : ServerContext) (cause : Throwable) :
    ServerCallback Unit :=
  call (ctx.fireExceptionCaught cause)

def closeChannelAdapter : ServerHandler where
  name := .closeChannelAdapter
  exceptionCaught := some CloseChannelAdapter.exceptionCaught
  close := some CloseChannelAdapter.close

/-! ## `MsgpackServerHandler` -/

/-- `message.setBody("答应:" + message.getBody())`. -/
def reply (message : Message) : Message :=
  { message with body := some (.string ("答应:" ++ valueOf message.body)) }

/-- The same for a message with a string body, or none. -/
def replyTo (message : ProtocolMessage String) : ProtocolMessage String :=
  { message with body := some ("答应:" ++ message.body.getD "null") }

theorem reply_raw (message : ProtocolMessage String) : reply message.raw = (replyTo message).raw := by
  obtain ⟨header, body⟩ := message
  cases body <;> rfl

/-- A reply has the type of its request. -/
@[simp] theorem hasType_reply (message : Message) (type : MessageTypeEnum) :
    hasType (reply message) type = hasType message type := rfl

def MsgpackServerHandler.channelRead (ctx : ServerContext) (msg : Traffic) : ServerCallback Unit := do
  let message ← asProtocolMessage msg
  sendMessage ctx (reply message)

/-- The close's promise is ignored. -/
def MsgpackServerHandler.exceptionCaught (ctx : ServerContext) (_cause : Throwable) :
    ServerCallback Unit := do
  let _ ← request ctx.close

def msgpackServerHandler : ServerHandler where
  name := .msgpackServerHandler
  channelRead := some MsgpackServerHandler.channelRead
  exceptionCaught := some MsgpackServerHandler.exceptionCaught

/-- The handlers `initChannel` adds behind the codecs. -/
def serverHandlers (stack : Nat) : List ServerHandler :=
  [heartBeatRespHandlerAdapter stack, closeChannelAdapter, msgpackServerHandler]

def serverPipeline (om : ObjectMapper) (stack : Nat) : List ServerHandler :=
  codecHandlers om ++ serverHandlers stack

/-! ## Closing -/

/-- `CloseChannelAdapter` has been asked to close. -/
def swallowClose (channel : ServerChannel) : ServerChannel × List Event :=
  ({ channel with own := channel.own ++ [.removeSession channel.id] }, [.close .closeChannelAdapter])

section Closing

variable (om : ObjectMapper) (stack : Nat) (machine : ServerMachine)

theorem channelClose_server :
    channelClose socket (serverPipeline om stack) machine = (.pending, machine.act swallowClose) := rfl

/-- `ctx.close` of `MsgpackServerHandler`. -/
theorem contextClose_last :
    contextClose socket (serverPipeline om stack) 6 machine = (.pending, machine.act swallowClose) := rfl

/-- The handlers before `CloseChannelAdapter` reach the transport. -/
theorem contextClose_front (position : Nat) (front : position < 6) :
    contextClose socket (serverPipeline om stack) position machine =
      (.success, (machine.withChannel { machine.channel with active := false }).log
        [.transportClose]) := by
  match position with
  | 0 | 1 | 2 | 3 | 4 | 5 => rfl

end Closing

/-! ## Exceptions -/

/-- The exception callbacks that run when a handler behind the codecs throws. -/
def failureTrail (position : Nat) (cause : Throwable) : List Event :=
  ([.heartBeatResp, .closeChannelAdapter, .msgpackServerHandler].drop (position - 4)).map
    (.exceptionCaught · cause)

section Exceptions

variable (om : ObjectMapper) (stack : Nat) (cause : Throwable) (machine : ServerMachine)

/-- A throw behind the codecs ends in `MsgpackServerHandler`, whose close goes no
further than `CloseChannelAdapter`. -/
theorem throwAt_handler (position : Nat) (behind : 4 ≤ position) (known : position < 7) :
    throwAt socket (serverPipeline om stack) position cause machine =
      (machine.log (failureTrail position cause)).act swallowClose := by
  match position with
  | 4 =>
    change (((machine.log [.exceptionCaught .heartBeatResp cause]).log
      [.exceptionCaught .closeChannelAdapter cause]).log
        [.exceptionCaught .msgpackServerHandler cause]).act swallowClose = _
    simp [failureTrail]
  | 5 =>
    change ((machine.log [.exceptionCaught .closeChannelAdapter cause]).log
      [.exceptionCaught .msgpackServerHandler cause]).act swallowClose = _
    simp [failureTrail]
  | 6 => rfl

/-- A throw in a codec is logged by a codec. -/
theorem throwAt_codec (position : Nat) (codec : position < 4) :
    throwAt socket (serverPipeline om stack) position cause machine =
      machine.log [.exceptionCaught (if position < 2 then .msgpackDecoder else .msgpackEncoder)
        cause] := by
  match position with
  | 0 | 1 | 2 | 3 => rfl

end Exceptions

/-! ## Messages -/

/-- What the handlers behind the codecs do with a message. -/
def serverEffect (om : ObjectMapper) (message : Message) (channel : ServerChannel) :
    ServerChannel × List Event :=
  if hasType message .heartBeatReq then
    let closing := swallowClose channel
    (closing.1,
      .channelRead .heartBeatResp (.message message) ::
        failureTrail 4 .stackOverflowError ++ closing.2)
  else
    ((channel.written (wireFrame om (reply message))).2,
      .channelRead .heartBeatResp (.message message) ::
        .channelRead .msgpackServerHandler (.message message) :: writeEvents om (reply message))

section Messages

variable {stack : Nat} {message : Message} {machine : ServerMachine}

private theorem heartBeatResp_throws (ctx : ServerContext)
    (asks : hasType message .heartBeatReq = true) :
    HeartBeatRespHandlerAdapter.channelRead stack ctx (.message message) machine =
      (.error .stackOverflowError, machine) := by
  simp only [HeartBeatRespHandlerAdapter.channelRead, asProtocolMessage, pure_bind, asks, if_true,
    getProtocolMessageNoBody_overflows]
  rfl

private theorem heartBeatResp_forwards (ctx : ServerContext)
    (other : hasType message .heartBeatReq = false) :
    HeartBeatRespHandlerAdapter.channelRead stack ctx (.message message) machine =
      (.ok (), ctx.fireChannelRead (.message message) machine) := by
  simp only [HeartBeatRespHandlerAdapter.channelRead, asProtocolMessage, pure_bind, other]
  rfl

theorem serverHandlers_skip_writes : ∀ handler ∈ serverHandlers stack, handler.write = none := by
  intro handler member
  simp only [serverHandlers, List.mem_cons, List.not_mem_nil, or_false] at member
  rcases member with rfl | rfl | rfl <;> rfl

/-- A heartbeat request ends in an exception of the handler that reads it. -/
theorem afterCodecs_heartBeatReq (om : ObjectMapper) (asks : hasType message .heartBeatReq = true) :
    (afterCodecs om (serverHandlers stack)).read (.message message) machine =
      throwAt socket (serverPipeline om stack) 4 .stackOverflowError
        (machine.log [.channelRead .heartBeatResp (.message message)]) := by
  change readAt (heartBeatRespHandlerAdapter stack) _ _ _ = _
  exact readAt_throw rfl (heartBeatResp_throws _ asks)

/-- `serverEffect` is what the chain behind the codecs does with a message,
however deep the stack. -/
theorem afterCodecs_server (om : ObjectMapper) (stack : Nat) (message : Message)
    (machine : ServerMachine) :
    (afterCodecs om (serverHandlers stack)).read (.message message) machine =
      machine.act (serverEffect om message) := by
  cases asks : hasType message .heartBeatReq with
  | true =>
    rw [afterCodecs_heartBeatReq om asks, throwAt_handler om stack _ _ 4 (by omega) (by omega)]
    simp [Machine.act, serverEffect, asks, swallowClose]
  | false =>
    change readAt (heartBeatRespHandlerAdapter stack) _ _ _ = _
    rw [readAt_ok rfl (heartBeatResp_forwards _ asks)]
    have answered (machine : ServerMachine) :
        (inboundAt socket (serverPipeline om stack) 5).read (.message message) machine =
          (channelWrite socket (serverPipeline om stack) (.message (reply message))
            (machine.log [.channelRead .msgpackServerHandler (.message message)])).2 := rfl
    apply (answered _).trans
    rw [serverPipeline, channelWrite_message om _ serverHandlers_skip_writes]
    simp [Machine.act, serverEffect, asks, heartBeatRespHandlerAdapter]

private theorem written_keepsDecoder (channel : ServerChannel) (frame : Except Throwable Bytes)
    (decoder : Decoder) :
    (Channel.written { channel with decoder := decoder } frame).2 =
      { (channel.written frame).2 with decoder := decoder } := by
  cases frame with
  | error cause => rfl
  | ok frame =>
    simp only [Channel.written]
    split <;> rfl

/-- The server's handlers behind the codecs. -/
def serverReceiver (om : ObjectMapper) (stack : Nat) : Receiver om (serverHandlers stack) where
  effect := serverEffect om
  reads := afterCodecs_server om stack
  keepsDecoder message channel decoder := by
    unfold serverEffect
    split
    · rfl
    · rw [written_keepsDecoder]
  runsBehind message channel := by
    unfold serverEffect
    split
    · rfl
    · have replied := behind_writeEvents om (reply message)
      simpa [behind, inDecoders] using replied

/-- The first handler is given every message. -/
theorem handed_serverEffect (om : ObjectMapper) (message : Message) (channel : ServerChannel) :
    handed .heartBeatResp (serverEffect om message channel).2 = [message] := by
  unfold serverEffect
  split
  · rfl
  · have written := handed_writeEvents om .heartBeatResp (reply message)
    simpa [handed] using written

/-- The last handler is given every message that is no heartbeat request. -/
theorem handed_lastHandler (om : ObjectMapper) (message : Message) (channel : ServerChannel) :
    handed .msgpackServerHandler (serverEffect om message channel).2 =
      if hasType message .heartBeatReq then [] else [message] := by
  unfold serverEffect
  split
  · rfl
  · have written := handed_writeEvents om .msgpackServerHandler (reply message)
    simpa [handed] using written

end Messages

/-! ## Runs of messages -/

/-- The payloads of the replies to some messages. -/
def replyPayloads (om : ObjectMapper) (messages : List Message) : List Bytes :=
  messages.flatMap fun message =>
    if hasType message .heartBeatReq then [] else (wirePayload om (reply message)).toList

theorem replyPayloads_append {om : ObjectMapper} {first second : List Message} :
    replyPayloads om (first ++ second) = replyPayloads om first ++ replyPayloads om second :=
  List.flatMap_append ..

private theorem serverEffect_channel {om : ObjectMapper} (message : Message) {channel : ServerChannel}
    (active : channel.active = true) :
    (serverEffect om message channel).1 =
      { channel with
        out := channel.out ++ stream 2 (replyPayloads om [message])
        own := channel.own ++
          if hasType message .heartBeatReq then [.removeSession channel.id] else [] } := by
  rw [replyPayloads, List.flatMap_singleton]
  unfold serverEffect
  split
  · simp [swallowClose]
  · rw [written_active active]
    simp

/-- A run of messages writes the replies and removes the session once for each
heartbeat request. -/
theorem serverEffects_channel (om : ObjectMapper) (stack : Nat) (messages : List Message)
    {channel : ServerChannel} (active : channel.active = true) :
    ((serverReceiver om stack).effects messages channel).1 =
      { channel with
        out := channel.out ++ stream 2 (replyPayloads om messages)
        own := channel.own ++ List.replicate (messages.countP (hasType · .heartBeatReq))
          (.removeSession channel.id) } := by
  induction messages generalizing channel with
  | nil => simp [replyPayloads]
  | cons message messages ih =>
    have step : ((serverReceiver om stack).effect message channel).1 = _ :=
      serverEffect_channel message active
    have later := @ih ((serverReceiver om stack).effect message channel).1 (by rw [step]; exact active)
    have split : replyPayloads om (message :: messages) =
        replyPayloads om [message] ++ replyPayloads om messages := @replyPayloads_append om [message] _
    simp only [Receiver.effects]
    rw [later, step, split, stream_append, List.append_assoc, List.append_assoc]
    cases asks : hasType message .heartBeatReq with
    | true => simp [asks, List.replicate_succ]
    | false => simp [asks]

end Tomas.ServerPipeline
