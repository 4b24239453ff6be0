import Tomas.Delivery

/-! The agent's handlers behind the codecs, its heartbeat timer, and what one
message, one exception and one firing of the timer make them do. -/
namespace Tomas.ClientPipeline
open Tomas.Framing Tomas.Pipeline Tomas.Protocol Tomas.Jackson Tomas.Codec
open Tomas.Delivery

/-- The `heartBeat` field of the handler, and the tasks its executor will run
again. -/
structure Timer where
  heartBeat : Option Nat := none
  scheduled : List Nat := []
  nextTask : Nat := 0
  deriving DecidableEq, Repr

abbrev ClientChannel := Channel Timer
abbrev ClientMachine := ChannelMachine Timer
abbrev ClientHandler := ChannelHandler Timer
abbrev ClientContext := ChannelContext Timer
abbrev ClientCallback := ChannelCallback Timer

def Timer.scheduleAtFixedRate (timer : Timer) : Timer where
  heartBeat := some timer.nextTask
  scheduled := timer.scheduled ++ [timer.nextTask]
  nextTask := timer.nextTask + 1

/-- The executor drops a task that is cancelled or whose run throws. -/
def Timer.drop (timer : Timer) (task : Nat) : Timer :=
  { timer with scheduled := timer.scheduled.erase task }

/-- `if (heartBeat == null)`, tested again under the lock. -/
def Timer.authenticated (timer : Timer) : Timer :=
  match timer.heartBeat with
  | none => timer.scheduleAtFixedRate
  | some _ => timer

def Timer.cancelled (timer : Timer) : Timer :=
  match timer.heartBeat with
  | none => timer
  | some task => { timer.drop task with heartBeat := none }

/-! ## `HeartBeatReqHandler` -/

def HeartBeatReqHandler.channelRead (ctx : ClientContext) (msg : Traffic) : ClientCallback Unit := do
  let message ← asProtocolMessage msg
  if hasType message .authChannelRes then
    onChannel fun channel => ((), { channel with own := channel.own.authenticated })
  else if hasType message .heartBeatRes then
    pure ()
  else
    call (ctx.fireChannelRead msg)

def HeartBeatReqHandler.exceptionCaught (ctx : ClientContext) (cause : Throwable) :
    ClientCallback Unit := do
  onChannel fun channel => ((), { channel with own := channel.own.cancelled })
  call (ctx.fireExceptionCaught cause)

def heartBeatReqHandler : ClientHandler where
  name := .heartBeatReqHandler
  channelRead := some HeartBeatReqHandler.channelRead
  exceptionCaught := some HeartBeatReqHandler.exceptionCaught

/-- The stack left for the run is a parameter. -/
def HeartBeatTask.run (stack : Nat) (ctx : ClientContext) : ClientCallback Unit := do
  match getProtocolMessageNoBody stack .heartBeatReq .request with
  | .error cause => throw cause
  | .ok msg => sendMessage ctx msg.raw

/-! ## `MsgpackDecoderHandler` -/

/-- The body is logged. -/
def MsgpackDecoderHandler.channelRead (_ctx : ClientContext) (msg : Traffic) : ClientCallback Unit := do
  let _ ← asProtocolMessage msg

def MsgpackDecoderHandler.exceptionCaught (ctx : ClientContext) (_cause : Throwable) :
    ClientCallback Unit := do
  let _ ← request ctx.close

def msgpackDecoderHandler : ClientHandler where
  name := .messageBusinessHandler
  channelRead := some MsgpackDecoderHandler.channelRead
  exceptionCaught := some MsgpackDecoderHandler.exceptionCaught

/-- The handlers `initChannel` adds behind the codecs. -/
def clientHandlers : List ClientHandler := [heartBeatReqHandler, msgpackDecoderHandler]

def clientPipeline (om : ObjectMapper) : List ClientHandler := codecHandlers om ++ clientHandlers

/-! ## `Client` -/

/-- The message `sendMessage` builds. -/
def businessMessage (msg : Option String) : ProtocolMessage String :=
  getProtocolMessage msg .messageBussiness .request

/-- Any message written to the channel. -/
def clientSend (om : ObjectMapper) (message : ProtocolMessage String) (machine : ClientMachine) :
    ClientMachine :=
  (channelWrite socket (clientPipeline om) (.message message.raw) machine).2

/-- Without a channel there is only a warning. -/
def sendMessage (om : ObjectMapper) (msg : Option String) : Option ClientMachine → Option ClientMachine
  | none => none
  | some machine => some (clientSend om (businessMessage msg) machine)

/-- The context the task was made with. -/
def heartBeatContext (om : ObjectMapper) : ClientContext :=
  contextOf socket (channelWrite socket (clientPipeline om)) (codecHandlers om).reverse
    (inboundAt socket (clientPipeline om) 5)

/-- A period has passed. The executor keeps the task unless its run throws. -/
def fireTask (om : ObjectMapper) (stack : Nat) (task : Nat) (machine : ClientMachine) : ClientMachine :=
  match HeartBeatTask.run stack (heartBeatContext om) machine with
  | (.ok (), machine) => machine
  | (.error _, machine) =>
    machine.withChannel { machine.channel with own := machine.channel.own.drop task }

/-! ## What they do -/

theorem clientHandlers_skip_writes : ∀ handler ∈ clientHandlers, handler.write = none := by
  intro handler member
  simp only [clientHandlers, List.mem_cons, List.not_mem_nil, or_false] at member
  rcases member with rfl | rfl <;> rfl

theorem clientSend_eq (om : ObjectMapper) (message : ProtocolMessage String)
    (machine : ClientMachine) :
    clientSend om message machine =
      (machine.withChannel (machine.channel.written (wireFrame om message.raw)).2).log
        (writeEvents om message.raw) := by
  rw [clientSend, clientPipeline, channelWrite_message om _ clientHandlers_skip_writes]

/-- The run overflows the stack before anything is sent. -/
theorem fireTask_drops (om : ObjectMapper) (stack : Nat) (task : Nat) (machine : ClientMachine) :
    fireTask om stack task machine =
      machine.withChannel { machine.channel with own := machine.channel.own.drop task } := by
  have ran : HeartBeatTask.run stack (heartBeatContext om) machine =
      (.error .stackOverflowError, machine) := by
    simp only [HeartBeatTask.run, getProtocolMessageNoBody_overflows]
    rfl
  simp only [fireTask, ran]

/-- What the handlers behind the codecs do with a message. -/
def clientEffect (message : Message) (channel : ClientChannel) : ClientChannel × List Event :=
  if hasType message .authChannelRes then
    ({ channel with own := channel.own.authenticated },
      [.channelRead .heartBeatReqHandler (.message message)])
  else if hasType message .heartBeatRes then
    (channel, [.channelRead .heartBeatReqHandler (.message message)])
  else
    (channel, [.channelRead .heartBeatReqHandler (.message message),
      .channelRead .messageBusinessHandler (.message message)])

section Messages

variable {message : Message} {machine : ClientMachine}

private theorem heartBeatReq_reads (ctx : ClientContext) :
    HeartBeatReqHandler.channelRead ctx (.message message) machine =
      (.ok (),
        if hasType message .authChannelRes then
          machine.withChannel { machine.channel with own := machine.channel.own.authenticated }
        else if hasType message .heartBeatRes then machine
        else ctx.fireChannelRead (.message message) machine) := by
  simp only [HeartBeatReqHandler.channelRead, asProtocolMessage, pure_bind]
  cases hasType message .authChannelRes with
  | true => rfl
  | false => cases hasType message .heartBeatRes <;> rfl

/-- `clientEffect` is what the chain behind the codecs does with a message. -/
theorem afterCodecs_client (om : ObjectMapper) (message : Message) (machine : ClientMachine) :
    (afterCodecs om clientHandlers).read (.message message) machine =
      machine.act (clientEffect message) := by
  change readAt heartBeatReqHandler _ _ _ = _
  rw [readAt_ok rfl (heartBeatReq_reads _)]
  have logged (machine : ClientMachine) :
      (inboundAt socket (clientPipeline om) 5).read (.message message) machine =
        machine.log [.channelRead .messageBusinessHandler (.message message)] := rfl
  simp only [Machine.act, clientEffect]
  split
  · rfl
  · split
    · rfl
    · apply (logged _).trans
      rw [Machine.log_log, Machine.withChannel_self]
      rfl

/-- The client's handlers behind the codecs. -/
def clientReceiver (om : ObjectMapper) : Receiver om clientHandlers where
  effect := clientEffect
  reads := afterCodecs_client om
  keepsDecoder message channel decoder := by
    unfold clientEffect
    split
    · rfl
    · split <;> rfl
  runsBehind message channel := by
    unfold clientEffect
    split
    · rfl
    · split <;> rfl

/-- The first handler is given every message. -/
theorem handed_clientEffect (message : Message) (channel : ClientChannel) :
    handed .heartBeatReqHandler (clientEffect message channel).2 = [message] := by
  unfold clientEffect
  split
  · rfl
  · split <;> rfl

/-- The business handler is given what the heartbeat handler does not consume. -/
theorem handed_business (message : Message) (channel : ClientChannel) :
    handed .messageBusinessHandler (clientEffect message channel).2 =
      if hasType message .authChannelRes ∨ hasType message .heartBeatRes then [] else [message] := by
  unfold clientEffect
  split
  · rename_i auth
    rw [if_pos (Or.inl auth)]
    rfl
  · rename_i notAuth
    split
    · rename_i beat
      rw [if_pos (Or.inr beat)]
      rfl
    · rename_i notBeat
      rw [if_neg (by simp [notAuth, notBeat])]
      rfl

/-- Only an authentication changes what the client's end keeps. -/
theorem clientEffects_keep (om : ObjectMapper) (messages : List Message) (channel : ClientChannel) :
    ((clientReceiver om).effects messages channel).1 =
      { channel with own := ((clientReceiver om).effects messages channel).1.own } ∧
    ((∀ message ∈ messages, hasType message .authChannelRes = false) →
      ((clientReceiver om).effects messages channel).1.own = channel.own) := by
  induction messages generalizing channel with
  | nil => exact ⟨rfl, fun _ => rfl⟩
  | cons message messages ih =>
    have step : ((clientReceiver om).effect message channel).1 =
        if hasType message .authChannelRes then { channel with own := channel.own.authenticated }
        else channel := by
      change (clientEffect message channel).1 = _
      unfold clientEffect
      split
      · rfl
      · split <;> rfl
    obtain ⟨kept, quiet⟩ := ih ((clientReceiver om).effect message channel).1
    simp only [Receiver.effects]
    constructor
    · rw [kept, step]
      split <;> rfl
    · intro none
      rw [quiet fun other member => none other (List.mem_cons_of_mem _ member), step,
        none message (by simp)]
      rfl

end Messages

end Tomas.ClientPipeline
