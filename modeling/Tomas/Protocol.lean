import Mathlib.Data.List.Basic

/-! The messages the agent and the server exchange: `MessageTypeEnum`,
`MessageStatusEnum`, `Header`, `ProtocolMessage` and the factory methods of
`MessageUtil`. A Java string is well-formed Unicode text here. -/
namespace Tomas.Protocol

inductive MessageTypeEnum where
  | heartBeatReq
  | heartBeatRes
  | messageBussiness
  | authChannelReq
  | offLine
  | authChannelRes
  deriving DecidableEq, Repr

def MessageTypeEnum.getMessageCode : MessageTypeEnum → Int8
  | .heartBeatReq => 2
  | .heartBeatRes => 3
  | .messageBussiness => 4
  | .authChannelReq => 5
  | .offLine => 6
  | .authChannelRes => 7

inductive MessageStatusEnum where
  | authSuccess
  | authFaild
  | request
  deriving DecidableEq, Repr

structure Header where
  crcCode : Int32 := 0xccdc0101
  length : Int32 := 0
  sessionID : Int64 := 0
  type : Int8 := 0
  deriving DecidableEq, Repr

structure ProtocolMessage (T : Type) where
  header : Option Header := none
  body : Option T := none
  deriving DecidableEq, Repr

/-- A body as the raw type gives it. Of an object that is not a string the
program only ever uses the string form. -/
inductive Object where
  | string (value : String)
  | other (toString : String)
  deriving DecidableEq, Repr

abbrev Message := ProtocolMessage Object

/-- A message with a string body, seen through the raw type. -/
def ProtocolMessage.raw (message : ProtocolMessage String) : Message :=
  { header := message.header, body := message.body.map .string }

/-- `String.valueOf`, as string concatenation applies it. -/
def valueOf : Option Object → String
  | none => "null"
  | some (.string value) => value
  | some (.other text) => text

/-- The throwables that can cross a handler. -/
inductive Throwable where
  | stackOverflowError
  | classCastException
  | nullPointerException
  | illegalArgumentException
  | decoderException
  | tooLongFrameException
  | corruptedFrameException
  | closedChannelException
  | unsupportedOperationException
  | ioException
  | readTimeoutException
  | other (code : Nat)
  deriving DecidableEq, Repr

/-- `header != null && header.getType() == type.getMessageCode()`. -/
def hasType {T : Type} (message : ProtocolMessage T) (type : MessageTypeEnum) : Bool :=
  match message.header with
  | none => false
  | some header => header.type == type.getMessageCode

/-! ## `MessageUtil` -/

/-- The status is not written anywhere. -/
def getHeader (messageType : MessageTypeEnum) (_messageStatus : MessageStatusEnum) : Header :=
  { type := messageType.getMessageCode, length := 0, sessionID := 0 }

def getProtocolMessage (msg : Option String) (messageType : MessageTypeEnum)
    (messageStatus : MessageStatusEnum) : ProtocolMessage String :=
  { header := some (getHeader messageType messageStatus), body := msg }

/-- The overload without a body. Its only statement calls the same overload
with the same arguments, so each call takes one more frame off the stack. -/
def getProtocolMessageNoBody :
    Nat → MessageTypeEnum → MessageStatusEnum → Except Throwable (ProtocolMessage String)
  | 0, _, _ => .error .stackOverflowError
  | frames + 1, messageType, messageStatus =>
    getProtocolMessageNoBody frames messageType messageStatus

/-- The overload returns no message on any stack, however deep. -/
theorem getProtocolMessageNoBody_overflows (frames : Nat) (messageType : MessageTypeEnum)
    (messageStatus : MessageStatusEnum) :
    getProtocolMessageNoBody frames messageType messageStatus = .error .stackOverflowError := by
  induction frames with
  | zero => rfl
  | succ frames ih => exact ih

/-- A message has at most the one type its header names. -/
theorem hasType_unique {T : Type} {message : ProtocolMessage T} {first second : MessageTypeEnum}
    (isFirst : hasType message first = true) (isSecond : hasType message second = true) :
    first = second := by
  unfold hasType at isFirst isSecond
  cases named : message.header with
  | none => simp [named] at isFirst
  | some header =>
    simp only [named, beq_iff_eq] at isFirst isSecond
    rw [isFirst] at isSecond
    revert isSecond
    cases first <;> cases second <;> decide

end Tomas.Protocol
