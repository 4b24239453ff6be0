import Tomas.Conversation

/-! What becomes of every message a client sends, of whatever type and size, while
any number of clients send and read in any order. What the business handler has
been given, then what it will be given for the replies under way, then for the
requests under way, is what the messages sent so far are worth, each by itself. So
a message that is dropped, refused or consumed takes nothing else with it. -/
namespace Tomas.ReplyAccounts
open Tomas.Framing Tomas.Pipeline Tomas.Protocol Tomas.Jackson Tomas.Codec
open Tomas.Delivery Tomas.ServerPipeline Tomas.ClientPipeline Tomas.WireAgreement
open Tomas.Conversation Tomas.Runs

/-- What the business handler is given in the end for one message. -/
def answer (message : ProtocolMessage String) : List Message :=
  if messageSize message ≤ 65533 ∧ messageSize (replyTo message) ≤ 65533 ∧
      hasType message .heartBeatReq = false ∧ hasType message .heartBeatRes = false ∧
      hasType message .authChannelRes = false then
    [(replyTo message).raw]
  else []

/-- What `HeartBeatReqHandler` passes on. -/
def passedOn (messages : List Message) : List Message :=
  messages.flatMap fun message =>
    if hasType message .authChannelRes ∨ hasType message .heartBeatRes then [] else [message]

/-- What the business handler will be given for payloads on their way to it. -/
def forReplies (om : ObjectMapper) (payloads : List Bytes) : List Message :=
  passedOn (readable om payloads)

/-- The same for payloads on their way to the server. -/
def forRequests (om : ObjectMapper) (payloads : List Bytes) : List Message :=
  forReplies om (replyPayloads om (readable om payloads))

section Payloads

variable {om : ObjectMapper} {first second : List Bytes}

theorem forReplies_append :
    forReplies om (first ++ second) = forReplies om first ++ forReplies om second := by
  rw [forReplies, readable_append, passedOn, List.flatMap_append]
  rfl

private theorem forRequests_append :
    forRequests om (first ++ second) = forRequests om first ++ forRequests om second := by
  rw [forRequests, readable_append, replyPayloads_append, forReplies_append]
  rfl

/-- What is read of a message that is written, if it is. -/
theorem readable_wire (lawful : Lawful om) (message : ProtocolMessage String) :
    readable om (wirePayload om message.raw).toList =
      if messageSize message ≤ 65533 then [message.raw] else [] := by
  by_cases small : messageSize message ≤ 65533
  · have written := wirePayload_of_size lawful (by omega : messageSize message < 256 ^ 2)
    have encoded := (wirePayload_eq_some.mp written).1
    have fits := (fits_payloadOf lawful encoded).mpr small
    rw [written, if_pos small, Option.toList_some, readable, List.filter_cons_of_pos (by simpa using fits),
      List.filter_nil, List.filterMap_cons, decoded_payloadOf lawful encoded]
    rfl
  · rw [if_neg small]
    cases written : wirePayload om message.raw with
    | none => rfl
    | some payload =>
      have length := lawful.size message payload (wirePayload_eq_some.mp written).1
      have unfit : ¬ Fits frameParams payload := by
        simp only [Fits, frameParams]
        omega
      rw [Option.toList_some, readable, List.filter_cons_of_neg (by simpa using unfit)]
      rfl

private theorem forRequests_wire (lawful : Lawful om) (message : ProtocolMessage String) :
    forRequests om (wirePayload om message.raw).toList = answer message := by
  have same (type : MessageTypeEnum) : hasType (replyTo message).raw type = hasType message type := rfl
  have raw (type : MessageTypeEnum) : hasType message.raw type = hasType message type := rfl
  rw [forRequests, readable_wire lawful, answer]
  by_cases small : messageSize message ≤ 65533
  · rw [if_pos small]
    cases beat : hasType message .heartBeatReq with
    | true => simp [replyPayloads, forReplies, readable, passedOn, raw, beat]
    | false =>
      have replied : replyPayloads om [message.raw] = (wirePayload om (replyTo message).raw).toList := by
        simp [replyPayloads, raw, beat, reply_raw]
      rw [replied, forReplies, readable_wire lawful]
      by_cases smallReply : messageSize (replyTo message) ≤ 65533
      · rw [if_pos smallReply, passedOn, List.flatMap_singleton, same, same]
        cases hasType message .authChannelRes <;> cases hasType message .heartBeatRes <;>
          simp [small, smallReply]
      · simp [smallReply, passedOn]
  · simp [small, replyPayloads, forReplies, readable, passedOn]

end Payloads

/-! ## The balance of one connection -/

/-- The two streams, and what they are worth. -/
def Balanced (om : ObjectMapper) (sent : List (ProtocolMessage String)) (link : Link) : Prop :=
  ∃ requests replies, InFlight link requests replies ∧
    handed .messageBusinessHandler link.client.trace ++ forReplies om replies ++ forRequests om requests =
      sent.flatMap answer

theorem balanced_new (om : ObjectMapper) (id : String) : Balanced om [] (newLink id) :=
  ⟨[], [], inFlight_new id, rfl⟩

section Steps

variable {om : ObjectMapper} {stack : Nat} {calls calls' : List SessionCall} {link after : Link}
  {sent : List (ProtocolMessage String)}

theorem balanced_step (lawful : Lawful om) (action : LinkAction) (balanced : Balanced om sent link)
    (ran : linkStep om stack calls link action = some (after, calls')) :
    Balanced om (sent ++ action.sent) after := by
  obtain ⟨requests, replies, flight, balance⟩ := balanced
  cases action with
  | send message =>
    cases ran
    refine ⟨_, replies, inFlight_send flight message, ?_⟩
    rw [clientSend_eq, Machine.log_trace, handed_append, handed_writeEvents, List.append_nil,
      Machine.withChannel_trace, forRequests_append, forRequests_wire lawful, ← List.append_assoc, balance, LinkAction.sent,
      List.flatMap_append, List.flatMap_singleton]
  | fire task =>
    obtain ⟨-, rfl⟩ := fire_cases ran
    refine ⟨requests, replies, inFlight_fire flight task, ?_⟩
    rw [fireTask_drops, LinkAction.sent, List.append_nil]
    exact balance
  | serverRead count =>
    obtain ⟨taken, later, rfl, moved, client, -⟩ := inFlight_serverRead flight count ran
    refine ⟨later, _, moved, ?_⟩
    rw [LinkAction.sent, List.append_nil, ← balance, client, forReplies_append, forRequests_append]
    simp only [List.append_assoc]
    rfl
  | clientRead count =>
    obtain ⟨taken, later, rfl, moved, delivered, -⟩ := inFlight_clientRead flight count ran
    refine ⟨requests, later, moved, ?_⟩
    rw [LinkAction.sent, List.append_nil, ← balance, forReplies_append,
      (clientReceiver om).handed_of_delivered (by decide) handed_business delivered]
    simp only [List.append_assoc]
    rfl

end Steps

/-- The payloads under way to the server, and to the client. -/
def requestsUnderWay (link : Link) : List Bytes :=
  inFlight 2 link.server.channel.decoder link.client.channel.out

def repliesUnderWay (link : Link) : List Bytes :=
  inFlight 2 link.client.channel.decoder link.server.channel.out

section Runs

variable {om : ObjectMapper} {stack : Nat} {actions : List Action} {system : System} {id : String}
  {link : Link}

theorem balanced_run (lawful : Lawful om) (ran : exec (step om stack) start actions = some system)
    (linked : system.links id = some link) : Balanced om (sentBy id actions) link :=
  link_invariant id (Balanced om) (balanced_new om id)
    (fun _ _ action _ _ _ holds ran => balanced_step lawful action holds ran) ran linked

/-- In every run the accounts of every client balance, and so what its business
handler has been given is the beginning of what its messages are worth. -/
theorem accounts_balance (lawful : Lawful om)
    (ran : exec (step om stack) start actions = some system) (linked : system.links id = some link) :
    handed .messageBusinessHandler link.client.trace ++ forReplies om (repliesUnderWay link) ++
        forRequests om (requestsUnderWay link) = (sentBy id actions).flatMap answer := by
  obtain ⟨requests, replies, flight, balance⟩ := balanced_run lawful ran linked
  have toServer : requestsUnderWay link = requests := inFlight_eq frameParams_plain flight.toServer
  have toClient : repliesUnderWay link = replies := inFlight_eq frameParams_plain flight.toClient
  rw [toServer, toClient]
  exact balance

/-- The first message of a client has been answered, the reply to its second is
under way, and so are two more, one of a type that is consumed. -/
private def underWay : List Action :=
  [.connect "a", .connect "b", .on "a" (.send (businessMessage (some "hello"))),
    .on "a" (.send { header := none, body := none }), .on "a" (.serverRead 62), .on "a" (.clientRead 1000),
    .on "b" (.send (businessMessage none)), .on "a" (.serverRead 1000),
    .on "a" (.send { header := some { type := 3 }, body := none }), .on "a" (.send (businessMessage none))]

theorem accounts_balance_under_way :
    ∃ system link,
      exec (step msgpack 100) start underWay = some system ∧ system.links "a" = some link ∧
      handed .messageBusinessHandler link.client.trace = [(replyTo (businessMessage (some "hello"))).raw] ∧
      forReplies msgpack (repliesUnderWay link) = [(replyTo { header := none, body := none }).raw] ∧
      forRequests msgpack (requestsUnderWay link) = [(replyTo (businessMessage none)).raw] ∧
      handed .messageBusinessHandler link.client.trace ++ forReplies msgpack (repliesUnderWay link) ++
        forRequests msgpack (requestsUnderWay link) =
          [(replyTo (businessMessage (some "hello"))).raw, (replyTo { header := none, body := none }).raw,
            (replyTo (businessMessage none)).raw] := by
  refine ⟨_, _, rfl, rfl, ?_⟩
  refine ⟨by decide +kernel, by decide +kernel, by decide +kernel, ?_⟩
  have balance := @accounts_balance msgpack 100 underWay _ "a" _ msgpack_lawful rfl rfl
  exact balance.trans (by decide)

end Runs

end Tomas.ReplyAccounts
