import Tomas.Conversation

/-! Requests and their replies, over any number of clients. As long as a client's
messages and their replies fit, and none is of a type the heartbeat handlers
consume, what its business handler has read is the beginning of the list of its
own messages, each answered. -/
namespace Tomas.RequestReply
open Tomas.Framing Tomas.Pipeline Tomas.Protocol Tomas.Jackson Tomas.Codec
open Tomas.Delivery Tomas.ServerPipeline Tomas.ClientPipeline Tomas.WireAgreement
open Tomas.Conversation Tomas.Runs

/-- A message no handler on the way consumes, which fits with its reply. -/
structure Plain (message : ProtocolMessage String) : Prop where
  notRequest : hasType message .heartBeatReq = false
  notResponse : hasType message .heartBeatRes = false
  notAuth : hasType message .authChannelRes = false
  fits : messageSize message ≤ 65533
  replyFits : messageSize (replyTo message) ≤ 65533

/-- The messages sent are those answered and read, those whose replies are in
flight, and those in flight themselves, in this order. -/
structure Exchanged (om : ObjectMapper) (sent : List (ProtocolMessage String)) (link : Link)
    (read waiting pending : List (ProtocolMessage String)) : Prop where
  split : sent = read ++ waiting ++ pending
  flight : InFlight link (pending.map (payloadOf om)) (waiting.map fun message => payloadOf om (replyTo message))
  handed : handed .messageBusinessHandler link.client.trace = read.map fun message => (replyTo message).raw
  pendingSettled : link.client.channel.out = [] → pending = []
  waitingSettled : link.server.channel.out = [] → waiting = []

/-- The invariant of a connection whose client sends plain messages only. -/
def Orderly (om : ObjectMapper) (sent : List (ProtocolMessage String)) (link : Link) : Prop :=
  (∀ message ∈ sent, Plain message) → ∃ read waiting pending, Exchanged om sent link read waiting pending

section Payloads

variable {om : ObjectMapper}

private theorem readable_payloads (lawful : Lawful om) (messages : List (ProtocolMessage String))
    (fit : ∀ message ∈ messages, messageSize message ≤ 65533) :
    (∀ payload ∈ messages.map (payloadOf om), Fits frameParams payload) ∧
      readable om (messages.map (payloadOf om)) = messages.map .raw := by
  have encoded (message : ProtocolMessage String) (member : message ∈ messages) :
      om.writeValueAsBytes message.raw = .ok (payloadOf om message) := by
    have small := fit message member
    exact (wirePayload_eq_some.mp (wirePayload_of_size lawful (by omega))).1
  have fits : ∀ payload ∈ messages.map (payloadOf om), Fits frameParams payload := by
    intro payload member
    obtain ⟨message, listed, rfl⟩ := List.mem_map.mp member
    exact (fits_payloadOf lawful (encoded message listed)).mpr (fit message listed)
  refine ⟨fits, ?_⟩
  have back : ∀ message ∈ messages, (decoded om ∘ payloadOf om) message = some message.raw :=
    fun message listed => decoded_payloadOf lawful (encoded message listed)
  rw [readable, List.filter_eq_self.mpr (by simpa using fits), List.filterMap_map,
    List.filterMap_congr back]
  exact congrFun List.filterMap_eq_map messages

private theorem replyPayloads_plain (lawful : Lawful om) (messages : List (ProtocolMessage String))
    (plain : ∀ message ∈ messages, Plain message) :
    replyPayloads om (messages.map .raw) = messages.map fun message => payloadOf om (replyTo message) := by
  induction messages with
  | nil => rfl
  | cons message messages ih =>
    have first := plain message (by simp)
    have small := first.replyFits
    have notRequest : hasType message.raw .heartBeatReq = false := first.notRequest
    have reply : (wirePayload om (reply message.raw)).toList = [payloadOf om (replyTo message)] := by
      rw [reply_raw, wirePayload_of_size lawful (by omega)]
      rfl
    have later := ih fun other member => plain other (List.mem_cons_of_mem _ member)
    simp only [replyPayloads, List.map_cons, List.flatMap_cons, notRequest, reply] at later ⊢
    rw [later]
    rfl

/-- No reply to a plain message is consumed on its way to the business handler. -/
private theorem business_replies (messages : List (ProtocolMessage String))
    (plain : ∀ message ∈ messages, Plain message) :
    ((messages.map replyTo).map .raw).flatMap (fun message =>
        if hasType message .authChannelRes ∨ hasType message .heartBeatRes then [] else [message]) =
      messages.map fun message => (replyTo message).raw := by
  induction messages with
  | nil => rfl
  | cons message messages ih =>
    have first := plain message (by simp)
    have notAuth : hasType (replyTo message).raw .authChannelRes = false := first.notAuth
    have notResponse : hasType (replyTo message).raw .heartBeatRes = false := first.notResponse
    have later := ih fun other member => plain other (List.mem_cons_of_mem _ member)
    rw [List.map_cons, List.map_cons, List.flatMap_cons, List.map_cons, later,
      if_neg (by simp [notAuth, notResponse])]
    rfl

end Payloads

section Steps

variable {om : ObjectMapper} {stack : Nat} {calls calls' : List SessionCall} {link after : Link}
  {sent read waiting pending : List (ProtocolMessage String)}

private theorem exchanged_new (om : ObjectMapper) (id : String) :
    Exchanged om [] (newLink id) [] [] [] :=
  ⟨rfl, inFlight_new id, rfl, fun _ => rfl, fun _ => rfl⟩

private theorem exchanged_send (lawful : Lawful om) (message : ProtocolMessage String)
    (plain : Plain message) (holds : Exchanged om sent link read waiting pending) :
    Exchanged om (sent ++ [message]) { link with client := clientSend om message link.client }
      read waiting (pending ++ [message]) := by
  have small := plain.fits
  have encoded : wirePayload om message.raw = some (payloadOf om message) :=
    wirePayload_of_size lawful (by omega)
  have out := @clientSend_channel om message _ holds.flight.clientActive
  have flight := @inFlight_send om _ _ _ holds.flight message
  rw [encoded] at out flight
  constructor
  · rw [holds.split]
    simp
  · simpa using flight
  · rw [clientSend_eq, Machine.log_trace, handed_append, handed_writeEvents, List.append_nil]
    exact holds.handed
  · intro empty
    rw [out] at empty
    have none := stream_eq_nil (by omega) (List.append_eq_nil_iff.mp empty).2
    cases none
  · exact holds.waitingSettled

private theorem exchanged_fire (holds : Exchanged om sent link read waiting pending) (task : Nat) :
    Exchanged om sent { link with client := fireTask om stack task link.client } read waiting pending := by
  have flight := @inFlight_fire om stack _ _ _ holds.flight task
  rw [fireTask_drops] at flight ⊢
  exact ⟨holds.split, flight, holds.handed, holds.pendingSettled, holds.waitingSettled⟩

/-- The server answers the first of the pending messages. -/
private theorem exchanged_serverRead (lawful : Lawful om) (plain : ∀ message ∈ sent, Plain message)
    (holds : Exchanged om sent link read waiting pending) {count : Nat}
    (ran : linkStep om stack calls link (.serverRead count) = some (after, calls')) :
    ∃ answered later, pending = answered ++ later ∧
      Exchanged om sent after read (waiting ++ answered) later := by
  obtain ⟨taken, remaining, split, moved, client, out, exhausted, -⟩ :=
    inFlight_serverRead holds.flight count ran
  obtain ⟨answered, later, rfl, rfl, rfl⟩ := List.map_eq_append_iff.mp split
  have plainPending : ∀ message ∈ answered ++ later, Plain message := by
    intro message member
    exact plain message (by rw [holds.split]; exact List.mem_append_right _ member)
  have plainAnswered : ∀ message ∈ answered, Plain message :=
    fun message member => plainPending message (List.mem_append_left _ member)
  have reading := (readable_payloads lawful answered fun message member => (plainAnswered message member).fits).2
  have fitting := (readable_payloads lawful (answered ++ later)
    fun message member => (plainPending message member).fits).1
  rw [reading, replyPayloads_plain lawful answered plainAnswered] at moved out
  refine ⟨answered, later, rfl, ?_, ?_, ?_, ?_, ?_⟩
  · rw [holds.split]
    simp
  · rw [List.map_append]
    exact moved
  · rw [client]
    exact holds.handed
  · intro empty
    exact List.map_eq_nil_iff.mp (exhausted fitting empty)
  · intro empty
    rw [out] at empty
    obtain ⟨before, added⟩ := List.append_eq_nil_iff.mp empty
    have none := List.map_eq_nil_iff.mp (stream_eq_nil (by omega) added)
    rw [holds.waitingSettled before, none]
    rfl

/-- The client reads the first of the waiting replies. -/
private theorem exchanged_clientRead (lawful : Lawful om) (plain : ∀ message ∈ sent, Plain message)
    (holds : Exchanged om sent link read waiting pending) {count : Nat}
    (ran : linkStep om stack calls link (.clientRead count) = some (after, calls')) :
    ∃ arrived later, waiting = arrived ++ later ∧
      Exchanged om sent after (read ++ arrived) later pending := by
  obtain ⟨taken, remaining, split, moved, delivered, server, out, exhausted⟩ :=
    inFlight_clientRead holds.flight count ran
  have replies (messages : List (ProtocolMessage String)) :
      messages.map (fun message => payloadOf om (replyTo message)) =
        (messages.map replyTo).map (payloadOf om) := by
    rw [List.map_map]
    rfl
  obtain ⟨arrived, later, rfl, rfl, rfl⟩ := List.map_eq_append_iff.mp split
  have plainWaiting : ∀ message ∈ arrived ++ later, Plain message := by
    intro message member
    apply plain message
    rw [holds.split]
    exact List.mem_append_left _ (List.mem_append_right _ member)
  have fitReplies (messages : List (ProtocolMessage String))
      (known : ∀ message ∈ messages, Plain message) :
      ∀ reply ∈ messages.map replyTo, messageSize reply ≤ 65533 := by
    intro reply member
    obtain ⟨message, listed, rfl⟩ := List.mem_map.mp member
    exact (known message listed).replyFits
  have plainArrived : ∀ message ∈ arrived, Plain message :=
    fun message member => plainWaiting message (List.mem_append_left _ member)
  have reading := (readable_payloads lawful (arrived.map replyTo) (fitReplies arrived plainArrived)).2
  have fitting := (readable_payloads lawful ((arrived ++ later).map replyTo)
    (fitReplies _ plainWaiting)).1
  rw [replies, reading] at delivered
  refine ⟨arrived, later, rfl, ?_, moved, ?_, ?_, ?_⟩
  · rw [holds.split]
    simp
  · rw [(clientReceiver om).handed_of_delivered (by decide) handed_business delivered, holds.handed,
      List.map_append, business_replies arrived plainArrived]
  · intro empty
    rw [out] at empty
    exact holds.pendingSettled empty
  · intro empty
    rw [replies] at exhausted
    exact List.map_eq_nil_iff.mp (exhausted fitting empty)

/-- Whatever can happen on a connection keeps it orderly. -/
theorem orderly_step (lawful : Lawful om) (action : LinkAction) (holds : Orderly om sent link)
    (ran : linkStep om stack calls link action = some (after, calls')) :
    Orderly om (sent ++ action.sent) after := by
  intro plain
  obtain ⟨read, waiting, pending, exchanged⟩ :=
    holds fun message member => plain message (List.mem_append_left _ member)
  cases action with
  | send message =>
    cases ran
    have last : Plain message := plain message (List.mem_append_right _ (List.mem_singleton_self _))
    exact ⟨read, waiting, _, exchanged_send lawful message last exchanged⟩
  | fire task =>
    rw [LinkAction.sent, List.append_nil]
    obtain ⟨-, rfl⟩ := fire_cases ran
    exact ⟨read, waiting, pending, exchanged_fire exchanged task⟩
  | serverRead count =>
    rw [LinkAction.sent, List.append_nil] at plain ⊢
    obtain ⟨answered, later, -, next⟩ := exchanged_serverRead lawful plain exchanged ran
    exact ⟨read, _, later, next⟩
  | clientRead count =>
    rw [LinkAction.sent, List.append_nil] at plain ⊢
    obtain ⟨arrived, later, -, next⟩ := exchanged_clientRead lawful plain exchanged ran
    exact ⟨_, later, pending, next⟩

end Steps

section Runs

variable {om : ObjectMapper} {stack : Nat} {actions : List Action} {system : System} {id : String}
  {link : Link}

/-- In every run, a client of plain messages has been handed the replies to the
first of them, in order, and once nothing is in flight the replies to all. -/
theorem replies_follow_requests (lawful : Lawful om)
    (ran : exec (step om stack) start actions = some system) (linked : system.links id = some link)
    (plain : ∀ message ∈ sentBy id actions, Plain message) :
    handed .messageBusinessHandler link.client.trace <+:
      (sentBy id actions).map (fun message => (replyTo message).raw) ∧
    (link.client.channel.out = [] → link.server.channel.out = [] →
      handed .messageBusinessHandler link.client.trace =
        (sentBy id actions).map fun message => (replyTo message).raw) := by
  have orderly : Orderly om (sentBy id actions) link :=
    link_invariant id (Orderly om) (fun _ => ⟨[], [], [], exchanged_new om id⟩)
      (fun sent before action after calls calls' holds ran => orderly_step lawful action holds ran)
      ran linked
  obtain ⟨read, waiting, pending, exchanged⟩ := orderly plain
  rw [exchanged.handed, exchanged.split]
  constructor
  · rw [List.append_assoc, List.map_append]
    exact List.prefix_append _ _
  · intro served returned
    rw [exchanged.pendingSettled served, exchanged.waitingSettled returned, List.append_nil,
      List.append_nil]

/-- Two clients; the messages of the first are read in pieces, and its first reply
has arrived. -/
private def partlyRead : List Action :=
  [.connect "a", .connect "b", .on "a" (.send (businessMessage (some "hello"))),
    .on "a" (.send { header := none, body := none }), .on "b" (.send (businessMessage none)),
    .on "a" (.serverRead 30), .on "a" (.serverRead 40), .on "b" (.serverRead 1000), .on "a" (.clientRead 1000)]

private def read : List Action := partlyRead ++ [.on "a" (.serverRead 1000), .on "a" (.clientRead 1000)]

private theorem plain_read : ∀ message ∈ sentBy "a" read, Plain message := by
  intro message listed
  have either : message = businessMessage (some "hello") ∨ message = { header := none, body := none } := by
    simpa [read, partlyRead, sentBy, Action.sentBy, LinkAction.sent] using listed
  rcases either with rfl | rfl <;> constructor <;> decide

/-- One reply has been handed over at first, and both in the end. -/
theorem replies_follow_requests_read :
    (∃ system link, exec (step msgpack 100) start partlyRead = some system ∧ system.links "a" = some link ∧
      handed .messageBusinessHandler link.client.trace <+:
        [(replyTo (businessMessage (some "hello"))).raw, (replyTo { header := none, body := none }).raw] ∧
      (handed .messageBusinessHandler link.client.trace).length = 1) ∧
    ∃ system link, exec (step msgpack 100) start read = some system ∧ system.links "a" = some link ∧
      handed .messageBusinessHandler link.client.trace =
        [(replyTo (businessMessage (some "hello"))).raw, (replyTo { header := none, body := none }).raw] := by
  constructor
  · refine ⟨_, _, rfl, rfl, ?_⟩
    refine ⟨?_, by decide +kernel⟩
    exact (@replies_follow_requests msgpack 100 partlyRead _ "a" _ msgpack_lawful rfl rfl plain_read).1
  · refine ⟨_, _, rfl, rfl, ?_⟩
    exact (@replies_follow_requests msgpack 100 read _ "a" _ msgpack_lawful rfl rfl plain_read).2
      (by decide +kernel) (by decide +kernel)

end Runs

end Tomas.RequestReply
