import Tomas.Conversation

/-! Provenance of authentication. The server never makes up a message type: a
reply has the type of the request it answers, so an `AUTH_CHANNEL_RES` on its way
to a client, and a heartbeat timer it started, go back to one that client sent. -/
namespace Tomas.AuthProvenance
open Tomas.Framing Tomas.Pipeline Tomas.Protocol Tomas.Jackson Tomas.Codec
open Tomas.Delivery Tomas.ServerPipeline Tomas.ClientPipeline Tomas.WireAgreement
open Tomas.Conversation Tomas.Runs

/-- Every payload in flight, every message handed over and the timer go back to
messages the client has sent. -/
structure Provenance (om : ObjectMapper) (sent : List (ProtocolMessage String)) (link : Link) : Prop where
  flight : ∃ requests replies, InFlight link requests replies ∧
    (∀ payload ∈ requests, ∃ message ∈ sent, wirePayload om message.raw = some payload) ∧
    ∀ payload ∈ replies, ∃ message ∈ sent, wirePayload om (replyTo message).raw = some payload
  handed : ∀ message ∈ handed .heartBeatReqHandler link.client.trace,
    ∃ request ∈ sent, message = (replyTo request).raw
  timer : link.client.channel.own ≠ {} → ∃ message ∈ sent, hasType message .authChannelRes = true

section Steps

variable {om : ObjectMapper} {stack : Nat} {calls calls' : List SessionCall} {link after : Link}
  {sent : List (ProtocolMessage String)}

/-- A payload decodes to the message it was written for. -/
private theorem decoded_wirePayload (lawful : Lawful om) {message : ProtocolMessage String}
    {payload : Bytes} (written : wirePayload om message.raw = some payload) :
    decoded om payload = some message.raw := by
  have encoded := (wirePayload_eq_some.mp written).1
  simp only [decoded, lawful.roundTrip message payload encoded]

/-- Messages read from payloads written for known messages are those messages. -/
private theorem readable_written (lawful : Lawful om) {payloads : List Bytes}
    (written : ProtocolMessage String → ProtocolMessage String)
    (known : ∀ payload ∈ payloads, ∃ message ∈ sent, wirePayload om (written message).raw = some payload) :
    ∀ message ∈ readable om payloads, ∃ origin ∈ sent, message = (written origin).raw := by
  intro message member
  obtain ⟨payload, inside, decodes⟩ := List.mem_filterMap.mp member
  obtain ⟨origin, listed, encoded⟩ := known payload (List.mem_of_mem_filter inside)
  rw [decoded_wirePayload lawful encoded] at decodes
  cases decodes
  exact ⟨origin, listed, rfl⟩

private theorem provenance_new (id : String) : Provenance om [] (newLink id) where
  flight := ⟨[], [], inFlight_new id, List.forall_mem_nil _, List.forall_mem_nil _⟩
  handed := List.forall_mem_nil _
  timer changed := absurd rfl changed

private theorem provenance_send (holds : Provenance om sent link) (message : ProtocolMessage String) :
    Provenance om (sent ++ [message])
      { link with client := clientSend om message link.client } := by
  obtain ⟨requests, replies, flight, fromSent, answers⟩ := holds.flight
  refine ⟨⟨_, replies, inFlight_send flight message, ?_, ?_⟩, ?_, ?_⟩
  · intro payload member
    rcases List.mem_append.mp member with member | member
    · obtain ⟨origin, listed, encoded⟩ := fromSent payload member
      exact ⟨origin, List.mem_append_left _ listed, encoded⟩
    · exact ⟨message, by simp, by simpa using member⟩
  · intro payload member
    obtain ⟨origin, listed, encoded⟩ := answers payload member
    exact ⟨origin, List.mem_append_left _ listed, encoded⟩
  · intro other member
    rw [clientSend_eq, Machine.log_trace, handed_append, handed_writeEvents, List.append_nil] at member
    obtain ⟨origin, listed, same⟩ := holds.handed other member
    exact ⟨origin, List.mem_append_left _ listed, same⟩
  · intro changed
    have kept : (clientSend om message link.client).channel.own = link.client.channel.own := by
      rw [clientSend_channel message flight.clientActive]
    obtain ⟨origin, listed, auth⟩ := holds.timer (kept ▸ changed)
    exact ⟨origin, List.mem_append_left _ listed, auth⟩

private theorem provenance_fire (holds : Provenance om sent link) {task : Nat}
    (scheduled : task ∈ link.client.channel.own.scheduled) :
    Provenance om sent { link with client := fireTask om stack task link.client } := by
  obtain ⟨requests, replies, flight, fromSent, answers⟩ := holds.flight
  refine ⟨⟨requests, replies, inFlight_fire flight task, fromSent, answers⟩, ?_, ?_⟩
  · rw [fireTask_drops]
    exact holds.handed
  · intro _
    apply holds.timer
    intro empty
    rw [empty] at scheduled
    cases scheduled

private theorem provenance_serverRead (lawful : Lawful om) (holds : Provenance om sent link)
    {count : Nat} (ran : linkStep om stack calls link (.serverRead count) = some (after, calls')) :
    Provenance om sent after := by
  obtain ⟨requests, replies, flight, fromSent, answers⟩ := holds.flight
  obtain ⟨taken, later, rfl, moved, client, -, -⟩ := inFlight_serverRead flight count ran
  refine ⟨⟨later, _, moved, ?_, ?_⟩, ?_, ?_⟩
  · intro payload member
    exact fromSent payload (List.mem_append_right _ member)
  · intro payload member
    rcases List.mem_append.mp member with member | member
    · exact answers payload member
    · -- a new reply answers a message the client sent
      obtain ⟨request, read, replied⟩ := List.mem_flatMap.mp member
      obtain ⟨origin, listed, rfl⟩ := readable_written lawful id
        (fun payload member => fromSent payload (List.mem_append_left _ member)) request read
      split at replied
      · cases replied
      · rw [id, reply_raw] at replied
        exact ⟨origin, listed, by simpa using replied⟩
  · rw [client]
    exact holds.handed
  · rw [client]
    exact holds.timer

private theorem provenance_clientRead (lawful : Lawful om) (holds : Provenance om sent link)
    {count : Nat} (ran : linkStep om stack calls link (.clientRead count) = some (after, calls')) :
    Provenance om sent after := by
  obtain ⟨requests, replies, flight, fromSent, answers⟩ := holds.flight
  obtain ⟨taken, later, rfl, moved, delivered, -, -, -⟩ := inFlight_clientRead flight count ran
  have origins := readable_written lawful replyTo
    (fun payload member => answers payload (List.mem_append_left later member))
  refine ⟨⟨requests, later, moved, fromSent, ?_⟩, ?_, ?_⟩
  · intro payload member
    exact answers payload (List.mem_append_right _ member)
  · intro message member
    rw [(clientReceiver om).handed_of_delivered (by decide) handed_clientEffect delivered,
      List.flatMap_singleton', List.mem_append] at member
    rcases member with member | member
    · exact holds.handed message member
    · exact origins message member
  · intro changed
    by_cases auth : ∃ message ∈ readable om taken, hasType message .authChannelRes = true
    · obtain ⟨message, member, auth⟩ := auth
      obtain ⟨origin, listed, rfl⟩ := origins message member
      exact ⟨origin, listed, auth⟩
    · have quiet : ∀ message ∈ readable om taken, hasType message .authChannelRes = false := by
        intro message member
        by_contra found
        exact auth ⟨message, member, by simpa using found⟩
      have kept := (clientEffects_keep om (readable om taken) link.client.channel).2 quiet
      rw [delivered.channel] at changed
      apply holds.timer
      rw [← kept]
      exact changed

/-- Whatever can happen on a connection keeps the provenance. -/
theorem provenance_step (lawful : Lawful om) (action : LinkAction) (holds : Provenance om sent link)
    (ran : linkStep om stack calls link action = some (after, calls')) :
    Provenance om (sent ++ action.sent) after := by
  cases action with
  | send message =>
    cases ran
    exact provenance_send holds message
  | fire task =>
    rw [LinkAction.sent, List.append_nil]
    obtain ⟨scheduled, rfl⟩ := fire_cases ran
    exact provenance_fire holds scheduled
  | serverRead count =>
    rw [LinkAction.sent, List.append_nil]
    exact provenance_serverRead lawful holds ran
  | clientRead count =>
    rw [LinkAction.sent, List.append_nil]
    exact provenance_clientRead lawful holds ran

end Steps

section Runs

variable {om : ObjectMapper} {stack : Nat} {actions : List Action} {system : System} {id : String}
  {link : Link}

/-- In every run, an `AUTH_CHANNEL_RES` in flight to a client and every task it
has scheduled are preceded by one that client sent; and a client that sends only
business messages and `AUTH_CHANNEL_REQ` never reads one and starts no timer. -/
theorem authentication_goes_back_to_the_client (lawful : Lawful om)
    (ran : exec (step om stack) start actions = some system) (linked : system.links id = some link) :
    (∀ payload ∈ inFlight 2 link.client.channel.decoder link.server.channel.out,
      ∀ message, decoded om payload = some message → hasType message .authChannelRes = true →
        ∃ sent ∈ sentBy id actions, hasType sent .authChannelRes = true) ∧
    (∀ task, task ∈ link.client.channel.own.scheduled ∨ task < link.client.channel.own.nextTask →
      ∃ sent ∈ sentBy id actions, hasType sent .authChannelRes = true) ∧
    ((∀ sent ∈ sentBy id actions,
        hasType sent .messageBussiness = true ∨ hasType sent .authChannelReq = true) →
      (∀ message ∈ handed .heartBeatReqHandler link.client.trace,
        hasType message .authChannelRes = false) ∧
      link.client.channel.own = {}) := by
  have holds : Provenance om (sentBy id actions) link :=
    link_invariant id (Provenance om) (provenance_new id)
      (fun sent before action after calls calls' holds ran => provenance_step lawful action holds ran)
      ran linked
  obtain ⟨requests, replies, flight, -, answers⟩ := holds.flight
  refine ⟨?_, ?_, ?_⟩
  · intro payload member message decodes auth
    rw [show (2 : Nat) = frameParams.lengthFieldLength from rfl,
      inFlight_eq frameParams_plain flight.toClient] at member
    obtain ⟨origin, listed, encoded⟩ := answers payload member
    rw [decoded_wirePayload lawful encoded] at decodes
    cases decodes
    exact ⟨origin, listed, auth⟩
  · intro task known
    apply holds.timer
    intro empty
    rw [empty] at known
    rcases known with scheduled | earlier
    · cases scheduled
    · cases earlier
  · intro plain
    have none : ∀ sent ∈ sentBy id actions, hasType sent .authChannelRes = false := by
      intro sent listed
      by_contra auth
      have auth : hasType sent .authChannelRes = true := by simpa using auth
      rcases plain sent listed with business | asks
      · cases hasType_unique business auth
      · cases hasType_unique asks auth
    constructor
    · intro message member
      obtain ⟨origin, listed, rfl⟩ := holds.handed message member
      exact none origin listed
    · by_contra changed
      obtain ⟨origin, listed, auth⟩ := holds.timer changed
      rw [none origin listed] at auth
      cases auth

/-- One client sends an `AUTH_CHANNEL_RES` itself, the other a business message;
the server has echoed both. -/
private def echoed : List Action :=
  [.connect "a", .connect "b", .on "b" (.send (businessMessage (some "hello"))),
    .on "a" (.send (getProtocolMessage none .authChannelRes .authSuccess)), .on "a" (.serverRead 1000),
    .on "b" (.serverRead 1000)]

/-- Both have read their echo. -/
private def echoRead : List Action := echoed ++ [.on "a" (.clientRead 1000), .on "b" (.clientRead 1000)]

/-- The echo in flight and the timer it starts go back to what the first client
has sent; the other one has no timer. -/
theorem echo_goes_back_to_the_client :
    (∃ system link message, exec (step msgpack 100) start echoed = some system ∧
      system.links "a" = some link ∧
      (inFlight 2 link.client.channel.decoder link.server.channel.out).map (decoded msgpack) =
        [some message] ∧
      hasType message .authChannelRes = true ∧
      ∃ sent ∈ sentBy "a" echoed, hasType sent .authChannelRes = true) ∧
    (∃ system link, exec (step msgpack 100) start echoRead = some system ∧ system.links "a" = some link ∧
      link.client.channel.own.scheduled = [0] ∧
      ∃ sent ∈ sentBy "a" echoRead, hasType sent .authChannelRes = true) ∧
    ∃ system link, exec (step msgpack 100) start echoRead = some system ∧ system.links "b" = some link ∧
      (handed .heartBeatReqHandler link.client.trace).length = 1 ∧ link.client.channel.own = {} := by
  refine ⟨?_, ?_, ?_⟩
  · let echo := replyTo (getProtocolMessage none .authChannelRes .authSuccess)
    refine ⟨_, _, echo.raw, rfl, rfl, ?_⟩
    have inFlight := (@authentication_goes_back_to_the_client msgpack 100 echoed _ "a" _ msgpack_lawful
      rfl rfl).1 (payloadOf msgpack echo) (by decide +kernel) echo.raw (by decide +kernel) (by decide)
    exact ⟨by decide +kernel, by decide, inFlight⟩
  · refine ⟨_, _, rfl, rfl, ?_⟩
    have started := (@authentication_goes_back_to_the_client msgpack 100 echoRead _ "a" _ msgpack_lawful
      rfl rfl).2.1 0 (Or.inl (by decide +kernel))
    exact ⟨by decide +kernel, started⟩
  · refine ⟨_, _, rfl, rfl, ?_⟩
    have silent := (@authentication_goes_back_to_the_client msgpack 100 echoRead _ "b" _ msgpack_lawful
      rfl rfl).2.2 (by decide)
    exact ⟨by decide +kernel, silent.2⟩

end Runs

end Tomas.AuthProvenance
