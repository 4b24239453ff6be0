import Tomas.ReplyAccounts

/-! Whether every request that reaches the server can be answered. The reply is
the request with a prefix of seven bytes in front of its body, so requests of
more than 65526 bytes get through and their replies do not, in whatever order and
in whatever pieces everything is read. -/
namespace Tomas.ReplySize
open Tomas.Framing Tomas.Msgpack Tomas.Pipeline Tomas.Protocol Tomas.Jackson Tomas.Codec
open Tomas.Delivery Tomas.ServerPipeline Tomas.ClientPipeline Tomas.WireAgreement
open Tomas.Conversation Tomas.ReplyAccounts Tomas.Runs

/-! ## The size of a reply -/

private theorem utf8ByteSize_answer (text : String) :
    ("答应:" ++ text).utf8ByteSize = 7 + text.utf8ByteSize := by
  have marker : "答应:".utf8ByteSize = 7 := by decide
  rw [String.utf8ByteSize_append, marker]

/-- Near the limits the prefix costs seven bytes. -/
theorem replyTo_fits_iff (request : ProtocolMessage String) (fits : messageSize request ≤ 65533) :
    messageSize (replyTo request) ≤ 65533 ↔ messageSize request ≤ 65526 := by
  have header : headerSize request.header ≤ 67 := by
    cases request.header with
    | none => decide
    | some header =>
      have crcCode := intSize_le header.crcCode.toInt
      have length := intSize_le header.length.toInt
      have sessionID := intSize_le header.sessionID.toInt
      have type := intSize_le header.type.toInt
      simp only [headerSize]
      omega
  simp only [messageSize, replyTo, bodySize, utf8ByteSize_answer] at fits ⊢
  cases body : request.body with
  | none =>
    have null : "null".utf8ByteSize = 4 := by decide
    simp [body, null, strHeaderSize] at fits ⊢
    omega
  | some text =>
    simp only [body, Option.getD_some, strHeaderSize] at fits ⊢
    split_ifs at fits ⊢ <;> omega

/-! ## What the server has read -/

/-- The requests that the server has read are the first of those that were sent
and fit. It has written a reply to each, as far as its encoders let it, and what
gets through goes to the client's business handler. -/
structure Replied (om : ObjectMapper) (sent : List (ProtocolMessage String)) (link : Link)
    (requests replies : List Bytes) : Prop where
  flight : InFlight link requests replies
  heard : handed .heartBeatResp link.server.trace ++ readable om requests =
    (sent.filter (messageSize · ≤ 65533)).map ProtocolMessage.raw
  written : ∀ message ∈ handed .heartBeatResp link.server.trace, hasType message .heartBeatReq = false →
    ∀ event ∈ writeEvents om (reply message), event ∈ link.server.trace
  returned : handed .messageBusinessHandler link.client.trace ++ forReplies om replies =
    forReplies om (replyPayloads om (handed .heartBeatResp link.server.trace))

section Reads

variable {om : ObjectMapper} {stack : Nat} {calls calls' : List SessionCall} {link after : Link}
  {sent : List (ProtocolMessage String)} {requests replies : List Bytes} {message : Message}
  {messages : List Message}

private theorem written_outside {event : Event} (member : event ∈ writeEvents om message) :
    inDecoders event = false := by
  rw [← behind_writeEvents] at member
  simpa using (List.mem_filter.mp member).2

/-- Each message of a run of messages is replied to. -/
private theorem writes_reply (member : message ∈ messages) (other : hasType message .heartBeatReq = false)
    (channel : ServerChannel) :
    ∀ event ∈ writeEvents om (reply message), event ∈ ((serverReceiver om stack).effects messages channel).2 := by
  induction messages generalizing channel with
  | nil => cases member
  | cons first messages ih =>
    intro event written
    rcases List.mem_cons.mp member with rfl | later
    · have own : event ∈ (serverEffect om message channel).2 := by
        simp [serverEffect, other, written]
      exact List.mem_append_left _ own
    · exact List.mem_append_right _ (ih later _ event written)

theorem replied_new (om : ObjectMapper) (id : String) : Replied om [] (newLink id) [] [] :=
  ⟨inFlight_new id, rfl, List.forall_mem_nil _, rfl⟩

private theorem replied_send (lawful : Lawful om) (replied : Replied om sent link requests replies)
    (message : ProtocolMessage String) :
    Replied om (sent ++ [message]) { link with client := clientSend om message link.client }
      (requests ++ (wirePayload om message.raw).toList) replies := by
  refine ⟨inFlight_send replied.flight message, ?_, replied.written, ?_⟩
  · rw [readable_append, readable_wire lawful, ← List.append_assoc, replied.heard, List.filter_append,
      List.map_append]
    by_cases small : messageSize message ≤ 65533 <;> simp [small]
  · rw [clientSend_eq, Machine.log_trace, handed_append, handed_writeEvents, List.append_nil,
      Machine.withChannel_trace]
    exact replied.returned

private theorem replied_serverRead (replied : Replied om sent link requests replies) {count : Nat}
    (ran : linkStep om stack calls link (.serverRead count) = some (after, calls')) :
    ∃ later more, Replied om sent after later more := by
  obtain ⟨taken, later, rfl, moved, client, -, -, delivered⟩ := inFlight_serverRead replied.flight count ran
  have grown : handed .heartBeatResp after.server.trace =
      handed .heartBeatResp link.server.trace ++ readable om taken := by
    have given := (serverReceiver om stack).handed_of_delivered (by decide) (handed_serverEffect om) delivered
    rwa [List.flatMap_singleton', Machine.withChannel_trace] at given
  refine ⟨later, _, moved, ?_, ?_, ?_⟩
  · rw [grown, List.append_assoc, ← readable_append]
    exact replied.heard
  · intro message member other event written
    rw [← mem_behind (written_outside written), delivered.trace, Machine.withChannel_trace]
    rw [grown] at member
    rcases List.mem_append.mp member with old | new
    · apply List.mem_append_left
      exact (mem_behind (written_outside written)).mpr (replied.written message old other event written)
    · exact List.mem_append_right _ (writes_reply new other _ event written)
  · rw [grown, replyPayloads_append, forReplies_append, forReplies_append, ← replied.returned, client,
      List.append_assoc]
    rfl

private theorem replied_clientRead (replied : Replied om sent link requests replies) {count : Nat}
    (ran : linkStep om stack calls link (.clientRead count) = some (after, calls')) :
    ∃ later, Replied om sent after requests later := by
  obtain ⟨taken, later, rfl, moved, delivered, server, -⟩ := inFlight_clientRead replied.flight count ran
  have same : after.server.trace = link.server.trace := by
    rw [server]
    rfl
  refine ⟨later, moved, ?_, ?_, ?_⟩
  · rw [same]
    exact replied.heard
  · rw [same]
    exact replied.written
  · rw [same, ← replied.returned, forReplies_append,
      (clientReceiver om).handed_of_delivered (by decide) handed_business delivered, List.append_assoc]
    rfl

/-- Whatever can happen on a connection, what is read is replied to. -/
theorem replied_step (lawful : Lawful om) (action : LinkAction)
    (replied : ∃ requests replies, Replied om sent link requests replies)
    (ran : linkStep om stack calls link action = some (after, calls')) :
    ∃ requests replies, Replied om (sent ++ action.sent) after requests replies := by
  obtain ⟨requests, replies, replied⟩ := replied
  cases action with
  | send message =>
    cases ran
    exact ⟨_, replies, replied_send lawful replied message⟩
  | fire task =>
    obtain ⟨-, rfl⟩ := fire_cases ran
    rw [LinkAction.sent, List.append_nil]
    refine ⟨requests, replies, inFlight_fire replied.flight task, replied.heard, replied.written, ?_⟩
    rw [fireTask_drops]
    exact replied.returned
  | serverRead count =>
    rw [LinkAction.sent, List.append_nil]
    exact replied_serverRead replied ran
  | clientRead count =>
    rw [LinkAction.sent, List.append_nil]
    obtain ⟨later, next⟩ := replied_clientRead replied ran
    exact ⟨requests, later, next⟩

end Reads

/-! ## A request and its reply -/

/-- The reply passes the server's encoders, and the client's business handler has
been given it or will be, for what is still under way. -/
structure Answered (om : ObjectMapper) (request : ProtocolMessage String) (link : Link) : Prop where
  accepted : ∃ frame, wireFrame om (reply request.raw) = .ok frame ∧
    .transportWrite (.byteBuf frame) ∈ link.server.trace
  arrives : reply request.raw ∈
    handed .messageBusinessHandler link.client.trace ++ forReplies om (repliesUnderWay link)

section Reply

variable {om : ObjectMapper} {stack : Nat} {actions : List Action} {system : System} {id : String}
  {link : Link} {request : ProtocolMessage String} {sent : List (ProtocolMessage String)}
  {requests replies : List Bytes}

private theorem replied_run (lawful : Lawful om)
    (ran : exec (step om stack) start actions = some system) (linked : system.links id = some link) :
    ∃ requests replies, Replied om (sentBy id actions) link requests replies :=
  link_invariant id (fun sent link => ∃ requests replies, Replied om sent link requests replies)
    ⟨[], [], replied_new om id⟩
    (fun _ _ action _ _ _ holds ran => replied_step lawful action holds ran) ran linked

/-- A request that is read fits. -/
private theorem read_fits (replied : Replied om sent link requests replies)
    (reads : request.raw ∈ handed .heartBeatResp link.server.trace) : messageSize request ≤ 65533 := by
  have listed : request.raw ∈ (sent.filter (messageSize · ≤ 65533)).map ProtocolMessage.raw := by
    rw [← replied.heard]
    exact List.mem_append_left _ reads
  obtain ⟨message, member, same⟩ := List.mem_map.mp listed
  rw [← raw_injective same]
  simpa using (List.mem_filter.mp member).2

private theorem business_types (business : hasType request .messageBussiness = true) :
    hasType request.raw .heartBeatReq = false ∧ hasType (replyTo request).raw .authChannelRes = false ∧
      hasType (replyTo request).raw .heartBeatRes = false := by
  have other {type : MessageTypeEnum} (apart : type ≠ .messageBussiness) : hasType request.raw type = false := by
    by_contra also
    exact apart (hasType_unique (by simpa using also) (show hasType request.raw .messageBussiness = true from business))
  exact ⟨other (by decide), other (by decide), other (by decide)⟩

/-- What the client makes of the reply to one business message. -/
private theorem forReplies_business (lawful : Lawful om)
    (business : hasType request .messageBussiness = true) :
    forReplies om (replyPayloads om [request.raw]) =
      if messageSize (replyTo request) ≤ 65533 then [reply request.raw] else [] := by
  obtain ⟨notBeat, notAuth, notEcho⟩ := business_types business
  have replied : replyPayloads om [request.raw] = (wirePayload om (replyTo request).raw).toList := by
    simp [replyPayloads, notBeat, reply_raw]
  rw [replied, forReplies, readable_wire lawful]
  split <;> simp [passedOn, notAuth, notEcho, reply_raw]

private theorem answered_of_fits (lawful : Lawful om) (replied : Replied om sent link requests replies)
    (business : hasType request .messageBussiness = true)
    (reads : request.raw ∈ handed .heartBeatResp link.server.trace)
    (fits : messageSize (replyTo request) ≤ 65533) : Answered om request link := by
  constructor
  · obtain ⟨encoded, bounded⟩ := wirePayload_eq_some.mp
      (wirePayload_of_size lawful (show messageSize (replyTo request) < 256 ^ 2 by omega))
    have framing : prepend 2 (payloadOf om (replyTo request)) =
        some (framed 2 (payloadOf om (replyTo request))) := prepend_eq_some.mpr ⟨bounded, rfl⟩
    refine ⟨framed 2 (payloadOf om (replyTo request)), by simp [wireFrame, reply_raw, encoded, framing], ?_⟩
    apply replied.written request.raw reads (business_types business).1 _
    simp [writeEvents, reply_raw, encoded, framing]
  · have underWay : repliesUnderWay link = replies := inFlight_eq frameParams_plain replied.flight.toClient
    obtain ⟨before, later, whole⟩ := List.append_of_mem reads
    rw [underWay, replied.returned, whole, List.append_cons, replyPayloads_append, replyPayloads_append,
      forReplies_append, forReplies_append, forReplies_business lawful business, if_pos fits]
    simp

private theorem fits_of_answered (lawful : Lawful om)
    (ran : exec (step om stack) start actions = some system) (linked : system.links id = some link)
    (answered : Answered om request link) : messageSize (replyTo request) ≤ 65533 := by
  have accounts : handed .messageBusinessHandler link.client.trace ++ forReplies om (repliesUnderWay link) <+:
      (sentBy id actions).flatMap answer := by
    obtain ⟨requests, replies, flight, balance⟩ := balanced_run lawful ran linked
    have underWay : repliesUnderWay link = replies := inFlight_eq frameParams_plain flight.toClient
    rw [underWay, ← balance]
    exact List.prefix_append _ _
  obtain ⟨message, -, worth⟩ := List.mem_flatMap.mp (accounts.subset answered.arrives)
  unfold answer at worth
  split at worth
  · rename_i small
    rw [reply_raw] at worth
    rw [raw_injective (List.mem_singleton.mp worth)]
    exact small.2.1
  · cases worth

/-- In every run, a business request that the server has read is answered exactly
when it takes at most 65526 bytes. -/
theorem answered_iff (lawful : Lawful om)
    (ran : exec (step om stack) start actions = some system) (linked : system.links id = some link)
    (business : hasType request .messageBussiness = true)
    (reads : request.raw ∈ handed .heartBeatResp link.server.trace) :
    Answered om request link ↔ messageSize request ≤ 65526 := by
  obtain ⟨requests, replies, replied⟩ := replied_run lawful ran linked
  rw [← replyTo_fits_iff request (read_fits replied reads)]
  constructor
  · exact fits_of_answered lawful ran linked
  · exact answered_of_fits lawful replied business reads

/-- Two clients; the second sends two messages, which the server and the client
read in pieces. -/
private def conversation : List Action :=
  [.connect "a", .connect "b", .on "b" (.send { header := none, body := none }),
    .on "a" (.send (businessMessage none)), .on "b" (.send (businessMessage (some "hello"))),
    .on "b" (.serverRead 30), .on "b" (.clientRead 9), .on "b" (.serverRead 200), .on "b" (.clientRead 60),
    .on "b" (.clientRead 200)]

theorem answered_iff_conversation : ∃ system link,
    exec (step msgpack 100) start conversation = some system ∧ system.links "b" = some link ∧
      (Answered msgpack (businessMessage (some "hello")) link ↔
        messageSize (businessMessage (some "hello")) ≤ 65526) ∧
      repliesUnderWay link = [] ∧
      reply (businessMessage (some "hello")).raw ∈ handed .messageBusinessHandler link.client.trace := by
  refine ⟨_, _, rfl, rfl, ?_⟩
  have answered := @answered_iff msgpack 100 conversation _ "b" _ (businessMessage (some "hello"))
    msgpack_lawful rfl rfl rfl (by decide +kernel)
  exact ⟨answered, by decide +kernel, by decide +kernel⟩

end Reply

/-! ## A request that is not answered -/

section Long

variable {request : ProtocolMessage String} {text : String}

/-- A request that fits, read in one piece. -/
private def asked (request : ProtocolMessage String) : List Action :=
  [.connect "a", .on "a" (.send request), .on "a" (.serverRead 65535)]

private theorem asked_reads (fits : messageSize request ≤ 65533) : ∃ system link,
    exec (step msgpack 100) start (asked request) = some system ∧ system.links "a" = some link ∧
      request.raw ∈ handed .heartBeatResp link.server.trace ∧
      repliesUnderWay link = replyPayloads msgpack [request.raw] := by
  let sent : Link := { newLink "a" with client := clientSend msgpack request (newLink "a").client }
  let connected : System :=
    { links := Function.update start.links "a" (some (newLink "a")), sessionCalls := [.addSession "a"] }
  have encoded := wirePayload_of_size msgpack_lawful (show messageSize request < 256 ^ 2 by omega)
  have length := msgpack_lawful.size request _ (wirePayload_eq_some.mp encoded).1
  have out : sent.client.channel.out = framed 2 (payloadOf msgpack request) := by
    rw [clientSend_channel request rfl, encoded]
    simp [newLink]
  obtain ⟨⟨after, calls⟩, ran⟩ : ∃ ended,
      linkStep msgpack 100 connected.sessionCalls sent (.serverRead 65535) = some ended := by
    have some : sent.client.channel.out ≠ [] := by
      rw [out]
      exact framed_ne_nil (by omega) _
    simp [linkStep, takeOut, some]
  have flight := @inFlight_send msgpack _ _ _ (inFlight_new "a") request
  obtain ⟨taken, later, split, moved, client, -, exhausted, delivered⟩ := inFlight_serverRead flight 65535 ran
  have none : later = [] := by
    refine exhausted ?_ ?_
    · rw [encoded]
      simpa using (fits_payloadOf msgpack_lawful (wirePayload_eq_some.mp encoded).1).mpr fits
    · rw [client]
      change sent.client.channel.out.drop 65535 = []
      rw [out, List.drop_eq_nil_iff, length_framed, length]
      omega
  have all : readable msgpack taken = [request.raw] := by
    rw [none, List.append_nil, List.nil_append] at split
    rw [← split, readable_wire msgpack_lawful, if_pos fits]
  have given := (serverReceiver msgpack 100).handed_of_delivered (by decide) (handed_serverEffect msgpack) delivered
  have there : connected.links "a" = some (newLink "a") := Function.update_self "a" _ start.links
  have sends : step msgpack 100 connected (.on "a" (.send request)) =
      some { connected with links := Function.update connected.links "a" (some sent) } :=
    step_on there rfl
  have written : (Function.update connected.links "a" (some sent)) "a" = some sent :=
    Function.update_self "a" _ _
  have reads := @step_on msgpack 100
    { connected with links := Function.update connected.links "a" (some sent) } "a" sent _ _ _ written ran
  let ended : System :=
    { links := Function.update (Function.update connected.links "a" (some sent)) "a" (some after)
      sessionCalls := calls }
  refine ⟨ended, after, ?_, by simp [ended], ?_, ?_⟩
  · have connects : step msgpack 100 start (.connect "a") = some connected := rfl
    rw [asked, exec_cons, connects, Option.bind_some, exec_cons, sends, Option.bind_some]
    exact exec_single reads
  · rw [given, all]
    simp
  · have underWay := inFlight_eq frameParams_plain moved.toClient
    rw [all] at underWay
    exact underWay

theorem messageSize_business (long : 2 ^ 8 ≤ text.utf8ByteSize) (short : text.utf8ByteSize < 2 ^ 16) :
    messageSize (businessMessage (some text)) = text.utf8ByteSize + 55 := by
  have constant : headerSize (some (getHeader .messageBussiness .request)) = 39 := by decide
  have header : headerSize (businessMessage (some text)).header = 39 := constant
  have text : strHeaderSize text.utf8ByteSize = 3 := by
    rw [strHeaderSize, if_neg (by omega), if_neg (by omega), if_pos short]
  simp only [messageSize, header]
  simp only [businessMessage, getProtocolMessage, bodySize, text]
  omega

/-- The request is read and its reply is refused by the server's frame encoder. -/
theorem long_request_is_not_answered : ∃ system link,
    exec (step msgpack 100) start (asked (businessMessage (some (letters 65478)))) = some system ∧
      system.links "a" = some link ∧
      (businessMessage (some (letters 65478))).raw ∈ handed .heartBeatResp link.server.trace ∧
      repliesUnderWay link = [] ∧ ¬ Answered msgpack (businessMessage (some (letters 65478))) link := by
  have refused (text : String) (exact : text.utf8ByteSize = 65478) : ∃ system link,
      exec (step msgpack 100) start (asked (businessMessage (some text))) = some system ∧
        system.links "a" = some link ∧
        (businessMessage (some text)).raw ∈ handed .heartBeatResp link.server.trace ∧
        repliesUnderWay link = [] ∧ ¬ Answered msgpack (businessMessage (some text)) link := by
    have total := @messageSize_business text (by omega) (by omega)
    have answer : replyTo (businessMessage (some text)) = businessMessage (some ("答应:" ++ text)) := rfl
    have longer := utf8ByteSize_answer text
    have large : messageSize (replyTo (businessMessage (some text))) = 65540 := by
      rw [answer, messageSize_business (by omega) (by omega)]
      omega
    obtain ⟨system, link, ran, linked, reads, underWay⟩ := asked_reads
      (show messageSize (businessMessage (some text)) ≤ 65533 by omega)
    refine ⟨system, link, ran, linked, reads, ?_, fun answered => ?_⟩
    · have refused : wirePayload msgpack (replyTo (businessMessage (some text))).raw = none := by
        rw [Option.eq_none_iff_forall_ne_some]
        intro payload written
        obtain ⟨encoded, bounded⟩ := wirePayload_eq_some.mp written
        have length := msgpack_lawful.size _ payload encoded
        omega
      rw [underWay, replyPayloads, List.flatMap_singleton, reply_raw, refused]
      split <;> rfl
    · have fits := fits_of_answered msgpack_lawful ran linked answered
      omega
  exact refused (letters 65478) (utf8ByteSize_letters 65478)

end Long

end Tomas.ReplySize
