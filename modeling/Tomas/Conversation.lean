import Mathlib.Logic.Function.Basic
import Tomas.ClientPipeline
import Tomas.Runs
import Tomas.ServerPipeline
import Tomas.WireAgreement

/-! One server and any number of clients. A connection is two channels whose
written bytes wait for the other end to read them, in pieces of any size; clients
send messages, timers fire and ends read in any order. -/
namespace Tomas.Conversation
open Tomas.Framing Tomas.Pipeline Tomas.Protocol Tomas.Jackson Tomas.Codec
open Tomas.Delivery Tomas.ServerPipeline Tomas.ClientPipeline Tomas.WireAgreement Tomas.Runs

/-- The two ends of a connection. -/
structure Link where
  client : ClientMachine
  server : ServerMachine

/-- The connections by channel id, and the server's calls on `ChannelCache`. -/
structure System where
  links : String → Option Link
  sessionCalls : List SessionCall

def start : System := { links := fun _ => none, sessionCalls := [] }

/-- What can happen on a connection. A read takes up to so many of the bytes in
flight, and at least one. -/
inductive LinkAction where
  | send (message : ProtocolMessage String)
  | fire (task : Nat)
  | serverRead (count : Nat)
  | clientRead (count : Nat)
  deriving DecidableEq, Repr

inductive Action where
  | connect (id : String)
  | on (id : String) (action : LinkAction)
  deriving DecidableEq, Repr

def newLink (id : String) : Link where
  client := { channel := { id := id, own := {} } }
  server := { channel := { id := id, own := [] } }

/-- The first bytes in flight from one end, and that end without them. -/
def takeOut {χ : Type} (machine : ChannelMachine χ) (count : Nat) : Bytes × ChannelMachine χ :=
  (machine.channel.out.take count,
    machine.withChannel { machine.channel with out := machine.channel.out.drop count })

/-- The server's end of a connection reads, with the server's statics at hand. -/
def serverReads (om : ObjectMapper) (stack : Nat) (calls : List SessionCall) (server : ServerMachine)
    (chunk : Bytes) : ServerMachine :=
  fireChannelRead socket (serverPipeline om stack) (.byteBuf chunk)
    (server.withChannel { server.channel with own := calls })

def clientReads (om : ObjectMapper) (client : ClientMachine) (chunk : Bytes) : ClientMachine :=
  fireChannelRead socket (clientPipeline om) (.byteBuf chunk) client

def linkStep (om : ObjectMapper) (stack : Nat) (calls : List SessionCall) (link : Link) :
    LinkAction → Option (Link × List SessionCall)
  | .send message => some ({ link with client := clientSend om message link.client }, calls)
  | .fire task =>
    if task ∈ link.client.channel.own.scheduled then
      some ({ link with client := fireTask om stack task link.client }, calls)
    else none
  | .serverRead count =>
    let (chunk, client) := takeOut link.client count
    if chunk = [] then none
    else
      let server := serverReads om stack calls link.server chunk
      some ({ client, server }, server.channel.own)
  | .clientRead count =>
    let (chunk, server) := takeOut link.server count
    if chunk = [] then none
    else some ({ client := clientReads om link.client chunk, server }, calls)

def step (om : ObjectMapper) (stack : Nat) (system : System) : Action → Option System
  | .connect id =>
    if (system.links id).isSome then none
    else some
      { links := Function.update system.links id (some (newLink id))
        sessionCalls := system.sessionCalls ++ [.addSession id] }
  | .on id action =>
    (system.links id).bind fun link =>
      (linkStep om stack system.sessionCalls link action).map fun (link, sessionCalls) =>
        { links := Function.update system.links id (some link), sessionCalls }

def LinkAction.sent : LinkAction → List (ProtocolMessage String)
  | .send message => [message]
  | .fire _ | .serverRead _ | .clientRead _ => []

/-- What an action sends on the connection of an id. -/
def Action.sentBy (id : String) : Action → List (ProtocolMessage String)
  | .connect _ => []
  | .on sender action => if sender = id then action.sent else []

/-- The messages the client of an id has sent, in order. -/
def sentBy (id : String) (actions : List Action) : List (ProtocolMessage String) :=
  actions.flatMap (Action.sentBy id)

@[simp] theorem sentBy_snoc (id : String) (actions : List Action) (action : Action) :
    sentBy id (actions ++ [action]) = sentBy id actions ++ action.sentBy id := by
  simp [sentBy]

/-! ## What a step does to one connection -/

theorem step_on {om : ObjectMapper} {stack : Nat} {system : System} {id : String} {link after : Link}
    {action : LinkAction} {calls : List SessionCall} (linked : system.links id = some link)
    (ran : linkStep om stack system.sessionCalls link action = some (after, calls)) :
    step om stack system (.on id action) =
      some { links := Function.update system.links id (some after), sessionCalls := calls } := by
  simp [step, linked, ran]

/-- Where a connection of the system after a step comes from. -/
theorem step_cases {om : ObjectMapper} {stack : Nat} {system next : System} {action : Action}
    (id : String) (stepped : step om stack system action = some next) :
    (action = .connect id ∧ system.links id = none ∧ next.links id = some (newLink id)) ∨
    (∃ before linkAction after calls, action = .on id linkAction ∧ system.links id = some before ∧
      linkStep om stack system.sessionCalls before linkAction = some (after, calls) ∧
      next.links id = some after) ∨
    (action.sentBy id = [] ∧ next.links id = system.links id) := by
  cases action with
  | connect other =>
    simp only [step] at stepped
    split at stepped
    · cases stepped
    · rename_i absent
      cases stepped
      by_cases same : id = other
      · subst same
        exact Or.inl ⟨rfl, by simpa using absent, Function.update_self ..⟩
      · exact Or.inr (Or.inr ⟨rfl, Function.update_of_ne same ..⟩)
  | on other linkAction =>
    simp only [step] at stepped
    obtain ⟨before, known, stepped⟩ := Option.bind_eq_some_iff.mp stepped
    obtain ⟨⟨after, calls⟩, ran, rfl⟩ := Option.map_eq_some_iff.mp stepped
    by_cases same : id = other
    · subst same
      exact Or.inr (Or.inl
        ⟨before, linkAction, after, calls, rfl, known, ran, Function.update_self ..⟩)
    · refine Or.inr (Or.inr ⟨?_, Function.update_of_ne same ..⟩)
      simp [Action.sentBy, Ne.symm same]

/-- What holds of a new connection and is kept by everything that can happen on
one holds of every connection of every run, with what its client has sent. -/
theorem link_invariant {om : ObjectMapper} {stack : Nat} {actions : List Action} {system : System}
    {link : Link} (id : String) (inv : List (ProtocolMessage String) → Link → Prop)
    (new : inv [] (newLink id))
    (kept : ∀ sent before action after calls calls', inv sent before →
      linkStep om stack calls before action = some (after, calls') → inv (sent ++ action.sent) after)
    (ran : exec (step om stack) start actions = some system) (linked : system.links id = some link) :
    inv (sentBy id actions) link := by
  let whole (actions : List Action) (system : System) : Prop :=
    match system.links id with
    | none => sentBy id actions = []
    | some link => inv (sentBy id actions) link
  have always : whole actions system := by
    refine exec_history whole (fun _ => True) rfl ?_ (by simp) ran
    intro earlier system action next holds _ stepped
    simp only [whole] at holds ⊢
    rw [sentBy_snoc]
    rcases step_cases id stepped with ⟨rfl, absent, linked⟩ |
      ⟨before, linkAction, after, calls, rfl, known, ran, linked⟩ | ⟨silent, same⟩
    · rw [absent] at holds
      rw [linked, holds]
      exact new
    · rw [known] at holds
      rw [linked]
      have step := kept _ _ _ _ _ _ holds ran
      simpa [Action.sentBy] using step
    · rw [same, silent, List.append_nil]
      exact holds
  simpa only [whole, linked] using always

/-! ## The payloads in flight -/

/-- Both ends are open, and stand in the two streams before these payloads. -/
structure InFlight (link : Link) (requests replies : List Bytes) : Prop where
  clientActive : link.client.channel.active = true
  serverActive : link.server.channel.active = true
  toServer : Ahead frameParams link.server.channel.decoder link.client.channel.out requests
  toClient : Ahead frameParams link.client.channel.decoder link.server.channel.out replies

theorem inFlight_new (id : String) : InFlight (newLink id) [] [] :=
  ⟨rfl, rfl, ⟨List.forall_mem_nil _, [], rfl, rfl⟩, ⟨List.forall_mem_nil _, [], rfl, rfl⟩⟩

/-- The messages among some payloads that get through the frame decoder. -/
def readable (om : ObjectMapper) (payloads : List Bytes) : List Message :=
  (payloads.filter (Fits frameParams)).filterMap (decoded om)

theorem readable_append {om : ObjectMapper} {first second : List Bytes} :
    readable om (first ++ second) = readable om first ++ readable om second := by
  rw [readable, List.filter_append, List.filterMap_append]
  rfl

private theorem ahead_payloads {decoder : Decoder} {rest : Bytes} {payloads more : List Bytes}
    (ahead : Ahead frameParams decoder rest payloads)
    (bounded : ∀ payload ∈ more, payload.length < 256 ^ 2) :
    Ahead frameParams decoder (rest ++ stream 2 more) (payloads ++ more) := by
  induction more generalizing rest payloads with
  | nil => simpa using ahead
  | cons payload more ih =>
    have step := ih (ahead_written ahead (bounded payload (by simp)))
      (fun other member => bounded other (List.mem_cons_of_mem _ member))
    simpa [frameParams] using step

private theorem wirePayload_bounded (om : ObjectMapper) (message : Message) :
    ∀ payload ∈ (wirePayload om message).toList, payload.length < 256 ^ 2 := by
  intro payload member
  exact (wirePayload_eq_some.mp (by simpa using member)).2

theorem replyPayloads_bounded (om : ObjectMapper) (messages : List Message) :
    ∀ payload ∈ replyPayloads om messages, payload.length < 256 ^ 2 := by
  intro payload member
  obtain ⟨message, _, member⟩ := List.mem_flatMap.mp member
  split at member
  · cases member
  · exact wirePayload_bounded om _ payload member

/-- Frames that all fit leave none behind once everything has arrived. -/
private theorem takes_all {rest : Bytes} {payloads taken later : List Bytes} {received : Received}
    (front : TakesFront frameParams rest payloads received taken later)
    (fit : ∀ payload ∈ payloads, Fits frameParams payload) (exhausted : rest = []) : later = [] := by
  have quiet : received.failure = none := by
    by_contra loud
    obtain ⟨payload, member, unfit⟩ := front.failed loud
    exact unfit (fit payload (by rw [front.split]; exact List.mem_append_left _ member))
  exact (front.clean quiet).2 exhausted

section Steps

variable {om : ObjectMapper} {stack : Nat} {calls calls' : List SessionCall} {link after : Link}
  {requests replies : List Bytes}

theorem clientSend_channel (message : ProtocolMessage String) {client : ClientMachine}
    (active : client.channel.active = true) :
    (clientSend om message client).channel =
      { client.channel with out := client.channel.out ++ stream 2 (wirePayload om message.raw).toList } := by
  rw [clientSend_eq, Machine.log_channel, Machine.withChannel_channel, written_active active]

/-- What a client sends is behind everything it has sent. -/
theorem inFlight_send (flight : InFlight link requests replies) (message : ProtocolMessage String) :
    InFlight { link with client := clientSend om message link.client }
      (requests ++ (wirePayload om message.raw).toList) replies := by
  have sent := @clientSend_channel om message _ flight.clientActive
  constructor
  · rw [sent]
    exact flight.clientActive
  · exact flight.serverActive
  · rw [sent]
    exact ahead_payloads flight.toServer (wirePayload_bounded om message.raw)
  · rw [sent]
    exact flight.toClient

theorem inFlight_fire (flight : InFlight link requests replies) (task : Nat) :
    InFlight { link with client := fireTask om stack task link.client } requests replies := by
  rw [fireTask_drops]
  exact ⟨flight.clientActive, flight.serverActive, flight.toServer, flight.toClient⟩

theorem fire_cases {task : Nat} (ran : linkStep om stack calls link (.fire task) = some (after, calls')) :
    task ∈ link.client.channel.own.scheduled ∧
      after = { link with client := fireTask om stack task link.client } := by
  simp only [linkStep] at ran
  split at ran
  · rename_i scheduled
    cases ran
    exact ⟨scheduled, rfl⟩
  · cases ran

theorem serverRead_cases {count : Nat}
    (ran : linkStep om stack calls link (.serverRead count) = some (after, calls')) :
    after.client = (takeOut link.client count).2 ∧
      after.server = readChunk om (serverHandlers stack)
        (link.server.withChannel { link.server.channel with own := calls })
        (link.client.channel.out.take count) := by
  simp only [linkStep] at ran
  split at ran
  · cases ran
  · cases ran
    exact ⟨rfl, fireChannelRead_chunk om (serverHandlers stack) _ _⟩

theorem clientRead_cases {count : Nat}
    (ran : linkStep om stack calls link (.clientRead count) = some (after, calls')) :
    after.client = readChunk om clientHandlers link.client (link.server.channel.out.take count) ∧
      after.server = (takeOut link.server count).2 := by
  simp only [linkStep] at ran
  split at ran
  · cases ran
  · cases ran
    exact ⟨fireChannelRead_chunk om clientHandlers _ _, rfl⟩

/-- The server takes requests off the front and puts the replies at the back. -/
theorem inFlight_serverRead (flight : InFlight link requests replies) (count : Nat)
    (ran : linkStep om stack calls link (.serverRead count) = some (after, calls')) :
    ∃ taken later, requests = taken ++ later ∧
      InFlight after later (replies ++ replyPayloads om (readable om taken)) ∧
      after.client = (takeOut link.client count).2 ∧
      after.server.channel.out =
        link.server.channel.out ++ stream 2 (replyPayloads om (readable om taken)) ∧
      ((∀ payload ∈ requests, Fits frameParams payload) →
        after.client.channel.out = [] → later = []) ∧
      (serverReceiver om stack).Delivered (readable om taken)
        (link.server.withChannel { link.server.channel with own := calls }) after.server := by
  obtain ⟨client, reads⟩ := serverRead_cases ran
  let chunk := link.client.channel.out.take count
  let server := link.server.withChannel { link.server.channel with own := calls }
  have ahead : Ahead frameParams link.server.channel.decoder
      (chunk ++ link.client.channel.out.drop count) requests := by
    rw [List.take_append_drop]
    exact flight.toServer
  obtain ⟨taken, later, front⟩ := feed_takes frameParams_plain ahead
  obtain ⟨delivered, decoder⟩ := (serverReceiver om stack).delivered_chunk server chunk
  have effects := @serverEffects_channel om stack (readable om taken) server.channel flight.serverActive
  have messages : (feed frameParams server.channel.decoder chunk).frames.filterMap (decoded om) =
      readable om taken := congrArg (List.filterMap (decoded om)) front.frames
  rw [← reads, messages] at delivered
  rw [← reads] at decoder
  have written : after.server.channel.out =
      link.server.channel.out ++ stream 2 (replyPayloads om (readable om taken)) := by
    rw [delivered.channel, effects]
    rfl
  refine ⟨taken, later, front.split, ⟨?_, ?_, ?_, ?_⟩, client, written, ?_, delivered⟩
  · rw [client]
    exact flight.clientActive
  · rw [delivered.channel, effects]
    exact flight.serverActive
  · rw [decoder, client]
    exact front.ahead
  · rw [written, client]
    exact ahead_payloads flight.toClient (replyPayloads_bounded om _)
  · rw [client]
    exact takes_all front

/-- The client takes replies off the front. -/
theorem inFlight_clientRead (flight : InFlight link requests replies) (count : Nat)
    (ran : linkStep om stack calls link (.clientRead count) = some (after, calls')) :
    ∃ taken later, replies = taken ++ later ∧ InFlight after requests later ∧
      (clientReceiver om).Delivered (readable om taken) link.client after.client ∧
      after.server = (takeOut link.server count).2 ∧
      after.client.channel.out = link.client.channel.out ∧
      ((∀ payload ∈ replies, Fits frameParams payload) →
        after.server.channel.out = [] → later = []) := by
  obtain ⟨reads, server⟩ := clientRead_cases ran
  let chunk := link.server.channel.out.take count
  have ahead : Ahead frameParams link.client.channel.decoder
      (chunk ++ link.server.channel.out.drop count) replies := by
    rw [List.take_append_drop]
    exact flight.toClient
  obtain ⟨taken, later, front⟩ := feed_takes frameParams_plain ahead
  obtain ⟨delivered, decoder⟩ := (clientReceiver om).delivered_chunk link.client chunk
  have messages : (feed frameParams link.client.channel.decoder chunk).frames.filterMap (decoded om) =
      readable om taken := congrArg (List.filterMap (decoded om)) front.frames
  rw [← reads, messages] at delivered
  rw [← reads] at decoder
  have kept := (clientEffects_keep om (readable om taken) link.client.channel).1
  have channel := delivered.channel
  rw [kept] at channel
  refine ⟨taken, later, front.split, ⟨?_, ?_, ?_, ?_⟩, delivered, server, by rw [channel], ?_⟩
  · rw [channel]
    exact flight.clientActive
  · rw [server]
    exact flight.serverActive
  · rw [channel, server]
    exact flight.toServer
  · rw [decoder, server]
    exact front.ahead
  · rw [server]
    exact takes_all front

end Steps

end Tomas.Conversation
