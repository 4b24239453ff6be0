import Tomas.Conversation

/-! The heartbeat. A firing timer should send a request and stay, the server
should answer a request and nothing else, the client should consume a response.
`MessageUtil.getProtocolMessage` without a body never returns, so the first two
fail whenever they are put to the test and the third always holds. -/
namespace Tomas.HeartbeatExchange
open Tomas.Framing Tomas.Pipeline Tomas.Protocol Tomas.Jackson Tomas.Codec
open Tomas.Delivery Tomas.ServerPipeline Tomas.ClientPipeline Tomas.Conversation Tomas.Runs

/-- How often a callback for exceptions has run. -/
def exceptions (trace : List Event) : Nat :=
  trace.countP fun event =>
    match event with
    | .exceptionCaught _ _ | .tailException _ => true
    | _ => false

/-! ## What each part of the exchange should do -/

/-- A firing sends exactly one request, and the task stays scheduled. -/
structure Fires (om : ObjectMapper) (stack task : Nat) (client : ClientMachine) : Prop where
  sends : ∃ request, hasType request .heartBeatReq = true ∧
    messagesWritten (fireTask om stack task client).trace = messagesWritten client.trace ++ [request]
  stays : task ∈ (fireTask om stack task client).channel.own.scheduled

/-- A message makes the server write exactly one response, without an exception
and without `MsgpackServerHandler`. -/
structure Answers (om : ObjectMapper) (stack : Nat) (message : Message) (server : ServerMachine) :
    Prop where
  responds : ∃ response, hasType response .heartBeatRes = true ∧
    messagesWritten ((afterCodecs om (serverHandlers stack)).read (.message message) server).trace =
      messagesWritten server.trace ++ [response]
  raises : exceptions ((afterCodecs om (serverHandlers stack)).read (.message message) server).trace =
    exceptions server.trace
  passes : handed .msgpackServerHandler
      ((afterCodecs om (serverHandlers stack)).read (.message message) server).trace =
    handed .msgpackServerHandler server.trace

/-- A message is read by `HeartBeatReqHandler` and goes no further. -/
structure Consumes (om : ObjectMapper) (message : Message) (client : ClientMachine) : Prop where
  reads : handed .heartBeatReqHandler
      ((afterCodecs om clientHandlers).read (.message message) client).trace =
    handed .heartBeatReqHandler client.trace ++ [message]
  passes : handed .messageBusinessHandler
      ((afterCodecs om clientHandlers).read (.message message) client).trace =
    handed .messageBusinessHandler client.trace

/-- The law of the exchange for what happens on one connection. -/
def LinkKeeps (om : ObjectMapper) (stack : Nat) (calls : List SessionCall) (link : Link) :
    LinkAction → Prop
  | .send _ => True
  | .fire task => Fires om stack task link.client
  | .serverRead count =>
    ∀ message server,
      Hands om (serverHandlers stack) (link.server.withChannel { link.server.channel with own := calls })
        (takeOut link.client count).1 message server →
      hasType message .heartBeatReq = true → Answers om stack message server
  | .clientRead count =>
    ∀ message client, Hands om clientHandlers link.client (takeOut link.server count).1 message client →
      hasType message .heartBeatRes = true → Consumes om message client

def Keeps (om : ObjectMapper) (stack : Nat) (system : System) : Action → Prop
  | .connect _ => True
  | .on id action =>
    ∀ link, system.links id = some link → LinkKeeps om stack system.sessionCalls link action

/-- No timer fires, and no heartbeat request is complete in what the server reads. -/
def LinkQuiet (om : ObjectMapper) (link : Link) : LinkAction → Prop
  | .send _ | .clientRead _ => True
  | .fire _ => False
  | .serverRead count =>
    ∀ message ∈ (feed frameParams link.server.channel.decoder
        (takeOut link.client count).1).frames.filterMap (decoded om),
      hasType message .heartBeatReq = false

def Quiet (om : ObjectMapper) (system : System) : Action → Prop
  | .connect _ => True
  | .on id action => ∀ link, system.links id = some link → LinkQuiet om link action

instance (om : ObjectMapper) (link : Link) (action : LinkAction) : Decidable (LinkQuiet om link action) :=
  match action with
  | .send _ | .clientRead _ => inferInstanceAs (Decidable True)
  | .fire _ => inferInstanceAs (Decidable False)
  | .serverRead count => inferInstanceAs (Decidable (∀ message ∈ (feed frameParams
      link.server.channel.decoder (takeOut link.client count).1).frames.filterMap (decoded om),
    hasType message .heartBeatReq = false))

instance (om : ObjectMapper) (system : System) (action : Action) : Decidable (Quiet om system action) :=
  match action with
  | .connect _ => inferInstanceAs (Decidable True)
  | .on id action =>
    match known : system.links id with
    | none => isTrue fun link found => by simp [known] at found
    | some link => decidable_of_iff (LinkQuiet om link action) (by simp [Quiet, known])

/-! ## What each part does -/

section Parts

variable {om : ObjectMapper} {stack : Nat} {message : Message}

/-- A firing sends nothing. -/
theorem fireTask_breaks (task : Nat) (client : ClientMachine) : ¬ Fires om stack task client := by
  intro fires
  obtain ⟨request, -, sends⟩ := fires.sends
  rw [fireTask_drops, Machine.withChannel_trace] at sends
  have lengths := congrArg List.length sends
  simp at lengths

/-- The server answers no heartbeat request. -/
theorem heartBeatReq_breaks (asks : hasType message .heartBeatReq = true) (server : ServerMachine) :
    ¬ Answers om stack message server := by
  intro answers
  obtain ⟨response, -, responds⟩ := answers.responds
  have nothing : messagesWritten (serverEffect om message server.channel).2 = [] := by
    simp only [serverEffect, asks, if_true]
    rfl
  rw [afterCodecs_server, Machine.act_trace, messagesWritten_append, nothing] at responds
  have lengths := congrArg List.length responds
  simp at lengths

/-- The client consumes every heartbeat response. -/
theorem heartBeatRes_consumed (responds : hasType message .heartBeatRes = true)
    (client : ClientMachine) : Consumes om message client := by
  constructor
  · rw [afterCodecs_client, Machine.act_trace, handed_append, handed_clientEffect]
  · rw [afterCodecs_client, Machine.act_trace, handed_append, handed_business,
      if_pos (Or.inr responds), List.append_nil]

/-- What happens on a connection keeps the law exactly when it is quiet. -/
theorem linkKeeps_iff_linkQuiet (calls : List SessionCall) (link : Link) (action : LinkAction) :
    LinkKeeps om stack calls link action ↔ LinkQuiet om link action := by
  cases action with
  | send message => exact Iff.rfl
  | fire task => exact iff_of_false (fireTask_breaks task link.client) id
  | serverRead count =>
    let server := link.server.withChannel { link.server.channel with own := calls }
    constructor
    · intro keeps message member
      by_contra asks
      have asks : hasType message .heartBeatReq = true := by simpa using asks
      obtain ⟨reached, hands⟩ : ∃ reached, Hands om (serverHandlers stack) server
        (takeOut link.client count).1 message reached := exists_hands_iff.mpr member
      exact heartBeatReq_breaks asks reached (keeps message reached hands asks)
    · intro quiet message reached hands asks
      have known : ∃ reached, Hands om (serverHandlers stack) server
        (takeOut link.client count).1 message reached := ⟨reached, hands⟩
      have listed := exists_hands_iff.mp known
      have silent := quiet message listed
      rw [asks] at silent
      cases silent
  | clientRead count =>
    refine iff_of_true ?_ trivial
    intro message client _ responds
    exact heartBeatRes_consumed responds client

end Parts

section Runs

variable {om : ObjectMapper} {stack : Nat} {actions : List Action} {system : System}

/-- Every step of a run keeps the law of the heartbeat exactly when every step
is quiet. -/
theorem heartbeats_kept_iff_quiet (ran : exec (step om stack) start actions = some system) :
    EachStep (step om stack) start actions (Keeps om stack) ↔
      EachStep (step om stack) start actions (Quiet om) := by
  refine eachStep_congr (fun _ => True) trivial (fun _ _ _ _ _ => trivial) ?_ ran
  intro system action next _ _
  cases action with
  | connect id => exact Iff.rfl
  | on id action =>
    constructor
    · intro keeps link linked
      exact (linkKeeps_iff_linkQuiet _ link action).mp (keeps link linked)
    · intro quiet link linked
      exact (linkKeeps_iff_linkQuiet _ link action).mpr (quiet link linked)

/-- A client whose timer runs: it has read its own `AUTH_CHANNEL_RES` back. -/
def authenticated : List Action :=
  [.connect "a", .on "a" (.send (getProtocolMessage none .authChannelRes .authSuccess)),
    .on "a" (.serverRead 1000), .on "a" (.clientRead 1000)]

private theorem authenticated_scheduled :
    ((exec (step msgpack 100) start authenticated).bind fun system =>
      (system.links "a").map fun link => link.client.channel.own.scheduled) = some [0] := by
  decide +kernel

/-- The first firing of a client's timer sends nothing and is the last. -/
theorem first_firing_is_lost :
    ∃ system link, exec (step msgpack 100) start authenticated = some system ∧
      system.links "a" = some link ∧ link.client.channel.own.scheduled = [0] ∧
      (∃ next, step msgpack 100 system (.on "a" (.fire 0)) = some next) ∧
      ¬ EachStep (step msgpack 100) start (authenticated ++ [.on "a" (.fire 0)]) (Keeps msgpack 100) := by
  obtain ⟨system, ran, found⟩ := Option.bind_eq_some_iff.mp authenticated_scheduled
  obtain ⟨link, linked, scheduled⟩ := Option.map_eq_some_iff.mp found
  refine ⟨system, link, ran, linked, scheduled, ?_, ?_⟩
  · simp [step, linked, linkStep, scheduled]
  · intro each
    have keeps := each authenticated (.on "a" (.fire 0)) (List.prefix_refl _) system ran link linked
    exact fireTask_breaks 0 link.client keeps

/-- Its timer is waiting when it reads a heartbeat response, the echo of its own. -/
private def responded : List Action :=
  authenticated ++ [.on "a" (.send (getProtocolMessage none .heartBeatRes .request)), .connect "b",
    .on "a" (.serverRead 20), .on "a" (.serverRead 1000), .on "a" (.clientRead 1000)]

theorem heartbeats_kept_iff_quiet_responded :
    ∃ system link, exec (step msgpack 100) start responded = some system ∧ system.links "a" = some link ∧
      (link.client.channel.own.scheduled = [0] ∧
        (handed .heartBeatReqHandler link.client.trace).map (hasType · .heartBeatRes) = [false, true]) ∧
      EachStep (step msgpack 100) start responded (Keeps msgpack 100) ∧
      (EachStep (step msgpack 100) start responded (Keeps msgpack 100) ↔
        EachStep (step msgpack 100) start responded (Quiet msgpack)) := by
  have kept := @heartbeats_kept_iff_quiet msgpack 100 responded _ rfl
  refine ⟨_, _, rfl, rfl, ?_⟩
  exact ⟨by decide +kernel, kept.mpr (by decide +kernel), kept⟩

end Runs

end Tomas.HeartbeatExchange
