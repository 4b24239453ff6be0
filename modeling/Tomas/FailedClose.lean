import Tomas.ServerLifecycle
import Tomas.WireAgreement

/-! What becomes of a server connection whose handlers have failed.
`MsgpackServerHandler` asks for a close that `CloseChannelAdapter` keeps to itself:
the promise is never completed, the transport hears of nothing, and the peer goes
on being read and answered. -/
namespace Tomas.FailedClose
open Tomas.Framing Tomas.Pipeline Tomas.Protocol Tomas.Jackson Tomas.Codec
open Tomas.Delivery Tomas.ServerPipeline Tomas.WireAgreement Tomas.ServerLifecycle Tomas.Runs

/-- The exceptions that set out from a handler behind the codecs during an
incident, each with the connection as it is then: what is thrown, and the stack
overflow of every heartbeat request that is read. -/
inductive Raised (om : ObjectMapper) (stack : Nat) (machine : ServerMachine) :
    Incident → Nat → Throwable → ServerMachine → Prop where
  | thrown {position : Nat} {cause : Throwable} (behind : 4 ≤ position) (known : position < 7) :
      Raised om stack machine (.throw position cause) position cause machine
  | overflow {chunk : Bytes} {message : Message} {reached : ServerMachine}
      (hands : Hands om (serverHandlers stack) machine chunk message reached)
      (asks : hasType message .heartBeatReq = true) :
      Raised om stack machine (.read chunk) 4 .stackOverflowError
        (reached.log [.channelRead .heartBeatResp (.message message)])

/-- The close `MsgpackServerHandler` asks for once the exception has reached it. -/
def failureClose (om : ObjectMapper) (stack position : Nat) (cause : Throwable)
    (raised : ServerMachine) : Promise Throwable × ServerMachine :=
  contextClose socket (serverPipeline om stack) 6 (raised.log (failureTrail position cause))

def Completes (om : ObjectMapper) (stack position : Nat) (cause : Throwable) (raised : ServerMachine) :
    Prop :=
  (failureClose om stack position cause raised).1 = .success

def ReachesTransport (om : ObjectMapper) (stack position : Nat) (cause : Throwable)
    (raised : ServerMachine) : Prop :=
  .transportClose ∈ (failureClose om stack position cause raised).2.trace.drop raised.trace.length

/-- The connection got to where it is through that close: behind it, only the
frames that were read with it and the end of the decoding are left. -/
def ComesThrough (om : ObjectMapper) (stack position : Nat) (cause : Throwable)
    (raised after : ServerMachine) : Prop :=
  ∃ (later : List Bytes) (failure : Option Failure),
    after = (later.foldl (deliver om (serverHandlers stack))
      (failureClose om stack position cause raised).2).log (failureEvents failure)

/-- In no continuation is anything of the connection different. -/
def Frozen {β : Type} (observe : ServerMachine → β) (om : ObjectMapper) (stack : Nat) (server : Server)
    (id : String) : Prop :=
  ∀ continuation final before after, exec (step om stack) server continuation = some final →
    server.connections id = some before → final.connections id = some after →
    observe after = observe before

section Closing

variable {om : ObjectMapper} {stack position : Nat} {cause : Throwable} {machine raised : ServerMachine}
  {incident : Incident}

/-- An exception from behind the codecs has no other effect than that close. -/
theorem throwAt_failureClose (behind : 4 ≤ position) (known : position < 7) :
    throwAt socket (serverPipeline om stack) position cause machine =
      (failureClose om stack position cause machine).2 := by
  rw [throwAt_handler om stack cause machine position behind known, failureClose, contextClose_last]

/-- The exceptions of an incident are part of what it does. -/
theorem raised_runs (raises : Raised om stack machine incident position cause raised) {after : ServerMachine}
    (ran : incidentStep om stack machine incident = some after) :
    ComesThrough om stack position cause raised after := by
  cases raises with
  | thrown behind known =>
    obtain ⟨-, rfl⟩ := throw_cases ran
    exact ⟨[], none, by simp [throwAt_failureClose behind known, failureEvents]⟩
  | overflow hands asks =>
    obtain ⟨later, -, reading⟩ := readChunk_of_hands hands
    rw [afterCodecs_heartBeatReq om asks, throwAt_failureClose (by omega) (by omega)] at reading
    exact ⟨later, _, (read_cases ran).trans reading⟩

theorem not_completes : ¬ Completes om stack position cause raised := by
  rw [Completes, failureClose, contextClose_last]
  intro completed
  cases completed

theorem not_reachesTransport : ¬ ReachesTransport om stack position cause raised := by
  rw [ReachesTransport, failureClose, contextClose_last, Machine.act_trace, Machine.log_trace,
    List.append_assoc, List.drop_left]
  intro reached
  rcases List.mem_append.mp reached with trail | close
  · obtain ⟨handler, -, same⟩ := List.mem_map.mp trail
    cases same
  · cases List.mem_singleton.mp close

/-- The connection stays open. -/
theorem raised_stays_open (raises : Raised om stack machine incident position cause raised)
    (active : machine.channel.active = true) {after : ServerMachine}
    (ran : incidentStep om stack machine incident = some after) : after.channel.active = true := by
  cases raises with
  | thrown behind known =>
    obtain ⟨-, rfl⟩ := throw_cases ran
    rw [throwAt_handler om stack cause machine position behind known]
    exact active
  | overflow hands asks =>
    obtain rfl := read_cases ran
    rw [readChunk_channel om stack active]
    exact active

/-- The simplest message a peer can send. -/
private def greeting : ProtocolMessage String := getProtocolMessage none .messageBussiness .request

/-- Whatever an open connection has received, its peer can send more and be
answered. -/
theorem exists_answer (lawful : Lawful om) {server : Server} {id : String}
    (connected : server.connections id = some machine) (active : machine.channel.active = true)
    (shared : machine.channel.own = server.sessionCalls) :
    ∃ continuation final after, exec (step om stack) server continuation = some final ∧
      final.connections id = some after ∧
      handed .msgpackServerHandler after.trace ≠ handed .msgpackServerHandler machine.trace ∧
      after.channel.out ≠ machine.channel.out := by
  have encoded : wirePayload om greeting.raw = some (payloadOf om greeting) :=
    wirePayload_of_size lawful (by decide)
  have answered : wirePayload om (reply greeting.raw) = some (payloadOf om (replyTo greeting)) := by
    rw [reply_raw]
    exact wirePayload_of_size lawful (by decide)
  have known := (wirePayload_eq_some.mp encoded).1
  have fits : Fits frameParams (payloadOf om greeting) := (fits_payloadOf lawful known).mpr (by decide)
  obtain ⟨chunks, nonempty, messages, member, delivered⟩ :=
    (serverReceiver om stack).exists_delivery (decoded_payloadOf lawful known) fits machine
  obtain ⟨final, ran, found⟩ := @exec_reads om stack _ _ chunks nonempty _ connected active shared
  refine ⟨_, final, _, ran, found, ?_, ?_⟩
  · rw [(serverReceiver om stack).handed_of_delivered (by decide) (handed_lastHandler om) delivered]
    intro same
    have none := List.append_right_eq_self.mp same
    have processed : greeting.raw ∈ messages.flatMap fun message =>
        if hasType message .heartBeatReq then [] else [message] :=
      List.mem_flatMap.mpr ⟨greeting.raw, member, by decide⟩
    rw [none] at processed
    cases processed
  · rw [delivered.channel, serverEffects_channel om stack messages active]
    intro same
    have none := stream_eq_nil (by omega) (List.append_right_eq_self.mp same)
    have replied : payloadOf om (replyTo greeting) ∈ replyPayloads om messages := by
      refine List.mem_flatMap.mpr ⟨greeting.raw, member, ?_⟩
      rw [answered]
      exact List.mem_singleton_self _
    rw [none] at replied
    cases replied

end Closing

section Failures

variable {om : ObjectMapper} {stack position : Nat} {cause : Throwable} {server next : Server}
  {id : String} {machine raised : ServerMachine} {incident : Incident}

private theorem not_frozen (lawful : Lawful om) (connected : server.connections id = some machine)
    (raises : Raised om stack (server.atHand machine) incident position cause raised)
    (stepped : step om stack server (.on id incident) = some next) :
    ¬ Frozen (fun after => handed .msgpackServerHandler after.trace) om stack next id ∧
      ¬ Frozen (fun after => after.channel.out) om stack next id := by
  obtain ⟨before, after, known, active, ran, rfl⟩ := on_cases stepped
  rw [connected] at known
  cases known
  have stays := raised_stays_open raises active ran
  have found : Function.update server.connections id (some after) id = some after :=
    Function.update_self ..
  obtain ⟨continuation, final, last, continued, lastFound, processed, replied⟩ :=
    @exists_answer om stack after lawful
      { connections := Function.update server.connections id (some after)
        sessionCalls := after.channel.own } id found stays rfl
  constructor
  · intro frozen
    exact processed (frozen continuation final after last continued found lastFound)
  · intro frozen
    exact replied (frozen continuation final after last continued found lastFound)

/-- Whenever an exception reaches `MsgpackServerHandler`, in whatever state the
server is, the step comes through its close, which is never completed and never
gets to the transport, and some continuation still has a message of the peer
processed and a reply written. -/
theorem no_failure_closes (lawful : Lawful om) (connected : server.connections id = some machine)
    (raises : Raised om stack (server.atHand machine) incident position cause raised)
    (stepped : step om stack server (.on id incident) = some next) :
    (∃ after, next.connections id = some after ∧ ComesThrough om stack position cause raised after) ∧
      ¬ Completes om stack position cause raised ∧
      ¬ ReachesTransport om stack position cause raised ∧
      ¬ Frozen (fun after => handed .msgpackServerHandler after.trace) om stack next id ∧
      ¬ Frozen (fun after => after.channel.out) om stack next id := by
  refine ⟨?_, not_completes, not_reachesTransport, not_frozen lawful connected raises stepped⟩
  obtain ⟨before, after, known, -, ran, rfl⟩ := on_cases stepped
  rw [connected] at known
  cases known
  exact ⟨after, Function.update_self .., raised_runs raises ran⟩

end Failures

/-! ## A peer that has just connected -/

def newConnection : ServerMachine := { channel := { id := "a", own := [.addSession "a"] } }

def accepted : Server where
  connections := Function.update (fun _ => none) "a" (some newConnection)
  sessionCalls := [.addSession "a"]

/-- Its read timeout, reported to `CloseChannelAdapter`. -/
theorem no_failure_closes_timeout :
    ∃ next, step msgpack 100 accepted (.on "a" (.throw 5 .readTimeoutException)) = some next ∧
      (∃ after, next.connections "a" = some after ∧
        ComesThrough msgpack 100 5 .readTimeoutException newConnection after) ∧
      ¬ Completes msgpack 100 5 .readTimeoutException newConnection ∧
      ¬ Frozen (fun after => after.channel.out) msgpack 100 next "a" := by
  have connected : accepted.connections "a" = some newConnection := rfl
  have raises : Raised msgpack 100 (accepted.atHand newConnection) (.throw 5 .readTimeoutException) 5
      .readTimeoutException newConnection := .thrown (by omega) (by omega)
  obtain ⟨next, stepped⟩ :
      ∃ next, step msgpack 100 accepted (.on "a" (.throw 5 .readTimeoutException)) = some next := ⟨_, rfl⟩
  have failed := no_failure_closes msgpack_lawful connected raises stepped
  exact ⟨next, stepped, failed.1, failed.2.1, failed.2.2.2.2⟩

/-- A heartbeat request as a client sends it. -/
def heartBeatRequest : Bytes :=
  framed 2 (payloadOf msgpack (getProtocolMessage none .heartBeatReq .request))

private theorem heartBeatRequest_read :
    (getProtocolMessage none .heartBeatReq .request).raw ∈
      (feed frameParams {} heartBeatRequest).frames.filterMap (decoded msgpack) := by
  decide +kernel

/-- Its first message is a heartbeat request: the server asks for a close and goes
on answering. -/
theorem heartBeatRequest_closes_nothing :
    exec (step msgpack 100) start [.accept "a"] = some accepted ∧
      ∃ next raised, step msgpack 100 accepted (.on "a" (.read heartBeatRequest)) = some next ∧
        Raised msgpack 100 (accepted.atHand newConnection) (.read heartBeatRequest) 4 .stackOverflowError
          raised ∧
        ¬ Completes msgpack 100 4 .stackOverflowError raised ∧
        ¬ ReachesTransport msgpack 100 4 .stackOverflowError raised ∧
        ¬ Frozen (fun after => handed .msgpackServerHandler after.trace) msgpack 100 next "a" ∧
        ¬ Frozen (fun after => after.channel.out) msgpack 100 next "a" := by
  refine ⟨rfl, ?_⟩
  have connected : accepted.connections "a" = some newConnection := rfl
  obtain ⟨reached, hands⟩ : ∃ reached, Hands msgpack (serverHandlers 100) newConnection heartBeatRequest
      (getProtocolMessage none .heartBeatReq .request).raw reached :=
    exists_hands_iff.mpr heartBeatRequest_read
  have raises : Raised msgpack 100 (accepted.atHand newConnection) (.read heartBeatRequest) 4
      .stackOverflowError _ := .overflow hands (by decide)
  have nonempty : heartBeatRequest ≠ [] := framed_ne_nil (by omega) _
  obtain ⟨next, stepped⟩ :
      ∃ next, step msgpack 100 accepted (.on "a" (.read heartBeatRequest)) = some next := by
    have active : newConnection.channel.active = true := rfl
    simp [step, connected, active, incidentStep, nonempty]
  exact ⟨next, _, stepped, raises, not_completes, not_reachesTransport,
    not_frozen msgpack_lawful connected raises stepped⟩

end Tomas.FailedClose
