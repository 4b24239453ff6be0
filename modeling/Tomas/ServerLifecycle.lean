import Mathlib.Logic.Function.Basic
import Tomas.Runs
import Tomas.ServerPipeline

/-! The server's connections from accept to close. Bytes arrive, callbacks throw,
handlers and channels are asked to close and peers disappear, on any number of
connections in any order. -/
namespace Tomas.ServerLifecycle
open Tomas.Framing Tomas.Pipeline Tomas.Protocol Tomas.Jackson Tomas.Codec
open Tomas.Delivery Tomas.ServerPipeline Tomas.Runs

/-- The channels by id, closed ones included, and the calls on `ChannelCache`. -/
structure Server where
  connections : String → Option ServerMachine
  sessionCalls : List SessionCall

def start : Server := { connections := fun _ => none, sessionCalls := [] }

/-- What can happen to an open connection. A position is that of one of the
seven handlers. -/
inductive Incident where
  | read (chunk : Bytes)
  | throw (position : Nat) (cause : Throwable)
  | contextClose (position : Nat)
  | channelClose
  | disconnect
  deriving DecidableEq, Repr

inductive Action where
  | accept (id : String)
  | on (id : String) (incident : Incident)
  deriving DecidableEq, Repr

def incidentStep (om : ObjectMapper) (stack : Nat) (machine : ServerMachine) :
    Incident → Option ServerMachine
  | .read chunk =>
    if chunk = [] then none
    else some (fireChannelRead socket (serverPipeline om stack) (.byteBuf chunk) machine)
  | .throw position cause =>
    if position < 7 then some (throwAt socket (serverPipeline om stack) position cause machine)
    else none
  | .contextClose position =>
    if position < 7 then some (contextClose socket (serverPipeline om stack) position machine).2
    else none
  | .channelClose => some (channelClose socket (serverPipeline om stack) machine).2
  -- the transport closes by itself, and no handler overrides `channelInactive`
  | .disconnect => some (machine.withChannel { machine.channel with active := false })

/-- A connection with the server's statics at hand. -/
def Server.atHand (server : Server) (machine : ServerMachine) : ServerMachine :=
  machine.withChannel { machine.channel with own := server.sessionCalls }

/-- `initChannel` adds the session before the handlers. -/
def step (om : ObjectMapper) (stack : Nat) (server : Server) : Action → Option Server
  | .accept id =>
    if (server.connections id).isSome then none
    else
      let sessionCalls := server.sessionCalls ++ [.addSession id]
      let machine : ServerMachine := { channel := { id := id, own := sessionCalls } }
      some { connections := Function.update server.connections id (some machine), sessionCalls }
  | .on id incident =>
    (server.connections id).bind fun machine =>
      if machine.channel.active then
        (incidentStep om stack (server.atHand machine) incident).map fun machine =>
          { connections := Function.update server.connections id (some machine)
            sessionCalls := machine.channel.own }
      else none

/-! ## One step -/

section Steps

variable {om : ObjectMapper} {stack : Nat} {server next : Server} {id : String}

theorem accept_cases (stepped : step om stack server (.accept id) = some next) :
    server.connections id = none ∧
      next.sessionCalls = server.sessionCalls ++ [.addSession id] ∧
      ∃ machine, machine.channel.id = id ∧ machine.channel.active = true ∧
        next.connections = Function.update server.connections id (some machine) := by
  simp only [step] at stepped
  split at stepped
  · cases stepped
  · rename_i absent
    cases stepped
    exact ⟨by simpa using absent, rfl, _, rfl, rfl, rfl⟩

theorem on_cases {incident : Incident} (stepped : step om stack server (.on id incident) = some next) :
    ∃ machine after, server.connections id = some machine ∧ machine.channel.active = true ∧
      incidentStep om stack (server.atHand machine) incident = some after ∧
      next = { connections := Function.update server.connections id (some after)
               sessionCalls := after.channel.own } := by
  simp only [step] at stepped
  obtain ⟨machine, connected, stepped⟩ := Option.bind_eq_some_iff.mp stepped
  split at stepped
  · rename_i active
    obtain ⟨after, ran, rfl⟩ := Option.map_eq_some_iff.mp stepped
    exact ⟨machine, after, connected, active, ran, rfl⟩
  · cases stepped

theorem read_cases {machine after : ServerMachine} {chunk : Bytes}
    (ran : incidentStep om stack machine (.read chunk) = some after) :
    after = readChunk om (serverHandlers stack) machine chunk := by
  simp only [incidentStep] at ran
  split at ran
  · cases ran
  · cases ran
    exact fireChannelRead_chunk om (serverHandlers stack) machine chunk

theorem throw_cases {machine after : ServerMachine} {position : Nat} {cause : Throwable}
    (ran : incidentStep om stack machine (.throw position cause) = some after) :
    position < 7 ∧ after = throwAt socket (serverPipeline om stack) position cause machine := by
  simp only [incidentStep] at ran
  split at ran
  · rename_i known
    cases ran
    exact ⟨known, rfl⟩
  · cases ran

theorem contextClose_cases {machine after : ServerMachine} {position : Nat}
    (ran : incidentStep om stack machine (.contextClose position) = some after) :
    position < 7 ∧ after = (contextClose socket (serverPipeline om stack) position machine).2 := by
  simp only [incidentStep] at ran
  split at ran
  · rename_i known
    cases ran
    exact ⟨known, rfl⟩
  · cases ran

/-- Reading writes replies, and removes the session for each heartbeat request. -/
theorem readChunk_channel (om : ObjectMapper) (stack : Nat) {machine : ServerMachine}
    (active : machine.channel.active = true) (chunk : Bytes) :
    let messages := (feed frameParams machine.channel.decoder chunk).frames.filterMap (decoded om)
    (readChunk om (serverHandlers stack) machine chunk).channel =
      { machine.channel with
        decoder := (feed frameParams machine.channel.decoder chunk).next
        out := machine.channel.out ++ stream 2 (replyPayloads om messages)
        own := machine.channel.own ++ List.replicate (messages.countP (hasType · .heartBeatReq))
          (.removeSession machine.channel.id) } := by
  intro messages
  obtain ⟨delivered, decoder⟩ := (serverReceiver om stack).delivered_chunk machine chunk
  rw [delivered.channel, decoder, serverEffects_channel om stack messages active]

/-- The pieces that arrive on an open connection are read one after the other. -/
theorem exec_reads (chunks : List Bytes) (nonempty : ∀ chunk ∈ chunks, chunk ≠ [])
    {machine : ServerMachine} (connected : server.connections id = some machine)
    (active : machine.channel.active = true) (shared : machine.channel.own = server.sessionCalls) :
    ∃ final, exec (step om stack) server (chunks.map fun chunk => .on id (.read chunk)) = some final ∧
      final.connections id = some (chunks.foldl (readChunk om (serverHandlers stack)) machine) := by
  induction chunks generalizing server machine with
  | nil => exact ⟨server, rfl, connected⟩
  | cons chunk chunks ih =>
    let after := readChunk om (serverHandlers stack) machine chunk
    let next : Server :=
      { connections := Function.update server.connections id (some after)
        sessionCalls := after.channel.own }
    have own : server.atHand machine = machine := by
      rw [Server.atHand, ← shared]
      rfl
    have reading : fireChannelRead socket (serverPipeline om stack) (.byteBuf chunk) machine = after :=
      fireChannelRead_chunk om (serverHandlers stack) machine chunk
    have stepped : step om stack server (.on id (.read chunk)) = some next := by
      simp only [step, connected, Option.bind_some, active, if_true, incidentStep,
        if_neg (nonempty chunk (by simp)), own, reading, Option.map_some, next]
    have stays : after.channel.active = true := by
      rw [readChunk_channel om stack active chunk]
      exact active
    have linked : next.connections id = some after := Function.update_self ..
    have shared : after.channel.own = next.sessionCalls := rfl
    obtain ⟨final, ran, found⟩ :=
      ih (fun other member => nonempty other (List.mem_cons_of_mem _ member)) linked stays shared
    refine ⟨final, ?_, found⟩
    rw [List.map_cons, exec_cons, stepped]
    exact ran

end Steps

end Tomas.ServerLifecycle
