import Tomas.ServerLifecycle
import Tomas.WireAgreement

/-! Whether the sessions the server keeps are its open connections. A close that
passes `CloseChannelAdapter` removes the session and leaves the channel open, and
a close that does not pass it closes the channel and leaves the session, so the
bookkeeping is right until the first close of either kind. -/
namespace Tomas.SessionBookkeeping
open Tomas.Framing Tomas.Pipeline Tomas.Protocol Tomas.Jackson Tomas.Codec
open Tomas.Delivery Tomas.ServerPipeline Tomas.ServerLifecycle Tomas.WireAgreement Tomas.Runs

/-- A session was added and not removed after that. -/
def Tracked (calls : List SessionCall) (id : String) : Prop :=
  ∃ earlier later, calls = earlier ++ .addSession id :: later ∧ .removeSession id ∉ later

def Open (server : Server) (id : String) : Prop :=
  ∃ machine, server.connections id = some machine ∧ machine.channel.active = true

/-- The sessions are the open connections. -/
def Bookkept (server : Server) : Prop := ∀ id, Tracked server.sessionCalls id ↔ Open server id

/-- No heartbeat request is complete in what the connection reads, no callback
behind the codecs throws, and nothing closes. -/
def QuietIncident (om : ObjectMapper) (machine : ServerMachine) : Incident → Prop
  | .read chunk =>
    ∀ message ∈ (feed frameParams machine.channel.decoder chunk).frames.filterMap (decoded om),
      hasType message .heartBeatReq = false
  | .throw position _ => position < 4
  | .contextClose _ | .channelClose | .disconnect => False

def Quiet (om : ObjectMapper) (server : Server) : Action → Prop
  | .accept _ => True
  | .on id incident =>
    ∀ machine, server.connections id = some machine → QuietIncident om machine incident

instance (om : ObjectMapper) (machine : ServerMachine) (incident : Incident) :
    Decidable (QuietIncident om machine incident) :=
  match incident with
  | .read chunk => inferInstanceAs (Decidable (∀ message ∈ (feed frameParams machine.channel.decoder
      chunk).frames.filterMap (decoded om), hasType message .heartBeatReq = false))
  | .throw position _ => inferInstanceAs (Decidable (position < 4))
  | .contextClose _ | .channelClose | .disconnect => inferInstanceAs (Decidable False)

instance (om : ObjectMapper) (server : Server) (action : Action) : Decidable (Quiet om server action) :=
  match action with
  | .accept _ => inferInstanceAs (Decidable True)
  | .on id incident =>
    match known : server.connections id with
    | none => isTrue fun machine found => by simp [known] at found
    | some machine => decidable_of_iff (QuietIncident om machine incident) (by simp [Quiet, known])

/-! ## Sessions -/

section Sessions

variable {calls : List SessionCall} {id : String}

private theorem tracked_iff_since :
    Tracked calls id ↔ Since (· = .addSession id) (· = .removeSession id) calls := by
  constructor
  · rintro ⟨earlier, later, whole, kept⟩
    refine ⟨earlier, .addSession id, later, whole, rfl, ?_⟩
    rintro other member rfl
    exact kept member
  · rintro ⟨earlier, event, later, whole, rfl, kept⟩
    exact ⟨earlier, later, whole, fun member => kept _ member rfl⟩

theorem tracked_snoc (call : SessionCall) : Tracked (calls ++ [call]) id ↔
    call = .addSession id ∨ call ≠ .removeSession id ∧ Tracked calls id := by
  rw [tracked_iff_since, tracked_iff_since, since_snoc]

theorem not_tracked_removed {count : Nat} (positive : 0 < count) :
    ¬ Tracked (calls ++ List.replicate count (.removeSession id)) id := by
  obtain ⟨fewer, rfl⟩ := Nat.exists_eq_add_of_le' positive
  rw [List.replicate_succ', ← List.append_assoc, tracked_snoc]
  rintro (same | ⟨keeps, -⟩)
  · cases same
  · exact keeps rfl

end Sessions

/-! ## Incidents -/

section Incidents

variable {om : ObjectMapper} {stack : Nat} {machine after : ServerMachine} {incident : Incident}

/-- A quiet incident leaves connection and sessions alone. Any other either
removes the session of a channel that stays open or closes a channel whose
session stays. -/
theorem incident_cases (active : machine.channel.active = true)
    (ran : incidentStep om stack machine incident = some after) :
    after.channel.id = machine.channel.id ∧
    ((QuietIncident om machine incident ∧ after.channel.active = true ∧
        after.channel.own = machine.channel.own) ∨
      (¬ QuietIncident om machine incident ∧ after.channel.active = true ∧
        ∃ count, 0 < count ∧ after.channel.own =
          machine.channel.own ++ List.replicate count (.removeSession machine.channel.id)) ∨
      (¬ QuietIncident om machine incident ∧ after.channel.active = false ∧
        after.channel.own = machine.channel.own)) := by
  cases incident with
  | read chunk =>
    obtain rfl := read_cases ran
    rw [readChunk_channel om stack active chunk]
    refine ⟨rfl, ?_⟩
    by_cases quiet : QuietIncident om machine (.read chunk)
    · refine Or.inl ⟨quiet, active, ?_⟩
      have none : List.countP (hasType · .heartBeatReq)
          ((feed frameParams machine.channel.decoder chunk).frames.filterMap (decoded om)) = 0 := by
        rw [List.countP_eq_zero]
        intro message member
        simp [quiet message member]
      simp [none]
    · refine Or.inr (Or.inl ⟨quiet, active, _, ?_, rfl⟩)
      rw [List.countP_pos_iff]
      by_contra absent
      apply quiet
      intro message member
      by_contra asks
      exact absent ⟨message, member, by simpa using asks⟩
  | throw position cause =>
    obtain ⟨known, rfl⟩ := throw_cases ran
    by_cases codec : position < 4
    · rw [throwAt_codec om stack cause machine position codec]
      exact ⟨rfl, Or.inl ⟨codec, active, rfl⟩⟩
    · rw [throwAt_handler om stack cause machine position (Nat.not_lt.mp codec) known]
      exact ⟨rfl, Or.inr (Or.inl ⟨codec, active, 1, Nat.one_pos, rfl⟩)⟩
  | contextClose position =>
    obtain ⟨known, rfl⟩ := contextClose_cases ran
    by_cases front : position < 6
    · rw [contextClose_front om stack machine position front]
      exact ⟨rfl, Or.inr (Or.inr ⟨id, rfl, rfl⟩)⟩
    · obtain rfl : position = 6 := by omega
      rw [contextClose_last]
      exact ⟨rfl, Or.inr (Or.inl ⟨id, active, 1, Nat.one_pos, rfl⟩)⟩
  | channelClose =>
    cases ran
    rw [channelClose_server]
    exact ⟨rfl, Or.inr (Or.inl ⟨id, active, 1, Nat.one_pos, rfl⟩)⟩
  | disconnect =>
    cases ran
    exact ⟨rfl, Or.inr (Or.inr ⟨id, rfl, rfl⟩)⟩

end Incidents

/-! ## Runs -/

section Runs

variable {om : ObjectMapper} {stack : Nat} {server next final : Server} {actions : List Action}

/-- What quiet steps keep. -/
structure Orderly (server : Server) : Prop where
  bookkept : Bookkept server
  named : ∀ id machine, server.connections id = some machine → machine.channel.id = id

private theorem open_update {connections : String → Option ServerMachine} {calls : List SessionCall}
    {id other : String} {machine : ServerMachine} :
    Open { connections := Function.update connections other (some machine), sessionCalls := calls } id ↔
      if id = other then machine.channel.active = true
      else ∃ machine, connections id = some machine ∧ machine.channel.active = true := by
  split
  · rename_i same
    subst same
    simp [Open]
  · rename_i different
    simp [Open, different]

private theorem named_update {connections : String → Option ServerMachine} {machine : ServerMachine}
    {other : String} (named : ∀ id machine, connections id = some machine → machine.channel.id = id)
    (own : machine.channel.id = other) (id : String) (found : ServerMachine)
    (known : Function.update connections other (some machine) id = some found) :
    found.channel.id = id := by
  by_cases same : id = other
  · subst same
    rw [Function.update_self] at known
    cases known
    exact own
  · rw [Function.update_of_ne same] at known
    exact named id found known

private theorem orderly_start : Orderly start := by
  refine ⟨?_, fun id machine known => by cases known⟩
  intro id
  apply iff_of_false
  · rintro ⟨earlier, later, whole, -⟩
    exact List.append_ne_nil_of_right_ne_nil earlier (List.cons_ne_nil _ _) whole.symm
  · rintro ⟨machine, known, -⟩
    cases known

private theorem orderly_accept {id : String} (orderly : Orderly server)
    (stepped : step om stack server (.accept id) = some next) : Orderly next := by
  obtain ⟨absent, calls, machine, own, active, connections⟩ := accept_cases stepped
  obtain ⟨nextConnections, nextCalls⟩ := next
  subst calls connections
  refine ⟨?_, named_update orderly.named own⟩
  intro other
  rw [tracked_snoc, open_update]
  split
  · rename_i same
    subst same
    exact iff_of_true (Or.inl rfl) active
  · rename_i different
    have before := orderly.bookkept other
    simp only [Open] at before
    simp [before, Ne.symm different]

private theorem orderly_quiet {id : String} {incident : Incident} (orderly : Orderly server)
    (quiet : Quiet om server (.on id incident))
    (stepped : step om stack server (.on id incident) = some next) : Orderly next := by
  obtain ⟨machine, after, connected, active, ran, rfl⟩ := on_cases stepped
  have calm : QuietIncident om (server.atHand machine) incident := by
    have own := quiet machine connected
    cases incident <;> exact own
  have handy : (server.atHand machine).channel.active = true := active
  rcases incident_cases handy ran with ⟨same, ⟨-, stays, kept⟩ | ⟨loud, -⟩ | ⟨loud, -⟩⟩
  · refine ⟨?_, named_update orderly.named (same.trans (orderly.named id machine connected))⟩
    intro other
    rw [open_update]
    have before := orderly.bookkept other
    have calls : after.channel.own = server.sessionCalls := kept
    rw [calls, before]
    split
    · rename_i here
      subst here
      exact iff_of_true ⟨machine, connected, active⟩ stays
    · exact Iff.rfl
  · exact absurd calm loud
  · exact absurd calm loud

private theorem loud_breaks {id : String} {incident : Incident} (orderly : Orderly server)
    (loud : ¬ Quiet om server (.on id incident))
    (stepped : step om stack server (.on id incident) = some next) : ¬ Bookkept next := by
  obtain ⟨machine, after, connected, active, ran, rfl⟩ := on_cases stepped
  have disturbed : ¬ QuietIncident om (server.atHand machine) incident := by
    intro calm
    apply loud
    intro other known
    rw [connected] at known
    cases known
    cases incident <;> exact calm
  have named := orderly.named id machine connected
  have handy : (server.atHand machine).channel.active = true := active
  intro bookkept
  have here := bookkept id
  rw [open_update, if_pos rfl] at here
  rcases incident_cases handy ran with
    ⟨-, ⟨calm, -⟩ | ⟨-, stays, count, positive, removed⟩ | ⟨-, closed, kept⟩⟩
  · exact disturbed calm
  · -- the session is gone and the channel is still open
    have gone : ¬ Tracked after.channel.own id := by
      have own : (server.atHand machine).channel.id = id := named
      rw [removed, own]
      exact not_tracked_removed positive
    exact gone (here.mpr stays)
  · -- the channel is closed and the session is still there
    have before := (orderly.bookkept id).mpr ⟨machine, connected, active⟩
    have calls : after.channel.own = server.sessionCalls := kept
    rw [calls, closed] at here
    cases here.mp before

/-- The sessions are the open connections throughout a run exactly when every
step of it is quiet. -/
theorem bookkept_iff_quiet (ran : exec (step om stack) start actions = some final) :
    Always (step om stack) start actions Bookkept ↔
      EachStep (step om stack) start actions (Quiet om) := by
  refine always_iff_eachStep Orderly orderly_start (fun _ orderly => orderly.bookkept) ?_ ?_ ran
  · intro server action next orderly quiet stepped
    cases action with
    | accept id => exact orderly_accept orderly stepped
    | on id incident => exact orderly_quiet orderly quiet stepped
  · intro server action next orderly loud stepped
    cases action with
    | accept id => exact absurd trivial loud
    | on id incident => exact loud_breaks orderly loud stepped

/-- Two peers; one sends a request in two pieces, the other a payload that is no
message, and a codec throws on it. -/
private def peers : List Action :=
  let request := framed 2 (payloadOf msgpack (getProtocolMessage (some "hello") .messageBussiness .request))
  [.accept "a", .on "a" (.read (request.take 30)), .accept "b", .on "b" (.read (framed 2 [0xc1])),
    .on "a" (.read (request.drop 30)), .on "b" (.throw 1 .ioException)]

theorem bookkept_iff_quiet_peers :
    Always (step msgpack 100) start peers Bookkept ∧
      (Always (step msgpack 100) start peers Bookkept ↔
        EachStep (step msgpack 100) start peers (Quiet msgpack)) := by
  have bookkept := @bookkept_iff_quiet msgpack 100 _ peers rfl
  exact ⟨bookkept.mpr (by decide +kernel), bookkept⟩

/-- The session of a peer that disconnects is never removed. -/
theorem disconnected_session_stays :
    ∃ final, exec (step msgpack 100) start [.accept "a", .on "a" .disconnect] = some final ∧
      Tracked final.sessionCalls "a" ∧ ¬ Open final "a" ∧
      ¬ Always (step msgpack 100) start [.accept "a", .on "a" .disconnect] Bookkept := by
  have tracked : Tracked [.addSession "a"] "a" := ⟨[], [], rfl, List.not_mem_nil⟩
  refine ⟨_, rfl, tracked, ?_, ?_⟩
  · rintro ⟨machine, known, active⟩
    cases known
    cases active
  · intro always
    have bookkept := always _ (List.prefix_refl _) _ rfl
    obtain ⟨machine, known, active⟩ := (bookkept "a").mp tracked
    cases known
    cases active

end Runs

end Tomas.SessionBookkeeping
