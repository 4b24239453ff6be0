import Tomas.AuthProvenance
import Tomas.ReplyAccounts

/-! Once the clients send nothing more, the server and the clients come to rest,
in whatever order the ends read and the timers fire: a request in flight may still
cause one reply, but a reply causes nothing. Then every message whose frames were
never refused by the other end has been answered as far as it is worth an answer. -/
namespace Tomas.Settling
open Tomas.Framing Tomas.Pipeline Tomas.Protocol Tomas.Jackson Tomas.Codec
open Tomas.Delivery Tomas.ServerPipeline Tomas.ClientPipeline Tomas.WireAgreement
open Tomas.Conversation Tomas.AuthProvenance Tomas.ReplyAccounts Tomas.Runs

/-- Everything but new connections and new messages. -/
def Internal : Action → Prop
  | .on _ (.fire _) | .on _ (.serverRead _) | .on _ (.clientRead _) => True
  | .connect _ | .on _ (.send _) => False

/-! ## The cost of one connection -/

/-- A timer that may still be started counts like one that runs. -/
def timerCost (timer : Timer) : Nat :=
  timer.scheduled.length + if timer.heartBeat.isSome then 0 else 1

/-- A request weighs more than the frame of its reply. -/
def cost (link : Link) : Nat :=
  (requestsUnderWay link).length * 65538 + link.client.channel.out.length +
    link.server.channel.out.length + timerCost link.client.channel.own

section Cost

variable {om : ObjectMapper} {stack : Nat} {calls calls' : List SessionCall} {link after : Link}
  {requests replies : List Bytes} {action : LinkAction}

private theorem length_stream {payloads : List Bytes} (bounded : ∀ payload ∈ payloads, payload.length < 256 ^ 2) :
    (stream 2 payloads).length ≤ payloads.length * 65537 := by
  induction payloads with
  | nil => simp
  | cons payload later ih =>
    have own := bounded payload List.mem_cons_self
    have rest := ih fun other member => bounded other (List.mem_cons_of_mem _ member)
    rw [stream_cons, List.length_append, length_framed, List.length_cons]
    omega

private theorem length_replyPayloads (messages : List Message) :
    (replyPayloads om messages).length ≤ messages.length := by
  induction messages with
  | nil => exact Nat.le_refl _
  | cons message later ih =>
    have one : (if hasType message .heartBeatReq then ([] : List Bytes)
        else (wirePayload om (reply message)).toList).length ≤ 1 := by
      split
      · simp
      · cases wirePayload om (reply message) <;> simp
    have split : replyPayloads om (message :: later) =
        (if hasType message .heartBeatReq then [] else (wirePayload om (reply message)).toList) ++
          replyPayloads om later := List.flatMap_cons
    rw [split, List.length_append, List.length_cons]
    omega

private theorem length_readable (payloads : List Bytes) : (readable om payloads).length ≤ payloads.length :=
  Nat.le_trans (List.length_filterMap_le ..) (List.length_filter_le ..)

/-- Reading messages starts a timer at most where there was none. -/
private theorem timerCost_effects (messages : List Message) (channel : ClientChannel) :
    timerCost ((clientReceiver om).effects messages channel).1.own = timerCost channel.own := by
  induction messages generalizing channel with
  | nil => rfl
  | cons message messages ih =>
    have step : timerCost ((clientReceiver om).effect message channel).1.own = timerCost channel.own := by
      change timerCost (clientEffect message channel).1.own = _
      unfold clientEffect
      split
      · cases beat : channel.own.heartBeat with
        | none => simp [Timer.authenticated, Timer.scheduleAtFixedRate, timerCost, beat]
        | some task => simp [Timer.authenticated, beat]
      · split <;> rfl
    rw [Receiver.effects, ih, step]

private theorem taken_bytes {bytes : Bytes} {count : Nat} (some : bytes.take count ≠ []) :
    (bytes.drop count).length < bytes.length := by
  have length : 0 < (bytes.take count).length := List.length_pos_iff.mpr some
  rw [List.length_take] at length
  rw [List.length_drop]
  omega

theorem cost_step (flight : InFlight link requests replies) (silent : ∀ message, action ≠ .send message)
    (ran : linkStep om stack calls link action = some (after, calls')) : cost after < cost link := by
  have before : requestsUnderWay link = requests := inFlight_eq frameParams_plain flight.toServer
  cases action with
  | send message => exact absurd rfl (silent message)
  | fire task =>
    obtain ⟨scheduled, rfl⟩ := fire_cases ran
    have shorter := List.length_erase_of_mem scheduled
    have some := List.length_pos_of_mem scheduled
    rw [fireTask_drops]
    change (requestsUnderWay link).length * 65538 + link.client.channel.out.length +
      link.server.channel.out.length + timerCost (link.client.channel.own.drop task) < cost link
    rw [cost, timerCost, timerCost, Timer.drop, shorter]
    simp only
    omega
  | serverRead count =>
    obtain ⟨taken, later, rfl, moved, client, out, -⟩ := inFlight_serverRead flight count ran
    have nonempty : link.client.channel.out.take count ≠ [] := by
      intro empty
      simp [linkStep, takeOut, empty] at ran
    have consumed := taken_bytes nonempty
    have written := length_stream (replyPayloads_bounded om (readable om taken))
    have replied := @length_replyPayloads om (readable om taken)
    have read := @length_readable om taken
    have now : requestsUnderWay after = later := inFlight_eq frameParams_plain moved.toServer
    have left : after.client.channel.out = link.client.channel.out.drop count := by rw [client]; rfl
    have own : after.client.channel.own = link.client.channel.own := by rw [client]; rfl
    rw [cost, cost, now, before, left, own, out, List.length_append, List.length_append]
    omega
  | clientRead count =>
    obtain ⟨taken, later, rfl, moved, delivered, server, out, -⟩ := inFlight_clientRead flight count ran
    have nonempty : link.server.channel.out.take count ≠ [] := by
      intro empty
      simp [linkStep, takeOut, empty] at ran
    have consumed := taken_bytes nonempty
    have now : requestsUnderWay after = requests := inFlight_eq frameParams_plain moved.toServer
    have left : after.server.channel.out = link.server.channel.out.drop count := by rw [server]; rfl
    have own : timerCost after.client.channel.own = timerCost link.client.channel.own := by
      rw [delivered.channel]
      exact timerCost_effects (readable om taken) link.client.channel
    rw [cost, cost, now, before, left, own, out]
    omega

end Cost

/-! ## The end of one connection -/

/-- A message that the writer refuses if the reader does. -/
def Whole (message : ProtocolMessage String) : Prop :=
  messageSize message ≤ 65533 ∨ 65535 < messageSize message

/-- If no frame is over-long, streams that have been read leave nothing behind. -/
structure Calm (om : ObjectMapper) (sent : List (ProtocolMessage String)) (link : Link) : Prop where
  provenance : Provenance om sent link
  settled : (∀ message ∈ sent, Whole message ∧ Whole (replyTo message)) →
    ∃ requests replies, InFlight link requests replies ∧
      (link.client.channel.out = [] → requests = []) ∧ (link.server.channel.out = [] → replies = [])

section Calm

variable {om : ObjectMapper} {stack : Nat} {calls calls' : List SessionCall} {link after : Link}
  {sent : List (ProtocolMessage String)} {requests replies : List Bytes}

private theorem fits_whole (lawful : Lawful om) {message : ProtocolMessage String} (whole : Whole message)
    {payload : Bytes} (written : wirePayload om message.raw = some payload) : Fits frameParams payload := by
  obtain ⟨encoded, bounded⟩ := wirePayload_eq_some.mp written
  have length := lawful.size message payload encoded
  unfold Whole at whole
  simp only [Fits, frameParams]
  omega

private theorem flight_fits (lawful : Lawful om) (provenance : Provenance om sent link)
    (whole : ∀ message ∈ sent, Whole message ∧ Whole (replyTo message))
    (flight : InFlight link requests replies) :
    (∀ payload ∈ requests, Fits frameParams payload) ∧ ∀ payload ∈ replies, Fits frameParams payload := by
  obtain ⟨_, _, known, fromSent, answers⟩ := provenance.flight
  rw [← inFlight_eq frameParams_plain known.toServer, inFlight_eq frameParams_plain flight.toServer] at fromSent
  rw [← inFlight_eq frameParams_plain known.toClient, inFlight_eq frameParams_plain flight.toClient] at answers
  constructor
  · intro payload member
    obtain ⟨message, listed, written⟩ := fromSent payload member
    exact fits_whole lawful (whole message listed).1 written
  · intro payload member
    obtain ⟨message, listed, written⟩ := answers payload member
    exact fits_whole lawful (whole message listed).2 written

private theorem calm_new (id : String) : Calm om [] (newLink id) where
  provenance := {
    flight := ⟨[], [], inFlight_new id, List.forall_mem_nil _, List.forall_mem_nil _⟩
    handed := List.forall_mem_nil _
    timer := fun changed => absurd rfl changed }
  settled _ := ⟨[], [], inFlight_new id, fun _ => rfl, fun _ => rfl⟩

private theorem calm_step (lawful : Lawful om) (action : LinkAction) (calm : Calm om sent link)
    (ran : linkStep om stack calls link action = some (after, calls')) :
    Calm om (sent ++ action.sent) after := by
  refine ⟨provenance_step lawful action calm.provenance ran, ?_⟩
  intro whole
  have earlier : ∀ message ∈ sent, Whole message ∧ Whole (replyTo message) :=
    fun message member => whole message (List.mem_append_left _ member)
  obtain ⟨requests, replies, flight, served, returned⟩ := calm.settled earlier
  obtain ⟨fitRequests, fitReplies⟩ := flight_fits lawful calm.provenance earlier flight
  cases action with
  | send message =>
    cases ran
    refine ⟨_, replies, inFlight_send flight message, ?_, returned⟩
    intro empty
    rw [clientSend_channel message flight.clientActive] at empty
    obtain ⟨before, added⟩ := List.append_eq_nil_iff.mp empty
    rw [served before, stream_eq_nil (by omega) added]
    rfl
  | fire task =>
    obtain ⟨-, rfl⟩ := fire_cases ran
    refine ⟨requests, replies, inFlight_fire flight task, ?_, returned⟩
    rw [fireTask_drops]
    exact served
  | serverRead count =>
    obtain ⟨taken, later, -, moved, -, out, exhausted, -⟩ := inFlight_serverRead flight count ran
    refine ⟨later, _, moved, exhausted fitRequests, ?_⟩
    intro empty
    rw [out] at empty
    obtain ⟨before, added⟩ := List.append_eq_nil_iff.mp empty
    rw [returned before, stream_eq_nil (by omega) added]
    rfl
  | clientRead count =>
    obtain ⟨taken, later, -, moved, -, -, out, exhausted⟩ := inFlight_clientRead flight count ran
    refine ⟨requests, later, moved, ?_, exhausted fitReplies⟩
    rw [out]
    exact served

end Calm

/-! ## All connections -/

/-- What the connections of some ids cost together. -/
def total (links : String → Option Link) : List String → Nat
  | [] => 0
  | id :: ids => ((links id).map cost).getD 0 + total links ids

section Runs

variable {om : ObjectMapper} {stack : Nat} {actions later : List Action} {system next final : System}
  {links : String → Option Link} {id : String} {link : Link} {ids : List String}

private theorem total_same {others : String → Option Link} (same : ∀ id ∈ ids, others id = links id) :
    total others ids = total links ids := by
  induction ids with
  | nil => rfl
  | cons id ids ih =>
    rw [total, total, same id List.mem_cons_self, ih fun other member => same other (List.mem_cons_of_mem _ member)]

private theorem total_less {before after : Link} (once : ids.Nodup) (member : id ∈ ids)
    (linked : links id = some before) (less : cost after < cost before) :
    total (Function.update links id (some after)) ids < total links ids := by
  induction ids with
  | nil => cases member
  | cons other ids ih =>
    obtain ⟨absent, once⟩ := List.nodup_cons.mp once
    rw [total, total]
    by_cases same : other = id
    · subst same
      have rest : total (Function.update links other (some after)) ids = total links ids := by
        apply total_same
        intro later listed
        have different : later ≠ other := fun same => absent (same ▸ listed)
        exact Function.update_of_ne different ..
      rw [rest]
      simp only [Function.update_self, linked, Option.map_some, Option.getD_some]
      omega
    · have rest := ih once ((List.mem_cons.mp member).resolve_left (Ne.symm same))
      simp only [Function.update_of_ne same]
      omega

private theorem flight_of_run (ran : exec (step om stack) start actions = some system)
    (linked : system.links id = some link) : ∃ requests replies, InFlight link requests replies := by
  refine link_invariant id (fun _ link => ∃ requests replies, InFlight link requests replies)
    ⟨[], [], inFlight_new id⟩ ?_ ran linked
  rintro sent before action after calls calls' ⟨requests, replies, flight⟩ ran
  cases action with
  | send message =>
    cases ran
    exact ⟨_, _, inFlight_send flight message⟩
  | fire task =>
    obtain ⟨-, rfl⟩ := fire_cases ran
    exact ⟨_, _, inFlight_fire flight task⟩
  | serverRead count =>
    obtain ⟨_, _, _, moved, _⟩ := inFlight_serverRead flight count ran
    exact ⟨_, _, moved⟩
  | clientRead count =>
    obtain ⟨_, _, _, moved, _⟩ := inFlight_clientRead flight count ran
    exact ⟨_, _, moved⟩

/-- How a system came about, and which ids are connected in it. -/
private def Connected (om : ObjectMapper) (stack : Nat) (ids : List String) (system : System) : Prop :=
  (∃ actions, exec (step om stack) start actions = some system) ∧
    ∀ id, (system.links id).isSome → id ∈ ids

private theorem settles_step (once : ids.Nodup) (connected : Connected om stack ids system) {action : Action}
    (internal : Internal action) (stepped : step om stack system action = some next) :
    Connected om stack ids next ∧ total next.links ids < total system.links ids := by
  obtain ⟨⟨actions, ran⟩, listed⟩ := connected
  have reached : ∃ actions, exec (step om stack) start actions = some next :=
    ⟨actions ++ [action], by rw [exec_snoc, ran, Option.bind_some, stepped]⟩
  cases action with
  | connect id => exact internal.elim
  | on id linkAction =>
    have silent : ∀ message, linkAction ≠ .send message := by
      rintro message rfl
      exact internal
    simp only [step] at stepped
    obtain ⟨before, linked, stepped⟩ := Option.bind_eq_some_iff.mp stepped
    obtain ⟨⟨after, calls⟩, moved, rfl⟩ := Option.map_eq_some_iff.mp stepped
    obtain ⟨requests, replies, flight⟩ := flight_of_run ran linked
    have member : id ∈ ids := listed id (by simp [linked])
    refine ⟨⟨reached, ?_⟩, total_less once member linked (cost_step flight silent moved)⟩
    intro other some
    by_cases same : other = id
    · rwa [same]
    · exact listed other (by simpa [Function.update_of_ne same] using some)

private theorem exists_connected (ran : exec (step om stack) start actions = some system) :
    ∃ ids : List String, ids.Nodup ∧ Connected om stack ids system := by
  have listed : ∃ ids : List String, ids.Nodup ∧ ∀ id, (system.links id).isSome → id ∈ ids := by
    refine exec_invariant
      (fun system : System => ∃ ids : List String, ids.Nodup ∧ ∀ id, (system.links id).isSome → id ∈ ids)
      ⟨[], List.nodup_nil, fun id some => by simp [start] at some⟩ ?_ ran
    rintro system action next ⟨ids, once, listed⟩ stepped
    have either : ∃ added : String, ∀ id, (next.links id).isSome → id = added ∨ (system.links id).isSome := by
      cases action with
      | connect added =>
        refine ⟨added, fun id some => ?_⟩
        rcases step_cases id stepped with ⟨same, -⟩ | ⟨_, _, _, _, same, -⟩ | ⟨-, same⟩
        · cases same
          exact Or.inl rfl
        · cases same
        · exact Or.inr (same ▸ some)
      | on added linkAction =>
        refine ⟨added, fun id some => ?_⟩
        rcases step_cases id stepped with ⟨same, -⟩ | ⟨_, _, _, _, same, -⟩ | ⟨-, same⟩
        · cases same
        · cases same
          exact Or.inl rfl
        · exact Or.inr (same ▸ some)
    obtain ⟨added, either⟩ := either
    by_cases known : added ∈ ids
    · refine ⟨ids, once, fun id some => ?_⟩
      rcases either id some with rfl | before
      · exact known
      · exact listed id before
    · refine ⟨added :: ids, List.nodup_cons.mpr ⟨known, once⟩, fun id some => ?_⟩
      rcases either id some with rfl | before
      · exact List.mem_cons_self
      · exact List.mem_cons_of_mem _ (listed id before)
  obtain ⟨ids, once, listed⟩ := listed
  exact ⟨ids, once, ⟨actions, ran⟩, listed⟩

/-- From wherever a run has come to, the steps that are left when nobody connects
or sends come to an end, in whatever order they are taken. -/
theorem comes_to_rest (ran : exec (step om stack) start actions = some system) :
    ∃ bound, ∀ later final, (∀ action ∈ later, Internal action) →
      exec (step om stack) system later = some final → later.length ≤ bound := by
  obtain ⟨ids, once, connected⟩ := exists_connected ran
  refine ⟨total system.links ids, fun later final internal rested => ?_⟩
  exact exec_bounded (Connected om stack ids) (fun system => total system.links ids) Internal connected
    (fun s action next connected internal stepped => settles_step once connected internal stepped)
    internal rested

/-- A client that sends one message without a header. -/
private def asking : List Action := [.connect "a", .on "a" (.send { header := none, body := none })]

private def settling : List Action := [.on "a" (.serverRead 50), .on "a" (.clientRead 50)]

theorem asking_comes_to_rest : ∃ system, exec (step msgpack 100) start asking = some system ∧
    ∃ bound, ∀ later final, (∀ action ∈ later, Internal action) →
      exec (step msgpack 100) system later = some final → later.length ≤ bound := by
  have ran : exec (step msgpack 100) start asking = some _ := rfl
  exact ⟨_, ran, comes_to_rest ran⟩

private theorem sentBy_internal (internal : ∀ action ∈ later, Internal action) (id : String) :
    sentBy id later = [] := by
  rw [sentBy, List.flatMap_eq_nil_iff]
  intro action member
  have inner := internal action member
  cases action with
  | connect other => rfl
  | on other linkAction =>
    cases linkAction with
    | send message => exact inner.elim
    | fire task | serverRead count | clientRead count => simp [Action.sentBy, LinkAction.sent]

private theorem nothing_in_flight (linked : system.links id = some link)
    (rests : ∀ action, Internal action → step om stack system action = none) :
    link.client.channel.out = [] ∧ link.server.channel.out = [] := by
  constructor
  · have refused := rests (.on id (.serverRead 1)) trivial
    simpa [step, linked, linkStep, takeOut] using refused
  · have refused := rests (.on id (.clientRead 1)) trivial
    simpa [step, linked, linkStep, takeOut] using refused

/-- Where the system has come to rest, a client whose frames were never too long
for the other end has been given all that its messages are worth. -/
theorem answered_at_rest (lawful : Lawful om) (ran : exec (step om stack) start actions = some system)
    (internal : ∀ action ∈ later, Internal action) (rested : exec (step om stack) system later = some final)
    (rests : ∀ action, Internal action → step om stack final action = none)
    (linked : final.links id = some link)
    (whole : ∀ message ∈ sentBy id actions, Whole message ∧ Whole (replyTo message)) :
    handed .messageBusinessHandler link.client.trace = (sentBy id actions).flatMap answer := by
  have whole_run : exec (step om stack) start (actions ++ later) = some final := by
    rw [exec_append, ran, Option.bind_some, rested]
  have sent : sentBy id (actions ++ later) = sentBy id actions := by
    rw [sentBy, List.flatMap_append]
    exact (congrArg (sentBy id actions ++ ·) (sentBy_internal internal id)).trans (List.append_nil _)
  have calm : Calm om (sentBy id (actions ++ later)) link ∧ Balanced om (sentBy id (actions ++ later)) link :=
    link_invariant id (fun sent link => Calm om sent link ∧ Balanced om sent link)
      ⟨calm_new id, balanced_new om id⟩
      (fun sent before action after calls calls' holds ran =>
        ⟨calm_step lawful action holds.1 ran, balanced_step lawful action holds.2 ran⟩) whole_run linked
  rw [sent] at calm
  obtain ⟨clientOut, serverOut⟩ := nothing_in_flight linked rests
  obtain ⟨requests, replies, flight, served, returned⟩ := calm.1.settled whole
  obtain ⟨_, _, known, balance⟩ := calm.2
  rw [← inFlight_eq frameParams_plain known.toServer, ← inFlight_eq frameParams_plain known.toClient,
    inFlight_eq frameParams_plain flight.toServer, inFlight_eq frameParams_plain flight.toClient,
    served clientOut, returned serverOut] at balance
  rw [← balance]
  simp [forReplies, forRequests, passedOn, readable, replyPayloads]

theorem asking_answered_at_rest : ∃ system final link, exec (step msgpack 100) start asking = some system ∧
    exec (step msgpack 100) system settling = some final ∧ final.links "a" = some link ∧
    handed .messageBusinessHandler link.client.trace = (sentBy "a" asking).flatMap answer := by
  refine ⟨_, _, _, rfl, rfl, rfl, ?_⟩
  refine @answered_at_rest _ _ asking settling _ _ _ _ msgpack_lawful rfl ?_ rfl ?_ rfl ?_
  · intro action member
    rcases List.mem_cons.mp member with rfl | member
    · trivial
    · rw [List.mem_singleton.mp member]
      trivial
  · intro action internal
    cases action with
    | connect id => exact internal.elim
    | on id linkAction =>
      by_cases same : id = "a"
      · subst same
        cases linkAction with
        | send message => exact internal.elim
        | fire task => rfl
        | serverRead count => cases count <;> rfl
        | clientRead count => cases count <;> rfl
      · simp [step, start, same]
  · intro message member
    rw [List.mem_singleton.mp member]
    exact ⟨Or.inl (by decide), Or.inl (by decide)⟩

end Runs

end Tomas.Settling
