import Tomas.ClientPipeline
import Tomas.Runs

/-! The heartbeat timer of one client connection. Authentication replies,
exceptions and firings may come in any order; as long as no run of the task
throws, the executor holds the task of the `heartBeat` field and no other. The
message a run sends comes from `MessageUtil`, whose outcome is left open here. -/
namespace Tomas.HeartbeatTimer
open Tomas.Framing Tomas.Pipeline Tomas.Protocol Tomas.Jackson Tomas.Codec
open Tomas.Delivery Tomas.ClientPipeline Tomas.Runs

/-- What happens on the connection, one thing at a time. A firing comes with
what `MessageUtil.getProtocolMessage` gives the task. -/
inductive Happening where
  | read (message : Message)
  | exception (cause : Throwable)
  | fire (task : Nat) (made : Except Throwable (ProtocolMessage String))

/-- `HeartBeatTask.run`, given the message or throwable of its first line. -/
def HeartBeatTask.runWith (made : Except Throwable (ProtocolMessage String)) (ctx : ClientContext) :
    ClientCallback Unit := do
  match made with
  | .error cause => throw cause
  | .ok msg => sendMessage ctx msg.raw

theorem run_eq_runWith (stack : Nat) (ctx : ClientContext) :
    HeartBeatTask.run stack ctx =
      HeartBeatTask.runWith (getProtocolMessageNoBody stack .heartBeatReq .request) ctx := rfl

/-- The executor keeps the task unless its run throws. -/
def fire (om : ObjectMapper) (task : Nat) (made : Except Throwable (ProtocolMessage String))
    (machine : ClientMachine) : ClientMachine :=
  match HeartBeatTask.runWith made (heartBeatContext om) machine with
  | (.ok (), machine) => machine
  | (.error _, machine) =>
    machine.withChannel { machine.channel with own := machine.channel.own.drop task }

theorem fireTask_eq_fire (om : ObjectMapper) (stack task : Nat) (machine : ClientMachine) :
    fireTask om stack task machine =
      fire om task (getProtocolMessageNoBody stack .heartBeatReq .request) machine := rfl

/-- Messages and exceptions arrive at `HeartBeatReqHandler`; a task fires while
the executor has it. -/
def step (om : ObjectMapper) (machine : ClientMachine) : Happening → Option ClientMachine
  | .read message => some ((afterCodecs om clientHandlers).read (.message message) machine)
  | .exception cause => some (throwAt socket (clientPipeline om) 4 cause machine)
  | .fire task made =>
    if task ∈ machine.channel.own.scheduled then some (fire om task made machine) else none

/-- If a task runs, its run returns normally. -/
def Returns (om : ObjectMapper) (machine : ClientMachine) : Happening → Prop
  | .fire _ made => (HeartBeatTask.runWith made (heartBeatContext om) machine).1 = .ok ()
  | .read _ | .exception _ => True

def Authenticates : Happening → Prop
  | .read message => hasType message .authChannelRes = true
  | .exception _ | .fire _ _ => False

def IsException : Happening → Prop
  | .exception _ => True
  | .read _ | .fire _ _ => False

/-- A message for the handler behind. -/
def Foreign (message : Message) : Prop :=
  hasType message .authChannelRes = false ∧ hasType message .heartBeatRes = false

/-! ## The timer -/

section Timer

variable {timer : Timer}

/-- The executor has the task of the field and no other. -/
def Tracks (timer : Timer) : Prop := timer.scheduled = timer.heartBeat.toList

theorem tracks_authenticated (tracks : Tracks timer) :
    Tracks timer.authenticated ∧ timer.authenticated.heartBeat.isSome = true := by
  cases field : timer.heartBeat with
  | none =>
    have empty : timer.scheduled = [] := by rw [tracks, field, Option.toList_none]
    simp [Timer.authenticated, field, Tracks, Timer.scheduleAtFixedRate, empty]
  | some task =>
    simp only [Timer.authenticated, field]
    exact ⟨tracks, by rw [Option.isSome_some]⟩

theorem tracks_cancelled (tracks : Tracks timer) :
    Tracks timer.cancelled ∧ timer.cancelled.heartBeat = none := by
  cases field : timer.heartBeat with
  | none =>
    simp only [Timer.cancelled, field]
    exact ⟨tracks, trivial⟩
  | some task =>
    have only : timer.scheduled = [task] := by rw [tracks, field, Option.toList_some]
    simp [Timer.cancelled, field, Tracks, Timer.drop, only]

end Timer

/-! ## One step -/

section Steps

variable {om : ObjectMapper} {machine next : ClientMachine} {happening : Happening}

private theorem read_timer (message : Message) :
    ((afterCodecs om clientHandlers).read (.message message) machine).channel.own =
      if hasType message .authChannelRes then machine.channel.own.authenticated
      else machine.channel.own := by
  rw [afterCodecs_client, Machine.act_channel, clientEffect]
  split
  · rfl
  · split <;> rfl

private theorem exception_timer (cause : Throwable) :
    (throwAt socket (clientPipeline om) 4 cause machine).channel.own =
      machine.channel.own.cancelled := rfl

private theorem written_own (channel : ClientChannel) (frame : Except Throwable Bytes) :
    (channel.written frame).2.own = channel.own := by
  cases frame with
  | error cause => rfl
  | ok bytes =>
    simp only [Channel.written]
    split <;> rfl

/-- A run that returns has sent a message, and left the timer as it was. -/
private theorem fire_timer {task : Nat} {made : Except Throwable (ProtocolMessage String)}
    (returns : Returns om machine (.fire task made)) :
    (fire om task made machine).channel.own = machine.channel.own := by
  cases made with
  | error cause => cases returns
  | ok msg =>
    have sent : fire om task (.ok msg) machine = clientSend om msg machine := rfl
    rw [sent, clientSend_eq, Machine.log_channel, Machine.withChannel_channel]
    exact written_own _ _

/-- What a step makes of the timer. -/
private theorem step_timer (returns : Returns om machine happening)
    (stepped : step om machine happening = some next) :
    (Authenticates happening ∧ ¬ IsException happening ∧
        next.channel.own = machine.channel.own.authenticated) ∨
      (IsException happening ∧ ¬ Authenticates happening ∧
        next.channel.own = machine.channel.own.cancelled) ∨
      (¬ IsException happening ∧ ¬ Authenticates happening ∧ next.channel.own = machine.channel.own) := by
  cases happening with
  | read message =>
    cases stepped
    rw [read_timer]
    by_cases auth : hasType message .authChannelRes = true
    · exact Or.inl ⟨auth, id, if_pos auth⟩
    · exact Or.inr (Or.inr ⟨id, auth, if_neg auth⟩)
  | exception cause =>
    cases stepped
    exact Or.inr (Or.inl ⟨trivial, id, exception_timer cause⟩)
  | fire task made =>
    simp only [step] at stepped
    split at stepped
    · cases stepped
      exact Or.inr (Or.inr ⟨id, id, fire_timer returns⟩)
    · cases stepped

private theorem tracks_step (returns : Returns om machine happening)
    (tracks : Tracks machine.channel.own) (stepped : step om machine happening = some next) :
    Tracks next.channel.own := by
  rcases step_timer returns stepped with ⟨-, -, after⟩ | ⟨-, -, after⟩ | ⟨-, -, after⟩
  · rw [after]
    exact (tracks_authenticated tracks).1
  · rw [after]
    exact (tracks_cancelled tracks).1
  · rw [after]
    exact tracks

/-- A message for the handler behind reaches it once and leaves the timer alone. -/
private theorem foreign_step {message : Message} (foreign : Foreign message)
    (stepped : step om machine (.read message) = some next) :
    handed .messageBusinessHandler next.trace =
        handed .messageBusinessHandler machine.trace ++ [message] ∧
      next.channel.own = machine.channel.own := by
  cases stepped
  constructor
  · rw [afterCodecs_client, Machine.act_trace, handed_append, handed_business, if_neg]
    simp [foreign.1, foreign.2]
  · rw [read_timer, foreign.1]
    rfl

end Steps

section Runs

variable {om : ObjectMapper} {machine final : ClientMachine} {happenings : List Happening}

/-- The timer at the end of a run, against the history of the connection. -/
structure OneTimer (happenings : List Happening) (timer : Timer) : Prop where
  tracks : Tracks timer
  runs : timer.heartBeat.isSome = true ↔ Since Authenticates IsException happenings

theorem oneTimer (fresh : machine.channel.own = {})
    (returns : EachStep (step om) machine happenings (Returns om))
    (ran : exec (step om) machine happenings = some final) :
    OneTimer happenings final.channel.own := by
  refine exec_lawful (fun before machine => OneTimer before machine.channel.own) ?_ ?_ returns ran
  · rw [fresh]
    exact ⟨rfl, iff_of_false Bool.false_ne_true not_since_nil⟩
  · intro before machine happening next earlier lawful stepped
    refine ⟨tracks_step lawful earlier.tracks stepped, ?_⟩
    rw [since_snoc]
    rcases step_timer lawful stepped with ⟨auth, -, after⟩ | ⟨ends, quiet, after⟩ | ⟨passes, quiet, after⟩
    · rw [after]
      exact iff_of_true (tracks_authenticated earlier.tracks).2 (Or.inl auth)
    · rw [after, (tracks_cancelled earlier.tracks).2]
      simp [quiet, ends]
    · rw [after, earlier.runs]
      simp [quiet, passes]

/-- However a connection has gone, as long as its tasks have returned normally:
one task is scheduled if the field is set and none otherwise, it is there exactly
after an `AUTH_CHANNEL_RES` with no exception since, and the next message of any
other type is forwarded once and leaves the timer alone. -/
theorem one_heartbeat_timer (fresh : machine.channel.own = {})
    (returns : EachStep (step om) machine happenings (Returns om))
    (ran : exec (step om) machine happenings = some final) :
    final.channel.own.scheduled.length = (if final.channel.own.heartBeat.isSome then 1 else 0) ∧
    (final.channel.own.scheduled.length = 1 ↔ Since Authenticates IsException happenings) ∧
    ∀ message, Foreign message → ∀ next, step om final (.read message) = some next →
      handed .messageBusinessHandler next.trace =
          handed .messageBusinessHandler final.trace ++ [message] ∧
        next.channel.own = final.channel.own := by
  have timer := oneTimer fresh returns ran
  have counted : final.channel.own.scheduled.length =
      if final.channel.own.heartBeat.isSome then 1 else 0 := by
    rw [timer.tracks]
    cases final.channel.own.heartBeat <;> rfl
  refine ⟨counted, ?_, fun message foreign next stepped => foreign_step foreign stepped⟩
  rw [counted, ← timer.runs]
  split
  · rename_i running
    exact iff_of_true rfl running
  · rename_i stopped
    exact iff_of_false Nat.zero_ne_one stopped

/-- Authenticated, a heartbeat sent, an exception, and authenticated again. -/
private def reauthenticated : List Happening :=
  let response := (getProtocolMessage none .authChannelRes .authSuccess).raw
  [.read response, .fire 0 (.ok (getProtocolMessage none .heartBeatReq .request)),
    .exception .ioException, .read response]

/-- The second task is the only one. -/
theorem one_heartbeat_timer_reauthenticated :
    ∃ final, exec (step msgpack) { channel := { id := "a", own := {} } } reauthenticated = some final ∧
      final.channel.own.heartBeat = some 1 ∧ final.channel.own.scheduled.length = 1 ∧
      Since Authenticates IsException reauthenticated := by
  obtain ⟨final, ran, field⟩ : ∃ final,
      exec (step msgpack) { channel := { id := "a", own := {} } } reauthenticated = some final ∧
        final.channel.own.heartBeat = some 1 := ⟨_, rfl, by decide +kernel⟩
  have returns : EachStep (step msgpack) { channel := { id := "a", own := {} } } reauthenticated
      (Returns msgpack) := by
    intro before happening isPrefix reached _
    have member : happening ∈ reauthenticated := isPrefix.subset (by simp)
    simp only [reauthenticated, List.mem_cons, List.not_mem_nil, or_false] at member
    rcases member with rfl | rfl | rfl | rfl
    · trivial
    · rfl
    · trivial
    · trivial
  obtain ⟨counted, since, -⟩ := one_heartbeat_timer rfl returns ran
  rw [field] at counted
  exact ⟨final, ran, field, counted, since.mp counted⟩

end Runs

end Tomas.HeartbeatTimer
