import Tomas.WebSocketComponent

/-! What is left of the `WebSocket` component after `beforeDestroy`. The cleanup
closes the current socket and clears both timers, unless the first of its steps
throws; sockets that have been replaced keep their callbacks. -/
namespace Tomas.ComponentTeardown
open Tomas.Runs Tomas.WebSocketComponent

/-- Whatever happens from here on, there is no connection, no subscription and
nothing emitted. -/
def Silent (props : Props) (component : Component) : Prop :=
  ∀ continuation final, exec (step props) component continuation = some final →
    final.trace = component.trace

/-- The current socket is past connecting and every other is closed, or closing
where one more failure sets no timer. -/
structure Settled (props : Props) (component : Component) : Prop where
  current : ∀ client socket, component.stompClient = some client →
    component.sockets[client]? = some socket → socket.readyState ≠ .connecting
  others : ∀ index socket, component.sockets[index]? = some socket →
    component.stompClient ≠ some index → socket.readyState = .closed ∨
      (socket.readyState = .closing ∧ props.limitCnt ≤ 1 ∧ props.isDelayConnect = false)

/-! ## What comes after it -/

section Continuations

variable {props : Props} {component next : Component} {event : Event} {index client : Nat} {socket : Socket}

/-- No timer is pending, and no socket will do more than close without setting one. -/
structure Retired (props : Props) (component : Component) : Prop where
  pending : component.pending = []
  sockets : ∀ socket ∈ component.sockets, socket.readyState = .closed ∨
    (socket.readyState = .closing ∧
      (socket.onclose = false ∨ (props.limitCnt ≤ 1 ∧ props.isDelayConnect = false)))

private theorem retired_step (retired : Retired props component)
    (stepped : step props component event = some next) :
    Retired props next ∧ next.trace = component.trace := by
  obtain ⟨none, quiet⟩ := retired
  have finished : ∀ (index : Nat) (socket : Socket), component.sockets[index]? = some socket →
      socket.readyState ≠ .connecting ∧ socket.readyState ≠ .opened := by
    intro index socket found
    rcases quiet socket (List.mem_of_getElem? found) with closed | ⟨closing, -⟩
    · simp [closed]
    · simp [closing]
  cases event with
  | opened index | connectedFrame index | errorFrame index | message index | lost index =>
    rw [step, onSocket_none] at stepped
    · cases stepped
    · intro socket found
      simp [finished index socket found]
  | fire timer =>
    obtain ⟨due, -⟩ := fire_cases stepped
    rw [none] at due
    cases due
  | closed index =>
    obtain ⟨socket, found, closing, rfl⟩ := onSocket_cases stepped
    have closed : Retired props (component.update index (Socket.become .closed)) := by
      refine ⟨none, ?_⟩
      intro other member
      obtain ⟨place, before, there, rfl⟩ := mem_modify member
      split
      · exact Or.inl rfl
      · exact quiet before (List.mem_of_getElem? there)
    dsimp only
    split
    · -- its callback still runs, and sets no timer
      rename_i listens
      rcases quiet socket (List.mem_of_getElem? found) with shut | ⟨-, silenced | ⟨few, plain⟩⟩
      · simp [shut] at closing
      · rw [listens] at silenced
        cases silenced
      · have enough : ¬ ((component.update index (Socket.become .closed)).connectCnt + 1 : Nat) <
            props.limitCnt := by omega
        have rearmed := @errorCallback_eq props (component.update index (Socket.become .closed))
        rw [if_neg enough, plain, if_neg Bool.false_ne_true] at rearmed
        rw [rearmed]
        refine ⟨⟨?_, closed.sockets⟩, rfl⟩
        simp [closed.pending]
    · exact ⟨closed, rfl⟩

theorem retired_silent (retired : Retired props component) : Silent props component := by
  intro continuation final ran
  refine (exec_history (fun _ later => Retired props later ∧ later.trace = component.trace)
    (fun _ => True) ⟨retired, rfl⟩ ?_ (fun _ _ => trivial) ran).2
  rintro before later event next ⟨quiet, same⟩ - stepped
  obtain ⟨stays, silent⟩ := retired_step quiet stepped
  exact ⟨stays, silent.trans same⟩

private theorem connectedFrame_speaks (current : component.stompClient = some client)
    (inside : client < component.sockets.length) (found : component.sockets[index]? = some socket)
    (opened : socket.readyState = .opened) :
    ∃ next, step props component (.connectedFrame index) = some next ∧
      next.trace = component.trace ++ [.subscribe] := by
  refine ⟨call connectCallback component, by simp [step, onSocket, found, opened], ?_⟩
  rw [connectCallback_eq current (List.getElem?_eq_getElem inside)]
  cases component.sockets[client].readyState <;> rfl

/-- A socket that still opens makes the component subscribe. -/
private theorem not_silent_of_opening (current : component.stompClient = some client)
    (inside : client < component.sockets.length) (found : component.sockets[index]? = some socket)
    (opening : socket.readyState = .connecting ∨ socket.readyState = .opened) :
    ¬ Silent props component := by
  intro silent
  rcases opening with connecting | opened
  · have ready : step props component (.opened index) =
        some (component.update index (Socket.become .opened)) := by
      simp [step, onSocket, found, connecting]
    have here : (component.update index (Socket.become .opened)).sockets[index]? =
        some (socket.become .opened) := by
      simp [Component.update, found]
    have still : client < (component.update index (Socket.become .opened)).sockets.length := by
      simpa [Component.update] using inside
    obtain ⟨next, stepped, speaks⟩ := @connectedFrame_speaks props
      (component.update index (Socket.become .opened)) index client _ current still here rfl
    have same := silent [.opened index, .connectedFrame index] next (by
      rw [exec_cons, ready, Option.bind_some, exec_cons, stepped]
      rfl)
    rw [speaks] at same
    simp [Component.update] at same
  · obtain ⟨next, stepped, speaks⟩ :=
      @connectedFrame_speaks props component index client socket current inside found opened
    have same := silent [.connectedFrame index] next (by
      rw [exec_cons, stepped]
      rfl)
    rw [speaks] at same
    simp at same

private theorem fire_speaks {timer : Nat} (due : timer ∈ component.pending)
    (lost : component.connected = false) :
    ∃ next, step props component (.fire timer) = some next ∧
      next.trace = component.trace ++ [.connection] := by
  refine ⟨_, if_pos due, ?_⟩
  rw [timeout_eq, lost]
  rfl

/-- A socket that still closes makes the component connect again. -/
private theorem not_silent_of_closing (found : component.sockets[index]? = some socket)
    (closing : socket.readyState = .closing) (listens : socket.onclose = true)
    (rearms : 1 < props.limitCnt ∨ props.isDelayConnect = true) (reset : component.connectCnt = 0) :
    ¬ Silent props component := by
  intro silent
  have failed : step props component (.closed index) =
      some (call (errorCallback props) (component.update index (Socket.become .closed))) := by
    simp [step, onSocket, found, closing, listens]
  obtain ⟨-, -, lost, -, quiet⟩ :=
    @errorCallback_frame props (component.update index (Socket.become .closed))
  have due : component.nextTimer ∈
      (call (errorCallback props) (component.update index (Socket.become .closed))).pending := by
    have armed := @errorCallback_rearms props (component.update index (Socket.become .closed))
    apply armed
    simpa [Component.update, reset] using rearms
  obtain ⟨next, stepped, speaks⟩ := @fire_speaks props _ _ due lost
  have same := silent [.closed index, .fire component.nextTimer] next (by
    rw [exec_cons, failed, Option.bind_some, exec_cons, stepped]
    rfl)
  rw [speaks, quiet] at same
  simp [Component.update] at same

end Continuations

section Teardown

variable {props : Props} {component : Component} {supported : Bool} {events : List Event}

private theorem disconnected_over {socket : Socket} (past : socket.readyState ≠ .connecting) :
    socket.disconnected.readyState = .closed ∨
      (socket.disconnected.readyState = .closing ∧ socket.disconnected.onclose = false) := by
  obtain ⟨readyState, onclose, subscriptions⟩ := socket
  cases readyState with
  | connecting => exact absurd rfl past
  | opened => exact Or.inr ⟨rfl, rfl⟩
  | closing => exact Or.inr ⟨rfl, rfl⟩
  | closed => exact Or.inl rfl

private theorem settled_retired (timed : Timed component) (settled : Settled props component)
    {client : Nat} {socket : Socket} (current : component.stompClient = some client)
    (found : component.sockets[client]? = some socket) :
    Retired props (call beforeDestroy component) := by
  have past := settled.current client socket current found
  rw [beforeDestroy_eq current found, if_neg past]
  refine ⟨timed_cleared timed, ?_⟩
  intro other member
  obtain ⟨place, before, there, rfl⟩ := mem_modify member
  by_cases same : client = place
  · subst same
    rw [found] at there
    cases there
    rw [if_pos rfl]
    rcases disconnected_over past with closed | ⟨closing, silenced⟩
    · exact Or.inl closed
    · exact Or.inr ⟨closing, Or.inl silenced⟩
  · rw [if_neg same]
    have replaced : component.stompClient ≠ some place := by
      rw [current]
      simpa using same
    rcases settled.others place before there replaced with closed | ⟨closing, harmless⟩
    · exact Or.inl closed
    · exact Or.inr ⟨closing, Or.inr harmless⟩

private theorem silent_settled (wired : Wired component) {client : Nat} {socket : Socket}
    (current : component.stompClient = some client) (found : component.sockets[client]? = some socket)
    (silent : Silent props (call beforeDestroy component)) : Settled props component := by
  have inside := wired_inside wired current
  rw [beforeDestroy_eq current found] at silent
  have past : socket.readyState ≠ .connecting := by
    intro connecting
    rw [if_pos connecting] at silent
    exact not_silent_of_opening current inside found (Or.inl connecting) silent
  rw [if_neg past] at silent
  constructor
  · intro other latest same known
    rw [current] at same
    cases same
    rw [found] at known
    cases known
    exact past
  · intro index earlier known replaced
    have apart : client ≠ index := by
      rintro rfl
      exact replaced current
    have there : (component.update client Socket.disconnected).sockets[index]? = some earlier := by
      simp [Component.update, apart, known]
    have still : client < (component.update client Socket.disconnected).sockets.length := by
      simpa [Component.update] using inside
    cases state : earlier.readyState with
    | connecting => exact absurd silent (not_silent_of_opening current still there (Or.inl state))
    | opened => exact absurd silent (not_silent_of_opening current still there (Or.inr state))
    | closed => exact Or.inl rfl
    | closing =>
      refine Or.inr ⟨rfl, ?_⟩
      by_contra rearms
      have listens := wired.attached earlier (List.mem_of_getElem? known)
      refine absurd silent (not_silent_of_closing there state listens ?_ rfl)
      by_cases few : props.limitCnt ≤ 1
      · apply Or.inr
        by_contra plain
        exact rearms ⟨few, by simpa using plain⟩
      · exact Or.inl (by omega)

/-- Nothing survives `beforeDestroy` exactly when the current socket is past
connecting and the sockets before it can no longer open or set a timer. -/
theorem silent_iff_settled (ran : exec (step props) (mounted supported) events = some component) :
    Silent props (call beforeDestroy component) ↔ Settled props component := by
  obtain ⟨wired, timed⟩ := wired_timed ran
  cases current : component.stompClient with
  | none =>
    have none := wired.created current
    apply iff_of_true
    · apply retired_silent
      rw [beforeDestroy_unconnected current]
      refine ⟨timed_cleared timed, ?_⟩
      intro socket member
      rw [none] at member
      cases member
    · constructor
      · intro client socket same
        rw [current] at same
        cases same
      · intro index socket found
        rw [none] at found
        cases found
  | some client =>
    obtain ⟨socket, found⟩ := wired_known wired current
    constructor
    · exact silent_settled wired current found
    · intro settled
      exact retired_silent (settled_retired timed settled current found)

/-- A page that is left while connected. -/
theorem silent_iff_settled_connected :
    ∃ component, exec (step {}) (mounted true) [.opened 0, .connectedFrame 0] = some component ∧
      (Silent {} (call beforeDestroy component) ↔ Settled {} component) :=
  ⟨_, rfl, @silent_iff_settled {} _ true [.opened 0, .connectedFrame 0] rfl⟩

/-- A page that is left before its first socket has opened subscribes afterwards. -/
theorem destroyed_while_connecting :
    ∃ component final, exec (step {}) (mounted true) [] = some component ∧
      exec (step {}) (call beforeDestroy component) [.opened 0, .connectedFrame 0, .message 0] =
        some final ∧
      final.trace = component.trace ++ [.subscribe, .emit] ∧
      ¬ Silent {} (call beforeDestroy component) := by
  refine ⟨mounted true, _, rfl, rfl, rfl, ?_⟩
  intro silent
  have same := silent [.opened 0, .connectedFrame 0, .message 0] _ rfl
  revert same
  decide

end Teardown

end Tomas.ComponentTeardown
