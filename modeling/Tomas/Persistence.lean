import Tomas.ConnectionLimit

/-! When the `WebSocket` component has given up. Any number of its sockets may be
open at once and their events arrive in any order, yet once all are closed a timer
is pending that will connect again, unless the limit has been reached and there is
no delayed attempt. -/
namespace Tomas.Persistence
open Tomas.Methods Tomas.Runs Tomas.WebSocketComponent Tomas.ConnectionLimit

/-- A component that believes to be connected has a socket that is not closed,
and one without such a socket has a timer or has given up. -/
structure Persists (props : Props) (component : Component) : Prop where
  live : component.connected = true → ¬ AllClosed component
  waits : AllClosed component → component.pending = [] →
    props.isDelayConnect = false ∧ props.limitCnt ≤ component.connectCnt

section Steps

variable {props : Props} {component next : Component} {index : Nat} {socket : Socket} {event : Event}

private theorem persists_live (live : ¬ AllClosed component) : Persists props component :=
  ⟨fun _ => live, fun closed => absurd closed live⟩

private theorem live_of_found (found : component.sockets[index]? = some socket)
    (live : socket.readyState ≠ .closed) : ¬ AllClosed component :=
  fun closed => live (closed socket (List.mem_of_getElem? found))

private theorem live_update {client : Nat} {change : Socket → Socket}
    (found : component.sockets[index]? = some socket) (live : socket.readyState ≠ .closed)
    (keeps : (change socket).readyState ≠ .closed) : ¬ AllClosed (component.update client change) := by
  by_cases same : client = index
  · subst same
    have changed : (component.update client change).sockets[client]? = some (change socket) := by
      simp [Component.update, found]
    exact live_of_found changed keeps
  · have kept : (component.update client change).sockets[index]? = some socket := by
      simp [Component.update, same, found]
    exact live_of_found kept live

/-- The callback for `CONNECTED` closes no socket. -/
private theorem live_connectCallback (wired : Wired component)
    (found : component.sockets[index]? = some socket) (live : socket.readyState ≠ .closed) :
    ¬ AllClosed (call connectCallback component) := by
  have before := live_of_found found live
  cases current : component.stompClient with
  | none =>
    have none := wired.created current
    simp [none] at found
  | some client =>
    obtain ⟨own, known⟩ := wired_known wired current
    rw [connectCallback_eq current known]
    cases own.readyState with
    | opened => exact live_update found live live
    | connecting => exact before
    | closing => exact before
    | closed => exact before

/-- A connection that fails is tried again, or the limit has been reached. -/
private theorem persists_errorCallback : Persists props (call (errorCallback props) component) := by
  obtain ⟨-, -, connected, connectCnt, -⟩ := @errorCallback_frame props component
  constructor
  · intro still
    rw [connected] at still
    cases still
  · intro _ none
    by_contra more
    have again : (component.connectCnt + 1 : Nat) < props.limitCnt ∨ props.isDelayConnect = true := by
      by_contra neither
      rw [not_or] at neither
      exact more ⟨by simpa using neither.2, by rw [connectCnt]; exact Int.not_lt.mp neither.1⟩
    have armed := errorCallback_rearms again
    rw [none] at armed
    cases armed

private theorem live_connection : ¬ AllClosed (call connection component) := by
  intro closed
  have new := closed {} (List.mem_append_right component.sockets (List.mem_singleton_self _))
  cases new

private theorem persists_step (wired : Wired component) (persists : Persists props component)
    (stepped : step props component event = some next) : Persists props next := by
  cases event with
  | opened index =>
    obtain ⟨socket, found, able, rfl⟩ := onSocket_cases stepped
    have connecting := beq_iff_eq.mp able
    exact persists_live (live_update found (by simp [connecting]) (by simp))
  | connectedFrame index =>
    obtain ⟨socket, found, able, rfl⟩ := onSocket_cases stepped
    have opened := beq_iff_eq.mp able
    exact persists_live (live_connectCallback wired found (by simp [opened]))
  | errorFrame index =>
    obtain ⟨socket, -, -, rfl⟩ := onSocket_cases stepped
    exact persists_errorCallback
  | message index =>
    obtain ⟨socket, found, able, rfl⟩ := onSocket_cases stepped
    have opened := beq_iff_eq.mp (Bool.and_eq_true_iff.mp able).1
    have live : ¬ AllClosed component := live_of_found found (by simp [opened])
    exact persists_live live
  | lost index =>
    obtain ⟨socket, found, able, rfl⟩ := onSocket_cases stepped
    have live : socket.readyState = .connecting ∨ socket.readyState = .opened := by simpa using able
    exact persists_live (live_update found (by rcases live with same | same <;> simp [same]) (by simp))
  | closed index =>
    obtain ⟨socket, found, able, rfl⟩ := onSocket_cases stepped
    dsimp only
    rw [if_pos (wired.attached socket (List.mem_of_getElem? found))]
    exact persists_errorCallback
  | fire timer =>
    obtain ⟨-, rfl⟩ := fire_cases stepped
    rw [timeout_eq]
    split
    · rename_i connected
      exact persists_live (persists.live connected)
    · exact persists_live live_connection

end Steps

section Runs

variable {props : Props} {component : Component} {events : List Event}

/-- In every run, once all sockets are closed, the component has either given up
for good, which it does at the limit and never with a delayed attempt, or each of
its pending timers will connect again. -/
theorem keeps_trying (ran : exec (step props) (mounted true) events = some component)
    (closed : AllClosed component) :
    (component.pending = [] → props.isDelayConnect = false ∧ props.limitCnt ≤ component.connectCnt) ∧
    ∀ timer ∈ component.pending, ∃ next, step props component (.fire timer) = some next ∧
      attempts next = attempts component + 1 := by
  have both : Wired component ∧ Persists props component := by
    refine exec_invariant (fun component => Wired component ∧ Persists props component) ?_ ?_ ran
    · have start : exec (step props) (mounted true) [] = some (mounted true) := rfl
      exact ⟨(wired_timed start).1, persists_live live_connection⟩
    · rintro component event next ⟨wired, persists⟩ stepped
      exact ⟨wired_step wired stepped, persists_step wired persists stepped⟩
  refine ⟨both.2.waits closed, ?_⟩
  intro timer due
  have lost : component.connected = false := by
    by_contra connected
    exact both.2.live (by simpa using connected) closed
  refine ⟨_, if_pos due, ?_⟩
  rw [timeout_eq, if_neg (by simp [lost])]
  exact List.count_append.trans (by simp [attempts])

/-- The first socket opens and fails twice while a second one comes and goes. -/
theorem keeps_trying_twice : ∃ component,
    exec (step {}) (mounted true) [.opened 0, .errorFrame 0, .fire 0, .lost 0, .closed 0, .lost 1,
      .closed 1] = some component ∧
    ((component.pending = [] → ({} : Props).isDelayConnect = false ∧ ({} : Props).limitCnt ≤ component.connectCnt) ∧
      ∀ timer ∈ component.pending, ∃ next, step {} component (.fire timer) = some next ∧
        attempts next = attempts component + 1) := by
  have ran : exec (step {}) (mounted true) [.opened 0, .errorFrame 0, .fire 0, .lost 0, .closed 0, .lost 1,
    .closed 1] = some _ := rfl
  exact ⟨_, ran, keeps_trying ran (by decide)⟩

end Runs

end Tomas.Persistence
