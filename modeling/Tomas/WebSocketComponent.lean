import Mathlib.Data.List.Basic
import Tomas.Methods
import Tomas.Runs

/-! The `WebSocket` component of the web pages, with the part of the vendored
webstomp and SockJS clients that its callbacks meet. A callback runs to its end
or to a throw before the next event. Every socket the component has opened stays
in the state, since its events can arrive long after it has been replaced. -/
namespace Tomas.WebSocketComponent
open Tomas.Methods Tomas.Runs

/-- The properties the component reads. -/
structure Props where
  limitCnt : Int := 3
  isDelayConnect : Bool := false
  deriving DecidableEq, Repr

inductive ReadyState where
  | connecting
  | opened
  | closing
  | closed
  deriving DecidableEq, Repr

/-- A socket with its stomp client: whether the client still listens for the
close event, and the `SUBSCRIBE` frames it has sent. -/
structure Socket where
  readyState : ReadyState := .connecting
  onclose : Bool := true
  subscriptions : Nat := 0
  deriving DecidableEq, Repr

/-- What the component has done that can be seen from outside. -/
inductive Action where
  | connection
  | subscribe
  | emit
  deriving DecidableEq, Repr

/-- The component's data, and the browser's sockets and pending timers. -/
structure Component where
  timer : Option Nat := none
  delayTimer : Option Nat := none
  connectCnt : Nat := 0
  stompClient : Option Nat := none
  connected : Bool := false
  sockets : List Socket := []
  pending : List Nat := []
  nextTimer : Nat := 0
  trace : List Action := []
  deriving DecidableEq, Repr

def Component.update (component : Component) (client : Nat) (change : Socket → Socket) : Component :=
  { component with sockets := component.sockets.modify client change }

def Socket.become (readyState : ReadyState) (socket : Socket) : Socket :=
  { socket with readyState := readyState }

@[simp] theorem Socket.become_readyState (readyState : ReadyState) (socket : Socket) :
    (socket.become readyState).readyState = readyState := rfl

/-- SockJS's `close`. The close event comes later. -/
def Socket.close (socket : Socket) : Socket :=
  match socket.readyState with
  | .closing | .closed => socket
  | .connecting | .opened => socket.become .closing

/-! ## The methods -/

abbrev Method := Body Component String

def record (action : Action) : Method Unit :=
  modify fun component => { component with trace := component.trace ++ [action] }

def clearTimeout (timer : Option Nat) : Method Unit :=
  modify fun component => { component with pending := component.pending.filter (some · ≠ timer) }

def setTimeout : Method Nat :=
  modifyGet fun component => (component.nextTimer,
    { component with pending := component.pending ++ [component.nextTimer]
                     nextTimer := component.nextTimer + 1 })

/-- SockJS's `send`, which tells here whether the frame goes out. -/
def send (client : Nat) : Method Bool := do
  match (← get).sockets[client]? with
  | none => pure false
  | some socket =>
    match socket.readyState with
    | .connecting => throw "InvalidStateError: The connection has not been established yet"
    | .opened => pure true
    | .closing | .closed => pure false

/-- `this.stompClient.subscribe('/topic/message', ...)`. -/
def subscribe (client : Nat) : Method Unit := do
  record .subscribe
  if ← send client then
    modify fun component =>
      component.update client fun socket => { socket with subscriptions := socket.subscriptions + 1 }

/-- A new socket, and a client that listens to it. -/
def connection : Method Unit :=
  modify fun component =>
    { component with sockets := component.sockets ++ [{}]
                     stompClient := some component.sockets.length
                     trace := component.trace ++ [.connection] }

/-- What both timers do. -/
def timeout : Method Unit := do
  if !(← get).connected then connection

def reconnect (props : Props) : Method Unit := do
  let component ← get
  if component.connectCnt < props.limitCnt then
    clearTimeout component.timer
    let timer ← setTimeout
    modify fun component => { component with timer := some timer }
  else
    clearTimeout component.timer
    clearTimeout component.delayTimer
    if props.isDelayConnect then
      let timer ← setTimeout
      modify fun component => { component with delayTimer := some timer }

/-- The callback for `CONNECTED` subscribes with whatever client is current. -/
def connectCallback : Method Unit := do
  match (← get).stompClient with
  | none => throw "TypeError"
  | some client =>
    subscribe client
    modify fun component => { component with connected := true }
    modify fun component => { component with connectCnt := 0 }

/-- The callback for `ERROR` frames and close events. -/
def errorCallback (props : Props) : Method Unit := do
  modify fun component => { component with connected := false }
  modify fun component => { component with connectCnt := component.connectCnt + 1 }
  reconnect props

/-- webstomp's `disconnect` of the current client. -/
def disconnect : Method Unit := do
  match (← get).stompClient with
  | none => pure ()
  | some client =>
    let _ ← send client
    modify fun component => component.update client fun socket => { socket with onclose := false }
    modify fun component => component.update client Socket.close

def beforeDestroy : Method Unit := do
  disconnect
  clearTimeout (← get).timer
  clearTimeout (← get).delayTimer
  modify fun component => { component with connectCnt := 0 }

/-- The component after a method, also when it has thrown. -/
def call (method : Method Unit) (component : Component) : Component := (method component).2

/-- A page without WebSocket support never connects. -/
def mounted (supported : Bool) : Component := if supported then call connection {} else {}

/-! ## Events -/

/-- What happens to one of the sockets, or a timer that is due. A socket is lost
before its close event: SockJS puts a turn of the event loop between them. -/
inductive Event where
  | opened (socket : Nat)
  | connectedFrame (socket : Nat)
  | errorFrame (socket : Nat)
  | message (socket : Nat)
  | lost (socket : Nat)
  | closed (socket : Nat)
  | fire (timer : Nat)
  deriving DecidableEq, Repr

def onSocket (component : Component) (index : Nat) (enabled : Socket → Bool)
    (handle : Socket → Component) : Option Component :=
  match component.sockets[index]? with
  | none => none
  | some socket => if enabled socket then some (handle socket) else none

/-- Frames arrive on open sockets only, messages on those that have subscribed. -/
def step (props : Props) (component : Component) : Event → Option Component
  | .opened index =>
    onSocket component index (·.readyState == .connecting) fun _ =>
      component.update index (Socket.become .opened)
  | .connectedFrame index =>
    onSocket component index (·.readyState == .opened) fun _ => call connectCallback component
  | .errorFrame index =>
    onSocket component index (·.readyState == .opened) fun _ => call (errorCallback props) component
  | .message index =>
    onSocket component index (fun socket => socket.readyState == .opened && 0 < socket.subscriptions)
      fun _ => call (record .emit) component
  | .lost index =>
    onSocket component index
      (fun socket => socket.readyState == .connecting || socket.readyState == .opened)
      fun _ => component.update index (Socket.become .closing)
  | .closed index =>
    onSocket component index (·.readyState == .closing) fun socket =>
      let component := component.update index (Socket.become .closed)
      if socket.onclose then call (errorCallback props) component else component
  | .fire timer =>
    if timer ∈ component.pending then
      some (call timeout { component with pending := component.pending.filter (· ≠ timer) })
    else none

/-! ## What the callbacks do -/

section Callbacks

variable {props : Props} {component : Component} {client : Nat} {socket : Socket}

theorem timeout_eq : call timeout component =
    if component.connected then component else call connection component := by
  cases known : component.connected <;> simp [call, timeout, bind_apply, get_apply, pure_apply, known]

theorem send_eq (found : component.sockets[client]? = some socket) :
    send client component =
      match socket.readyState with
      | .connecting => (.error "InvalidStateError: The connection has not been established yet", component)
      | .opened => (.ok true, component)
      | .closing | .closed => (.ok false, component) := by
  simp only [send, bind_apply, get_apply, found]
  cases socket.readyState <;> rfl

/-- The component after a subscription that has gone out. -/
def Component.subscribed (component : Component) (client : Nat) : Component :=
  { component.update client fun socket => { socket with subscriptions := socket.subscriptions + 1 } with
    connected := true
    connectCnt := 0
    trace := component.trace ++ [.subscribe] }

theorem connectCallback_eq (current : component.stompClient = some client)
    (found : component.sockets[client]? = some socket) :
    call connectCallback component =
      match socket.readyState with
      | .connecting => { component with trace := component.trace ++ [.subscribe] }
      | .opened => component.subscribed client
      | .closing | .closed =>
        { component with connected := true, connectCnt := 0,
                         trace := component.trace ++ [.subscribe] } := by
  obtain ⟨timer, delayTimer, connectCnt, stompClient, connected, sockets, pending, nextTimer, trace⟩ :=
    component
  obtain rfl : stompClient = some client := current
  have sends (trace : List Action) := @send_eq
    ⟨timer, delayTimer, connectCnt, some client, connected, sockets, pending, nextTimer, trace⟩ client
    socket found
  simp only [call, connectCallback, subscribe, record, bind_apply, get_apply, modify_apply, sends]
  cases socket.readyState <;> rfl

theorem errorCallback_eq : call (errorCallback props) component =
    if (component.connectCnt + 1 : Nat) < props.limitCnt then
      { component with connected := false, connectCnt := component.connectCnt + 1,
                       timer := some component.nextTimer, nextTimer := component.nextTimer + 1,
                       pending := component.pending.filter (some · ≠ component.timer) ++
                         [component.nextTimer] }
    else if props.isDelayConnect then
      { component with connected := false, connectCnt := component.connectCnt + 1,
                       delayTimer := some component.nextTimer, nextTimer := component.nextTimer + 1,
                       pending := (component.pending.filter (some · ≠ component.timer)).filter
                           (some · ≠ component.delayTimer) ++ [component.nextTimer] }
    else
      { component with connected := false, connectCnt := component.connectCnt + 1,
                       pending := (component.pending.filter (some · ≠ component.timer)).filter
                           (some · ≠ component.delayTimer) } := by
  simp only [call, errorCallback, reconnect, bind_apply, get_apply, modify_apply]
  split
  · rfl
  · cases props.isDelayConnect <;> rfl

/-- The socket of a client that has disconnected. -/
def Socket.disconnected (socket : Socket) : Socket := { socket with onclose := false }.close

/-- A client that is still connecting makes `beforeDestroy` throw at once. -/
theorem beforeDestroy_eq (current : component.stompClient = some client)
    (found : component.sockets[client]? = some socket) :
    call beforeDestroy component =
      if socket.readyState = .connecting then component
      else
        { component.update client Socket.disconnected with
          connectCnt := 0
          pending := (component.pending.filter (some · ≠ component.timer)).filter
            (some · ≠ component.delayTimer) } := by
  obtain ⟨timer, delayTimer, connectCnt, stompClient, connected, sockets, pending, nextTimer, trace⟩ :=
    component
  obtain rfl : stompClient = some client := current
  have sends := @send_eq
    ⟨timer, delayTimer, connectCnt, some client, connected, sockets, pending, nextTimer, trace⟩ client
    socket found
  have twice : (sockets.modify client fun socket => { socket with onclose := false }).modify client
      Socket.close = sockets.modify client Socket.disconnected := List.modify_modify_eq ..
  simp only [call, beforeDestroy, disconnect, clearTimeout, bind_apply, get_apply, modify_apply, sends,
    Component.update]
  cases socket.readyState with
  | connecting => rfl
  | opened => simp [twice]
  | closing => simp [twice]
  | closed => simp [twice]

/-- Without a client there are only the timers to clear. -/
theorem beforeDestroy_unconnected (never : component.stompClient = none) :
    call beforeDestroy component =
      { component with
        connectCnt := 0
        pending := (component.pending.filter (some · ≠ component.timer)).filter
          (some · ≠ component.delayTimer) } := by
  simp [call, beforeDestroy, disconnect, clearTimeout, bind_apply, get_apply, modify_apply, pure_apply,
    never]

/-- The sockets are no business of the error callback. -/
theorem errorCallback_frame :
    (call (errorCallback props) component).sockets = component.sockets ∧
      (call (errorCallback props) component).stompClient = component.stompClient ∧
      (call (errorCallback props) component).connected = false ∧
      (call (errorCallback props) component).connectCnt = component.connectCnt + 1 ∧
      (call (errorCallback props) component).trace = component.trace := by
  rw [errorCallback_eq]
  split
  · simp
  · split <;> simp

theorem errorCallback_rearms
    (again : (component.connectCnt + 1 : Nat) < props.limitCnt ∨ props.isDelayConnect = true) :
    component.nextTimer ∈ (call (errorCallback props) component).pending := by
  rw [errorCallback_eq]
  split
  · simp
  · rename_i enough
    rw [if_pos (again.resolve_left enough)]
    simp

end Callbacks

/-! ## Steps -/

section Steps

variable {props : Props} {component next : Component} {index : Nat} {event : Event}

theorem onSocket_cases {enabled : Socket → Bool} {handle : Socket → Component}
    (handled : onSocket component index enabled handle = some next) :
    ∃ socket, component.sockets[index]? = some socket ∧ enabled socket = true ∧
      next = handle socket := by
  unfold onSocket at handled
  cases found : component.sockets[index]? with
  | none => simp [found] at handled
  | some socket =>
    simp only [found] at handled
    split at handled
    · rename_i able
      cases handled
      exact ⟨socket, rfl, able, rfl⟩
    · cases handled

theorem onSocket_none {enabled : Socket → Bool} {handle : Socket → Component}
    (disabled : ∀ socket, component.sockets[index]? = some socket → enabled socket = false) :
    onSocket component index enabled handle = none := by
  unfold onSocket
  cases found : component.sockets[index]? with
  | none => rfl
  | some socket =>
    simp only [disabled socket found]
    rfl

theorem fire_cases {timer : Nat} (stepped : step props component (.fire timer) = some next) :
    timer ∈ component.pending ∧
      next = call timeout { component with pending := component.pending.filter (· ≠ timer) } := by
  simp only [step] at stepped
  split at stepped
  · rename_i due
    cases stepped
    exact ⟨due, rfl⟩
  · cases stepped

/-- The current client is the last, and every client listens for its close event. -/
structure Wired (component : Component) : Prop where
  current : ∀ client, component.stompClient = some client → client + 1 = component.sockets.length
  created : component.stompClient = none → component.sockets = []
  attached : ∀ socket ∈ component.sockets, socket.onclose = true

/-- A pending timer is one of the two the component knows. -/
structure Timed (component : Component) : Prop where
  tracked : ∀ timer ∈ component.pending, component.timer = some timer ∨ component.delayTimer = some timer
  issued : ∀ timer, component.timer = some timer ∨ component.delayTimer = some timer →
    timer < component.nextTimer
  apart : ∀ timer, component.timer = some timer → component.delayTimer ≠ some timer

theorem mem_modify {sockets : List Socket} {client : Nat} {change : Socket → Socket} {socket : Socket}
    (member : socket ∈ sockets.modify client change) :
    ∃ place before, sockets[place]? = some before ∧
      socket = if client = place then change before else before := by
  obtain ⟨place, found⟩ := List.mem_iff_getElem?.mp member
  rw [List.getElem?_modify] at found
  obtain ⟨before, known, rfl⟩ := Option.map_eq_some_iff.mp found
  exact ⟨place, before, known, rfl⟩

theorem wired_inside {client : Nat} (wired : Wired component)
    (current : component.stompClient = some client) : client < component.sockets.length := by
  have last := wired.current client current
  omega

theorem wired_known {client : Nat} (wired : Wired component)
    (current : component.stompClient = some client) :
    ∃ socket, component.sockets[client]? = some socket :=
  ⟨_, List.getElem?_eq_getElem (wired_inside wired current)⟩

private theorem wired_update {client : Nat} {change : Socket → Socket}
    (keeps : ∀ socket, (change socket).onclose = socket.onclose) (wired : Wired component) :
    Wired (component.update client change) := by
  constructor
  · intro other same
    simpa [Component.update] using wired.current other same
  · intro none
    simp [Component.update, wired.created none]
  · intro socket member
    obtain ⟨place, before, known, rfl⟩ := mem_modify member
    have listens := wired.attached before (List.mem_of_getElem? known)
    split
    · rw [keeps, listens]
    · exact listens

private theorem wired_connection (wired : Wired component) : Wired (call connection component) := by
  constructor
  · intro client same
    cases same
    simp [call, connection, modify_apply]
  · intro none
    cases none
  · intro socket member
    rcases List.mem_append.mp member with old | new
    · exact wired.attached socket old
    · rw [List.mem_singleton.mp new]

private theorem wired_errorCallback (wired : Wired component) :
    Wired (call (errorCallback props) component) := by
  obtain ⟨sockets, stompClient, -⟩ := @errorCallback_frame props component
  constructor
  · rw [sockets, stompClient]
    exact wired.current
  · rw [sockets, stompClient]
    exact wired.created
  · rw [sockets]
    exact wired.attached

private theorem timed_errorCallback (timed : Timed component) :
    Timed (call (errorCallback props) component) := by
  obtain ⟨tracked, issued, apart⟩ := timed
  rw [errorCallback_eq]
  split
  · constructor
    · intro timer member
      rcases List.mem_append.mp member with old | new
      · obtain ⟨pending, other⟩ := List.mem_filter.mp old
        rcases tracked timer pending with same | delayed
        · simp [same] at other
        · exact Or.inr delayed
      · rw [List.mem_singleton.mp new]
        exact Or.inl rfl
    · rintro timer (same | delayed)
      · cases same
        exact Nat.lt_succ_self _
      · exact Nat.lt_succ_of_lt (issued timer (Or.inr delayed))
    · intro timer same delayed
      cases same
      exact Nat.lt_irrefl _ (issued _ (Or.inr delayed))
  · split
    · constructor
      · intro timer member
        rcases List.mem_append.mp member with old | new
        · obtain ⟨kept, other⟩ := List.mem_filter.mp old
          obtain ⟨pending, -⟩ := List.mem_filter.mp kept
          rcases tracked timer pending with same | delayed
          · exact Or.inl same
          · simp [delayed] at other
        · rw [List.mem_singleton.mp new]
          exact Or.inr rfl
      · rintro timer (same | delayed)
        · exact Nat.lt_succ_of_lt (issued timer (Or.inl same))
        · cases delayed
          exact Nat.lt_succ_self _
      · intro timer same delayed
        cases delayed
        exact Nat.lt_irrefl _ (issued _ (Or.inl same))
    · exact ⟨fun timer member => tracked timer (List.mem_of_mem_filter (List.mem_of_mem_filter member)),
        issued, apart⟩

private theorem connectCallback_frame (wired : Wired component) :
    Wired (call connectCallback component) ∧
      (call connectCallback component).timer = component.timer ∧
      (call connectCallback component).delayTimer = component.delayTimer ∧
      (call connectCallback component).pending = component.pending ∧
      (call connectCallback component).nextTimer = component.nextTimer := by
  cases current : component.stompClient with
  | none =>
    have thrown : call connectCallback component = component := by
      simp [call, connectCallback, bind_apply, get_apply, throw_apply, current]
    rw [thrown]
    exact ⟨wired, rfl, rfl, rfl, rfl⟩
  | some client =>
    obtain ⟨socket, found⟩ := wired_known wired current
    rw [connectCallback_eq current found]
    cases socket.readyState with
    | opened =>
      obtain ⟨last, created, attached⟩ := @wired_update component client
        (fun socket => { socket with subscriptions := socket.subscriptions + 1 }) (fun _ => rfl) wired
      exact ⟨⟨last, created, attached⟩, rfl, rfl, rfl, rfl⟩
    | connecting => exact ⟨⟨wired.current, wired.created, wired.attached⟩, rfl, rfl, rfl, rfl⟩
    | closing => exact ⟨⟨wired.current, wired.created, wired.attached⟩, rfl, rfl, rfl, rfl⟩
    | closed => exact ⟨⟨wired.current, wired.created, wired.attached⟩, rfl, rfl, rfl, rfl⟩

private theorem timed_of_same (timed : Timed component) (timer : next.timer = component.timer)
    (delayTimer : next.delayTimer = component.delayTimer)
    (pending : ∀ timer ∈ next.pending, timer ∈ component.pending)
    (nextTimer : next.nextTimer = component.nextTimer) : Timed next := by
  obtain ⟨tracked, issued, apart⟩ := timed
  constructor
  · intro other member
    rw [timer, delayTimer]
    exact tracked other (pending other member)
  · rw [timer, delayTimer, nextTimer]
    exact issued
  · rw [timer, delayTimer]
    exact apart

theorem timed_update {client : Nat} {change : Socket → Socket} (timed : Timed component) :
    Timed (component.update client change) := timed_of_same timed rfl rfl (fun _ => id) rfl

/-- What holds of the component before it is destroyed. -/
theorem wired_step (wired : Wired component) (stepped : step props component event = some next) :
    Wired next := by
  cases event with
  | opened index =>
    obtain ⟨socket, -, -, rfl⟩ := onSocket_cases stepped
    exact wired_update (fun _ => rfl) wired
  | connectedFrame index =>
    obtain ⟨socket, -, -, rfl⟩ := onSocket_cases stepped
    exact (connectCallback_frame wired).1
  | errorFrame index =>
    obtain ⟨socket, -, -, rfl⟩ := onSocket_cases stepped
    exact wired_errorCallback wired
  | message index =>
    obtain ⟨socket, -, -, rfl⟩ := onSocket_cases stepped
    exact ⟨wired.current, wired.created, wired.attached⟩
  | lost index =>
    obtain ⟨socket, -, -, rfl⟩ := onSocket_cases stepped
    exact wired_update (fun _ => rfl) wired
  | closed index =>
    obtain ⟨socket, -, -, rfl⟩ := onSocket_cases stepped
    have closed : Wired (component.update index (Socket.become .closed)) :=
      wired_update (fun _ => rfl) wired
    dsimp only
    split
    · exact wired_errorCallback closed
    · exact closed
  | fire timer =>
    obtain ⟨-, rfl⟩ := fire_cases stepped
    have fired : Wired { component with pending := component.pending.filter (· ≠ timer) } :=
      ⟨wired.current, wired.created, wired.attached⟩
    rw [timeout_eq]
    split
    · exact fired
    · exact wired_connection fired

theorem timed_step (wired : Wired component) (timed : Timed component)
    (stepped : step props component event = some next) : Timed next := by
  cases event with
  | opened index =>
    obtain ⟨socket, -, -, rfl⟩ := onSocket_cases stepped
    exact timed_of_same timed rfl rfl (fun _ => id) rfl
  | connectedFrame index =>
    obtain ⟨socket, -, -, rfl⟩ := onSocket_cases stepped
    obtain ⟨-, timer, delayTimer, pending, nextTimer⟩ := connectCallback_frame wired
    exact timed_of_same timed timer delayTimer (fun _ member => pending ▸ member) nextTimer
  | errorFrame index =>
    obtain ⟨socket, -, -, rfl⟩ := onSocket_cases stepped
    exact timed_errorCallback timed
  | message index =>
    obtain ⟨socket, -, -, rfl⟩ := onSocket_cases stepped
    exact timed_of_same timed rfl rfl (fun _ => id) rfl
  | lost index =>
    obtain ⟨socket, -, -, rfl⟩ := onSocket_cases stepped
    exact timed_of_same timed rfl rfl (fun _ => id) rfl
  | closed index =>
    obtain ⟨socket, -, -, rfl⟩ := onSocket_cases stepped
    have closed : Timed (component.update index (Socket.become .closed)) :=
      timed_of_same timed rfl rfl (fun _ => id) rfl
    dsimp only
    split
    · exact timed_errorCallback closed
    · exact closed
  | fire timer =>
    obtain ⟨-, rfl⟩ := fire_cases stepped
    rw [timeout_eq]
    split
    · exact timed_of_same timed rfl rfl (fun _ => List.mem_of_mem_filter) rfl
    · exact timed_of_same timed rfl rfl (fun _ => List.mem_of_mem_filter) rfl

/-- Both timers cleared leaves none. -/
theorem timed_cleared (timed : Timed component) :
    (component.pending.filter (some · ≠ component.timer)).filter (some · ≠ component.delayTimer) = [] := by
  rw [List.filter_eq_nil_iff]
  intro timer member
  obtain ⟨pending, other⟩ := List.mem_filter.mp member
  rcases timed.tracked timer pending with same | delayed
  · simp [same] at other
  · simp [delayed]

private theorem wired_mounted (supported : Bool) : Wired (mounted supported) := by
  have created : Wired {} := by
    refine ⟨?_, fun _ => rfl, ?_⟩
    · intro client none
      cases none
    · intro socket member
      cases member
  cases supported with
  | false => exact created
  | true => exact wired_connection created

private theorem timed_mounted (supported : Bool) : Timed (mounted supported) := by
  cases supported <;>
  · refine ⟨?_, ?_, ?_⟩
    · intro timer member
      cases member
    · rintro timer (same | same) <;> cases same
    · intro timer same
      cases same

theorem wired_timed {supported : Bool} {events : List Event}
    (ran : exec (step props) (mounted supported) events = some component) :
    Wired component ∧ Timed component := by
  refine exec_history (fun _ component => Wired component ∧ Timed component) (fun _ => True) ?_ ?_
    (fun _ _ => trivial) ran
  · exact ⟨wired_mounted supported, timed_mounted supported⟩
  · rintro before component event next ⟨wired, timed⟩ - stepped
    exact ⟨wired_step wired stepped, timed_step wired timed stepped⟩

/-- Without WebSocket support nothing happens. -/
theorem unsupported_idle : step props (mounted false) event = none := by
  cases event <;> rfl

end Steps

/-! ## The last socket -/

section Last

variable {props : Props} {component : Component} {old : List Socket} {last socket : Socket} {index : Nat}

/-- The component has opened these sockets, and all but the last are closed. -/
structure Sole (component : Component) (old : List Socket) (last : Socket) : Prop where
  sockets : component.sockets = old ++ [last]
  older : ∀ socket ∈ old, socket.readyState = .closed

theorem sole_current (wired : Wired component) (sole : Sole component old last) :
    component.stompClient = some old.length := by
  cases current : component.stompClient with
  | none =>
    have none := wired.created current
    rw [sole.sockets] at none
    simp at none
  | some client =>
    have place := wired.current client current
    rw [sole.sockets, List.length_append, List.length_singleton] at place
    rw [Nat.add_right_cancel place]

theorem sole_last (sole : Sole component old last) : component.sockets[old.length]? = some last := by
  rw [sole.sockets, List.getElem?_concat_length]

/-- Whatever is not closed yet is the last. -/
theorem sole_index (sole : Sole component old last) (found : component.sockets[index]? = some socket)
    (live : socket.readyState ≠ .closed) : index = old.length ∧ socket = last := by
  rw [sole.sockets] at found
  rcases Nat.lt_trichotomy index old.length with before | same | after
  · rw [List.getElem?_append_left before] at found
    exact absurd (sole.older socket (List.mem_of_getElem? found)) live
  · subst same
    rw [List.getElem?_concat_length] at found
    cases found
    exact ⟨rfl, rfl⟩
  · have outside : (old ++ [last]).length ≤ index := by
      rw [List.length_append, List.length_singleton]
      exact after
    rw [List.getElem?_eq_none outside] at found
    cases found

theorem sole_update {change : Socket → Socket} (sole : Sole component old last) :
    Sole (component.update old.length change) old (change last) := by
  refine ⟨?_, sole.older⟩
  have inside : old.length < (old ++ [last]).length := by simp
  rw [Component.update, sole.sockets, List.modify_eq_take_cons_drop inside]
  simp

/-- Once the last is closed too, a new one can be. -/
theorem sole_connection (sole : Sole component old last) (closed : last.readyState = .closed) :
    Sole (call connection component) (old ++ [last]) {} := by
  refine ⟨by rw [← sole.sockets]; rfl, ?_⟩
  intro socket member
  rcases List.mem_append.mp member with before | same
  · exact sole.older socket before
  · rw [List.mem_singleton.mp same, closed]

theorem sole_of_same {next : Component} (sole : Sole component old last)
    (same : next.sockets = component.sockets) : Sole next old last :=
  ⟨same.trans sole.sockets, sole.older⟩

theorem sole_subscribed (sole : Sole component old last) :
    Sole (component.subscribed old.length) old
      { last with subscriptions := last.subscriptions + 1 } := by
  obtain ⟨sockets, older⟩ := @sole_update component old last
    (fun socket => { socket with subscriptions := socket.subscriptions + 1 }) sole
  exact ⟨sockets, older⟩

/-- What can happen while all sockets but the last are closed. -/
inductive SoleStep (props : Props) (component : Component) (old : List Socket) (last : Socket) :
    Event → Component → Prop where
  | opened (connecting : last.readyState = .connecting) :
      SoleStep props component old last (.opened old.length)
        (component.update old.length (Socket.become .opened))
  | connected (opened : last.readyState = .opened) :
      SoleStep props component old last (.connectedFrame old.length)
        (component.subscribed old.length)
  | failed (opened : last.readyState = .opened) :
      SoleStep props component old last (.errorFrame old.length) (call (errorCallback props) component)
  | message (opened : last.readyState = .opened) :
      SoleStep props component old last (.message old.length) (call (record .emit) component)
  | lost (live : last.readyState = .connecting ∨ last.readyState = .opened) :
      SoleStep props component old last (.lost old.length)
        (component.update old.length (Socket.become .closing))
  | closed (closing : last.readyState = .closing) :
      SoleStep props component old last (.closed old.length)
        (call (errorCallback props) (component.update old.length (Socket.become .closed)))
  | fire (timer : Nat) (due : timer ∈ component.pending) :
      SoleStep props component old last (.fire timer)
        (call timeout { component with pending := component.pending.filter (· ≠ timer) })

theorem sole_step {next : Component} {event : Event} (wired : Wired component)
    (sole : Sole component old last) (stepped : step props component event = some next) :
    SoleStep props component old last event next := by
  cases event with
  | opened index =>
    obtain ⟨socket, found, able, rfl⟩ := onSocket_cases stepped
    have connecting := beq_iff_eq.mp able
    obtain ⟨rfl, rfl⟩ := sole_index sole found (by simp [connecting])
    exact .opened connecting
  | connectedFrame index =>
    obtain ⟨socket, found, able, rfl⟩ := onSocket_cases stepped
    have opened := beq_iff_eq.mp able
    obtain ⟨rfl, rfl⟩ := sole_index sole found (by simp [opened])
    rw [connectCallback_eq (sole_current wired sole) found, opened]
    exact .connected opened
  | errorFrame index =>
    obtain ⟨socket, found, able, rfl⟩ := onSocket_cases stepped
    have opened := beq_iff_eq.mp able
    obtain ⟨rfl, rfl⟩ := sole_index sole found (by simp [opened])
    exact .failed opened
  | message index =>
    obtain ⟨socket, found, able, rfl⟩ := onSocket_cases stepped
    have opened := beq_iff_eq.mp (Bool.and_eq_true_iff.mp able).1
    obtain ⟨rfl, rfl⟩ := sole_index sole found (by simp [opened])
    exact .message opened
  | lost index =>
    obtain ⟨socket, found, able, rfl⟩ := onSocket_cases stepped
    have live : socket.readyState = .connecting ∨ socket.readyState = .opened := by simpa using able
    obtain ⟨rfl, rfl⟩ := sole_index sole found (by rcases live with same | same <;> simp [same])
    exact .lost live
  | closed index =>
    obtain ⟨socket, found, able, rfl⟩ := onSocket_cases stepped
    have closing := beq_iff_eq.mp able
    obtain ⟨rfl, rfl⟩ := sole_index sole found (by simp [closing])
    dsimp only
    rw [if_pos (wired.attached socket (List.mem_of_getElem? found))]
    exact .closed closing
  | fire timer =>
    obtain ⟨due, rfl⟩ := fire_cases stepped
    exact .fire timer due

theorem sole_mounted : Sole (mounted true) [] {} := by
  refine ⟨rfl, ?_⟩
  intro socket member
  cases member

end Last

end Tomas.WebSocketComponent
