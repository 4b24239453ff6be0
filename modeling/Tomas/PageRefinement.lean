import Tomas.PageInvariants

/-! The page behaves as the component's model says. Each thing that happens to a
page, whatever text arrives in it and whatever its callbacks throw, is for the
component and the sockets a run of the model's events. -/
namespace Tomas.PageRefinement
open Tomas.JsStrings Tomas.Methods Tomas.Runs Tomas.StompFrames Tomas.Views Tomas.StompPage
open Tomas.PageChanges Tomas.PageInvariants
open Tomas.WebSocketComponent (Component Props Socket ReadyState)

/-- The model's events, and the end of the component. -/
def lifecycle (props : Props) (component : Component) :
    Option WebSocketComponent.Event → Option Component
  | some event => WebSocketComponent.step props component event
  | none => some (WebSocketComponent.call WebSocketComponent.beforeDestroy component)

/-! ## The methods -/

section Methods

variable {draw : Nat → Nat × Nat} {props : Props} {index : Nat} {frame : Frame} {page : Page}

private theorem transmit_component : (transmit index frame page).2.component = page.component := by
  cases written : marshall frame with
  | error cause => simp only [transmit, written, throw_apply]
  | ok text =>
    rw [transmit_eq written]
    dsimp only
    split <;> rfl

private theorem refines_transmit (empty : frame.body = []) :
    Refines component (transmit index frame) (WebSocketComponent.send index) := by
  intro page
  obtain ⟨text, written⟩ := marshall_bodyless empty
  refine Prod.ext ?_ ?_
  · rw [transmit_eq written]
    rfl
  · rw [component_view, component_view, transmit_component]
    exact send_frame

private theorem refines_asked (id : JsString) :
    Refines component (modify fun page => page.asked index id : Method Unit)
      (modify fun component => component.update index fun socket =>
        { socket with subscriptions := socket.subscriptions + 1 }) := fun _ => rfl

private theorem refines_subscribe {destination : JsString} :
    Refines component (subscribe draw index destination) (WebSocketComponent.subscribe index) := by
  refine refines_bind (refines_lift _) fun _ => refines_get fun page => ?_
  refine refines_silent (refines_modify fun _ => rfl) (refines_silent (refines_modify fun _ => rfl) ?_)
  apply refines_bind (refines_transmit rfl)
  intro gone
  cases gone with
  | true => exact refines_asked _
  | false => exact refines_pure ()

theorem refines_connectCallback :
    Refines component (connectCallback draw) WebSocketComponent.connectCallback := by
  apply refines_bind (refines_lift _)
  intro known
  cases known.stompClient with
  | none => exact refines_throw _
  | some client =>
    apply refines_bind refines_subscribe
    intro _
    exact refines_bind (refines_lift _) fun _ => refines_lift _

private theorem refines_connection : Refines component connection WebSocketComponent.connection :=
  fun _ => rfl

private theorem refines_timeout : Refines component timeout WebSocketComponent.timeout := by
  apply refines_bind (refines_lift _)
  intro known
  cases known.connected with
  | true => exact refines_pure ()
  | false => exact refines_connection

private theorem refines_cleanUp : Refines component (cleanUp index) (pure ()) := by
  intro page
  rw [cleanUp_eq]
  rfl

private theorem refines_disconnect : Refines component disconnect WebSocketComponent.disconnect := by
  apply refines_bind (refines_lift _)
  intro known
  cases known.stompClient with
  | none => exact refines_pure ()
  | some client =>
    refine refines_bind (refines_transmit rfl) fun _ => refines_bind (refines_lift _) fun _ => ?_
    have closes := @refines_bind _ _ _ _ _ component _ _ (fun _ : Unit => cleanUp client)
      (fun _ => pure ()) (refines_lift (modify fun component => component.update client Socket.close))
      fun _ => refines_cleanUp
    rwa [bind_pure] at closes

private theorem refines_beforeDestroy :
    Refines component beforeDestroy WebSocketComponent.beforeDestroy := by
  have clears := @refines_bind _ _ _ _ _ component _ _ _ _ refines_disconnect fun _ =>
    refines_bind (refines_lift (do WebSocketComponent.clearTimeout (← get).timer)) fun _ =>
      refines_bind (refines_lift (do WebSocketComponent.clearTimeout (← get).delayTimer)) fun _ =>
        refines_lift (modify fun component => { component with connectCnt := 0 })
  simp only [bind_assoc] at clears
  exact clears

end Methods

/-! ## The frames of a message -/

/-- As many subscriptions as the model has counted. -/
def Asked (_ : Nat) (socket : Socket) (stomp : Client) : Prop :=
  stomp.subscribed.length = socket.subscriptions

/-- The socket that a message comes from is open, and has subscribed to these. -/
def Ready (index : Nat) (asked : List JsString) (other : Nat) (socket : Socket) (stomp : Client) : Prop :=
  Asked other socket stomp ∧ (other = index → socket.readyState = .opened ∧ ∀ id ∈ asked, id ∈ stomp.subscribed)

section Frames

variable {draw : Nat → Nat × Nat} {props : Props} {index : Nat} {asked : List JsString}
  {frame : Frame} {frames : List Frame} {page : Page}

private theorem calm_ready : Calm Any (Ready index asked) where
  quiet other socket stomp after quiet ready := by
    obtain ⟨connected, version, subscriptions, rfl⟩ := quiet
    exact ready
  frame _ _ _ _ _ _ _ _ ready := ready
  ping _ _ _ _ ready := ready
  asked other socket stomp id known ready := by
    refine ⟨?_, fun same => ⟨(ready.2 same).1, ?_⟩⟩
    · have counted : stomp.subscribed.length = socket.subscriptions := ready.1
      simp [Asked, counted]
    · exact fun id member => List.mem_append_left _ ((ready.2 same).2 id member)
  beats _ _ _ _ _ ready := ready

private theorem call_above {body : Method Unit} {above : WebSocketComponent.Method Unit}
    (refines : Refines component body above) (page : Page) :
    WebSocketComponent.call above page.component = (body page).2.component :=
  congrArg Prod.snd (refines page)

private theorem ready_socket (ready : Each (Ready index asked) page) (inside : index < page.clients.length) :
    ∃ socket, page.component.sockets[index]? = some socket ∧ socket.readyState = .opened ∧
      (asked ≠ [] → 0 < socket.subscriptions) := by
  have there := List.getElem?_eq_getElem (ready.length ▸ inside : index < page.component.sockets.length)
  obtain ⟨counted, own⟩ := ready.pair index _ _ there (List.getElem?_eq_getElem inside)
  obtain ⟨opened, listed⟩ := own rfl
  refine ⟨_, there, opened, fun some => ?_⟩
  obtain ⟨id, member⟩ := List.exists_mem_of_ne_nil asked some
  rw [← counted]
  exact List.length_pos_of_mem (listed id member)

/-- A frame is at most one event of the model. -/
private theorem onframe_refines (ready : Each (Ready index asked) page) (inside : index < page.clients.length)
    (fine : frame.command = js "MESSAGE" → asText (frame.headers.get (js "subscription")) ∈ asked) :
    ∃ events, exec (WebSocketComponent.step props) page.component events =
      some (onframe draw props index frame page).2.component := by
  obtain ⟨socket, there, opened, counted⟩ := ready_socket ready inside
  by_cases connected : frame.command = js "CONNECTED"
  · obtain ⟨version, ping, pong, same, -⟩ := @onframe_connected draw props index frame page connected
    refine ⟨[.connectedFrame index], exec_single ?_⟩
    rw [same, ← call_above refines_connectCallback, start_component, start_component]
    simp [WebSocketComponent.step, WebSocketComponent.onSocket, there, opened, Page.update]
  · by_cases message : frame.command = js "MESSAGE"
    · rw [onframe_message message, onreceive_eq]
      dsimp only
      split
      · have some := counted (List.ne_nil_of_mem (fine message))
        refine ⟨[.message index], exec_single ?_⟩
        simp [WebSocketComponent.step, WebSocketComponent.onSocket, there, opened, some, handed]
      · exact ⟨[], rfl⟩
    · rw [onframe_rest connected message]
      split
      · have failed := call_above (refines_lift (WebSocketComponent.errorCallback props)) page
        refine ⟨[.errorFrame index], exec_single ?_⟩
        rw [errorCallback, ← failed]
        simp [WebSocketComponent.step, WebSocketComponent.onSocket, there, opened]
      · exact ⟨[], rfl⟩

private theorem onframes_refines (ready : Each (Ready index asked) page) (inside : index < page.clients.length)
    (fine : ∀ frame ∈ frames, frame.command = js "MESSAGE" →
      asText (frame.headers.get (js "subscription")) ∈ asked) :
    ∃ events, exec (WebSocketComponent.step props) page.component events =
      some (onframes draw props index frames page).2.component := by
  induction frames generalizing page with
  | nil => exact ⟨[], rfl⟩
  | cons frame frames ih =>
    obtain ⟨events, ran⟩ := @onframe_refines draw props index asked frame page ready inside
      (fine frame List.mem_cons_self)
    have after := @keeps_onframe draw props Any (Ready index asked) index frame calm_ready fine_any page ready
    have length := (@onframe_frame draw props page index frame).1
    rw [onframes, bind_apply]
    revert ran after length
    rcases onframe draw props index frame page with ⟨_ | _, middle⟩
    · exact fun ran _ _ => ⟨events, ran⟩
    · intro ran after length
      obtain ⟨later, rest⟩ := ih after (by rw [length]; exact inside)
        fun other member => fine other (List.mem_cons_of_mem _ member)
      refine ⟨events ++ later, ?_⟩
      rw [exec_append, ran]
      exact rest

end Frames

/-! ## Events -/

section Steps

variable {draw : Nat → Nat × Nat} {props : Props} {page next : Page} {event : Event}
  {component : Component} {index : Nat} {socket : Socket}

private theorem closed_asked : Closed Any Asked where
  quiet index socket stomp after quiet asked := by
    obtain ⟨connected, version, subscriptions, rfl⟩ := quiet
    exact asked
  frame _ _ _ _ _ _ _ _ asked := asked
  ping _ _ _ _ asked := asked
  asked index socket stomp id known asked := by
    have counted : stomp.subscribed.length = socket.subscriptions := asked
    simp [Asked, counted]
  beats _ _ _ _ _ asked := asked
  reads _ _ _ _ _ asked := asked
  opens _ _ _ _ _ _ asked := asked
  leaves index socket stomp after leaving asked := by
    rw [Asked, leaving.1]
    exact asked
  new _ := rfl

theorem lifecycle_events (events : List WebSocketComponent.Event) :
    exec (lifecycle props) component (events.map some) =
      exec (WebSocketComponent.step props) component events := by
  induction events generalizing component with
  | nil => rfl
  | cons event events ih =>
    rw [List.map_cons, exec_cons, exec_cons]
    cases stepped : WebSocketComponent.step props component event with
    | none => simp [lifecycle, stepped]
    | some next => simp [lifecycle, stepped, ih]

private theorem ready_of_asked (each : Each Asked page) (found : page.component.sockets[index]? = some socket)
    (opened : socket.readyState = .opened) : Each (Ready index (page.client index).subscribed) page := by
  refine ⟨each.length, fun other there stomp foundThere here => ⟨each.pair other there stomp foundThere here, ?_⟩⟩
  rintro rfl
  rw [found] at foundThere
  cases foundThere
  exact ⟨opened, by simp [Page.client, here]⟩

private theorem refines_onclose : Refines StompPage.component (onclose props index)
    (WebSocketComponent.errorCallback props) := refines_silent refines_cleanUp (refines_lift _)

/-- A socket that is closed from inside is lost like any other. -/
private theorem close_refines : ∃ steps, exec (lifecycle props) component steps =
    some (component.update index Socket.close) ∧ steps.count none = 0 := by
  cases found : component.sockets[index]? with
  | none =>
    have outside := List.getElem?_eq_none_iff.mp found
    refine ⟨[], ?_, rfl⟩
    rw [exec_nil, WebSocketComponent.Component.update, List.modify_eq_self outside]
  | some socket =>
    have lost (able : (socket.readyState == .connecting || socket.readyState == .opened) = true)
        (closes : socket.become .closing = socket.close) :
        lifecycle props component (some (.lost index)) = some (component.update index Socket.close) := by
      simp only [lifecycle, WebSocketComponent.step, WebSocketComponent.onSocket, found]
      rw [if_pos able, update_congr found closes]
    have stays (stopped : socket.close = socket) : component = component.update index Socket.close := by
      rw [@update_congr component index socket Socket.close id found stopped,
        WebSocketComponent.Component.update, List.modify_id]
    cases state : socket.readyState with
    | connecting | opened =>
      have loses := lost (by rw [state]; rfl) (by simp [Socket.close, state])
      exact ⟨[some (.lost index)], exec_single loses, rfl⟩
    | closing => exact ⟨[], congrArg some (stays (by simp [Socket.close, state])), rfl⟩
    | closed => exact ⟨[], congrArg some (stays (by simp [Socket.close, state])), rfl⟩

private theorem sendMsg_component {msg : JsString} : (sendMsg msg page).2.component = page.component := by
  rw [sendMsg, bind_apply, lift_apply, get_apply]
  dsimp only [component_view, component_put]
  cases page.component.stompClient with
  | none => rfl
  | some client =>
    dsimp only
    rw [send, discard_apply, transmit_component]

private theorem acknowledge_refines {command : JsString} {received : Received} :
    ∃ steps, exec (lifecycle props) page.component steps =
      some (call (acknowledge command received) page).component ∧ steps.count none = 0 := by
  have silent : (acknowledge command received page).2.component = page.component := by
    rw [acknowledge, bind_apply, get_apply]
    dsimp only
    rw [discard_apply, transmit_component]
  refine ⟨[], ?_, rfl⟩
  rw [call, silent]
  rfl

private theorem beat_refines {interval : Interval} {now : Nat} : ∃ steps, exec (lifecycle props)
    page.component steps = some (beat interval now page).2.component ∧ steps.count none = 0 := by
  obtain ⟨id, client, kind, ttl⟩ := interval
  cases kind with
  | pinger =>
    refine ⟨[], ?_, rfl⟩
    simp only [beat]
    rw [discard_apply, wsSend_eq]
    dsimp only
    split <;> rfl
  | ponger =>
    cases active : (page.client client).serverActivity with
    | none => exact ⟨[], by simp [beat, bind_apply, get_apply, pure_apply, active], rfl⟩
    | some serverActivity =>
      cases ttl with
      | none => exact ⟨[], by simp [beat, bind_apply, get_apply, pure_apply], rfl⟩
      | some ttl =>
        by_cases silent : ttl * 2 < (now : Int) - serverActivity
        · have closes : (beat { id, client, beat := .ponger, ttl := some ttl } now page).2.component =
              page.component.update client Socket.close := by
            simp [beat, bind_apply, get_apply, lift_apply, modify_apply, active, silent]
          rw [closes]
          exact close_refines
        · exact ⟨[], by simp [beat, bind_apply, get_apply, pure_apply, active, silent], rfl⟩

/-- The frames of a text are one event each, at most. -/
private theorem message_refines {data : JsString} {now : Nat} (each : Each Asked page)
    (expected : Expected page (.message index data now))
    (stepped : step draw props page (.message index data now) = some next) :
    ∃ events, exec (WebSocketComponent.step props) page.component events = some next.component := by
  obtain ⟨socket, found, opened, rfl⟩ := onSocket_cases stepped
  have inside := (List.getElem?_eq_some_iff.mp found).1
  have ready := ready_of_asked each found (beq_iff_eq.mp opened)
  rw [call, onmessage_eq]
  have reading : Each (Ready index (page.client index).subscribed) (page.update index fun stomp =>
      { stomp with serverActivity := some now, partialData :=
        (StompStreams.onmessage (page.client index).partialData data).2 }) :=
    each_update ready rfl rfl fun _ _ _ _ => id
  exact onframes_refines reading (by simpa [Page.update, each.length] using inside) expected

/-- Each event of the page is for its component a run of the model. -/
theorem step_refines (each : Each Asked page) (expected : Expected page event)
    (stepped : step draw props page event = some next) :
    ∃ steps, exec (lifecycle props) page.component steps = some next.component ∧
      steps.count none = [event].count .beforeDestroy := by
  cases event with
  | opened index =>
    obtain ⟨socket, found, connecting, rfl⟩ := onSocket_cases stepped
    have inside := (List.getElem?_eq_some_iff.mp found).1
    have here := List.getElem?_eq_getElem (each.length ▸ inside : index < page.clients.length)
    obtain ⟨text, -, same⟩ := opened_eq found here
    refine ⟨[some (.opened index)], exec_single ?_, rfl⟩
    rw [same]
    simp [lifecycle, WebSocketComponent.step, WebSocketComponent.onSocket, found, beq_iff_eq.mp connecting]
  | message index data now =>
    obtain ⟨events, ran⟩ := message_refines each expected stepped
    refine ⟨events.map some, by rw [lifecycle_events]; exact ran, ?_⟩
    simp [List.count_eq_zero]
  | lost index =>
    obtain ⟨socket, found, able, rfl⟩ := onSocket_cases stepped
    refine ⟨[some (.lost index)], exec_single ?_, rfl⟩
    have live : socket.readyState = .connecting ∨ socket.readyState = .opened := by simpa using able
    simp only [lifecycle, WebSocketComponent.step, WebSocketComponent.onSocket, found]
    exact if_pos able
  | closed index =>
    obtain ⟨socket, found, closing, rfl⟩ := onSocket_cases stepped
    refine ⟨[some (.closed index)], exec_single ?_, rfl⟩
    simp only [lifecycle, WebSocketComponent.step, WebSocketComponent.onSocket, found]
    rw [if_pos closing]
    cases listens : socket.onclose with
    | true =>
      have above := @call_above (do become .closed index; onclose props index) (do
        modify fun component => component.update index (Socket.become .closed)
        WebSocketComponent.errorCallback props) (refines_bind (refines_lift _) fun _ => refines_onclose) page
      exact congrArg some above
    | false => rfl
  | fire timer =>
    simp only [step] at stepped
    split at stepped
    · rename_i due
      cases stepped
      refine ⟨[some (.fire timer)], exec_single ?_, rfl⟩
      simp only [lifecycle, WebSocketComponent.step]
      rw [if_pos due]
      have above := @call_above (do
          StompPage.component.lift (modify fun component =>
            { component with pending := component.pending.filter (· ≠ timer) })
          timeout) (do
          modify fun component => { component with pending := component.pending.filter (· ≠ timer) }
          WebSocketComponent.timeout) (refines_bind (refines_lift _) fun _ => refines_timeout) page
      exact congrArg some above
    · cases stepped
  | beat interval now =>
    simp only [step] at stepped
    split at stepped
    · cases stepped
      obtain ⟨steps, ran, plain⟩ := @beat_refines props page interval now
      exact ⟨steps, ran, by simp [plain]⟩
    · cases stepped
  | sendMsg msg =>
    cases stepped
    exact ⟨[], congrArg some sendMsg_component.symm, rfl⟩
  | ack received =>
    simp only [step, Option.ite_none_right_eq_some, Option.some_inj] at stepped
    obtain ⟨steps, ran, plain⟩ := @acknowledge_refines props page (js "ACK") received
    refine ⟨steps, ?_, by simp [plain]⟩
    rw [ran, ← stepped.2, StompPage.ack]
  | nack received =>
    simp only [step, Option.ite_none_right_eq_some, Option.some_inj] at stepped
    obtain ⟨steps, ran, plain⟩ := @acknowledge_refines props page (js "NACK") received
    refine ⟨steps, ?_, by simp [plain]⟩
    rw [ran, ← stepped.2, StompPage.nack]
  | beforeDestroy =>
    cases stepped
    refine ⟨[none], exec_single ?_, rfl⟩
    exact congrArg some (call_above refines_beforeDestroy page)

/-- Whatever happens to a page whose server only sends messages that it was asked
for, its component and its sockets do what the model says, up to the component's
end and beyond it. -/
theorem page_refines {supported : Bool} {events : List Event}
    (expected : EachStep (step draw props) (mounted supported) events Expected)
    (ran : exec (step draw props) (mounted supported) events = some page) :
    ∃ steps, exec (lifecycle props) (WebSocketComponent.mounted supported) steps = some page.component ∧
      steps.count none = events.count .beforeDestroy := by
  have both : Each Asked page ∧ ∃ steps, exec (lifecycle props) (WebSocketComponent.mounted supported) steps =
      some page.component ∧ steps.count none = events.count .beforeDestroy := by
    refine exec_lawful (fun before page => Each Asked page ∧ ∃ steps,
      exec (lifecycle props) (WebSocketComponent.mounted supported) steps = some page.component ∧
        steps.count none = before.count .beforeDestroy) ?_ ?_ expected ran
    · exact ⟨each_mounted (closed_asked.new 0) supported, [], by cases supported <;> rfl, rfl⟩
    · rintro history page event next ⟨each, before, ranBefore, counted⟩ expected stepped
      obtain ⟨after, ranAfter, last⟩ := step_refines each expected stepped
      refine ⟨each_step closed_asked fine_any allowed_any each stepped, before ++ after, ?_, ?_⟩
      · rw [exec_append, ranBefore]
        exact ranAfter
      · rw [List.count_append, List.count_append, counted, last]
  exact both.2

/-- A server that confirms the connection, sends a message that arrives in two
pieces, and fails. -/
private def talk : List Event :=
  [.opened 0, .message 0 (js "CONNECTED\nversion:1.2\nheart-beat:0,10000\n\n" ++ [NULL]) 5,
    .message 0 (js "MESSAGE\nsubscription:sub-7-0\nack:7\n\nhel") 6, .message 0 (js "lo" ++ [NULL]) 7,
    .sendMsg (js "ls"), .lost 0, .closed 0, .fire 0, .beforeDestroy]

theorem talk_refines : ∃ page, exec (step (fun n => (7, n)) {}) (mounted true) talk = some page ∧
    ∃ steps, exec (lifecycle {}) (WebSocketComponent.mounted true) steps = some page.component ∧
      steps.count none = talk.count .beforeDestroy := by
  have runs : (exec (step (fun n => (7, n)) {}) (mounted true) talk).isSome = true := by decide +kernel
  obtain ⟨page, ran⟩ := Option.isSome_iff_exists.mp runs
  exact ⟨page, ran, page_refines (by decide +kernel) ran⟩

end Steps

end Tomas.PageRefinement
