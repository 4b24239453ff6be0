import Tomas.PageChanges
import Tomas.Runs

/-! What holds of every socket and its client in every run of a page. A property
of such pairs that the single changes keep is kept by each event, whatever text
arrives and wherever a callback stops. -/
namespace Tomas.PageInvariants
open Tomas.JsStrings Tomas.Methods Tomas.Runs Tomas.StompFrames Tomas.Views Tomas.StompPage
open Tomas.PageChanges
open Tomas.WebSocketComponent (Component Props Socket ReadyState)

/-- A socket that no longer listens, or has gone further towards its end. -/
def Leaving (socket after : Socket) : Prop :=
  after.subscriptions = socket.subscriptions ∧
    (after.readyState = socket.readyState ∨ after.readyState = .closing ∨ after.readyState = .closed)

/-- A client that nothing has happened to. -/
def fresh : Client := { headers := .of [(js "id", .text (js "starter"))] }

/-- What the single changes of a callback keep. -/
structure Calm (good : Frame → Prop) (P : Nat → Socket → Client → Prop) : Prop where
  quiet : ∀ index socket stomp after, Quiet stomp after → P index socket stomp → P index socket after
  frame : ∀ index socket stomp frame text, socket.readyState = .opened → good frame →
    marshall frame = .ok text → P index socket stomp →
    P index socket { stomp with sent := stomp.sent ++ cut text, transmitted := stomp.transmitted ++ [frame] }
  ping : ∀ index socket stomp, socket.readyState = .opened → P index socket stomp →
    P index socket { stomp with sent := stomp.sent ++ [[LF]], transmitted := stomp.transmitted ++ [] }
  asked : ∀ index (socket : Socket) (stomp : Client) id, id ∈ stomp.subscriptions → P index socket stomp →
    P index { socket with subscriptions := socket.subscriptions + 1 }
      { stomp with subscribed := stomp.subscribed ++ [id] }
  beats : ∀ index socket stomp pinger ponger, P index socket stomp →
    P index socket { stomp with pinger, ponger }

/-- What everything else keeps too that comes from the page and its sockets. -/
structure Steady (good : Frame → Prop) (P : Nat → Socket → Client → Prop) : Prop extends Calm good P where
  opens : ∀ index (socket : Socket) (stomp : Client) text, socket.readyState = .connecting →
    marshall (connectFrame stomp.headers) = .ok text → P index socket stomp →
    P index (socket.become .opened) { stomp with
      headers := connectHeaders stomp.headers
      sent := stomp.sent ++ cut text
      transmitted := stomp.transmitted ++ [connectFrame stomp.headers] }
  leaves : ∀ index socket stomp after, Leaving socket after → P index socket stomp → P index after stomp

/-- What a message keeps as well, whatever its text, and a new client starts with. -/
structure Closed (good : Frame → Prop) (P : Nat → Socket → Client → Prop) : Prop extends Steady good P where
  reads : ∀ index socket stomp serverActivity partialData, P index socket stomp →
    P index socket { stomp with serverActivity, partialData }
  new : ∀ index, P index {} fresh

/-- The frames that are sent whatever has been received. -/
structure Fine (draw : Nat → Nat × Nat) (good : Frame → Prop) : Prop where
  subscribe : ∀ n, good (subscribeFrame (js "sub-" ++ createId (draw n)) topic)
  disconnect : good { command := js "DISCONNECT" }

def Any (_ : Frame) : Prop := True

theorem fine_any {draw : Nat → Nat × Nat} : Fine draw Any := ⟨fun _ => trivial, trivial⟩

/-- The frames an event asks for. -/
def Allowed (good : Frame → Prop) : Event → Prop
  | .sendMsg msg => good (sendFrame (js "/app/getCmd") (js "[object Object]") (numbered msg))
  | .ack received => ∀ idAttr, idAttr = js "id" ∨ idAttr = js "message-id" →
    good (acknowledgeFrame (js "ACK") idAttr received)
  | .nack received => ∀ idAttr, idAttr = js "id" ∨ idAttr = js "message-id" →
    good (acknowledgeFrame (js "NACK") idAttr received)
  | _ => True

/-- What the end of a component does to its client. -/
def leave (index : Nat) : Method Unit := do
  component.lift (modify fun component => component.update index fun socket =>
    { socket with onclose := false })
  component.lift (modify fun component => component.update index Socket.close)
  cleanUp index

/-- A property of pages that all their methods keep that are not about a text. -/
structure Lasts (props : Props) (good : Frame → Prop) (Q : Page → Prop) : Prop where
  change : ∀ page next, Change good page next → Q page → Q next
  opens : ∀ (page : Page) (index : Nat) (socket : Socket), page.component.sockets[index]? = some socket →
    socket.readyState = .connecting → Q page → Q (call (do become .opened index; onopen index) page)
  closes : ∀ page index, Q page →
    Q (call (component.lift (modify fun component => component.update index Socket.close)) page)
  leaves : ∀ page index, Q page → Q (call (leave index) page)
  closed : ∀ (page : Page) (index : Nat) (socket : Socket), page.component.sockets[index]? = some socket →
    socket.readyState = .closing → Q page →
    Q (call (do become .closed index; if socket.onclose then onclose props index) page)

/-- What is left alone by whatever brings neither a text nor a new socket. -/
structure Framed (page next : Page) : Prop where
  received : next.received = page.received
  stompClient : next.component.stompClient = page.component.stompClient
  length : next.clients.length = page.clients.length
  intervals : next.intervals ⊆ page.intervals

/-- The page when the text of a message has been taken apart. -/
def arrives (page : Page) (index : Nat) (data : JsString) (now : Nat) : Page :=
  page.update index fun stomp =>
    { stomp with serverActivity := some now, partialData :=
        (StompStreams.onmessage (page.client index).partialData data).2 }

section Steps

variable {draw : Nat → Nat × Nat} {props : Props} {good : Frame → Prop}
  {P : Nat → Socket → Client → Prop} {page next : Page} {index : Nat} {frame : Frame}
  {event : Event} {data : JsString} {now : Nat}

theorem onSocket_cases {enabled : Socket → Bool} {handle : Socket → Page}
    (handled : onSocket page index enabled handle = some next) :
    ∃ socket, page.component.sockets[index]? = some socket ∧ enabled socket = true ∧
      next = handle socket := by
  unfold onSocket at handled
  cases found : page.component.sockets[index]? with
  | none => simp [found] at handled
  | some socket =>
    simp only [found] at handled
    split at handled
    · rename_i able
      cases handled
      exact ⟨socket, rfl, able, rfl⟩
    · cases handled

theorem keeps_does {α : Type} {body : Method α} (calm : Calm good P) (does : Does (Change good) body) :
    Keeps (Each P) body :=
  keeps_of_does (fun _ _ => each_change calm.quiet calm.frame calm.ping calm.asked) does

private theorem keeps_socket (steady : Steady good P) {change : Socket → Socket}
    (leaves : ∀ socket, Leaving socket (change socket)) :
    Keeps (Each P) (component.lift (modify fun component => component.update index change) : Method Unit) :=
  fun _ each => each_socket each rfl rfl fun socket stomp _ _ =>
    steady.leaves index socket stomp _ (leaves socket)

private theorem keeps_cleanUp (steady : Steady good P) : Keeps (Each P) (cleanUp index) := by
  intro page each
  rw [cleanUp_eq]
  refine each_update each rfl rfl fun socket stomp _ _ => ?_
  exact steady.quiet index socket stomp _ ⟨false, stomp.version, [], by simp⟩

theorem keeps_onframe (calm : Calm good P) (fine : Fine draw good) :
    Keeps (Each P) (onframe draw props index frame) := by
  intro page each
  by_cases connected : frame.command = js "CONNECTED"
  · obtain ⟨version, ping, pong, same, -⟩ := @onframe_connected draw props index frame page connected
    rw [same]
    apply keeps_does calm (does_connectCallback fine.subscribe) _
    refine each_start calm.beats (each_start calm.beats (each_update each rfl rfl ?_))
    intro socket stomp _ _
    exact calm.quiet index socket stomp _ ⟨true, version, [], by simp⟩
  · by_cases message : frame.command = js "MESSAGE"
    · rw [onframe_message message, onreceive_eq]
      dsimp only
      split
      · exact each_of_same each rfl rfl
      · exact each
    · rw [onframe_rest connected message]
      split
      · exact keeps_does calm does_errorCallback page each
      · exact each

/-- No frame adds a client or replaces the current one. -/
theorem onframe_frame : (onframe draw props index frame page).2.clients.length = page.clients.length ∧
    (onframe draw props index frame page).2.component.stompClient = page.component.stompClient := by
  by_cases connected : frame.command = js "CONNECTED"
  · obtain ⟨version, ping, pong, same, -⟩ := @onframe_connected draw props index frame page connected
    obtain ⟨client, length, -⟩ := does_frame (does_connectCallback fine_any.subscribe : Does (Change Any)
      (connectCallback draw)) (start (start (page.update index fun stomp =>
        { stomp with connected := true, version }) index .pinger ping) index .ponger pong)
    rw [same, client, length, start_length, start_length, start_component, start_component]
    exact ⟨by simp [Page.update], rfl⟩
  · by_cases message : frame.command = js "MESSAGE"
    · rw [onframe_message message, onreceive_eq]
      dsimp only
      split <;> exact ⟨rfl, rfl⟩
    · rw [onframe_rest connected message]
      split
      · obtain ⟨client, length, -⟩ := does_frame
          (does_errorCallback : Does (Change Any) (errorCallback props)) page
        exact ⟨length, client⟩
      · exact ⟨rfl, rfl⟩

theorem keeps_onframes (calm : Calm good P) (fine : Fine draw good) {frames : List Frame} :
    Keeps (Each P) (onframes draw props index frames) := by
  induction frames with
  | nil => exact keeps_pure ()
  | cons frame frames ih => exact keeps_bind (keeps_onframe calm fine) fun _ => ih

private theorem leaving_close (socket : Socket) : Leaving socket socket.close := by
  obtain ⟨readyState, onclose, subscriptions⟩ := socket
  cases readyState <;> simp [Leaving, Socket.close, Socket.become]

theorem lasts_each (steady : Steady good P) : Lasts props good (Each P) where
  change _ _ := each_change steady.quiet steady.frame steady.ping steady.asked
  opens page index socket found connecting each := by
    have inside := (List.getElem?_eq_some_iff.mp found).1
    have here := List.getElem?_eq_getElem (each.length ▸ inside : index < page.clients.length)
    obtain ⟨text, written, same⟩ := opened_eq found here
    rw [same]
    apply each_modify each rfl rfl
    intro before stomp there known
    rw [found] at there
    rw [here] at known
    cases there
    cases known
    exact steady.opens index socket _ text connecting written
  closes page index := keeps_socket steady leaving_close page
  leaves page index := by
    have silent : Keeps (Each P) (component.lift (modify fun component => component.update index fun socket =>
        { socket with onclose := false }) : Method Unit) := keeps_socket steady fun _ => ⟨rfl, Or.inl rfl⟩
    refine keeps_bind silent (fun _ => ?_) page
    exact keeps_bind (keeps_socket steady leaving_close) fun _ => keeps_cleanUp steady
  closed page index socket _ _ := by
    have gone : Keeps (Each P) (become .closed index) :=
      keeps_socket steady fun _ => ⟨rfl, Or.inr (Or.inr rfl)⟩
    refine keeps_bind gone (fun _ => ?_) page
    split
    · exact keeps_bind (keeps_cleanUp steady) fun _ => keeps_does steady.toCalm does_errorCallback
    · exact keeps_pure ()

theorem lasts_and {Q R : Page → Prop} (first : Lasts props good Q) (second : Lasts props good R) :
    Lasts props good fun page => Q page ∧ R page where
  change page next change both := ⟨first.change page next change both.1, second.change page next change both.2⟩
  opens page index socket found state both :=
    ⟨first.opens page index socket found state both.1, second.opens page index socket found state both.2⟩
  closes page index both := ⟨first.closes page index both.1, second.closes page index both.2⟩
  leaves page index both := ⟨first.leaves page index both.1, second.leaves page index both.2⟩
  closed page index socket found state both :=
    ⟨first.closed page index socket found state both.1, second.closed page index socket found state both.2⟩

private theorem framed_update {change : Client → Client} (framed : Framed next page) :
    Framed next (page.update index change) :=
  ⟨framed.received, framed.stompClient, by simp [Page.update, framed.length], framed.intervals⟩

private theorem framed_clearInterval {interval : Option Nat} (framed : Framed next page) :
    Framed next (page.clearInterval interval) :=
  ⟨framed.received, framed.stompClient, framed.length,
    List.Subset.trans (List.filter_subset_self _) framed.intervals⟩

private theorem framed_cleanUp : Keeps (Framed next) (cleanUp index) := by
  intro page framed
  rw [cleanUp_eq]
  exact framed_clearInterval (framed_clearInterval (framed_update framed))

private theorem framed_become {readyState : ReadyState} : Keeps (Framed next) (become readyState index) :=
  fun _ framed => ⟨framed.received, framed.stompClient, framed.length, framed.intervals⟩

private theorem framed_does {α : Type} {body : Method α} (does : Does (Change Any) body) :
    Keeps (Framed next) body := by
  intro page framed
  obtain ⟨stompClient, length, intervals, -, received⟩ := does_frame does page
  exact ⟨received.trans framed.received, stompClient.trans framed.stompClient, length.trans framed.length,
    intervals ▸ framed.intervals⟩

private theorem framed_refl : Framed page page := ⟨rfl, rfl, rfl, List.Subset.refl _⟩

/-- What such properties are made of. -/
theorem lasts_framed {Q : Page → Prop} (kept : ∀ page next, Framed page next → Q page → Q next) :
    Lasts props good Q where
  change page next change := by
    obtain ⟨stompClient, length, intervals, -, received⟩ := change_frame change
    exact kept page next ⟨received, stompClient, length, intervals ▸ List.Subset.refl _⟩
  opens page index _ _ _ := by
    have writes : Keeps (Framed page) (onopen index) := by
      refine keeps_bind (fun _ => framed_update) fun _ => keeps_get fun _ => ?_
      exact keeps_bind (framed_does (does_transmit trivial)) fun _ => keeps_pure ()
    exact kept page _ (keeps_bind framed_become (fun _ => writes) page framed_refl)
  closes page index := kept page _ ⟨rfl, rfl, rfl, List.Subset.refl _⟩
  leaves page index := kept page _ (framed_cleanUp _ ⟨rfl, rfl, rfl, List.Subset.refl _⟩)
  closed page index socket _ _ := by
    refine kept page _ (keeps_bind framed_become (fun _ => ?_) page framed_refl)
    split
    · exact keeps_bind framed_cleanUp fun _ => framed_does does_errorCallback
    · exact keeps_pure ()

/-- A frame is handed on at most once. -/
theorem received_onframe : (onframe draw props index frame page).2.received = page.received ∨
    frame.command = js "MESSAGE" ∧ (onframe draw props index frame page).2 = handed page index frame := by
  by_cases connected : frame.command = js "CONNECTED"
  · obtain ⟨version, ping, pong, same, -⟩ := @onframe_connected draw props index frame page connected
    apply Or.inl
    rw [same, (does_frame (does_connectCallback fine_any.subscribe) _).2.2.2.2, start_received,
      start_received]
    rfl
  · by_cases message : frame.command = js "MESSAGE"
    · rw [onframe_message message, onreceive_eq]
      dsimp only
      split
      · exact Or.inr ⟨message, rfl⟩
      · exact Or.inl rfl
    · rw [onframe_rest connected message]
      split
      · exact Or.inl rfl
      · exact Or.inl rfl

/-! ## Events -/

private theorem keeps_lasting {Q : Page → Prop} (lasts : Lasts props good Q) {α : Type} {body : Method α}
    (does : Does (Change good) body) : Keeps Q body := keeps_of_does lasts.change does

private theorem keeps_timeout {Q : Page → Prop} (connects : ∀ page, Q page → Q (call connection page)) :
    Keeps Q timeout := by
  refine keeps_bind (keeps_lift fun _ => id) fun known => ?_
  split
  · exact connects
  · exact keeps_pure ()

private theorem keeps_disconnect {Q : Page → Prop} (lasts : Lasts props good Q) (fine : Fine draw good) :
    Keeps Q disconnect := by
  refine keeps_bind (keeps_lift fun _ => id) fun known => ?_
  cases known.stompClient with
  | none => exact keeps_pure ()
  | some client =>
    exact keeps_bind (keeps_lasting lasts (does_transmit fine.disconnect)) fun _ page =>
      lasts.leaves page client

private theorem keeps_beforeDestroy {Q : Page → Prop} (lasts : Lasts props good Q) (fine : Fine draw good) :
    Keeps Q beforeDestroy := by
  have ends : Does (Change good) (do
      component.lift (do WebSocketComponent.clearTimeout (← get).timer)
      component.lift (do WebSocketComponent.clearTimeout (← get).delayTimer)
      component.lift (modify fun component => { component with connectCnt := 0 })) :=
    does_bind (does_lift fun _ => .data rfl rfl) fun _ => does_bind (does_lift fun _ => .data rfl rfl)
      fun _ => does_lift fun _ => .data rfl rfl
  exact keeps_bind (keeps_disconnect lasts fine) fun _ => keeps_lasting lasts ends

private theorem keeps_beat {Q : Page → Prop} (lasts : Lasts props good Q) {interval : Interval} {now : Nat} :
    Keeps Q (beat interval now) := by
  unfold beat
  split
  · exact keeps_bind (keeps_lasting lasts does_ping) fun _ => keeps_pure ()
  · apply keeps_get
    intro page
    split
    · dsimp only
      split
      · exact fun page => lasts.closes page interval.client
      · exact keeps_pure ()
    · exact keeps_pure ()

theorem text_or_mute (event : Event) : (∃ index data now, event = .message index data now) ∨
    ∀ index data now, event ≠ .message index data now := by
  cases event with
  | message index data now => exact Or.inl ⟨index, data, now, rfl⟩
  | opened | lost | closed | fire | beat | sendMsg | ack | nack | beforeDestroy => exact Or.inr (by simp)

theorem allowed_any : Allowed Any event := by
  cases event <;> simp [Allowed, Any]

theorem connection_length : (call connection page).clients.length = page.clients.length + 1 := by
  simp [call, connection, bind_apply, lift_apply, modify_apply, WebSocketComponent.connection]

theorem arrives_length : (arrives page index data now).clients.length = page.clients.length := by
  simp [arrives, Page.update]

/-- An event that brings no text. -/
theorem lasts_step {Q : Page → Prop} (lasts : Lasts props good Q)
    (connects : ∀ page, Q page → Q (call connection page)) (fine : Fine draw good)
    (allowed : Allowed good event) (mute : ∀ index data now, event ≠ .message index data now)
    (stepped : step draw props page event = some next) (holds : Q page) : Q next := by
  cases event with
  | opened index =>
    obtain ⟨socket, found, connecting, rfl⟩ := onSocket_cases stepped
    exact lasts.opens page index socket found (beq_iff_eq.mp connecting) holds
  | message index data now => exact absurd rfl (mute index data now)
  | lost index =>
    obtain ⟨socket, found, able, rfl⟩ := onSocket_cases stepped
    have closes : socket.become .closing = socket.close := by
      cases state : socket.readyState <;> simp_all [Socket.close]
    have same := lasts.closes page index holds
    rw [call, lift_apply, modify_apply, component_view, ← update_congr found closes] at same
    exact same
  | closed index =>
    obtain ⟨socket, found, closing, rfl⟩ := onSocket_cases stepped
    exact lasts.closed page index socket found (beq_iff_eq.mp closing) holds
  | fire timer =>
    simp only [step] at stepped
    split at stepped
    · cases stepped
      have cleared : Does (Change good) (component.lift (modify fun component =>
          { component with pending := component.pending.filter (· ≠ timer) }) : Method Unit) :=
        does_lift fun _ => .data rfl rfl
      exact keeps_bind (keeps_lasting lasts cleared) (fun _ => keeps_timeout connects) page holds
    · cases stepped
  | beat interval now =>
    simp only [step] at stepped
    split at stepped
    · cases stepped
      exact keeps_beat lasts page holds
    · cases stepped
  | sendMsg msg =>
    cases stepped
    exact keeps_lasting lasts (does_sendMsg allowed) page holds
  | ack received | nack received =>
    simp only [step, Option.ite_none_right_eq_some, Option.some_inj] at stepped
    rw [← stepped.2]
    exact keeps_lasting lasts (does_acknowledge allowed) page holds
  | beforeDestroy =>
    cases stepped
    exact keeps_beforeDestroy lasts fine page holds

/-- The text of an event is kept before a frame of it is looked at. -/
theorem message_step (stepped : step draw props page (.message index data now) = some next) :
    next = call (onframes draw props index (StompStreams.onmessage (page.client index).partialData data).1)
      (arrives page index data now) := by
  obtain ⟨socket, found, -, rfl⟩ := onSocket_cases stepped
  rw [call, onmessage_eq]
  rfl

theorem each_step (closed : Closed good P) (fine : Fine draw good) (allowed : Allowed good event)
    (each : Each P page) (stepped : step draw props page event = some next) : Each P next := by
  cases event with
  | message index data now =>
    rw [message_step stepped]
    refine keeps_onframes closed.toCalm fine _ (each_update each rfl rfl ?_)
    intro socket stomp _ _
    exact closed.reads index socket stomp _ _
  | opened | lost | closed | fire | beat | sendMsg | ack | nack | beforeDestroy =>
    exact lasts_step (lasts_each closed.toSteady) (fun _ each => each_snoc each rfl rfl (closed.new _)) fine
      allowed (by simp) stepped each

theorem each_mounted (new : P 0 {} fresh) (supported : Bool) : Each P (mounted supported) := by
  have none : Each P {} := by
    refine ⟨rfl, ?_⟩
    intro index socket stomp there
    cases there
  cases supported with
  | true => exact each_snoc none rfl rfl new
  | false => exact none

end Steps

end Tomas.PageInvariants
