import Tomas.StompPage

/-! What the methods of a page do to it, apart from opening and closing sockets,
setting up heart-beats and handing messages on: the component's own data, text
that goes out of open sockets, and subscriptions. -/
namespace Tomas.PageChanges
open Tomas.JsStrings Tomas.Methods Tomas.StompFrames Tomas.Views Tomas.StompPage
open Tomas.WebSocketComponent (Component Props Socket)

/-- The pieces in which data goes out. -/
def cut (data : JsString) : List JsString :=
  (slices data.length data).1 ++ [(slices data.length data).2]

def Open (page : Page) (index : Nat) : Prop :=
  ∃ socket, page.component.sockets[index]? = some socket ∧ socket.readyState = .opened

/-- What a callback changes of a client besides what goes out of it. -/
def Quiet (stomp after : Client) : Prop :=
  ∃ connected version subscriptions, after =
    { stomp with connected, version, subscriptions := stomp.subscriptions ++ subscriptions }

/-- One change of a page, in which only good frames go out. -/
inductive Change (good : Frame → Prop) : Page → Page → Prop
  | data {page : Page} {after : Component} (sockets : after.sockets = page.component.sockets)
      (stompClient : after.stompClient = page.component.stompClient) :
      Change good page { page with component := after }
  | client {page : Page} {index : Nat} {change : Client → Client}
      (quiet : ∀ stomp, Quiet stomp (change stomp)) : Change good page (page.update index change)
  | created {page : Page} {created : Nat} : Change good page { page with created }
  | frame {page : Page} {index : Nat} {frame : Frame} {text : JsString} (opened : Open page index)
      (fine : good frame) (written : marshall frame = .ok text) :
      Change good page (page.put index (cut text) [frame])
  | ping {page : Page} {index : Nat} (opened : Open page index) :
      Change good page (page.put index [[LF]] [])
  | asked {page : Page} {index : Nat} {id : JsString}
      (known : ∀ stomp, page.clients[index]? = some stomp → id ∈ stomp.subscriptions) :
      Change good page (page.asked index id)

/-! ## Sockets and their clients -/

/-- There is a client to each socket, and each such pair has the property. -/
structure Each (P : Nat → Socket → Client → Prop) (page : Page) : Prop where
  length : page.clients.length = page.component.sockets.length
  pair : ∀ index socket stomp, page.component.sockets[index]? = some socket →
    page.clients[index]? = some stomp → P index socket stomp

/-- What two changes do to a socket decides what they do to the component. -/
theorem update_congr {component : Component} {index : Nat} {socket : Socket} {change other : Socket → Socket}
    (found : component.sockets[index]? = some socket) (agree : change socket = other socket) :
    component.update index change = component.update index other := by
  have same : component.sockets.modify index change = component.sockets.modify index other := by
    apply List.ext_getElem?
    intro place
    rw [List.getElem?_modify, List.getElem?_modify]
    by_cases here : index = place
    · subst here
      simp [found, agree]
    · simp [here]
  rw [WebSocketComponent.Component.update, same, WebSocketComponent.Component.update]

section Pairs

variable {P Q : Nat → Socket → Client → Prop} {page next : Page} {index : Nat}

theorem each_imp (each : Each P page)
    (implies : ∀ index socket stomp, P index socket stomp → Q index socket stomp) : Each Q page :=
  ⟨each.length, fun index socket stomp there here =>
    implies index socket stomp (each.pair index socket stomp there here)⟩

theorem each_of_same (each : Each P page) (sockets : next.component.sockets = page.component.sockets)
    (clients : next.clients = page.clients) : Each P next := by
  refine ⟨?_, ?_⟩
  · rw [clients, sockets, each.length]
  · rw [clients, sockets]
    exact each.pair

/-- One socket and its client change, and the others have what is asked for. -/
theorem each_turn {onSocket : Socket → Socket} {onClient : Client → Client} (each : Each P page)
    (sockets : next.component.sockets = page.component.sockets.modify index onSocket)
    (clients : next.clients = page.clients.modify index onClient)
    (turns : ∀ socket stomp, page.component.sockets[index]? = some socket →
      page.clients[index]? = some stomp → P index socket stomp → Q index (onSocket socket) (onClient stomp))
    (stay : ∀ other socket stomp, other ≠ index → P other socket stomp → Q other socket stomp) :
    Each Q next := by
  refine ⟨?_, ?_⟩
  · rw [clients, sockets, List.length_modify, List.length_modify, each.length]
  · intro other socket stomp there here
    rw [sockets, List.getElem?_modify] at there
    rw [clients, List.getElem?_modify] at here
    obtain ⟨socketBefore, oldSocket, rfl⟩ := Option.map_eq_some_iff.mp there
    obtain ⟨stompBefore, oldStomp, rfl⟩ := Option.map_eq_some_iff.mp here
    have before := each.pair other socketBefore stompBefore oldSocket oldStomp
    by_cases same : index = other
    · subst same
      simpa using turns socketBefore stompBefore oldSocket oldStomp before
    · simpa [same] using stay other socketBefore stompBefore (Ne.symm same) before

/-- A change of one socket and its client. -/
theorem each_modify {onSocket : Socket → Socket} {onClient : Client → Client} (each : Each P page)
    (sockets : next.component.sockets = page.component.sockets.modify index onSocket)
    (clients : next.clients = page.clients.modify index onClient)
    (kept : ∀ socket stomp, page.component.sockets[index]? = some socket →
      page.clients[index]? = some stomp → P index socket stomp → P index (onSocket socket) (onClient stomp)) :
    Each P next := each_turn each sockets clients kept fun _ _ _ _ => id

theorem each_update {change : Client → Client} (each : Each P page)
    (sockets : next.component.sockets = page.component.sockets)
    (clients : next.clients = page.clients.modify index change)
    (kept : ∀ socket stomp, page.component.sockets[index]? = some socket →
      page.clients[index]? = some stomp → P index socket stomp → P index socket (change stomp)) :
    Each P next :=
  each_modify each (sockets.trans (List.modify_id index _).symm) clients kept

theorem each_socket {change : Socket → Socket} (each : Each P page)
    (sockets : next.component.sockets = page.component.sockets.modify index change)
    (clients : next.clients = page.clients)
    (kept : ∀ socket stomp, page.component.sockets[index]? = some socket →
      page.clients[index]? = some stomp → P index socket stomp → P index (change socket) stomp) :
    Each P next :=
  each_modify each sockets (clients.trans (List.modify_id index _).symm) kept

/-- A socket with its client is added. -/
theorem each_snoc {socket : Socket} {stomp : Client} (each : Each P page)
    (sockets : next.component.sockets = page.component.sockets ++ [socket])
    (clients : next.clients = page.clients ++ [stomp]) (new : P page.clients.length socket stomp) :
    Each P next := by
  refine ⟨?_, ?_⟩
  · rw [clients, sockets, List.length_append, List.length_append, each.length]
    rfl
  · intro other there here found known
    rw [sockets] at found
    rw [clients] at known
    by_cases old : other < page.clients.length
    · rw [List.getElem?_append_left (each.length ▸ old)] at found
      rw [List.getElem?_append_left old] at known
      exact each.pair other there here found known
    · have inside := (List.getElem?_eq_some_iff.mp known).1
      rw [List.length_append, List.length_singleton] at inside
      have last : other = page.clients.length := by omega
      rw [last, List.getElem?_concat_length] at known
      rw [last, each.length, List.getElem?_concat_length] at found
      cases known
      cases found
      rw [last]
      exact new

/-- What a change of the page keeps. -/
theorem each_change {good : Frame → Prop}
    (quiet : ∀ index socket stomp after, Quiet stomp after → P index socket stomp → P index socket after)
    (frame : ∀ index socket stomp frame text, socket.readyState = .opened → good frame →
      marshall frame = .ok text → P index socket stomp →
      P index socket { stomp with sent := stomp.sent ++ cut text, transmitted := stomp.transmitted ++ [frame] })
    (ping : ∀ index socket stomp, socket.readyState = .opened → P index socket stomp →
      P index socket { stomp with sent := stomp.sent ++ [[LF]], transmitted := stomp.transmitted ++ [] })
    (asked : ∀ index (socket : Socket) (stomp : Client) id, id ∈ stomp.subscriptions → P index socket stomp →
      P index { socket with subscriptions := socket.subscriptions + 1 }
        { stomp with subscribed := stomp.subscribed ++ [id] })
    (change : Change good page next) (each : Each P page) : Each P next := by
  cases change with
  | data sockets _ => exact each_of_same each sockets rfl
  | client same => exact each_update each rfl rfl fun socket stomp _ _ => quiet _ socket stomp _ (same stomp)
  | created => exact ⟨each.length, each.pair⟩
  | frame opened fine written =>
    obtain ⟨socket, found, state⟩ := opened
    refine each_update each rfl rfl fun other stomp there _ => ?_
    rw [found] at there
    cases there
    exact frame _ socket stomp _ _ state fine written
  | ping opened =>
    obtain ⟨socket, found, state⟩ := opened
    refine each_update each rfl rfl fun other stomp there _ => ?_
    rw [found] at there
    cases there
    exact ping _ socket stomp state
  | asked known =>
    exact each_modify each rfl rfl fun socket stomp _ here => asked _ socket stomp _ (known stomp here)

/-- The rest of the page is left alone. -/
theorem change_frame {good : Frame → Prop} (change : Change good page next) :
    next.component.stompClient = page.component.stompClient ∧ next.clients.length = page.clients.length ∧
      next.intervals = page.intervals ∧ next.nextInterval = page.nextInterval ∧
      next.received = page.received := by
  cases change with
  | data _ stompClient => exact ⟨stompClient, rfl, rfl, rfl, rfl⟩
  | client | frame | ping | asked =>
    exact ⟨rfl, by simp [Page.update, Page.put, Page.asked], rfl, rfl, rfl⟩
  | created => exact ⟨rfl, rfl, rfl, rfl, rfl⟩

theorem does_frame {good : Frame → Prop} {α : Type} {body : Method α} (does : Does (Change good) body)
    (page : Page) :
    (body page).2.component.stompClient = page.component.stompClient ∧
      (body page).2.clients.length = page.clients.length ∧ (body page).2.intervals = page.intervals ∧
      (body page).2.nextInterval = page.nextInterval ∧ (body page).2.received = page.received := by
  have kept : Keeps (fun next : Page => next.component.stompClient = page.component.stompClient ∧
      next.clients.length = page.clients.length ∧ next.intervals = page.intervals ∧
      next.nextInterval = page.nextInterval ∧ next.received = page.received) body := by
    refine keeps_of_does (fun before after change holds => ?_) does
    obtain ⟨client, length, intervals, next, received⟩ := change_frame change
    rw [client, length, intervals, next, received]
    exact holds
  exact kept page ⟨rfl, rfl, rfl, rfl, rfl⟩

end Pairs

/-! ## Heart-beats -/

def start (page : Page) (index : Nat) (beat : Beat) : Option (Option Int) → Page
  | none => page
  | some ttl => page.setInterval index beat ttl

/-- At most one interval of each kind, and none that is impatient. -/
theorem setupHeartbeat_eq (page : Page) (index : Nat) (headers : Headers) :
    ∃ ping pong, setupHeartbeat index headers page =
        (.ok (), start (start page index .pinger ping) index .ponger pong) ∧
      ∀ ttl, pong = some (some ttl) → incoming ≤ ttl := by
  by_cases knows : (page.client index).version = some (js "1.1") ∨
      (page.client index).version = some (js "1.2")
  · have own : outgoing ≠ 0 ∧ incoming ≠ 0 := ⟨by decide, by decide⟩
    refine ⟨if (serverBeats headers).2 = some 0 then none else some ((serverBeats headers).2.map (max outgoing)),
      if (serverBeats headers).1 = some 0 then none else some ((serverBeats headers).1.map (max incoming)),
      ?_, ?_⟩
    · simp only [setupHeartbeat, bind_apply, get_apply, knows, if_true, own, false_or]
      by_cases receives : (serverBeats headers).2 = some 0
      · by_cases sends : (serverBeats headers).1 = some 0
        · simp only [receives, sends]
          rfl
        · simp only [receives, sends]
          rfl
      · by_cases sends : (serverBeats headers).1 = some 0
        · simp only [receives, sends]
          rfl
        · simp only [receives, sends]
          rfl
    · intro ttl chosen
      split at chosen
      · cases chosen
      · obtain ⟨server, -, same⟩ := Option.map_eq_some_iff.mp (Option.some_inj.mp chosen)
        rw [← same]
        exact Int.le_max_left _ _
  · refine ⟨none, none, ?_, ?_⟩
    · simp only [setupHeartbeat, bind_apply, get_apply, knows, if_false]
      rfl
    · intro ttl impossible
      cases impossible

theorem start_component {page : Page} {index : Nat} {beat : Beat} {ttl : Option (Option Int)} :
    (start page index beat ttl).component = page.component := by
  cases ttl <;> rfl

theorem start_received {page : Page} {index : Nat} {beat : Beat} {ttl : Option (Option Int)} :
    (start page index beat ttl).received = page.received := by
  cases ttl <;> rfl

theorem start_length {page : Page} {index : Nat} {beat : Beat} {ttl : Option (Option Int)} :
    (start page index beat ttl).clients.length = page.clients.length := by
  cases ttl with
  | none => rfl
  | some ttl => simp [start, Page.setInterval, Page.update]

theorem each_start {P : Nat → Socket → Client → Prop} {page : Page} {index : Nat} {beat : Beat}
    {ttl : Option (Option Int)}
    (kept : ∀ index socket stomp pinger ponger, P index socket stomp →
      P index socket { stomp with pinger, ponger })
    (each : Each P page) : Each P (start page index beat ttl) := by
  cases ttl with
  | none => exact each
  | some ttl =>
    cases beat with
    | pinger => exact each_update each rfl rfl fun socket stomp _ _ => kept index socket stomp _ stomp.ponger
    | ponger => exact each_update each rfl rfl fun socket stomp _ _ => kept index socket stomp stomp.pinger _

theorem cleanUp_eq (page : Page) (index : Nat) : cleanUp index page =
    (.ok (), ((page.update index fun stomp => { stomp with connected := false }).clearInterval
      (page.client index).pinger).clearInterval (page.client index).ponger) := by
  have known : (page.update index fun stomp => { stomp with connected := false }).client index =
      { page.client index with connected := false } := by
    simp only [Page.client, Page.update, List.getElem?_modify_eq]
    cases page.clients[index]? <;> rfl
  simp only [cleanUp, bind_apply, modify_apply, known]
  exact congrArg (fun interval => (Except.ok (), Page.clearInterval _ interval))
    (congrArg Client.ponger known)

/-! ## Sending -/

section Sending

variable {good : Frame → Prop} {page : Page} {index : Nat} {socket : Socket} {pieces more : List JsString}
  {frames others : List Frame} {frame : Frame} {data text : JsString}

theorem put_put : (page.put index pieces frames).put index more others =
    page.put index (pieces ++ more) (frames ++ others) := by
  simp [Page.put, Page.update, List.modify_modify_eq, Function.comp_def]

theorem send_frame {component : Component} : (WebSocketComponent.send index component).2 = component := by
  cases found : component.sockets[index]? with
  | none => simp [WebSocketComponent.send, bind_apply, get_apply, pure_apply, found]
  | some socket =>
    rw [WebSocketComponent.send_eq found]
    cases socket.readyState <;> rfl

theorem opened_of_sends (sends : (WebSocketComponent.send index page.component).1 = .ok true) :
    Open page index := by
  cases found : page.component.sockets[index]? with
  | none => simp [WebSocketComponent.send, bind_apply, get_apply, pure_apply, found] at sends
  | some socket =>
    rw [WebSocketComponent.send_eq found] at sends
    refine ⟨socket, found, ?_⟩
    cases state : socket.readyState <;> simp_all

theorem sends_of_opened (opened : Open page index) :
    (WebSocketComponent.send index page.component).1 = .ok true := by
  obtain ⟨socket, found, state⟩ := opened
  rw [WebSocketComponent.send_eq found, state]

theorem marshall_bodyless (empty : frame.body = []) : ∃ text, marshall frame = .ok text := by
  simp only [marshall, Frame.toString, empty, ne_eq, not_true_eq_false, decide_false, Bool.false_and,
    Bool.false_eq_true, if_false]
  exact ⟨_, rfl⟩

/-- A socket takes a piece, drops it or refuses it. -/
private theorem wsSendPiece_eq (piece : JsString) : wsSendPiece index piece page =
    ((WebSocketComponent.send index page.component).1,
      if (WebSocketComponent.send index page.component).1 = .ok true then page.put index [piece] []
      else page) := by
  simp only [wsSendPiece, bind_apply, lift_apply, component_view, component_put, send_frame]
  cases (WebSocketComponent.send index page.component).1 with
  | error cause => rfl
  | ok out => cases out <;> rfl

/-- It does the same with the pieces that come after it. -/
private theorem sendPieces_eq (rest : JsString) : sendPieces index pieces rest page =
    ((WebSocketComponent.send index page.component).1,
      if (WebSocketComponent.send index page.component).1 = .ok true then
        page.put index (pieces ++ [rest]) []
      else page) := by
  induction pieces generalizing page with
  | nil => exact wsSendPiece_eq rest
  | cons piece pieces ih =>
    rw [sendPieces, bind_apply, wsSendPiece_eq]
    cases sends : (WebSocketComponent.send index page.component).1 with
    | error cause => rfl
    | ok out =>
      cases out with
      | true =>
        have later := @ih (page.put index [piece] [])
        rw [put_put, show (page.put index [piece] []).component = page.component from rfl, sends] at later
        exact later
      | false =>
        have later := @ih page
        rw [sends] at later
        exact later

theorem wsSend_eq (data : JsString) : wsSend index data page =
    ((WebSocketComponent.send index page.component).1,
      if (WebSocketComponent.send index page.component).1 = .ok true then page.put index (cut data) []
      else page) := sendPieces_eq _

/-- What a client does with a frame depends on its socket, as it does with one piece. -/
theorem transmit_eq (written : marshall frame = .ok text) : transmit index frame page =
    ((WebSocketComponent.send index page.component).1,
      if (WebSocketComponent.send index page.component).1 = .ok true then
        page.put index (cut text) [frame]
      else page) := by
  simp only [transmit, written, bind_apply, wsSend_eq]
  cases sends : (WebSocketComponent.send index page.component).1 with
  | error cause => rfl
  | ok out =>
    cases out with
    | true =>
      have both := @put_put page index (cut text) [] [] [frame]
      rw [List.append_nil] at both
      exact Prod.ext rfl both
    | false => rfl

end Sending

/-! ## The methods -/

section Methods

variable {draw : Nat → Nat × Nat} {props : Props} {good : Frame → Prop} {index : Nat} {frame : Frame}
  {destination : JsString}

theorem does_transmit (fine : good frame) : Does (Change good) (transmit index frame) := by
  intro page
  cases written : marshall frame with
  | error cause =>
    simp only [transmit, written]
    exact does_throw cause page
  | ok text =>
    rw [transmit_eq written]
    dsimp only
    split
    · rename_i sends
      exact .single (.frame (opened_of_sends sends) fine written)
    · exact .refl

theorem does_ping : Does (Change good) (wsSend index [LF]) := by
  intro page
  rw [wsSend_eq]
  dsimp only
  split
  · rename_i sends
    exact .single (.ping (opened_of_sends sends))
  · exact .refl

private theorem does_record (action : WebSocketComponent.Action) :
    Does (Change good) (component.lift (WebSocketComponent.record action)) :=
  does_lift fun _ => .data rfl rfl

/-- The subscription is kept before the frame goes out. -/
private theorem does_asking {id : JsString} (fine : good (subscribeFrame id destination)) :
    Does (Change good) (do
      modify fun page => page.update index fun stomp =>
        { stomp with subscriptions := stomp.subscriptions ++ [id] }
      if ← transmit index (subscribeFrame id destination) then modify fun page => page.asked index id) := by
  intro page
  obtain ⟨text, written⟩ := @marshall_bodyless (subscribeFrame id destination) rfl
  have kept : Change good page (page.update index fun stomp =>
      { stomp with subscriptions := stomp.subscriptions ++ [id] }) :=
    .client fun stomp => ⟨stomp.connected, stomp.version, [id], rfl⟩
  rw [bind_apply, modify_apply]
  dsimp only
  rw [bind_apply, transmit_eq written]
  by_cases sends : (WebSocketComponent.send index (page.update index fun stomp =>
      { stomp with subscriptions := stomp.subscriptions ++ [id] }).component).1 = .ok true
  · rw [sends, if_pos rfl]
    refine ((Relation.ReflTransGen.single kept).tail (.frame (opened_of_sends sends) fine written)).tail
      (.asked fun stomp here => ?_)
    obtain ⟨before, there, rfl⟩ := Option.map_eq_some_iff.mp ((List.getElem?_modify_eq ..).symm.trans here)
    obtain ⟨old, -, rfl⟩ := Option.map_eq_some_iff.mp ((List.getElem?_modify_eq ..).symm.trans there)
    simp
  · rw [if_neg sends]
    refine .single ?_
    revert sends
    cases (WebSocketComponent.send index (page.update index fun stomp =>
        { stomp with subscriptions := stomp.subscriptions ++ [id] }).component).1 with
    | error cause => exact fun _ => kept
    | ok out =>
      cases out with
      | true => exact fun impossible => absurd rfl impossible
      | false => exact fun _ => kept

private theorem does_subscribe (fine : ∀ n, good (subscribeFrame (js "sub-" ++ createId (draw n)) destination)) :
    Does (Change good) (subscribe draw index destination) := by
  refine does_bind (does_record _) fun _ => does_get fun page => ?_
  exact does_bind (does_modify fun _ => .created) fun _ => does_asking (fine _)

/-- What the component subscribes to. -/
def topic : JsString := js "/topic/message"

theorem does_connectCallback (fine : ∀ n, good (subscribeFrame (js "sub-" ++ createId (draw n)) topic)) :
    Does (Change good) (connectCallback draw) := by
  apply does_bind (does_lift fun _ => .data rfl rfl)
  intro known
  cases known.stompClient with
  | none => exact does_throw _
  | some client =>
    apply does_bind (does_subscribe fine)
    intro _
    exact does_bind (does_lift fun _ => .data rfl rfl) fun _ => does_lift fun _ => .data rfl rfl

theorem does_errorCallback : Does (Change good) (errorCallback props) := by
  apply does_lift
  intro page
  obtain ⟨sockets, stompClient, -⟩ := @WebSocketComponent.errorCallback_frame props page.component
  exact .data sockets stompClient

theorem does_sendMsg {msg : JsString}
    (fine : good (sendFrame (js "/app/getCmd") (js "[object Object]") (numbered msg))) :
    Does (Change good) (sendMsg msg) := by
  apply does_bind (does_lift fun _ => .data rfl rfl)
  intro known
  cases known.stompClient with
  | none => exact does_throw _
  | some client => exact does_bind (does_transmit fine) fun _ => does_pure ()

/-- The heart-beats are set up before the component is told. -/
theorem onframe_connected {page : Page} (named : frame.command = js "CONNECTED") :
    ∃ version ping pong, onframe draw props index frame page =
        connectCallback draw (start (start (page.update index fun stomp =>
          { stomp with connected := true, version }) index .pinger ping) index .ponger pong) ∧
      ∀ ttl, pong = some (some ttl) → incoming ≤ ttl := by
  obtain ⟨ping, pong, beats, patient⟩ := setupHeartbeat_eq (page.update index fun stomp =>
    { stomp with connected := true, version := (frame.headers.get (js "version")).map Value.toString })
    index frame.headers
  refine ⟨(frame.headers.get (js "version")).map Value.toString, ping, pong, ?_, patient⟩
  simp only [onframe, named, if_true, bind_apply, modify_apply, beats]

theorem onframe_message (named : frame.command = js "MESSAGE") :
    onframe draw props index frame = onreceive index frame := by
  have other : js "MESSAGE" ≠ js "CONNECTED" := by decide
  rw [onframe, named, if_neg other, if_pos rfl]

/-- Frames of other kinds are dropped. -/
theorem onframe_rest (connected : frame.command ≠ js "CONNECTED") (message : frame.command ≠ js "MESSAGE") :
    onframe draw props index frame =
      if frame.command = js "ERROR" then errorCallback props else pure () := by
  rw [onframe, if_neg connected, if_neg message]

theorem does_acknowledge {command : JsString} {received : Received}
    (fine : ∀ idAttr, idAttr = js "id" ∨ idAttr = js "message-id" →
      good (acknowledgeFrame command idAttr received)) :
    Does (Change good) (acknowledge command received) := by
  apply does_get
  intro page
  refine does_bind (does_transmit (fine _ ?_)) fun _ => does_pure ()
  split
  · exact Or.inl rfl
  · exact Or.inr rfl

/-- The page when a message has been handed on. -/
def handed (page : Page) (index : Nat) (frame : Frame) : Page :=
  let ack := frame.headers.get (js "ack")
  { page with
    component := WebSocketComponent.call (WebSocketComponent.record .emit) page.component
    received := page.received ++ [{
      client := index, frame, subscription := asText (frame.headers.get (js "subscription"))
      messageID := asText
        (if (page.client index).version = some (js "1.2") ∧ truthy ack then ack
        else frame.headers.get (js "message-id")) }] }

theorem onreceive_eq (page : Page) : onreceive index frame page =
    (.ok (), if asText (frame.headers.get (js "subscription")) ∈ (page.client index).subscriptions then
      handed page index frame else page) := by
  simp only [onreceive, bind_apply, get_apply]
  split <;> rfl

/-- The text is taken apart before the first frame is looked at. -/
theorem onmessage_eq (page : Page) (data : JsString) (now : Nat) :
    onmessage draw props index data now page =
      onframes draw props index (StompStreams.onmessage (page.client index).partialData data).1
        (page.update index fun stomp =>
          { stomp with serverActivity := some now,
                       partialData := (StompStreams.onmessage (page.client index).partialData data).2 }) := by
  have known : ((page.update index fun stomp =>
      { stomp with serverActivity := some now }).client index).partialData = (page.client index).partialData := by
    simp only [Page.client, Page.update, List.getElem?_modify_eq]
    cases page.clients[index]? <;> rfl
  simp only [onmessage, bind_apply, get_apply, modify_apply, known]
  congr 1
  simp [Page.update, List.modify_modify_eq, Function.comp_def]

def connectFrame (headers : Headers) : Frame :=
  { command := js "CONNECT", headers := connectHeaders headers }

private theorem onopen_eq {page : Page} {stomp : Client} (here : page.clients[index]? = some stomp) :
    onopen index page = (transmit index (connectFrame stomp.headers) >>= fun _ => pure ())
      (page.update index fun stomp => { stomp with headers := connectHeaders stomp.headers }) := by
  have headers : ((page.update index fun stomp =>
      { stomp with headers := connectHeaders stomp.headers }).client index).headers =
        connectHeaders stomp.headers := by
    simp [Page.client, Page.update, here]
  rw [onopen, bind_apply, modify_apply]
  dsimp only
  rw [bind_apply, get_apply]
  dsimp only
  rw [headers, connectFrame]

/-- A client writes as soon as its socket opens. -/
theorem opened_eq {page : Page} {socket : Socket} {stomp : Client}
    (found : page.component.sockets[index]? = some socket) (here : page.clients[index]? = some stomp) :
    ∃ text, marshall (connectFrame stomp.headers) = .ok text ∧
      call (do become .opened index; onopen index) page =
        { page.update index fun own => { own with
            headers := connectHeaders own.headers
            sent := own.sent ++ cut text
            transmitted := own.transmitted ++ [connectFrame stomp.headers] } with
          component := page.component.update index (Socket.become .opened) } := by
  obtain ⟨text, written⟩ := @marshall_bodyless (connectFrame stomp.headers) rfl
  refine ⟨text, written, ?_⟩
  have opened : Open { page with component := page.component.update index (Socket.become .opened) } index :=
    ⟨socket.become .opened, by simp [WebSocketComponent.Component.update, found], rfl⟩
  have sends := sends_of_opened opened
  have writes := @onopen_eq index
    { page with component := page.component.update index (Socket.become .opened) } stomp here
  rw [call, bind_apply, become, lift_apply, modify_apply]
  dsimp only [component_view, component_put]
  rw [writes, discard_apply, transmit_eq written]
  apply (if_pos sends).trans
  simp only [Page.put, Page.update, List.modify_modify_eq, Function.comp_def]

end Methods

end Tomas.PageChanges
