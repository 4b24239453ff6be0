import Tomas.StompStreams
import Tomas.Views
import Tomas.WebSocketComponent

/-! A page with the `WebSocket` component, and the webstomp clients behind its
sockets: which text a client sends, what it makes of the text that arrives, and
the heart-beats it sets up. The component's own data and the sockets are those of
the component's model; the callbacks it gives to a client run inside the client. -/
namespace Tomas.StompPage
open Tomas.JsStrings Tomas.Methods Tomas.StompFrames Tomas.Views
open Tomas.WebSocketComponent (Component Props Socket)

/-! ## What a client is made of -/

/-- `this.heartbeat`, in milliseconds. -/
def outgoing : Nat := 10000

def incoming : Nat := 10000

def maxWebSocketFrameSize : Nat := 16 * 1024

inductive Beat where
  | pinger
  | ponger
  deriving DecidableEq, Repr

/-- A function that is called again and again. There is no period if it is `NaN`. -/
structure Interval where
  id : Nat
  client : Nat
  beat : Beat
  ttl : Option Int
  deriving DecidableEq, Repr

/-- A `MESSAGE` that has been handed on, with what its `ack` and `nack` are bound to. -/
structure Received where
  client : Nat
  frame : Frame
  messageID : JsString
  subscription : JsString
  deriving DecidableEq, Repr

/-- webstomp's `Client`, what its socket has put out, and the frames that was for.
The subscriptions that the other end knows of are those whose frame has gone out. -/
structure Client where
  headers : Headers := .empty
  connected : Bool := false
  version : Option JsString := none
  subscriptions : List JsString := []
  partialData : JsString := []
  serverActivity : Option Nat := none
  pinger : Option Nat := none
  ponger : Option Nat := none
  sent : List JsString := []
  transmitted : List Frame := []
  subscribed : List JsString := []
  deriving DecidableEq, Repr

structure Page where
  component : Component := {}
  clients : List Client := []
  intervals : List Interval := []
  nextInterval : Nat := 0
  created : Nat := 0
  received : List Received := []
  deriving DecidableEq, Repr

def Page.client (page : Page) (index : Nat) : Client := page.clients[index]?.getD {}

def Page.update (page : Page) (client : Nat) (change : Client → Client) : Page :=
  { page with clients := page.clients.modify client change }

/-- What goes out of a socket, and the frames that end in it. -/
def Page.put (page : Page) (client : Nat) (pieces : List JsString) (frames : List Frame) : Page :=
  page.update client fun stomp =>
    { stomp with sent := stomp.sent ++ pieces, transmitted := stomp.transmitted ++ frames }

/-- The other end of a socket has been asked for a subscription. -/
def Page.asked (page : Page) (client : Nat) (id : JsString) : Page :=
  { page.update client fun stomp => { stomp with subscribed := stomp.subscribed ++ [id] } with
    component := page.component.update client fun socket =>
      { socket with subscriptions := socket.subscriptions + 1 } }

abbrev Method := Body Page String

/-- What belongs to the component and to the sockets. -/
def component : Part Page Component where
  view := Page.component
  put component page := { page with component }
  view_put _ _ := rfl

@[simp] theorem component_view (page : Page) : component.view page = page.component := rfl

@[simp] theorem component_put (after : Component) (page : Page) :
    component.put after page = { page with component := after } := rfl

/-! ## Sending -/

/-- As much as goes out in pieces of the full size, and the rest. Each piece
shortens the data, so that its length is fuel enough. -/
def slices : Nat → JsString → List JsString × JsString
  | 0, data => ([], data)
  | fuel + 1, data =>
    if maxWebSocketFrameSize < data.length then
      let (pieces, rest) := slices fuel (data.drop maxWebSocketFrameSize)
      (data.take maxWebSocketFrameSize :: pieces, rest)
    else ([], data)

/-- `this.ws.send`, which tells here whether the piece has gone out. -/
def wsSendPiece (client : Nat) (piece : JsString) : Method Bool := do
  let out ← component.lift (WebSocketComponent.send client)
  if out then modify fun page => page.put client [piece] []
  pure out

def sendPieces (client : Nat) : List JsString → JsString → Method Bool
  | [], rest => wsSendPiece client rest
  | piece :: pieces, rest => do
    let _ ← wsSendPiece client piece
    sendPieces client pieces rest

def wsSend (client : Nat) (data : JsString) : Method Bool :=
  sendPieces client (slices data.length data).1 (slices data.length data).2

def transmit (client : Nat) (frame : Frame) : Method Bool :=
  match marshall frame with
  | .error cause => throw cause
  | .ok out => do
    let gone ← wsSend client out
    if gone then modify fun page => page.put client [] [frame]
    pure gone

/-- The object that the characters of a string are assigned to. -/
def numbered (text : JsString) : Headers :=
  .of (text.zipIdx.map fun unit => (decimal unit.2, .text [unit.1]))

def sendFrame (destination body : JsString) (headers : Headers) : Frame :=
  { command := js "SEND", headers := headers.set (js "destination") (.text destination), body }

def send (client : Nat) (destination body : JsString) (headers : Headers) : Method Unit := do
  let _ ← transmit client (sendFrame destination body headers)

/-! ## Heart-beats -/

/-- A value that is neither missing, `false` nor empty. -/
def truthy : Option Value → Bool
  | some (.text (_ :: _)) => true
  | _ => false

/-- What a value or a missing one is as a name or as part of a text. -/
def asText : Option Value → JsString
  | none => js "undefined"
  | some value => value.toString

/-- The server's half of the negotiation, a missing number and `NaN` being alike. -/
def serverBeats (headers : Headers) : Option Int × Option Int :=
  let value := headers.get (js "heart-beat")
  let parts := (if truthy value then asText value else js "0,0").splitOn 44
  (parts[0]?.bind parseInt, parts[1]?.bind parseInt)

/-- An interval that calls `beat`, and where the client keeps it. -/
def Page.setInterval (page : Page) (client : Nat) (beat : Beat) (ttl : Option Int) : Page :=
  let interval := page.nextInterval
  { page.update client fun stomp =>
      match beat with
      | .pinger => { stomp with pinger := some interval }
      | .ponger => { stomp with ponger := some interval } with
    intervals := page.intervals ++ [{ id := interval, client, beat, ttl }]
    nextInterval := interval + 1 }

def Page.clearInterval (page : Page) (interval : Option Nat) : Page :=
  { page with intervals := page.intervals.filter (some ·.id ≠ interval) }

/-- Each side says how often it can send and how often it wants to receive. -/
def setupHeartbeat (client : Nat) (headers : Headers) : Method Unit := do
  let version := ((← get).client client).version
  if version = some (js "1.1") ∨ version = some (js "1.2") then
    let (serverOutgoing, serverIncoming) := serverBeats headers
    if ¬ (outgoing = 0 ∨ serverIncoming = some 0) then
      modify fun page => page.setInterval client .pinger (serverIncoming.map (max outgoing))
    if ¬ (incoming = 0 ∨ serverOutgoing = some 0) then
      modify fun page => page.setInterval client .ponger (serverOutgoing.map (max incoming))

def cleanUp (client : Nat) : Method Unit := do
  modify fun page => page.update client fun stomp => { stomp with connected := false }
  modify fun page => page.clearInterval (page.client client).pinger
  modify fun page => page.clearInterval (page.client client).ponger

/-- One turn of an interval. -/
def beat (interval : Interval) (now : Nat) : Method Unit := do
  match interval.beat with
  | .pinger => let _ ← wsSend interval.client [LF]
  | .ponger =>
    match ((← get).client interval.client).serverActivity, interval.ttl with
    | some serverActivity, some ttl =>
      let delta : Int := now - serverActivity
      if ttl * 2 < delta then
        component.lift (modify fun component => component.update interval.client Socket.close)
    | _, _ => pure ()

/-! ## The component's methods -/

section Component

variable (draw : Nat → Nat × Nat) (props : Props)

/-- The time and a random number. -/
def createId (drawn : Nat × Nat) : JsString := decimal drawn.1 ++ 45 :: decimal drawn.2

def subscribeFrame (id destination : JsString) : Frame :=
  { command := js "SUBSCRIBE", headers := .of [(js "id", .text id), (js "destination", .text destination)] }

def subscribe (client : Nat) (destination : JsString) : Method Unit := do
  component.lift (WebSocketComponent.record .subscribe)
  let id := js "sub-" ++ createId (draw (← get).created)
  modify fun page => { page with created := page.created + 1 }
  modify fun page => page.update client fun stomp =>
    { stomp with subscriptions := stomp.subscriptions ++ [id] }
  if ← transmit client (subscribeFrame id destination) then
    modify fun page => page.asked client id

/-- A new socket with its client, which waits for the socket to open. -/
def connection : Method Unit := do
  component.lift WebSocketComponent.connection
  modify fun page =>
    { page with clients := page.clients ++ [{ headers := .of [(js "id", .text (js "starter"))] }] }

def timeout : Method Unit := do
  if !(← component.lift get).connected then connection

def connectCallback : Method Unit := do
  match (← component.lift get).stompClient with
  | none => throw "TypeError"
  | some client =>
    subscribe draw client (js "/topic/message")
    component.lift (modify fun component => { component with connected := true })
    component.lift (modify fun component => { component with connectCnt := 0 })

def errorCallback : Method Unit := component.lift (WebSocketComponent.errorCallback props)

def sendMsg (msg : JsString) : Method Unit := do
  match (← component.lift get).stompClient with
  | none => throw "TypeError"
  | some client => send client (js "/app/getCmd") (js "[object Object]") (numbered msg)

def disconnect : Method Unit := do
  match (← component.lift get).stompClient with
  | none => pure ()
  | some client =>
    let _ ← transmit client { command := js "DISCONNECT" }
    component.lift (modify fun component => component.update client fun socket =>
      { socket with onclose := false })
    component.lift (modify fun component => component.update client Socket.close)
    cleanUp client

def beforeDestroy : Method Unit := do
  disconnect
  component.lift (do WebSocketComponent.clearTimeout (← get).timer)
  component.lift (do WebSocketComponent.clearTimeout (← get).delayTimer)
  component.lift (modify fun component => { component with connectCnt := 0 })

/-! ## What a client listens to -/

def getSupportedVersion (protocol : Option JsString) : JsString :=
  if protocol = some (js "v10.stomp") then js "1.0"
  else if protocol = some (js "v11.stomp") then js "1.1"
  else js "1.2"

/-- The headers of `CONNECT`. Neither the socket nor the client names a protocol. -/
def connectHeaders (headers : Headers) : Headers :=
  let headers := headers.set (js "accept-version") (.text (getSupportedVersion none))
  if truthy (headers.get (js "heart-beat")) then headers
  else headers.set (js "heart-beat") (.text (decimal outgoing ++ 44 :: decimal incoming))

def onopen (client : Nat) : Method Unit := do
  modify fun page => page.update client fun stomp => { stomp with headers := connectHeaders stomp.headers }
  let headers := ((← get).client client).headers
  let _ ← transmit client { command := js "CONNECT", headers }

def onreceive (client : Nat) (frame : Frame) : Method Unit := do
  let subscription := asText (frame.headers.get (js "subscription"))
  let stomp := (← get).client client
  if subscription ∈ stomp.subscriptions then
    let ack := frame.headers.get (js "ack")
    let messageID :=
      if stomp.version = some (js "1.2") ∧ truthy ack then ack else frame.headers.get (js "message-id")
    component.lift (WebSocketComponent.record .emit)
    modify fun page =>
      { page with received := page.received ++ [{ client, frame, messageID := asText messageID, subscription }] }

/-- One of the frames of a message. -/
def onframe (client : Nat) (frame : Frame) : Method Unit := do
  if frame.command = js "CONNECTED" then
    modify fun page => page.update client fun stomp =>
      { stomp with connected := true, version := (frame.headers.get (js "version")).map Value.toString }
    setupHeartbeat client frame.headers
    connectCallback draw
  else if frame.command = js "MESSAGE" then onreceive client frame
  else if frame.command = js "ERROR" then errorCallback props

def onframes (client : Nat) : List Frame → Method Unit
  | [] => pure ()
  | frame :: frames => do
    onframe draw props client frame
    onframes client frames

def onmessage (client : Nat) (data : JsString) (now : Nat) : Method Unit := do
  modify fun page => page.update client fun stomp => { stomp with serverActivity := some now }
  let (frames, partialData) := StompStreams.onmessage ((← get).client client).partialData data
  modify fun page => page.update client fun stomp => { stomp with partialData }
  onframes draw props client frames

def onclose (client : Nat) : Method Unit := do
  cleanUp client
  errorCallback props

def acknowledgeFrame (command idAttr : JsString) (received : Received) : Frame :=
  { command,
    headers := .of [(idAttr, .text received.messageID), (js "subscription", .text received.subscription)] }

/-- `ack` and `nack` of a message that has been handed on. -/
def acknowledge (command : JsString) (received : Received) : Method Unit := do
  let idAttr :=
    if ((← get).client received.client).version = some (js "1.2") then js "id" else js "message-id"
  let _ ← transmit received.client (acknowledgeFrame command idAttr received)

def ack : Received → Method Unit := acknowledge (js "ACK")

def nack : Received → Method Unit := acknowledge (js "NACK")

end Component

/-! ## Events -/

inductive Event where
  | opened (client : Nat)
  | message (client : Nat) (data : JsString) (now : Nat)
  | lost (client : Nat)
  | closed (client : Nat)
  | fire (timer : Nat)
  | beat (interval : Interval) (now : Nat)
  | sendMsg (msg : JsString)
  | ack (received : Received)
  | nack (received : Received)
  | beforeDestroy
  deriving DecidableEq, Repr

def call (method : Method Unit) (page : Page) : Page := (method page).2

def onSocket (page : Page) (index : Nat) (enabled : Socket → Bool) (handle : Socket → Page) :
    Option Page :=
  match page.component.sockets[index]? with
  | none => none
  | some socket => if enabled socket then some (handle socket) else none

def become (readyState : WebSocketComponent.ReadyState) (index : Nat) : Method Unit :=
  component.lift (modify fun component => component.update index (Socket.become readyState))

def step (draw : Nat → Nat × Nat) (props : Props) (page : Page) : Event → Option Page
  | .opened index =>
    onSocket page index (·.readyState == .connecting) fun _ =>
      call (do become .opened index; onopen index) page
  | .message index data now =>
    onSocket page index (·.readyState == .opened) fun _ => call (onmessage draw props index data now) page
  | .lost index =>
    onSocket page index (fun socket => socket.readyState == .connecting || socket.readyState == .opened)
      fun _ => call (become .closing index) page
  | .closed index =>
    onSocket page index (·.readyState == .closing) fun socket =>
      call (do become .closed index; if socket.onclose then onclose props index) page
  | .fire timer =>
    if timer ∈ page.component.pending then
      some (call (do
        component.lift (modify fun component =>
          { component with pending := component.pending.filter (· ≠ timer) })
        timeout) page)
    else none
  | .beat interval now => if interval ∈ page.intervals then some (call (beat interval now) page) else none
  | .sendMsg msg => some (call (sendMsg msg) page)
  | .ack received => if received ∈ page.received then some (call (ack received) page) else none
  | .nack received => if received ∈ page.received then some (call (nack received) page) else none
  | .beforeDestroy => some (call beforeDestroy page)

def mounted (supported : Bool) : Page := if supported then call connection {} else {}

/-- The messages of a text are for subscriptions that the server was asked for. -/
def ForSubscribers (client : Client) (data : JsString) : Prop :=
  ∀ frame ∈ (StompStreams.onmessage client.partialData data).1, frame.command = js "MESSAGE" →
    asText (frame.headers.get (js "subscription")) ∈ client.subscribed

instance (client : Client) (data : JsString) : Decidable (ForSubscribers client data) :=
  inferInstanceAs (Decidable (∀ frame ∈ _, _ → _))

/-- A server only sends messages for the subscriptions it has been asked for. -/
def Expected (page : Page) : Event → Prop
  | .message index data _ => ForSubscribers (page.client index) data
  | _ => True

instance (page : Page) (event : Event) : Decidable (Expected page event) :=
  match event with
  | .message index data _ => inferInstanceAs (Decidable (ForSubscribers (page.client index) data))
  | .opened _ | .lost _ | .closed _ | .fire _ | .beat _ _ | .sendMsg _ | .ack _ | .nack _
  | .beforeDestroy => isTrue trivial

end Tomas.StompPage
