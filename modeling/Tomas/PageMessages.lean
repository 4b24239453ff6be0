import Tomas.PageRefinement

/-! Which messages a page is given. A client puts the texts that arrive at its
socket together, and each message that a server has written is handed on once, in
order, if no piece inside of it was a single line feed. On the current connection
none is left out, as long as the server was asked for them; an older one can lose
the rest of a text when its `CONNECTED` makes the callback throw. -/
namespace Tomas.PageMessages
open Tomas.JsStrings Tomas.Methods Tomas.Runs Tomas.StompFrames Tomas.StompStreams Tomas.Views
open Tomas.StompPage Tomas.PageChanges Tomas.PageInvariants Tomas.PageRefinement
open Tomas.WebSocketComponent (Component Props Socket)

def isMessage (frame : Frame) : Bool := frame.command = js "MESSAGE"

def brings (index : Nat) : Event → Option JsString
  | .message client data _ => if client = index then some data else none
  | _ => none

/-- The texts that have arrived at a socket. -/
def arrived (index : Nat) (events : List Event) : List JsString := events.filterMap (brings index)

/-- The messages that the client of a socket reads of them. -/
def messages (index : Nat) (events : List Event) : List Frame :=
  (receive [] (arrived index events)).1.filter isMessage

/-- The messages that a client has handed on. -/
def given (page : Page) (index : Nat) : List Frame :=
  (page.received.filter (·.client = index)).map (·.frame)

theorem receive_snoc {partialData data : JsString} {pieces : List JsString} :
    receive partialData (pieces ++ [data]) =
      ((receive partialData pieces).1 ++ (onmessage (receive partialData pieces).2 data).1,
        (onmessage (receive partialData pieces).2 data).2) := by
  induction pieces generalizing partialData with
  | nil => simp [receive]
  | cons piece pieces ih => simp [receive, ih, List.append_assoc]

/-! ## Frames -/

/-- The socket that a text comes from is open, and its client knows these subscriptions. -/
def Serves (index : Nat) (asked : List JsString) (other : Nat) (socket : Socket) (stomp : Client) : Prop :=
  other = index → socket.readyState = .opened ∧ ∀ id ∈ asked, id ∈ stomp.subscriptions

section Frames

variable {draw : Nat → Nat × Nat} {props : Props} {index other : Nat} {asked : List JsString}
  {frame : Frame} {frames : List Frame} {page : Page}

private theorem calm_serves : Calm Any (Serves index asked) where
  quiet other socket stomp after quiet serves same := by
    obtain ⟨connected, version, subscriptions, rfl⟩ := quiet
    exact ⟨(serves same).1, fun id member => List.mem_append_left _ ((serves same).2 id member)⟩
  frame _ _ _ _ _ _ _ _ serves := serves
  ping _ _ _ _ serves := serves
  asked _ _ _ _ _ serves := serves
  beats _ _ _ _ _ serves := serves

private theorem given_handed (named : frame.command = js "MESSAGE") :
    given (handed page index frame) index = given page index ++ [frame].filter isMessage := by
  simp [given, handed, isMessage, named]

private theorem given_other (apart : other ≠ index) : given (handed page index frame) other = given page other := by
  simp [given, handed, Ne.symm apart]

/-- A frame gives the page at most itself. -/
private theorem onframe_gives :
    (given (onframe draw props index frame page).2 index).Sublist (given page index ++ [frame].filter isMessage) ∧
      ∀ other, other ≠ index → given (onframe draw props index frame page).2 other = given page other := by
  rcases @received_onframe draw props page index frame with same | ⟨named, same⟩
  · have unchanged (other : Nat) : given (onframe draw props index frame page).2 other = given page other := by
      rw [given, same, given]
    exact ⟨by rw [unchanged]; exact List.sublist_append_left _ _, fun other _ => unchanged other⟩
  · rw [same, given_handed named]
    exact ⟨List.Sublist.refl _, fun other apart => given_other apart⟩

private theorem onframes_give :
    (given (onframes draw props index frames page).2 index).Sublist (given page index ++ frames.filter isMessage) ∧
      ∀ other, other ≠ index → given (onframes draw props index frames page).2 other = given page other := by
  induction frames generalizing page with
  | nil => exact ⟨by simp [onframes, pure_apply], fun _ _ => rfl⟩
  | cons frame frames ih =>
    have first := @onframe_gives draw props index frame page
    have whole : (given page index ++ [frame].filter isMessage) ++ frames.filter isMessage =
        given page index ++ (frame :: frames).filter isMessage := by
      rw [List.append_assoc, ← List.filter_append, List.singleton_append]
    rw [onframes, bind_apply, ← whole]
    revert first
    rcases onframe draw props index frame page with ⟨_ | _, middle⟩
    · exact fun first => ⟨first.1.trans (List.sublist_append_left _ _), first.2⟩
    · intro first
      obtain ⟨later, apart⟩ := @ih middle
      exact ⟨later.trans (first.1.append_right _), fun other away =>
        (apart other away).trans (first.2 other away)⟩

private theorem connectCallback_returns {component : Component} {socket : Socket}
    (current : component.stompClient = some index) (found : component.sockets[index]? = some socket)
    (opened : socket.readyState = .opened) : (WebSocketComponent.connectCallback component).1 = .ok () := by
  obtain ⟨timer, delayTimer, connectCnt, stompClient, connected, sockets, pending, nextTimer, trace⟩ :=
    component
  obtain rfl : stompClient = some index := current
  have sends (trace : List WebSocketComponent.Action) := @WebSocketComponent.send_eq
    ⟨timer, delayTimer, connectCnt, some index, connected, sockets, pending, nextTimer, trace⟩ index
    socket found
  simp only [WebSocketComponent.connectCallback, WebSocketComponent.subscribe, WebSocketComponent.record,
    bind_apply, get_apply, modify_apply, sends, opened]
  rfl

private theorem errorCallback_returns {component : Component} :
    (WebSocketComponent.errorCallback props component).1 = .ok () := by
  simp only [WebSocketComponent.errorCallback, WebSocketComponent.reconnect, bind_apply, get_apply,
    modify_apply]
  split
  · rfl
  · cases props.isDelayConnect <;> rfl

/-- A frame of the current connection is dealt with to its end. -/
private theorem onframe_whole (serves : Each (Serves index asked) page) (inside : index < page.clients.length)
    (current : page.component.stompClient = some index)
    (fine : frame.command = js "MESSAGE" → asText (frame.headers.get (js "subscription")) ∈ asked) :
    (onframe draw props index frame page).1 = .ok () ∧
      given (onframe draw props index frame page).2 index = given page index ++ [frame].filter isMessage := by
  have there := List.getElem?_eq_getElem (serves.length ▸ inside : index < page.component.sockets.length)
  have here := List.getElem?_eq_getElem inside
  obtain ⟨opened, known⟩ := serves.pair index _ _ there here rfl
  by_cases message : frame.command = js "MESSAGE"
  · have subscribed : asText (frame.headers.get (js "subscription")) ∈ (page.client index).subscriptions := by
      rw [Page.client, here]
      exact known _ (fine message)
    rw [onframe_message message, onreceive_eq]
    dsimp only
    rw [if_pos subscribed]
    exact ⟨rfl, given_handed message⟩
  · have nothing : [frame].filter isMessage = [] := by
      simp [isMessage, message]
    rw [nothing, List.append_nil]
    constructor
    · by_cases connected : frame.command = js "CONNECTED"
      · obtain ⟨version, ping, pong, same, -⟩ := @onframe_connected draw props index frame page connected
        have above := congrArg Prod.fst ((@refines_connectCallback draw) (start (start (page.update index
          fun stomp => { stomp with connected := true, version }) index .pinger ping) index .ponger pong))
        rw [same, ← above, component_view, start_component, start_component]
        exact connectCallback_returns current there opened
      · rw [onframe_rest connected message]
        split
        · exact errorCallback_returns
        · rfl
    · rcases @received_onframe draw props page index frame with same | ⟨named, -⟩
      · rw [given, same, given]
      · exact absurd named message

private theorem onframes_whole (serves : Each (Serves index asked) page) (inside : index < page.clients.length)
    (current : page.component.stompClient = some index)
    (fine : ∀ frame ∈ frames, frame.command = js "MESSAGE" →
      asText (frame.headers.get (js "subscription")) ∈ asked) :
    given (onframes draw props index frames page).2 index = given page index ++ frames.filter isMessage := by
  induction frames generalizing page with
  | nil => simp [onframes, pure_apply]
  | cons frame frames ih =>
    obtain ⟨returns, first⟩ := @onframe_whole draw props index asked frame page serves inside current
      (fine frame List.mem_cons_self)
    have after := @keeps_onframe draw props Any (Serves index asked) index frame calm_serves fine_any page serves
    obtain ⟨length, client⟩ := @onframe_frame draw props page index frame
    have stepped : onframe draw props index frame page =
        (.ok (), (onframe draw props index frame page).2) := Prod.ext returns rfl
    rw [onframes, bind_apply, stepped]
    dsimp only
    rw [ih after (by rw [length]; exact inside) (by rw [client]; exact current)
      fun other member => fine other (List.mem_cons_of_mem _ member), first, List.append_assoc,
      ← List.filter_append, List.singleton_append]

theorem onframes_frame : (onframes draw props index frames page).2.clients.length = page.clients.length ∧
    (onframes draw props index frames page).2.component.stompClient = page.component.stompClient := by
  have kept : Keeps (fun next : Page => next.clients.length = page.clients.length ∧
      next.component.stompClient = page.component.stompClient) (onframes draw props index frames) := by
    induction frames with
    | nil => exact keeps_pure ()
    | cons frame frames ih =>
      refine keeps_bind (fun next same => ?_) fun _ => ih
      obtain ⟨length, client⟩ := @onframe_frame draw props next index frame
      exact ⟨length.trans same.1, client.trans same.2⟩
  exact kept page ⟨rfl, rfl⟩

end Frames

/-! ## Runs -/

/-- What is left of the texts so far is kept, and whoever is asked for a
subscription is known. -/
structure Reads (events : List Event) (index : Nat) (_ : Socket) (stomp : Client) : Prop where
  partialData : stomp.partialData = (receive [] (arrived index events)).2
  known : ∀ id ∈ stomp.subscribed, id ∈ stomp.subscriptions

/-- What the page has been given of what was read. All of it has been handed on
if the server is honest. -/
structure Gives (honest : Prop) (events : List Event) (page : Page) : Prop where
  outside : ∀ index, page.clients.length ≤ index → arrived index events = []
  current : ∀ index, page.component.stompClient = some index → index < page.clients.length
  part : ∀ index, (given page index).Sublist (messages index events)
  whole : honest → ∀ index, page.component.stompClient = some index →
    given page index = messages index events

section Runs

variable {draw : Nat → Nat × Nat} {props : Props} {events after : List Event} {event : Event}
  {page next : Page} {index other : Nat} {data : JsString} {now : Nat} {honest : Prop}

private theorem steady_reads : Steady Any (Reads events) where
  quiet index socket stomp after quiet reads := by
    obtain ⟨connected, version, subscriptions, rfl⟩ := quiet
    exact ⟨reads.partialData, fun id member => List.mem_append_left _ (reads.known id member)⟩
  frame _ _ _ _ _ _ _ _ reads := ⟨reads.partialData, reads.known⟩
  ping _ _ _ _ reads := ⟨reads.partialData, reads.known⟩
  asked index socket stomp id known reads := by
    refine ⟨reads.partialData, fun other member => ?_⟩
    rcases List.mem_append.mp member with old | new
    · exact reads.known other old
    · rw [List.mem_singleton.mp new]
      exact known
  beats _ _ _ _ _ reads := ⟨reads.partialData, reads.known⟩
  opens _ _ _ _ _ _ reads := ⟨reads.partialData, reads.known⟩
  leaves _ _ _ _ _ reads := ⟨reads.partialData, reads.known⟩

private theorem gives_framed (framed : Framed page next) (gives : Gives honest events page) :
    Gives honest events next := by
  have same (index : Nat) : given next index = given page index := by
    rw [given, framed.received, given]
  obtain ⟨outside, current, part, whole⟩ := gives
  refine ⟨?_, ?_, fun index => (same index).symm ▸ part index, ?_⟩
  · rwa [framed.length]
  · rwa [framed.stompClient, framed.length]
  · rw [framed.stompClient]
    exact fun honest index here => (same index).trans (whole honest index here)

/-- Nothing has arrived at a new socket. -/
private theorem connection_gives (both : Each (Reads events) page ∧ Gives honest events page) :
    Each (Reads events) (call connection page) ∧ Gives honest events (call connection page) := by
  obtain ⟨each, outside, current, part, whole⟩ := both
  have nothing := outside page.clients.length (Nat.le_refl _)
  have fresh : Reads events page.clients.length {} fresh := by
    refine ⟨?_, List.forall_mem_nil _⟩
    rw [nothing]
    rfl
  refine ⟨each_snoc each rfl rfl fresh, ?_, ?_, part, ?_⟩
  · intro index out
    rw [connection_length] at out
    exact outside index (Nat.le_of_succ_le out)
  · intro index here
    have last : index = page.component.sockets.length := (Option.some_inj.mp here).symm
    rw [last, ← each.length, connection_length]
    exact Nat.lt_succ_self _
  · intro _ index here
    have last : index = page.clients.length := (Option.some_inj.mp here).symm.trans each.length.symm
    have none : messages index events = [] := by
      rw [messages, last, nothing]
      rfl
    have own := part index
    rw [none] at own ⊢
    exact List.sublist_nil.mp own

/-- An event that brings no text leaves what has arrived. -/
private theorem mute_step (mute : ∀ index data now, event ≠ .message index data now)
    (both : Each (Reads events) page ∧ Gives honest events page)
    (stepped : step draw props page event = some next) :
    Each (Reads (events ++ [event])) next ∧ Gives honest (events ++ [event]) next := by
  have lasts : Lasts props Any fun page => Each (Reads events) page ∧ Gives honest events page :=
    lasts_and (lasts_each steady_reads) (lasts_framed fun _ _ => gives_framed)
  obtain ⟨each, outside, current, part, whole⟩ :=
    lasts_step lasts (fun _ => connection_gives) fine_any allowed_any mute stepped both
  have same (index : Nat) : arrived index (events ++ [event]) = arrived index events := by
    have nothing : brings index event = none := by
      cases event <;> simp_all [brings]
    simp [arrived, List.filterMap_append, nothing]
  have kept (index : Nat) : messages index (events ++ [event]) = messages index events := by
    rw [messages, same, messages]
  refine ⟨each_imp each fun index _ _ reads => ?_, ?_, current, ?_, ?_⟩
  · refine ⟨?_, reads.known⟩
    rw [same]
    exact reads.partialData
  · intro index out
    rw [same]
    exact outside index out
  · intro index
    rw [kept]
    exact part index
  · intro honest index here
    rw [kept]
    exact whole honest index here

theorem arrived_own :
    arrived index (events ++ [.message index data now]) = arrived index events ++ [data] := by
  simp [arrived, List.filterMap_append, brings]

theorem arrived_other (apart : other ≠ index) :
    arrived other (events ++ [.message index data now]) = arrived other events := by
  simp [arrived, List.filterMap_append, brings, Ne.symm apart]

private theorem messages_own : messages index (events ++ [.message index data now]) = messages index events ++
    (onmessage (receive [] (arrived index events)).2 data).1.filter isMessage := by
  rw [messages, arrived_own, receive_snoc, List.filter_append, messages]

private theorem messages_other (apart : other ≠ index) :
    messages other (events ++ [.message index data now]) = messages other events := by
  rw [messages, arrived_other apart, messages]

private theorem message_gives (both : Each (Reads events) page ∧ Gives honest events page)
    (expected : honest → Expected page (.message index data now))
    (stepped : step draw props page (.message index data now) = some next) :
    Each (Reads (events ++ [.message index data now])) next ∧
      Gives honest (events ++ [.message index data now]) next := by
  obtain ⟨each, outside, current, part, whole⟩ := both
  obtain ⟨socket, found, opened, -⟩ := onSocket_cases stepped
  have inside : index < page.clients.length := each.length ▸ (List.getElem?_eq_some_iff.mp found).1
  have own := each.pair index _ _ found (List.getElem?_eq_getElem inside)
  have client : page.client index = page.clients[index] := by
    simp [Page.client, List.getElem?_eq_getElem inside]
  have kept : (page.client index).partialData = (receive [] (arrived index events)).2 := by
    rw [client]
    exact own.partialData
  have reads : Each (Reads (events ++ [.message index data now])) (arrives page index data now) := by
    refine each_turn each (List.modify_id index _).symm rfl ?_ ?_
    · intro there stomp _ _ before
      refine ⟨?_, before.known⟩
      rw [arrived_own, receive_snoc, kept]
    · intro other there stomp apart before
      refine ⟨?_, before.known⟩
      rw [arrived_other apart]
      exact before.partialData
  have serves : Each (Serves index (page.client index).subscribed) (arrives page index data now) := by
    refine each_turn each (List.modify_id index _).symm rfl ?_ fun _ _ _ apart _ same => absurd same apart
    intro there stomp known here before _
    rw [found] at known
    cases known
    rw [Page.client, here]
    exact ⟨beq_iff_eq.mp opened, before.known⟩
  have length := @arrives_length page index data now
  have gives := @onframes_give draw props index (onmessage (page.client index).partialData data).1
    (arrives page index data now)
  have frame := @onframes_frame draw props index (onmessage (page.client index).partialData data).1
    (arrives page index data now)
  rw [message_step stepped, call]
  refine ⟨keeps_onframes steady_reads.toCalm fine_any _ reads, ?_, ?_, ?_, ?_⟩
  · intro other out
    rw [frame.1, length] at out
    rw [arrived_other (by omega)]
    exact outside other out
  · rw [frame.1, frame.2, length]
    exact current
  · intro other
    by_cases same : other = index
    · rw [same, messages_own, ← kept]
      exact gives.1.trans ((part index).append_right _)
    · rw [messages_other same, gives.2 other same]
      exact part other
  · intro honest other here
    rw [frame.2] at here
    by_cases same : other = index
    · rw [same] at here ⊢
      rw [messages_own, ← kept, ← whole honest index here]
      exact onframes_whole serves (length ▸ inside) here (expected honest)
    · rw [messages_other same, gives.2 other same]
      exact whole honest other here

theorem gives_step (both : Each (Reads events) page ∧ Gives honest events page)
    (expected : honest → Expected page event) (stepped : step draw props page event = some next) :
    Each (Reads (events ++ [event])) next ∧ Gives honest (events ++ [event]) next := by
  rcases text_or_mute event with ⟨index, data, now, rfl⟩ | mute
  · exact message_gives both expected stepped
  · exact mute_step mute both stepped

theorem gives_mounted (supported : Bool) :
    Each (Reads []) (mounted supported) ∧ Gives honest [] (mounted supported) := by
  refine ⟨each_mounted ⟨rfl, List.forall_mem_nil _⟩ supported, fun _ _ => rfl, ?_, ?_, ?_⟩
  · intro index here
    cases supported with
    | true =>
      cases here
      exact Nat.one_pos
    | false => cases here
  · intro index
    cases supported <;> exact List.Sublist.refl _
  · intro _ index _
    cases supported <;> rfl

/-- Of what is read of the texts, the page is given each message once at most. -/
theorem gives_run {supported : Bool} (ran : exec (step draw props) (mounted supported) events = some page) :
    Gives (EachStep (step draw props) (mounted supported) events Expected) events page := by
  let honest : Prop := EachStep (step draw props) (mounted supported) events Expected
  have expected : EachStep (step draw props) (mounted supported) events
      fun page event => honest → Expected page event :=
    fun before event isPrefix page ran whole => whole before event isPrefix page ran
  have both : Each (Reads events) page ∧ Gives honest events page :=
    exec_lawful (fun before page => Each (Reads before) page ∧ Gives honest before page)
      (gives_mounted supported) (fun _ _ _ _ both expected stepped => gives_step both expected stepped)
      expected ran
  exact both.2

/-- Whatever happens to a page, of the messages that a server has written to a
socket it is given each once at most and in order, and on the current connection
every one, if the server was asked for them. -/
theorem page_is_given {supported : Bool} {frames : List Frame}
    (ran : exec (step draw props) (mounted supported) events = some page)
    (written : Arrived frames (arrived index events)) :
    (given page index).Sublist ((frames.filter isMessage).map Frame.received) ∧
      (EachStep (step draw props) (mounted supported) events Expected →
        page.component.stompClient = some index →
          given page index = (frames.filter isMessage).map Frame.received) := by
  have read : messages index events = (frames.filter isMessage).map Frame.received := by
    rw [messages, receive_arrived written, List.filter_map]
    rfl
  have gives := gives_run ran
  rw [← read]
  exact ⟨gives.part index, fun honest => gives.whole honest index⟩

private def connected : Frame := { command := js "CONNECTED", headers := .of [(js "version", .text (js "1.2"))] }

private def message (body : String) : Frame :=
  { command := js "MESSAGE", headers := .of [(js "subscription", .text (js "sub-7-0"))], body := js body }

/-- Two messages, of which the second arrives in two pieces, a heart-beat and the
beginning of a third message. -/
private def delivery : List Event :=
  [.opened 0, .message 0 (js "CONNECTED\nversion:1.2\n\n" ++ [NULL]) 5,
    .message 0 (js "MESSAGE\nsubscription:sub-7-0\ncontent-length:3\n\none" ++ [NULL] ++ js "MESSAGE\nsub") 6,
    .message 0 (js "scription:sub-7-0\ncontent-length:3\n\ntwo" ++ [NULL]) 7, .message 0 [LF] 8,
    .message 0 (js "MESS") 9]

private theorem delivery_arrived : Arrived [connected, message "one", message "two"] (arrived 0 delivery) where
  whole := by
    refine ⟨js "CONNECTED\nversion:1.2\n\n" ++ [NULL] ++
      (js "MESSAGE\nsubscription:sub-7-0\ncontent-length:3\n\none" ++ [NULL] ++
        (js "MESSAGE\nsubscription:sub-7-0\ncontent-length:3\n\ntwo" ++ [NULL] ++ [LF])), js "MESS",
      by decide +kernel, ?_, by decide⟩
    refine .frame (by decide) (by decide +kernel) ?_
    refine .frame (by decide) (by decide +kernel) ?_
    exact .frame (by decide) (by decide +kernel) (.beat .done)
  cut := by
    refine ⟨?_, ?_, ?_, ?_, ?_, trivial⟩ <;> decide +kernel

theorem delivery_is_given : ∃ page, exec (step (fun n => (7, n)) {}) (mounted true) delivery = some page ∧
    given page 0 = [(message "one").received, (message "two").received] := by
  have runs : ∃ page, exec (step (fun n => (7, n)) {}) (mounted true) delivery = some page ∧
      page.component.stompClient = some 0 := by
    have some : ((exec (step (fun n => (7, n)) {}) (mounted true) delivery).map
      fun page => page.component.stompClient) = some (some 0) := by decide +kernel
    exact Option.map_eq_some_iff.mp some
  obtain ⟨page, ran, current⟩ := runs
  have all := (page_is_given ran delivery_arrived).2 (by decide +kernel) current
  exact ⟨page, ran, all⟩

end Runs

end Tomas.PageMessages
