import Tomas.PageMessages

/-! The heart-beats of a page. As long as no server greets a socket twice, each
interval that runs is the one its client will clear, and its socket has not
closed. A socket is given up only when the server has been silent for long. -/
namespace Tomas.PageHeartbeats
open Tomas.JsStrings Tomas.Methods Tomas.Runs Tomas.StompFrames Tomas.StompStreams Tomas.Views
open Tomas.StompPage Tomas.PageChanges Tomas.PageInvariants Tomas.PageMessages
open Tomas.WebSocketComponent (Component Props Socket ReadyState)

/-- The interval is the one that the client knows of. -/
def Holds (stomp : Client) (interval : Interval) : Prop :=
  match interval.beat with
  | .pinger => stomp.pinger = some interval.id
  | .ponger => stomp.ponger = some interval.id

def isConnected (frame : Frame) : Bool := frame.command = js "CONNECTED"

/-- The intervals of a client end with its socket at the latest. -/
structure Owns (intervals : List Interval) (index : Nat) (socket : Socket) (stomp : Client) : Prop where
  listens : socket.readyState = .connecting ∨ socket.readyState = .opened → socket.onclose = true
  live : ∀ interval ∈ intervals, interval.client = index →
    socket.readyState ≠ .closed ∧ socket.onclose = true
  held : ∀ interval ∈ intervals, interval.client = index → Holds stomp interval

structure Timed (greeted : Nat → Prop) (page : Page) : Prop where
  owns : Each (Owns page.intervals) page
  known : ∀ interval ∈ page.intervals, interval.client < page.clients.length ∧ greeted interval.client

section Timed

variable {draw : Nat → Nat × Nat} {props : Props} {greeted later : Nat → Prop} {page middle next : Page}
  {index : Nat} {intervals fewer : List Interval} {socket : Socket} {stomp : Client}
  {frame : Frame} {frames : List Frame} {change : Socket → Socket}

private theorem owns_mono (owns : Owns intervals index socket stomp)
    (kept : ∀ interval ∈ fewer, interval.client = index → interval ∈ intervals) :
    Owns fewer index socket stomp :=
  ⟨owns.listens, fun interval member own => owns.live interval (kept interval member own) own,
    fun interval member own => owns.held interval (kept interval member own) own⟩

private theorem timed_mono (timed : Timed greeted page) (more : ∀ index, greeted index → later index) :
    Timed later page :=
  ⟨timed.owns, fun interval member => (timed.known interval member).imp_right (more _)⟩

private theorem timed_change (change : Change Any page next) (timed : Timed greeted page) :
    Timed greeted next := by
  obtain ⟨-, length, same, -, -⟩ := change_frame change
  refine ⟨?_, ?_⟩
  · rw [same]
    refine each_change ?_ ?_ ?_ ?_ change timed.owns
    · rintro index socket stomp after ⟨connected, version, subscriptions, rfl⟩ owns
      exact ⟨owns.listens, owns.live, owns.held⟩
    · exact fun _ _ _ _ _ _ _ _ owns => ⟨owns.listens, owns.live, owns.held⟩
    · exact fun _ _ _ _ owns => ⟨owns.listens, owns.live, owns.held⟩
    · exact fun _ _ _ _ _ owns => ⟨owns.listens, owns.live, owns.held⟩
  · rw [same, length]
    exact timed.known

private theorem timed_does {α : Type} {body : Method α} (does : Does (Change Any) body) :
    Keeps (Timed greeted) body := keeps_of_does (fun _ _ => timed_change) does

/-- The client clears what it knows of, and that is all there is. -/
private theorem timed_cleanUp (timed : Timed greeted page)
    (sockets : middle.component.sockets = page.component.sockets.modify index change)
    (clients : middle.clients = page.clients) (same : middle.intervals = page.intervals)
    (ends : ∀ socket : Socket,
      ¬ ((change socket).readyState = .connecting ∨ (change socket).readyState = .opened)) :
    Timed greeted (cleanUp index middle).2 := by
  have client : middle.client index = page.client index := by
    rw [Page.client, clients, Page.client]
  rw [cleanUp_eq, client]
  have fewer : ∀ interval ∈ (((middle.update index fun stomp => { stomp with connected := false }).clearInterval
      (page.client index).pinger).clearInterval (page.client index).ponger).intervals,
      interval ∈ page.intervals ∧ interval.client ≠ index := by
    intro interval member
    obtain ⟨first, notPonger⟩ := List.mem_filter.mp member
    obtain ⟨old, notPinger⟩ := List.mem_filter.mp first
    have before : interval ∈ page.intervals := same ▸ old
    refine ⟨before, fun own => ?_⟩
    have inside := (timed.known interval before).1
    have here := List.getElem?_eq_getElem (own ▸ inside)
    have there := List.getElem?_eq_getElem (timed.owns.length ▸ own ▸ inside)
    have held := (timed.owns.pair index _ _ there here).held interval before own
    have known : page.client index = page.clients[index] := by
      simp [Page.client, here]
    rw [known] at notPonger notPinger
    unfold Holds at held
    split at held
    · simp [held] at notPinger
    · simp [held] at notPonger
  refine ⟨?_, ?_⟩
  · refine each_turn timed.owns sockets (congrArg (List.modify · index _) clients) ?_ ?_
    · intro socket stomp _ _ _
      have none := fun interval member (own : interval.client = index) => (fewer interval member).2 own
      exact ⟨fun live => absurd live (ends socket), fun interval member own => (none interval member own).elim,
        fun interval member own => (none interval member own).elim⟩
    · exact fun other socket stomp _ owns => owns_mono owns fun interval member _ => (fewer interval member).1
  · intro interval member
    have known := timed.known interval (fewer interval member).1
    simpa [Page.clearInterval, Page.update, clients] using known

private theorem close_ends (socket : Socket) :
    ¬ (socket.close.readyState = .connecting ∨ socket.close.readyState = .opened) := by
  obtain ⟨readyState, onclose, subscriptions⟩ := socket
  cases readyState <;> simp [Socket.close, Socket.become]

private theorem lasts_timed : Lasts props Any (Timed greeted) where
  change _ _ := timed_change
  opens page index socket found connecting timed := by
    have inside := (List.getElem?_eq_some_iff.mp found).1
    have here := List.getElem?_eq_getElem (timed.owns.length ▸ inside : index < page.clients.length)
    obtain ⟨text, -, same⟩ := opened_eq found here
    rw [same]
    refine ⟨each_modify timed.owns rfl rfl fun before stomp there _ owns => ?_, ?_⟩
    · rw [found] at there
      cases there
      have listens := owns.listens (Or.inl connecting)
      exact ⟨fun _ => listens, fun _ _ _ => ⟨by simp, listens⟩, owns.held⟩
    · simpa [Page.update] using timed.known
  closes page index timed := by
    refine ⟨each_socket timed.owns rfl rfl fun socket stomp _ _ owns => ?_, timed.known⟩
    refine ⟨fun live => absurd live (close_ends socket), fun interval member own => ?_, owns.held⟩
    obtain ⟨stays, listens⟩ := owns.live interval member own
    obtain ⟨readyState, onclose, subscriptions⟩ := socket
    cases readyState <;> simp_all [Socket.close, Socket.become]
  leaves page index timed := by
    refine timed_cleanUp timed (List.modify_modify_eq ..) rfl rfl fun socket => ?_
    exact close_ends _
  closed page index socket found closing timed := by
    cases listens : socket.onclose with
    | true =>
      have cleaned := @timed_cleanUp greeted page
        { page with component := page.component.update index (Socket.become .closed) } index _ timed rfl rfl rfl
        (by simp)
      have runs : call (do become .closed index; onclose props index) page = (onclose props index
        { page with component := page.component.update index (Socket.become .closed) }).2 := rfl
      rw [if_pos rfl, runs, onclose, bind_apply, cleanUp_eq]
      rw [cleanUp_eq] at cleaned
      exact timed_does does_errorCallback _ cleaned
    | false =>
      refine ⟨each_socket timed.owns rfl rfl fun before stomp there _ owns => ?_, timed.known⟩
      rw [found] at there
      cases there
      refine ⟨by simp, fun interval member own => ?_, owns.held⟩
      rw [(owns.live interval member own).2] at listens
      cases listens

private theorem connection_timed (timed : Timed greeted page) : Timed greeted (call connection page) := by
  refine ⟨each_snoc timed.owns rfl rfl ?_, fun interval member => ?_⟩
  · refine ⟨fun _ => rfl, fun interval member own => ?_, fun interval member own => ?_⟩
    · exact absurd (timed.known interval member).1 (by omega)
    · exact absurd (timed.known interval member).1 (by omega)
  · have known := timed.known interval member
    exact ⟨by rw [connection_length]; omega, known.2⟩

/-! Frames -/

/-- The socket that a text comes from is open. -/
def Awake (index : Nat) (other : Nat) (socket : Socket) (_ : Client) : Prop :=
  other = index → socket.readyState = .opened

private theorem calm_awake : Calm Any (Awake index) where
  quiet _ _ _ _ _ awake := awake
  frame _ _ _ _ _ _ _ _ awake := awake
  ping _ _ _ _ awake := awake
  asked _ _ _ _ _ awake := awake
  beats _ _ _ _ _ awake := awake

/-- A client that has none of its kind starts an interval. -/
private theorem timed_start {beat : Beat} {ttl : Option (Option Int)} (timed : Timed greeted page)
    (awake : Each (Awake index) page) (inside : index < page.clients.length) (welcome : greeted index)
    (none : ∀ interval ∈ page.intervals, interval.client = index → interval.beat ≠ beat) :
    Timed greeted (start page index beat ttl) := by
  cases ttl with
  | none => exact timed
  | some ttl =>
    refine ⟨each_turn timed.owns (List.modify_id index _).symm rfl ?_ ?_, ?_⟩
    · intro socket stomp there here owns
      have opened := awake.pair index socket stomp there here rfl
      have listens := owns.listens (Or.inr opened)
      refine ⟨fun _ => listens, fun _ _ _ => ⟨by simp [opened], listens⟩, fun interval member own => ?_⟩
      rcases List.mem_append.mp member with old | new
      · have other := none interval old own
        have held := owns.held interval old own
        obtain ⟨id, client, kind, period⟩ := interval
        cases kind <;> cases beat <;> simp_all [Holds]
      · rw [List.mem_singleton.mp new]
        cases beat <;> rfl
    · intro other socket stomp apart owns
      apply owns_mono owns
      intro interval member own
      rcases List.mem_append.mp member with old | new
      · exact old
      · rw [List.mem_singleton.mp new] at own
        exact absurd own.symm apart
    · intro interval member
      have length : (page.setInterval index beat ttl).clients.length = page.clients.length := by
        simp [Page.setInterval, Page.update]
      rw [start, length]
      rcases List.mem_append.mp member with old | new
      · exact timed.known interval old
      · rw [List.mem_singleton.mp new]
        exact ⟨inside, welcome⟩

private theorem start_beats {beat : Beat} {ttl : Option (Option Int)} :
    ∀ interval ∈ (start page index beat ttl).intervals, interval ∈ page.intervals ∨ interval.beat = beat := by
  cases ttl with
  | none => exact fun _ => Or.inl
  | some ttl =>
    intro interval member
    rcases List.mem_append.mp member with old | new
    · exact Or.inl old
    · rw [List.mem_singleton.mp new]
      exact Or.inr rfl

private theorem onframe_timed (timed : Timed greeted page) (awake : Each (Awake index) page)
    (inside : index < page.clients.length) (new : isConnected frame = true → ¬ greeted index) :
    Timed (fun other => greeted other ∨ other = index ∧ isConnected frame = true)
      (onframe draw props index frame page).2 := by
  by_cases connected : frame.command = js "CONNECTED"
  · obtain ⟨version, ping, pong, same, -⟩ := @onframe_connected draw props index frame page connected
    have own : isConnected frame = true := decide_eq_true connected
    have fresh : ∀ interval ∈ page.intervals, interval.client ≠ index := by
      intro interval member same
      exact new own (same ▸ (timed.known interval member).2)
    have begun : Timed (fun other => greeted other ∨ other = index ∧ isConnected frame = true)
        (page.update index fun stomp => { stomp with connected := true, version }) := by
      refine ⟨each_update timed.owns rfl rfl fun _ _ _ _ owns => ⟨owns.listens, owns.live, owns.held⟩, ?_⟩
      intro interval member
      have known := timed.known interval member
      exact ⟨by simpa [Page.update] using known.1, Or.inl known.2⟩
    have awake : Each (Awake index) (page.update index fun stomp =>
        { stomp with connected := true, version }) := each_update awake rfl rfl fun _ _ _ _ => id
    have inside : index < (page.update index fun stomp =>
        { stomp with connected := true, version }).clients.length := by simpa [Page.update] using inside
    have pinging := @timed_start _ _ index .pinger ping begun awake inside (Or.inr ⟨rfl, own⟩)
      fun interval member own => absurd own (fresh interval member)
    have ponging := @timed_start _ _ index .ponger pong pinging
      (each_start calm_awake.beats awake) (by rwa [start_length]) (Or.inr ⟨rfl, own⟩) (by
        intro interval member own
        rcases start_beats interval member with old | kind
        · exact absurd own (fresh interval old)
        · simp [kind])
    rw [same]
    exact timed_does (does_connectCallback fine_any.subscribe) _ ponging
  · have other : isConnected frame = false := decide_eq_false connected
    have timed : Timed (fun other => greeted other ∨ other = index ∧ isConnected frame = true) page :=
      timed_mono timed fun _ => Or.inl
    by_cases message : frame.command = js "MESSAGE"
    · rw [onframe_message message, onreceive_eq]
      dsimp only
      split
      · exact ⟨each_of_same timed.owns rfl rfl, timed.known⟩
      · exact timed
    · rw [onframe_rest connected message]
      split
      · exact timed_does does_errorCallback page timed
      · exact timed

/-- At most one of the frames greets the client, and none if it has been greeted before. -/
private theorem onframes_timed (timed : Timed greeted page) (awake : Each (Awake index) page)
    (inside : index < page.clients.length) (once : (frames.filter isConnected).length ≤ 1)
    (new : ∀ frame ∈ frames, isConnected frame = true → ¬ greeted index) :
    Timed (fun other => greeted other ∨ other = index ∧ ∃ frame ∈ frames, isConnected frame = true)
      (onframes draw props index frames page).2 := by
  induction frames generalizing page greeted with
  | nil => exact timed_mono timed fun _ => Or.inl
  | cons frame frames ih =>
    have first := @onframe_timed draw props greeted page index frame timed awake inside
      (new frame List.mem_cons_self)
    have awake := @keeps_onframe draw props Any (Awake index) index frame calm_awake fine_any page awake
    have length := (@onframe_frame draw props page index frame).1
    rw [onframes, bind_apply]
    revert first awake length
    rcases onframe draw props index frame page with ⟨_ | _, middle⟩
    · intro first _ _
      apply timed_mono first
      intro other known
      rcases known with old | ⟨same, own⟩
      · exact Or.inl old
      · exact Or.inr ⟨same, frame, List.mem_cons_self, own⟩
    · intro first awake length
      have rest := @ih (fun other => greeted other ∨ other = index ∧ isConnected frame = true) middle first awake
        (by rw [length]; exact inside) (Nat.le_trans (List.Sublist.length_le
          ((List.sublist_cons_self frame frames).filter isConnected)) once) ?_
      · apply timed_mono rest
        intro other known
        rcases known with (old | ⟨same, own⟩) | ⟨same, later, member, own⟩
        · exact Or.inl old
        · exact Or.inr ⟨same, frame, List.mem_cons_self, own⟩
        · exact Or.inr ⟨same, later, List.mem_cons_of_mem _ member, own⟩
      · rintro later member own (old | ⟨-, earlier⟩)
        · exact new later (List.mem_cons_of_mem _ member) own old
        · have two : later ∈ frames.filter isConnected := List.mem_filter.mpr ⟨member, own⟩
          rw [List.filter_cons_of_pos earlier, List.length_cons] at once
          have some := List.length_pos_of_mem two
          omega

end Timed

/-! ## Runs -/

/-- The `CONNECTED` frames that have arrived at a socket. -/
def greetings (index : Nat) (events : List Event) : List Frame :=
  (receive [] (arrived index events)).1.filter isConnected

section Runs

variable {draw : Nat → Nat × Nat} {props : Props} {events : List Event} {event : Event} {page next : Page}
  {index : Nat} {data : JsString} {now : Nat}

private theorem greetings_own : greetings index (events ++ [.message index data now]) = greetings index events ++
    (onmessage (receive [] (arrived index events)).2 data).1.filter isConnected := by
  rw [greetings, arrived_own, receive_snoc, List.filter_append, greetings]

/-- What has arrived is not taken back. -/
private theorem greetings_grow : (greetings index events).Sublist (greetings index (events ++ [event])) := by
  by_cases text : ∃ data now, event = .message index data now
  · obtain ⟨data, now, rfl⟩ := text
    rw [greetings_own]
    exact List.sublist_append_left _ _
  · have nothing : brings index event = none := by
      cases event with
      | message client data now =>
        have apart : client ≠ index := fun same => text ⟨data, now, by rw [same]⟩
        simp [brings, apart]
      | opened | lost | closed | fire | beat | sendMsg | ack | nack | beforeDestroy => rfl
    have same : arrived index (events ++ [event]) = arrived index events := by
      simp [arrived, List.filterMap_append, nothing]
    have grown : greetings index (events ++ [event]) = greetings index events := by
      rw [greetings, same, greetings]
    rw [grown]

def Greeted (events : List Event) (index : Nat) : Prop := greetings index events ≠ []

private theorem message_timed (each : Each (Reads events) page) (timed : Timed (Greeted events) page)
    (once : ∀ other, (greetings other (events ++ [.message index data now])).length ≤ 1)
    (stepped : step draw props page (.message index data now) = some next) :
    Timed (Greeted (events ++ [.message index data now])) next := by
  obtain ⟨socket, found, able, -⟩ := onSocket_cases stepped
  have opened := beq_iff_eq.mp able
  have inside : index < page.clients.length := each.length ▸ (List.getElem?_eq_some_iff.mp found).1
  have here := List.getElem?_eq_getElem inside
  have kept : (page.client index).partialData = (receive [] (arrived index events)).2 := by
    rw [Page.client, here]
    exact (each.pair index _ _ found here).partialData
  have own := once index
  rw [greetings_own, List.length_append, ← kept] at own
  have awake : Each (Awake index) (arrives page index data now) := by
    refine each_turn each (List.modify_id index _).symm rfl ?_ fun _ _ _ apart _ same => absurd same apart
    intro there stomp known _ _ _
    rw [found] at known
    cases known
    exact opened
  have arrived : Timed (Greeted events) (arrives page index data now) := by
    refine ⟨each_update timed.owns rfl rfl fun _ _ _ _ owns => ⟨owns.listens, owns.live, owns.held⟩, ?_⟩
    simpa [arrives, Page.update] using timed.known
  rw [message_step stepped]
  refine timed_mono (onframes_timed arrived awake (by rwa [arrives_length]) (by omega) ?_) ?_
  · intro frame member greets before
    have some := List.length_pos_of_ne_nil before
    have two := List.length_pos_of_mem (List.mem_filter.mpr ⟨member, greets⟩)
    omega
  · rintro other (before | ⟨rfl, frame, member, greets⟩)
    · exact fun nothing => before (List.sublist_nil.mp (nothing ▸ greetings_grow))
    · rw [Greeted, greetings_own, ← kept]
      exact List.append_ne_nil_of_right_ne_nil _ (List.ne_nil_of_mem (List.mem_filter.mpr ⟨member, greets⟩))

private theorem timed_step (each : Each (Reads events) page)
    (timed : Timed (Greeted events) page) (once : ∀ index, (greetings index (events ++ [event])).length ≤ 1)
    (stepped : step draw props page event = some next) : Timed (Greeted (events ++ [event])) next := by
  rcases text_or_mute event with ⟨index, data, now, rfl⟩ | mute
  · exact message_timed each timed once stepped
  · have after : Timed (Greeted events) next :=
      lasts_step lasts_timed (fun _ => connection_timed) fine_any allowed_any mute stepped timed
    exact timed_mono after fun index before nothing =>
      before (List.sublist_nil.mp (nothing ▸ greetings_grow))

/-- A connection that is greeted, loses its socket and is replaced. -/
private def replaced : List Event :=
  [.opened 0, .message 0 (js "CONNECTED\nversion:1.2\nheart-beat:0,10000\n\n" ++ [NULL]) 5,
    .lost 0, .closed 0, .fire 0, .opened 1,
    .message 1 (js "CONNECTED\nversion:1.2\nheart-beat:10000,10000\n\n" ++ [NULL]) 60005]

end Runs

/-! ## Silence -/

def hears (index : Nat) : Event → Option Nat
  | .message client _ now => if client = index then some now else none
  | _ => none

/-- When the texts of a socket arrived. -/
def times (index : Nat) (events : List Event) : List Nat := events.filterMap (hears index)

def Heard (events : List Event) (index : Nat) (_ : Socket) (stomp : Client) : Prop :=
  stomp.serverActivity = (times index events).getLast?

/-- An interval that waits for the server waits no less than the client has asked for. -/
def Patient (interval : Interval) : Prop :=
  interval.beat = .ponger → ∀ ttl, interval.ttl = some ttl → incoming ≤ ttl

structure Waits (events : List Event) (page : Page) : Prop where
  outside : ∀ index, page.clients.length ≤ index → times index events = []
  patient : ∀ interval ∈ page.intervals, Patient interval

section Silence

variable {draw : Nat → Nat × Nat} {props : Props} {events : List Event} {event : Event} {page next : Page}
  {index other : Nat} {data : JsString} {now : Nat} {frame : Frame} {frames : List Frame} {interval : Interval}

private theorem steady_heard : Steady Any (Heard events) where
  quiet index socket stomp after quiet heard := by
    obtain ⟨connected, version, subscriptions, rfl⟩ := quiet
    exact heard
  frame _ _ _ _ _ _ _ _ heard := heard
  ping _ _ _ _ heard := heard
  asked _ _ _ _ _ heard := heard
  beats _ _ _ _ _ heard := heard
  opens _ _ _ _ _ _ heard := heard
  leaves _ _ _ _ _ heard := heard

private theorem waits_framed (framed : Framed page next) (waits : Waits events page) : Waits events next :=
  ⟨framed.length ▸ waits.outside, fun interval member => waits.patient interval (framed.intervals member)⟩

private theorem connection_heard (both : Each (Heard events) page ∧ Waits events page) :
    Each (Heard events) (call connection page) ∧ Waits events (call connection page) := by
  obtain ⟨each, outside, patient⟩ := both
  have new : Heard events page.clients.length {} fresh := by
    rw [Heard, outside page.clients.length (Nat.le_refl _)]
    rfl
  refine ⟨each_snoc each rfl rfl new, fun index out => ?_, patient⟩
  rw [connection_length] at out
  exact outside index (Nat.le_of_succ_le out)

private theorem patient_start {beat : Beat} {ttl : Option (Option Int)}
    (patient : ∀ interval ∈ page.intervals, Patient interval)
    (waits : beat = .ponger → ∀ period, ttl = some (some period) → incoming ≤ period) :
    ∀ interval ∈ (start page index beat ttl).intervals, Patient interval := by
  cases ttl with
  | none => exact patient
  | some ttl =>
    intro interval member
    rcases List.mem_append.mp member with old | new
    · exact patient interval old
    · rw [List.mem_singleton.mp new]
      intro kind period chosen
      exact waits kind period (congrArg some chosen)

private theorem patient_onframe : Keeps (fun page : Page => ∀ interval ∈ page.intervals, Patient interval)
    (onframe draw props index frame) := by
  intro page patient
  by_cases connected : frame.command = js "CONNECTED"
  · obtain ⟨version, ping, pong, same, long⟩ := @onframe_connected draw props index frame page connected
    rw [same, (does_frame (does_connectCallback fine_any.subscribe : Does (Change Any) _) _).2.2.1]
    refine patient_start (patient_start patient ?_) fun _ => long
    intro impossible
    cases impossible
  · by_cases message : frame.command = js "MESSAGE"
    · rw [onframe_message message, onreceive_eq]
      dsimp only
      split <;> exact patient
    · rw [onframe_rest connected message]
      split
      · rw [(does_frame (does_errorCallback : Does (Change Any) (errorCallback props)) page).2.2.1]
        exact patient
      · exact patient

private theorem patient_onframes : Keeps (fun page : Page => ∀ interval ∈ page.intervals, Patient interval)
    (onframes draw props index frames) := by
  induction frames with
  | nil => exact keeps_pure ()
  | cons frame frames ih => exact keeps_bind patient_onframe fun _ => ih

private theorem message_heard (both : Each (Heard events) page ∧ Waits events page)
    (stepped : step draw props page (.message index data now) = some next) :
    Each (Heard (events ++ [.message index data now])) next ∧
      Waits (events ++ [.message index data now]) next := by
  obtain ⟨each, outside, patient⟩ := both
  obtain ⟨socket, found, -, -⟩ := onSocket_cases stepped
  have inside : index < page.clients.length := each.length ▸ (List.getElem?_eq_some_iff.mp found).1
  have own : times index (events ++ [.message index data now]) = times index events ++ [now] := by
    simp [times, List.filterMap_append, hears]
  have others (other : Nat) (apart : other ≠ index) :
      times other (events ++ [.message index data now]) = times other events := by
    simp [times, List.filterMap_append, hears, Ne.symm apart]
  have heard : Each (Heard (events ++ [.message index data now])) (arrives page index data now) := by
    refine each_turn each (List.modify_id index _).symm rfl ?_ ?_
    · intro there stomp _ _ _
      rw [Heard, own, List.getLast?_concat]
    · intro other there stomp apart before
      rwa [Heard, others other apart]
  rw [message_step stepped]
  refine ⟨keeps_onframes steady_heard.toCalm fine_any _ heard, fun other out => ?_, patient_onframes _ patient⟩
  rw [call, onframes_frame.1, arrives_length] at out
  rw [others other (by omega)]
  exact outside other out

private theorem heard_step (both : Each (Heard events) page ∧ Waits events page)
    (stepped : step draw props page event = some next) :
    Each (Heard (events ++ [event])) next ∧ Waits (events ++ [event]) next := by
  rcases text_or_mute event with ⟨index, data, now, rfl⟩ | mute
  · exact message_heard both stepped
  · have lasts : Lasts props Any fun page => Each (Heard events) page ∧ Waits events page :=
      lasts_and (lasts_each steady_heard) (lasts_framed fun _ _ => waits_framed)
    have same (index : Nat) : times index (events ++ [event]) = times index events := by
      have nothing : hears index event = none := by
        cases event <;> simp_all [hears]
      simp [times, List.filterMap_append, nothing]
    obtain ⟨each, outside, patient⟩ :=
      lasts_step lasts (fun _ => connection_heard) fine_any allowed_any mute stepped both
    refine ⟨each_imp each fun index _ _ heard => ?_, fun index out => ?_, patient⟩
    · rwa [Heard, same]
    · rw [same]
      exact outside index out

/-- Only a ponger closes anything, and only after twice its period. -/
private theorem beat_closes (closes : (call (beat interval now) page).component ≠ page.component) :
    ∃ (serverActivity : Nat) (ttl : Int), interval.beat = .ponger ∧
      (page.client interval.client).serverActivity = some serverActivity ∧ interval.ttl = some ttl ∧
      ttl * 2 < (now : Int) - serverActivity := by
  obtain ⟨id, client, kind, ttl⟩ := interval
  cases kind with
  | pinger =>
    refine absurd ?_ closes
    rw [call, beat, discard_apply, wsSend_eq]
    dsimp only
    split <;> rfl
  | ponger =>
    cases active : (page.client client).serverActivity with
    | none => simp [call, beat, bind_apply, get_apply, pure_apply, active] at closes
    | some serverActivity =>
      cases ttl with
      | none => simp [call, beat, bind_apply, get_apply, pure_apply] at closes
      | some ttl =>
        by_cases silent : ttl * 2 < (now : Int) - serverActivity
        · exact ⟨serverActivity, ttl, rfl, rfl, rfl, silent⟩
        · simp [call, beat, bind_apply, get_apply, pure_apply, active, silent] at closes

/-- A turn of an interval closes a socket, or does anything else to the component,
only if the last text of the socket arrived long before. -/
theorem silence_before_close {supported : Bool}
    (ran : exec (step draw props) (mounted supported) events = some page)
    (stepped : step draw props page (.beat interval now) = some next)
    (closes : next.component ≠ page.component) :
    ∃ time, (times interval.client events).getLast? = some time ∧ time + 2 * incoming < now := by
  have both : Each (Heard events) page ∧ Waits events page := by
    refine exec_history (fun before page => Each (Heard before) page ∧ Waits before page) (fun _ => True)
      ⟨each_mounted rfl supported, fun _ _ => rfl, ?_⟩ (fun _ _ _ _ both _ => heard_step both)
      (fun _ _ => trivial) ran
    have none : (mounted supported).intervals = [] := by
      cases supported <;> rfl
    rw [none]
    exact List.forall_mem_nil _
  obtain ⟨each, -, patient⟩ := both
  simp only [step] at stepped
  split at stepped
  · rename_i running
    cases stepped
    obtain ⟨serverActivity, ttl, kind, active, period, silent⟩ := beat_closes closes
    refine ⟨serverActivity, ?_, ?_⟩
    · cases here : page.clients[interval.client]? with
      | none => simp [Page.client, here] at active
      | some stomp =>
        have inside := (List.getElem?_eq_some_iff.mp here).1
        have there := List.getElem?_eq_getElem (each.length ▸ inside :
          interval.client < page.component.sockets.length)
        have heard : stomp.serverActivity = (times interval.client events).getLast? :=
          each.pair interval.client _ stomp there here
        rw [← heard]
        simpa [Page.client, here] using active
    · have long := patient interval running kind ttl period
      omega
  · cases stepped

/-- A server that greets a client and is not heard again. -/
private def silent : List Event :=
  [.opened 0, .message 0 (js "CONNECTED\nversion:1.2\nheart-beat:10000,0\n\n" ++ [NULL]) 5]

theorem silent_before_close : ∃ page next : Page,
    exec (step (fun n => (7, n)) {}) (mounted true) silent = some page ∧
      step (fun n => (7, n)) {} page (.beat ⟨0, 0, .ponger, some 10000⟩ 20006) = some next ∧
      next.component ≠ page.component ∧
      ∃ time, (times 0 silent).getLast? = some time ∧ time + 2 * incoming < 20006 := by
  have runs : ((exec (step (fun n => (7, n)) {}) (mounted true) silent).bind fun page =>
      (step (fun n => (7, n)) {} page (.beat ⟨0, 0, .ponger, some 10000⟩ 20006)).bind fun next =>
        if next.component ≠ page.component then some () else none) = some () := by decide +kernel
  obtain ⟨page, ran, rest⟩ := Option.bind_eq_some_iff.mp runs
  obtain ⟨next, stepped, changed⟩ := Option.bind_eq_some_iff.mp rest
  have closes : next.component ≠ page.component := by
    by_contra same
    rw [if_neg (not_not_intro same)] at changed
    cases changed
  exact ⟨page, next, ran, stepped, closes, silence_before_close ran stepped closes⟩

end Silence

end Tomas.PageHeartbeats
