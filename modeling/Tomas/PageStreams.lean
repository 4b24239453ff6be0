import Tomas.PageInvariants

/-! What the other ends of a page's sockets read. A client cuts what it writes
into pieces, and a reader puts pieces together again and takes a line feed that
comes alone for a heart-beat. The pieces of a frame never are that, and the frames
a page writes leave the separators alone, so that every socket carries exactly
the frames that were written to it. -/
namespace Tomas.PageStreams
open Tomas.Delimited Tomas.JsStrings Tomas.Methods Tomas.Runs Tomas.StompFrames Tomas.StompStreams
open Tomas.Views Tomas.StompPage Tomas.PageChanges Tomas.PageInvariants
open Tomas.WebSocketComponent (Props Socket ReadyState)

/-! ## Pieces -/

section Pieces

variable {s : Reader UInt16} {fuel : Nat} {data record : JsString} {pieces more : List JsString}

private theorem slices_flatten : (slices fuel data).1.flatten ++ (slices fuel data).2 = data := by
  induction fuel generalizing data with
  | zero => rfl
  | succ fuel ih =>
    rw [slices]
    split
    · simp [ih]
    · rfl

theorem cut_flatten : (cut data).flatten = data := by
  rw [cut, List.flatten_append, List.flatten_singleton, slices_flatten]

private theorem slices_full : ∀ piece ∈ (slices fuel data).1, piece.length = maxWebSocketFrameSize := by
  induction fuel generalizing data with
  | zero => simp [slices]
  | succ fuel ih =>
    rw [slices]
    split
    · rename_i long
      intro piece member
      rcases List.mem_cons.mp member with rfl | later
      · rw [List.length_take, Nat.min_eq_left (Nat.le_of_lt long)]
      · exact ih piece later
    · simp

private theorem slices_rest (enough : data.length ≤ fuel) :
    (slices fuel data).2.length ≤ maxWebSocketFrameSize := by
  induction fuel generalizing data with
  | zero => simp [slices, List.length_eq_zero_iff.mp (Nat.le_zero.mp enough)]
  | succ fuel ih =>
    rw [slices]
    split
    · apply ih
      have positive : 0 < maxWebSocketFrameSize := by decide
      rw [List.length_drop]
      omega
    · rename_i short
      exact Nat.not_lt.mp short

theorem cut_small : ∀ piece ∈ cut data, piece.length ≤ maxWebSocketFrameSize := by
  intro piece member
  rcases List.mem_append.mp member with full | rest
  · exact Nat.le_of_eq (slices_full piece full)
  · rw [List.mem_singleton.mp rest]
    exact slices_rest (Nat.le_refl _)

/-- A piece of full size is longer than a line feed, and the last ends as the data do. -/
private theorem cut_other (last : data.getLast? = some NULL) : ∀ piece ∈ cut data, piece ≠ [LF] := by
  intro piece member same
  rcases List.mem_append.mp member with full | rest
  · have length := slices_full piece full
    rw [same] at length
    exact absurd length (by decide)
  · have whole := @slices_flatten data.length data
    rw [← List.mem_singleton.mp rest, same] at whole
    rw [← whole, List.getLast?_concat] at last
    exact absurd last (by decide)

theorem cut_append : Cut s (pieces ++ more) ↔ Cut s pieces ∧ Cut (s.read NULL LF pieces.flatten).2 more := by
  induction pieces generalizing s with
  | nil => simp [Cut, Reader.read]
  | cons piece pieces ih => simp [Cut, ih, read_append, and_assoc]

/-- A record with its delimiter may be cut anywhere where no piece is a single filler. -/
private theorem cut_pieces (plain : NULL ∉ record)
    (whole : pieces.flatten = record ++ [NULL] ∨ pieces.flatten = [])
    (starts : s.behind = true → pieces.flatten.head? ≠ some LF) (other : ∀ piece ∈ pieces, piece ≠ [LF]) :
    Cut s pieces := by
  induction pieces generalizing s record with
  | nil => trivial
  | cons piece later ih =>
    have own : s.behind = true → piece.head? ≠ some LF := by
      intro behind
      cases piece with
      | nil => simp
      | cons unit rest => simpa using starts behind
    have rest := fun piece member => other piece (List.mem_cons_of_mem _ member)
    constructor
    · split
      · rename_i behind
        exact Or.inr (own behind)
      · exact other piece List.mem_cons_self
    · rcases List.eq_nil_or_concat later.flatten with nothing | ⟨front, last, more⟩
      · refine ih plain (Or.inr nothing) ?_ rest
        simp [nothing]
      · -- more is to come, so that the delimiter is not in this piece
        rw [List.concat_eq_append] at more
        rw [List.flatten_cons, more, ← List.append_assoc] at whole
        have whole := whole.resolve_right (by simp)
        obtain ⟨rfl, same⟩ := List.append_inj' whole rfl
        rw [same] at more
        have absent : NULL ∉ piece := fun member => plain (List.mem_append_left _ member)
        refine ih (fun member => plain (List.mem_append_right _ member)) (Or.inl more) ?_ rest
        rw [read_plain absent own]
        split
        · rename_i empty
          rw [List.flatten_cons, empty] at starts
          exact starts
        · intro impossible
          cases impossible

end Pieces

/-! ## What a client has written -/

/-- Whole frames and heart-beats have gone out, in pieces that are read as such. -/
structure Written (transmitted : List Frame) (sent : List JsString) : Prop where
  stream : Stream transmitted sent.flatten
  cut : Cut { behind := true } sent
  small : ∀ piece ∈ sent, piece.length ≤ maxWebSocketFrameSize

section Writing

variable {transmitted frames : List Frame} {frame : Frame} {text : JsString} {sent pieces : List JsString}

private theorem written_append (written : Written transmitted sent) (stream : Stream frames pieces.flatten)
    (cuts : Cut { behind := true } pieces) (small : ∀ piece ∈ pieces, piece.length ≤ maxWebSocketFrameSize) :
    Written (transmitted ++ frames) (sent ++ pieces) := by
  refine ⟨?_, ?_, ?_⟩
  · rw [List.flatten_append]
    exact stream_append written.stream stream
  · obtain ⟨records, read, -⟩ := read_stream written.stream
    refine cut_append.mpr ⟨written.cut, ?_⟩
    rw [read]
    exact cuts
  · intro piece member
    rcases List.mem_append.mp member with old | new
    · exact written.small piece old
    · exact small piece new

private theorem written_frame (written : Written transmitted sent) (sendable : frame.Sendable)
    (marshalled : marshall frame = .ok text) : Written (transmitted ++ [frame]) (sent ++ cut text) := by
  obtain ⟨record, printed, rfl⟩ := marshall_cases marshalled
  obtain ⟨plain, starts⟩ := toString_record sendable printed
  refine written_append written ?_ ?_ cut_small
  · have stream := Stream.frame sendable marshalled .done
    rw [List.append_nil] at stream
    rw [cut_flatten]
    exact stream
  · refine cut_pieces plain (Or.inl cut_flatten) (fun _ => ?_) (cut_other (by simp))
    rw [cut_flatten]
    cases record with
    | nil => simpa using (by decide : NULL ≠ LF)
    | cons unit record => simpa using starts

private theorem written_ping (written : Written transmitted sent) : Written transmitted (sent ++ [[LF]]) := by
  have beat : Stream [] [[LF]].flatten := .beat .done
  have both := written_append written beat ⟨Or.inl rfl, trivial⟩ (by decide)
  rwa [List.append_nil] at both

theorem read_back (written : Written transmitted sent) :
    receive [] sent = (transmitted.map Frame.received, []) := by
  obtain ⟨records, read, same⟩ := read_stream written.stream
  have received := @receive_eq { behind := true } sent lawful_start written.cut
  rw [read, same] at received
  exact received

end Writing

/-! ## The frames of a page -/

section Sendable

variable {id destination : JsString} {received : Received} {msg : JsString} {n : Nat}

private theorem digit_ne {unit other : UInt16} (member : unit ∈ decimal n) (plain : isDigit other = false) :
    unit ≠ other := by
  rintro rfl
  rw [isDigit_decimal unit member] at plain
  cases plain

private theorem onLine_decimal : OnLine (decimal n) :=
  ⟨fun member => digit_ne member rfl rfl, fun member => digit_ne member rfl rfl⟩

private theorem onLine_append {front rest : JsString} (first : OnLine front) (second : OnLine rest) :
    OnLine (front ++ rest) := by
  simp [OnLine, first.1, first.2, second.1, second.2]

private theorem createId_onLine (drawn : Nat × Nat) : OnLine (js "sub-" ++ createId drawn) := by
  have dash : OnLine [45] := by decide
  exact onLine_append (by decide) (onLine_append onLine_decimal (onLine_append dash onLine_decimal))

/-- A name that is not taken for anything else. -/
def ProperName (name : JsString) : Prop :=
  OnLine name ∧ colon ∉ name ∧ trim name ≠ js "__proto__" ∧ trim name ≠ contentLength

instance (name : JsString) : Decidable (ProperName name) :=
  inferInstanceAs (Decidable (OnLine name ∧ colon ∉ name ∧ trim name ≠ js "__proto__" ∧
    trim name ≠ contentLength))

private theorem properName_ne {name : JsString} (proper : ProperName name) : name ≠ js "__proto__" := by
  have plain : trim (js "__proto__") = js "__proto__" := by decide
  rintro rfl
  exact proper.2.2.1 plain

/-- Properties that are texts. -/
def texts (headers : List (JsString × JsString)) : List (JsString × Value) :=
  headers.map fun header => (header.1, .text header.2)

/-- Texts under names of their own. -/
private theorem sendable_texts {command body : JsString} {headers : List (JsString × JsString)}
    (named : command ≠ [] ∧ OnLine command) (names : ∀ header ∈ headers, ProperName header.1)
    (values : ∀ header ∈ headers, OnLine header.2) (distinct : (headers.map (trim ·.1)).Nodup)
    (ends : NULL ∉ body) (short : ∀ size ∈ utf8Length body, size < 2 ^ 53) :
    ({ command, headers := .of (texts headers), body } : Frame).Sendable := by
  have plain : ∀ entry ∈ texts headers, entry.1 ≠ js "__proto__" := by
    intro entry member
    obtain ⟨header, inside, rfl⟩ := List.mem_map.mp member
    exact properName_ne (names header inside)
  have trims : (texts headers).map (trim ·.1) = headers.map (trim ·.1) := List.map_map ..
  have own : ((texts headers).map Prod.fst).Nodup := by
    apply List.Nodup.of_map trim
    rw [List.map_map]
    exact trims ▸ distinct
  have perm := perm_of plain own
  have kept : ({ command, headers := .of (texts headers), body } : Frame).kept = .of (texts headers) := by
    apply if_neg
    intro off
    obtain ⟨entry, found, same⟩ := Option.map_eq_some_iff.mp off
    obtain ⟨header, -, rfl⟩ := List.mem_map.mp (perm.mem_iff.mp (List.mem_of_find?_eq_some found))
    cases same
  constructor
  · exact named
  · rw [kept]
    intro entry member
    obtain ⟨header, inside, rfl⟩ := List.mem_map.mp (perm.mem_iff.mp member)
    exact ⟨(names header inside).1, (names header inside).2.1, values header inside⟩
  · rw [kept, (perm.map (trim ·.1)).nodup_iff, trims]
    exact distinct
  · rw [kept]
    intro entry member
    obtain ⟨header, inside, rfl⟩ := List.mem_map.mp (perm.mem_iff.mp member)
    exact (names header inside).2.2
  · exact ends
  · exact short

/-- Frames without a body. -/
private theorem sendable_bodiless {command : JsString} {headers : List (JsString × JsString)}
    (named : command ≠ [] ∧ OnLine command) (names : ∀ header ∈ headers, ProperName header.1)
    (values : ∀ header ∈ headers, OnLine header.2) (distinct : (headers.map (trim ·.1)).Nodup) :
    ({ command, headers := .of (texts headers) } : Frame).Sendable :=
  sendable_texts named names values distinct List.not_mem_nil (by decide)

/-- Two texts, as most of the frames have. -/
private theorem sendable_pair {command name other first second : JsString}
    (named : command ≠ [] ∧ OnLine command) (names : ProperName name ∧ ProperName other)
    (distinct : trim name ≠ trim other) (values : OnLine first ∧ OnLine second) :
    ({ command, headers := .of [(name, .text first), (other, .text second)] } : Frame).Sendable := by
  refine @sendable_bodiless command [(name, first), (other, second)] named ?_ ?_ ?_
  · simpa using names
  · simpa using values
  · simpa using distinct

private theorem connect_sendable : (connectFrame fresh.headers).Sendable := by
  have headers : connectHeaders fresh.headers = .of (texts [(js "id", js "starter"),
      (js "accept-version", js "1.2"), (js "heart-beat", js "10000,10000")]) := by decide +kernel
  rw [connectFrame, headers]
  exact sendable_bodiless (by decide) (by decide) (by decide) (by decide)

private theorem disconnect_sendable : ({ command := js "DISCONNECT" } : Frame).Sendable :=
  @sendable_bodiless (js "DISCONNECT") [] (by decide) (List.forall_mem_nil _) (List.forall_mem_nil _)
    List.nodup_nil

private theorem subscribe_sendable (plain : OnLine id) : (subscribeFrame id topic).Sendable :=
  sendable_pair (by decide) (by decide) (by decide) ⟨plain, by decide⟩

private theorem acknowledge_sendable {command idAttr : JsString}
    (named : command = js "ACK" ∨ command = js "NACK") (attr : idAttr = js "id" ∨ idAttr = js "message-id")
    (plain : OnLine received.messageID ∧ OnLine received.subscription) :
    (acknowledgeFrame command idAttr received).Sendable := by
  have command : command ≠ [] ∧ OnLine command := by
    rcases named with rfl | rfl <;> decide
  have name : ProperName idAttr ∧ trim idAttr ≠ trim (js "subscription") := by
    rcases attr with rfl | rfl <;> decide
  exact sendable_pair command ⟨name.1, by decide⟩ name.2 plain

private theorem trim_decimal : trim (decimal n) = decimal n := trim_eq_self isSpace_decimal

/-- A name with anything but digits in it is no number. -/
private theorem decimal_ne {text : JsString} (other : ∃ unit ∈ text, isDigit unit = false) :
    decimal n ≠ text := by
  rintro rfl
  obtain ⟨unit, member, plain⟩ := other
  exact digit_ne member plain rfl

private theorem decimal_proper : ProperName (decimal n) := by
  refine ⟨onLine_decimal, fun member => digit_ne member rfl rfl, ?_, ?_⟩
  · rw [trim_decimal]
    exact decimal_ne (by decide)
  · rw [trim_decimal]
    exact decimal_ne (by decide)

private theorem destination_ne : js "destination" ≠ decimal n := (decimal_ne (by decide)).symm

/-- The characters of the message are the values of numbered headers. -/
private theorem sendMsg_sendable (plain : OnLine msg) :
    (sendFrame (js "/app/getCmd") (js "[object Object]") (numbered msg)).Sendable := by
  let headers : List (JsString × JsString) :=
    msg.zipIdx.map (fun unit => (decimal unit.2, [unit.1])) ++ [(js "destination", js "/app/getCmd")]
  have set : (numbered msg).set (js "destination") (.text (js "/app/getCmd")) = .of (texts headers) := by
    simp [numbered, Headers.of, texts, headers, List.foldl_map]
  rw [sendFrame, set]
  refine sendable_texts (by decide) ?_ ?_ ?_ (by decide) (by decide +kernel)
  · intro header member
    rcases List.mem_append.mp member with unit | last
    · obtain ⟨unit, -, rfl⟩ := List.mem_map.mp unit
      exact decimal_proper
    · rw [List.mem_singleton.mp last]
      decide
  · intro header member
    rcases List.mem_append.mp member with unit | last
    · obtain ⟨unit, inside, rfl⟩ := List.mem_map.mp unit
      have own := List.fst_mem_of_mem_zipIdx inside
      refine ⟨fun same => plain.1 ?_, fun same => plain.2 ?_⟩
      · rwa [List.mem_singleton.mp same]
      · rwa [List.mem_singleton.mp same]
    · rw [List.mem_singleton.mp last]
      decide
  · have numbers : ((msg.zipIdx.map fun unit => (decimal unit.2, [unit.1])).map
        (trim ·.1) : List JsString) = (List.range' 0 msg.length).map decimal := by
      rw [← List.zipIdx_map_snd 0 msg, List.map_map, List.map_map]
      exact List.map_congr_left fun unit _ => trim_decimal
    rw [List.map_append, numbers, List.nodup_append]
    refine ⟨List.Nodup.map (fun m n => decimal_injective) (List.nodup_range' ..), List.nodup_singleton _, ?_⟩
    rintro name number other last rfl
    obtain ⟨index, -, rfl⟩ := List.mem_map.mp number
    have plain : trim (js "destination") = js "destination" := by decide
    exact destination_ne (plain.symm.trans (List.mem_singleton.mp last).symm)

end Sendable

/-! ## Runs -/

/-- What `sendMsg` sends. -/
def command (msg : JsString) : Frame := sendFrame (js "/app/getCmd") (js "[object Object]") (numbered msg)

def asks : Event → Option Frame
  | .sendMsg msg => some (command msg)
  | _ => none

def isSend (frame : Frame) : Bool := frame.command = js "SEND"

/-- What has gone out of a socket: first of all a `CONNECT`, and of the messages
some of those that were asked for. -/
structure Carries (messages : List Frame) (socket : Socket) (stomp : Client) : Prop where
  written : Written stomp.transmitted stomp.sent
  waits : socket.readyState = .connecting → stomp.headers = fresh.headers ∧ stomp.transmitted = []
  begins : socket.readyState = .opened → stomp.transmitted ≠ []
  first : ∀ frame ∈ stomp.transmitted.head?, frame = connectFrame fresh.headers
  sends : (stomp.transmitted.filter isSend).Sublist messages

/-- A frame that keeps its form and is not a message of the component. -/
def Plain (frame : Frame) : Prop := frame.Sendable ∧ isSend frame = false

section Runs

variable {draw : Nat → Nat × Nat} {props : Props} {page next : Page} {event : Event}
  {messages more : List Frame} {socket : Socket} {stomp : Client} {frame : Frame} {text : JsString}
  {index : Nat} {msg : JsString}

/-- A frame goes out of an open socket, after others. -/
private theorem carries_frame (opened : socket.readyState = .opened) (sendable : frame.Sendable)
    (marshalled : marshall frame = .ok text)
    (sends : ((stomp.transmitted ++ [frame]).filter isSend).Sublist more)
    (carries : Carries messages socket stomp) :
    Carries more socket
      { stomp with sent := stomp.sent ++ cut text, transmitted := stomp.transmitted ++ [frame] } where
  written := written_frame carries.written sendable marshalled
  waits connecting := by
    rw [opened] at connecting
    cases connecting
  begins _ := by simp
  first other begun := by
    apply carries.first other
    rwa [List.head?_append_of_ne_nil _ (carries.begins opened)] at begun
  sends := sends

private theorem carries_leaving {after : Socket} (leaving : Leaving socket after)
    (carries : Carries messages socket stomp) : Carries messages after stomp := by
  have stays {readyState : ReadyState} (live : readyState = .connecting ∨ readyState = .opened)
      (now : after.readyState = readyState) : socket.readyState = readyState := by
    rcases leaving.2 with same | gone
    · rw [← same, now]
    · rw [now] at gone
      rcases live with rfl | rfl <;> simp at gone
  exact ⟨carries.written, fun connecting => carries.waits (stays (Or.inl rfl) connecting),
    fun opened => carries.begins (stays (Or.inr rfl) opened), carries.first, carries.sends⟩

private theorem closed_carries : Closed Plain fun _ => Carries messages where
  quiet _ socket stomp after quiet carries := by
    obtain ⟨connected, version, subscriptions, rfl⟩ := quiet
    exact ⟨carries.written, carries.waits, carries.begins, carries.first, carries.sends⟩
  frame _ socket stomp frame text opened plain marshalled carries := by
    refine carries_frame opened plain.1 marshalled ?_ carries
    simpa [List.filter_append, plain.2] using carries.sends
  ping _ socket stomp opened carries := by
    rw [List.append_nil]
    exact ⟨written_ping carries.written, carries.waits, carries.begins, carries.first, carries.sends⟩
  asked _ _ _ _ _ carries :=
    ⟨carries.written, carries.waits, carries.begins, carries.first, carries.sends⟩
  beats _ _ _ _ _ carries :=
    ⟨carries.written, carries.waits, carries.begins, carries.first, carries.sends⟩
  opens _ socket stomp text connecting marshalled carries := by
    obtain ⟨headers, nothing⟩ := carries.waits connecting
    have other : isSend (connectFrame fresh.headers) = false := by decide
    rw [headers] at marshalled ⊢
    refine ⟨written_frame carries.written connect_sendable marshalled, ?_, ?_, ?_, ?_⟩
    · intro impossible
      cases impossible
    · simp
    · simp [nothing]
    · simp [nothing, other]
  leaves _ _ _ _ := carries_leaving
  reads _ _ _ _ _ carries :=
    ⟨carries.written, carries.waits, carries.begins, carries.first, carries.sends⟩
  new _ := ⟨⟨.done, trivial, by simp [fresh]⟩, fun _ => ⟨rfl, rfl⟩, by simp, by simp [fresh], by simp [fresh]⟩

/-! What is received and may be acknowledged. -/

/-- The acknowledgements of these messages keep their form. -/
def Bound (all : List Received) : Prop :=
  ∀ received ∈ all, OnLine received.messageID ∧ OnLine received.subscription

private theorem onLine_asText {headers : Headers} {name : JsString} (fine : OnLines headers) :
    OnLine (asText (headers.get name)) := by
  cases found : headers.get name with
  | none => exact (by decide : OnLine (js "undefined"))
  | some value =>
    obtain ⟨header, member, rfl⟩ := Option.map_eq_some_iff.mp found
    exact fine header (List.mem_of_find?_eq_some member)

private theorem bound_onframe (fine : OnLines frame.headers) :
    Keeps (fun page : Page => Bound page.received)
      (onframe draw props index frame) := by
  intro page bound
  rcases @received_onframe draw props page index frame with same | ⟨-, same⟩
  · rwa [same]
  · rw [same]
    intro received member
    rcases List.mem_append.mp member with old | new
    · exact bound received old
    · rw [List.mem_singleton.mp new]
      refine ⟨?_, onLine_asText fine⟩
      dsimp only
      split
      · exact onLine_asText fine
      · exact onLine_asText fine

private theorem bound_onframes {frames : List Frame} (fine : ∀ frame ∈ frames, OnLines frame.headers) :
    Keeps (fun page : Page => Bound page.received)
      (onframes draw props index frames) := by
  induction frames with
  | nil => exact keeps_pure ()
  | cons frame frames ih =>
    refine keeps_bind (bound_onframe (fine frame List.mem_cons_self)) fun _ => ih ?_
    exact fun other member => fine other (List.mem_cons_of_mem _ member)

private theorem bound_step (bound : Bound page.received)
    (stepped : step draw props page event = some next) : Bound next.received := by
  cases event with
  | message index data now =>
    rw [message_step stepped]
    refine bound_onframes ?_ _ bound
    intro frame member
    unfold StompStreams.onmessage at member
    split at member
    · cases member
    · exact unmarshall_onLines frame member
  | opened | lost | closed | fire | beat | sendMsg | ack | nack | beforeDestroy =>
    have lasts : Lasts props Any fun page => Bound page.received :=
      lasts_framed fun page next framed bound => by rwa [framed.received]
    exact lasts_step lasts (fun _ => id) fine_any allowed_any (by simp) stepped bound

/-! Events -/

private theorem fine_plain : Fine draw Plain where
  subscribe n := ⟨subscribe_sendable (createId_onLine (draw n)), rfl⟩
  disconnect := ⟨disconnect_sendable, rfl⟩

private theorem acknowledge_plain {name idAttr : JsString} {received : Received}
    (named : name = js "ACK" ∨ name = js "NACK") (attr : idAttr = js "id" ∨ idAttr = js "message-id")
    (bound : OnLine received.messageID ∧ OnLine received.subscription) :
    Plain (acknowledgeFrame name idAttr received) := by
  refine ⟨acknowledge_sendable named attr bound, ?_⟩
  rcases named with rfl | rfl
  · rfl
  · rfl

/-- A message goes out whole or not at all. -/
private theorem sendMsg_cases (msg : JsString) (page : Page) : (sendMsg msg page).2 = page ∨
    ∃ client text, Open page client ∧ marshall (command msg) = .ok text ∧
      (sendMsg msg page).2 = page.put client (cut text) [command msg] := by
  rw [sendMsg, bind_apply, lift_apply, get_apply]
  dsimp only [component_view, component_put]
  cases page.component.stompClient with
  | none => exact Or.inl rfl
  | some client =>
    dsimp only
    rw [send, discard_apply, ← command]
    cases marshalled : marshall (command msg) with
    | error cause =>
      apply Or.inl
      rw [transmit, marshalled]
      rfl
    | ok text =>
      rw [transmit_eq marshalled]
      dsimp only
      split
      · rename_i sends
        exact Or.inr ⟨client, text, opened_of_sends sends, rfl, rfl⟩
      · exact Or.inl rfl

private theorem each_sendMsg (plain : OnLine msg) (each : Each (fun _ => Carries messages) page) :
    Each (fun _ => Carries (messages ++ [command msg])) (call (sendMsg msg) page) := by
  have more {socket : Socket} {stomp : Client} (carries : Carries messages socket stomp) :
      Carries (messages ++ [command msg]) socket stomp :=
    ⟨carries.written, carries.waits, carries.begins, carries.first,
      carries.sends.trans (List.sublist_append_left _ _)⟩
  rcases sendMsg_cases msg page with same | ⟨client, text, opened, marshalled, same⟩
  · rw [call, same]
    exact each_imp each fun _ _ _ => more
  · rw [call, same]
    obtain ⟨socket, found, state⟩ := opened
    refine each_turn each (List.modify_id client _).symm rfl ?_ fun _ _ _ _ => more
    intro there stomp known _ carries
    rw [found] at known
    cases known
    refine carries_frame state (sendMsg_sendable plain) marshalled ?_ carries
    have own : isSend (command msg) = true := rfl
    simpa [List.filter_append, own] using carries.sends

private theorem allowed_plain (bound : Bound page.received) (other : ∀ msg, event ≠ .sendMsg msg)
    (stepped : step draw props page event = some next) : Allowed Plain event := by
  cases event with
  | sendMsg msg => exact absurd rfl (other msg)
  | ack received | nack received =>
    simp only [step] at stepped
    split at stepped
    · rename_i known
      exact fun idAttr attr => acknowledge_plain (by simp) attr (bound received known)
    · cases stepped
  | opened | message | lost | closed | fire | beat | beforeDestroy => trivial

private theorem carries_step (plain : ∀ msg, event = .sendMsg msg → OnLine msg) (bound : Bound page.received)
    (each : Each (fun _ => Carries messages) page) (stepped : step draw props page event = some next) :
    Each (fun _ => Carries (messages ++ (asks event).toList)) next := by
  by_cases message : ∃ msg, event = .sendMsg msg
  · obtain ⟨msg, rfl⟩ := message
    cases stepped
    exact each_sendMsg (plain msg rfl) each
  · have other : ∀ msg, event ≠ .sendMsg msg := fun msg same => message ⟨msg, same⟩
    have nothing : asks event = none := by
      cases event <;> simp_all [asks]
    rw [nothing, Option.toList_none, List.append_nil]
    exact each_step closed_carries fine_plain (allowed_plain bound other stepped) each stepped

/-- Whatever happens to a page whose messages stay on a line, each socket carries
frames that can be read back with all their headers, trimmed, in pieces that are
not too large, the first of them a `CONNECT`. The messages among them are some of
those that the page was asked for, none twice and in the order they were asked for. -/
theorem page_writes {supported : Bool} {events : List Event}
    (plain : ∀ msg, .sendMsg msg ∈ events → OnLine msg)
    (ran : exec (step draw props) (mounted supported) events = some page)
    (here : page.clients[index]? = some stomp) :
    receive [] stomp.sent = (stomp.transmitted.map Frame.received, []) ∧
      (∀ frame ∈ stomp.transmitted, frame.received.headers.entries.Perm (frame.written.map trimmed)) ∧
      (∀ piece ∈ stomp.sent, piece.length ≤ maxWebSocketFrameSize) ∧
      (∀ frame ∈ stomp.transmitted.head?, frame = connectFrame (.of [(js "id", .text (js "starter"))])) ∧
      (stomp.transmitted.filter isSend).Sublist (events.filterMap asks) := by
  have both : Each (fun _ => Carries (events.filterMap asks)) page ∧ Bound page.received := by
    refine exec_history (fun before page => Each (fun _ => Carries (before.filterMap asks)) page ∧
      Bound page.received) (fun event => ∀ msg, event = .sendMsg msg → OnLine msg) ?_ ?_ ?_ ran
    · refine ⟨each_mounted (closed_carries.new 0) supported, ?_⟩
      have nothing : (mounted supported).received = [] := by
        cases supported <;> rfl
      rw [nothing]
      exact List.forall_mem_nil _
    · rintro before page event next ⟨each, bound⟩ plain stepped
      refine ⟨?_, bound_step bound stepped⟩
      have own : [event].filterMap asks = (asks event).toList := by
        cases asked : asks event <;> simp [asked]
      rw [List.filterMap_append, own]
      exact carries_step plain bound each stepped
    · rintro event member msg rfl
      exact plain msg member
  have there := List.getElem?_eq_getElem (both.1.length ▸ (List.getElem?_eq_some_iff.mp here).1 :
    index < page.component.sockets.length)
  obtain ⟨written, -, -, first, sends⟩ := both.1.pair index _ stomp there here
  exact ⟨read_back written, fun frame member => received_perm (stream_sendable written.stream frame member),
    written.small, first, sends⟩

/-- A page that acknowledges what it has received, and sends a command. -/
private def exchange : List Event :=
  [.opened 0, .message 0 (js "CONNECTED\nversion:1.2\n\n" ++ [NULL]) 5,
    .message 0 (js "MESSAGE\nsubscription:sub-7-0\nack:7\n\nhello" ++ [NULL]) 6, .sendMsg (js "ls"),
    .ack { client := 0, messageID := js "7", subscription := js "sub-7-0", frame := {
      command := js "MESSAGE"
      headers := .of [(js "ack", .text (js "7")), (js "subscription", .text (js "sub-7-0"))]
      body := js "hello" } }]

theorem exchange_writes : ∃ page stomp,
    exec (step (fun n => (7, n)) {}) (mounted true) exchange = some page ∧ page.clients[0]? = some stomp ∧
      receive [] stomp.sent = (stomp.transmitted.map Frame.received, []) ∧
      (∀ frame ∈ stomp.transmitted, frame.received.headers.entries.Perm (frame.written.map trimmed)) ∧
      (∀ piece ∈ stomp.sent, piece.length ≤ maxWebSocketFrameSize) ∧
      (∀ frame ∈ stomp.transmitted.head?, frame = connectFrame (.of [(js "id", .text (js "starter"))])) ∧
      (stomp.transmitted.filter isSend).Sublist (exchange.filterMap asks) := by
  have runs : ∃ page stomp, exec (step (fun n => (7, n)) {}) (mounted true) exchange = some page ∧
      page.clients[0]? = some stomp := by
    have some : ((exec (step (fun n => (7, n)) {}) (mounted true) exchange).bind
      fun page => page.clients[0]?).isSome = true := by decide +kernel
    obtain ⟨stomp, found⟩ := Option.isSome_iff_exists.mp some
    obtain ⟨page, ran, here⟩ := Option.bind_eq_some_iff.mp found
    exact ⟨page, stomp, ran, here⟩
  obtain ⟨page, stomp, ran, here⟩ := runs
  refine ⟨page, stomp, ran, here, page_writes ?_ ran here⟩
  intro msg member
  have asked : msg = js "ls" := by simpa [exchange] using member
  rw [asked]
  decide

end Runs

end Tomas.PageStreams
