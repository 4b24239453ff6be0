import Tomas.Codec

/-! How pieces of a stream reach the handlers behind the codecs. Those handlers
are known by the effect of one message on the channel; a stream that arrives in
any pieces has the effects of its decodable payloads in order, and everything
else it leaves in the trace belongs to the two decoders. -/
namespace Tomas.Delivery
open Tomas.Framing Tomas.Pipeline Tomas.Protocol Tomas.Jackson Tomas.Codec

variable {χ : Type} {om : ObjectMapper} {rest : List (ChannelHandler χ)}

/-- The message a payload stands for. -/
def decoded (om : ObjectMapper) (payload : Bytes) : Option Message :=
  match om.readValue payload with
  | .ok (some message) => some message
  | .ok none | .error _ => none

/-- The callbacks of the two decoders. -/
def inDecoders : Event → Bool
  | .channelRead .frameDecoder _ | .channelRead .msgpackDecoder _ => true
  | .exceptionCaught .frameDecoder _ | .exceptionCaught .msgpackDecoder _ => true
  | _ => false

/-- What ran outside the two decoders. -/
def behind (trace : List Event) : List Event := trace.filter fun event => !inDecoders event

@[simp] theorem behind_append (first second : List Event) :
    behind (first ++ second) = behind first ++ behind second := List.filter_append ..

theorem mem_behind {trace : List Event} {event : Event} (outside : inDecoders event = false) :
    event ∈ behind trace ↔ event ∈ trace := by
  simp [behind, outside]

theorem behind_writeEvents (om : ObjectMapper) (message : Message) :
    behind (writeEvents om message) = writeEvents om message := by
  unfold writeEvents
  cases om.writeValueAsBytes message with
  | error cause => rfl
  | ok payload => cases known : prepend 2 payload <;> simp [known, behind, inDecoders]

/-- What does not look at the decoders sees the same without them. -/
theorem filterMap_behind {β : Type} {observe : Event → Option β}
    (ignores : ∀ event, inDecoders event = true → observe event = none) (trace : List Event) :
    (behind trace).filterMap observe = trace.filterMap observe := by
  rw [behind, List.filterMap_filter]
  apply List.filterMap_congr
  intro event _
  cases known : inDecoders event with
  | true => simp [ignores event known]
  | false => rfl

/-- The messages a handler has been given. -/
def handed (handler : HandlerName) (trace : List Event) : List Message :=
  trace.filterMap fun event =>
    match event with
    | .channelRead reader (.message message) => if reader = handler then some message else none
    | _ => none

@[simp] theorem handed_append (handler : HandlerName) (first second : List Event) :
    handed handler (first ++ second) = handed handler first ++ handed handler second :=
  List.filterMap_append ..

private theorem handed_behind {handler : HandlerName}
    (outside : handler ≠ .frameDecoder ∧ handler ≠ .msgpackDecoder) (trace : List Event) :
    handed handler (behind trace) = handed handler trace := by
  apply filterMap_behind
  intro event inside
  cases event with
  | channelRead reader msg =>
    have other : reader ≠ handler := by
      rintro rfl
      cases reader <;> simp_all [inDecoders]
    cases msg <;> simp [other]
  | _ => rfl

theorem handed_writeEvents (om : ObjectMapper) (handler : HandlerName) (message : Message) :
    handed handler (writeEvents om message) = [] := by
  unfold writeEvents
  cases om.writeValueAsBytes message with
  | error cause => rfl
  | ok payload => cases known : prepend 2 payload <;> simp [known, handed]

/-- The messages an end has written, as its encoder was given them. -/
def messagesWritten (trace : List Event) : List Message :=
  trace.filterMap fun event =>
    match event with
    | .write .msgpackEncoder (.message message) => some message
    | _ => none

@[simp] theorem messagesWritten_append (first second : List Event) :
    messagesWritten (first ++ second) = messagesWritten first ++ messagesWritten second :=
  List.filterMap_append ..

/-! ## One message of a piece of the stream -/

/-- A piece of the stream hands a message to the handlers behind the codecs, the
end being by then what the frames before have made of it. -/
def Hands (om : ObjectMapper) (rest : List (ChannelHandler χ)) (machine : ChannelMachine χ)
    (chunk : Bytes) (message : Message) (reached : ChannelMachine χ) : Prop :=
  let received := feed frameParams machine.channel.decoder chunk
  let entered := (machine.withChannel { machine.channel with decoder := received.next }).log
    [.channelRead .frameDecoder (.byteBuf chunk)]
  ∃ before payload later, received.frames = before ++ payload :: later ∧
    om.readValue payload = .ok (some message) ∧
    reached = (before.foldl (deliver om rest) entered).log
      [.channelRead .msgpackDecoder (.byteBuf payload)]

section Hands

variable {machine reached : ChannelMachine χ} {chunk : Bytes} {message : Message}

/-- Reading the piece is reading the message there, and the later frames after it. -/
theorem readChunk_of_hands (hands : Hands om rest machine chunk message reached) :
    let received := feed frameParams machine.channel.decoder chunk
    ∃ later : List Bytes, later <:+ received.frames ∧ readChunk om rest machine chunk =
      (later.foldl (deliver om rest) ((afterCodecs om rest).read (.message message) reached)).log
        (failureEvents received.failure) := by
  intro received
  obtain ⟨before, payload, later, frames, good, rfl⟩ := hands
  refine ⟨later, ⟨before ++ [payload], by rw [frames, List.append_assoc]; rfl⟩, ?_⟩
  simp only [readChunk]
  rw [frames, List.foldl_append, List.foldl_cons, deliver_good rest _ good]

/-- The messages handed over are the decodings of the frames. -/
theorem exists_hands_iff :
    (∃ reached, Hands om rest machine chunk message reached) ↔
      message ∈ (feed frameParams machine.channel.decoder chunk).frames.filterMap (decoded om) := by
  have decodes (payload : Bytes) :
      decoded om payload = some message ↔ om.readValue payload = .ok (some message) := by
    unfold decoded
    split <;> simp_all
  rw [List.mem_filterMap]
  constructor
  · rintro ⟨reached, before, payload, later, frames, good, -⟩
    exact ⟨payload, by simp [frames], (decodes payload).mpr good⟩
  · rintro ⟨payload, member, good⟩
    obtain ⟨before, later, frames⟩ := List.append_of_mem member
    exact ⟨_, before, payload, later, frames, (decodes payload).mp good, rfl⟩

end Hands

/-! ## Receivers -/

/-- The effect of a message on a channel and the callbacks it runs. The handlers
behind the codecs leave the frame decoder alone. -/
structure Receiver (om : ObjectMapper) (rest : List (ChannelHandler χ)) where
  effect : Message → Channel χ → Channel χ × List Event
  reads : ∀ message machine,
    (afterCodecs om rest).read (.message message) machine = machine.act (effect message)
  keepsDecoder : ∀ message channel decoder,
    effect message { channel with decoder := decoder } =
      ({ (effect message channel).1 with decoder := decoder }, (effect message channel).2)
  runsBehind : ∀ message channel, behind (effect message channel).2 = (effect message channel).2

namespace Receiver

variable (receiver : Receiver om rest)

/-- One message after the other. -/
def effects : List Message → Channel χ → Channel χ × List Event
  | [], channel => (channel, [])
  | message :: messages, channel =>
    let first := receiver.effect message channel
    let later := effects messages first.1
    (later.1, first.2 ++ later.2)

@[simp] theorem effects_nil (channel : Channel χ) : receiver.effects [] channel = (channel, []) := rfl

@[simp] theorem effects_singleton (message : Message) (channel : Channel χ) :
    receiver.effects [message] channel = receiver.effect message channel := by
  simp only [effects, List.append_nil]

theorem effects_append (first second : List Message) (channel : Channel χ) :
    receiver.effects (first ++ second) channel =
      ((receiver.effects second (receiver.effects first channel).1).1,
        (receiver.effects first channel).2 ++
          (receiver.effects second (receiver.effects first channel).1).2) := by
  induction first generalizing channel with
  | nil => rfl
  | cons message first ih =>
    simp only [List.cons_append, effects]
    rw [ih, List.append_assoc]

theorem effects_keepDecoder (messages : List Message) (channel : Channel χ) (decoder : Decoder) :
    receiver.effects messages { channel with decoder := decoder } =
      ({ (receiver.effects messages channel).1 with decoder := decoder },
        (receiver.effects messages channel).2) := by
  induction messages generalizing channel with
  | nil => rfl
  | cons message messages ih =>
    have step := receiver.keepsDecoder message channel decoder
    have later := ih (receiver.effect message channel).1
    simp only [effects, step, later]

theorem effects_behind (messages : List Message) (channel : Channel χ) :
    behind (receiver.effects messages channel).2 = (receiver.effects messages channel).2 := by
  induction messages generalizing channel with
  | nil => rfl
  | cons message messages ih => simp only [effects, behind_append, receiver.runsBehind, ih]

private theorem deliver_effects (machine : ChannelMachine χ) (payload : Bytes) :
    (deliver om rest machine payload).channel =
        (receiver.effects (decoded om payload).toList machine.channel).1 ∧
      behind (deliver om rest machine payload).trace =
        behind machine.trace ++ (receiver.effects (decoded om payload).toList machine.channel).2 := by
  by_cases good : ∃ message, om.readValue payload = .ok (some message)
  · obtain ⟨message, good⟩ := good
    have known : decoded om payload = some message := by simp only [decoded, good]
    have decoding : behind [.channelRead .msgpackDecoder (.byteBuf payload)] = [] := rfl
    rw [known, deliver_good rest machine good, receiver.reads]
    constructor
    · rfl
    · simp only [Machine.act_trace, Machine.log_trace, Machine.log_channel, behind_append, decoding,
        receiver.runsBehind, Option.toList_some, effects, List.append_nil]
  · have bad := not_exists.mp good
    have known : decoded om payload = none := by
      unfold decoded
      split
      · rename_i message good
        exact absurd good (bad message)
      · rfl
      · rfl
    rw [known, deliver_bad rest machine bad]
    exact ⟨rfl, by simp [behind, inDecoders]⟩

/-- Payloads are delivered one by one; one that is no message has no effect. -/
theorem foldl_deliver_effects (machine : ChannelMachine χ) (payloads : List Bytes) :
    (payloads.foldl (deliver om rest) machine).channel =
        (receiver.effects (payloads.filterMap (decoded om)) machine.channel).1 ∧
      behind (payloads.foldl (deliver om rest) machine).trace =
        behind machine.trace ++
          (receiver.effects (payloads.filterMap (decoded om)) machine.channel).2 := by
  induction payloads generalizing machine with
  | nil => exact ⟨rfl, by simp⟩
  | cons payload payloads ih =>
    have split : (payload :: payloads).filterMap (decoded om) =
        (decoded om payload).toList ++ payloads.filterMap (decoded om) := by
      cases known : decoded om payload <;> simp [known]
    obtain ⟨channel, trace⟩ := receiver.deliver_effects machine payload
    obtain ⟨laterChannel, laterTrace⟩ := ih (deliver om rest machine payload)
    rw [List.foldl_cons, split, effects_append, laterChannel, laterTrace, channel, trace]
    exact ⟨rfl, by rw [List.append_assoc]⟩

/-- The handlers behind the codecs alone, handed one message after the other. -/
theorem foldl_reads (messages : List Message) (machine : ChannelMachine χ) :
    messages.foldl (fun machine message => (afterCodecs om rest).read (.message message) machine)
      machine = machine.act (receiver.effects messages) := by
  induction messages generalizing machine with
  | nil => simp [Machine.act]
  | cons message messages ih =>
    rw [List.foldl_cons, receiver.reads, ih]
    simp [Machine.act, effects]

/-- What lies between two states is the effects of the messages and, for the
rest, the business of the decoders. -/
structure Delivered (messages : List Message) (machine after : ChannelMachine χ) : Prop where
  channel : after.channel =
    { (receiver.effects messages machine.channel).1 with decoder := after.channel.decoder }
  trace : behind after.trace = behind machine.trace ++ (receiver.effects messages machine.channel).2

theorem delivered_refl (machine : ChannelMachine χ) : receiver.Delivered [] machine machine :=
  ⟨rfl, by simp⟩

theorem delivered_trans {first second : List Message} {machine middle after : ChannelMachine χ}
    (before : receiver.Delivered first machine middle)
    (later : receiver.Delivered second middle after) :
    receiver.Delivered (first ++ second) machine after := by
  have resumed := receiver.effects_keepDecoder second (receiver.effects first machine.channel).1
    middle.channel.decoder
  rw [← before.channel] at resumed
  constructor
  · rw [effects_append, later.channel, resumed]
  · rw [effects_append, later.trace, before.trace, resumed, List.append_assoc]

private theorem handed_effects {handler : HandlerName} {emit : Message → List Message}
    (hands : ∀ message channel, handed handler (receiver.effect message channel).2 = emit message)
    (messages : List Message) (channel : Channel χ) :
    handed handler (receiver.effects messages channel).2 = messages.flatMap emit := by
  induction messages generalizing channel with
  | nil => rfl
  | cons message messages ih => simp only [effects, handed_append, hands, ih, List.flatMap_cons]

/-- What a handler behind the codecs is given. -/
theorem handed_of_delivered {handler : HandlerName} {emit : Message → List Message}
    (outside : handler ≠ .frameDecoder ∧ handler ≠ .msgpackDecoder)
    (hands : ∀ message channel, handed handler (receiver.effect message channel).2 = emit message)
    {messages : List Message} {machine after : ChannelMachine χ}
    (delivered : receiver.Delivered messages machine after) :
    handed handler after.trace = handed handler machine.trace ++ messages.flatMap emit := by
  rw [← handed_behind outside, delivered.trace, handed_append, handed_behind outside,
    receiver.handed_effects hands]

/-- A piece of the stream delivers the frames it completes. -/
theorem delivered_chunk (machine : ChannelMachine χ) (chunk : Bytes) :
    let received := feed frameParams machine.channel.decoder chunk
    receiver.Delivered (received.frames.filterMap (decoded om)) machine (readChunk om rest machine chunk) ∧
      (readChunk om rest machine chunk).channel.decoder = received.next := by
  intro received
  obtain ⟨channel, trace⟩ := receiver.foldl_deliver_effects
    ((machine.withChannel { machine.channel with decoder := received.next }).log
      [.channelRead .frameDecoder (.byteBuf chunk)]) received.frames
  have entered : behind [.channelRead .frameDecoder (.byteBuf chunk)] = [] := rfl
  have failed : behind (failureEvents received.failure) = [] := by
    cases received.failure <;> rfl
  have kept := receiver.effects_keepDecoder (received.frames.filterMap (decoded om)) machine.channel
    received.next
  simp only [Machine.log_channel, Machine.withChannel_channel, Machine.log_trace,
    Machine.withChannel_trace, behind_append, entered, List.append_nil] at channel trace
  rw [kept] at channel trace
  have whole : (readChunk om rest machine chunk).channel =
      { (receiver.effects (received.frames.filterMap (decoded om)) machine.channel).1 with
        decoder := received.next } := channel
  refine ⟨⟨?_, ?_⟩, by rw [whole]⟩
  · rw [whole]
  · simp only [readChunk, Machine.log_trace, behind_append]
    rw [show feed frameParams machine.channel.decoder chunk = received from rfl, failed,
      List.append_nil, trace]

/-- A stream of frames that fit is delivered in order, however it is cut, as far
as it has arrived. -/
theorem delivered_chunks (machine : ChannelMachine χ) (chunks : List Bytes) (tail : Bytes)
    (payloads : List Bytes) (fit : ∀ payload ∈ payloads, Fits frameParams payload)
    (ahead : Ahead frameParams machine.channel.decoder (chunks.flatten ++ tail) payloads)
    (settled : chunks = [] → tail = [] → payloads = []) :
    let after := chunks.foldl (readChunk om rest) machine
    ∃ taken later, payloads = taken ++ later ∧
      receiver.Delivered (taken.filterMap (decoded om)) machine after ∧
      Ahead frameParams after.channel.decoder tail later ∧ (tail = [] → later = []) := by
  induction chunks generalizing machine payloads with
  | nil => exact ⟨[], payloads, rfl, receiver.delivered_refl machine, ahead, settled rfl⟩
  | cons chunk chunks ih =>
    rw [List.flatten_cons, List.append_assoc] at ahead
    obtain ⟨later, split, -, ahead, exhausted⟩ := feed_takes_fitting frameParams_plain ahead fit
    obtain ⟨step, decoder⟩ := receiver.delivered_chunk machine chunk
    rw [← decoder] at ahead
    obtain ⟨more, last, rfl, delivered, ahead, stuck⟩ := ih (readChunk om rest machine chunk) later
      (fun payload member => fit payload (by rw [split]; exact List.mem_append_right _ member)) ahead
      (by rintro rfl rfl; exact exhausted rfl)
    refine ⟨_, last, by rw [split, List.append_assoc], ?_, ahead, stuck⟩
    rw [List.filterMap_append]
    exact receiver.delivered_trans step delivered

/-- Sending a payload that fits over and over brings it through, however many
frames that do not fit are waiting in front of it. -/
private theorem brings_through {payload : Bytes} {message : Message}
    (decodes : decoded om payload = some message) (fits : Fits frameParams payload)
    (machine : ChannelMachine χ) (waiting : List Bytes)
    (ahead : Ahead frameParams machine.channel.decoder [] waiting) :
    ∃ chunks : List Bytes, (∀ chunk ∈ chunks, chunk ≠ []) ∧ ∃ messages, message ∈ messages ∧
      receiver.Delivered messages machine (chunks.foldl (readChunk om rest) machine) := by
  -- each piece that ends in an exception has taken off a frame that does not fit
  induction unfit : waiting.countP (fun other => ¬ Fits frameParams other) using Nat.strongRecOn
    generalizing machine waiting with
  | ind count ih =>
    subst unfit
    let chunk := framed 2 payload
    have bounded : payload.length < 256 ^ frameParams.lengthFieldLength := by
      simp only [Fits, frameParams] at fits ⊢
      omega
    have nonempty : chunk ≠ [] := framed_ne_nil (by omega) payload
    have arriving : Ahead frameParams machine.channel.decoder (chunk ++ []) (waiting ++ [payload]) := by
      rw [List.append_nil]
      exact ahead_written ahead bounded
    obtain ⟨taken, later, front⟩ := feed_takes frameParams_plain arriving
    obtain ⟨delivered, decoder⟩ := receiver.delivered_chunk machine chunk
    cases loud : (feed frameParams machine.channel.decoder chunk).failure with
    | none =>
      have all := (front.clean loud).2 rfl
      have arrived : payload ∈ (feed frameParams machine.channel.decoder chunk).frames := by
        rw [front.frames, List.mem_filter]
        have split := front.split
        rw [all, List.append_nil] at split
        exact ⟨by rw [← split]; simp, by simpa using fits⟩
      exact ⟨[chunk], by simpa using nonempty, _,
        List.mem_filterMap.mpr ⟨payload, arrived, decodes⟩, delivered⟩
    | some failure =>
      have dropped : 0 < taken.countP (fun other => ¬ Fits frameParams other) := by
        obtain ⟨other, member, large⟩ := front.failed (by simp [loud])
        exact List.countP_pos_iff.mpr ⟨other, member, by simpa using large⟩
      have counts := congrArg (List.countP fun other => ¬ Fits frameParams other) front.split
      rw [List.countP_append, List.countP_append, List.countP_singleton,
        if_neg (by simpa using fits), Nat.add_zero] at counts
      have next := front.ahead
      rw [← decoder] at next
      obtain ⟨chunks, nonempties, messages, member, rest⟩ :=
        ih _ (by omega) (readChunk om rest machine chunk) later next rfl
      refine ⟨chunk :: chunks, ?_, _, List.mem_append_right _ member,
        receiver.delivered_trans delivered rest⟩
      intro other listed
      rcases List.mem_cons.mp listed with rfl | listed
      · exact nonempty
      · exact nonempties other listed

/-- Whatever an end has received, the peer can still get a message through. -/
theorem exists_delivery {payload : Bytes} {message : Message}
    (decodes : decoded om payload = some message) (fits : Fits frameParams payload)
    (machine : ChannelMachine χ) :
    ∃ chunks : List Bytes, (∀ chunk ∈ chunks, chunk ≠ []) ∧ ∃ messages, message ∈ messages ∧
      receiver.Delivered messages machine (chunks.foldl (readChunk om rest) machine) := by
  obtain ⟨completion, waiting, ahead⟩ := exists_ahead frameParams_plain machine.channel.decoder
  by_cases whole : completion = []
  · rw [whole] at ahead
    exact receiver.brings_through decodes fits machine waiting ahead
  · have arriving : Ahead frameParams machine.channel.decoder (completion ++ []) waiting := by
      rwa [List.append_nil]
    obtain ⟨taken, later, front⟩ := feed_takes frameParams_plain arriving
    obtain ⟨delivered, decoder⟩ := receiver.delivered_chunk machine completion
    have next := front.ahead
    rw [← decoder] at next
    obtain ⟨chunks, nonempties, messages, member, rest⟩ :=
      receiver.brings_through decodes fits (readChunk om rest machine completion) later next
    refine ⟨completion :: chunks, ?_, _, List.mem_append_right _ member,
      receiver.delivered_trans delivered rest⟩
    intro other listed
    rcases List.mem_cons.mp listed with rfl | listed
    · exact whole
    · exact nonempties other listed

end Receiver

end Tomas.Delivery
