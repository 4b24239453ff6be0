import Tomas.ClientPipeline
import Tomas.ServerPipeline

/-! Frames whose payload is no message stop at `MsgpackDecoder`: on both ends the
handlers behind the codecs see the decodings of the other frames, in order, and
nothing else happens that would not have happened without the bad frames. -/
namespace Tomas.BadPayloads
open Tomas.Framing Tomas.Pipeline Tomas.Protocol Tomas.Jackson Tomas.Codec
open Tomas.Delivery Tomas.ServerPipeline Tomas.ClientPipeline

variable {χ : Type}

/-- A stream of frames of at most 65533 payload bytes arrives in any pieces at a
pipeline with the given handlers behind the codecs. -/
structure Arrival (om : ObjectMapper) (rest : List (ChannelHandler χ)) (payloads : List Bytes)
    (machine after : ChannelMachine χ) : Prop where
  fresh : machine.channel.decoder = {}
  bounded : ∀ payload ∈ payloads, payload.length ≤ 65533
  arrives : ∃ chunks : List Bytes, chunks.flatten = stream 2 payloads ∧
    after = chunks.foldl (fun machine chunk =>
      fireChannelRead socket (codecHandlers om ++ rest) (.byteBuf chunk) machine) machine

/-- The same handlers given only the decodings of the good frames. -/
def withoutCodecs (om : ObjectMapper) (rest : List (ChannelHandler χ)) (payloads : List Bytes)
    (machine : ChannelMachine χ) : ChannelMachine χ :=
  (payloads.filterMap (decoded om)).foldl
    (fun machine message => (afterCodecs om rest).read (.message message) machine) machine

/-- Bad payloads are isolated from the handlers behind the codecs, the first of
which is the one named. -/
structure Isolates (om : ObjectMapper) (rest : List (ChannelHandler χ)) (first : HandlerName) : Prop where
  /-- The first handler is given the decodings of the good frames in order. -/
  handed : ∀ payloads machine after, Arrival om rest payloads machine after →
    handed first after.trace = handed first machine.trace ++ payloads.filterMap (decoded om)
  /-- Outside the two decoders, what runs is what the good frames alone run. -/
  runs : ∀ payloads machine after, Arrival om rest payloads machine after →
    behind after.trace = behind (withoutCodecs om rest payloads machine).trace
  /-- What is written, closed, recorded or cancelled, too, is as for the good frames alone. -/
  channel : ∀ payloads machine after, Arrival om rest payloads machine after →
    after.channel =
      { (withoutCodecs om rest payloads machine).channel with decoder := after.channel.decoder }
  /-- A bad frame runs the two callbacks of `MsgpackDecoder` and leaves the channel as it was. -/
  bad : ∀ payload machine, decoded om payload = none →
    (inboundAt socket (codecHandlers om ++ rest) 1).read (.byteBuf payload) machine =
      machine.log [.channelRead .msgpackDecoder (.byteBuf payload),
        .exceptionCaught .msgpackDecoder .decoderException]

section Isolation

variable {om : ObjectMapper} {rest : List (ChannelHandler χ)} (receiver : Receiver om rest)

private theorem arrival_delivers {payloads : List Bytes} {machine after : ChannelMachine χ}
    (arrival : Arrival om rest payloads machine after) :
    receiver.Delivered (payloads.filterMap (decoded om)) machine after := by
  obtain ⟨fresh, bounded, chunks, whole, rfl⟩ := arrival
  have reading : (fun (machine : ChannelMachine χ) chunk =>
      fireChannelRead socket (codecHandlers om ++ rest) (.byteBuf chunk) machine) =
      readChunk om rest := by
    funext machine chunk
    exact fireChannelRead_chunk om rest machine chunk
  have fit : ∀ payload ∈ payloads, Fits frameParams payload := by
    intro payload member
    have short := bounded payload member
    simp only [Fits, frameParams]
    omega
  have ahead : Ahead frameParams machine.channel.decoder (chunks.flatten ++ []) payloads := by
    rw [fresh, List.append_nil, whole]
    apply ahead_initial
    intro payload member
    have short := bounded payload member
    simp only [frameParams]
    omega
  have settled : chunks = [] → ([] : Bytes) = [] → payloads = [] := by
    rintro rfl -
    exact stream_eq_nil (by omega) whole.symm
  obtain ⟨taken, later, split, delivered, -, exhausted⟩ :=
    receiver.delivered_chunks machine chunks [] payloads fit ahead settled
  rw [exhausted rfl, List.append_nil] at split
  rw [reading, split]
  exact delivered

/-- Handlers that are given every decoded message once isolate bad payloads. -/
theorem isolates_of_hands {first : HandlerName}
    (outside : first ≠ .frameDecoder ∧ first ≠ .msgpackDecoder)
    (hands : ∀ message channel, handed first (receiver.effect message channel).2 = [message]) :
    Isolates om rest first := by
  constructor
  · intro payloads machine after arrival
    rw [receiver.handed_of_delivered outside hands (arrival_delivers receiver arrival)]
    simp
  · intro payloads machine after arrival
    have delivered := arrival_delivers receiver arrival
    rw [withoutCodecs, receiver.foldl_reads, Machine.act_trace, behind_append, receiver.effects_behind]
    exact delivered.trace
  · intro payloads machine after arrival
    have delivered := arrival_delivers receiver arrival
    rw [withoutCodecs, receiver.foldl_reads, Machine.act_channel]
    exact delivered.channel
  · intro payload machine bad
    rw [read_payload]
    apply deliver_bad rest machine
    intro message good
    simp [decoded, good] at bad

end Isolation

/-- Both ends isolate bad payloads. -/
theorem bad_payloads_are_isolated (om : ObjectMapper) (stack : Nat) :
    Isolates om (serverHandlers stack) .heartBeatResp ∧
      Isolates om clientHandlers .heartBeatReqHandler := by
  constructor
  · exact isolates_of_hands (serverReceiver om stack) (by decide) (handed_serverEffect om)
  · exact isolates_of_hands (clientReceiver om) (by decide) handed_clientEffect

end Tomas.BadPayloads
