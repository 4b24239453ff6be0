import Tomas.ClientPipeline
import Tomas.Cutting
import Tomas.ServerPipeline
import Tomas.WireAgreement

/-! Whatever bytes a peer sends, broken or not, and wherever they are cut, both
ends hand on the messages of the whole frames that fit, in order. After an
over-long frame the decoder leaves the rest of a piece for the next one, so it may
be behind; once it has caught up, nothing remembers where the cuts were. -/
namespace Tomas.AnyBytes
open Tomas.Framing Tomas.Cutting Tomas.Pipeline Tomas.Protocol Tomas.Jackson Tomas.Codec
open Tomas.Delivery Tomas.ServerPipeline Tomas.ClientPipeline Tomas.WireAgreement

variable {χ : Type}

/-- An end after the pieces have arrived one after the other. -/
def arrived (om : ObjectMapper) (rest : List (ChannelHandler χ)) (machine : ChannelMachine χ)
    (chunks : List Bytes) : ChannelMachine χ :=
  chunks.foldl (fun machine chunk =>
    fireChannelRead socket (codecHandlers om ++ rest) (.byteBuf chunk) machine) machine

/-- The messages that an end still owes its handlers of what has arrived. -/
def owed (om : ObjectMapper) (machine : ChannelMachine χ) (rest : Bytes) : List Message :=
  (undelivered frameParams machine.channel.decoder rest).filterMap (decoded om)

/-- The cuts do not matter to the handlers behind the codecs, the first of which
is the one named. -/
structure Uncut (om : ObjectMapper) (rest : List (ChannelHandler χ)) (first : HandlerName) : Prop where
  /-- What is handed on, and what is owed, is what was owed before the pieces came. -/
  handed : ∀ machine chunks, handed first (arrived om rest machine chunks).trace ++
    owed om (arrived om rest machine chunks) [] = handed first machine.trace ++ owed om machine chunks.flatten
  /-- Of two ways to cut the same bytes, one is at most behind the other. -/
  behind : ∀ machine chunks others, chunks.flatten = others.flatten →
    Delivery.handed first (arrived om rest machine chunks).trace <+:
        Delivery.handed first (arrived om rest machine others).trace ∨
      Delivery.handed first (arrived om rest machine others).trace <+:
        Delivery.handed first (arrived om rest machine chunks).trace
  /-- Once nothing is owed, everything outside the two decoders is the same. -/
  same : ∀ machine chunks others, chunks.flatten = others.flatten →
    owed om (arrived om rest machine chunks) [] = [] → owed om (arrived om rest machine others) [] = [] →
      Delivery.behind (arrived om rest machine chunks).trace =
          Delivery.behind (arrived om rest machine others).trace ∧
        (arrived om rest machine chunks).channel =
          { (arrived om rest machine others).channel with
            decoder := (arrived om rest machine chunks).channel.decoder }
  /-- Nothing is owed after a piece in which the decoder has met no over-long frame. -/
  prompt : ∀ machine chunks chunk, owed om (arrived om rest machine (chunks ++ [chunk])) [] = [] ∨
    ∃ size, frameParams.maxFrameLength < size ∧
      (feed frameParams (arrived om rest machine chunks).channel.decoder chunk).failure =
        some (.tooLongFrame size)

variable {om : ObjectMapper} {rest : List (ChannelHandler χ)} (receiver : Receiver om rest)

/-- The pieces deliver messages, and owe the others that are in the bytes. -/
private theorem arrived_delivers (machine : ChannelMachine χ) (chunks : List Bytes) :
    ∃ messages, receiver.Delivered messages machine (arrived om rest machine chunks) ∧
      messages ++ owed om (arrived om rest machine chunks) [] = owed om machine chunks.flatten := by
  induction chunks generalizing machine with
  | nil => exact ⟨[], receiver.delivered_refl machine, rfl⟩
  | cons chunk later ih =>
    obtain ⟨first, decoder⟩ := receiver.delivered_chunk machine chunk
    obtain ⟨messages, rested, whole⟩ := ih (readChunk om rest machine chunk)
    have reading : arrived om rest machine (chunk :: later) =
        arrived om rest (readChunk om rest machine chunk) later := by
      rw [arrived, List.foldl_cons, fireChannelRead_chunk om rest machine chunk]
      rfl
    have piece := feed_undelivered frameParams_plain machine.channel.decoder chunk later.flatten
    rw [reading]
    refine ⟨_, receiver.delivered_trans first rested, ?_⟩
    rw [List.append_assoc, whole, owed, decoder, ← List.filterMap_append, piece]
    rfl

/-- Handlers that are given every decoded message once do not see the cuts. -/
theorem uncut_of_hands {first : HandlerName}
    (outside : first ≠ .frameDecoder ∧ first ≠ .msgpackDecoder)
    (hands : ∀ message channel, handed first (receiver.effect message channel).2 = [message]) :
    Uncut om rest first := by
  have handing (machine : ChannelMachine χ) (chunks : List Bytes) :
      ∃ messages, handed first (arrived om rest machine chunks).trace =
        handed first machine.trace ++ messages ∧
        messages ++ owed om (arrived om rest machine chunks) [] = owed om machine chunks.flatten := by
    obtain ⟨messages, delivered, whole⟩ := arrived_delivers receiver machine chunks
    refine ⟨messages, ?_, whole⟩
    rw [receiver.handed_of_delivered outside hands delivered, List.flatMap_singleton']
  constructor
  · intro machine chunks
    obtain ⟨messages, trace, whole⟩ := handing machine chunks
    rw [trace, List.append_assoc, whole]
  · intro machine chunks others bytes
    obtain ⟨messages, trace, whole⟩ := handing machine chunks
    obtain ⟨more, otherTrace, otherWhole⟩ := handing machine others
    rw [trace, otherTrace, List.prefix_append_right_inj, List.prefix_append_right_inj]
    rw [← bytes] at otherWhole
    exact List.prefix_or_prefix_of_prefix ⟨_, whole⟩ ⟨_, otherWhole⟩
  · intro machine chunks others bytes done otherDone
    obtain ⟨messages, delivered, whole⟩ := arrived_delivers receiver machine chunks
    obtain ⟨more, otherDelivered, otherWhole⟩ := arrived_delivers receiver machine others
    rw [done, List.append_nil] at whole
    rw [otherDone, List.append_nil, ← bytes, ← whole] at otherWhole
    subst otherWhole
    constructor
    · rw [delivered.trace, otherDelivered.trace]
    · rw [delivered.channel, otherDelivered.channel]
  · intro machine chunks chunk
    have last : arrived om rest machine (chunks ++ [chunk]) =
        readChunk om rest (arrived om rest machine chunks) chunk := by
      rw [arrived, List.foldl_append]
      exact fireChannelRead_chunk om rest (arrived om rest machine chunks) chunk
    rw [last, owed, (receiver.delivered_chunk _ chunk).2]
    rcases feed_settles frameParams_plain (arrived om rest machine chunks).channel.decoder chunk with
      settled | tooLong
    · exact Or.inl (by rw [settled]; rfl)
    · exact Or.inr tooLong

/-- Neither end sees where the bytes were cut. -/
theorem ends_are_uncut (om : ObjectMapper) (stack : Nat) :
    Uncut om (serverHandlers stack) .heartBeatResp ∧ Uncut om clientHandlers .heartBeatReqHandler := by
  constructor
  · exact uncut_of_hands (serverReceiver om stack) (by decide) (handed_serverEffect om)
  · exact uncut_of_hands (clientReceiver om) (by decide) handed_clientEffect

/-- A message, a payload that is none, and a message that is cut in two, before
the head of a frame that is too long. -/
private def pieces : List Bytes :=
  let first := framed 2 (payloadOf msgpack (businessMessage (some "hello")))
  let second := framed 2 (payloadOf msgpack (businessMessage none))
  [first ++ framed 2 [0xc1] ++ second.take 20, second.drop 20 ++ [0xff, 0xff, 0]]

/-- Both messages have been handed on, and nothing is owed. -/
theorem ends_are_uncut_pieces :
    let machine : ServerMachine := { channel := { id := "a", own := [] } }
    handed .heartBeatResp (arrived msgpack (serverHandlers 100) machine pieces).trace =
        [(businessMessage (some "hello")).raw, (businessMessage none).raw] ∧
      owed msgpack (arrived msgpack (serverHandlers 100) machine pieces) [] = [] := by
  intro machine
  have settled : owed msgpack (arrived msgpack (serverHandlers 100) machine pieces) [] = [] := by
    decide +kernel
  have whole : owed msgpack machine pieces.flatten =
      [(businessMessage (some "hello")).raw, (businessMessage none).raw] := by
    decide +kernel
  have balance := (ends_are_uncut msgpack 100).1.handed machine pieces
  rw [settled, whole, List.append_nil] at balance
  exact ⟨balance, settled⟩

end Tomas.AnyBytes
