import Mathlib.Algebra.Group.Nat.Defs
import Mathlib.Data.List.Basic
import Mathlib.Data.List.Induction

/-! Length-field framing of a byte stream: a writer that puts a big-endian
length before each payload, and an incremental decoder that receives the stream
in arbitrary pieces. The decoder has a maximum frame length of its own, counted
with the length field, and drops a frame above it without losing its place in
the stream. Nothing here knows what the payloads mean. -/
namespace Tomas.Framing

abbrev Bytes := List UInt8

/-! ## Big-endian length fields -/

/-- The low `width` bytes of a number, most significant byte first. -/
def bigEndian : Nat → Nat → Bytes
  | 0, _ => []
  | width + 1, n => bigEndian width (n / 256) ++ [UInt8.ofNat n]

def ofBigEndian (bytes : Bytes) : Nat :=
  bytes.foldl (fun acc byte => acc * 256 + byte.toNat) 0

@[simp] theorem length_bigEndian (width n : Nat) : (bigEndian width n).length = width := by
  induction width generalizing n with
  | zero => rfl
  | succ width ih => simp [bigEndian, ih]

theorem ofBigEndian_bigEndian (width n : Nat) (fits : n < 256 ^ width) :
    ofBigEndian (bigEndian width n) = n := by
  induction width generalizing n with
  | zero => simp at fits; simp [bigEndian, ofBigEndian, fits]
  | succ width ih =>
    have high : n / 256 < 256 ^ width := by
      apply Nat.div_lt_of_lt_mul
      rwa [Nat.pow_succ, Nat.mul_comm] at fits
    have front := ih (n / 256) high
    simp only [ofBigEndian] at front ⊢
    rw [bigEndian, List.foldl_append, front]
    simp only [List.foldl_cons, List.foldl_nil, UInt8.toNat_ofNat']
    omega

private theorem ofBigEndian_snoc (bytes : Bytes) (byte : UInt8) :
    ofBigEndian (bytes ++ [byte]) = ofBigEndian bytes * 256 + byte.toNat := by
  simp [ofBigEndian, List.foldl_append]

theorem ofBigEndian_lt (bytes : Bytes) : ofBigEndian bytes < 256 ^ bytes.length := by
  induction bytes using List.reverseRecOn with
  | nil => simp [ofBigEndian]
  | append_singleton bytes byte ih =>
    have low := byte.toNat_lt
    rw [ofBigEndian_snoc, List.length_append, List.length_singleton, Nat.pow_succ]
    omega

theorem bigEndian_ofBigEndian (bytes : Bytes) :
    bigEndian bytes.length (ofBigEndian bytes) = bytes := by
  induction bytes using List.reverseRecOn with
  | nil => rfl
  | append_singleton bytes byte ih =>
    have low := byte.toNat_lt
    have high : (ofBigEndian bytes * 256 + byte.toNat) / 256 = ofBigEndian bytes := by omega
    have last : UInt8.ofNat (ofBigEndian bytes * 256 + byte.toNat) = byte := by
      apply UInt8.toNat_inj.mp
      rw [UInt8.toNat_ofNat']
      omega
    rw [ofBigEndian_snoc, List.length_append, List.length_singleton, bigEndian, high, ih, last]

/-! ## The writer -/

/-- A payload behind its length. -/
def framed (width : Nat) (payload : Bytes) : Bytes := bigEndian width payload.length ++ payload

/-- The writer refuses a payload whose length the field cannot hold. -/
def prepend (width : Nat) (payload : Bytes) : Option Bytes :=
  if 256 ^ width ≤ payload.length then none else some (framed width payload)

def stream (width : Nat) (payloads : List Bytes) : Bytes := (payloads.map (framed width)).flatten

@[simp] theorem length_framed (width : Nat) (payload : Bytes) :
    (framed width payload).length = width + payload.length := by
  simp [framed]

theorem framed_ne_nil {width : Nat} (positive : 0 < width) (payload : Bytes) :
    framed width payload ≠ [] := by
  apply List.ne_nil_of_length_pos
  rw [length_framed]
  omega

@[simp] theorem stream_nil (width : Nat) : stream width [] = [] := rfl

@[simp] theorem stream_cons (width : Nat) (payload : Bytes) (rest : List Bytes) :
    stream width (payload :: rest) = framed width payload ++ stream width rest := rfl

@[simp] theorem stream_append (width : Nat) (first second : List Bytes) :
    stream width (first ++ second) = stream width first ++ stream width second := by
  simp [stream]

theorem stream_eq_nil {width : Nat} (positive : 0 < width) {payloads : List Bytes}
    (empty : stream width payloads = []) : payloads = [] := by
  cases payloads with
  | nil => rfl
  | cons payload later =>
    have lengths := congrArg List.length empty
    simp only [stream_cons, List.length_append, length_framed, List.length_nil] at lengths
    omega

theorem prepend_eq_some {width : Nat} {payload out : Bytes} :
    prepend width payload = some out ↔ payload.length < 256 ^ width ∧ out = framed width payload := by
  unfold prepend
  split
  · rename_i refused
    simp [Nat.not_lt.mpr refused]
  · rename_i accepted
    simp [Nat.not_le.mp accepted, eq_comm]

/-! ## The incremental decoder -/

/-- The five constructor arguments of the decoder. -/
structure Params where
  maxFrameLength : Nat
  lengthFieldOffset : Nat
  lengthFieldLength : Nat
  lengthAdjustment : Int
  initialBytesToStrip : Nat
  deriving DecidableEq, Repr

def Params.lengthFieldEndOffset (params : Params) : Nat :=
  params.lengthFieldOffset + params.lengthFieldLength

/-- What the decoder keeps between two pieces of the stream: the bytes it has
not consumed, and how much of an over-long frame it has still to skip. -/
structure Decoder where
  cumulation : Bytes := []
  bytesToDiscard : Nat := 0
  deriving DecidableEq, Repr

inductive Failure where
  | tooLongFrame (frameLength : Nat)
  | corruptedFrame
  deriving DecidableEq, Repr

/-- One call of the decoder: no message yet, one message, or an exception. -/
inductive Step where
  | waiting (next : Decoder)
  | frame (payload : Bytes) (next : Decoder)
  | failed (failure : Failure) (next : Decoder)
  deriving DecidableEq, Repr

/-- A frame at the front of the readable bytes. The length field counts what
follows it, so the frame length is the field's value, the adjustment and the
field itself; the limit applies to that sum. -/
def parseFrame (params : Params) (bytes : Bytes) : Step :=
  if bytes.length < params.lengthFieldEndOffset then .waiting ⟨bytes, 0⟩
  else
    let field := (bytes.drop params.lengthFieldOffset).take params.lengthFieldLength
    let frameLength : Int := ofBigEndian field + params.lengthAdjustment + params.lengthFieldEndOffset
    if frameLength < params.lengthFieldEndOffset then
      .failed .corruptedFrame ⟨bytes.drop params.lengthFieldEndOffset, 0⟩
    else if params.maxFrameLength < frameLength.toNat then
      .failed (.tooLongFrame frameLength.toNat)
        ⟨bytes.drop frameLength.toNat, frameLength.toNat - bytes.length⟩
    else if bytes.length < frameLength.toNat then .waiting ⟨bytes, 0⟩
    else if frameLength.toNat < params.initialBytesToStrip then
      .failed .corruptedFrame ⟨bytes.drop frameLength.toNat, 0⟩
    else
      .frame ((bytes.take frameLength.toNat).drop params.initialBytesToStrip)
        ⟨bytes.drop frameLength.toNat, 0⟩

/-- The rest of an over-long frame is skipped before anything is parsed. -/
def decode (params : Params) (s : Decoder) : Step :=
  if s.cumulation.length < s.bytesToDiscard then
    .waiting ⟨[], s.bytesToDiscard - s.cumulation.length⟩
  else parseFrame params (s.cumulation.drop s.bytesToDiscard)

structure Received where
  frames : List Bytes
  next : Decoder
  failure : Option Failure
  deriving DecidableEq, Repr

/-- The decoding loop: it goes on while a call consumes bytes, and ends at an
exception with the unread bytes kept for the next piece. -/
def callDecode (params : Params) : Nat → Decoder → Received
  | 0, s => ⟨[], s, none⟩
  | fuel + 1, s =>
    if s.cumulation = [] then ⟨[], s, none⟩
    else match decode params s with
      | .waiting next =>
        if next.cumulation.length = s.cumulation.length then ⟨[], next, none⟩
        else callDecode params fuel next
      | .frame payload next =>
        let later := callDecode params fuel next
        { later with frames := payload :: later.frames }
      | .failed failure next => ⟨[], next, some failure⟩

/-- One piece of the stream arrives. Every turn of the loop that goes on
consumes a byte, so the number of readable bytes is fuel enough. -/
def feed (params : Params) (s : Decoder) (chunk : Bytes) : Received :=
  callDecode params (s.cumulation ++ chunk).length { s with cumulation := s.cumulation ++ chunk }

/-! ## Where the decoder stands in a stream of frames -/

variable {params : Params} {s next : Decoder} {bytes chunk rest tail : Bytes}
  {payload : Bytes} {payloads : List Bytes}

/-- The length field comes first, counts the payload alone and is stripped. -/
structure Params.Plain (params : Params) : Prop where
  offset : params.lengthFieldOffset = 0
  adjustment : params.lengthAdjustment = 0
  strip : params.initialBytesToStrip = params.lengthFieldLength
  positive : 0 < params.lengthFieldLength

/-- The decoder's limit is on the payload and its length field together. -/
def Fits (params : Params) (payload : Bytes) : Prop :=
  params.lengthFieldLength + payload.length ≤ params.maxFrameLength

instance (params : Params) (payload : Bytes) : Decidable (Fits params payload) :=
  inferInstanceAs (Decidable (_ ≤ _))

/-- The unread bytes, those kept by the decoder first, are what is left of an
over-long frame followed by whole frames of the given payloads. -/
structure Ahead (params : Params) (s : Decoder) (rest : Bytes) (payloads : List Bytes) : Prop where
  bounded : ∀ payload ∈ payloads, payload.length < 256 ^ params.lengthFieldLength
  aligned : ∃ junk, junk.length = s.bytesToDiscard ∧
    s.cumulation ++ rest = junk ++ stream params.lengthFieldLength payloads

theorem ahead_initial (bounded : ∀ payload ∈ payloads, payload.length < 256 ^ params.lengthFieldLength) :
    Ahead params {} (stream params.lengthFieldLength payloads) payloads :=
  ⟨bounded, [], rfl, rfl⟩

/-- Enough bytes hold a whole frame at their front. -/
private theorem framed_front (width : Nat) (bytes : Bytes)
    (whole : width + ofBigEndian (bytes.take width) ≤ bytes.length) :
    ∃ payload, payload.length = ofBigEndian (bytes.take width) ∧
      bytes = framed width payload ++ bytes.drop (width + ofBigEndian (bytes.take width)) := by
  let size := ofBigEndian (bytes.take width)
  have exact : ((bytes.drop width).take size).length = size := by
    rw [List.length_take, List.length_drop]
    omega
  have field : bigEndian width size = bytes.take width := by
    have back := bigEndian_ofBigEndian (bytes.take width)
    rwa [List.length_take, Nat.min_eq_left (by omega)] at back
  refine ⟨(bytes.drop width).take size, exact, ?_⟩
  rw [framed, exact, field, List.append_assoc, ← List.drop_drop, List.take_append_drop,
    List.take_append_drop]

/-- Any bytes are the beginning of a stream of frames. -/
theorem exists_completion (width : Nat) (positive : 0 < width) (bytes : Bytes) :
    ∃ padding payloads, (∀ payload ∈ payloads, payload.length < 256 ^ width) ∧
      bytes ++ padding = stream width payloads := by
  -- by induction on the number of bytes, each frame taking at least its field off
  induction size : bytes.length using Nat.strongRecOn generalizing bytes with
  | ind size ih =>
    subst size
    by_cases empty : bytes = []
    · exact ⟨[], [], List.forall_mem_nil _, by rw [empty]; rfl⟩
    · have some := List.length_pos_iff.mpr empty
      let field := (bytes ++ List.replicate width 0).take width
      have bounded : ofBigEndian field < 256 ^ width := by
        have small := ofBigEndian_lt field
        rwa [List.length_take, List.length_append, List.length_replicate,
          Nat.min_eq_left (by omega)] at small
      by_cases whole : width + ofBigEndian field ≤ bytes.length
      · have own : bytes.take width = field := (List.take_append_of_le_length (by omega)).symm
        rw [← own] at whole bounded
        obtain ⟨payload, exact, split⟩ := framed_front width bytes whole
        obtain ⟨padding, payloads, small, completed⟩ :=
          ih (bytes.drop (width + ofBigEndian (bytes.take width))).length
            (by rw [List.length_drop]; omega) _ rfl
        refine ⟨padding, payload :: payloads, ?_, ?_⟩
        · intro other member
          rcases List.mem_cons.mp member with rfl | member
          · omega
          · exact small other member
        · rw [stream_cons, ← completed, ← List.append_assoc, ← split]
      · -- the last frame is filled up
        let padding : Bytes := List.replicate (width + ofBigEndian field - bytes.length) 0
        have total : (bytes ++ padding).length = width + ofBigEndian field := by
          rw [List.length_append, List.length_replicate]
          omega
        have same : (bytes ++ padding).take width = field := by
          simp only [padding, field, List.take_append, List.take_replicate]
          congr 2
          omega
        obtain ⟨payload, exact, split⟩ :=
          framed_front width (bytes ++ padding) (by rw [same]; exact Nat.le_of_eq total.symm)
        rw [same] at exact split
        refine ⟨padding, [payload], by simpa using exact ▸ bounded, ?_⟩
        rw [split, List.drop_of_length_le (Nat.le_of_eq total), stream_cons, stream_nil]

/-- Whatever a decoder has received, it stands in some stream of frames. -/
theorem exists_ahead (plain : params.Plain) (s : Decoder) : ∃ rest payloads, Ahead params s rest payloads := by
  by_cases discarding : s.cumulation.length < s.bytesToDiscard
  · let rest : Bytes := List.replicate (s.bytesToDiscard - s.cumulation.length) 0
    refine ⟨rest, [], List.forall_mem_nil _, s.cumulation ++ rest, ?_, by simp⟩
    rw [List.length_append, List.length_replicate]
    omega
  · obtain ⟨padding, payloads, bounded, completed⟩ :=
      exists_completion params.lengthFieldLength plain.positive (s.cumulation.drop s.bytesToDiscard)
    refine ⟨padding, payloads, bounded, s.cumulation.take s.bytesToDiscard, ?_, ?_⟩
    · rw [List.length_take]
      omega
    · rw [← completed, ← List.append_assoc, List.take_append_drop]

/-- Arrival moves bytes from the wire to the decoder without losing any. -/
theorem ahead_arrival (ahead : Ahead params s (chunk ++ rest) payloads) :
    Ahead params { s with cumulation := s.cumulation ++ chunk } rest payloads := by
  obtain ⟨bounded, junk, skipped, aligned⟩ := ahead
  exact ⟨bounded, junk, skipped, by simpa [List.append_assoc] using aligned⟩

/-- A frame written behind everything in flight comes last. -/
theorem ahead_written (ahead : Ahead params s rest payloads)
    (bounded : payload.length < 256 ^ params.lengthFieldLength) :
    Ahead params s (rest ++ framed params.lengthFieldLength payload) (payloads ++ [payload]) := by
  obtain ⟨old, junk, skipped, aligned⟩ := ahead
  refine ⟨?_, junk, skipped, ?_⟩
  · intro other member
    rcases List.mem_append.mp member with member | member
    · exact old other member
    · rw [List.mem_singleton.mp member]
      exact bounded
  · rw [← List.append_assoc, aligned]
    simp

private theorem take_front {front : Bytes} (aligned : bytes ++ rest = front ++ tail)
    (readable : front.length ≤ bytes.length) : bytes.take front.length = front := by
  have taken := congrArg (List.take front.length) aligned
  rwa [List.take_append_of_le_length readable, List.take_left] at taken

private theorem skip_front {front : Bytes} (aligned : bytes ++ rest = front ++ tail) :
    bytes.drop front.length ++ rest = front.drop bytes.length ++ tail := by
  rcases List.append_eq_append_iff.mp aligned with ⟨more, rfl, rfl⟩ | ⟨more, rfl, rfl⟩ <;> simp

private theorem parse_short (plain : params.Plain) (short : bytes.length < params.lengthFieldLength) :
    parseFrame params bytes = .waiting ⟨bytes, 0⟩ := by
  simp [parseFrame, Params.lengthFieldEndOffset, plain.offset, short]

/-- Once the length field is readable, the payload it announces decides. -/
private theorem parse_framed (plain : params.Plain)
    (bounded : payload.length < 256 ^ params.lengthFieldLength)
    (readable : params.lengthFieldLength ≤ bytes.length)
    (aligned : bytes ++ rest = framed params.lengthFieldLength payload ++ tail) :
    parseFrame params bytes =
      let frameLength := params.lengthFieldLength + payload.length
      if params.maxFrameLength < frameLength then
        .failed (.tooLongFrame frameLength) ⟨bytes.drop frameLength, frameLength - bytes.length⟩
      else if bytes.length < frameLength then .waiting ⟨bytes, 0⟩
      else .frame payload ⟨bytes.drop frameLength, 0⟩ := by
  have field : bytes.take params.lengthFieldLength =
      bigEndian params.lengthFieldLength payload.length := by
    have unframed : bytes ++ rest =
        bigEndian params.lengthFieldLength payload.length ++ (payload ++ tail) := by
      simpa [framed, List.append_assoc] using aligned
    simpa using take_front unframed (by simpa using readable)
  have announced : ofBigEndian (bytes.take params.lengthFieldLength) = payload.length := by
    rw [field, ofBigEndian_bigEndian _ _ bounded]
  have total : ((payload.length : Int) + 0 + (params.lengthFieldLength : Int)).toNat =
      params.lengthFieldLength + payload.length := by omega
  have nonnegative : ¬ ((payload.length : Int) + 0 + (params.lengthFieldLength : Int) <
      (params.lengthFieldLength : Int)) := by omega
  have kept : ¬ params.lengthFieldLength + payload.length < params.lengthFieldLength := by omega
  simp only [parseFrame, Params.lengthFieldEndOffset, plain.offset, plain.adjustment, plain.strip,
    Nat.zero_add, List.drop_zero, announced, total, nonnegative, kept, if_false,
    Nat.not_lt.mpr readable]
  split
  · rfl
  · split
    · rfl
    · rename_i whole
      have front := take_front aligned (by simpa using Nat.not_lt.mp whole)
      rw [length_framed] at front
      simp [front, framed]

/-- Everything one call can do to a decoder standing in a stream of frames: it
waits, or it takes the next frame off, which is delivered exactly when it fits.
It cannot wait for bytes that are already there. -/
theorem decode_cases (plain : params.Plain) (ahead : Ahead params s rest payloads) :
    (∃ next, decode params s = .waiting next ∧ Ahead params next rest payloads ∧
      next.cumulation.length ≤ s.cumulation.length ∧ (rest = [] → payloads = [])) ∨
    (∃ payload later next, payloads = payload :: later ∧ decode params s = .frame payload next ∧
      Fits params payload ∧ Ahead params next rest later ∧
      next.cumulation.length < s.cumulation.length) ∨
    (∃ payload later failure next, payloads = payload :: later ∧
      decode params s = .failed failure next ∧ ¬ Fits params payload ∧
      Ahead params next rest later) := by
  obtain ⟨bounded, junk, skipped, aligned⟩ := ahead
  have positive := plain.positive
  have unread := skip_front aligned
  rw [skipped] at unread
  unfold decode
  split
  · -- everything readable belongs to the frame being skipped
    rename_i discarding
    rw [List.drop_of_length_le (by omega)] at unread
    refine Or.inl ⟨_, rfl, ⟨bounded, junk.drop s.cumulation.length, by simp [skipped], unread⟩,
      by simp, ?_⟩
    rintro rfl
    have lengths := congrArg List.length unread
    simp only [List.length_nil, List.length_append, List.length_drop, List.append_nil] at lengths
    omega
  · rw [List.drop_of_length_le (l := junk) (by omega), List.nil_append] at unread
    have shorter : (s.cumulation.drop s.bytesToDiscard).length ≤ s.cumulation.length := by simp
    generalize s.cumulation.drop s.bytesToDiscard = bytes at unread shorter ⊢
    by_cases short : bytes.length < params.lengthFieldLength
    · refine Or.inl ⟨_, parse_short plain short, ⟨bounded, [], rfl, unread⟩, shorter, ?_⟩
      rintro rfl
      cases payloads with
      | nil => rfl
      | cons payload later =>
        have lengths := congrArg List.length unread
        simp only [List.append_nil, stream_cons, List.length_append, length_framed] at lengths
        omega
    · cases payloads with
      | nil =>
        have lengths := congrArg List.length unread
        simp only [stream_nil, List.length_append, List.length_nil] at lengths
        omega
      | cons payload later =>
        have parsed := parse_framed plain (bounded payload (by simp)) (Nat.not_lt.mp short) unread
        have boundedLater := fun other member => bounded other (List.mem_cons_of_mem payload member)
        have beyond := skip_front unread
        rw [length_framed] at beyond
        dsimp only at parsed
        split at parsed
        · rename_i tooLong
          exact Or.inr (Or.inr ⟨payload, later, _, _, rfl, parsed, Nat.not_le.mpr tooLong,
            boundedLater, _, by simp, beyond⟩)
        · rename_i fits
          split at parsed
          · refine Or.inl ⟨_, parsed, ⟨bounded, [], rfl, unread⟩, shorter, ?_⟩
            rintro rfl
            have lengths := congrArg List.length unread
            simp only [List.append_nil, stream_cons, List.length_append, length_framed] at lengths
            omega
          · rw [List.drop_of_length_le (l := framed _ payload) (by simp; omega)] at beyond
            refine Or.inr (Or.inl ⟨payload, later, _, rfl, parsed, Nat.not_lt.mp fits,
              ⟨boundedLater, [], rfl, beyond⟩, ?_⟩)
            simp only [List.length_drop]
            omega

/-- What one piece of a stream of frames leads to: a front part of the frames is
taken off, those that fit are delivered in order, and an exception means that
one of them did not fit. Without an exception nothing complete is left over. -/
structure TakesFront (params : Params) (rest : Bytes) (payloads : List Bytes) (received : Received)
    (taken later : List Bytes) : Prop where
  split : payloads = taken ++ later
  frames : received.frames = taken.filter (Fits params)
  ahead : Ahead params received.next rest later
  clean : received.failure = none → (∀ payload ∈ taken, Fits params payload) ∧ (rest = [] → later = [])
  failed : received.failure ≠ none → ∃ payload ∈ taken, ¬ Fits params payload

private theorem takes_none (ahead : Ahead params s rest payloads) (stuck : rest = [] → payloads = []) :
    TakesFront params rest payloads ⟨[], s, none⟩ [] payloads :=
  ⟨rfl, rfl, ahead, fun _ => ⟨by simp, stuck⟩, by simp⟩

private theorem takes_nothing_readable (plain : params.Plain) (ahead : Ahead params s rest payloads)
    (empty : s.cumulation = []) : TakesFront params rest payloads ⟨[], s, none⟩ [] payloads := by
  apply takes_none ahead
  rintro rfl
  obtain ⟨-, junk, -, aligned⟩ := ahead
  have positive := plain.positive
  cases payloads with
  | nil => rfl
  | cons payload later =>
    have lengths := congrArg List.length aligned
    simp only [empty, List.append_nil, List.length_nil, stream_cons, List.length_append,
      length_framed] at lengths
    omega

/-- The loop over one piece, by induction on its fuel. -/
theorem callDecode_takes (plain : params.Plain) (fuel : Nat) (enough : s.cumulation.length ≤ fuel)
    (ahead : Ahead params s rest payloads) :
    ∃ taken later, TakesFront params rest payloads (callDecode params fuel s) taken later := by
  induction fuel generalizing s payloads with
  | zero =>
    exact ⟨[], payloads, takes_nothing_readable plain ahead
      (List.eq_nil_of_length_eq_zero (by omega))⟩
  | succ fuel ih =>
    by_cases empty : s.cumulation = []
    · simp only [callDecode, empty, if_true]
      exact ⟨[], payloads, takes_nothing_readable plain ahead empty⟩
    simp only [callDecode, empty, if_false]
    rcases decode_cases plain ahead with ⟨next, step, ahead, kept, stuck⟩ |
      ⟨payload, later, next, rfl, step, fits, ahead, kept⟩ |
      ⟨payload, later, failure, next, rfl, step, tooLong, ahead⟩
    · simp only [step]
      split
      · exact ⟨[], payloads, takes_none ahead stuck⟩
      · exact ih (by omega) ahead
    · obtain ⟨taken, later, front⟩ := ih (by omega) ahead
      simp only [step]
      refine ⟨payload :: taken, later, ?_, ?_, front.ahead, ?_, ?_⟩
      · rw [front.split, List.cons_append]
      · simp [front.frames, fits]
      · intro quiet
        obtain ⟨allFit, exhausted⟩ := front.clean quiet
        exact ⟨List.forall_mem_cons.mpr ⟨fits, allFit⟩, exhausted⟩
      · intro loud
        obtain ⟨other, member, unfit⟩ := front.failed loud
        exact ⟨other, List.mem_cons_of_mem _ member, unfit⟩
    · simp only [step]
      exact ⟨[payload], later, rfl, by simp [tooLong], ahead, by simp,
        fun _ => ⟨payload, by simp, tooLong⟩⟩

/-- However the stream is cut, each piece takes the next frames off its front. -/
theorem feed_takes (plain : params.Plain) (ahead : Ahead params s (chunk ++ rest) payloads) :
    ∃ taken later, TakesFront params rest payloads (feed params s chunk) taken later :=
  callDecode_takes plain _ (Nat.le_refl _) (ahead_arrival ahead)

/-- With frames that all fit there is no exception. -/
theorem feed_takes_fitting (plain : params.Plain) (ahead : Ahead params s (chunk ++ rest) payloads)
    (fit : ∀ payload ∈ payloads, Fits params payload) :
    ∃ later, payloads = (feed params s chunk).frames ++ later ∧ (feed params s chunk).failure = none ∧
      Ahead params (feed params s chunk).next rest later ∧ (rest = [] → later = []) := by
  obtain ⟨taken, later, front⟩ := feed_takes plain ahead
  have takenFit : ∀ payload ∈ taken, Fits params payload :=
    fun payload member => fit payload (by rw [front.split]; exact List.mem_append_left _ member)
  have quiet : (feed params s chunk).failure = none := by
    by_contra loud
    obtain ⟨payload, member, unfit⟩ := front.failed loud
    exact unfit (takenFit payload member)
  have whole : (feed params s chunk).frames = taken := by
    rw [front.frames]
    exact List.filter_eq_self.mpr (by simpa using takenFit)
  exact ⟨later, by rw [whole, front.split], quiet, front.ahead, (front.clean quiet).2⟩

/-! ## The payloads in flight -/

/-- The whole frames at the front of a byte string, whatever their size. -/
def parsePayloads (width : Nat) : Nat → Bytes → List Bytes
  | 0, _ => []
  | fuel + 1, bytes =>
    let size := ofBigEndian (bytes.take width)
    if bytes.length < width + size then []
    else (bytes.drop width).take size :: parsePayloads width fuel (bytes.drop (width + size))

/-- The payloads a decoder has not taken off yet, in its own buffer or on the wire. -/
def inFlight (width : Nat) (s : Decoder) (rest : Bytes) : List Bytes :=
  let unread := (s.cumulation ++ rest).drop s.bytesToDiscard
  parsePayloads width unread.length unread

private theorem parsePayloads_stream (width fuel : Nat) (payloads : List Bytes) (positive : 0 < width)
    (enough : payloads.length ≤ fuel) (bounded : ∀ payload ∈ payloads, payload.length < 256 ^ width) :
    parsePayloads width fuel (stream width payloads) = payloads := by
  induction fuel generalizing payloads with
  | zero => rw [List.eq_nil_of_length_eq_zero (by omega : payloads.length = 0)]; rfl
  | succ fuel ih =>
    cases payloads with
    | nil =>
      have readable : 0 < width + ofBigEndian [] := by omega
      simp [parsePayloads, readable]
    | cons payload later =>
      have size : ofBigEndian ((stream width (payload :: later)).take width) = payload.length := by
        rw [stream_cons, framed, List.append_assoc, List.take_left' (by simp)]
        exact ofBigEndian_bigEndian _ _ (bounded payload (by simp))
      have body : ((stream width (payload :: later)).drop width).take payload.length = payload := by
        rw [stream_cons, framed, List.append_assoc, List.drop_left' (by simp), List.take_left]
      have beyond : (stream width (payload :: later)).drop (width + payload.length) =
          stream width later := by
        rw [stream_cons, List.drop_left' (by simp)]
      simp only [parsePayloads, size, body, beyond]
      rw [if_neg (by simp), ih later (by simpa using enough)
        (fun other member => bounded other (List.mem_cons_of_mem _ member))]

private theorem length_le_stream (width : Nat) (positive : 0 < width) (payloads : List Bytes) :
    payloads.length ≤ (stream width payloads).length := by
  induction payloads with
  | nil => simp
  | cons payload later ih =>
    simp only [List.length_cons, stream_cons, List.length_append, length_framed]
    omega

/-- The payloads in flight are those the decoder stands before. -/
theorem inFlight_eq (plain : params.Plain) (ahead : Ahead params s rest payloads) :
    inFlight params.lengthFieldLength s rest = payloads := by
  obtain ⟨bounded, junk, skipped, aligned⟩ := ahead
  have unread : (s.cumulation ++ rest).drop s.bytesToDiscard =
      stream params.lengthFieldLength payloads := by
    rw [aligned, ← skipped, List.drop_left]
  simp only [inFlight, unread]
  exact parsePayloads_stream _ _ _ plain.positive
    (length_le_stream _ plain.positive payloads) bounded

end Tomas.Framing
