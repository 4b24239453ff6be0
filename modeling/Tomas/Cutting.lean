import Tomas.Framing

/-! A byte string that arrives in pieces, whatever bytes it is made of: the frames
that a piece delivers, followed by those that the decoder then holds back or that
are still to come, are the same before and after it. So where the string is cut
decides only how far the decoder is behind. -/
namespace Tomas.Cutting
open Tomas.Framing

/-- The whole frames at the front of a byte string. -/
def wholeFrames (width : Nat) (bytes : Bytes) : List Bytes := parsePayloads width bytes.length bytes

/-- The frames that fit and have not been delivered, in the decoder's buffer or
on the wire. -/
def undelivered (params : Params) (s : Decoder) (rest : Bytes) : List Bytes :=
  (inFlight params.lengthFieldLength s rest).filter (Fits params)

variable {params : Params} {s : Decoder} {bytes rest chunk : Bytes} {width : Nat}

private theorem parsePayloads_enough (positive : 0 < width) {fuel : Nat} (enough : bytes.length ≤ fuel) :
    parsePayloads width fuel bytes = wholeFrames width bytes := by
  induction fuel using Nat.strongRecOn generalizing bytes with
  | ind fuel ih =>
    cases fuel with
    | zero => rw [List.eq_nil_of_length_eq_zero (by omega : bytes.length = 0)]; rfl
    | succ fuel =>
      cases size : bytes.length with
      | zero =>
        rw [List.eq_nil_of_length_eq_zero size, parsePayloads, if_pos (by simp; omega)]
        rfl
      | succ length =>
        rw [wholeFrames, size, parsePayloads, parsePayloads]
        split
        · rfl
        · have shorter : (bytes.drop (width + ofBigEndian (bytes.take width))).length ≤ length := by
            rw [List.length_drop]
            omega
          rw [ih fuel (by omega) (by omega), ih length (by omega) shorter]

private theorem whole_short (positive : 0 < width)
    (short : bytes.length < width + ofBigEndian (bytes.take width)) : wholeFrames width bytes = [] := by
  rw [← parsePayloads_enough positive (Nat.le_succ bytes.length), parsePayloads, if_pos short]

private theorem whole_cons (positive : 0 < width)
    (whole : width + ofBigEndian (bytes.take width) ≤ bytes.length) :
    wholeFrames width bytes = (bytes.drop width).take (ofBigEndian (bytes.take width)) ::
      wholeFrames width (bytes.drop (width + ofBigEndian (bytes.take width))) := by
  rw [← parsePayloads_enough positive (Nat.le_succ bytes.length), parsePayloads,
    if_neg (Nat.not_lt.mpr whole), parsePayloads_enough positive]
  rw [List.length_drop]
  omega

/-- Skipping in the buffer what is there and on the wire what is not. -/
private theorem drop_skip {first : Bytes} {length : Nat} :
    (first.drop length ++ rest).drop (length - first.length) = (first ++ rest).drop length := by
  rcases Nat.le_total first.length length with long | short
  · rw [List.drop_of_length_le long, List.nil_append, List.drop_append, List.drop_of_length_le long,
      List.nil_append]
  · rw [Nat.sub_eq_zero_of_le short, List.drop_zero, List.drop_append_of_le_length short]

/-- A frame above the limit counts for nothing, arrived or not. -/
private theorem whole_tooLong (plain : params.Plain) (readable : params.lengthFieldLength ≤ bytes.length)
    (tooLong : params.maxFrameLength <
      params.lengthFieldLength + ofBigEndian (bytes.take params.lengthFieldLength)) :
    (wholeFrames params.lengthFieldLength bytes).filter (Fits params) =
      (wholeFrames params.lengthFieldLength (bytes.drop
        (params.lengthFieldLength + ofBigEndian (bytes.take params.lengthFieldLength)))).filter (Fits params) := by
  by_cases whole : params.lengthFieldLength + ofBigEndian (bytes.take params.lengthFieldLength) ≤ bytes.length
  · have unfit : ¬ Fits params ((bytes.drop params.lengthFieldLength).take
        (ofBigEndian (bytes.take params.lengthFieldLength))) := by
      rw [Fits, List.length_take, List.length_drop]
      omega
    rw [whole_cons plain.positive whole, List.filter_cons_of_neg (by simpa using unfit)]
  · rw [whole_short plain.positive (by omega), List.drop_of_length_le (by omega)]
    rfl

/-- What parsing does to the frames that have not been delivered. -/
private theorem parse_undelivered (plain : params.Plain) (bytes rest : Bytes) :
    let before := (wholeFrames params.lengthFieldLength (bytes ++ rest)).filter (Fits params)
    match parseFrame params bytes with
    | .waiting next => undelivered params next rest = before
    | .frame payload next => payload :: undelivered params next rest = before
    | .failed _ next => undelivered params next rest = before := by
  by_cases short : bytes.length < params.lengthFieldLength
  · have waits : parseFrame params bytes = .waiting ⟨bytes, 0⟩ := by
      simp [parseFrame, Params.lengthFieldEndOffset, plain.offset, short]
    rw [waits]
    rfl
  · have readable := Nat.not_lt.mp short
    let size := ofBigEndian (bytes.take params.lengthFieldLength)
    have field : (bytes ++ rest).take params.lengthFieldLength = bytes.take params.lengthFieldLength :=
      List.take_append_of_le_length readable
    have total : ((size : Int) + 0 + (params.lengthFieldLength : Int)).toNat =
        params.lengthFieldLength + size := by omega
    have nonnegative : ¬ ((size : Int) + 0 + (params.lengthFieldLength : Int) <
        (params.lengthFieldLength : Int)) := by omega
    have kept : ¬ params.lengthFieldLength + size < params.lengthFieldLength := by omega
    simp only [parseFrame, Params.lengthFieldEndOffset, plain.offset, plain.adjustment, plain.strip,
      Nat.zero_add, List.drop_zero, if_neg short]
    rw [show ofBigEndian (bytes.take params.lengthFieldLength) = size from rfl, total, if_neg nonnegative,
      if_neg kept]
    by_cases tooLong : params.maxFrameLength < params.lengthFieldLength + size
    · rw [if_pos tooLong]
      have same := @whole_tooLong params (bytes ++ rest) plain
        (by rw [List.length_append]; omega) (by rw [field]; exact tooLong)
      rw [same, field, ← drop_skip]
      rfl
    · rw [if_neg tooLong]
      by_cases partly : bytes.length < params.lengthFieldLength + size
      · rw [if_pos partly]
        rfl
      · rw [if_neg partly]
        have whole := Nat.not_lt.mp partly
        have payload : ((bytes ++ rest).drop params.lengthFieldLength).take size =
            (bytes.take (params.lengthFieldLength + size)).drop params.lengthFieldLength := by
          rw [List.drop_append_of_le_length readable, List.take_append_of_le_length
            (by rw [List.length_drop]; omega), List.drop_take, Nat.add_sub_cancel_left]
        have fits : Fits params ((bytes.take (params.lengthFieldLength + size)).drop
            params.lengthFieldLength) := by
          rw [Fits, List.length_drop, List.length_take]
          omega
        have cons := @whole_cons (bytes ++ rest) _ plain.positive
          (by rw [field, List.length_append]; omega)
        rw [cons, field, payload, List.filter_cons_of_pos (by simpa using fits),
          List.drop_append_of_le_length whole]
        rfl

/-- What one call of the decoder does to them. -/
private theorem decode_undelivered (plain : params.Plain) (s : Decoder) (rest : Bytes) :
    match decode params s with
    | .waiting next => undelivered params next rest = undelivered params s rest
    | .frame payload next => payload :: undelivered params next rest = undelivered params s rest
    | .failed _ next => undelivered params next rest = undelivered params s rest := by
  by_cases discarding : s.cumulation.length < s.bytesToDiscard
  · have waits : decode params s = .waiting ⟨[], s.bytesToDiscard - s.cumulation.length⟩ := by
      rw [decode, if_pos discarding]
    have skip := @drop_skip rest s.cumulation s.bytesToDiscard
    rw [List.drop_of_length_le (Nat.le_of_lt discarding)] at skip
    rw [waits]
    simp only [undelivered, inFlight, skip]
  · have parses : decode params s = parseFrame params (s.cumulation.drop s.bytesToDiscard) := by
      rw [decode, if_neg discarding]
    have step := parse_undelivered plain (s.cumulation.drop s.bytesToDiscard) rest
    rw [← List.drop_append_of_le_length (Nat.not_lt.mp discarding)] at step
    rw [parses]
    exact step

private theorem callDecode_undelivered (plain : params.Plain) (fuel : Nat) (s : Decoder) (rest : Bytes) :
    (callDecode params fuel s).frames ++ undelivered params (callDecode params fuel s).next rest =
      undelivered params s rest := by
  induction fuel generalizing s with
  | zero => rfl
  | succ fuel ih =>
    have step := decode_undelivered plain s rest
    rw [callDecode]
    split
    · rfl
    · cases decoded : decode params s with
      | waiting next =>
        rw [decoded] at step
        simp only
        split
        · exact step
        · rw [ih]
          exact step
      | frame payload next =>
        rw [decoded] at step
        simp only [List.cons_append]
        rw [ih]
        exact step
      | failed failure next =>
        rw [decoded] at step
        exact step

/-- One piece delivers the first of the frames that have not been delivered. -/
theorem feed_undelivered (plain : params.Plain) (s : Decoder) (chunk rest : Bytes) :
    (feed params s chunk).frames ++ undelivered params (feed params s chunk).next rest =
      undelivered params s (chunk ++ rest) := by
  rw [feed, callDecode_undelivered plain]
  simp only [undelivered, inFlight, List.append_assoc]

/-! ## What the decoder still owes after a piece -/

private theorem parse_waits (plain : params.Plain) {next : Decoder}
    (waits : parseFrame params bytes = .waiting next) : wholeFrames params.lengthFieldLength bytes = [] := by
  apply whole_short plain.positive
  by_contra whole
  simp only [parseFrame, Params.lengthFieldEndOffset, plain.offset, plain.adjustment, plain.strip,
    Nat.zero_add, List.drop_zero] at waits
  split_ifs at waits <;> omega

/-- The decoder waits only when no whole frame is left. -/
private theorem decode_waits (plain : params.Plain) {next : Decoder} (waits : decode params s = .waiting next) :
    undelivered params next [] = [] := by
  have same := decode_undelivered plain s []
  rw [waits] at same
  rw [same, undelivered, inFlight, List.append_nil]
  by_cases discarding : s.cumulation.length < s.bytesToDiscard
  · rw [List.drop_of_length_le (Nat.le_of_lt discarding)]
    rfl
  · rw [decode, if_neg discarding] at waits
    rw [show parsePayloads params.lengthFieldLength (s.cumulation.drop s.bytesToDiscard).length
      (s.cumulation.drop s.bytesToDiscard) = [] from parse_waits plain waits]
    rfl

/-- A plain length field is never corrupted, so a frame above the limit is the
only failure. -/
private theorem decode_fails (plain : params.Plain) {failure : Failure} {next : Decoder}
    (fails : decode params s = .failed failure next) :
    ∃ size, params.maxFrameLength < size ∧ failure = .tooLongFrame size := by
  simp only [decode, parseFrame, Params.lengthFieldEndOffset, plain.offset, plain.adjustment, plain.strip,
    Nat.zero_add, List.drop_zero] at fails
  split_ifs at fails with discarding short negative tooLong partly stripped
  · omega
  · cases fails
    exact ⟨_, tooLong, rfl⟩
  · omega

private theorem undelivered_empty (empty : s.cumulation = []) : undelivered params s [] = [] := by
  rw [undelivered, inFlight, empty, List.append_nil, List.drop_nil]
  rfl

/-- The loop ends with nothing owed or at a frame above the limit. -/
private theorem callDecode_settles (plain : params.Plain) (fuel : Nat) (enough : s.cumulation.length ≤ fuel) :
    undelivered params (callDecode params fuel s).next [] = [] ∨
      ∃ size, params.maxFrameLength < size ∧ (callDecode params fuel s).failure = some (.tooLongFrame size) := by
  induction fuel generalizing s with
  | zero =>
    have empty := List.eq_nil_of_length_eq_zero (Nat.le_zero.mp enough)
    exact Or.inl (undelivered_empty empty)
  | succ fuel ih =>
    rw [callDecode]
    by_cases empty : s.cumulation = []
    · rw [if_pos empty]
      exact Or.inl (undelivered_empty empty)
    rw [if_neg empty]
    -- whatever follows, the step stands in some stream of frames
    obtain ⟨rest, payloads, ahead⟩ := exists_ahead plain s
    rcases decode_cases plain ahead with ⟨next, step, -, kept, -⟩ | ⟨payload, later, next, -, step, -, -, kept⟩ |
      ⟨payload, later, failure, next, -, step, -, -⟩
    · simp only [step]
      split
      · exact Or.inl (decode_waits plain step)
      · exact ih (by omega)
    · simp only [step]
      exact ih (by omega)
    · obtain ⟨size, tooLong, rfl⟩ := decode_fails plain step
      simp only [step]
      exact Or.inr ⟨size, tooLong, rfl⟩

/-- A piece at which no frame above the limit is met leaves nothing owed. -/
theorem feed_settles (plain : params.Plain) (s : Decoder) (chunk : Bytes) :
    undelivered params (feed params s chunk).next [] = [] ∨
      ∃ size, params.maxFrameLength < size ∧ (feed params s chunk).failure = some (.tooLongFrame size) :=
  callDecode_settles plain _ (Nat.le_refl _)

end Tomas.Cutting
