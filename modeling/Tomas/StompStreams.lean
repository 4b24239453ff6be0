import Tomas.StompFrames

/-! What the webstomp client reads of a stream that arrives in pieces. A piece
that is a single line feed counts as a heart-beat and is not looked at again, so
where the stream is cut can matter; it does not matter as long as a heart-beat
comes in a piece of its own and a line feed of a frame does not. -/
namespace Tomas.StompStreams
open Tomas.Delimited Tomas.JsStrings Tomas.StompFrames

/-- `ws.onmessage`: the frames it hands on, and what it keeps. -/
def onmessage (partialData data : JsString) : List Frame × JsString :=
  if data = [LF] then ([], partialData)
  else
    let unmarshalledData := unmarshall (partialData ++ data)
    (unmarshalledData.frames, unmarshalledData.partialData)

/-- One piece after the other. -/
def receive (partialData : JsString) : List JsString → List Frame × JsString
  | [] => ([], partialData)
  | data :: later =>
    let (frames, partialData) := onmessage partialData data
    let (more, partialData) := receive partialData later
    (frames ++ more, partialData)

/-- Where the stream may be cut. -/
def Cut (s : Reader UInt16) : List JsString → Prop
  | [] => True
  | data :: later =>
    (if s.behind then data = [LF] ∨ data.head? ≠ some LF else data ≠ [LF]) ∧
      Cut (s.read NULL LF data).2 later

variable {s : Reader UInt16} {data text : JsString} {pieces : List JsString} {frames : List Frame}

/-- What is unmarshalled of what was kept and what arrives. -/
private theorem unmarshall_kept (lawful : s.Lawful NULL LF)
    (starts : s.behind = true → data.head? ≠ some LF) :
    unmarshall (s.kept ++ data) =
      { frames := (s.read NULL LF data).1.map unmarshallSingle,
        partialData := (s.read NULL LF data).2.kept } := by
  have after : (s.read NULL LF data).2.Lawful NULL LF := lawful_read lawful
  have other : (s.read NULL LF data).2.kept ≠ [LF] := by
    intro same
    exact after.starts (by rw [same]; rfl)
  have unfinished : endsWithNull (s.read NULL LF data).2.kept = false := by
    rw [endsWithNull, beq_eq_false_iff_ne]
    intro last
    have inside := List.mem_of_getLast? last
    exact after.plain ((List.rdropWhile_prefix _ _).subset inside)
  simp [unmarshall, split_kept lawful starts, other, unfinished]

/-- One piece that may be cut so. -/
private theorem onmessage_eq (lawful : s.Lawful NULL LF)
    (cut : if s.behind then data = [LF] ∨ data.head? ≠ some LF else data ≠ [LF]) :
    onmessage s.kept data =
      ((s.read NULL LF data).1.map unmarshallSingle, (s.read NULL LF data).2.kept) := by
  by_cases beat : data = [LF]
  · have behind : s.behind = true := by
      by_contra inside
      rw [if_neg inside] at cut
      exact cut beat
    rw [onmessage, if_pos beat, beat, read_filler behind]
    rfl
  · have starts : s.behind = true → data.head? ≠ some LF := by
      intro behind
      rw [if_pos behind] at cut
      exact cut.resolve_left beat
    rw [onmessage, if_neg beat, unmarshall_kept lawful starts]

theorem receive_eq (lawful : s.Lawful NULL LF) (cut : Cut s pieces) :
    receive s.kept pieces =
      ((s.read NULL LF pieces.flatten).1.map unmarshallSingle, (s.read NULL LF pieces.flatten).2.kept) := by
  induction pieces generalizing s with
  | nil => rfl
  | cons data later ih =>
    obtain ⟨first, rest⟩ := cut
    simp only [receive, onmessage_eq lawful first, ih (lawful_read lawful) rest, List.flatten_cons,
      read_append, List.map_append]

/-- The frames of a stream are unmarshalled one by one, and each has the headers
that were written, trimmed, and no others. -/
theorem unmarshall_stream (stream : Stream frames text) (starts : text.head? ≠ some LF) :
    unmarshall text = { frames := frames.map Frame.received, partialData := [] } ∧
      ∀ frame ∈ frames, frame.received.headers.entries.Perm (frame.written.map trimmed) := by
  obtain ⟨records, read, same⟩ := read_stream stream
  have whole := @unmarshall_kept { behind := true } text lawful_start fun _ => starts
  rw [read, same] at whole
  exact ⟨whole, fun frame member => received_perm (stream_sendable stream frame member)⟩

/-- A frame with a name that is listed early and a body with a blank line in it. -/
private def note : Frame :=
  { command := js "ERROR", headers := .of [(js "id", .text (js "1")), (js "7", .text (js " x"))]
    body := js "a\n\nb" }

private def noteText : JsString :=
  js "ERROR\n7: x\nid:1\ncontent-length:4\n\na\n\nb" ++ [NULL]

private theorem note_sendable : note.Sendable := by decide

private theorem note_stream : Stream [note, note] (noteText ++ LF :: (noteText ++ [])) :=
  .frame note_sendable (by decide) (.beat (.frame note_sendable (by decide) .done))

theorem unmarshall_notes :
    unmarshall (noteText ++ LF :: noteText) =
        { frames := [note.received, note.received], partialData := [] } ∧
      ∀ frame ∈ [note, note], frame.received.headers.entries.Perm (frame.written.map trimmed) := by
  have same : noteText ++ LF :: noteText = noteText ++ LF :: (noteText ++ []) := by
    rw [List.append_nil]
  rw [same]
  exact unmarshall_stream note_stream (by decide)

/-- The headers arrive as JavaScript lists them. -/
example : note.received.headers.entries =
    [(js "7", .text (js "x")), (js "content-length", .text (js "4")), (js "id", .text (js "1"))] := by
  decide

/-- However it is cut, if it may be cut so, the frames of a stream arrive as
they do in one piece, and nothing is kept. -/
theorem receive_stream (stream : Stream frames text) (whole : pieces.flatten = text)
    (cut : Cut { behind := true } pieces) : receive [] pieces = (frames.map Frame.received, []) := by
  obtain ⟨records, read, same⟩ := read_stream stream
  have received := @receive_eq { behind := true } pieces lawful_start cut
  rw [whole, read, same] at received
  exact received

theorem receive_notes :
    receive [] [js "ERR", noteText.drop 3, [LF], noteText] = ([note.received, note.received], []) :=
  receive_stream note_stream (by decide)
    ⟨by decide, by decide +kernel, by decide +kernel, by decide +kernel, trivial⟩

/-- The frames of which the last unit has arrived, with what has arrived of the
next one, in pieces that may be cut so. -/
structure Arrived (frames : List Frame) (pieces : List JsString) : Prop where
  whole : ∃ front begun, pieces.flatten = front ++ begun ∧ Stream frames front ∧ NULL ∉ begun
  cut : Cut { behind := true } pieces

theorem receive_arrived (arrived : Arrived frames pieces) :
    (receive [] pieces).1 = frames.map Frame.received := by
  obtain ⟨front, begun, whole, stream, unfinished⟩ := arrived.whole
  obtain ⟨records, read, same⟩ := read_stream stream
  have received := @receive_eq { behind := true } pieces lawful_start arrived.cut
  rw [whole, read_append, read, read_open unfinished, List.append_nil, same] at received
  exact congrArg Prod.fst received

/-- A line feed of a frame that travels alone is lost. -/
example : (receive [] [js "ERROR\n\na", [LF], js "b" ++ [NULL]]).1.map (·.body) = [js "ab"] := by
  decide

end Tomas.StompStreams
