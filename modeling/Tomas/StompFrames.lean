import Mathlib.Data.List.Nodup
import Mathlib.Tactic.MkIffOfInductiveProp
import Tomas.Delimited
import Tomas.JsStrings

/-! The frames of the vendored webstomp client: how it writes one and how it
takes those apart that arrive. Nothing is escaped, so a frame is read back only
if its parts leave the separators alone; surrounding white space is lost. -/
namespace Tomas.StompFrames
open Tomas.Delimited Tomas.JsStrings

def LF : UInt16 := 10

def NULL : UInt16 := 0

def colon : UInt16 := 58

/-! ## Headers -/

/-- What a header is set to: a string, or `false`. -/
inductive Value where
  | text (value : JsString)
  | no
  deriving DecidableEq, Repr

def Value.toString : Value → JsString
  | .text value => value
  | .no => js "false"

/-- Array indices are listed first, in ascending order, and then the other names
in the order in which they were set. -/
def listsBefore (name other : JsString) : Bool :=
  match arrayIndex name, arrayIndex other with
  | some index, some later => index < later
  | some _, none => true
  | none, _ => false

private theorem listsBefore_asymm {name other : JsString} (before : listsBefore name other = true) :
    listsBefore other name = false := by
  unfold listsBefore at before ⊢
  cases own : arrayIndex name <;> cases its : arrayIndex other <;> simp_all
  omega

private theorem listsBefore_trans {name middle other : JsString} (first : listsBefore name middle = true)
    (second : listsBefore middle other = true) : listsBefore name other = true := by
  unfold listsBefore at first second ⊢
  cases own : arrayIndex name <;> cases its : arrayIndex middle <;> cases last : arrayIndex other <;>
    simp_all
  omega

/-- Setting a property, in its place if it is there. -/
def setEntry (name : JsString) (value : Value) : List (JsString × Value) → List (JsString × Value)
  | [] => [(name, value)]
  | (other, old) :: rest =>
    if other = name then (name, value) :: rest
    else if listsBefore name other then (name, value) :: (other, old) :: rest
    else (other, old) :: setEntry name value rest

/-- Each name stands once, and behind those that are listed before it. -/
def Listed (entries : List (JsString × Value)) : Prop :=
  entries.Pairwise fun first later => later.1 ≠ first.1 ∧ listsBefore later.1 first.1 = false

theorem mem_setEntry {name : JsString} {value : Value} {entries : List (JsString × Value)}
    {entry : JsString × Value} (member : entry ∈ setEntry name value entries) :
    entry = (name, value) ∨ entry ∈ entries := by
  induction entries with
  | nil => exact Or.inl (List.mem_singleton.mp member)
  | cons first rest ih =>
    rw [setEntry] at member
    split at member
    · rcases List.mem_cons.mp member with rfl | old
      · exact Or.inl rfl
      · exact Or.inr (List.mem_cons_of_mem _ old)
    · split at member
      · exact List.mem_cons.mp member
      · rcases List.mem_cons.mp member with rfl | later
        · exact Or.inr List.mem_cons_self
        · exact (ih later).imp_right (List.mem_cons_of_mem _)

private theorem listed_setEntry {name : JsString} {value : Value} {entries : List (JsString × Value)}
    (listed : Listed entries) : Listed (setEntry name value entries) := by
  induction entries with
  | nil => exact List.pairwise_singleton ..
  | cons first rest ih =>
    obtain ⟨own, later⟩ := List.pairwise_cons.mp listed
    rw [setEntry]
    split
    · rename_i same
      refine List.pairwise_cons.mpr ⟨fun entry member => ?_, later⟩
      rw [← same]
      exact own entry member
    · rename_i other
      split
      · rename_i before
        refine List.pairwise_cons.mpr ⟨fun entry member => ?_, listed⟩
        rcases List.mem_cons.mp member with rfl | inside
        · exact ⟨other, listsBefore_asymm before⟩
        · obtain ⟨-, behind⟩ := own entry inside
          constructor
          · intro same
            rw [same, before] at behind
            cases behind
          · by_contra ahead
            have passes := listsBefore_trans (by simpa using ahead) before
            rw [behind] at passes
            cases passes
      · rename_i behind
        refine List.pairwise_cons.mpr ⟨fun entry member => ?_, ih later⟩
        rcases mem_setEntry member with rfl | inside
        · exact ⟨fun same => other same.symm, by simpa using behind⟩
        · exact own entry inside

/-- An object: its properties in the order in which they are listed. -/
structure Headers where
  entries : List (JsString × Value)
  listed : Listed entries
  deriving DecidableEq, Repr

namespace Headers

def empty : Headers where
  entries := []
  listed := List.Pairwise.nil

@[simp] theorem entries_empty : empty.entries = [] := rfl

def get (headers : Headers) (name : JsString) : Option Value :=
  (headers.entries.find? (·.1 == name)).map Prod.snd

/-- Setting the prototype to a string has no effect. -/
def set (headers : Headers) (name : JsString) (value : Value) : Headers :=
  if name = js "__proto__" then headers
  else { entries := setEntry name value headers.entries, listed := listed_setEntry headers.listed }

def delete (headers : Headers) (name : JsString) : Headers where
  entries := headers.entries.filter (·.1 != name)
  listed := headers.listed.filter _

/-- An object whose properties are set one after the other. -/
def of (entries : List (JsString × Value)) : Headers :=
  entries.foldl (fun headers entry => headers.set entry.1 entry.2) empty

end Headers

def contentLength : JsString := js "content-length"

/-! ## `Frame` -/

structure Frame where
  command : JsString
  headers : Headers := .empty
  body : JsString := []
  deriving DecidableEq, Repr

def sizeOfUTF8 (s : JsString) : Except String Nat :=
  match utf8Length s with
  | none => throw "URIError: URI malformed"
  | some size => pure size

def Frame.toString (frame : Frame) : Except String JsString := do
  let skipContentLength := frame.headers.get contentLength == some .no
  let headers := if skipContentLength then frame.headers.delete contentLength else frame.headers
  let lines := frame.command :: headers.entries.map fun header => header.1 ++ colon :: header.2.toString
  let lines ←
    if frame.body ≠ [] && !skipContentLength then do
      let size ← sizeOfUTF8 frame.body
      pure (lines ++ [contentLength ++ colon :: decimal size])
    else pure lines
  pure ([LF].intercalate (lines ++ [LF :: frame.body]))

/-- `data.search(/\n\n/)`. -/
def searchBlankLine : JsString → Option Nat
  | first :: second :: rest =>
    if first = LF ∧ second = LF then some 0 else (searchBlankLine (second :: rest)).map (· + 1)
  | _ => none

/-- One line of the header, into the object. -/
def setHeaderLine (headers : Headers) (line : JsString) : Headers :=
  let idx := indexOf line colon
  headers.set (trim (substring line 0 idx)) (.text (trim (substring line (idx + 1) line.length)))

def unmarshallSingle (data : JsString) : Frame :=
  let divider : Int := ((searchBlankLine data).map Int.ofNat).getD (-1)
  let headerLines := (substring data 0 divider).splitOn LF
  let headers := headerLines.tail.reverse.foldl setHeaderLine .empty
  let bodyIndex := divider + 2
  let body :=
    match headers.get contentLength with
    | some (.text (unit :: length)) =>
      match parseInt (unit :: length) with
      | some len => substring data bodyIndex (bodyIndex + len)
      | none => substring data bodyIndex 0
    | _ => (data.drop bodyIndex.toNat).takeWhile (· != NULL)
  { command := headerLines.headD [], headers, body }

structure Unmarshalled where
  frames : List Frame
  partialData : JsString
  deriving DecidableEq, Repr

/-- `lastFrame.search(/\0\n*$/) !== -1`. -/
def endsWithNull (lastFrame : JsString) : Bool :=
  (lastFrame.rdropWhile (· == LF)).getLast? == some NULL

def unmarshall (datas : JsString) : Unmarshalled :=
  let (firstFrames, lastFrame) := split NULL LF datas
  if lastFrame = [LF] || endsWithNull lastFrame then
    { frames := firstFrames.map unmarshallSingle ++ [unmarshallSingle lastFrame], partialData := [] }
  else { frames := firstFrames.map unmarshallSingle, partialData := lastFrame }

def marshall (frame : Frame) : Except String JsString := do
  let text ← frame.toString
  pure (text ++ [NULL])

/-! ## What a frame is read as -/

/-- The headers that are written, the length of the body apart. -/
def Frame.kept (frame : Frame) : Headers :=
  if frame.headers.get contentLength = some .no then frame.headers.delete contentLength else frame.headers

/-- The length is written behind them, unless it is switched off. -/
def Frame.measured (frame : Frame) : List (JsString × Value) :=
  if frame.body ≠ [] ∧ frame.headers.get contentLength ≠ some .no then
    [(contentLength, .text (decimal ((utf8Length frame.body).getD 0)))]
  else []

/-- The headers in the order of their lines. -/
def Frame.written (frame : Frame) : List (JsString × Value) := frame.kept.entries ++ frame.measured

def trimmed (header : JsString × Value) : JsString × Value :=
  (trim header.1, .text (trim header.2.toString))

/-- The frame as the other end sees it, which takes the last line first. -/
def Frame.received (frame : Frame) : Frame :=
  { frame with headers := .of (frame.written.reverse.map trimmed) }

/-- A text that can stand on a line. -/
def OnLine (text : JsString) : Prop := LF ∉ text ∧ NULL ∉ text

instance (text : JsString) : Decidable (OnLine text) :=
  inferInstanceAs (Decidable (LF ∉ text ∧ NULL ∉ text))

/-- A frame whose parts leave the separators to the format. -/
@[mk_iff] structure Frame.Sendable (frame : Frame) : Prop where
  command : frame.command ≠ [] ∧ OnLine frame.command
  headers : ∀ header ∈ frame.kept.entries, OnLine header.1 ∧ colon ∉ header.1 ∧ OnLine header.2.toString
  names : (frame.kept.entries.map (trim ·.1)).Nodup
  other : ∀ header ∈ frame.kept.entries, trim header.1 ≠ js "__proto__" ∧ trim header.1 ≠ contentLength
  body : NULL ∉ frame.body
  length : ∀ size ∈ utf8Length frame.body, size < 2 ^ 53

instance (frame : Frame) : Decidable frame.Sendable :=
  decidable_of_iff _ (Frame.sendable_iff frame).symm

/-! ## Lines -/

section Lines

variable {lines : List JsString} {line rest : JsString} {unit : UInt16}

private theorem join_snoc (some : lines ≠ []) :
    [LF].intercalate (lines ++ [line]) = [LF].intercalate lines ++ LF :: line := by
  induction lines with
  | nil => exact absurd rfl some
  | cons first lines ih =>
    cases lines with
    | nil => simp [List.intercalate_cons_cons]
    | cons second lines =>
      have later := ih (List.cons_ne_nil _ _)
      rw [List.cons_append, List.cons_append, List.intercalate_cons_cons, ← List.cons_append, later,
        List.intercalate_cons_cons]
      simp

private theorem mem_join (absent : ∀ line ∈ lines, unit ∉ line) (other : unit ≠ LF) :
    unit ∉ [LF].intercalate lines := by
  induction lines with
  | nil => simp
  | cons first lines ih =>
    have own := absent first List.mem_cons_self
    have later := ih fun line member => absent line (List.mem_cons_of_mem _ member)
    cases lines with
    | nil => simpa using own
    | cons second lines =>
      rw [List.intercalate_cons_cons]
      simp [own, other, later]

private theorem join_cons (starts : ∀ line ∈ lines, line ≠ [] ∧ LF ∉ line) (some : lines ≠ []) :
    ∃ unit text, [LF].intercalate lines = unit :: text ∧ unit ≠ LF := by
  cases lines with
  | nil => exact absurd rfl some
  | cons first lines =>
    obtain ⟨nonempty, plain⟩ := starts first List.mem_cons_self
    cases first with
    | nil => exact absurd rfl nonempty
    | cons unit first =>
      have other : unit ≠ LF := fun same => plain (by simp [same])
      cases lines with
      | nil => exact ⟨unit, first, List.intercalate_singleton, other⟩
      | cons second lines =>
        exact ⟨unit, first ++ [LF] ++ [LF].intercalate (second :: lines),
          List.intercalate_cons_cons, other⟩

private theorem search_line (plain : LF ∉ line) :
    searchBlankLine (line ++ rest) = (searchBlankLine rest).map (· + line.length) := by
  induction line with
  | nil => simp
  | cons unit line ih =>
    have other : unit ≠ LF := fun same => plain (by simp [same])
    have later := ih fun member => plain (List.mem_cons_of_mem _ member)
    have step (text : JsString) : searchBlankLine (unit :: text) = (searchBlankLine text).map (· + 1) := by
      cases text with
      | nil => rfl
      | cons second text => simp [searchBlankLine, other]
    rw [List.cons_append, step, later, Option.map_map, List.length_cons]
    rfl

/-- The first blank line is behind the lines, if none of them is empty. -/
private theorem search_join (starts : ∀ line ∈ lines, line ≠ [] ∧ LF ∉ line) (some : lines ≠ []) :
    searchBlankLine ([LF].intercalate lines ++ LF :: LF :: rest) =
      Option.some ([LF].intercalate lines).length := by
  induction lines with
  | nil => exact absurd rfl some
  | cons first lines ih =>
    have plain := (starts first List.mem_cons_self).2
    cases lines with
    | nil =>
      rw [List.intercalate_singleton, search_line plain]
      simp [searchBlankLine]
    | cons second lines =>
      have behind := fun line member => starts line (List.mem_cons_of_mem _ member)
      have later := ih behind (List.cons_ne_nil _ _)
      obtain ⟨unit, text, begins, other⟩ := join_cons behind (List.cons_ne_nil _ _)
      rw [begins] at later
      rw [List.intercalate_cons_cons, begins, List.append_assoc, List.append_assoc, search_line plain]
      simp only [List.cons_append, List.nil_append] at later ⊢
      rw [searchBlankLine, if_neg (by simp [other]), later]
      simp
      omega

end Lines

/-! ## The header -/

section Header

variable {headers : Headers} {entries written : List (JsString × Value)} {name other : JsString}
  {value : Value}

private theorem find_setEntry : (setEntry name value entries).find? (·.1 == other) =
    if name = other then some (name, value) else entries.find? (·.1 == other) := by
  have found (rest : List (JsString × Value)) : ((name, value) :: rest).find? (·.1 == other) =
      if name = other then some (name, value) else rest.find? (·.1 == other) := by
    rw [List.find?_cons]
    split
    · rename_i same
      rw [if_pos (beq_iff_eq.mp same)]
    · rename_i apart
      rw [if_neg (beq_eq_false_iff_ne.mp apart)]
  induction entries with
  | nil => exact found []
  | cons first rest ih =>
    rw [setEntry]
    split
    · rename_i same
      rw [found]
      split
      · rfl
      · rename_i apart
        rw [List.find?_cons_of_neg (by simpa [same] using apart)]
    · rename_i apart
      split
      · exact found _
      · by_cases wanted : first.1 = other
        · have differs : name ≠ other := fun same => apart (wanted.trans same.symm)
          rw [if_neg differs, List.find?_cons_of_pos (by simpa using wanted),
            List.find?_cons_of_pos (by simpa using wanted)]
        · rw [List.find?_cons_of_neg (by simpa using wanted), ih,
            List.find?_cons_of_neg (by simpa using wanted)]

theorem get_set (plain : name ≠ js "__proto__") :
    (headers.set name value).get other = if name = other then some value else headers.get other := by
  rw [Headers.set, if_neg plain, Headers.get, find_setEntry]
  split <;> rfl

private theorem perm_setEntry (fresh : name ∉ entries.map Prod.fst) :
    (setEntry name value entries).Perm (entries ++ [(name, value)]) := by
  induction entries with
  | nil => exact List.Perm.refl _
  | cons first rest ih =>
    have apart : first.1 ≠ name := fun same => fresh (by simp [same])
    have later : name ∉ rest.map Prod.fst := fun member => fresh (List.mem_cons_of_mem _ member)
    rw [setEntry, if_neg apart]
    split
    · exact (List.perm_append_singleton _ _).symm
    · exact (ih later).cons first

private theorem perm_foldl_set (plain : ∀ entry ∈ written, entry.1 ≠ js "__proto__")
    (names : ((headers.entries ++ written).map Prod.fst).Nodup) :
    (written.foldl (fun headers entry => headers.set entry.1 entry.2) headers).entries.Perm
      (headers.entries ++ written) := by
  induction written generalizing headers with
  | nil => simp
  | cons entry written ih =>
    have fresh : entry.1 ∉ headers.entries.map Prod.fst := by
      intro member
      rw [List.map_append, List.map_cons] at names
      exact (List.nodup_append.mp names).2.2 _ member _ List.mem_cons_self rfl
    have set : (headers.set entry.1 entry.2).entries.Perm (headers.entries ++ [entry]) := by
      rw [Headers.set, if_neg (plain entry List.mem_cons_self)]
      exact perm_setEntry fresh
    have whole : ((headers.set entry.1 entry.2).entries ++ written).Perm (headers.entries ++ entry :: written) := by
      rw [List.append_cons]
      exact set.append_right written
    have later := ih (fun other member => plain other (List.mem_cons_of_mem _ member))
      ((whole.map Prod.fst).nodup_iff.mpr names)
    exact later.trans whole

/-- Properties with names of their own are all there. -/
theorem perm_of (plain : ∀ entry ∈ entries, entry.1 ≠ js "__proto__")
    (names : (entries.map Prod.fst).Nodup) : (Headers.of entries).entries.Perm entries :=
  perm_foldl_set plain (by simpa using names)

/-- The property that is set last stays. -/
private theorem get_of (plain : ∀ entry ∈ entries, entry.1 ≠ js "__proto__") :
    (Headers.of entries).get name = (entries.reverse.find? (·.1 == name)).map Prod.snd := by
  induction entries using List.reverseRecOn with
  | nil => rfl
  | append_singleton entries entry ih =>
    have earlier := ih fun other member => plain other (List.mem_append_left _ member)
    have last : entry.1 ≠ js "__proto__" := plain entry (by simp)
    have step : Headers.of (entries ++ [entry]) = (Headers.of entries).set entry.1 entry.2 := by
      simp [Headers.of]
    rw [step, get_set last, earlier, List.reverse_append, List.reverse_singleton, List.singleton_append]
    split
    · rename_i same
      rw [List.find?_cons_of_pos (by simpa using same)]
      rfl
    · rename_i apart
      rw [List.find?_cons_of_neg (by simpa using apart)]

/-- The line of a header whose name has no colon. -/
private theorem setHeaderLine_eq {text : JsString} (plain : colon ∉ name) :
    setHeaderLine headers (name ++ colon :: text) = headers.set (trim name) (.text (trim text)) := by
  have front : substring (name ++ colon :: text) 0 (name.length : Int) = name := by
    rw [substring_start, List.take_left]
  have back : substring (name ++ colon :: text) ((name.length : Int) + 1)
      ((name ++ colon :: text).length : Int) = text := by
    have drop := @substring_from (name ++ colon :: text) (name.length + 1) (by simp)
      ((name ++ colon :: text).length : Int) (Int.le_refl _)
    rw [Int.natCast_add, Int.natCast_one] at drop
    rw [drop, List.append_cons, List.drop_left' (by simp)]
  rw [setHeaderLine, indexOf_front plain, front, back]

/-- Lines whose names have no colon are set one after the other. -/
private theorem foldl_setHeaderLine (plain : ∀ header ∈ written, colon ∉ header.1) :
    (written.map fun header => header.1 ++ colon :: header.2.toString).foldl setHeaderLine headers =
      (written.map trimmed).foldl (fun headers entry => headers.set entry.1 entry.2) headers := by
  induction written generalizing headers with
  | nil => rfl
  | cons header written ih =>
    rw [List.map_cons, List.foldl_cons, setHeaderLine_eq (plain header List.mem_cons_self),
      ih fun later member => plain later (List.mem_cons_of_mem _ member)]
    rfl

end Header

/-! ## Round trip -/

section RoundTrip

variable {frame : Frame} {text : JsString}

/-- The lines in front of the body. -/
def Frame.lines (frame : Frame) : List JsString :=
  frame.command :: frame.written.map fun header => header.1 ++ colon :: header.2.toString

/-- What is written, and with which length. -/
private theorem toString_cases (written : frame.toString = .ok text) :
    text = [LF].intercalate frame.lines ++ LF :: LF :: frame.body ∧
      (frame.measured = [] ∨ ∃ size, utf8Length frame.body = some size ∧
        frame.measured = [(contentLength, .text (decimal size))]) := by
  have lines : frame.lines ≠ [] := List.cons_ne_nil _ _
  rw [← join_snoc lines]
  by_cases skips : frame.headers.get contentLength = some .no
  · have none : frame.measured = [] := by simp [Frame.measured, skips]
    refine ⟨?_, Or.inl none⟩
    simp [Frame.toString, skips] at written
    rw [← Except.ok.inj written]
    simp [Frame.lines, Frame.written, Frame.kept, skips, none]
  · by_cases empty : frame.body = []
    · have none : frame.measured = [] := by simp [Frame.measured, empty]
      refine ⟨?_, Or.inl none⟩
      simp [Frame.toString, skips, empty] at written
      rw [← Except.ok.inj written]
      simp [Frame.lines, Frame.written, Frame.kept, skips, none, empty]
    · simp only [Frame.toString, sizeOfUTF8] at written
      cases counted : utf8Length frame.body with
      | none =>
        rw [counted] at written
        simp [skips, empty] at written
        cases written
      | some size =>
        have one : frame.measured = [(contentLength, .text (decimal size))] := by
          simp [Frame.measured, skips, empty, counted]
        refine ⟨?_, Or.inr ⟨size, rfl, one⟩⟩
        rw [counted] at written
        simp [skips, empty] at written
        rw [← Except.ok.inj written]
        simp [Frame.lines, Frame.written, Frame.kept, skips, one, Value.toString]

private theorem isDigit_ne {unit other : UInt16} (digit : isDigit unit = true)
    (plain : isDigit other = false) : unit ≠ other := by
  rintro rfl
  rw [plain] at digit
  cases digit

private theorem measured_plain : ∀ header ∈ frame.measured,
    OnLine header.1 ∧ colon ∉ header.1 ∧ OnLine header.2.toString := by
  have name : OnLine contentLength ∧ colon ∉ contentLength :=
    ⟨⟨by decide, by decide⟩, by decide⟩
  have noDigit : isDigit LF = false ∧ isDigit NULL = false := ⟨rfl, rfl⟩
  intro header member
  unfold Frame.measured at member
  split at member
  · rw [List.mem_singleton.mp member]
    refine ⟨name.1, name.2, ?_, ?_⟩
    · exact fun inside => isDigit_ne (isDigit_decimal LF inside) noDigit.1 rfl
    · exact fun inside => isDigit_ne (isDigit_decimal NULL inside) noDigit.2 rfl
  · cases member

private theorem measured_name : ∀ header ∈ frame.measured, header.1 = contentLength := by
  intro header member
  unfold Frame.measured at member
  split at member
  · rw [List.mem_singleton.mp member]
  · cases member

private theorem trim_contentLength : trim contentLength = contentLength := by decide

/-- The header lines that are written all have names of their own. -/
private theorem written_names (sendable : frame.Sendable) :
    (frame.written.map (trim ·.1)).Nodup ∧
      ∀ header ∈ frame.written, trim header.1 ≠ js "__proto__" := by
  have single : (frame.measured.map (trim ·.1)).Nodup := by
    unfold Frame.measured
    split <;> simp
  constructor
  · rw [Frame.written, List.map_append]
    refine List.nodup_append.mpr ⟨sendable.names, single, ?_⟩
    intro name kept other measured same
    obtain ⟨header, inside, rfl⟩ := List.mem_map.mp kept
    obtain ⟨last, found, rfl⟩ := List.mem_map.mp measured
    rw [measured_name last found, trim_contentLength] at same
    exact (sendable.other header inside).2 same
  · intro header member
    rcases List.mem_append.mp member with kept | measured
    · exact (sendable.other header kept).1
    · rw [measured_name header measured, trim_contentLength]
      decide

private theorem written_plain (sendable : frame.Sendable) : ∀ header ∈ frame.written,
    OnLine header.1 ∧ colon ∉ header.1 ∧ OnLine header.2.toString := by
  intro header member
  rcases List.mem_append.mp member with kept | measured
  · exact sendable.headers header kept
  · exact measured_plain header measured

private theorem lines_plain (sendable : frame.Sendable) :
    ∀ line ∈ frame.lines, line ≠ [] ∧ OnLine line := by
  intro line member
  rcases List.mem_cons.mp member with rfl | member
  · exact sendable.command
  · obtain ⟨header, inside, rfl⟩ := List.mem_map.mp member
    obtain ⟨⟨noBreak, noEnd⟩, -, valueBreak, valueEnd⟩ := written_plain sendable header inside
    refine ⟨by simp, ?_, ?_⟩
    · simp [noBreak, valueBreak, (by decide : LF ≠ colon)]
    · simp [noEnd, valueEnd, (by decide : NULL ≠ colon)]

/-- What is written is a record: it does not contain the delimiter, and it does
not start with a filler. -/
theorem toString_record (sendable : frame.Sendable) (written : frame.toString = .ok text) :
    NULL ∉ text ∧ text.head? ≠ some LF := by
  have lines := lines_plain sendable
  obtain ⟨same, -⟩ := toString_cases written
  obtain ⟨unit, rest, begins, other⟩ :=
    join_cons (fun line member => ⟨(lines line member).1, (lines line member).2.1⟩)
      (List.cons_ne_nil _ _ : frame.lines ≠ [])
  constructor
  · have front : NULL ∉ [LF].intercalate frame.lines :=
      mem_join (fun line member => (lines line member).2.2) (by decide)
    rw [same]
    simp [front, sendable.body, (by decide : NULL ≠ LF)]
  · rw [same, begins]
    simpa using other

private theorem received_headers (sendable : frame.Sendable) :
    frame.lines.tail.reverse.foldl setHeaderLine .empty = frame.received.headers := by
  have plain : ∀ header ∈ frame.written.reverse, colon ∉ header.1 :=
    fun header member => (written_plain sendable header (List.mem_reverse.mp member)).2.1
  rw [Frame.lines, List.tail_cons, ← List.map_reverse, foldl_setHeaderLine plain]
  rfl

private theorem received_plain (sendable : frame.Sendable) :
    ∀ entry ∈ frame.written.reverse.map trimmed, entry.1 ≠ js "__proto__" := by
  intro entry member
  obtain ⟨header, inside, rfl⟩ := List.mem_map.mp member
  exact (written_names sendable).2 header (List.mem_reverse.mp inside)

/-- All headers arrive, trimmed, and no others. -/
theorem received_perm (sendable : frame.Sendable) :
    frame.received.headers.entries.Perm (frame.written.map trimmed) := by
  have names : ((frame.written.reverse.map trimmed).map Prod.fst).Nodup := by
    rw [List.map_map, List.map_reverse, List.nodup_reverse]
    exact (written_names sendable).1
  apply (perm_of (received_plain sendable) names).trans
  exact (List.reverse_perm _).map _

/-- The length that is read is the one that was written. -/
private theorem received_contentLength (sendable : frame.Sendable) :
    frame.received.headers.get contentLength =
      frame.measured.head?.map fun header => .text (trim header.2.toString) := by
  have absent : (frame.kept.entries.map trimmed).find? (·.1 == contentLength) = none := by
    rw [List.find?_eq_none]
    intro header member
    obtain ⟨original, kept, rfl⟩ := List.mem_map.mp member
    simpa [trimmed] using (sendable.other original kept).2
  rw [Frame.received, get_of (received_plain sendable), ← List.map_reverse, List.reverse_reverse,
    Frame.written, List.map_append, List.find?_append, absent, Option.none_or]
  unfold Frame.measured
  split
  · simp [trimmed, trim_contentLength]
  · rfl

theorem unmarshallSingle_toString (sendable : frame.Sendable) (written : frame.toString = .ok text) :
    unmarshallSingle text = frame.received := by
  obtain ⟨same, length⟩ := toString_cases written
  have some : frame.lines ≠ [] := List.cons_ne_nil _ _
  have plain := lines_plain sendable
  have blank : searchBlankLine text = Option.some ([LF].intercalate frame.lines).length := by
    rw [same]
    exact search_join (fun line member => ⟨(plain line member).1, (plain line member).2.1⟩) some
  have lines : (substring text 0 (([LF].intercalate frame.lines).length : Int)).splitOn LF =
      frame.lines := by
    rw [substring_start, same, List.take_left]
    exact List.splitOn_intercalate LF (fun line member => (plain line member).2.1) some
  have behind : text.drop (([LF].intercalate frame.lines).length + 2) = frame.body := by
    rw [same, List.append_cons, List.append_cons, List.drop_left' (by simp)]
  have names := received_contentLength sendable
  unfold unmarshallSingle
  simp only [blank, Option.map_some, Option.getD_some, Int.ofNat_eq_natCast, lines,
    received_headers sendable, names]
  rcases length with none | ⟨size, counted, one⟩
  · have body : frame.body.takeWhile (· != NULL) = frame.body := by
      rw [List.takeWhile_eq_self_iff]
      intro unit inside
      simpa using fun same : unit = NULL => sendable.body (same ▸ inside)
    have index : ((([LF].intercalate frame.lines).length : Int) + 2).toNat =
        ([LF].intercalate frame.lines).length + 2 := by omega
    simp only [none, List.head?_nil, Option.map_none, index, behind, body]
    rfl
  · have digits : trim (decimal size) = decimal size := trim_eq_self isSpace_decimal
    have parsed := parseInt_decimal (sendable.length size counted)
    have fits := length_le_utf8Length counted
    have body : substring text (([LF].intercalate frame.lines).length + 2 : Int)
        (([LF].intercalate frame.lines).length + 2 + size : Int) = frame.body := by
      have rest := @substring_from text (([LF].intercalate frame.lines).length + 2) (by simp [same])
        (([LF].intercalate frame.lines).length + 2 + size) (by simp [same]; omega)
      rw [behind] at rest
      exact_mod_cast rest
    cases written : decimal size with
    | nil => exact absurd written decimal_ne_nil
    | cons unit rest =>
      rw [written] at parsed digits
      simp only [one, List.head?_cons, Option.map_some, Value.toString, written, digits, parsed, body]
      rfl

end RoundTrip

/-! ## What is read at all -/

/-- Each value could stand on a line again. -/
def OnLines (headers : Headers) : Prop := ∀ header ∈ headers.entries, OnLine header.2.toString

section Read

variable {headers : Headers} {name : JsString} {value : Value} {line data : JsString}

private theorem onLines_set (fine : OnLines headers) (plain : OnLine value.toString) :
    OnLines (headers.set name value) := by
  unfold Headers.set
  split
  · exact fine
  · intro header member
    rcases mem_setEntry member with rfl | old
    · exact plain
    · exact fine header old

private theorem onLines_setHeaderLine (fine : OnLines headers) (plain : OnLine line) :
    OnLines (setHeaderLine headers line) := by
  refine onLines_set fine ⟨fun member => plain.1 ?_, fun member => plain.2 ?_⟩
  · exact mem_substring (mem_trim member)
  · exact mem_substring (mem_trim member)

private theorem unmarshallSingle_onLines (plain : NULL ∉ data) : OnLines (unmarshallSingle data).headers := by
  have folded (lines : List JsString) (each : ∀ line ∈ lines, OnLine line) {headers : Headers}
      (fine : OnLines headers) : OnLines (lines.foldl setHeaderLine headers) := by
    induction lines generalizing headers with
    | nil => exact fine
    | cons line lines ih =>
      exact ih (fun other member => each other (List.mem_cons_of_mem _ member))
        (onLines_setHeaderLine fine (each line List.mem_cons_self))
  refine folded _ ?_ (by simp [OnLines])
  intro line member
  obtain ⟨whole, known⟩ := mem_splitOn line (List.mem_of_mem_tail (List.mem_reverse.mp member))
  exact ⟨whole, fun inside => plain (mem_substring (known _ inside))⟩

/-- Whatever arrives, what is read of its headers contains no separator. -/
theorem unmarshall_onLines : ∀ frame ∈ (unmarshall data).frames, OnLines frame.headers := by
  obtain ⟨records, kept⟩ := @read_without UInt16 _ NULL LF data {} List.not_mem_nil
  have first : ∀ frame ∈ (split NULL LF data).1.map unmarshallSingle, OnLines frame.headers := by
    intro frame member
    obtain ⟨record, inside, rfl⟩ := List.mem_map.mp member
    exact unmarshallSingle_onLines (records record inside)
  intro frame member
  simp only [unmarshall] at member
  split at member
  · rcases List.mem_append.mp member with whole | last
    · exact first frame whole
    · rw [List.mem_singleton.mp last]
      exact unmarshallSingle_onLines kept
  · exact first frame member

end Read

/-! ## Streams -/

/-- Frames one after the other, with line feeds as heart-beats between them. -/
inductive Stream : List Frame → JsString → Prop
  | done : Stream [] []
  | beat {frames : List Frame} {rest : JsString} : Stream frames rest → Stream frames (LF :: rest)
  | frame {frame : Frame} {frames : List Frame} {text rest : JsString} : frame.Sendable →
      marshall frame = .ok text → Stream frames rest → Stream (frame :: frames) (text ++ rest)

theorem marshall_cases {frame : Frame} {text : JsString} (written : marshall frame = .ok text) :
    ∃ record, frame.toString = .ok record ∧ text = record ++ [NULL] := by
  cases printed : frame.toString with
  | error cause =>
    simp only [marshall, printed] at written
    cases written
  | ok record =>
    simp only [marshall, printed] at written
    exact ⟨record, rfl, (Except.ok.inj written).symm⟩

theorem stream_append {frames more : List Frame} {text rest : JsString} (first : Stream frames text)
    (second : Stream more rest) : Stream (frames ++ more) (text ++ rest) := by
  induction first with
  | done => exact second
  | beat _ ih => exact .beat ih
  | frame sendable written _ ih =>
    rw [List.append_assoc]
    exact .frame sendable written ih

theorem stream_sendable {frames : List Frame} {text : JsString} (stream : Stream frames text) :
    ∀ frame ∈ frames, frame.Sendable := by
  induction stream with
  | done => exact List.forall_mem_nil _
  | beat _ ih => exact ih
  | frame sendable _ _ ih => exact List.forall_mem_cons.mpr ⟨sendable, ih⟩

/-- A stream is read to its end, and each record in it is the frame that was written. -/
theorem read_stream {frames : List Frame} {text : JsString} (stream : Stream frames text) :
    ∃ records, ({ behind := true } : Reader UInt16).read NULL LF text = (records, { behind := true }) ∧
      records.map unmarshallSingle = frames.map Frame.received := by
  induction stream with
  | done => exact ⟨[], rfl, rfl⟩
  | beat _ ih =>
    obtain ⟨records, read, same⟩ := ih
    refine ⟨records, ?_, same⟩
    rw [← List.singleton_append, read_append, read_filler rfl, read]
    rfl
  | frame sendable written _ ih =>
    obtain ⟨records, read, same⟩ := ih
    obtain ⟨record, printed, rfl⟩ := marshall_cases written
    obtain ⟨plain, starts⟩ := toString_record sendable printed
    refine ⟨record :: records, ?_, ?_⟩
    · rw [read_append, read_record (by decide) plain fun _ => starts, read]
      rfl
    · rw [List.map_cons, List.map_cons, unmarshallSingle_toString sendable printed, same]

end Tomas.StompFrames
