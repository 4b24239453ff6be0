import Mathlib.Data.List.Basic

/-! Records that each end with a delimiter, in a stream that arrives in pieces.
Fillers between a delimiter and the next record belong to neither. A reader that
splits what it has kept together with what arrives sees the same records as one
that reads on, unless a piece starts with a filler of which it can no longer tell
that a delimiter came before it. -/
namespace Tomas.Delimited

variable {α : Type} [DecidableEq α] {delimiter filler : α} {first second record piece : List α}

/-- How far a stream has been read: the record that is still open, and whether
only fillers have come since a delimiter. -/
structure Reader (α : Type) where
  behind : Bool := false
  kept : List α := []
  deriving DecidableEq, Repr

/-- One symbol, and the record it ends if it ends one. -/
def Reader.push (delimiter filler : α) (s : Reader α) (a : α) : List (List α) × Reader α :=
  if s.behind && a == filler then ([], s)
  else if a = delimiter then ([s.kept], { behind := true })
  else ([], { kept := s.kept ++ [a] })

/-- The records that end in a piece of the stream. -/
def Reader.read (delimiter filler : α) (s : Reader α) : List α → List (List α) × Reader α
  | [] => ([], s)
  | a :: rest =>
    let pushed := s.push delimiter filler a
    let later := pushed.2.read delimiter filler rest
    (pushed.1 ++ later.1, later.2)

/-- What a piece is split into by its delimiters and the fillers behind them,
what comes after the last of them apart. -/
def split (delimiter filler : α) (piece : List α) : List (List α) × List α :=
  let read := ({} : Reader α).read delimiter filler piece
  (read.1, read.2.kept)

variable {s : Reader α}

theorem read_append : s.read delimiter filler (first ++ second) =
    ((s.read delimiter filler first).1 ++
        ((s.read delimiter filler first).2.read delimiter filler second).1,
      ((s.read delimiter filler first).2.read delimiter filler second).2) := by
  induction first generalizing s with
  | nil => rfl
  | cons a first ih => simp only [List.cons_append, Reader.read, ih, List.append_assoc]

private theorem push_plain {a : α} (plain : a ≠ delimiter) (starts : s.behind = true → a ≠ filler) :
    s.push delimiter filler a = ([], { kept := s.kept ++ [a] }) := by
  have stays : (s.behind && a == filler) = false := by simpa using starts
  simp [Reader.push, stays, plain]

/-- A record without its delimiter stays open. -/
theorem read_plain (plain : delimiter ∉ record) (starts : s.behind = true → record.head? ≠ some filler) :
    s.read delimiter filler record =
      ([], if record = [] then s else { kept := s.kept ++ record }) := by
  induction record generalizing s with
  | nil => rfl
  | cons a rest ih =>
    have other : a ≠ delimiter := fun same => plain (by simp [same])
    have keeps : s.behind = true → a ≠ filler := fun behind same => starts behind (by simp [same])
    have pushed := push_plain other keeps
    have later := @ih { kept := s.kept ++ [a] } (fun member => plain (List.mem_cons_of_mem _ member)) (by simp)
    simp only [Reader.read, pushed, later, List.nil_append]
    split
    · rename_i last
      simp [last]
    · simp

/-- A record and its delimiter. -/
theorem read_record (distinct : delimiter ≠ filler) (plain : delimiter ∉ record)
    (starts : s.behind = true → record.head? ≠ some filler) :
    s.read delimiter filler (record ++ [delimiter]) = ([s.kept ++ record], { behind := true }) := by
  rw [read_append, read_plain plain starts]
  split
  · rename_i empty
    simp [Reader.read, Reader.push, distinct, empty]
  · simp [Reader.read, Reader.push]

/-- Fillers behind a delimiter leave no trace. -/
theorem read_filler (behind : s.behind = true) : s.read delimiter filler [filler] = ([], s) := by
  simp [Reader.read, Reader.push, behind]

/-- No record ends where there is no delimiter. -/
theorem read_open (plain : delimiter ∉ piece) : (s.read delimiter filler piece).1 = [] := by
  induction piece generalizing s with
  | nil => rfl
  | cons a rest ih =>
    have other : a ≠ delimiter := fun same => plain (by simp [same])
    have pushed : (s.push delimiter filler a).1 = [] := by
      simp only [Reader.push, if_neg other]
      split <;> rfl
    rw [Reader.read, pushed, ih fun member => plain (List.mem_cons_of_mem _ member)]
    rfl

/-- No record contains the delimiter. -/
theorem read_without (plain : delimiter ∉ s.kept) :
    (∀ record ∈ (s.read delimiter filler piece).1, delimiter ∉ record) ∧
      delimiter ∉ (s.read delimiter filler piece).2.kept := by
  induction piece generalizing s with
  | nil => exact ⟨by simp [Reader.read], plain⟩
  | cons a rest ih =>
    have pushed : (∀ record ∈ (s.push delimiter filler a).1, delimiter ∉ record) ∧
        delimiter ∉ (s.push delimiter filler a).2.kept := by
      unfold Reader.push
      split
      · exact ⟨by simp, plain⟩
      · split
        · exact ⟨by simpa using plain, List.not_mem_nil⟩
        · rename_i other
          exact ⟨by simp, by simpa using ⟨plain, Ne.symm other⟩⟩
    obtain ⟨records, kept⟩ := ih pushed.2
    refine ⟨fun record member => ?_, kept⟩
    rcases List.mem_append.mp member with now | later
    · exact pushed.1 record now
    · exact records record later

/-! ## Splitting again -/

/-- What is kept of a stream that has been read from behind a delimiter on: no
delimiter, and nothing at all exactly when only fillers have come since. -/
structure Reader.Lawful (delimiter filler : α) (s : Reader α) : Prop where
  plain : delimiter ∉ s.kept
  behind : s.behind = true ↔ s.kept = []
  starts : s.kept.head? ≠ some filler

omit [DecidableEq α] in
theorem lawful_start : ({ behind := true } : Reader α).Lawful delimiter filler :=
  ⟨List.not_mem_nil, iff_of_true rfl rfl, by simp⟩

private theorem lawful_push {a : α} (lawful : s.Lawful delimiter filler) :
    (s.push delimiter filler a).2.Lawful delimiter filler := by
  unfold Reader.push
  split
  · exact lawful
  · rename_i keeps
    split
    · exact lawful_start
    · rename_i other
      refine ⟨?_, ?_, ?_⟩
      · simpa using ⟨lawful.plain, Ne.symm other⟩
      · simp
      · cases kept : s.kept with
        | nil =>
          have behind := lawful.behind.mpr kept
          simpa [behind] using keeps
        | cons first rest => simpa [kept] using lawful.starts

theorem lawful_read (lawful : s.Lawful delimiter filler) :
    (s.read delimiter filler piece).2.Lawful delimiter filler := by
  induction piece generalizing s with
  | nil => exact lawful
  | cons a rest ih => exact ih (lawful_push lawful)

/-- A piece that does not start with a filler behind a delimiter can be split
together with what has been kept. -/
theorem split_kept (lawful : s.Lawful delimiter filler)
    (starts : s.behind = true → piece.head? ≠ some filler) :
    split delimiter filler (s.kept ++ piece) =
      ((s.read delimiter filler piece).1, (s.read delimiter filler piece).2.kept) := by
  have again : ({} : Reader α).read delimiter filler s.kept = ([], { kept := s.kept }) := by
    rw [read_plain lawful.plain (by simp)]
    split
    · rename_i empty
      simp [empty]
    · simp
  rw [split, read_append, again]
  cases behind : s.behind with
  | false =>
    have same : s = { kept := s.kept } := by rw [← behind]
    rw [← same]
    rfl
  | true =>
    have empty := lawful.behind.mp behind
    cases piece with
    | nil => simp [Reader.read, empty]
    | cons a rest =>
      have other : a ≠ filler := fun same => starts behind (by simp [same])
      have pushed : Reader.push delimiter filler { kept := s.kept } a = s.push delimiter filler a := by
        simp [Reader.push, other, behind, empty]
      simp only [Reader.read, pushed, List.nil_append]

end Tomas.Delimited
