import Mathlib.Logic.Function.Basic
import Tomas.Protocol
import Tomas.Runs

/-! The double-checked `getInstance` of `Client`, whose field is volatile, and of
`AttachVirtualMachine`, whose field is not. A read outside the lock of a field
that is not volatile may still give null after the field was set, unless the
thread has held the lock since. -/
namespace Tomas.Singletons
open Tomas.Protocol Tomas.Runs

/-- What a thread does next. -/
inductive Phase where
  | outside
  | testing
  | locking
  | testingAgain
  | creating
  | assigning (made : Nat)
  | unlocking (thrown : Option Throwable)
  | returning
  deriving DecidableEq, Repr

/-- The threads that are between `synchronized` and the end of its block. -/
def Phase.Holds : Phase → Prop
  | .testingAgain | .creating | .assigning _ | .unlocking _ => True
  | .outside | .testing | .locking | .returning => False

/-- The field, the lock, the number of constructors that have returned, who is
bound to see that the field is set, and what the calls gave back. -/
structure State where
  field : Option Nat := none
  owner : Option Nat := none
  created : Nat := 0
  phase : Nat → Phase := fun _ => .outside
  seen : Nat → Bool := fun _ => false
  returned : List (Nat × Except Throwable (Option Nat)) := []

inductive Action where
  | call (thread : Nat)
  | step (thread : Nat) (stale : Bool) (thrown : Option Throwable)

/-- A read outside the lock. -/
def State.read (s : State) (isVolatile : Bool) (thread : Nat) (stale : Bool) : Option (Option Nat) :=
  if stale then
    if isVolatile || s.seen thread then none else some none
  else some s.field

def State.goOn (s : State) (thread : Nat) (phase : Phase) : State :=
  { s with phase := Function.update s.phase thread phase }

/-- One step of one call; the instances are numbered as they are created. -/
def step (isVolatile : Bool) (s : State) : Action → Option State
  | .call thread =>
    match s.phase thread with
    | .outside => some (s.goOn thread .testing)
    | _ => none
  | .step thread stale thrown =>
    match s.phase thread with
    | .outside => none
    | .testing => do
      match ← s.read isVolatile thread stale with
      | some _ => return s.goOn thread .returning
      | none => return s.goOn thread .locking
    | .locking =>
      if s.owner.isSome then none
      else some { s.goOn thread .testingAgain with
        owner := some thread
        seen := Function.update s.seen thread s.field.isSome }
    | .testingAgain =>
      match s.field with
      | some _ => some (s.goOn thread (.unlocking none))
      | none => some (s.goOn thread .creating)
    | .creating =>
      match thrown with
      | some cause => some (s.goOn thread (.unlocking (some cause)))
      | none => some { s.goOn thread (.assigning s.created) with created := s.created + 1 }
    | .assigning made =>
      some { s.goOn thread (.unlocking none) with
        field := some made
        seen := Function.update s.seen thread true }
    | .unlocking (some cause) =>
      some { s.goOn thread .outside with
        owner := none, returned := s.returned ++ [(thread, .error cause)] }
    | .unlocking none => some { s.goOn thread .returning with owner := none }
    | .returning => do
      let value ← s.read isVolatile thread stale
      return { s.goOn thread .outside with returned := s.returned ++ [(thread, .ok value)] }

/-- `Client.getInstance`, whose field is volatile. -/
def Client.getInstance : State → Action → Option State := step true

/-- `AttachVirtualMachine.getInstance`, whose field is not. -/
def AttachVirtualMachine.getInstance : State → Action → Option State := step false

/-! ## The invariant -/

variable {isVolatile : Bool} {s next : State} {thread other : Nat} {phase : Phase}

/-- What has been created so far, seen from the phase of a thread. -/
def Phase.Fits (field : Option Nat) (created : Nat) : Phase → Prop
  | .creating => field = none ∧ created = 0
  | .assigning made => field = none ∧ created = 1 ∧ made = 0
  | .unlocking none | .returning => field = some 0
  | .outside | .testing | .locking | .testingAgain | .unlocking (some _) => True

structure Lawful (isVolatile : Bool) (s : State) : Prop where
  owner : ∀ thread, s.owner = some thread ↔ (s.phase thread).Holds
  fits : ∀ thread, (s.phase thread).Fits s.field s.created
  one : s.field = none ∧ s.created = 0 ∨ s.field = some 0 ∧ s.created = 1 ∨
    s.field = none ∧ s.created = 1 ∧ ∃ thread, s.phase thread = .assigning 0
  seen : ∀ thread, s.seen thread = true → s.field = some 0
  returned : ∀ thread value, (thread, .ok value) ∈ s.returned →
    s.field = some 0 ∧ (value = some 0 ∨ isVolatile = false ∧ value = none)

theorem lawful_initial : Lawful isVolatile {} where
  owner thread := by simp [Phase.Holds]
  fits thread := trivial
  one := Or.inl ⟨rfl, rfl⟩
  seen thread seen := by cases seen
  returned thread value member := by cases member

/-! ## One step -/

private theorem read_cases {stale : Bool} {value : Option Nat}
    (read : s.read isVolatile thread stale = some value) :
    value = s.field ∨ isVolatile = false ∧ value = none := by
  unfold State.read at read
  cases stale with
  | false => exact Or.inl (Option.some.inj read).symm
  | true =>
    by_cases bound : isVolatile || s.seen thread
    · simp [bound] at read
    · have free : isVolatile = false := by simp_all
      rw [if_pos rfl, if_neg bound] at read
      exact Or.inr ⟨free, (Option.some.inj read).symm⟩

private theorem field_some (lawful : Lawful isVolatile s) {made : Nat} (set : s.field = some made) :
    s.field = some 0 := by
  rcases lawful.one with ⟨none, -⟩ | ⟨zero, -⟩ | ⟨none, -⟩
  · cases none.symm.trans set
  · exact zero
  · cases none.symm.trans set

private theorem owner_keep (lawful : Lawful isVolatile s) (same : phase.Holds ↔ (s.phase thread).Holds) :
    ∀ other, s.owner = some other ↔ (Function.update s.phase thread phase other).Holds := by
  intro other
  by_cases self : other = thread
  · rw [self, Function.update_self, same]
    exact lawful.owner thread
  · rw [Function.update_of_ne self]
    exact lawful.owner other

private theorem owner_take (lawful : Lawful isVolatile s) (free : s.owner = none) (holds : phase.Holds) :
    ∀ other, some thread = some other ↔ (Function.update s.phase thread phase other).Holds := by
  intro other
  by_cases self : other = thread
  · rw [self, Function.update_self]
    exact iff_of_true rfl holds
  · rw [Function.update_of_ne self, ← lawful.owner other, free]
    simp [Ne.symm self]

private theorem owner_give (lawful : Lawful isVolatile s) (holds : (s.phase thread).Holds)
    (leaves : ¬ phase.Holds) :
    ∀ other, none = some other ↔ (Function.update s.phase thread phase other).Holds := by
  intro other
  by_cases self : other = thread
  · rw [self, Function.update_self]
    exact iff_of_false (by simp) leaves
  · rw [Function.update_of_ne self, ← lawful.owner other, (lawful.owner thread).mpr holds]
    simp [Ne.symm self]

/-- A step that neither creates nor assigns. -/
private theorem lawful_move (lawful : Lawful isVolatile s)
    (moved : next.phase = Function.update s.phase thread phase) (field : next.field = s.field)
    (created : next.created = s.created) (plain : ∀ made, s.phase thread ≠ .assigning made)
    (fits : phase.Fits s.field s.created)
    (owner : ∀ other, next.owner = some other ↔ (Function.update s.phase thread phase other).Holds)
    (seen : ∀ other, next.seen other = true → s.field = some 0)
    (returned : ∀ other value, (other, .ok value) ∈ next.returned →
      s.field = some 0 ∧ (value = some 0 ∨ isVolatile = false ∧ value = none)) :
    Lawful isVolatile next := by
  refine ⟨by rwa [moved], ?_, ?_, by rwa [field], by rwa [field]⟩
  · intro other
    rw [moved, field, created]
    by_cases self : other = thread
    · rw [self, Function.update_self]
      exact fits
    · rw [Function.update_of_ne self]
      exact lawful.fits other
  · rw [field, created]
    rcases lawful.one with empty | set | ⟨unset, one, holder, assigning⟩
    · exact Or.inl empty
    · exact Or.inr (Or.inl set)
    · refine Or.inr (Or.inr ⟨unset, one, holder, ?_⟩)
      have different : holder ≠ thread := fun same => plain 0 (same ▸ assigning)
      rw [moved, Function.update_of_ne different, assigning]

/-- While one thread holds the lock and the field is not set, the phases of the
others fit whatever is created. -/
private theorem fits_others (lawful : Lawful isVolatile s) (holds : (s.phase thread).Holds)
    (unset : s.field = none) (different : other ≠ thread) (field : Option Nat) (created : Nat) :
    (s.phase other).Fits field created := by
  have outside : ¬ (s.phase other).Holds := by
    intro also
    have same := ((lawful.owner other).mpr also).symm.trans ((lawful.owner thread).mpr holds)
    exact different (Option.some.inj same)
  have before := lawful.fits other
  cases phase : s.phase other with
  | returning =>
    rw [phase, Phase.Fits, unset] at before
    cases before
  | outside | testing | locking => trivial
  | testingAgain | creating | assigning made | unlocking thrown =>
    rw [phase] at outside
    exact absurd trivial outside

private theorem lawful_create (lawful : Lawful isVolatile s) (creating : s.phase thread = .creating) :
    Lawful isVolatile { s.goOn thread (.assigning s.created) with created := s.created + 1 } := by
  have fits := lawful.fits thread
  rw [creating] at fits
  obtain ⟨unset, none⟩ := fits
  have holds : (s.phase thread).Holds := creating ▸ trivial
  refine ⟨owner_keep lawful (iff_of_true trivial holds), ?_, ?_, lawful.seen, lawful.returned⟩
  · intro other
    by_cases self : other = thread
    · subst self
      simp only [State.goOn, Function.update_self]
      exact ⟨unset, by rw [none], none⟩
    · simp only [State.goOn, Function.update_of_ne self]
      exact fits_others lawful holds unset self _ _
  · refine Or.inr (Or.inr ⟨unset, by simp [none], thread, ?_⟩)
    simp only [State.goOn, Function.update_self, none]

private theorem lawful_assign (lawful : Lawful isVolatile s) {made : Nat}
    (assigning : s.phase thread = .assigning made) :
    Lawful isVolatile { s.goOn thread (.unlocking none) with
      field := some made, seen := Function.update s.seen thread true } := by
  have fits := lawful.fits thread
  rw [assigning] at fits
  obtain ⟨unset, one, rfl⟩ := fits
  have holds : (s.phase thread).Holds := assigning ▸ trivial
  refine ⟨owner_keep lawful (iff_of_true trivial holds), ?_, Or.inr (Or.inl ⟨rfl, one⟩), fun _ _ => rfl, ?_⟩
  · intro other
    by_cases self : other = thread
    · subst self
      simp only [State.goOn, Function.update_self]
      exact rfl
    · simp only [State.goOn, Function.update_of_ne self]
      exact fits_others lawful holds unset self _ _
  · intro other value member
    cases unset.symm.trans (lawful.returned other value member).1

private theorem lawful_call (lawful : Lawful isVolatile s)
    (stepped : step isVolatile s (.call thread) = some next) : Lawful isVolatile next := by
  have outside : s.phase thread = .outside := by
    cases phase : s.phase thread with
    | outside => rfl
    | testing | locking | testingAgain | creating | assigning made | unlocking thrown | returning =>
      simp [step, phase] at stepped
  simp only [step, outside] at stepped
  cases stepped
  exact lawful_move lawful rfl rfl rfl (by simp [outside]) trivial
    (owner_keep lawful (by simp [outside, Phase.Holds])) lawful.seen lawful.returned

private theorem returned_snoc (lawful : Lawful isVolatile s) {result : Except Throwable (Option Nat)}
    (ok : ∀ value, result = .ok value →
      s.field = some 0 ∧ (value = some 0 ∨ isVolatile = false ∧ value = none)) :
    ∀ other value, (other, .ok value) ∈ s.returned ++ [(thread, result)] →
      s.field = some 0 ∧ (value = some 0 ∨ isVolatile = false ∧ value = none) := by
  intro other value member
  rcases List.mem_append.mp member with before | last
  · exact lawful.returned other value before
  · exact ok value (Prod.ext_iff.mp (List.mem_singleton.mp last)).2.symm

private theorem lawful_step (lawful : Lawful isVolatile s) {stale : Bool} {thrown : Option Throwable}
    (stepped : step isVolatile s (.step thread stale thrown) = some next) : Lawful isVolatile next := by
  have fits := lawful.fits thread
  cases phase : s.phase thread with
  | outside => simp [step, phase] at stepped
  | testing =>
    simp only [step, phase] at stepped
    obtain ⟨value, read, stepped⟩ := Option.bind_eq_some_iff.mp stepped
    have free : ¬ (s.phase thread).Holds := phase ▸ id
    cases value with
    | none =>
      cases stepped
      exact lawful_move lawful rfl rfl rfl (by simp [phase]) trivial
        (owner_keep lawful (iff_of_false id free)) lawful.seen lawful.returned
    | some made =>
      cases stepped
      have set : s.field = some 0 := by
        rcases read_cases read with same | ⟨-, none⟩
        · exact field_some lawful same.symm
        · cases none
      exact lawful_move lawful rfl rfl rfl (by simp [phase]) set
        (owner_keep lawful (iff_of_false id free)) lawful.seen lawful.returned
  | locking =>
    simp only [step, phase] at stepped
    split at stepped
    · cases stepped
    · rename_i free
      cases stepped
      have free : s.owner = none := by simpa using free
      refine lawful_move lawful rfl rfl rfl (by simp [phase]) trivial
        (owner_take lawful free trivial) ?_ lawful.returned
      intro other seen
      by_cases self : other = thread
      · subst self
        simp only [Function.update_self] at seen
        obtain ⟨made, set⟩ := Option.isSome_iff_exists.mp seen
        exact field_some lawful set
      · exact lawful.seen other (by simpa [Function.update_of_ne self] using seen)
  | testingAgain =>
    have holds : (s.phase thread).Holds := phase ▸ trivial
    simp only [step, phase] at stepped
    split at stepped
    · rename_i made set
      cases stepped
      exact lawful_move lawful rfl rfl rfl (by simp [phase]) (field_some lawful set)
        (owner_keep lawful (iff_of_true trivial holds)) lawful.seen lawful.returned
    · rename_i unset
      cases stepped
      have none : s.created = 0 := by
        rcases lawful.one with ⟨-, none⟩ | ⟨set, -⟩ | ⟨-, -, holder, assigning⟩
        · exact none
        · cases unset.symm.trans set
        · have also := (lawful.owner holder).mpr (assigning ▸ trivial)
          have same := also.symm.trans ((lawful.owner thread).mpr holds)
          rw [Option.some.inj same, phase] at assigning
          cases assigning
      exact lawful_move lawful rfl rfl rfl (by simp [phase]) ⟨unset, none⟩
        (owner_keep lawful (iff_of_true trivial holds)) lawful.seen lawful.returned
  | creating =>
    have holds : (s.phase thread).Holds := phase ▸ trivial
    simp only [step, phase] at stepped
    cases thrown with
    | none =>
      cases stepped
      exact lawful_create lawful phase
    | some cause =>
      cases stepped
      exact lawful_move lawful rfl rfl rfl (by simp [phase]) trivial
        (owner_keep lawful (iff_of_true trivial holds)) lawful.seen lawful.returned
  | assigning made =>
    simp only [step, phase] at stepped
    cases stepped
    exact lawful_assign lawful phase
  | unlocking thrown =>
    have holds : (s.phase thread).Holds := phase ▸ trivial
    cases thrown with
    | none =>
      simp only [step, phase] at stepped
      cases stepped
      rw [phase] at fits
      exact lawful_move lawful rfl rfl rfl (by simp [phase]) fits
        (owner_give lawful holds id) lawful.seen lawful.returned
    | some cause =>
      simp only [step, phase] at stepped
      cases stepped
      exact lawful_move lawful rfl rfl rfl (by simp [phase]) trivial
        (owner_give lawful holds id) lawful.seen (returned_snoc lawful (by simp))
  | returning =>
    simp only [step, phase] at stepped
    obtain ⟨value, read, stepped⟩ := Option.bind_eq_some_iff.mp stepped
    cases stepped
    rw [phase] at fits
    have free : ¬ (s.phase thread).Holds := phase ▸ id
    refine lawful_move lawful rfl rfl rfl (by simp [phase]) trivial
      (owner_keep lawful (iff_of_false id free)) lawful.seen (returned_snoc lawful ?_)
    rintro value ⟨⟩
    refine ⟨fits, ?_⟩
    rcases read_cases read with same | stale
    · exact Or.inl (same.trans fits)
    · exact Or.inr stale

/-! ## Runs -/

theorem lawful_run {actions : List Action} (ran : exec (step isVolatile) {} actions = some s) :
    Lawful isVolatile s := by
  refine exec_invariant (Lawful isVolatile) lawful_initial ?_ ran
  intro s action next lawful stepped
  cases action with
  | call thread => exact lawful_call lawful stepped
  | step thread stale thrown => exact lawful_step lawful stepped

/-- However the threads interleave and however often the constructor throws, at
most one instance is created, and every call that returns gives that one; where
the field is not volatile, a call may give null instead. -/
theorem one_instance {actions : List Action} (ran : exec (step isVolatile) {} actions = some s) :
    s.created ≤ 1 ∧ ∀ thread value, (thread, .ok value) ∈ s.returned →
      s.field = some 0 ∧ s.created = 1 ∧ (value = some 0 ∨ isVolatile = false ∧ value = none) := by
  have lawful := lawful_run ran
  constructor
  · rcases lawful.one with ⟨-, none⟩ | ⟨-, one⟩ | ⟨-, one, -⟩ <;> omega
  · intro thread value member
    obtain ⟨set, given⟩ := lawful.returned thread value member
    refine ⟨set, ?_, given⟩
    rcases lawful.one with ⟨unset, -⟩ | ⟨-, one⟩ | ⟨unset, -⟩
    · cases unset.symm.trans set
    · exact one
    · cases unset.symm.trans set

/-- Two threads find the field null, the first constructor throws, and both call
again. -/
private def contended : List Action :=
  [.call 1, .call 2, .step 1 false none, .step 2 false none, .step 1 false none, .step 1 false none,
    .step 1 false (some .ioException), .step 1 false none, .call 1, .step 2 false none,
    .step 2 false none, .step 2 false none, .step 2 false none, .step 1 false none, .step 2 false none,
    .step 1 false none, .step 2 false none]

theorem contended_one_instance : ∃ s, exec Client.getInstance {} contended = some s ∧
    s.returned = [(1, .error .ioException), (1, .ok (some 0)), (2, .ok (some 0))] ∧
    s.created ≤ 1 ∧ ∀ thread value, (thread, .ok value) ∈ s.returned →
      s.field = some 0 ∧ s.created = 1 ∧ (value = some 0 ∨ true = false ∧ value = none) := by
  have ran : exec Client.getInstance {} contended = some _ := rfl
  exact ⟨_, ran, rfl, @one_instance true _ contended ran⟩

/-- No call for the client gives null. -/
theorem client_never_null {actions : List Action} (ran : exec Client.getInstance {} actions = some s) :
    ∀ thread, (thread, .ok none) ∉ s.returned := by
  intro thread member
  rcases (lawful_run ran).returned thread none member with ⟨-, given | ⟨plain, -⟩⟩
  · cases given
  · cases plain

/-- A thread that finds the other field set may still return null: of its two
reads, only the first need see what the thread that created the instance wrote. -/
theorem attachVirtualMachine_may_give_null : ∃ actions s,
    exec AttachVirtualMachine.getInstance {} actions = some s ∧ (2, .ok none) ∈ s.returned := by
  refine ⟨[.call 1, .step 1 false none, .step 1 false none, .step 1 false none, .step 1 false none,
    .step 1 false none, .call 2, .step 2 false none, .step 2 true none], _, rfl, ?_⟩
  exact List.mem_singleton_self _

end Tomas.Singletons
