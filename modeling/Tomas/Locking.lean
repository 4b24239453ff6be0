import Mathlib.Logic.Function.Basic
import Tomas.Runs

/-! Methods whose bodies run under one read-write lock, called by any number of
threads. A body takes one atomic step on the shared state after the other, and
between two of them the other threads take theirs. The lock is one that several
readers or one writer hold; who of those that wait gets it next is left open. -/
namespace Tomas.Locking
open Tomas.Runs

/-- What a body still has to do: each step changes the shared state, and how it
goes on depends on the state it found. -/
inductive Program (σ α : Type) where
  | done (result : α)
  | step (change : σ → σ) (rest : σ → Program σ α)

variable {σ α β κ ρ τ : Type} [DecidableEq τ]

/-- The whole body, with no other thread between its steps. -/
def Program.run : Program σ α → σ → α × σ
  | .done result, s => (result, s)
  | .step change rest, s => (rest s).run (change s)

def Program.bind : Program σ α → (α → Program σ β) → Program σ β
  | .done result, next => next result
  | .step change rest, next => .step change fun s => (rest s).bind next

instance : Monad (Program σ) where
  pure := .done
  bind := .bind

/-- A body that leaves the shared state as it is. -/
def Program.Quiet : Program σ α → Prop
  | .done _ => True
  | .step change rest => (∀ s, change s = s) ∧ ∀ s, (rest s).Quiet

omit [DecidableEq τ] in
theorem run_bind (program : Program σ α) (next : α → Program σ β) (s : σ) :
    (program >>= next).run s = (next (program.run s).1).run (program.run s).2 := by
  change (program.bind next).run s = _
  induction program generalizing s with
  | done result => rfl
  | step change rest ih => exact ih s (change s)

/-! ## The lock and the threads -/

/-- A read-write lock. -/
structure Lock (τ : Type) where
  writer : Option τ := none
  readers : List τ := []

def Lock.lock (lock : Lock τ) (exclusive : Bool) (thread : τ) : Option (Lock τ) :=
  if lock.writer.isSome then none
  else if exclusive then
    if lock.readers = [] then some { lock with writer := some thread } else none
  else some { lock with readers := thread :: lock.readers }

/-- A thread cannot unlock what it does not hold. -/
def Lock.unlock (lock : Lock τ) (exclusive : Bool) (thread : τ) : Option (Lock τ) :=
  if exclusive then
    if lock.writer = some thread then some { lock with writer := none } else none
  else if thread ∈ lock.readers then some { lock with readers := lock.readers.erase thread } else none

/-- The methods: which of them take the lock as writers, and their bodies. -/
structure Methods (σ κ ρ : Type) where
  exclusive : κ → Bool
  body : κ → Program σ ρ

/-- Where a thread is. -/
inductive Phase (σ κ ρ : Type) where
  | idle
  | waiting (call : κ)
  | inside (call : κ) (rest : Program σ ρ)

/-- A call that has returned. -/
structure Returned (τ κ ρ : Type) where
  thread : τ
  call : κ
  result : ρ

structure State (σ τ κ ρ : Type) where
  shared : σ
  lock : Lock τ := {}
  phase : τ → Phase σ κ ρ := fun _ => .idle
  returned : List (Returned τ κ ρ) := []

inductive Action (τ κ : Type) where
  | call (thread : τ) (call : κ)
  | enter (thread : τ)
  | act (thread : τ)
  | leave (thread : τ)

/-- One step of one thread, if it can take it. -/
def step (methods : Methods σ κ ρ) (s : State σ τ κ ρ) : Action τ κ → Option (State σ τ κ ρ)
  | .call thread call =>
    match s.phase thread with
    | .idle => some { s with phase := Function.update s.phase thread (.waiting call) }
    | _ => none
  | .enter thread =>
    match s.phase thread with
    | .waiting call => do
      let lock ← s.lock.lock (methods.exclusive call) thread
      return { s with
        lock, phase := Function.update s.phase thread (.inside call (methods.body call)) }
    | _ => none
  | .act thread =>
    match s.phase thread with
    | .inside call (.step change rest) =>
      some { s with
        shared := change s.shared
        phase := Function.update s.phase thread (.inside call (rest s.shared)) }
    | _ => none
  | .leave thread =>
    match s.phase thread with
    | .inside call (.done result) => do
      let lock ← s.lock.unlock (methods.exclusive call) thread
      return { s with
        lock, phase := Function.update s.phase thread .idle
        returned := s.returned ++ [⟨thread, call, result⟩] }
    | _ => none

/-! ## One call after the other -/

/-- The shared state after the calls that have returned, each as a whole. -/
def stateAfter (methods : Methods σ κ ρ) (initial : σ) (returned : List (Returned τ κ ρ)) : σ :=
  returned.foldl (fun s entry => ((methods.body entry.call).run s).2) initial

/-- Each call gave back what it gives back as a whole after those before it. -/
def Explained (methods : Methods σ κ ρ) (initial : σ) (returned : List (Returned τ κ ρ)) : Prop :=
  ∀ before entry, before ++ [entry] <+: returned →
    ((methods.body entry.call).run (stateAfter methods initial before)).1 = entry.result

variable {methods : Methods σ κ ρ} {initial : σ} {s next : State σ τ κ ρ} {thread other : τ}
  {call : κ} {rest : Program σ ρ}

/-! ## What a step can do -/

theorem step_call (moved : step methods s (.call thread call) = some next) :
    s.phase thread = .idle ∧
      next = { s with phase := Function.update s.phase thread (.waiting call) } := by
  cases phase : s.phase thread with
  | idle =>
    simp only [step, phase] at moved
    exact ⟨rfl, (Option.some.inj moved).symm⟩
  | waiting asked => simp [step, phase] at moved
  | inside asked rest => simp [step, phase] at moved

theorem step_enter (moved : step methods s (.enter thread) = some next) :
    ∃ call lock, s.phase thread = .waiting call ∧
      s.lock.lock (methods.exclusive call) thread = some lock ∧
      next = { s with
        lock, phase := Function.update s.phase thread (.inside call (methods.body call)) } := by
  cases phase : s.phase thread with
  | idle => simp [step, phase] at moved
  | waiting call =>
    simp only [step, phase] at moved
    obtain ⟨lock, locked, same⟩ := Option.bind_eq_some_iff.mp moved
    exact ⟨call, lock, rfl, locked, (Option.some.inj same).symm⟩
  | inside asked rest => simp [step, phase] at moved

theorem step_act (moved : step methods s (.act thread) = some next) :
    ∃ call change rest, s.phase thread = .inside call (.step change rest) ∧
      next = { s with
        shared := change s.shared
        phase := Function.update s.phase thread (.inside call (rest s.shared)) } := by
  cases phase : s.phase thread with
  | idle => simp [step, phase] at moved
  | waiting asked => simp [step, phase] at moved
  | inside call program =>
    cases program with
    | done result => simp [step, phase] at moved
    | step change rest =>
      simp only [step, phase] at moved
      exact ⟨call, change, rest, rfl, (Option.some.inj moved).symm⟩

theorem step_leave (moved : step methods s (.leave thread) = some next) :
    ∃ call result lock, s.phase thread = .inside call (.done result) ∧
      s.lock.unlock (methods.exclusive call) thread = some lock ∧
      next = { s with
        lock, phase := Function.update s.phase thread .idle
        returned := s.returned ++ [⟨thread, call, result⟩] } := by
  cases phase : s.phase thread with
  | idle => simp [step, phase] at moved
  | waiting asked => simp [step, phase] at moved
  | inside call program =>
    cases program with
    | step change rest => simp [step, phase] at moved
    | done result =>
      simp only [step, phase] at moved
      obtain ⟨lock, unlocked, same⟩ := Option.bind_eq_some_iff.mp moved
      exact ⟨call, result, lock, rfl, unlocked, (Option.some.inj same).symm⟩

omit [DecidableEq τ] in
private theorem lock_cases {lock locked : Lock τ} {exclusive : Bool}
    (took : lock.lock exclusive thread = some locked) : lock.writer = none ∧
      (exclusive = true ∧ lock.readers = [] ∧ locked = ⟨some thread, []⟩ ∨
        exclusive = false ∧ locked = ⟨none, thread :: lock.readers⟩) := by
  obtain ⟨writer, readers⟩ := lock
  cases writer with
  | some holder => simp [Lock.lock] at took
  | none =>
    refine ⟨rfl, ?_⟩
    cases exclusive with
    | false => exact Or.inr ⟨rfl, by simpa [Lock.lock] using took.symm⟩
    | true =>
      obtain ⟨empty, same⟩ : readers = [] ∧ _ = _ := by simpa [Lock.lock] using took
      exact Or.inl ⟨rfl, empty, by rw [← same, empty]⟩

private theorem unlock_cases {lock unlocked : Lock τ} {exclusive : Bool}
    (gave : lock.unlock exclusive thread = some unlocked) :
    exclusive = true ∧ lock.writer = some thread ∧ unlocked = { lock with writer := none } ∨
      exclusive = false ∧ thread ∈ lock.readers ∧
        unlocked = { lock with readers := lock.readers.erase thread } := by
  cases exclusive with
  | true =>
    obtain ⟨held, same⟩ : lock.writer = some thread ∧ _ = _ := by simpa [Lock.unlock] using gave
    exact Or.inl ⟨rfl, held, same.symm⟩
  | false =>
    obtain ⟨held, same⟩ : thread ∈ lock.readers ∧ _ = _ := by simpa [Lock.unlock] using gave
    exact Or.inr ⟨rfl, held, same.symm⟩

/-! ## The invariant -/

/-- Inside a method of the one kind or the other. -/
def Inside (methods : Methods σ κ ρ) (phase : τ → Phase σ κ ρ) (exclusive : Bool) (thread : τ) : Prop :=
  ∃ call rest, phase thread = .inside call rest ∧ methods.exclusive call = exclusive

/-- Who holds the lock, and how far the bodies are. -/
structure Lawful (methods : Methods σ κ ρ) (initial : σ) (s : State σ τ κ ρ) : Prop where
  explained : Explained methods initial s.returned
  writer : ∀ thread, s.lock.writer = some thread ↔ Inside methods s.phase true thread
  readers : ∀ thread, thread ∈ s.lock.readers ↔ Inside methods s.phase false thread
  once : s.lock.readers.Nodup
  excludes : s.lock.writer ≠ none → s.lock.readers = []
  free : s.lock.writer = none → s.shared = stateAfter methods initial s.returned
  /-- What is left of a body does what the whole body does. -/
  pending : ∀ thread call rest, s.phase thread = .inside call rest →
    rest.run s.shared = (methods.body call).run (stateAfter methods initial s.returned)
  quiet : ∀ thread call rest, s.phase thread = .inside call rest →
    methods.exclusive call = false → rest.Quiet

omit [DecidableEq τ] in
theorem lawful_initial : Lawful methods initial ({ shared := initial } : State σ τ κ ρ) where
  explained before entry early := by simp at early
  writer thread := by simp [Inside]
  readers thread := by simp [Inside]
  once := List.nodup_nil
  excludes _ := rfl
  free _ := rfl
  pending thread call rest inside := by cases inside
  quiet thread call rest inside := by cases inside

omit [DecidableEq τ] in
/-- While one thread writes, no other is inside. -/
private theorem alone (lawful : Lawful methods initial s) (writes : s.lock.writer = some thread)
    (inside : s.phase other = .inside call rest) : other = thread := by
  cases exclusive : methods.exclusive call with
  | true =>
    have also := (lawful.writer other).mpr ⟨call, rest, inside, exclusive⟩
    exact Option.some.inj (also.symm.trans writes)
  | false =>
    have reads := (lawful.readers other).mpr ⟨call, rest, inside, exclusive⟩
    rw [lawful.excludes (by simp [writes])] at reads
    cases reads

private theorem inside_update {phase : τ → Phase σ κ ρ} {now : Phase σ κ ρ} {exclusive : Bool}
    (different : other ≠ thread) :
    Inside methods (Function.update phase thread now) exclusive other ↔
      Inside methods phase exclusive other := by
  rw [Inside, Function.update_of_ne different, Inside]

private theorem inside_now {phase : τ → Phase σ κ ρ} {exclusive : Bool} :
    Inside methods (Function.update phase thread (.inside call rest)) exclusive thread ↔
      methods.exclusive call = exclusive := by
  constructor
  · rintro ⟨asked, left, inside, same⟩
    rw [Function.update_self] at inside
    cases inside
    exact same
  · exact fun same => ⟨call, rest, Function.update_self .., same⟩

omit [DecidableEq τ] in
private theorem not_inside {phase : τ → Phase σ κ ρ} {exclusive : Bool} {now : Phase σ κ ρ}
    (outside : phase thread = now) (elsewhere : ∀ call rest, now ≠ .inside call rest) :
    ¬ Inside methods phase exclusive thread := by
  rintro ⟨asked, left, inside, -⟩
  exact elsewhere asked left (outside.symm.trans inside)

private theorem update_cases {phase : τ → Phase σ κ ρ} {now : Phase σ κ ρ}
    (inside : Function.update phase thread now other = .inside call rest) :
    other = thread ∧ now = .inside call rest ∨ other ≠ thread ∧ phase other = .inside call rest := by
  by_cases same : other = thread
  · subst same
    rw [Function.update_self] at inside
    exact Or.inl ⟨rfl, inside⟩
  · rw [Function.update_of_ne same] at inside
    exact Or.inr ⟨same, inside⟩

private theorem lawful_call (lawful : Lawful methods initial s)
    (moved : step methods s (.call thread call) = some next) : Lawful methods initial next := by
  obtain ⟨idle, rfl⟩ := step_call moved
  have same (exclusive : Bool) (other : τ) :
      Inside methods (Function.update s.phase thread (.waiting call)) exclusive other ↔
        Inside methods s.phase exclusive other := by
    by_cases equal : other = thread
    · subst equal
      exact iff_of_false (not_inside (Function.update_self ..) (by simp)) (not_inside idle (by simp))
    · exact inside_update equal
  have before (other : τ) (asked : κ) (left : Program σ ρ)
      (inside : Function.update s.phase thread (.waiting call) other = .inside asked left) :
      s.phase other = .inside asked left := by
    rcases update_cases inside with ⟨-, waits⟩ | ⟨-, inside⟩
    · cases waits
    · exact inside
  exact {
    lawful with
    writer := fun other => (lawful.writer other).trans (same true other).symm
    readers := fun other => (lawful.readers other).trans (same false other).symm
    pending := fun other asked left inside => lawful.pending other asked left (before _ _ _ inside)
    quiet := fun other asked left inside => lawful.quiet other asked left (before _ _ _ inside) }

private theorem lawful_enter (reading : ∀ call, methods.exclusive call = false → (methods.body call).Quiet)
    (lawful : Lawful methods initial s) (moved : step methods s (.enter thread) = some next) :
    Lawful methods initial next := by
  obtain ⟨call, lock, waits, took, rfl⟩ := step_enter moved
  obtain ⟨unwritten, kind⟩ := lock_cases took
  have outside (exclusive : Bool) : ¬ Inside methods s.phase exclusive thread :=
    not_inside waits (by simp)
  have pending : ∀ other asked left,
      Function.update s.phase thread (.inside call (methods.body call)) other = .inside asked left →
      left.run s.shared = (methods.body asked).run (stateAfter methods initial s.returned) := by
    intro other asked left inside
    rcases update_cases inside with ⟨-, same⟩ | ⟨-, inside⟩
    · cases same
      rw [lawful.free unwritten]
    · exact lawful.pending other asked left inside
  have quiet : ∀ other asked left,
      Function.update s.phase thread (.inside call (methods.body call)) other = .inside asked left →
      methods.exclusive asked = false → left.Quiet := by
    intro other asked left inside reads
    rcases update_cases inside with ⟨-, same⟩ | ⟨-, inside⟩
    · cases same
      exact reading call reads
    · exact lawful.quiet other asked left inside reads
  rcases kind with ⟨exclusive, empty, rfl⟩ | ⟨shared, rfl⟩
  · refine ⟨lawful.explained, ?_, ?_, List.nodup_nil, fun _ => rfl, fun none => (by cases none),
      pending, quiet⟩
    · intro other
      by_cases same : other = thread
      · subst same
        exact iff_of_true rfl (inside_now.mpr exclusive)
      · rw [inside_update same, ← lawful.writer other, unwritten]
        simp [Ne.symm same]
    · intro other
      by_cases same : other = thread
      · subst same
        rw [inside_now, exclusive]
        simp
      · rw [inside_update same, ← lawful.readers other, empty]
  · refine ⟨lawful.explained, ?_, ?_, ?_, fun some => absurd rfl some, fun _ => lawful.free unwritten,
      pending, quiet⟩
    · intro other
      by_cases same : other = thread
      · subst same
        rw [inside_now, shared]
        simp
      · rw [inside_update same, ← lawful.writer other, unwritten]
    · intro other
      by_cases same : other = thread
      · subst same
        rw [inside_now, shared]
        simp
      · rw [inside_update same, ← lawful.readers other]
        simp [same]
    · refine List.nodup_cons.mpr ⟨?_, lawful.once⟩
      exact fun held => outside false ((lawful.readers thread).mp held)

private theorem lawful_act (lawful : Lawful methods initial s)
    (moved : step methods s (.act thread) = some next) : Lawful methods initial next := by
  obtain ⟨call, change, rest, inside, rfl⟩ := step_act moved
  have same (exclusive : Bool) (other : τ) :
      Inside methods (Function.update s.phase thread (.inside call (rest s.shared))) exclusive other ↔
        Inside methods s.phase exclusive other := by
    by_cases equal : other = thread
    · subst equal
      rw [inside_now]
      constructor
      · exact fun kind => ⟨call, _, inside, kind⟩
      · rintro ⟨asked, left, also, kind⟩
        cases inside.symm.trans also
        exact kind
    · exact inside_update equal
  -- A reader's step changes nothing; a writer is the only thread inside.
  have unchanged (reads : methods.exclusive call = false) : change s.shared = s.shared :=
    (lawful.quiet thread call _ inside reads).1 s.shared
  refine ⟨lawful.explained, fun other => (lawful.writer other).trans (same true other).symm,
    fun other => (lawful.readers other).trans (same false other).symm, lawful.once, lawful.excludes,
    ?_, ?_, ?_⟩
  · intro unwritten
    have reads : methods.exclusive call = false := by
      by_contra writes
      have held := (lawful.writer thread).mpr ⟨call, _, inside, by simpa using writes⟩
      cases unwritten.symm.trans held
    exact (unchanged reads).trans (lawful.free unwritten)
  · intro other asked left also
    rcases update_cases also with ⟨-, now⟩ | ⟨different, also⟩
    · cases now
      exact lawful.pending thread call _ inside
    · cases kind : methods.exclusive call with
      | false =>
        change left.run (change s.shared) = _
        rw [unchanged kind]
        exact lawful.pending other asked left also
      | true => exact absurd (alone lawful ((lawful.writer thread).mpr ⟨call, _, inside, kind⟩) also) different
  · intro other asked left also reads
    rcases update_cases also with ⟨-, now⟩ | ⟨-, also⟩
    · cases now
      exact (lawful.quiet thread call _ inside reads).2 s.shared
    · exact lawful.quiet other asked left also reads

omit [DecidableEq τ] in
private theorem stateAfter_snoc {returned : List (Returned τ κ ρ)} {entry : Returned τ κ ρ} :
    stateAfter methods initial (returned ++ [entry]) =
      ((methods.body entry.call).run (stateAfter methods initial returned)).2 := by
  simp [stateAfter]

omit [DecidableEq τ] in
private theorem explained_snoc {returned : List (Returned τ κ ρ)} {entry : Returned τ κ ρ}
    (explained : Explained methods initial returned)
    (last : ((methods.body entry.call).run (stateAfter methods initial returned)).1 = entry.result) :
    Explained methods initial (returned ++ [entry]) := by
  intro before found early
  rcases List.prefix_concat_iff.mp early with whole | early
  · obtain ⟨rfl, same⟩ := List.append_inj' whole rfl
    cases same
    exact last
  · exact explained before found early

private theorem lawful_leave (lawful : Lawful methods initial s)
    (moved : step methods s (.leave thread) = some next) : Lawful methods initial next := by
  obtain ⟨call, result, lock, inside, gave, rfl⟩ := step_leave moved
  have whole := lawful.pending thread call _ inside
  have after : stateAfter methods initial (s.returned ++ [⟨thread, call, result⟩]) = s.shared := by
    rw [stateAfter_snoc, ← whole]
    rfl
  have explained : Explained methods initial (s.returned ++ [⟨thread, call, result⟩]) :=
    explained_snoc lawful.explained (congrArg Prod.fst whole).symm
  have quiet : ∀ other asked left,
      Function.update s.phase thread .idle other = .inside asked left →
      methods.exclusive asked = false → left.Quiet := by
    intro other asked left also reads
    rcases update_cases also with ⟨-, now⟩ | ⟨-, also⟩
    · cases now
    · exact lawful.quiet other asked left also reads
  have gone (exclusive : Bool) :
      ¬ Inside methods (Function.update s.phase thread .idle) exclusive thread :=
    not_inside (Function.update_self ..) (by simp)
  rcases unlock_cases gave with ⟨exclusive, held, rfl⟩ | ⟨shared, held, rfl⟩
  · have only := lawful.excludes (by simp [held])
    refine ⟨explained, ?_, ?_, lawful.once, fun some => absurd rfl some, fun _ => after.symm, ?_, quiet⟩
    · intro other
      by_cases same : other = thread
      · subst same
        exact iff_of_false (by simp) (gone true)
      · rw [inside_update same, ← lawful.writer other, held]
        simp [Ne.symm same]
    · intro other
      by_cases same : other = thread
      · subst same
        exact iff_of_false (by simp [only]) (gone false)
      · rw [inside_update same]
        exact lawful.readers other
    · intro other asked left also
      rcases update_cases also with ⟨-, now⟩ | ⟨different, also⟩
      · cases now
      · exact absurd (alone lawful held also) different
  · have unwritten : s.lock.writer = none := by
      by_contra some
      rw [lawful.excludes some] at held
      cases held
    refine ⟨explained, ?_, ?_, lawful.once.erase thread, fun some => absurd unwritten some,
      fun _ => after.symm, ?_, quiet⟩
    · intro other
      by_cases same : other = thread
      · subst same
        exact iff_of_false (by simp [unwritten]) (gone true)
      · rw [inside_update same]
        exact lawful.writer other
    · intro other
      by_cases same : other = thread
      · subst same
        exact iff_of_false (by simp [lawful.once.mem_erase_iff]) (gone false)
      · rw [inside_update same, ← lawful.readers other]
        simp [lawful.once.mem_erase_iff, same]
    · intro other asked left also
      rcases update_cases also with ⟨-, now⟩ | ⟨-, also⟩
      · cases now
      · change left.run s.shared = _
        rw [after, lawful.pending other asked left also, ← lawful.free unwritten]

theorem lawful_exec (reading : ∀ call, methods.exclusive call = false → (methods.body call).Quiet)
    {actions : List (Action τ κ)}
    (ran : exec (step methods) { shared := initial } actions = some s) : Lawful methods initial s := by
  refine exec_invariant (Lawful methods initial) lawful_initial ?_ ran
  intro s action next lawful moved
  cases action with
  | call thread call => exact lawful_call lawful moved
  | enter thread => exact lawful_enter reading lawful moved
  | act thread => exact lawful_act lawful moved
  | leave thread => exact lawful_leave lawful moved

/-! ## Nobody is kept waiting -/

/-- The call a thread is in. -/
def Phase.call? : Phase σ κ ρ → Option κ
  | .idle => none
  | .waiting call | .inside call _ => some call

def Action.enters? : Action τ κ → Option τ
  | .enter thread => some thread
  | _ => none

def Action.Calls : Action τ κ → Prop
  | .call _ _ => True
  | _ => False

/-- Without a new call, some of the threads return from theirs, after those in
the queue have got the lock in its order. -/
def Drains (methods : Methods σ κ ρ) (s : State σ τ κ ρ) (queue gone : List τ)
    (final : State σ τ κ ρ) : Prop :=
  ∃ actions added, exec (step methods) s actions = some final ∧
    actions.filterMap Action.enters? = queue ∧ (∀ action ∈ actions, ¬ action.Calls) ∧
    (∀ thread, final.phase thread = if thread ∈ gone then .idle else s.phase thread) ∧
    final.returned = s.returned ++ added ∧
    ∀ thread ∈ gone, ∀ call, (s.phase thread).call? = some call →
      ∃ result, ⟨thread, call, result⟩ ∈ added

variable {first second queue gone : List τ} {middle final : State σ τ κ ρ}

private theorem drains_trans (before : Drains methods s first gone middle)
    (after : Drains methods middle second queue final) :
    Drains methods s (first ++ second) (gone ++ queue) final := by
  obtain ⟨early, added, ranEarly, order, quiet, phases, returned, answered⟩ := before
  obtain ⟨late, more, ranLate, orderLate, quietLate, phasesLate, returnedLate, answeredLate⟩ := after
  refine ⟨early ++ late, added ++ more, ?_, ?_, ?_, ?_, ?_, ?_⟩
  · rw [exec_append, ranEarly, Option.bind_some, ranLate]
  · rw [List.filterMap_append, order, orderLate]
  · intro action member
    exact (List.mem_append.mp member).elim (quiet action) (quietLate action)
  · intro thread
    rw [phasesLate, phases]
    by_cases later : thread ∈ queue
    · simp [later]
    · simp [later]
  · rw [returnedLate, returned, List.append_assoc]
  · intro thread member call asked
    by_cases sooner : thread ∈ gone
    · obtain ⟨result, inside⟩ := answered thread sooner call asked
      exact ⟨result, List.mem_append_left more inside⟩
    · have later := (List.mem_append.mp member).resolve_left sooner
      have still : ((middle.phase thread).call?) = some call := by
        rw [phases, if_neg sooner, asked]
      obtain ⟨result, inside⟩ := answeredLate thread later call still
      exact ⟨result, List.mem_append_right added inside⟩

/-- A step in front, of a thread that is among those that return. -/
private theorem drains_cons {action : Action τ κ} {now : Phase σ κ ρ}
    (moved : step methods s action = some middle) (inner : ¬ action.Calls)
    (phase : middle.phase = Function.update s.phase thread now)
    (stays : now.call? = (s.phase thread).call?) (returned : middle.returned = s.returned)
    (member : thread ∈ gone) (after : Drains methods middle queue gone final) :
    Drains methods s (action.enters?.toList ++ queue) gone final := by
  obtain ⟨actions, added, ran, order, quiet, phases, more, answered⟩ := after
  refine ⟨action :: actions, added, ?_, ?_, ?_, ?_, returned ▸ more, ?_⟩
  · rw [exec_cons, moved]
    exact ran
  · rw [List.filterMap_cons, order]
    cases action.enters? <;> rfl
  · intro other inside
    rcases List.mem_cons.mp inside with rfl | inside
    · exact inner
    · exact quiet other inside
  · intro other
    rw [phases, phase]
    by_cases same : other = thread
    · simp [same, member]
    · rw [Function.update_of_ne same]
  · intro other inside asked is
    apply answered other inside asked
    rw [phase]
    by_cases same : other = thread
    · rw [same, Function.update_self, stays, ← same, is]
    · rw [Function.update_of_ne same, is]

/-- A thread that is inside comes out by its own steps. -/
private theorem drains_inside (lawful : Lawful methods initial s)
    (inside : s.phase thread = .inside call rest) :
    ∃ next, Drains methods s [] [thread] next ∧ Lawful methods initial next := by
  induction rest generalizing s with
  | done result =>
    have unlocks : ∃ lock, s.lock.unlock (methods.exclusive call) thread = some lock := by
      cases kind : methods.exclusive call with
      | true =>
        have held := (lawful.writer thread).mpr ⟨call, _, inside, kind⟩
        exact ⟨_, by rw [Lock.unlock, if_pos rfl, if_pos held]⟩
      | false =>
        have held := (lawful.readers thread).mpr ⟨call, _, inside, kind⟩
        exact ⟨_, by rw [Lock.unlock, if_neg (by decide), if_pos held]⟩
    obtain ⟨lock, unlocked⟩ := unlocks
    have moved : step methods s (.leave thread) = some { s with
        lock, phase := Function.update s.phase thread .idle
        returned := s.returned ++ [⟨thread, call, result⟩] } := by
      simp only [step, inside, unlocked]
      rfl
    refine ⟨_, ⟨[.leave thread], [⟨thread, call, result⟩], ?_, rfl, ?_, ?_, rfl, ?_⟩,
      lawful_leave lawful moved⟩
    · rw [exec_cons, moved]
      rfl
    · intro action member
      rw [List.mem_singleton.mp member]
      exact id
    · intro other
      by_cases same : other = thread
      · simp [same]
      · simp [same]
    · intro other member asked is
      rw [List.mem_singleton.mp member, inside] at is
      cases is
      exact ⟨result, by simp [List.mem_singleton.mp member]⟩
  | step change rest ih =>
    have moved : step methods s (.act thread) = some { s with
        shared := change s.shared
        phase := Function.update s.phase thread (.inside call (rest s.shared)) } := by
      simp only [step, inside]
    obtain ⟨next, drained, after⟩ := ih s.shared (lawful_act lawful moved) (Function.update_self ..)
    refine ⟨next, drains_cons moved id rfl ?_ rfl (List.mem_singleton_self _) drained, after⟩
    rw [inside]
    rfl

private theorem drains_all (lawful : Lawful methods initial s) (once : gone.Nodup)
    (inside : ∀ thread ∈ gone, ∃ call rest, s.phase thread = .inside call rest) :
    ∃ next, Drains methods s [] gone next ∧ Lawful methods initial next := by
  induction gone generalizing s with
  | nil =>
    exact ⟨s, ⟨[], [], rfl, rfl, by simp, by simp, by simp, by simp⟩, lawful⟩
  | cons thread gone ih =>
    obtain ⟨call, rest, holds⟩ := inside thread List.mem_cons_self
    obtain ⟨middle, drained, lawful⟩ := drains_inside lawful holds
    have still : ∀ other ∈ gone, ∃ call rest, middle.phase other = .inside call rest := by
      intro other member
      obtain ⟨asked, left, also⟩ := inside other (List.mem_cons_of_mem _ member)
      have different : other ≠ thread := fun same =>
        (List.nodup_cons.mp once).1 (same ▸ member)
      obtain ⟨-, -, -, -, -, phases, -⟩ := drained
      exact ⟨asked, left, by simp [phases, different, also]⟩
    obtain ⟨final, rested, lawful⟩ := ih lawful (List.nodup_cons.mp once).2 still
    exact ⟨final, drains_trans drained rested, lawful⟩

/-- While nobody is inside, whoever waits gets the lock. -/
private theorem enters (lawful : Lawful methods initial s)
    (free : ∀ other call rest, s.phase other ≠ .inside call rest)
    (waits : s.phase thread = .waiting call) :
    ∃ next, step methods s (.enter thread) = some next ∧
      next.phase = Function.update s.phase thread (.inside call (methods.body call)) ∧
      next.returned = s.returned := by
  have unwritten : s.lock.writer = none := by
    cases held : s.lock.writer with
    | none => rfl
    | some holder =>
      obtain ⟨asked, left, inside, -⟩ := (lawful.writer holder).mp held
      exact absurd inside (free holder asked left)
  have unread : s.lock.readers = [] := by
    rw [List.eq_nil_iff_forall_not_mem]
    intro reader reads
    obtain ⟨asked, left, inside, -⟩ := (lawful.readers reader).mp reads
    exact free reader asked left inside
  have locks : ∃ lock, s.lock.lock (methods.exclusive call) thread = some lock := by
    cases kind : methods.exclusive call with
    | true => exact ⟨⟨some thread, []⟩, by simp [Lock.lock, unwritten, unread]⟩
    | false => exact ⟨⟨none, [thread]⟩, by simp [Lock.lock, unwritten, unread]⟩
  obtain ⟨lock, locked⟩ := locks
  refine ⟨{ s with lock, phase := Function.update s.phase thread (.inside call (methods.body call)) },
    ?_, rfl, rfl⟩
  simp only [step, waits, locked]
  rfl

private theorem drains_queue
    (reading : ∀ call, methods.exclusive call = false → (methods.body call).Quiet)
    (lawful : Lawful methods initial s)
    (free : ∀ other call rest, s.phase other ≠ .inside call rest) (once : queue.Nodup)
    (waiting : ∀ thread ∈ queue, ∃ call, s.phase thread = .waiting call) :
    ∃ next, Drains methods s queue queue next ∧ Lawful methods initial next := by
  induction queue generalizing s with
  | nil => exact ⟨s, ⟨[], [], rfl, rfl, by simp, by simp, by simp, by simp⟩, lawful⟩
  | cons thread queue ih =>
    obtain ⟨call, waits⟩ := waiting thread List.mem_cons_self
    obtain ⟨entered, moved, phase, returned⟩ := enters lawful free waits
    have inside : entered.phase thread = .inside call (methods.body call) := by
      rw [phase, Function.update_self]
    obtain ⟨middle, drained, lawful⟩ := drains_inside (lawful_enter reading lawful moved) inside
    have first : Drains methods s [thread] [thread] middle := by
      refine drains_cons moved id phase ?_ returned (List.mem_singleton_self _) drained
      rw [waits]
      rfl
    have phases : ∀ other, middle.phase other = if other ∈ [thread] then .idle else s.phase other := by
      obtain ⟨-, -, -, -, -, phases, -⟩ := first
      exact phases
    have outside : ∀ other call rest, middle.phase other ≠ .inside call rest := by
      intro other asked left
      rw [phases]
      split
      · simp
      · exact free other asked left
    have still : ∀ other ∈ queue, ∃ call, middle.phase other = .waiting call := by
      intro other member
      obtain ⟨asked, also⟩ := waiting other (List.mem_cons_of_mem _ member)
      have different : other ≠ thread := fun same => (List.nodup_cons.mp once).1 (same ▸ member)
      exact ⟨asked, by simp [phases, different, also]⟩
    obtain ⟨final, rested, lawful⟩ := ih lawful outside (List.nodup_cons.mp once).2 still
    exact ⟨final, drains_trans first rested, lawful⟩

omit [DecidableEq τ] in
private theorem unlocked (lawful : Lawful methods initial s) (idle : ∀ thread, s.phase thread = .idle) :
    s.lock.writer = none ∧ s.lock.readers = [] := by
  constructor
  · cases held : s.lock.writer with
    | none => rfl
    | some holder => exact absurd ((lawful.writer holder).mp held) (not_inside (idle holder) (by simp))
  · rw [List.eq_nil_iff_forall_not_mem]
    exact fun reader reads => not_inside (idle reader) (by simp) ((lawful.readers reader).mp reads)

omit [DecidableEq τ] in
/-- The threads that are inside. -/
private theorem holders (lawful : Lawful methods initial s) :
    ∃ holding : List τ, holding.Nodup ∧
      ∀ thread, thread ∈ holding ↔ ∃ call rest, s.phase thread = .inside call rest := by
  have either (thread : τ) : (∃ call rest, s.phase thread = .inside call rest) ↔
      s.lock.writer = some thread ∨ thread ∈ s.lock.readers := by
    rw [lawful.writer, lawful.readers]
    constructor
    · rintro ⟨call, rest, inside⟩
      cases kind : methods.exclusive call with
      | true => exact Or.inl ⟨call, rest, inside, kind⟩
      | false => exact Or.inr ⟨call, rest, inside, kind⟩
    · rintro (⟨call, rest, inside, -⟩ | ⟨call, rest, inside, -⟩)
      · exact ⟨call, rest, inside⟩
      · exact ⟨call, rest, inside⟩
  cases held : s.lock.writer with
  | none =>
    refine ⟨s.lock.readers, lawful.once, fun thread => ?_⟩
    rw [either, held]
    simp
  | some holder =>
    have only := lawful.excludes (by simp [held])
    refine ⟨[holder], by simp, fun thread => ?_⟩
    rw [either, held, only]
    simp [eq_comm]

/-- From wherever a run has come to, and in whatever order those that wait get
the lock, all threads return from their calls, and the lock is free again. -/
theorem all_return (reading : ∀ call, methods.exclusive call = false → (methods.body call).Quiet)
    (lawful : Lawful methods initial s) (once : queue.Nodup)
    (waiting : ∀ thread, thread ∈ queue ↔ ∃ call, s.phase thread = .waiting call) :
    ∃ actions added final, exec (step methods) s actions = some final ∧
      actions.filterMap Action.enters? = queue ∧ (∀ action ∈ actions, ¬ action.Calls) ∧
      final.returned = s.returned ++ added ∧
      (∀ thread call, (s.phase thread).call? = some call → ∃ result, ⟨thread, call, result⟩ ∈ added) ∧
      (∀ thread, final.phase thread = .idle) ∧ final.lock.writer = none ∧ final.lock.readers = [] := by
  obtain ⟨holding, nodup, inside⟩ := holders lawful
  obtain ⟨middle, drained, lawfulMiddle⟩ :=
    drains_all lawful nodup fun thread member => (inside thread).mp member
  have phases : ∀ thread, middle.phase thread = if thread ∈ holding then .idle else s.phase thread := by
    obtain ⟨-, -, -, -, -, phases, -⟩ := drained
    exact phases
  have outside : ∀ thread call rest, middle.phase thread ≠ .inside call rest := by
    intro thread call rest still
    rw [phases] at still
    split at still
    · cases still
    · rename_i absent
      exact absent ((inside thread).mpr ⟨call, rest, still⟩)
  have waits : ∀ thread ∈ queue, ∃ call, middle.phase thread = .waiting call := by
    intro thread member
    obtain ⟨call, waits⟩ := (waiting thread).mp member
    have absent : thread ∉ holding := by
      intro holds
      obtain ⟨asked, rest, also⟩ := (inside thread).mp holds
      cases waits.symm.trans also
    exact ⟨call, by rw [phases, if_neg absent, waits]⟩
  obtain ⟨final, rested, lawfulFinal⟩ := drains_queue reading lawfulMiddle outside once waits
  have idle : ∀ thread, final.phase thread = .idle := by
    intro thread
    obtain ⟨-, -, -, -, -, after, -⟩ := rested
    rw [after]
    split
    · rfl
    · rename_i absent
      rw [phases]
      split
      · rfl
      · rename_i notInside
        cases phase : s.phase thread with
        | idle => rfl
        | waiting call => exact absurd ((waiting thread).mpr ⟨call, phase⟩) absent
        | inside call rest => exact absurd ((inside thread).mpr ⟨call, rest, phase⟩) notInside
  obtain ⟨actions, added, ran, order, quiet, -, returned, answered⟩ := drains_trans drained rested
  refine ⟨actions, added, final, ran, order, quiet, returned, ?_, idle, unlocked lawfulFinal idle⟩
  intro thread call asked
  refine answered thread ?_ call asked
  rw [List.mem_append]
  cases phase : s.phase thread with
  | idle => simp [phase, Phase.call?] at asked
  | waiting call => exact Or.inr ((waiting thread).mpr ⟨call, phase⟩)
  | inside call rest => exact Or.inl ((inside thread).mpr ⟨call, rest, phase⟩)

end Tomas.Locking
