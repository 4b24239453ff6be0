import Mathlib.Data.List.Induction

/-! Finite runs of a system whose actions may be refused, what holds along them,
and the rules by which a fact about one step becomes a fact about a run. -/
namespace Tomas.Runs

variable {σ α : Type} {step : σ → α → Option σ} {s next final : σ} {action : α}
  {actions first second : List α}

/-- The state after a list of actions, if each was enabled in its turn. -/
def exec (step : σ → α → Option σ) (s : σ) (actions : List α) : Option σ :=
  actions.foldlM step s

@[simp] theorem exec_nil : exec step s [] = some s := rfl

theorem exec_cons : exec step s (action :: actions) =
    (step s action).bind fun next => exec step next actions := rfl

theorem exec_single (stepped : step s action = some next) : exec step s [action] = some next := by
  rw [exec_cons, stepped]
  rfl

theorem exec_append : exec step s (first ++ second) =
    (exec step s first).bind fun next => exec step next second := by
  simp [exec, List.foldlM_append]

theorem exec_snoc : exec step s (actions ++ [action]) =
    (exec step s actions).bind fun next => step next action := by
  rw [exec_append]
  congr 1
  funext next
  simp [exec]

/-- In a history, something of the first kind has happened, and nothing of the
second kind after it. -/
def Since (happens ends : α → Prop) (history : List α) : Prop :=
  ∃ earlier event later, history = earlier ++ event :: later ∧ happens event ∧
    ∀ other ∈ later, ¬ ends other

theorem not_since_nil {happens ends : α → Prop} : ¬ Since happens ends [] := by
  rintro ⟨earlier, event, later, whole, -⟩
  exact List.append_ne_nil_of_right_ne_nil earlier (List.cons_ne_nil _ _) whole.symm

/-- The last event decides, or the history before it does. -/
theorem since_snoc {happens ends : α → Prop} : Since happens ends (actions ++ [action]) ↔
    happens action ∨ ¬ ends action ∧ Since happens ends actions := by
  constructor
  · rintro ⟨earlier, event, later, whole, happened, kept⟩
    rcases List.eq_nil_or_concat later with rfl | ⟨front, last, rfl⟩
    · obtain ⟨-, same⟩ := List.append_inj' whole rfl
      rw [List.singleton_inj.mp same]
      exact Or.inl happened
    · rw [List.concat_eq_append, ← List.cons_append, ← List.append_assoc] at whole
      obtain ⟨before, same⟩ := List.append_inj' whole rfl
      rw [List.singleton_inj.mp same]
      refine Or.inr ⟨kept last (by simp), earlier, event, front, before, happened, ?_⟩
      intro other member
      exact kept other (by simp [member])
  · rintro (happened | ⟨passes, earlier, event, later, rfl, happened, kept⟩)
    · exact ⟨actions, action, [], rfl, happened, by simp⟩
    · refine ⟨earlier, event, later ++ [action], by simp, happened, ?_⟩
      intro other member
      rcases List.mem_append.mp member with old | new
      · exact kept other old
      · rw [List.mem_singleton.mp new]
        exact passes

/-- `P` holds in every state the run reaches, the first included. -/
def Always (step : σ → α → Option σ) (s : σ) (actions : List α) (P : σ → Prop) : Prop :=
  ∀ before, before <+: actions → ∀ reached, exec step s before = some reached → P reached

/-- `law` relates every state of the run to the action taken in it. -/
def EachStep (step : σ → α → Option σ) (s : σ) (actions : List α) (law : σ → α → Prop) : Prop :=
  ∀ before action, before ++ [action] <+: actions → ∀ reached, exec step s before = some reached →
    law reached action

/-- What lawful steps keep, of the state and the actions taken so far, holds at
the end of every run of lawful steps. -/
theorem exec_lawful {law : σ → α → Prop} (inv : List α → σ → Prop) (start : inv [] s)
    (kept : ∀ before s action next, inv before s → law s action → step s action = some next →
      inv (before ++ [action]) next)
    (each : EachStep step s actions law) (ran : exec step s actions = some final) :
    inv actions final := by
  induction actions using List.reverseRecOn generalizing final with
  | nil =>
    cases ran
    exact start
  | append_singleton actions action ih =>
    rw [exec_snoc] at ran
    obtain ⟨middle, ranBefore, stepped⟩ := Option.bind_eq_some_iff.mp ran
    have earlier : inv actions middle := by
      refine ih ?_ ranBefore
      intro before other isPrefix
      exact each before other (isPrefix.trans (List.prefix_append _ _))
    have lawful : law middle action := each actions action (List.prefix_refl _) middle ranBefore
    exact kept actions middle action final earlier lawful stepped

/-- The same for what every allowed action keeps. -/
theorem exec_history (inv : List α → σ → Prop) (allowed : α → Prop) (start : inv [] s)
    (kept : ∀ before s action next, inv before s → allowed action → step s action = some next →
      inv (before ++ [action]) next)
    (allows : ∀ action ∈ actions, allowed action) (ran : exec step s actions = some final) :
    inv actions final := by
  refine exec_lawful inv start kept ?_ ran
  intro before action isPrefix _ _
  exact allows action (isPrefix.subset (by simp))

/-- What every step keeps. -/
theorem exec_invariant (inv : σ → Prop) (start : inv s)
    (kept : ∀ s action next, inv s → step s action = some next → inv next)
    (ran : exec step s actions = some final) : inv final :=
  exec_history (fun _ => inv) (fun _ => True) start
    (fun _ s action next before _ => kept s action next before) (fun _ _ => trivial) ran

/-- A run is no longer than what its allowed actions cost. -/
theorem exec_bounded (inv : σ → Prop) (cost : σ → Nat) (allowed : α → Prop) (start : inv s)
    (kept : ∀ s action next, inv s → allowed action → step s action = some next →
      inv next ∧ cost next < cost s)
    (allows : ∀ action ∈ actions, allowed action) (ran : exec step s actions = some final) :
    actions.length ≤ cost s := by
  have paid : inv final ∧ actions.length + cost final ≤ cost s := by
    refine exec_history (fun before reached => inv reached ∧ before.length + cost reached ≤ cost s)
      allowed ⟨start, by simp⟩ ?_ allows ran
    intro before reached action next earlier allows stepped
    obtain ⟨later, less⟩ := kept reached action next earlier.1 allows stepped
    refine ⟨later, ?_⟩
    rw [List.length_append, List.length_singleton]
    omega
  omega

private theorem always_cons {P : σ → Prop} (stepped : step s action = some next) :
    Always step s (action :: actions) P ↔ P s ∧ Always step next actions P := by
  constructor
  · intro always
    refine ⟨always [] (by simp) s rfl, ?_⟩
    intro before isPrefix reached ran
    exact always (action :: before) (by simpa using isPrefix) reached (by simpa [exec_cons, stepped])
  · rintro ⟨holds, always⟩ before isPrefix reached ran
    cases before with
    | nil =>
      cases ran
      exact holds
    | cons head before =>
      obtain ⟨rfl, shorter⟩ := List.cons_prefix_cons.mp isPrefix
      rw [exec_cons, stepped] at ran
      exact always before shorter reached ran

theorem eachStep_nil {law : σ → α → Prop} : EachStep step s [] law := by
  intro before action isPrefix
  simp at isPrefix

theorem eachStep_cons {law : σ → α → Prop} (stepped : step s action = some next) :
    EachStep step s (action :: actions) law ↔ law s action ∧ EachStep step next actions law := by
  constructor
  · intro each
    refine ⟨each [] action (by simp) s rfl, ?_⟩
    intro before other isPrefix reached ran
    exact each (action :: before) other (by simpa using isPrefix) reached
      (by simpa [exec_cons, stepped])
  · rintro ⟨holds, each⟩ before other isPrefix reached ran
    cases before with
    | nil =>
      obtain ⟨rfl, -⟩ := List.cons_prefix_cons.mp isPrefix
      cases ran
      exact holds
    | cons head before =>
      obtain ⟨rfl, shorter⟩ := List.cons_prefix_cons.mp isPrefix
      rw [exec_cons, stepped] at ran
      exact each before other shorter reached ran

/-- A refused action ends the run. -/
theorem eachStep_refused {law : σ → α → Prop} (refused : step s action = none) :
    EachStep step s (action :: actions) law ↔ law s action := by
  constructor
  · intro each
    exact each [] action (by simp) s rfl
  · intro holds before other isPrefix reached ran
    cases before with
    | nil =>
      cases ran
      obtain ⟨rfl, -⟩ := List.cons_prefix_cons.mp isPrefix
      exact holds
    | cons head before =>
      obtain ⟨rfl, -⟩ := List.cons_prefix_cons.mp isPrefix
      rw [exec_cons, refused] at ran
      cases ran

instance decidableEachStep {law : σ → α → Prop} [∀ s action, Decidable (law s action)] :
    (s : σ) → (actions : List α) → Decidable (EachStep step s actions law)
  | _, [] => isTrue eachStep_nil
  | s, action :: actions =>
    match stepped : step s action with
    | none => decidable_of_iff _ (eachStep_refused stepped).symm
    | some next =>
      have : Decidable (EachStep step next actions law) := decidableEachStep next actions
      decidable_of_iff _ (eachStep_cons stepped).symm

/-- When lawful steps keep an invariant that gives `P`, and any other step
breaks `P`, then `P` holds throughout a run exactly when each step is lawful. -/
theorem always_iff_eachStep {P : σ → Prop} {law : σ → α → Prop} (inv : σ → Prop) (start : inv s)
    (gives : ∀ s, inv s → P s)
    (kept : ∀ s action next, inv s → law s action → step s action = some next → inv next)
    (breaks : ∀ s action next, inv s → ¬ law s action → step s action = some next → ¬ P next)
    (ran : exec step s actions = some final) :
    Always step s actions P ↔ EachStep step s actions law := by
  induction actions generalizing s with
  | nil =>
    refine iff_of_true ?_ eachStep_nil
    intro before isPrefix reached ranBefore
    rw [List.prefix_nil.mp isPrefix] at ranBefore
    cases ranBefore
    exact gives s start
  | cons action actions ih =>
    rw [exec_cons] at ran
    obtain ⟨next, stepped, ran⟩ := Option.bind_eq_some_iff.mp ran
    rw [always_cons stepped, eachStep_cons stepped]
    by_cases lawful : law s action
    · rw [ih (kept s action next start lawful stepped) ran]
      simp [gives s start, lawful]
    · constructor
      · intro always
        exact absurd (always.2 [] (by simp) next rfl) (breaks s action next start lawful stepped)
      · intro each
        exact absurd each.1 lawful

/-- A law that agrees with a condition wherever an invariant holds agrees with
it along every run. -/
theorem eachStep_congr {law cond : σ → α → Prop} (inv : σ → Prop) (start : inv s)
    (kept : ∀ s action next, inv s → step s action = some next → inv next)
    (agree : ∀ s action next, inv s → step s action = some next → (law s action ↔ cond s action))
    (ran : exec step s actions = some final) :
    EachStep step s actions law ↔ EachStep step s actions cond := by
  induction actions generalizing s with
  | nil =>
    exact iff_of_true eachStep_nil eachStep_nil
  | cons action actions ih =>
    rw [exec_cons] at ran
    obtain ⟨next, stepped, ran⟩ := Option.bind_eq_some_iff.mp ran
    rw [eachStep_cons stepped, eachStep_cons stepped, agree s action next start stepped,
      ih (kept s action next start stepped) ran]

/-- Two invariants tell lawful runs from others: the first step against the law
takes one to the other, and from there no step leads back. -/
theorem eachStep_or {assumed law : σ → α → Prop} (good bad : σ → Prop) (start : good s)
    (kept : ∀ s action next, good s → assumed s action → law s action → step s action = some next →
      good next)
    (breaks : ∀ s action next, good s → assumed s action → ¬ law s action → step s action = some next →
      bad next)
    (stays : ∀ s action next, bad s → assumed s action → step s action = some next → bad next)
    (each : EachStep step s actions assumed) (ran : exec step s actions = some final) :
    (EachStep step s actions law ∧ good final) ∨ (¬ EachStep step s actions law ∧ bad final) := by
  induction actions generalizing s with
  | nil =>
    cases ran
    exact Or.inl ⟨eachStep_nil, start⟩
  | cons action actions ih =>
    rw [exec_cons] at ran
    obtain ⟨next, stepped, ran⟩ := Option.bind_eq_some_iff.mp ran
    rw [eachStep_cons stepped] at each
    obtain ⟨first, later⟩ := each
    rw [eachStep_cons stepped]
    by_cases lawful : law s action
    · rcases ih (kept s action next start first lawful stepped) later ran with ⟨rest, ends⟩ | ⟨rest, ends⟩
      · exact Or.inl ⟨⟨lawful, rest⟩, ends⟩
      · exact Or.inr ⟨fun both => rest both.2, ends⟩
    · refine Or.inr ⟨fun both => lawful both.1, ?_⟩
      exact exec_lawful (fun _ => bad) (breaks s action next start first lawful stepped)
        (fun _ => stays) later ran

/-- A law about the actions alone. -/
theorem eachStep_iff_forall {allowed : α → Prop} (ran : exec step s actions = some final) :
    EachStep step s actions (fun _ action => allowed action) ↔ ∀ action ∈ actions, allowed action := by
  induction actions generalizing s with
  | nil =>
    exact iff_of_true eachStep_nil (by simp)
  | cons action actions ih =>
    rw [exec_cons] at ran
    obtain ⟨next, stepped, ran⟩ := Option.bind_eq_some_iff.mp ran
    rw [eachStep_cons stepped, ih ran, List.forall_mem_cons]

end Tomas.Runs
