import Mathlib.Logic.Relation
import Tomas.Methods

/-! Methods on a state of which only a part is looked at, or only some kinds of
change. A method refines one on a part if it does there what the other does,
throws included. Both ways to look at a method go through it step by step. -/
namespace Tomas.Views
open Tomas.Methods

/-- A part of a state, which can be read and replaced. -/
structure Part (σ τ : Type) where
  view : σ → τ
  put : τ → σ → σ
  view_put : ∀ t s, view (put t s) = t

variable {σ τ ε α β γ : Type} {part : Part σ τ}

/-- A method on the part, as one on the whole state. -/
def Part.lift (part : Part σ τ) (body : Body τ ε α) : Body σ ε α := fun s =>
  let result := body (part.view s)
  (result.1, part.put result.2 s)

theorem lift_apply (body : Body τ ε α) (s : σ) :
    part.lift body s = ((body (part.view s)).1, part.put (body (part.view s)).2 s) := rfl

/-- The value of a method may be thrown away. -/
theorem discard_apply (body : Body σ ε α) (s : σ) :
    ((body >>= fun _ => pure ()) s).2 = (body s).2 := by
  rw [bind_apply]
  rcases body s with ⟨_ | _, _⟩ <;> rfl

/-! ## Refinement -/

/-- On the part, `body` does what `above` does. -/
def Refines (part : Part σ τ) (body : Body σ ε α) (above : Body τ ε α) : Prop :=
  ∀ s, above (part.view s) = ((body s).1, part.view (body s).2)

section Refinement

variable {body first : Body σ ε α} {above firstAbove : Body τ ε α} {next : α → Body σ ε β}
  {nextAbove : α → Body τ ε β}

theorem refines_lift (body : Body τ ε α) : Refines part (part.lift body) body :=
  fun _ => Prod.ext rfl (part.view_put _ _).symm

theorem refines_pure (value : α) : Refines part (pure value : Body σ ε α) (pure value) := fun _ => rfl

theorem refines_throw (cause : ε) : Refines part (throw cause : Body σ ε α) (throw cause) := fun _ => rfl

/-- A change outside the part cannot be seen. -/
theorem refines_modify {change : σ → σ} (outside : ∀ s, part.view (change s) = part.view s) :
    Refines part (modify change : Body σ ε Unit) (pure ()) := by
  intro s
  rw [modify_apply, outside]
  rfl

theorem refines_bind (begins : Refines part first firstAbove)
    (goes : ∀ value, Refines part (next value) (nextAbove value)) :
    Refines part (first >>= next) (firstAbove >>= nextAbove) := by
  intro s
  rw [bind_apply, bind_apply, begins s]
  cases stopped : (first s).1 with
  | error cause =>
    rw [show first s = (.error cause, (first s).2) from Prod.ext stopped rfl]
  | ok value =>
    rw [show first s = (.ok value, (first s).2) from Prod.ext stopped rfl]
    exact goes value (first s).2

/-- What is done outside the part may come first. -/
theorem refines_silent {first : Body σ ε Unit} {next : Unit → Body σ ε β} {above : Body τ ε β}
    (silent : Refines part first (pure ())) (goes : Refines part (next ()) above) :
    Refines part (first >>= next) above := by
  have both := @refines_bind σ τ ε Unit β part first (pure ()) next (fun _ => above) silent fun _ => goes
  rwa [pure_bind] at both

/-- What is read outside the part decides nothing inside it. -/
theorem refines_get {next : σ → Body σ ε β} {above : Body τ ε β}
    (goes : ∀ s, Refines part (next s) above) : Refines part (get >>= next) above :=
  fun s => goes s s

end Refinement

/-! ## What a method can do -/

/-- All that the method does, wherever it stops, is a sequence of such changes. -/
def Does (R : σ → σ → Prop) (body : Body σ ε α) : Prop := ∀ s, Relation.ReflTransGen R s (body s).2

section Changes

variable {R : σ → σ → Prop} {first : Body σ ε α} {next : α → Body σ ε β}

theorem does_pure (value : α) : Does R (pure value : Body σ ε α) := fun _ => .refl

theorem does_throw (cause : ε) : Does R (throw cause : Body σ ε α) := fun _ => .refl

theorem does_modify {change : σ → σ} (allowed : ∀ s, R s (change s)) :
    Does R (modify change : Body σ ε Unit) := fun s => .single (allowed s)

theorem does_bind (begins : Does R first) (goes : ∀ value, Does R (next value)) :
    Does R (first >>= next) := by
  intro s
  have begun := begins s
  rw [bind_apply]
  revert begun
  rcases first s with ⟨_ | value, s⟩
  · exact id
  · exact fun begun => begun.trans (goes value s)

theorem does_get {next : σ → Body σ ε β} (goes : ∀ s, Does R (next s)) : Does R (get >>= next) :=
  fun s => goes s s

theorem does_lift {body : Body τ ε α} (allowed : ∀ s, R s (part.put (body (part.view s)).2 s)) :
    Does R (part.lift body) := fun s => .single (allowed s)

end Changes

/-! ## What a method keeps -/

/-- `P` survives the method, wherever it stops. -/
def Keeps (P : σ → Prop) (body : Body σ ε α) : Prop := ∀ s, P s → P (body s).2

section Properties

variable {P : σ → Prop} {R : σ → σ → Prop} {first : Body σ ε α} {next : α → Body σ ε β}

theorem keeps_pure (value : α) : Keeps P (pure value : Body σ ε α) := fun _ holds => holds

theorem keeps_bind (begins : Keeps P first) (goes : ∀ value, Keeps P (next value)) :
    Keeps P (first >>= next) := by
  intro s holds
  have middle := begins s holds
  rw [bind_apply]
  revert middle
  rcases first s with ⟨_ | value, s⟩
  · exact id
  · exact goes value s

theorem keeps_get {next : σ → Body σ ε β} (goes : ∀ s, Keeps P (next s)) : Keeps P (get >>= next) :=
  fun s => goes s s

theorem keeps_lift {body : Body τ ε α} (kept : ∀ s, P s → P (part.put (body (part.view s)).2 s)) :
    Keeps P (part.lift body) := kept

/-- What each single change keeps. -/
theorem keeps_of_does (kept : ∀ s next, R s next → P s → P next) (does : Does R first) : Keeps P first := by
  intro s holds
  have changes := does s
  revert changes
  generalize (first s).2 = final
  intro changes
  induction changes with
  | refl => exact holds
  | tail _ last ih => exact kept _ _ last ih

end Properties

end Tomas.Views
