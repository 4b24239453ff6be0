import Mathlib.Logic.Basic

/-! Methods that update a state and may throw. What a method has done before it
throws stays done; these equations run one on a state step by step. -/
namespace Tomas.Methods

/-- A method on a state, which returns a value or throws. -/
abbrev Body (σ ε α : Type) := ExceptT ε (StateM σ) α

/-- A block whose throwables of one kind are caught and dropped. -/
def attempt {σ ε α : Type} (caught : ε → Bool) (block : Body σ ε α) : Body σ ε (Option α) :=
  tryCatch (some <$> block) fun cause => if caught cause then pure none else throw cause

variable {σ ε α β : Type} {s : σ}

theorem bind_apply (first : Body σ ε α) (next : α → Body σ ε β) (s : σ) :
    (first >>= next) s =
      match first s with
      | (.ok value, s) => next value s
      | (.error cause, s) => (.error cause, s) := by
  change ExceptT.bindCont next (first s).1 (first s).2 = _
  rcases first s with ⟨_ | _, _⟩ <;> rfl

theorem pure_apply (value : α) : (pure value : Body σ ε α) s = (.ok value, s) := rfl

theorem throw_apply (cause : ε) : (throw cause : Body σ ε α) s = (.error cause, s) := rfl

theorem get_apply : (get : Body σ ε σ) s = (.ok s, s) := rfl

theorem modify_apply (change : σ → σ) : (modify change : Body σ ε Unit) s = (.ok (), change s) := rfl

theorem tryCatch_apply (block : Body σ ε α) (handler : ε → Body σ ε α) (s : σ) :
    tryCatch block handler s =
      match block s with
      | (.ok value, s) => (.ok value, s)
      | (.error cause, s) => handler cause s := by
  change (match (block s).1 with
    | .ok value => (pure (.ok value) : StateM σ (Except ε α))
    | .error cause => handler cause) (block s).2 = _
  rcases block s with ⟨_ | _, _⟩ <;> rfl

theorem attempt_apply (caught : ε → Bool) (block : Body σ ε α) (s : σ) :
    attempt caught block s =
      match block s with
      | (.ok value, s) => (.ok (some value), s)
      | (.error cause, s) => if caught cause then (.ok none, s) else (.error cause, s) := by
  rw [attempt, tryCatch_apply, map_eq_pure_bind, bind_apply]
  rcases block s with ⟨cause | value, s⟩
  · dsimp only
    split <;> rfl
  · rfl

end Tomas.Methods
