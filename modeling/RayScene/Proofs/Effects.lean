import Mathlib.Logic.Basic
set_option autoImplicit false

namespace RayScene

variable {ε σ α β : Type} {x : ExceptT ε (StateM σ) α} {g : α → ExceptT ε (StateM σ) β}
  {s s₁ s₂ : σ}

theorem run_bind (x : ExceptT ε (StateM σ) α) (g : α → ExceptT ε (StateM σ) β) (s : σ) :
    (x >>= g).run.run s = match x.run.run s with
      | (.ok a, s') => (g a).run.run s'
      | (.error e, s') => (.error e, s') := by
  rw [ExceptT.run_bind, StateT.run_bind]
  cases x.run.run s with
  | mk r s' => cases r <;> rfl

theorem run_bind_ok {a : α} (h : x.run.run s = (.ok a, s₁)) :
    (x >>= g).run.run s = (g a).run.run s₁ := by
  rw [run_bind, h]

theorem run_bind_error {e : ε} (h : x.run.run s = (.error e, s₁)) :
    (x >>= g).run.run s = (.error e, s₁) := by
  rw [run_bind, h]

theorem run_get_bind (g : σ → ExceptT ε (StateM σ) β) (s : σ) :
    (get >>= g).run.run s = (g s).run.run s := rfl

theorem run_bind_state {x : StateM σ α} {g : α → StateM σ β} {a : α} (h : x.run s = (a, s₁)) :
    (x >>= g).run s = (g a).run s₁ := by
  rw [StateT.run_bind, h]
  rfl

end RayScene
