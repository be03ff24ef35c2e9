import GraphWrites.Failure

namespace GraphWrites

/-- A computation on a state that may fail. What it did to the state before it failed stays done. -/
abbrev Attempt (σ α : Type) : Type := ExceptT Failure (StateM σ) α

namespace Attempt

variable {σ α β : Type}

def on (x : Attempt σ α) (s : σ) : Except Failure α × σ := StateT.run (ExceptT.run x) s

/-- An attempt as seen by who keeps the old state where it fails. -/
def outcome (x : Attempt σ α) (s : σ) : Except Failure (α × σ) :=
  match x.on s with
  | (.ok a, t) => .ok (a, t)
  | (.error failure, _) => .error failure

@[simp] theorem on_get (s : σ) : on (get : Attempt σ σ) s = (.ok s, s) := rfl

@[simp] theorem on_lift (x : Except Failure α) (s : σ) : on (liftM x : Attempt σ α) s = (x, s) := rfl

theorem on_bind (x : Attempt σ α) (f : α → Attempt σ β) (s : σ) : (x >>= f).on s =
    match x.on s with
    | (.ok a, t) => (f a).on t
    | (.error failure, t) => (.error failure, t) := by
  change ExceptT.bindCont f (x.on s).1 (x.on s).2 = _
  rcases x.on s with ⟨_ | a, t⟩ <;> rfl

theorem on_return (x : Attempt σ α) (f : α → β) (s : σ) :
    on (do return f (← x)) s = ((x.on s).1.map f, (x.on s).2) := by
  rw [on_bind]
  rcases x.on s with ⟨_ | a, t⟩ <;> rfl

theorem outcome_return (x : Attempt σ α) (f : α → β) (s : σ) :
    outcome (do return f (← x)) s = (x.outcome s).map (Prod.map f id) := by
  rw [outcome, on_return, outcome]
  rcases x.on s with ⟨_ | a, t⟩ <;> rfl

theorem outcome_modifyGet (f : σ → α × σ) (s : σ) : outcome (modifyGet f : Attempt σ α) s = .ok (f s) := rfl

end Attempt

end GraphWrites
