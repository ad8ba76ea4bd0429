/-!
Calls that change a value in place. A call that fails has the value at hand too, with all that it
has written until then.
-/
namespace SqliteSchema

/-- A call that changes a value or fails. -/
abbrev Update (ε σ : Type) : Type → Type := EStateM ε σ

namespace Update

variable {ε σ α β : Type}

/-- The call ends with the new value, or with the error and the value that it started with. -/
def outcome (s : σ) : Except ε σ → EStateM.Result ε σ Unit
  | .ok s' => .ok () s'
  | .error e => .error e s

theorem get_bind (f : σ → Update ε σ α) (s : σ) : (get >>= f) s = f s s := rfl

theorem bind_apply (x : Update ε σ α) (f : α → Update ε σ β) (s : σ) :
    (x >>= f) s =
      match x s with
      | .ok a s' => f a s'
      | .error e s' => .error e s' := by
  change EStateM.bind x f s = _
  unfold EStateM.bind
  cases x s <;> rfl

end Update
end SqliteSchema
