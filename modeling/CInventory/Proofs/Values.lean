import CInventory.Diagnostic.Log

/-!
# What logged work comes to

Work says things on its way, may fail and may change a state. Its value is what is left when the
log is put aside: one equation for each way of putting work together.
-/

namespace CInventory.Diagnostic

variable {ε σ α β : Type}

theorem bind_ok (a : α) (f : α → Except ε β) : (Except.ok a).bind f = f a := rfl

/-! ## Work that may fail -/

def outcome (x : ExceptT ε Logged α) : Except ε α := x.run.value

@[simp] theorem outcome_mk (x : Logged (Except ε α)) : outcome (ExceptT.mk x) = x.value := rfl

@[simp] theorem outcome_pure (a : α) : outcome (pure a : ExceptT ε Logged α) = .ok a := rfl

@[simp] theorem outcome_throw (e : ε) : outcome (throw e : ExceptT ε Logged α) = .error e := rfl

theorem outcome_lift (x : Logged α) :
    outcome (ExceptT.lift x : ExceptT ε Logged α) = .ok x.value := rfl

theorem outcome_bind (x : ExceptT ε Logged α) (f : α → ExceptT ε Logged β) :
    outcome (x >>= f) = (outcome x).bind fun a => outcome (f a) := by
  change (ExceptT.bindCont f (outcome x) : Logged (Except ε β)).value = _
  rcases outcome x with e | a <;> rfl

/-! ## Work on a state -/

/-- The value of work on a state, and the state it leaves. -/
def valueOn (x : StateT σ Logged α) (s : σ) : α × σ := (x.run s).value

@[simp] theorem valueOn_pure (a : α) (s : σ) :
    valueOn (pure a : StateT σ Logged α) s = (a, s) := rfl

theorem valueOn_bind (x : StateT σ Logged α) (f : α → StateT σ Logged β) (s : σ) :
    valueOn (x >>= f) s = valueOn (f (valueOn x s).1) (valueOn x s).2 := rfl

@[simp] theorem valueOn_get (s : σ) : valueOn (get : StateT σ Logged σ) s = (s, s) := rfl

@[simp] theorem valueOn_lift (x : Logged α) (s : σ) :
    valueOn (StateT.lift x : StateT σ Logged α) s = (x.value, s) := rfl

/-! ## Work on a state that may fail -/

/-- The value of work that may fail, and the state it leaves. -/
def resultOn (x : ExceptT ε (StateT σ Logged) α) (s : σ) : Except ε α × σ := valueOn x.run s

@[simp] theorem resultOn_mk (x : StateT σ Logged (Except ε α)) (s : σ) :
    resultOn (ExceptT.mk x) s = valueOn x s := rfl

@[simp] theorem resultOn_pure (a : α) (s : σ) :
    resultOn (pure a : ExceptT ε (StateT σ Logged) α) s = (.ok a, s) := rfl

@[simp] theorem resultOn_throw (e : ε) (s : σ) :
    resultOn (throw e : ExceptT ε (StateT σ Logged) α) s = (.error e, s) := rfl

theorem resultOn_bind (x : ExceptT ε (StateT σ Logged) α)
    (f : α → ExceptT ε (StateT σ Logged) β) (s : σ) :
    resultOn (x >>= f) s =
      match resultOn x s with
      | (.ok a, s) => resultOn (f a) s
      | (.error e, s) => (.error e, s) := by
  change valueOn (ExceptT.bindCont f (resultOn x s).1 : StateT σ Logged _) (resultOn x s).2 = _
  rcases resultOn x s with ⟨e | a, u⟩ <;> rfl

/-- Work that succeeds has succeeded with each of its parts. -/
theorem resultOn_bind_ok {x : ExceptT ε (StateT σ Logged) α}
    {f : α → ExceptT ε (StateT σ Logged) β} {s u : σ} {b : β}
    (h : resultOn (x >>= f) s = (.ok b, u)) :
    ∃ a v, resultOn x s = (.ok a, v) ∧ resultOn (f a) v = (.ok b, u) := by
  rw [resultOn_bind] at h
  rcases hx : resultOn x s with ⟨e | a, v⟩ <;> rw [hx] at h
  · cases h
  · exact ⟨a, v, rfl, h⟩

@[simp] theorem resultOn_lift (x : ExceptT ε Logged α) (s : σ) :
    resultOn (ExceptT.mk (StateT.lift x.run) : ExceptT ε (StateT σ Logged) α) s =
      (outcome x, s) := rfl

theorem resultOn_get_bind (f : σ → ExceptT ε (StateT σ Logged) α) (s : σ) :
    resultOn (get >>= f) s = resultOn (f s) s := rfl

end CInventory.Diagnostic
