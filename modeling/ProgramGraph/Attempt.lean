/-!
# Programs that change a state and may fail

A program of this kind works on one stored state.  What it wrote before it fails stays
written.  `Attempt.on` is what such a program answers, together with the state that it
leaves behind.
-/

namespace ProgramGraph

/-- A program on one stored state that answers or fails. -/
abbrev Attempt (ε σ : Type) := ExceptT ε (StateM σ)

namespace Attempt

variable {ε σ α β : Type}

/-- What a program answers in a state, and the state that it leaves behind. -/
def on (program : Attempt ε σ α) (state : σ) : Except ε α × σ :=
  (program.run.run state).run

@[simp]
theorem on_pure (answer : α) (state : σ) :
    (pure answer : Attempt ε σ α).on state = (.ok answer, state) :=
  rfl

@[simp]
theorem on_throw (cause : ε) (state : σ) :
    (throw cause : Attempt ε σ α).on state = (.error cause, state) :=
  rfl

@[simp]
theorem on_get (state : σ) : (get : Attempt ε σ σ).on state = (.ok state, state) :=
  rfl

@[simp]
theorem on_modify (change : σ → σ) (state : σ) :
    (modify change : Attempt ε σ Unit).on state = (.ok (), change state) :=
  rfl

/-- A failure ends a program and keeps the state as it is by then. -/
theorem on_bind (program : Attempt ε σ α) (next : α → Attempt ε σ β) (state : σ) :
    (program >>= next).on state =
      match program.on state with
      | (.ok answer, after) => (next answer).on after
      | (.error cause, after) => (.error cause, after) := by
  simp only [on, ExceptT.run, StateT.run, bind, ExceptT.bind, ExceptT.mk, StateT.bind,
    ExceptT.bindCont]
  rcases program state with ⟨answer | cause, after⟩ <;> rfl

/-- A program that looks at the stored state goes on with it. -/
theorem on_get_bind (next : σ → Attempt ε σ β) (state : σ) :
    (get >>= next).on state = (next state).on state :=
  rfl

theorem on_map (f : α → β) (program : Attempt ε σ α) (state : σ) :
    (f <$> program).on state = ((program.on state).1.map f, (program.on state).2) := by
  rw [map_eq_pure_bind, on_bind]
  rcases program.on state with ⟨answer | cause, after⟩ <;> rfl

/-- A program that is run after a failure finds what was written before it. -/
theorem on_tryCatch (program : Attempt ε σ α) (handler : ε → Attempt ε σ α) (state : σ) :
    (tryCatch program handler).on state =
      match program.on state with
      | (.ok answer, after) => (.ok answer, after)
      | (.error cause, after) => (handler cause).on after := by
  simp only [on, tryCatch, tryCatchThe, MonadExceptOf.tryCatch, ExceptT.tryCatch, ExceptT.run,
    ExceptT.mk, StateT.run, bind, StateT.bind]
  rcases program state with ⟨answer | cause, after⟩ <;> rfl

end Attempt

end ProgramGraph
