/-!
# What programs keep

A program that works on a state and may fail *keeps* a property of the state if the state
has it afterwards whenever it had it before.  What the program answers may have a property
too.  A program that fails keeps everything.

A program *delivers* if it does not fail: from every state with a property it gets to an
answer and to a state that have another property together.
-/

namespace ProgramGraph

variable {ε σ α β : Type} {I : σ → Prop} {Q R : α → Prop} {S : β → Prop}

/-- A program keeps the property `I` of its state, and answers with something that has the
property `Q`. -/
def Keeps (I : σ → Prop) (program : StateT σ (Except ε) α) (Q : α → Prop) : Prop :=
  ∀ state answer after, I state → program.run state = .ok (answer, after) → I after ∧ Q answer

theorem exists_of_isOk {result : Except ε α} (succeeds : result.isOk) :
    ∃ answer, result = .ok answer := by
  cases result with
  | error cause => cases succeeds
  | ok answer => exact ⟨answer, rfl⟩

/-- What passes a test is an answer. -/
theorem exists_of_any {result : Except ε α} {test : α → Bool}
    (passes : result.toOption.any test) : ∃ answer, result = .ok answer ∧ test answer := by
  cases result with
  | error cause => cases passes
  | ok answer => exact ⟨answer, rfl, passes⟩

/-- A program of two parts comes to an end where its second part does. -/
theorem run_bind_eq_ok_iff {program : StateT σ (Except ε) α} {next : α → StateT σ (Except ε) β}
    {state last : σ} {answer : β} :
    (program >>= next).run state = .ok (answer, last) ↔
      ∃ middle after, program.run state = .ok (middle, after) ∧
        (next middle).run after = .ok (answer, last) := by
  rw [StateT.run_bind]
  cases stepped : program.run state with
  | error cause => simp [bind, Except.bind]
  | ok result =>
      obtain ⟨middle, after⟩ := result
      simp [bind, Except.bind, and_assoc]

namespace Keeps

theorem pure {answer : α} (holds : Q answer) :
    Keeps I (pure answer : StateT σ (Except ε) α) Q := by
  intro state _ _ kept done
  cases done
  exact ⟨kept, holds⟩

theorem throw (cause : ε) : Keeps I (throw cause : StateT σ (Except ε) α) Q := by
  intro state _ _ _ done
  cases done

theorem throw_bind (cause : ε) (next : β → StateT σ (Except ε) α) :
    Keeps I (MonadExcept.throw cause >>= next) Q := by
  intro state _ _ _ done
  cases done

theorem get : Keeps I (get : StateT σ (Except ε) σ) I := by
  intro state _ _ kept done
  cases done
  exact ⟨kept, kept⟩

theorem set {state : σ} (kept : I state) :
    Keeps I (set state : StateT σ (Except ε) PUnit) fun _ => True := by
  intro _ _ _ _ done
  cases done
  exact ⟨kept, trivial⟩

theorem modify {change : σ → σ} (keeps : ∀ state, I state → I (change state)) :
    Keeps I (modify change : StateT σ (Except ε) PUnit) fun _ => True := by
  intro state _ _ kept done
  cases done
  exact ⟨keeps state kept, trivial⟩

/-- A result that does not depend on the state may be used. -/
theorem lift {result : Except ε α} (holds : ∀ answer, result = .ok answer → Q answer) :
    Keeps I (liftM result : StateT σ (Except ε) α) Q := by
  intro state answer after kept done
  cases result with
  | error cause => cases done
  | ok found =>
      cases done
      exact ⟨kept, holds _ rfl⟩

theorem bind {program : StateT σ (Except ε) α} {next : α → StateT σ (Except ε) β}
    (first : Keeps I program Q) (later : ∀ answer, Q answer → Keeps I (next answer) S) :
    Keeps I (program >>= next) S := by
  intro state answer last kept done
  rw [StateT.run_bind] at done
  cases stepped : program.run state with
  | error cause =>
      rw [stepped] at done
      cases done
  | ok result =>
      obtain ⟨middle, after⟩ := result
      rw [stepped] at done
      obtain ⟨kept, holds⟩ := first state middle after kept stepped
      exact later middle holds after answer last kept done

/-- What a program finds is there or is missing. -/
theorem bind_option {program : StateT σ (Except ε) (Option β)}
    {next : Option β → StateT σ (Except ε) α} (first : Keeps I program fun _ => True)
    (missing : Keeps I (next none) Q) (found : ∀ element, Keeps I (next (some element)) Q) :
    Keeps I (program >>= next) Q := by
  refine first.bind fun answer _ => ?_
  cases answer with
  | none => exact missing
  | some element => exact found element

theorem ite {condition : Prop} [Decidable condition] {program other : StateT σ (Except ε) α}
    (holds : Keeps I program Q) (fails : Keeps I other Q) :
    Keeps I (if condition then program else other) Q := by
  split
  · exact holds
  · exact fails

/-- A step that is not always taken. -/
theorem when {condition : Prop} [Decidable condition] {step : StateT σ (Except ε) PUnit}
    {rest : PUnit → StateT σ (Except ε) α} (first : Keeps I step fun _ => True)
    (later : ∀ done, Keeps I (rest done) Q) :
    Keeps I (if condition then step >>= rest else rest ⟨⟩) Q :=
  .ite (first.bind fun done _ => later done) (later _)

theorem mono {program : StateT σ (Except ε) α} (keeps : Keeps I program Q)
    (weaker : ∀ answer, Q answer → R answer) : Keeps I program R :=
  fun state answer after kept done =>
    (keeps state answer after kept done).imp_right (weaker answer)

end Keeps

variable {T : α → σ → Prop} {U : β → σ → Prop}

/-- From every state with the property `I` a program gets to an answer, and the answer and
the state afterwards have the property `T`. -/
def Delivers (I : σ → Prop) (program : StateT σ (Except ε) α) (T : α → σ → Prop) : Prop :=
  ∀ state, I state → ∃ answer after, program.run state = .ok (answer, after) ∧ T answer after

namespace Delivers

theorem pure {answer : α} (holds : ∀ state, I state → T answer state) :
    Delivers I (pure answer : StateT σ (Except ε) α) T :=
  fun state start => ⟨answer, state, rfl, holds state start⟩

theorem modify {change : σ → σ} {J : σ → Prop} (holds : ∀ state, I state → J (change state)) :
    Delivers I (modify change : StateT σ (Except ε) PUnit) fun _ => J :=
  fun state start => ⟨⟨⟩, change state, rfl, holds state start⟩

theorem bind {program : StateT σ (Except ε) α} {next : α → StateT σ (Except ε) β}
    (first : Delivers I program T) (later : ∀ answer, Delivers (T answer) (next answer) U) :
    Delivers I (program >>= next) U := by
  intro state start
  obtain ⟨middle, between, stepped, holds⟩ := first state start
  obtain ⟨answer, after, done, reached⟩ := later middle between holds
  refine ⟨answer, after, ?_, reached⟩
  rw [StateT.run_bind, stepped]
  exact done

end Delivers

/-- A run over a list does not fail if no step from a good state does and every step leads to
a good state. -/
theorem foldlM_eq_ok {step : σ → α → Except ε σ} {next : σ → α → σ} {elements : List α}
    (steps : ∀ state, I state → ∀ element ∈ elements,
      step state element = .ok (next state element) ∧ I (next state element))
    {state : σ} (start : I state) :
    elements.foldlM step state = .ok (elements.foldl next state) ∧
      I (elements.foldl next state) := by
  induction elements generalizing state with
  | nil => exact ⟨rfl, start⟩
  | cons element rest ih =>
      obtain ⟨stepped, good⟩ := steps state start element List.mem_cons_self
      rw [List.foldlM_cons, stepped]
      exact ih (fun state good other member => steps state good other (.tail _ member)) good

end ProgramGraph
