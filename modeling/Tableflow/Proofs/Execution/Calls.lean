import Tableflow.Pipeline.Execution

/-!
# Calls of the bodies

An execution shows its record only. To speak of the calls that it makes, the bodies of a pipeline
are replaced by ones that write down each call and are the same otherwise (`Pipeline.logged`). The
execution is then that of the pipeline together with the list of its calls: without the list it is
the execution of the pipeline itself (`Pipeline.erases_execute`).
-/

namespace Tableflow

/-- A call of the body of a step: what it was given and what it returned. -/
structure Call where
  step : String
  inputs : Inputs
  result : Except Trace Outputs

variable {m : Type → Type} [Monad m]

/-! ## Leaving out the list -/

theorem run_liftM {σ α : Type} (x : m α) (state : σ) :
    (liftM x : StateT σ m α).run state = x >>= fun a => pure (a, state) :=
  StateT.run_monadLift x state

/-- A program that keeps a list of calls is another one if the list is left out. -/
def Erases {α : Type} (x : StateT (List Call) m α) (y : m α) : Prop :=
  ∀ calls, Prod.fst <$> x.run calls = y

section Erases

variable [LawfulMonad m] {α β : Type}

theorem Erases.pure (a : α) : Erases (m := m) (Pure.pure a) (Pure.pure a) := fun calls => by
  rw [StateT.run_pure, map_pure]

theorem Erases.lift (y : m α) : Erases (liftM y) y := fun calls => by
  rw [run_liftM, map_bind]
  simp

theorem Erases.bind {x : StateT (List Call) m α} {y : m α} {f : α → StateT (List Call) m β}
    {g : α → m β} (h : Erases x y) (hf : ∀ a, Erases (f a) (g a)) :
    Erases (x >>= f) (y >>= g) := by
  intro calls
  calc Prod.fst <$> (x >>= f).run calls
      = x.run calls >>= fun r => g r.1 := by
        rw [StateT.run_bind, map_bind]
        exact bind_congr fun r => hf r.1 r.2
    _ = Prod.fst <$> x.run calls >>= g := by rw [bind_map_left]
    _ = y >>= g := by rw [h calls]

theorem Erases.foldlM {γ δ : Type} {f : α → γ → StateT (List Call) m α} {g : α → δ → m α}
    {steps : List δ} {log : δ → γ} (h : ∀ a s, Erases (f a (log s)) (g a s)) (a : α) :
    Erases ((steps.map log).foldlM f a) (steps.foldlM g a) := by
  induction steps generalizing a with
  | nil => exact .pure a
  | cons s steps ih =>
    rw [List.map_cons, List.foldlM_cons, List.foldlM_cons]
    exact (h a s).bind ih

end Erases

/-! ## Logged pipelines -/

/-- The step whose body writes down its calls. -/
def BoundStep.logged (s : BoundStep m) : BoundStep (StateT (List Call) m) where
  name := s.name
  step :=
    { signature := s.signature
      body := fun inputs => do
        let result ← liftM (s.step.body inputs)
        modify (· ++ [⟨s.name, inputs, result⟩])
        return result }
  bindings := s.bindings

namespace Pipeline

/-- The pipeline whose bodies write down their calls. -/
def logged (p : Pipeline m) : Pipeline (StateT (List Call) m) :=
  ⟨p.name, p.steps.map BoundStep.logged⟩

/-- Executes a pipeline and lists the calls of its bodies. -/
def executeLogged (p : Pipeline m) (id : RunId) (now : m Instant) : m (Outcome × List Call) :=
  (p.logged.execute id (liftM now)).run []

end Pipeline

variable [LawfulMonad m]

theorem BoundStep.erases_body (s : BoundStep m) (inputs : Inputs) :
    Erases (s.logged.step.body inputs) (s.step.body inputs) := by
  intro calls
  simp [BoundStep.logged]

theorem BoundStep.erases_perform (s : BoundStep m) (t : Transcript) :
    Erases (s.logged.perform t) (s.perform t) := by
  have hgather : s.logged.gatherInputs t = s.gatherInputs t := rfl
  rw [perform, perform, hgather]
  cases s.gatherInputs t with
  | ok inputs => exact (s.erases_body inputs).bind fun result => .pure (s.conclude result)
  | error fault => exact .pure _

theorem Transcript.erases_advance (now : m Instant) (t : Transcript) (s : BoundStep m) :
    Erases (advance (liftM now) t s.logged) (advance now t s) := by
  rw [advance, advance]
  cases t.breakdown with
  | some b => exact .pure _
  | none =>
    refine (Erases.lift now).bind fun started => ?_
    refine (s.erases_perform t).bind fun result => ?_
    exact (Erases.lift now).bind fun finished => .pure _

theorem Transcript.erases_foldlM (now : m Instant) (steps : List (BoundStep m)) (t : Transcript) :
    Erases ((steps.map BoundStep.logged).foldlM (advance (liftM now)) t)
      (steps.foldlM (advance now) t) :=
  Erases.foldlM (erases_advance now) t

theorem Pipeline.erases_execute (p : Pipeline m) (id : RunId) (now : m Instant) :
    Erases (p.logged.execute id (liftM now)) (p.execute id now) := by
  refine (Erases.lift now).bind fun started => ?_
  refine (Transcript.erases_foldlM now p.steps .empty).bind fun t => ?_
  exact (Erases.lift now).bind fun finished => .pure _

end Tableflow
