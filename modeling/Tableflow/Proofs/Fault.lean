import Tableflow.Fault

/-!
# Traces and the faults in them

Contexts neither hide the fault in a trace (`Trace.fault?_withContexts`) nor lose a text of the chain
(`Trace.chain_withContexts`), and a fault is found only in what was made of it by contexts
(`Trace.fault?_eq_some_iff`). So the fault that a trace amounts to is the one that was wrapped, at
whatever depth it holds further traces (`Fault.ofTrace_fault`), and anything else, also an error of
another kind with a fault as its source, is held by a failure of a step's body with all of its texts
(`Fault.ofTrace_of_foreign`).
-/

namespace Tableflow

namespace Trace

/-! ## Contexts -/

/-- The first context is the innermost one. -/
theorem withContexts_concat (contexts : List String) (message : String) (trace : Trace) :
    trace.withContexts (contexts ++ [message]) = .context message (trace.withContexts contexts) :=
  List.foldl_append

/-- Contexts do not hide a fault. -/
@[simp] theorem fault?_withContexts (contexts : List String) (trace : Trace) :
    (trace.withContexts contexts).fault? = trace.fault? := by
  induction contexts generalizing trace with
  | nil => rfl
  | cons message rest ih => exact ih (.context message trace)

/-- Contexts stand in the chain in front of what they were put around, the last one first. -/
theorem chain_withContexts (contexts : List String) (trace : Trace) :
    (trace.withContexts contexts).chain = contexts.reverse ++ trace.chain := by
  induction contexts generalizing trace with
  | nil => rfl
  | cons message rest ih =>
    have hrest : (withContexts rest (.context message trace)).chain =
        rest.reverse ++ message :: trace.chain := ih (.context message trace)
    rw [List.reverse_cons, List.append_assoc, List.singleton_append]
    exact hrest

/-! ## Roots -/

/-- The traces in which a fault is found are those that were made of it. -/
theorem fault?_eq_some_iff {trace : Trace} {f : Fault} :
    trace.fault? = some f ↔ ∃ contexts, trace = (fault f).withContexts contexts := by
  constructor
  · intro h
    induction trace using Trace.recOn (motive_1 := fun _ => True) with
    | text | foreign => cases h
    | fault =>
      obtain rfl := Option.some.inj h
      exact ⟨[], rfl⟩
    | context message inner ih =>
      obtain ⟨contexts, rfl⟩ := ih h
      exact ⟨contexts ++ [message], (withContexts_concat ..).symm⟩
    | _ => trivial
  · rintro ⟨contexts, rfl⟩
    exact fault?_withContexts contexts _

end Trace

/-! ## The fault that a trace amounts to -/

namespace Fault

variable {trace : Trace}

/-- A fault comes back from under any contexts. -/
theorem ofTrace_fault (f : Fault) (contexts : List String) :
    ofTrace ((Trace.fault f).withContexts contexts) = f := by
  rw [ofTrace, Trace.fault?_withContexts, Trace.fault?, Option.getD_some]

/-- What is no fault is held with all its contexts. -/
theorem ofTrace_of_foreign (h : trace.fault? = none) (contexts : List String) :
    ofTrace (trace.withContexts contexts) = .handlerError (trace.withContexts contexts) := by
  rw [ofTrace, Trace.fault?_withContexts, h, Option.getD_none]

/-- A fault that another error has as its source is not taken out of it. -/
example : (ofTrace (.foreign "no model" (.fault (.unknownStep "fit")))).step? = none := rfl

end Fault

end Tableflow
