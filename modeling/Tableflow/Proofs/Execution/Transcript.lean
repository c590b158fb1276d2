import Tableflow.Pipeline.Execution
import Tableflow.Proofs.Dictionary
import Tableflow.Proofs.Text.Bytes

/-!
# Transcripts

What a step hands on and what the transcript keeps of it. The result of a body is handed on if it
consists of the declared outputs, and fails for a reason of its own otherwise
(`BoundStep.conclude_cases`); in outputs that are not the declared ones one name is objected to
(`BoundStep.Objects`). A completed step is found under its name from then on
(`Transcript.completed?_record_self`, `Transcript.completed?_record_of_ne`).
-/

namespace Tableflow

variable {m : Type → Type}

/-! ## Lists that grow at their ends -/

section

variable {α : Type u} {as : List α} {i : Nat} {a x : α}

/-- What stands at a place of a list still does when the list has grown. -/
theorem getElem?_append_of_eq_some (h : as[i]? = some x) (bs : List α) :
    (as ++ bs)[i]? = some x := by
  rw [List.getElem?_append_left (List.getElem?_eq_some_iff.1 h).1, h]

/-- What stands at a place of a list did so before the last one was added, or is the last one. -/
theorem getElem?_concat_cases (h : (as ++ [a])[i]? = some x) :
    as[i]? = some x ∨ (i = as.length ∧ a = x) := by
  have hi : i < as.length + 1 := by
    simpa using (List.getElem?_eq_some_iff.1 h).1
  rcases Nat.lt_succ_iff_lt_or_eq.1 hi with hi | rfl
  · exact .inl (by rwa [List.getElem?_append_left hi] at h)
  · rw [List.getElem?_concat_length, Option.some.injEq] at h
    exact .inr ⟨rfl, h⟩

end

/-! ## Steps that ran -/

/-- A step that completed. -/
def StepRun.Completed (r : StepRun) : Prop :=
  ∃ started finished outputs, r.result = .completed started finished outputs

theorem StepRun.output_eq_ok_iff {r : StepRun} {name : String} {a : Artifact} :
    r.output name = .ok a ↔ r.outputs.find? name = some a := by
  rw [output]
  cases r.outputs.find? name <;> simp

/-- How a step went that ran to this result. -/
def StepResult.ofExcept (started finished : Instant) : Except Trace Outputs → StepResult
  | .ok outputs => .completed started finished outputs
  | .error _ => .failed started finished

/-! ## Conclusions -/

namespace BoundStep

variable {s : BoundStep m} {outputs : Outputs}

/-- Why a body that returned this result has failed: by itself, or by an output that is undeclared
or missing. -/
inductive Blames (s : BoundStep m) : Except Trace Outputs → Trace → Prop
  | body (trace : Trace) : s.Blames (.error trace) trace
  | undeclared {outputs : Outputs} {name : String} (present : name ∈ outputs.keys)
      (undeclared : name ∉ s.signature.outputs) :
      s.Blames (.ok outputs) (.fault (.undeclaredOutput s.name name))
  | missing {outputs : Outputs} {name : String} (declared : name ∈ s.signature.outputs)
      (missing : name ∉ outputs.keys) :
      s.Blames (.ok outputs) (.fault (.missingOutput s.name name))

/-- The names of some outputs are the declared ones. -/
def Declares (s : BoundStep m) (outputs : Outputs) : Prop :=
  ∀ name, name ∈ outputs.keys ↔ name ∈ s.signature.outputs

/-- What is objected to in some outputs: the undeclared name whose bytes come first, or, if all names
are declared, the first declared name that is missing. -/
inductive Objects (s : BoundStep m) (outputs : Outputs) : Fault → Prop
  | undeclared {name : String} (present : name ∈ outputs.keys)
      (undeclared : name ∉ s.signature.outputs)
      (least : ∀ other ∈ outputs.keys, other ∉ s.signature.outputs →
        Text.bytes name ≤ Text.bytes other) :
      s.Objects outputs (.undeclaredOutput s.name name)
  | missing {name : String} {front back : List String}
      (declared : ∀ other ∈ outputs.keys, other ∈ s.signature.outputs)
      (listed : s.signature.outputs = front ++ name :: back)
      (present : ∀ other ∈ front, other ∈ outputs.keys) (missing : name ∉ outputs.keys) :
      s.Objects outputs (.missingOutput s.name name)

variable {fault : Fault}

theorem Objects.blames (h : s.Objects outputs fault) : s.Blames (.ok outputs) (.fault fault) := by
  cases h with
  | undeclared present undeclared _ => exact .undeclared present undeclared
  | missing _ listed _ missing => exact .missing (by simp [listed]) missing

theorem Objects.not_declares (h : s.Objects outputs fault) : ¬ s.Declares outputs := by
  intro hdeclares
  cases h with
  | undeclared present undeclared _ => exact undeclared ((hdeclares _).1 present)
  | missing _ listed _ missing => exact missing ((hdeclares _).2 (by simp [listed]))

/-- Some outputs are let through as they are, or something is objected to in them. -/
theorem checkOutputs_cases (s : BoundStep m) (outputs : Outputs) :
    (s.checkOutputs outputs = .ok outputs ∧ s.Declares outputs) ∨
      ∃ fault, s.checkOutputs outputs = .error fault ∧ s.Objects outputs fault := by
  have hkey (name : String) : outputs.contains name = true ↔ name ∈ outputs.keys := by
    rw [Dictionary.contains_iff, Dictionary.mem_keys_iff]
  rw [checkOutputs]
  cases hundeclared : outputs.keys.find? fun name => !s.signature.hasOutput name with
  | some name =>
    refine .inr ⟨_, rfl, .undeclared (List.mem_of_find?_eq_some hundeclared) ?_ ?_⟩
    · simpa [Signature.hasOutput] using List.find?_some hundeclared
    · intro other hother hno
      have hno : (!s.signature.hasOutput other) = true := by simpa [Signature.hasOutput] using hno
      exact Text.bytes_le_iff.2 (Dictionary.le_of_find?_keys hundeclared other hother hno)
  | none =>
    have hdeclared : ∀ name ∈ outputs.keys, name ∈ s.signature.outputs := by
      simpa [Signature.hasOutput] using hundeclared
    cases hmissing : s.signature.outputs.find? fun name => !outputs.contains name with
    | some name =>
      obtain ⟨hno, front, back, hlisted, hfront⟩ := List.find?_eq_some_iff_append.1 hmissing
      refine .inr ⟨_, rfl, .missing hdeclared hlisted (fun other hother => ?_) ?_⟩
      · simpa [hkey] using hfront other hother
      · simpa [← hkey] using hno
    | none =>
      refine .inl ⟨rfl, fun name => ⟨hdeclared name, fun hname => ?_⟩⟩
      simpa [hkey] using List.find?_eq_none.1 hmissing name hname

theorem conclude_ok_cases (s : BoundStep m) (outputs : Outputs) :
    (s.conclude (.ok outputs) = .ok outputs ∧ s.Declares outputs) ∨
      ∃ fault, s.conclude (.ok outputs) = .error (.fault fault) ∧ s.Objects outputs fault := by
  rw [conclude]
  rcases s.checkOutputs_cases outputs with ⟨hcheck, hdeclares⟩ | ⟨fault, hcheck, hobjects⟩
  · rw [hcheck]
    exact .inl ⟨rfl, hdeclares⟩
  · rw [hcheck]
    exact .inr ⟨fault, rfl, hobjects⟩

/-- A step hands on the outputs of its body if they are the declared ones, and fails otherwise. -/
theorem conclude_cases (s : BoundStep m) (result : Except Trace Outputs) :
    (∃ outputs, result = .ok outputs ∧ s.conclude result = .ok outputs ∧ s.Declares outputs) ∨
      ∃ trace, s.conclude result = .error trace ∧ s.Blames result trace := by
  cases result with
  | error trace => exact .inr ⟨trace, rfl, .body trace⟩
  | ok outputs =>
    rcases s.conclude_ok_cases outputs with ⟨hconclude, hdeclares⟩ | ⟨fault, hconclude, hobjects⟩
    · exact .inl ⟨outputs, rfl, hconclude, hdeclares⟩
    · exact .inr ⟨.fault fault, hconclude, hobjects.blames⟩

end BoundStep

/-! ## Records -/

namespace Transcript

variable {t : Transcript} {name other : String} {started finished : Instant}
  {result : Except Trace Outputs}

theorem steps_record (t : Transcript) (name : String) (started finished : Instant)
    (result : Except Trace Outputs) :
    (t.record name started finished result).steps =
      t.steps ++ [⟨name, .ofExcept started finished result⟩] := by
  cases result <;> rfl

theorem names_record (t : Transcript) (name : String) (started finished : Instant)
    (result : Except Trace Outputs) :
    (t.record name started finished result).steps.map StepRun.name =
      t.steps.map StepRun.name ++ [name] := by
  rw [steps_record, List.map_append, List.map_singleton]

theorem names_skip (t : Transcript) (name : String) :
    (t.skip name).steps.map StepRun.name = t.steps.map StepRun.name ++ [name] := by
  simp [skip]

theorem completed?_record_self (t : Transcript) (name : String) (started finished : Instant)
    (outputs : Outputs) :
    (t.record name started finished (.ok outputs)).completed? name =
      some ⟨name, .completed started finished outputs⟩ := by
  simp [completed?, record]

/-- A completed step is still found when a step of another name has been recorded. -/
theorem completed?_record_of_ne {r : StepRun} (h : t.completed? other = some r)
    (hne : other ≠ name) :
    (t.record name started finished result).completed? other = some r := by
  obtain ⟨i, hi, hr⟩ := Option.bind_eq_some_iff.1 h
  cases result with
  | ok outputs =>
    rw [completed?, record, Dictionary.find?_insert_of_ne _ hne, hi]
    exact getElem?_append_of_eq_some hr _
  | error trace =>
    rw [completed?, record, hi]
    exact getElem?_append_of_eq_some hr _

theorem resolve_output {r : StepRun} (h : t.completed? name = some r) (s : BoundStep m)
    (output : String) : s.resolve t (.output name output) = r.output output := by
  rw [BoundStep.resolve, h]

theorem mem_of_completed? {r : StepRun} (h : t.completed? name = some r) : r ∈ t.steps := by
  obtain ⟨i, -, hr⟩ := Option.bind_eq_some_iff.1 h
  exact List.mem_of_getElem? hr

end Transcript

end Tableflow
