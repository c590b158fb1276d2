import Mathlib.Data.List.Nodup
import Tableflow.Fault

/-!
# Checks in turn

A `Check` is something that has to hold, with the fault that reports that it does not. A computation
`Decides` a list of checks if it returns only when all of them hold and otherwise ends in the fault
of the first one that does not. The two outcomes exclude each other, so a computation that decides
a list of checks is told by it completely: `Decides.exists_ok_iff` says when it returns, and
`Decides.error_iff` which fault it ends in.

`scan` lists the checks of the elements of a list in turn, where the checks of an element may look
at the elements before it; `Decides.foldlM` is the rule for the loop that makes them.
-/

namespace Tableflow

/-- Something that has to hold, and the fault that reports that it does not. -/
structure Check where
  holds : Prop
  fault : Fault

namespace Check

/-- A fault reports the first check of a list that does not hold. -/
inductive FirstFailure : List Check → Fault → Prop
  | here {c : Check} {checks : List Check} : ¬ c.holds → FirstFailure (c :: checks) c.fault
  | later {c : Check} {checks : List Check} {fault : Fault} :
      c.holds → FirstFailure checks fault → FirstFailure (c :: checks) fault

/-- All checks of a list hold. -/
def Pass (checks : List Check) : Prop := ∀ c ∈ checks, c.holds

/-- A computation returns a value with a property if all checks of a list hold, and ends in the
fault of the first one that does not otherwise. -/
def Decides {α : Type} (checks : List Check) (P : α → Prop) : Except Fault α → Prop
  | .ok a => Pass checks ∧ P a
  | .error fault => FirstFailure checks fault

/-- The checks of the elements of a list in turn, where `check` is given the elements before. -/
def scan {α : Type} (check : List α → α → List Check) (before : List α) : List α → List Check
  | [] => []
  | a :: rest => check before a ++ scan check (before ++ [a]) rest

theorem mem_scan {α : Type} {check : List α → α → List Check} {before rest : List α} {c : Check}
    (h : c ∈ scan check before rest) : ∃ front a, c ∈ check front a := by
  induction rest generalizing before with
  | nil => cases h
  | cons a rest ih =>
    rcases List.mem_append.1 h with h | h
    · exact ⟨before, a, h⟩
    · exact ih h

/-! ## Passing -/

@[simp] theorem pass_nil : Pass [] := fun _ h => nomatch h

@[simp] theorem pass_cons {c : Check} {checks : List Check} :
    Pass (c :: checks) ↔ c.holds ∧ Pass checks := List.forall_mem_cons

@[simp] theorem pass_append {front back : List Check} :
    Pass (front ++ back) ↔ Pass front ∧ Pass back := List.forall_mem_append

@[simp] theorem pass_map {α : Type} {l : List α} {f : α → Check} :
    Pass (l.map f) ↔ ∀ a ∈ l, (f a).holds := List.forall_mem_map

@[simp] theorem pass_flatMap {α : Type} {l : List α} {f : α → List Check} :
    Pass (l.flatMap f) ↔ ∀ a ∈ l, Pass (f a) := List.forall_mem_flatMap

/-- Where the checks of an element are about the element alone and that its key is new, a list
passes if all elements pass and the keys are distinct. -/
theorem pass_scan_iff {α γ : Type} {check : List α → α → List Check} (alone : α → Prop)
    (key : α → γ) (seen : List γ)
    (hcheck : ∀ before a, Pass (check before a) ↔ alone a ∧ key a ∉ seen ++ before.map key)
    {before rest : List α} (hseen : (seen ++ before.map key).Nodup) :
    Pass (scan check before rest) ↔
      (∀ a ∈ rest, alone a) ∧ (seen ++ (before ++ rest).map key).Nodup := by
  induction rest generalizing before with
  | nil => simpa [scan] using hseen
  | cons a rest ih =>
    rw [scan, pass_append, hcheck, List.forall_mem_cons]
    by_cases hnew : key a ∈ seen ++ before.map key
    · refine iff_of_false (fun h => h.1.2 hnew) fun h => ?_
      have hnodup : ((seen ++ before.map key) ++ key a :: rest.map key).Nodup := by simpa using h.2
      exact (List.nodup_append.1 hnodup).2.2 _ hnew _ List.mem_cons_self rfl
    · have hseen' : (seen ++ (before ++ [a]).map key).Nodup := by
        rw [List.map_append, ← List.append_assoc, List.map_singleton, ← List.concat_eq_append]
        exact hseen.concat hnew
      rw [ih hseen', List.append_assoc, List.singleton_append]
      exact ⟨fun h => ⟨⟨h.1.1, h.2.1⟩, h.2.2⟩, fun h => ⟨⟨h.1.1, hnew⟩, h.1.2, h.2⟩⟩

/-! ## First failures -/

namespace FirstFailure

variable {checks front back : List Check} {fault other : Fault}

theorem not_pass (h : FirstFailure checks fault) : ¬ Pass checks := by
  induction h with
  | here hc => exact fun hpass => hc (pass_cons.1 hpass).1
  | later _ _ ih => exact fun hpass => ih (pass_cons.1 hpass).2

theorem unique (h : FirstFailure checks fault) (h' : FirstFailure checks other) :
    fault = other := by
  induction h with
  | here hc =>
    cases h' with
    | here => rfl
    | later hc' => exact absurd hc' hc
  | later hc _ ih =>
    cases h' with
    | here hc' => exact absurd hc hc'
    | later _ h' => exact ih h'

theorem mem (h : FirstFailure checks fault) : ∃ c ∈ checks, ¬ c.holds ∧ c.fault = fault := by
  induction h with
  | here hc => exact ⟨_, List.mem_cons_self, hc, rfl⟩
  | later _ _ ih =>
    obtain ⟨c, hmem, hc⟩ := ih
    exact ⟨c, List.mem_cons_of_mem _ hmem, hc⟩

theorem append_left (h : FirstFailure front fault) : FirstFailure (front ++ back) fault := by
  induction h with
  | here hc => exact .here hc
  | later hc _ ih => exact .later hc ih

theorem append_right (hpass : Pass front) (h : FirstFailure back fault) :
    FirstFailure (front ++ back) fault := by
  induction front with
  | nil => exact h
  | cons c front ih =>
    obtain ⟨hc, hpass⟩ := pass_cons.1 hpass
    exact .later hc (ih hpass)

end FirstFailure

/-! ## Deciding -/

namespace Decides

variable {α β : Type} {checks front back : List Check} {P : α → Prop} {Q : β → Prop}
  {x : Except Fault α} {y : Except Fault β}

theorem exists_ok_iff (h : Decides checks P x) : (∃ a, x = .ok a) ↔ Pass checks := by
  cases x with
  | ok a => exact iff_of_true ⟨a, rfl⟩ h.1
  | error fault => exact iff_of_false (by simp) (FirstFailure.not_pass h)

theorem error_iff (h : Decides checks P x) {fault : Fault} :
    x = .error fault ↔ FirstFailure checks fault := by
  cases x with
  | ok a => exact iff_of_false (by simp) fun hfail => hfail.not_pass h.1
  | error other =>
    rw [Except.error.injEq]
    exact ⟨fun he => he ▸ h, fun hfail => FirstFailure.unique h hfail⟩

theorem of_ok {a : α} (h : Decides checks P x) (hx : x = .ok a) : Pass checks ∧ P a := by
  subst hx
  exact h

/-- A computation that makes one check first. -/
theorem cons {c : Check} (hfail : ¬ c.holds → x = .error c.fault)
    (hpass : c.holds → Decides checks P x) : Decides (c :: checks) P x := by
  by_cases hc : c.holds
  · cases x with
    | ok a => exact ⟨pass_cons.2 ⟨hc, (hpass hc).1⟩, (hpass hc).2⟩
    | error fault => exact .later hc (hpass hc)
  · rw [hfail hc]
    exact .here hc

/-- A computation that makes some checks by another one first. -/
theorem append (h : Decides front P x) (hfail : ∀ fault, x = .error fault → y = .error fault)
    (hpass : ∀ a, x = .ok a → Pass front → P a → Decides back Q y) :
    Decides (front ++ back) Q y := by
  cases x with
  | ok a =>
    have hy := hpass a rfl h.1 h.2
    cases y with
    | ok b => exact ⟨pass_append.2 ⟨h.1, hy.1⟩, hy.2⟩
    | error fault => exact .append_right h.1 hy
  | error fault =>
    rw [hfail fault rfl]
    exact .append_left h

theorem bind {f : α → Except Fault β} (h : Decides front P x)
    (hf : ∀ a, Pass front → P a → Decides back Q (f a)) : Decides (front ++ back) Q (x >>= f) := by
  refine h.append (fun fault hx => ?_) fun a hx hpass ha => ?_
  · subst hx
    rfl
  · subst hx
    exact hf a hpass ha

/-- The rule for a loop that makes the checks of each element in turn: the property of what it has
made so far may speak of the elements that it has seen. -/
theorem foldlM {check : List α → α → List Check} (made : List α → β → Prop)
    {f : β → α → Except Fault β} {before rest : List α} {b : β}
    (hf : ∀ before a b, made before b →
      Decides (check before a) (made (before ++ [a])) (f b a))
    (hb : made before b) :
    Decides (scan check before rest) (made (before ++ rest)) (rest.foldlM f b) := by
  induction rest generalizing before b with
  | nil => exact ⟨pass_nil, by rwa [List.append_nil]⟩
  | cons a rest ih =>
    rw [List.foldlM_cons, scan]
    refine (hf before a b hb).bind fun b' _ hb' => ?_
    have hrest := ih hb'
    rwa [List.append_assoc, List.singleton_append] at hrest

end Decides

/-! ## Faults that are looked for -/

/-- A fault that was found, or none, as a computation. -/
def report : Option Fault → Except Fault Unit
  | none => .ok ()
  | some fault => .error fault

/-- A computation that goes on if nothing is found that would be a fault. -/
theorem Decides.after_report {α : Type} {front back : List Check} {P : α → Prop}
    {found : Option Fault} {x : Except Fault α}
    (h : Decides front (fun _ => True) (report found))
    (hsome : ∀ fault, found = some fault → x = .error fault)
    (hnone : found = none → Pass front → Decides back P x) : Decides (front ++ back) P x := by
  cases found with
  | none => exact h.append (fun _ hfault => nomatch hfault) fun _ _ hpass _ => hnone rfl hpass
  | some fault =>
    rw [hsome fault rfl]
    exact FirstFailure.append_left h

theorem decides_find {α : Type} {check : α → Check} {p : α → Bool} {l : List α}
    (h : ∀ a ∈ l, p a = true ↔ ¬ (check a).holds) :
    Decides (l.map check) (fun _ => True) (report ((l.find? p).map fun a => (check a).fault)) := by
  induction l with
  | nil => exact ⟨pass_nil, trivial⟩
  | cons a l ih =>
    have ha := h a List.mem_cons_self
    rw [List.map_cons]
    refine .cons (fun hc => ?_) fun hc => ?_
    · rw [List.find?_cons_of_pos (ha.2 hc)]
      rfl
    · rw [List.find?_cons_of_neg fun hp => ha.1 hp hc]
      exact ih fun a' ha' => h a' (List.mem_cons_of_mem _ ha')

theorem decides_findSome {α : Type} {checks : α → List Check} {f : α → Option Fault} {l : List α}
    (h : ∀ a ∈ l, Decides (checks a) (fun _ => True) (report (f a))) :
    Decides (l.flatMap checks) (fun _ => True) (report (l.findSome? f)) := by
  induction l with
  | nil => exact ⟨pass_nil, trivial⟩
  | cons a l ih =>
    rw [List.flatMap_cons, List.findSome?_cons]
    refine (h a List.mem_cons_self).append (fun fault hfault => ?_) fun _ hnone _ _ => ?_
    · cases hfa : f a with
      | none => simp [hfa, report] at hfault
      | some other => rwa [hfa] at hfault
    · cases hfa : f a with
      | none => exact ih fun a' ha' => h a' (List.mem_cons_of_mem _ ha')
      | some other => simp [hfa, report] at hnone

end Check

end Tableflow
