import Tableflow.Proofs.Blueprint.Requirements
import Tableflow.Proofs.Dictionary

/-!
# The bindings of a blueprint

The loops over the edges and the constants make one binding for each (`allBindings`) and decide the
checks of `Blueprint.wiringChecks` while they do so. In a wired blueprint the steps with their
bindings are `boundSteps`: an input is bound to what the one edge or constant that ends at it says
(`find?_bindings_iff`), and the predecessors of a step are the sources of the edges that lead to it
(`mem_predecessors_iff`).
-/

namespace Tableflow

/-- The binding that an edge makes. -/
def Edge.binding (e : Edge) : Binding := ⟨e.target, e.input, .output e.source e.output⟩

/-- The binding that a constant makes. -/
def Constant.binding (c : Constant) : Binding := ⟨c.step, c.input, .constant c.value⟩

/-- The input that is bound. -/
def Binding.port (binding : Binding) : String × String := (binding.step, binding.input)

theorem Pipeline.step?_eq_some_iff {m : Type → Type} {p : Pipeline m} (h : p.stepNames.Nodup)
    {name : String} {s : BoundStep m} : p.step? name = some s ↔ s ∈ p.steps ∧ s.name = name :=
  find?_name_eq_some_iff h

/-- The predecessors of a step are the steps to whose outputs its inputs are bound. -/
theorem BoundStep.mem_predecessors {m : Type → Type} {s : BoundStep m} {name : String} :
    name ∈ s.predecessors ↔
      ∃ input output, s.bindings.find? input = some (.output name output) := by
  simp only [predecessors, Dictionary.mem_keys_ofList, List.map_map, List.mem_map,
    List.mem_filterMap, Dictionary.find?_eq_some_iff]
  constructor
  · rintro ⟨name', ⟨⟨input, source⟩, hmem, hstep⟩, rfl⟩
    cases source with
    | output step output =>
      obtain rfl := Option.some.inj hstep
      exact ⟨input, output, hmem⟩
    | constant value => cases hstep
  · rintro ⟨input, output, hmem⟩
    exact ⟨name, ⟨(input, .output name output), hmem, rfl⟩, rfl⟩

namespace Blueprint

open Check

variable {m : Type → Type}

section Bindings

variable (b : Blueprint m)

/-- The bindings of all edges and constants in the order of their declaration. -/
def allBindings : List Binding := b.edges.map Edge.binding ++ b.constants.map Constant.binding

/-- The steps in the order of their declaration, with their bindings. -/
def boundSteps : List (BoundStep m) := b.steps.map (place b.allBindings)

end Bindings

variable {b : Blueprint m}

/-! ## Names -/

theorem decides_firstRepeated {seen : List String} {before steps : List (NamedStep m)}
    (hseen : ∀ name, name ∈ seen ↔ name ∈ before.map (·.name)) :
    Decides (scan b.nameChecks before steps) (fun _ => True)
      (report ((firstRepeated seen (steps.map (·.name))).map (.duplicateStep b.name))) := by
  induction steps generalizing seen before with
  | nil => exact ⟨pass_nil, trivial⟩
  | cons s steps ih =>
    rw [List.map_cons, firstRepeated]
    refine .cons (fun hnew => ?_) fun hnew => ?_
    · rw [if_pos ((hseen s.name).2 (not_not.1 hnew))]
      rfl
    · rw [if_neg fun hmem => hnew ((hseen s.name).1 hmem)]
      refine ih fun name => ?_
      rw [List.mem_cons, hseen, List.map_append, List.mem_append, or_comm]
      simp

theorem eq_of_name_eq (hnames : b.stepNames.Nodup) {s t : NamedStep m} (hs : s ∈ b.steps)
    (ht : t ∈ b.steps) (h : s.name = t.name) : s = t :=
  List.inj_on_of_nodup_map hnames hs ht h

/-- What is said of the steps of a name is said of the one step that has it. -/
theorem exists_named_iff (hnames : b.stepNames.Nodup) {s : NamedStep m} (hs : s ∈ b.steps)
    (P : NamedStep m → Prop) : (∃ t ∈ b.steps, t.name = s.name ∧ P t) ↔ P s := by
  constructor
  · rintro ⟨t, ht, hname, hP⟩
    rwa [← eq_of_name_eq hnames ht hs hname]
  · exact fun hP => ⟨s, hs, rfl, hP⟩

theorem declaresInput_iff (hnames : b.stepNames.Nodup) {s : NamedStep m} (hs : s ∈ b.steps)
    {input : String} : b.DeclaresInput s.name input ↔ input ∈ s.step.signature.inputs :=
  exists_named_iff hnames hs fun t => input ∈ t.step.signature.inputs

theorem declaresOutput_iff (hnames : b.stepNames.Nodup) {s : NamedStep m} (hs : s ∈ b.steps)
    {output : String} : b.DeclaresOutput s.name output ↔ output ∈ s.step.signature.outputs :=
  exists_named_iff hnames hs fun t => output ∈ t.step.signature.outputs

theorem signatureOf_eq_error {name : String} (h : name ∉ b.stepNames) :
    b.signatureOf name = .error (.unknownStep name) := by
  have hnone : b.steps.find? (fun s => s.name = name) = none := by
    simpa [stepNames] using h
  rw [signatureOf, hnone]

/-- The signature of a declared step is the one whose names count as declared. -/
theorem signatureOf_eq_ok (hnames : b.stepNames.Nodup) {name : String} (h : name ∈ b.stepNames) :
    ∃ signature, b.signatureOf name = .ok signature ∧
      (∀ input, signature.hasInput input = true ↔ b.DeclaresInput name input) ∧
      ∀ output, signature.hasOutput output = true ↔ b.DeclaresOutput name output := by
  obtain ⟨s, hs, rfl⟩ := List.mem_map.1 h
  have hfind : b.steps.find? (fun t => t.name = s.name) = some s :=
    (find?_name_eq_some_iff hnames).2 ⟨hs, rfl⟩
  refine ⟨s.step.signature, by rw [signatureOf, hfind], fun input => ?_, fun output => ?_⟩
  · rw [Signature.hasInput, decide_eq_true_iff, declaresInput_iff hnames hs]
  · rw [Signature.hasOutput, decide_eq_true_iff, declaresOutput_iff hnames hs]

/-! ## Bindings -/

theorem not_eq_true_iff {c : Bool} {p : Prop} (h : c = true ↔ p) : (!c) = true ↔ ¬ p := by
  rw [Bool.not_eq_true', ← h, Bool.not_eq_true]

theorem decides_addBinding {made : List Binding} {target : Signature} {binding : Binding}
    {declared fresh : Prop} (hdeclared : target.hasInput binding.input = true ↔ declared)
    (hfresh : binding.port ∉ made.map Binding.port ↔ fresh) :
    Decides [⟨declared, .unknownInput binding.step binding.input⟩,
        ⟨fresh, .duplicateBinding binding.step binding.input⟩]
      (· = made ++ [binding]) (addBinding made target binding) := by
  have hany : made.any (fun other => other.step = binding.step && other.input = binding.input) =
      true ↔ ¬ fresh := by
    rw [← hfresh, not_not]
    simp only [List.any_eq_true, Bool.and_eq_true, decide_eq_true_iff, List.mem_map,
      Binding.port, Prod.mk.injEq]
  rw [addBinding]
  refine .cons (fun hno => ?_) fun hyes => .cons (fun hold => ?_) fun hnew => ?_
  · rw [if_pos ((not_eq_true_iff hdeclared).2 hno)]
  · rw [if_neg fun h => (not_eq_true_iff hdeclared).1 h hyes, if_pos (hany.2 hold)]
  · rw [if_neg fun h => (not_eq_true_iff hdeclared).1 h hyes, if_neg fun h => hany.1 h hnew]
    exact ⟨pass_nil, rfl⟩

theorem decides_bindEdge (hnames : b.stepNames.Nodup) (before : List Edge) (e : Edge) :
    Decides (b.edgeChecks before e) (· = (before ++ [e]).map Edge.binding)
      (b.bindEdge (before.map Edge.binding) e) := by
  rw [bindEdge]
  refine .cons (fun hsource => ?_) fun hsource => .cons (fun htarget => ?_) fun htarget => ?_
  · rw [signatureOf_eq_error hsource]
    rfl
  · obtain ⟨source, hs, -⟩ := signatureOf_eq_ok hnames hsource
    rw [hs, signatureOf_eq_error htarget]
    rfl
  · obtain ⟨source, hs, -, houtput⟩ := signatureOf_eq_ok hnames hsource
    obtain ⟨target, ht, hinput, -⟩ := signatureOf_eq_ok hnames htarget
    rw [hs, ht]
    change Decides _ _ (if !source.hasOutput e.output then _ else _)
    refine .cons (fun hno => ?_) fun hyes => ?_
    · rw [if_pos ((not_eq_true_iff (houtput e.output)).2 hno)]
    · rw [if_neg fun h => (not_eq_true_iff (houtput e.output)).1 h hyes, List.map_append]
      refine decides_addBinding (hinput e.input) ?_
      rw [List.map_map]
      rfl

theorem decides_bindConstant (hnames : b.stepNames.Nodup) (before : List Constant) (c : Constant) :
    Decides (b.constantChecks before c)
      (· = b.edges.map Edge.binding ++ (before ++ [c]).map Constant.binding)
      (b.bindConstant (b.edges.map Edge.binding ++ before.map Constant.binding) c) := by
  rw [bindConstant]
  refine .cons (fun hstep => ?_) fun hstep => ?_
  · rw [signatureOf_eq_error hstep]
    rfl
  · obtain ⟨target, ht, hinput, -⟩ := signatureOf_eq_ok hnames hstep
    rw [ht, List.map_append, ← List.append_assoc]
    refine decides_addBinding (hinput c.input) ?_
    rw [List.map_append, List.map_map, List.map_map]
    rfl

theorem decides_bindings (hnames : b.stepNames.Nodup) :
    Decides (scan b.edgeChecks [] b.edges ++ scan b.constantChecks [] b.constants)
      (· = b.allBindings) b.bindings := by
  have hedges : Decides (scan b.edgeChecks [] b.edges) (· = b.edges.map Edge.binding)
      (b.edges.foldlM b.bindEdge []) :=
    Decides.foldlM (fun before made => made = before.map Edge.binding)
      (fun before e _ hmade => hmade ▸ decides_bindEdge hnames before e) rfl
  refine hedges.bind fun made _ hmade => ?_
  subst hmade
  refine Decides.foldlM
    (fun before made => made = b.edges.map Edge.binding ++ before.map Constant.binding)
    (fun before c _ hmade => hmade ▸ decides_bindConstant hnames before c) ?_
  rw [List.map_nil, List.append_nil]

/-! ## Placed steps -/

theorem map_port_allBindings : b.allBindings.map Binding.port = b.ports := by
  rw [allBindings, List.map_append, List.map_map, List.map_map]
  rfl

theorem mem_allBindings {step input : String} {source : Source} :
    ⟨step, input, source⟩ ∈ b.allBindings ↔
      (∃ e ∈ b.edges, e.port = (step, input) ∧ source = .output e.source e.output) ∨
        ∃ c ∈ b.constants, c.port = (step, input) ∧ source = .constant c.value := by
  simp only [allBindings, List.mem_append, List.mem_map, Edge.binding, Constant.binding,
    Binding.mk.injEq, Edge.port, Constant.port, Prod.mk.injEq, and_assoc, eq_comm (a := source)]

/-- An input is bound to what the edge or the constant says that ends at it. -/
theorem find?_bindings_iff (h : b.ports.Nodup) {s : NamedStep m} {input : String}
    {source : Source} :
    (place b.allBindings s).bindings.find? input = some source ↔
      ⟨s.name, input, source⟩ ∈ b.allBindings := by
  have hown : ∀ binding ∈ b.allBindings.filter fun binding => binding.step = s.name,
      binding.port = (s.name, binding.input) := by
    intro binding hbinding
    have hstep : binding.step = s.name := by simpa using (List.mem_filter.1 hbinding).2
    rw [Binding.port, hstep]
  have hports : ((b.allBindings.filter fun binding => binding.step = s.name).map
      Binding.port).Nodup :=
    (List.filter_sublist.map Binding.port).nodup (by rwa [map_port_allBindings])
  have hnodup : ((b.allBindings.filter fun binding => binding.step = s.name).map
      fun binding => binding.input).Nodup := by
    refine List.Nodup.of_map (fun input => (s.name, input)) ?_
    rw [List.map_congr_left hown] at hports
    rwa [List.map_map]
  rw [place, Dictionary.find?_ofList_eq_some_iff (by rwa [List.map_map])]
  simp only [List.mem_map, List.mem_filter, decide_eq_true_iff, Prod.mk.injEq]
  constructor
  · rintro ⟨⟨step, input', source'⟩, ⟨hmem, hstep⟩, rfl, rfl⟩
    exact hstep ▸ hmem
  · exact fun hmem => ⟨_, ⟨hmem, rfl⟩, rfl, rfl⟩

theorem contains_bindings_iff (h : b.ports.Nodup) {s : NamedStep m} {input : String} :
    (place b.allBindings s).bindings.contains input = true ↔ (s.name, input) ∈ b.ports := by
  simp only [Dictionary.contains_iff, find?_bindings_iff h, ← map_port_allBindings, List.mem_map]
  constructor
  · rintro ⟨source, hmem⟩
    exact ⟨_, hmem, rfl⟩
  · rintro ⟨⟨step, input', source⟩, hmem, hport⟩
    obtain ⟨rfl, rfl⟩ := Prod.mk.inj hport
    exact ⟨source, hmem⟩

/-- Exactly the declared inputs are bound. -/
theorem mem_ports_iff (h : b.Wired) {step input : String} :
    (step, input) ∈ b.ports ↔ b.DeclaresInput step input := by
  constructor
  · intro hport
    rcases List.mem_append.1 hport with hport | hport
    · obtain ⟨e, he, hport⟩ := List.mem_map.1 hport
      obtain ⟨rfl, rfl⟩ := Prod.mk.inj hport
      exact h.edge_input_declared e he
    · obtain ⟨c, hc, hport⟩ := List.mem_map.1 hport
      obtain ⟨rfl, rfl⟩ := Prod.mk.inj hport
      exact h.constant_input_declared c hc
  · rintro ⟨s, hs, rfl, hin⟩
    exact h.input_bound s hs input hin

/-- The predecessors of a step are the sources of the edges that lead to it. -/
theorem mem_predecessors_iff (h : b.ports.Nodup) {s : NamedStep m} {name : String} :
    name ∈ (place b.allBindings s).predecessors ↔ b.Feeds name s.name := by
  simp only [BoundStep.mem_predecessors, find?_bindings_iff h, mem_allBindings]
  constructor
  · rintro ⟨input, output, ⟨e, he, hport, hsource⟩ | ⟨c, -, -, hsource⟩⟩
    · exact ⟨e, he, (Source.output.inj hsource).1.symm, (Prod.mk.inj hport).1⟩
    · cases hsource
  · rintro ⟨e, he, rfl, htarget⟩
    exact ⟨e.input, e.output, .inl ⟨e, he, by rw [Edge.port, htarget], rfl⟩⟩

theorem decides_unbound (h : b.ports.Nodup) (s : NamedStep m) :
    Decides (s.step.signature.inputs.map (b.inputCheck s)) (fun _ => True)
      (report (unbound? (place b.allBindings s))) := by
  refine decides_find fun input _ => ?_
  rw [Bool.not_eq_true', ← Bool.not_eq_true, contains_bindings_iff h]
  rfl

end Blueprint

end Tableflow
