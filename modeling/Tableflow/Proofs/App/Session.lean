import Tableflow.Proofs.App.Program
import Tableflow.Proofs.Files.Tree

/-!
# Sessions of the program

A session is the program on a tree of files, with a terminal and a clock. Observing what the
pipeline depends on changes nothing but the clock (`run_observe`), so a session that ends before its
run has completed leaves no trace. Saving a page prints nothing (`Quiet`) and ends with the file in
its place (`Saves`), and the record has another name than the page, so a session that ends well
leaves its comparison and its run as they were printed and written (`delivered_of_deliver`). Both
are joined in `play_allOrNothing`.
-/

namespace Tableflow

open Json (Value)
open DataStatistics (observe outcome comparison)

/-- What a session of the program can change. -/
structure Session where
  /-- What has been printed. -/
  printed : String
  files : FileTree
  /-- How often the clock has been read. -/
  readings : Nat

namespace Session

/-- Operations on files are done on the files of a session. -/
instance : MonadLift (StateM FileTree) (StateM Session) where
  monadLift operation := modifyGet fun w =>
    let done := (operation.run w.files).run
    (done.1, { w with files := done.2 })

/-- A terminal, a clock and an identifier, beside the variables of a process. -/
def surroundings (process : String → Option String) (id : RunId) (clock : Nat → Instant) :
    Surroundings (StateM Session) where
  getVariable name := pure (process name)
  print text := modify fun w => { w with printed := w.printed ++ text }
  newId := pure id
  now := modifyGet fun w => (clock w.readings, { w with readings := w.readings + 1 })

/-- The program in a session, with the content of the file of variables if there is one: how it
ends, and what it leaves. -/
def play (process : String → Option String) (envFile : Option ByteArray) (id : RunId)
    (clock : Nat → Instant) (before : Session) : Except Ending Unit × Session :=
  ((Program.run (surroundings process id clock) envFile).run.run before).run

/-- The second part of a program works on the session that the first part leaves. -/
theorem run_bind {α β : Type} (x : StateM Session α) (f : α → StateM Session β) (w : Session) :
    (x >>= f).run w = (f (x.run w).1).run (x.run w).2 := rfl

/-! ## Loading -/

/-- What is loaded with some settings. -/
def loaded (settings : Settings) (files : FileTree) : Except Fault Split :=
  match settings.source with
  | some file => Provider.verdict file.path file.label ',' settings.split
      ((files.read file.path).bind FileSystem.decode)
  | none => Provider.splitLoaded settings.split Iris.load

variable {process : String → Option String} {envFile : Option ByteArray} {id : RunId}
  {clock : Nat → Instant} (settings : Settings) (w : Session)

theorem run_load : (Program.provider settings : Provider (StateM Session)).load.run w =
    (loaded settings w.files, w) := by
  rw [Program.provider, loaded]
  cases settings.source with
  | none => rfl
  | some file =>
    simp only [Provider.load_csv]
    rfl

variable (process id clock) in
/-- Observing reads the clock and changes nothing else. -/
theorem run_observe : ∃ seen readings,
    (observe (Program.provider settings) (surroundings process id clock).now).run w =
      (seen, { w with readings }) ∧ seen.loaded = loaded settings w.files := by
  have hnow : ∀ w : Session, (surroundings process id clock).now.run w =
      pure (clock w.readings, { w with readings := w.readings + 1 }) := fun _ => rfl
  simp only [observe, StateT.run_bind, hnow, pure_bind, run_load]
  cases loaded settings w.files <;> exact ⟨_, _, rfl, rfl⟩

/-! ## Writing -/

/-- A program that prints nothing. -/
def Quiet {α : Type} (x : StateM Session α) : Prop := ∀ w, (x.run w).2.printed = w.printed

namespace Quiet

variable {α β : Type}

theorem pure (a : α) : Quiet (Pure.pure a) := fun _ => rfl

theorem bind {x : StateM Session α} {f : α → StateM Session β} (hx : Quiet x)
    (hf : ∀ a, Quiet (f a)) : Quiet (x >>= f) :=
  fun w => (hf _ _).trans (hx w)

theorem lift (operation : StateM FileTree α) : Quiet (liftM operation) := fun _ => rfl

theorem ensureDirectory (path : String) : Quiet (FileSystem.ensureDirectory path) := by
  refine (lift _).bind fun made => ?_
  cases made with
  | ok _ => exact pure _
  | error fault => exact (lift _).bind fun _ => pure _

theorem ensureDirectories (fuel : Nat) (path : String) :
    Quiet (FileSystem.ensureDirectories fuel path) := by
  induction fuel generalizing path with
  | zero => exact pure _
  | succ fuel ih =>
    rw [FileSystem.ensureDirectories]
    split
    · exact pure _
    · refine (ensureDirectory path).bind fun made => ?_
      split
      · split
        · exact pure _
        · refine (ih _).bind fun above => ?_
          split
          · exact ensureDirectory path
          · exact pure _
      · exact pure _

end Quiet

/-- Writing a text is writing its bytes to the files. -/
theorem run_writeText (path content : String) :
    (FileSystem.writeText path content : StateM Session _).run w =
      match w.files.write path content.toUTF8 with
      | .ok files => (.ok (), { w with files })
      | .error fault => (.error fault, w) := by
  have hrun : (FileSystem.writeText path content : StateM Session _).run w =
      let done := ((FileSystem.writeText path content : StateM FileTree _).run w.files).run
      (done.1, { w with files := done.2 }) := rfl
  have hchange : ((FileSystem.writeText path content : StateM FileTree _).run w.files).run =
      match w.files.write path content.toUTF8 with
      | .ok files => (.ok (), files)
      | .error fault => (.error fault, w.files) := rfl
  rw [hrun, hchange]
  cases w.files.write path content.toUTF8 <;> rfl

/-- A program leaves a text of some content at a path, if it returns without a fault. -/
def Saves {ε : Type} (path content : String) (x : StateM Session (Except ε Unit)) : Prop :=
  ∀ w, (x.run w).1 = .ok () →
    ∃ files : FileTree, files.write path content.toUTF8 = .ok (x.run w).2.files

namespace Saves

variable {α ε ε' : Type} {path content : String}

theorem error (e : ε) : Saves path content (pure (.error e)) := fun _ h => nomatch h

theorem bind {x : StateM Session α} {f : α → StateM Session (Except ε Unit)}
    (hf : ∀ a, Saves path content (f a)) : Saves path content (x >>= f) :=
  fun _ h => hf _ _ h

theorem mapError {x : StateM Session (Except ε Unit)} (hx : Saves path content x) (f : ε → ε') :
    Saves path content (x >>= fun written => pure (written.mapError f)) := by
  intro w h
  refine hx w ?_
  have h : (x.run w).1.mapError f = .ok () := h
  cases hwritten : (x.run w).1 with
  | ok _ => rfl
  | error e =>
    rw [hwritten] at h
    cases h

theorem writeText (path content : String) :
    Saves path content (FileSystem.writeText path content) := by
  intro w h
  rw [run_writeText] at h ⊢
  cases hwrite : w.files.write path content.toUTF8 with
  | ok files => exact ⟨w.files, hwrite⟩
  | error fault =>
    rw [hwrite] at h
    cases h

theorem writeFile (path content : String) : Saves path content (writeFile path content) :=
  (writeText path content).mapError _

end Saves

theorem quiet_createDirectories (path : String) : Quiet (createDirectories path) :=
  (Quiet.ensureDirectories _ path).bind fun _ => .pure _

theorem quiet_writeFile (path content : String) : Quiet (writeFile path content) :=
  (Quiet.lift _).bind fun _ => .pure _

theorem quiet_save (v : Visualization) (path : String) : Quiet (v.save path) := by
  rw [Visualization.save]
  split
  · exact quiet_writeFile path v.html
  · refine (quiet_createDirectories _).bind fun made => ?_
    split
    · exact .pure _
    · exact quiet_writeFile path v.html

theorem saves_save (v : Visualization) (path : String) : Saves path v.html (v.save path) := by
  rw [Visualization.save]
  split
  · exact .writeFile path v.html
  · refine .bind fun made => ?_
    split
    · exact .error _
    · exact .writeFile path v.html

/-! ## Names of files -/

theorem slash_notMem_digits (id : RunId) : '/' ∉ id.digits := by
  have hdigit : ∀ d < 16, Nat.digitChar d ≠ '/' := by decide
  rw [RunId.digits, List.mem_map]
  rintro ⟨i, -, hi⟩
  exact hdigit _ (Nat.mod_lt _ (by decide)) hi

theorem slash_notMem_text (id : RunId) : '/' ∉ id.text.toList := by
  have hpart : ∀ first count, '/' ∉ (id.digits.drop first).take count := fun _ _ h =>
    slash_notMem_digits id (List.mem_of_mem_drop (List.mem_of_mem_take h))
  simp [RunId.text, hpart, -List.drop_zero]

variable (id) in
theorem endsIn_page : FileTree.EndsIn
    (Path.join settings.outputDirectory (id.text ++ ".html")) (id.text ++ ".html") := by
  refine FileTree.endsIn_join _ (by simp) ?_
  rw [String.toList_append, List.mem_append, not_or]
  exact ⟨slash_notMem_text id, by decide⟩

theorem endsIn_record : FileTree.EndsIn
    (Path.join settings.outputDirectory Program.recordName) Program.recordName :=
  FileTree.endsIn_join _ (by decide) (by decide)

theorem page_ne_record (id : RunId) : id.text ++ ".html" ≠ Program.recordName := by
  intro h
  have hlast := congrArg (fun name => name.toList.getLast?) h
  simp [Program.recordName] at hlast

/-! ## Delivering -/

/-- A field of an object. -/
def field? (name : String) : Value → Option Value
  | .object members => members.lookup name
  | _ => none

/-- A value tells of a run with some identifier, status and steps. -/
structure Summarizes (value : Value) (id : RunId) (status : RunStatus) (stepNames : List String) :
    Prop where
  id_eq : field? "id" value = some (.string id.text)
  status_eq : field? "status" value = some (.string status.word)
  steps_eq : ∃ steps, field? "steps" value = some (.array steps) ∧
    steps.map (field? "name") = stepNames.map fun name => some (.string name)

theorem summarizes_summary (run : Run) :
    Summarizes run.summary run.id run.status (run.steps.map StepRun.name) where
  id_eq := rfl
  status_eq := rfl
  steps_eq := ⟨run.steps.map StepRun.summary, rfl, by simp only [List.map_map]; rfl⟩

/-- What has been delivered of a run. -/
structure Delivered (settings : Settings) (run : Run) (c : Comparison) (before after : Session) :
    Prop where
  printed : after.printed = before.printed ++ c.renderText ++ "\n"
  page : after.files.read (Path.join settings.outputDirectory (run.id.text ++ ".html")) =
    .ok c.renderHtml.toUTF8
  record : after.files.read (Path.join settings.outputDirectory "runs.json") =
    .ok (Value.array [run.summary]).pretty.toUTF8

variable {settings w}

theorem html_ofComparison (step : String) (c : Comparison) :
    (Visualization.ofComparison step c).html = c.renderHtml := by
  rw [Visualization.ofComparison]

/-- What is delivered without a fault is printed, and the page and the record are written in
turn. -/
theorem writes_of_deliver {run : Run} {c : Comparison}
    (h : ((Program.deliver (surroundings process id clock) settings run c).run w).1 = .ok ()) :
    ∃ made saved written : FileTree,
      made.write (Path.join settings.outputDirectory (run.id.text ++ ".html"))
        c.renderHtml.toUTF8 = .ok saved ∧
      saved.write (Path.join settings.outputDirectory Program.recordName)
        (Value.array [run.summary]).pretty.toUTF8 = .ok written ∧
      ((Program.deliver (surroundings process id clock) settings run c).run w).2.printed =
        w.printed ++ (c.renderText ++ "\n") ∧
      ((Program.deliver (surroundings process id clock) settings run c).run w).2.files =
        written := by
  have hprint : ∀ text, ((surroundings process id clock).print text).run w =
      ((), { w with printed := w.printed ++ text }) := fun _ => rfl
  rw [Program.deliver, run_bind, hprint, run_bind] at h ⊢
  have hprinted := quiet_save (.ofComparison DataStatistics.visualizer c)
    (Path.join settings.outputDirectory (run.id.text ++ ".html"))
    { w with printed := w.printed ++ (c.renderText ++ "\n") }
  have hpage := saves_save (.ofComparison DataStatistics.visualizer c)
    (Path.join settings.outputDirectory (run.id.text ++ ".html"))
    { w with printed := w.printed ++ (c.renderText ++ "\n") }
  -- the session after the page has been saved, or not
  generalize StateT.run ((Visualization.ofComparison DataStatistics.visualizer c).save
    (Path.join settings.outputDirectory (run.id.text ++ ".html")) : StateM Session _) _ = shown
    at h hprinted hpage ⊢
  obtain ⟨_ | _, saved⟩ := shown
  · cases h
  · obtain ⟨made, hpage⟩ := hpage rfl
    rw [html_ofComparison] at hpage
    simp only [run_bind, run_writeText] at h ⊢
    cases hrecord : saved.files.write (Path.join settings.outputDirectory Program.recordName)
      (Value.array [run.summary]).pretty.toUTF8 with
    | error fault =>
      rw [hrecord] at h
      cases h
    | ok written => exact ⟨made, saved.files, written, hpage, hrecord, hprinted, rfl⟩

/-- What is delivered without a fault is all there. -/
theorem delivered_of_deliver {run : Run} {c : Comparison}
    (h : ((Program.deliver (surroundings process id clock) settings run c).run w).1 = .ok ()) :
    Delivered settings run c w
      ((Program.deliver (surroundings process id clock) settings run c).run w).2 := by
  obtain ⟨made, saved, written, hpage, hrecord, hprinted, hfiles⟩ := writes_of_deliver h
  constructor
  · rw [hprinted, String.append_assoc]
  · rw [hfiles]
    exact FileTree.read_of_write_of_write hpage hrecord (endsIn_page run.id settings)
      (endsIn_record settings) (page_ne_record run.id)
  · rw [hfiles]
    exact FileTree.read_of_write hrecord

/-! ## All or nothing -/

/-- What a session comes to. -/
structure AllOrNothing (env : Dictionary String) (id : RunId) (before : Session)
    (result : Except Ending Unit) (after : Session) : Prop where
  /-- Settings that are not accepted end the session at once. -/
  rejected : ∀ defect, Settings.ofLookup env.find? = .error defect →
    result = .error (.app (.config defect)) ∧ after = before
  /-- A fault of the data ends the session with nothing printed and all files as they were. -/
  failed : ∀ settings fault, Settings.ofLookup env.find? = .ok settings →
    loaded settings before.files = .error fault →
    result = .error (.fault (.stepFailed id "importer" (.fault fault))) ∧
      after.printed = before.printed ∧ after.files = before.files
  /-- What is wrong with a file of data is told by its bytes. -/
  verdict : ∀ settings file, settings.source = some file →
    CsvVerdict file.path file.label ',' settings.split (before.files.read file.path)
      (loaded settings before.files)
  /-- A session that ends well shows one run. -/
  succeeded : result = .ok () → ∃ settings split run,
    Settings.ofLookup env.find? = .ok settings ∧ loaded settings before.files = .ok split ∧
      run.id = id ∧ Summarizes run.summary id .completed ["importer", "facets_visualizer"] ∧
      Delivered settings run (comparison split) before after

theorem csvVerdict_loaded {file : LabeledFile} (h : settings.source = some file)
    (files : FileTree) :
    CsvVerdict file.path file.label ',' settings.split (files.read file.path)
      (loaded settings files) := by
  rw [loaded, h]
  exact Provider.csvVerdict ..

/-- With settings that are accepted, a session observes what its pipeline depends on and goes on
with it. -/
theorem play_of_accepted
    (h : Settings.ofLookup (Program.effective process envFile).find? = .ok settings) :
    ∃ seen readings, seen.loaded = loaded settings w.files ∧
      play process envFile id clock w =
        (Program.finish (surroundings process id clock) settings id seen).run
          { w with readings } := by
  obtain ⟨seen, readings, hobserve, hloaded⟩ := run_observe process id clock settings w
  have hnewId : (surroundings process id clock).newId.run w = (id, w) := rfl
  refine ⟨seen, readings, hloaded, ?_⟩
  rw [play, Program.run_eq (fun _ => rfl), h]
  simp only [run_bind, hnewId, hobserve]
  rfl

/-- The effects of a session are those of its run: with settings that are not accepted, or with
data that cannot be loaded, there are none, and if all goes well they tell of one run. -/
theorem play_allOrNothing (process : String → Option String) (envFile : Option ByteArray)
    (id : RunId) (clock : Nat → Instant) (before : Session) :
    AllOrNothing (Program.effective process envFile) id before
      (play process envFile id clock before).1 (play process envFile id clock before).2 := by
  cases hsettings : Settings.ofLookup (Program.effective process envFile).find? with
  | error defect =>
    have hplay : play process envFile id clock before =
        (.error (.app (.config defect)), before) := by
      rw [play, Program.run_eq (fun _ => rfl), hsettings]
      rfl
    rw [hplay]
    exact ⟨by simp [hsettings], by simp [hsettings], fun _ _ h => csvVerdict_loaded h _, by simp⟩
  | ok settings =>
    obtain ⟨seen, readings, hloaded, hplay⟩ := play_of_accepted hsettings
    rw [hplay, Program.finish, hloaded]
    cases hload : loaded settings before.files with
    | error fault =>
      refine ⟨by simp [hsettings], fun settings' fault' h hfault => ?_,
        fun _ _ h => csvVerdict_loaded h _, fun h => nomatch h⟩
      obtain rfl := Except.ok.inj (hsettings.symm.trans h)
      obtain rfl := Except.error.inj (hload.symm.trans hfault)
      exact ⟨rfl, rfl, rfl⟩
    | ok split =>
      refine ⟨by simp [hsettings], fun settings' fault' h hfault => ?_,
        fun _ _ h => csvVerdict_loaded h _, fun h => ?_⟩
      · obtain rfl := Except.ok.inj (hsettings.symm.trans h)
        exact nomatch hload.symm.trans hfault
      · have hreports := DataStatistics.reports_outcome Program.pipelineName id seen
        have hsummary := summarizes_summary (outcome Program.pipelineName id seen).run
        rw [hreports.identified.1, (hreports.split split (hloaded.trans hload)).completed.1,
          hreports.steps] at hsummary
        obtain ⟨hprinted, hpage, hrecord⟩ := delivered_of_deliver h
        exact ⟨settings, split, _, hsettings, hload, hreports.identified.1, hsummary,
          hprinted, hpage, hrecord⟩

end Session

end Tableflow
