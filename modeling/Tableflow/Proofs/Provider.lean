import Tableflow.Provider

/-!
# Loading from a file

What a provider of delimited text loads is told by the bytes of its file alone. There is one kind of
fault for each of the three things that can be wrong: the file holds no text that can be read, the
text does not spell a table with the column of labels, or the table cannot be split
(`CsvVerdict`, `load_csv`).
-/

namespace Tableflow

/-- The bytes that reading a file led to spell a text. -/
def ReadsAs (read : Except FileFault ByteArray) (text : String) : Prop :=
  ∃ bytes, read = .ok bytes ∧ String.fromUTF8? bytes = some text

/-- There is no text in a file: it cannot be read, or its bytes spell none. -/
inductive Unreadable (read : Except FileFault ByteArray) : FileFault → Prop
  | unread {reason : FileFault} : read = .error reason → Unreadable read reason
  | notText {bytes : ByteArray} : read = .ok bytes → String.fromUTF8? bytes = none →
    Unreadable read .notText

/-- What is loaded from a file of delimited text, by what reading the file led to. -/
structure CsvVerdict (path label : String) (delimiter : Char) (config : SplitConfig)
    (read : Except FileFault ByteArray) (loaded : Except Fault Split) : Prop where
  unavailable : ∀ source reason, loaded = .error (.datasetUnavailable source reason) ↔
    source = path ∧ Unreadable read reason
  rejected : ∀ defect, loaded = .error (.invalidDataset defect) ↔
    ∃ text, ReadsAs read text ∧ Csv.parseLabeled text delimiter label = .error defect
  unsplit : ∀ defect, loaded = .error (.invalidSplit defect) ↔
    ∃ text features labels, ReadsAs read text ∧
      Csv.parseLabeled text delimiter label = .ok (features, labels) ∧
      Split.of features labels config = .error defect
  split : ∀ s, loaded = .ok s ↔
    ∃ text features labels, ReadsAs read text ∧
      Csv.parseLabeled text delimiter label = .ok (features, labels) ∧
      Split.of features labels config = .ok s

namespace Provider

variable {m : Type → Type} [Monad m] {read : Except FileFault ByteArray}

theorem readsAs_iff {text : String} :
    ReadsAs read text ↔ read.bind FileSystem.decode = .ok text := by
  cases read with
  | error reason => simp [ReadsAs, Except.bind]
  | ok bytes =>
    cases htext : String.fromUTF8? bytes <;>
      simp [ReadsAs, Except.bind, FileSystem.decode, htext]

theorem unreadable_iff {reason : FileFault} :
    Unreadable read reason ↔ read.bind FileSystem.decode = .error reason := by
  constructor
  · rintro (rfl | ⟨rfl, htext⟩)
    · rfl
    · simp only [Except.bind, FileSystem.decode, htext]
  · cases read with
    | error other => exact fun h => .unread (congrArg _ (Except.error.inj h))
    | ok bytes =>
      simp only [Except.bind, FileSystem.decode]
      cases htext : String.fromUTF8? bytes with
      | some text => exact fun h => nomatch h
      | none =>
        rintro ⟨⟩
        exact .notText rfl htext

/-- What is loaded from a text, or because there is none. -/
def verdict (path label : String) (delimiter : Char) (config : SplitConfig) :
    Except FileFault String → Except Fault Split
  | .ok text => splitLoaded config (Csv.parseLabeled text delimiter label)
  | .error reason => .error (.datasetUnavailable path reason)

section

variable {config : SplitConfig} {features : Table} {labels : Series}

theorem splitLoaded_error (defect : TableDefect) :
    splitLoaded config (.error defect) = .error (.invalidDataset defect) := rfl

theorem splitLoaded_of_error {defect : SplitDefect}
    (h : Split.of features labels config = .error defect) :
    splitLoaded config (.ok (features, labels)) = .error (.invalidSplit defect) :=
  congrArg (Except.mapError Fault.invalidSplit) h

theorem splitLoaded_of_ok {s : Split} (h : Split.of features labels config = .ok s) :
    splitLoaded config (.ok (features, labels)) = .ok s :=
  congrArg (Except.mapError Fault.invalidSplit) h

end

theorem csvVerdict (path label : String) (delimiter : Char) (config : SplitConfig)
    (read : Except FileFault ByteArray) :
    CsvVerdict path label delimiter config read
      (verdict path label delimiter config (read.bind FileSystem.decode)) := by
  constructor
  all_goals simp only [readsAs_iff, unreadable_iff]
  all_goals cases read.bind FileSystem.decode with
    | error reason => simp [verdict, eq_comm]
    | ok text =>
      cases hparse : Csv.parseLabeled text delimiter label with
      | error defect => simp [verdict, hparse, splitLoaded_error]
      | ok parts =>
        obtain ⟨features, labels⟩ := parts
        cases hsplit : Split.of features labels config with
        | error defect => simp [verdict, hparse, hsplit, splitLoaded_of_error hsplit, and_assoc]
        | ok s => simp [verdict, hparse, hsplit, splitLoaded_of_ok hsplit, and_assoc]

/-- What is loaded from a file of delimited text is told by its bytes. -/
theorem load_csv [LawfulMonad m] [FileSystem m] (path label : String) (delimiter : Char)
    (config : SplitConfig) :
    (csv path label delimiter config : Provider m).load =
      (fun read => verdict path label delimiter config (read.bind FileSystem.decode)) <$>
        FileSystem.readBytes path := by
  simp only [csv, FileSystem.readText, bind_pure_comp, bind_map_left]
  rw [← bind_pure_comp]
  refine bind_congr fun read => ?_
  cases read.bind FileSystem.decode <;> rfl

end Provider

end Tableflow
