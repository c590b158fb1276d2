import Tableflow.App.Settings
import Tableflow.Proofs.Decimal.Grammar
import Tableflow.Proofs.Double.Order
import Tableflow.Proofs.Except

/-!
# Which settings are accepted

Settings are made of some variables (`Settings.Makes`) just if each variable is absent or has an
acceptable text, and a file does not come without a label column (`Settings.Valid`). Otherwise
several variables may have defects (`Settings.Defective`), and the one that is reported is the first
in the order in which the variables are looked at. Each of the four steps of reading is accounted
for by itself, as a value or as a defect of its place. The main statement is
`Settings.ofLookup_accounted`.
-/

namespace Tableflow

/-- The word for a form of the log. -/
def LogFormat.word : LogFormat → String
  | .pretty => "pretty"
  | .json => "json"

theorem LogFormat.word_injective {a b : LogFormat} (h : a.word = b.word) : a = b := by
  cases a <;> cases b <;> first | rfl | exact absurd h (by decide)

theorem LogFormat.exists_word_iff {word : String} :
    (∃ format : LogFormat, word = format.word) ↔ word ∈ ["pretty", "json"] := by
  constructor
  · rintro ⟨_ | _, rfl⟩ <;> simp [LogFormat.word]
  · intro h
    simp only [List.mem_cons, List.not_mem_nil, or_false] at h
    rcases h with rfl | rfl
    · exact ⟨.pretty, rfl⟩
    · exact ⟨.json, rfl⟩

/-- The place of a defect's variable in the order in which the variables are looked at. -/
def SettingsDefect.place : SettingsDefect → Nat
  | .testSizeText .. | .testSizeRange _ => 0
  | .seedText .. => 1
  | .logFormat _ => 2
  | .noLabel => 3
  | .other _ => 4

namespace Settings

variable {get : String → Option String} {settings : Settings} {defect : SettingsDefect}

/-! ## What variables say -/

/-- The value of a variable: what its text spells, or another one where it is absent. -/
def Gives {α : Type} (absent : α) (spells : String → α → Prop) : Option String → α → Prop
  | none, a => a = absent
  | some text, a => spells text a

/-- A text for the test size is a number strictly between zero and one. -/
def SpellsTestSize (text : String) (size : Double) : Prop :=
  Decimal.Spells text size ∧ size.BetweenZeroAndOne

/-- A text for the form of the log is its word in any case. -/
def SpellsLogFormat (text : String) (format : LogFormat) : Prop :=
  text.map Char.toLower = format.word

/-- A text for a file names it together with the label column. -/
def SpellsSource (label : Option String) (path : String) (source : Option LabeledFile) : Prop :=
  ∃ name, label = some name ∧ source = some ⟨path, name⟩

/-- The settings that some variables make, where all of them are acceptable. -/
structure Makes (get : String → Option String) (settings : Settings) : Prop where
  testSize : Gives SplitConfig.default.testSize SpellsTestSize (get testSizeName)
    settings.split.testSize
  seed : Gives SplitConfig.default.seed Decimal.SpellsWord (get seedName) settings.split.seed
  shuffle : settings.split.shuffle = true
  output : settings.outputDirectory = (get outputName).getD defaultOutput
  logFormat : Gives .pretty SpellsLogFormat (get logName) settings.logFormat
  source : Gives none (SpellsSource (get labelName)) (get sourceName) settings.source

/-- Each of the variables is absent or has an acceptable text, and a file does not come without a
label column. -/
structure Valid (get : String → Option String) : Prop where
  testSize : ∀ text, get testSizeName = some text → ∃ size, SpellsTestSize text size
  seed : ∀ text, get seedName = some text → ∃ seed, Decimal.SpellsWord text seed
  logFormat : ∀ text, get logName = some text → text.map Char.toLower ∈ ["pretty", "json"]
  label : get sourceName ≠ none → get labelName ≠ none

/-- The defects of some variables. -/
inductive Defective (get : String → Option String) : SettingsDefect → Prop
  | testSizeText {text : String} {refusal : Decimal.Refusal} :
    get testSizeName = some text → Decimal.read text = .error refusal →
    Defective get (.testSizeText text refusal)
  | testSizeRange {text : String} {size : Double} :
    get testSizeName = some text → Decimal.Spells text size → ¬ size.BetweenZeroAndOne →
    Defective get (.testSizeRange size)
  | seedText {text : String} {refusal : Decimal.WordRefusal} :
    get seedName = some text → Decimal.readWord text = .error refusal →
    Defective get (.seedText text refusal)
  | logFormat {text : String} :
    get logName = some text → text.map Char.toLower ∉ ["pretty", "json"] →
    Defective get (.logFormat (text.map Char.toLower))
  | noLabel {path : String} :
    get sourceName = some path → get labelName = none → Defective get .noLabel

/-- The defect that comes first in the order of the variables. -/
def FirstDefect (get : String → Option String) (defect : SettingsDefect) : Prop :=
  Defective get defect ∧ ∀ other, Defective get other → defect.place ≤ other.place

/-! ## The steps of reading -/

/-- A step that reads the variable at some place: it has a value just if the variable gives one,
and otherwise the defects of that place are its error. -/
structure Accounts {α : Type} (get : String → Option String) (place : Nat)
    (result : Except SettingsDefect α) (gives : α → Prop) : Prop where
  ok_iff : ∀ a, result = .ok a ↔ gives a
  error_iff : ∀ defect, result = .error defect ↔ Defective get defect ∧ defect.place = place

/-- A step accounts for its variable if it does so for every text of the variable, and has the
default where there is no text. -/
theorem Accounts.of_texts {α : Type} {place : Nat} {value : Option String} {absent : α}
    {spells : String → α → Prop} {f : Option String → Except SettingsDefect α}
    (habsent : f none = .ok absent) (hok : ∀ text a, f (some text) = .ok a ↔ spells text a)
    (herror : ∀ defect, (Defective get defect ∧ defect.place = place) ↔
      ∃ text, value = some text ∧ f (some text) = .error defect) :
    Accounts get place (f value) (Gives absent spells value) := by
  constructor
  · intro a
    cases value with
    | none => rw [habsent, Except.ok.injEq, Gives, eq_comm]
    | some text => exact hok text a
  · intro defect
    rw [herror]
    cases value with
    | none => simp [habsent]
    | some text => simp

/-- The test size has a defect if its text spells no double, and another one if it spells one out of
range. -/
theorem defective_testSize_iff : (Defective get defect ∧ defect.place = 0) ↔
    ∃ text, get testSizeName = some text ∧
      ((∃ refusal, Decimal.read text = .error refusal ∧ .testSizeText text refusal = defect) ∨
        ∃ size, Decimal.read text = .ok size ∧ ¬ size.BetweenZeroAndOne ∧
          .testSizeRange size = defect) := by
  constructor
  · rintro ⟨h, hplace⟩
    cases h with
    | testSizeText htext hread => exact ⟨_, htext, .inl ⟨_, hread, rfl⟩⟩
    | testSizeRange htext hspells hrange =>
      exact ⟨_, htext, .inr ⟨_, Decimal.read_eq_ok_iff_spells.2 hspells, hrange, rfl⟩⟩
    | _ => cases hplace
  · rintro ⟨text, htext, ⟨refusal, hread, rfl⟩ | ⟨size, hread, hrange, rfl⟩⟩
    · exact ⟨.testSizeText htext hread, rfl⟩
    · exact ⟨.testSizeRange htext (Decimal.read_eq_ok_iff_spells.1 hread) hrange, rfl⟩

theorem accounts_readTestSize (get : String → Option String) :
    Accounts get 0 (readTestSize (get testSizeName))
      (Gives SplitConfig.default.testSize SpellsTestSize (get testSizeName)) := by
  refine .of_texts rfl (fun text size => ?_) fun defect => ?_
  · simp only [readTestSize, bind_eq_ok_iff, mapError_eq_ok_iff, SpellsTestSize,
      ← Decimal.read_eq_ok_iff_spells, ← Double.isProperFraction_iff]
    constructor
    · rintro ⟨read, hread, h⟩
      split at h
      · next hproper =>
        cases h
        exact ⟨hread, hproper⟩
      · cases h
    · rintro ⟨hread, hproper⟩
      exact ⟨size, hread, if_pos hproper⟩
  · rw [defective_testSize_iff]
    refine exists_congr fun text => and_congr_right fun _ => ?_
    rw [readTestSize, bind_eq_error_iff, mapError_eq_error_iff]
    refine or_congr_right (exists_congr fun size => ?_)
    rw [mapError_eq_ok_iff, ← Double.isProperFraction_iff]
    refine and_congr_right fun _ => ?_
    split
    · next hproper => exact iff_of_false (fun h => h.1 hproper) (fun h => nomatch h)
    · next hproper => simp [hproper]

theorem defective_seed_iff : (Defective get defect ∧ defect.place = 1) ↔
    ∃ text, get seedName = some text ∧
      ∃ refusal, Decimal.readWord text = .error refusal ∧ .seedText text refusal = defect := by
  constructor
  · rintro ⟨h, hplace⟩
    cases h with
    | seedText htext hread => exact ⟨_, htext, _, hread, rfl⟩
    | _ => cases hplace
  · rintro ⟨text, htext, refusal, hread, rfl⟩
    exact ⟨.seedText htext hread, rfl⟩

theorem accounts_readSeed (get : String → Option String) :
    Accounts get 1 (readSeed (get seedName))
      (Gives SplitConfig.default.seed Decimal.SpellsWord (get seedName)) := by
  refine .of_texts rfl (fun text seed => ?_) fun defect => ?_
  · rw [← Decimal.readWord_eq_ok_iff, readSeed, mapError_eq_ok_iff]
  · simp only [defective_seed_iff, readSeed, mapError_eq_error_iff]

/-- A word names a form of the log, or it is neither of the two names. -/
theorem readLogFormat_some (text : String) :
    (∃ format : LogFormat, text.map Char.toLower = format.word ∧
      readLogFormat (some text) = .ok format) ∨
    (text.map Char.toLower ∉ ["pretty", "json"] ∧
      readLogFormat (some text) = .error (.logFormat (text.map Char.toLower))) := by
  simp only [readLogFormat]
  split
  · next h => exact .inl ⟨.pretty, h, rfl⟩
  · next h => exact .inl ⟨.json, h, rfl⟩
  · next hpretty hjson => exact .inr ⟨by simpa using ⟨hpretty, hjson⟩, rfl⟩

theorem defective_logFormat_iff : (Defective get defect ∧ defect.place = 2) ↔
    ∃ text, get logName = some text ∧ text.map Char.toLower ∉ ["pretty", "json"] ∧
      .logFormat (text.map Char.toLower) = defect := by
  constructor
  · rintro ⟨h, hplace⟩
    cases h with
    | logFormat htext hword => exact ⟨_, htext, hword, rfl⟩
    | _ => cases hplace
  · rintro ⟨text, htext, hword, rfl⟩
    exact ⟨.logFormat htext hword, rfl⟩

theorem accounts_readLogFormat (get : String → Option String) :
    Accounts get 2 (readLogFormat (get logName))
      (Gives .pretty SpellsLogFormat (get logName)) := by
  refine .of_texts rfl (fun text format => ?_) fun defect => ?_
  · obtain ⟨named, hword, hread⟩ | ⟨hword, hread⟩ := readLogFormat_some text
    · rw [hread, SpellsLogFormat, hword, Except.ok.injEq]
      exact ⟨congrArg _, LogFormat.word_injective⟩
    · rw [hread]
      refine iff_of_false (fun h => nomatch h) fun h => hword ?_
      exact LogFormat.exists_word_iff.1 ⟨format, h⟩
  · rw [defective_logFormat_iff]
    refine exists_congr fun text => and_congr_right fun _ => ?_
    obtain ⟨named, hword, hread⟩ | ⟨hword, hread⟩ := readLogFormat_some text
    · rw [hread]
      refine iff_of_false (fun h => h.1 ?_) (fun h => nomatch h)
      exact LogFormat.exists_word_iff.1 ⟨named, hword⟩
    · rw [hread, Except.error.injEq, and_iff_right hword]

theorem defective_source_iff : (Defective get defect ∧ defect.place = 3) ↔
    ∃ path, get sourceName = some path ∧ get labelName = none ∧ .noLabel = defect := by
  constructor
  · rintro ⟨h, hplace⟩
    cases h with
    | noLabel hsource hlabel => exact ⟨_, hsource, hlabel, rfl⟩
    | _ => cases hplace
  · rintro ⟨path, hsource, hlabel, rfl⟩
    exact ⟨.noLabel hsource hlabel, rfl⟩

theorem accounts_readSource (get : String → Option String) :
    Accounts get 3 (readSource (get sourceName) (get labelName))
      (Gives none (SpellsSource (get labelName)) (get sourceName)) := by
  refine .of_texts (f := fun path => readSource path (get labelName)) rfl
    (fun path source => ?_) fun defect => ?_
  · cases get labelName <;> simp [readSource, SpellsSource, eq_comm]
  · rw [defective_source_iff]
    cases get labelName <;> simp [readSource]

/-! ## Reading -/

theorem ofLookup_eq_ok_iff : ofLookup get = .ok settings ↔ Makes get settings := by
  simp only [ofLookup, bind_eq_ok_iff]
  constructor
  · rintro ⟨size, hsize, seed, hseed, format, hformat, source, hsource, h⟩
    cases h
    exact {
      testSize := ((accounts_readTestSize get).ok_iff size).1 hsize
      seed := ((accounts_readSeed get).ok_iff seed).1 hseed
      shuffle := rfl
      output := rfl
      logFormat := ((accounts_readLogFormat get).ok_iff format).1 hformat
      source := ((accounts_readSource get).ok_iff source).1 hsource }
  · intro h
    refine ⟨_, ((accounts_readTestSize get).ok_iff _).2 h.testSize, _,
      ((accounts_readSeed get).ok_iff _).2 h.seed, _,
      ((accounts_readLogFormat get).ok_iff _).2 h.logFormat, _,
      ((accounts_readSource get).ok_iff _).2 h.source, ?_⟩
    obtain ⟨⟨size, seed, shuffle⟩, output, format, source⟩ := settings
    obtain rfl : shuffle = true := h.shuffle
    obtain rfl : output = _ := h.output
    rfl

/-- The defect that comes first among those of some place and of later ones. -/
def FirstFrom (get : String → Option String) (place : Nat) (defect : SettingsDefect) : Prop :=
  Defective get defect ∧ place ≤ defect.place ∧
    ∀ other, Defective get other → place ≤ other.place → defect.place ≤ other.place

/-- A step that fails reports the first defect, and one that succeeds leaves it to later steps. -/
theorem Accounts.bind_eq_error_iff {α β : Type} {place : Nat} {result : Except SettingsDefect α}
    {gives : α → Prop} (h : Accounts get place result gives) {rest : α → Except SettingsDefect β}
    (hrest : ∀ a, rest a = .error defect ↔ FirstFrom get (place + 1) defect) :
    (result >>= rest) = .error defect ↔ FirstFrom get place defect := by
  cases result with
  | error first =>
    obtain ⟨hfirst, hplace⟩ := (h.error_iff first).1 rfl
    change Except.error first = _ ↔ _
    rw [Except.error.injEq]
    constructor
    · rintro rfl
      exact ⟨hfirst, hplace.ge, fun other _ hother => hplace.le.trans hother⟩
    · rintro ⟨hdefect, hle, hleast⟩
      have hsame : defect.place = place :=
        le_antisymm ((hleast first hfirst hplace.ge).trans hplace.le) hle
      exact Except.error.inj ((h.error_iff defect).2 ⟨hdefect, hsame⟩)
  | ok a =>
    have hnone (other : SettingsDefect) (hother : Defective get other) : other.place ≠ place :=
      fun hplace => nomatch (h.error_iff other).2 ⟨hother, hplace⟩
    rw [ok_bind, hrest]
    constructor
    · rintro ⟨hdefect, hlt, hleast⟩
      refine ⟨hdefect, (Nat.le_succ place).trans hlt, ?_⟩
      intro other hother hle
      exact hleast other hother (lt_of_le_of_ne hle (hnone other hother).symm)
    · rintro ⟨hdefect, hle, hleast⟩
      refine ⟨hdefect, lt_of_le_of_ne hle (hnone defect hdefect).symm, ?_⟩
      intro other hother hlt
      exact hleast other hother ((Nat.le_succ place).trans hlt)

theorem Defective.place_lt (h : Defective get defect) : defect.place < 4 := by
  cases h <;> simp [SettingsDefect.place]

theorem ofLookup_eq_error_iff : ofLookup get = .error defect ↔ FirstDefect get defect := by
  have hstart : FirstDefect get defect ↔ FirstFrom get 0 defect := by
    simp [FirstDefect, FirstFrom]
  have hend : ¬ FirstFrom get 4 defect := fun h => absurd h.1.place_lt (not_lt.2 h.2.1)
  rw [hstart, ofLookup]
  refine (accounts_readTestSize get).bind_eq_error_iff fun size => ?_
  refine (accounts_readSeed get).bind_eq_error_iff fun seed => ?_
  refine (accounts_readLogFormat get).bind_eq_error_iff fun format => ?_
  refine (accounts_readSource get).bind_eq_error_iff fun source => ?_
  exact iff_of_false (fun h => nomatch h) hend

/-! ## Acceptance -/

theorem exists_gives_iff {α : Type} {absent : α} {spells : String → α → Prop}
    {value : Option String} :
    (∃ a, Gives absent spells value a) ↔ ∀ text, value = some text → ∃ a, spells text a := by
  cases value <;> simp [Gives]

theorem exists_makes_iff : (∃ settings, Makes get settings) ↔ Valid get := by
  constructor
  · rintro ⟨settings, h⟩
    have hsource := exists_gives_iff.1 ⟨_, h.source⟩
    exact {
      testSize := exists_gives_iff.1 ⟨_, h.testSize⟩
      seed := exists_gives_iff.1 ⟨_, h.seed⟩
      logFormat := fun text htext =>
        LogFormat.exists_word_iff.1 (exists_gives_iff.1 ⟨_, h.logFormat⟩ text htext)
      label := by
        intro hfile
        obtain ⟨path, hpath⟩ := Option.ne_none_iff_exists'.1 hfile
        obtain ⟨source, name, hname, -⟩ := hsource path hpath
        simp [hname] }
  · intro h
    obtain ⟨size, hsize⟩ := exists_gives_iff.2 h.testSize
    obtain ⟨seed, hseed⟩ := exists_gives_iff.2 h.seed
    obtain ⟨format, hformat⟩ := exists_gives_iff.2 fun text htext =>
      LogFormat.exists_word_iff.2 (h.logFormat text htext)
    have hspells (path : String) (hpath : get sourceName = some path) :
        ∃ source, SpellsSource (get labelName) path source := by
      obtain ⟨name, hname⟩ := Option.ne_none_iff_exists'.1 (h.label (by simp [hpath]))
      exact ⟨_, name, hname, rfl⟩
    obtain ⟨source, hsource⟩ := exists_gives_iff.2 hspells
    exact ⟨⟨⟨size, seed, true⟩, _, format, source⟩, hsize, hseed, rfl, rfl, hformat, hsource⟩

/-- The test size of accepted settings is in range also where it is not set. -/
theorem Makes.isProperFraction (h : Makes get settings) :
    settings.split.testSize.isProperFraction := by
  have htestSize := h.testSize
  cases hget : get testSizeName with
  | none =>
    rw [hget] at htestSize
    rw [htestSize]
    decide
  | some text =>
    rw [hget] at htestSize
    exact (Double.isProperFraction_iff _).2 htestSize.2

/-- A test size in range leaves one reason not to split. -/
theorem sizes_of_isProperFraction {config : SplitConfig} (h : config.testSize.isProperFraction)
    (rows : Nat) : (∃ sizes, config.sizes rows = .ok sizes) ∨ ∃ train test,
      config.sizes rows = .error (.emptyPartition config.testSize rows train test) ∧
        (train = 0 ∨ test = 0) := by
  simp only [SplitConfig.sizes, if_pos h]
  split
  · next hempty =>
    simp only [Bool.or_eq_true, decide_eq_true_eq] at hempty
    exact .inr ⟨_, _, rfl, hempty.symm⟩
  · exact .inl ⟨_, rfl⟩

/-- The settings are made of the named variables, and of the label column only behind a file. -/
theorem ofLookup_congr {other : String → Option String}
    (h : ∀ name ∈ variableNames, name ≠ labelName → other name = get name)
    (hlabel : get sourceName = none ∨ other labelName = get labelName) :
    ofLookup other = ofLookup get := by
  have hsource : readSource (other sourceName) (other labelName) =
      readSource (get sourceName) (get labelName) := by
    rw [h sourceName (by decide) (by decide)]
    rcases hlabel with hnone | hlabel
    · rw [hnone, readSource, readSource]
    · rw [hlabel]
  simp only [ofLookup, hsource, h testSizeName (by decide) (by decide),
    h seedName (by decide) (by decide), h outputName (by decide) (by decide),
    h logName (by decide) (by decide)]

/-- Settings are accepted just where every variable is valid, and otherwise the first defect is
reported. They depend on nothing but the named variables, and on the label column only behind a
file. An accepted test size is one that a split accepts, which then fails only for a part without
rows. -/
theorem ofLookup_accounted (get : String → Option String) :
    ((∃ settings, ofLookup get = .ok settings) ↔ Valid get) ∧
    (∀ defect, ofLookup get = .error defect ↔ FirstDefect get defect) ∧
    (∀ other, (∀ name ∈ variableNames, other name = get name) → ofLookup other = ofLookup get) ∧
    (get sourceName = none → ∀ other,
      (∀ name ∈ variableNames, name ≠ labelName → other name = get name) →
        ofLookup other = ofLookup get) ∧
    ∀ settings, ofLookup get = .ok settings → Makes get settings ∧ ∀ rows,
      (∃ sizes, settings.split.sizes rows = .ok sizes) ∨ ∃ train test,
        settings.split.sizes rows =
          .error (.emptyPartition settings.split.testSize rows train test) ∧
            (train = 0 ∨ test = 0) := by
  refine ⟨?_, fun defect => ofLookup_eq_error_iff, ?_, ?_, ?_⟩
  · simp only [ofLookup_eq_ok_iff, exists_makes_iff]
  · intro other hother
    exact ofLookup_congr (fun name hname _ => hother name hname)
      (.inr (hother labelName (by decide)))
  · intro hnone other hother
    exact ofLookup_congr hother (.inl hnone)
  · intro settings h
    have hmakes := ofLookup_eq_ok_iff.1 h
    exact ⟨hmakes, sizes_of_isProperFraction hmakes.isProperFraction⟩

/-- Variables for a quarter of the rows, with a label column that no file needs. -/
def quarterVariables : String → Option String := fun name =>
  [(testSizeName, "+.25E0"), (seedName, "+7"), (logName, "Json"), (labelName, "kind")].lookup name

/-- The settings for a quarter of the rows. -/
def quarter : Settings :=
  { split := ⟨⟨0x3fd0000000000000⟩, 7, true⟩
    outputDirectory := defaultOutput
    logFormat := .json
    source := none }

theorem quarter_accounted :
    Valid quarterVariables ∧ Makes quarterVariables quarter ∧
      (ofLookup fun name => if name ∈ variableNames then quarterVariables name else some "") =
        .ok quarter ∧
      (ofLookup fun name => if name = labelName then none else quarterVariables name) =
        .ok quarter ∧
      ∃ train test, quarter.split.sizes 1 =
        .error (.emptyPartition quarter.split.testSize 1 train test) ∧ (train = 0 ∨ test = 0) := by
  obtain ⟨settings, hok, rfl⟩ := exists_of_toOption_map (f := id)
    (by decide +kernel : (ofLookup quarterVariables).toOption.map id = some quarter)
  obtain ⟨hvalid, -, hagree, hlabel, hmade⟩ := ofLookup_accounted quarterVariables
  obtain ⟨hmakes, hsizes⟩ := hmade _ hok
  refine ⟨hvalid.1 ⟨_, hok⟩, hmakes, ?_, ?_, ?_⟩
  · rw [hagree _ fun name hname => if_pos hname, hok]
  · rw [hlabel rfl _ fun name _ hne => if_neg hne, hok]
  · have hnone : (quarter.split.sizes 1).toOption = none := by decide +kernel
    rcases hsizes 1 with ⟨sizes, h⟩ | h
    · rw [h] at hnone
      cases hnone
    · exact h

end Settings

end Tableflow
