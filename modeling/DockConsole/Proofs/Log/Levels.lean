import DockConsole.Proofs.Log.Ownership

/-!
What is written to the files of a logger that is set up several times.

A file keeps the level that it was attached with, whatever later set-ups ask for it, and the logger
takes its own level from the last set-up alone. A record has to reach both. So an earlier file goes
without the records below the levels of the last set-up, and a file that is set up again for lower
levels stays as it was.
-/

namespace DockConsole.Log

/-- What a logger is set up with. -/
structure Setup where
  file : Text
  fileLevel : Int
  stdoutLevel : Int
deriving DecidableEq, Repr

/-- The file that is meant, by its path. -/
def Setup.path (directory : Text) (c : Setup) : Path := Path.absolute directory c.file

/-- The set-up that attaches the file at a path. -/
def firstFor? (directory : Text) (calls : List Setup) (path : Path) : Option Setup :=
  calls.find? (·.path directory = path)

variable {directory : Text}

lemma firstFor?_concat (calls : List Setup) (c : Setup) (path : Path) :
    firstFor? directory (calls ++ [c]) path =
      (firstFor? directory calls path).or (if c.path directory = path then some c else none) := by
  rw [firstFor?, List.find?_append, List.find?_singleton, firstFor?]
  simp only [decide_eq_true_eq]

lemma exists_firstFor? (directory : Text) {calls : List Setup} {c : Setup} (hc : c ∈ calls) :
    ∃ first, firstFor? directory calls (c.path directory) = some first := by
  rw [← Option.isSome_iff_exists, firstFor?, List.find?_isSome]
  exact ⟨c, hc, by simp⟩

namespace Logger

variable {l m : Logger} {calls : List Setup} {path : Path} {n : Int}

/-! ### One set-up -/

lemma mem_attach {t : Target} {level : Int} :
    ⟨.file path, n⟩ ∈ (l.attach t level).sinks ↔
      (⟨.file path, n⟩ : Sink) ∈ l.sinks ∨ t ∉ l.targets ∧ t = .file path ∧ level = n := by
  rw [attach]
  split_ifs with h
  · have hmem : t ∈ l.targets := (hasSink_eq_true_iff l t).mp h
    simp [hmem]
  · have hmem : t ∉ l.targets := fun hmem => h ((hasSink_eq_true_iff l t).mpr hmem)
    simp [hmem, eq_comm]

lemma level_attach (t : Target) (level : Int) : (l.attach t level).level = l.level := by
  rw [attach]
  split_ifs <;> rfl

lemma directory_attach (t : Target) (level : Int) :
    (l.attach t level).directory = l.directory := by
  rw [attach]
  split_ifs <;> rfl

lemma level_setup (file : Text) (fileLevel stdoutLevel : Int) :
    (l.setup file fileLevel stdoutLevel).1.level = min fileLevel stdoutLevel := by
  simp only [setup]
  split
  · rw [level_attach]
  · split
    · rw [level_attach, level_attach, append]
    · rfl

lemma directory_setup (file : Text) (fileLevel stdoutLevel : Int) :
    (l.setup file fileLevel stdoutLevel).1.directory = l.directory := by
  simp only [setup]
  split
  · rw [directory_attach]
  · split
    · rw [directory_attach, directory_attach, append]
    · rfl

/-- A set-up attaches its file unless that is attached already. -/
lemma mem_setup {file : Text} {fileLevel stdoutLevel : Int}
    (hopens : (l.setup file fileLevel stdoutLevel).2 = .ok ()) :
    ⟨.file path, n⟩ ∈ (l.setup file fileLevel stdoutLevel).1.sinks ↔
      (⟨.file path, n⟩ : Sink) ∈ l.sinks ∨
        .file (l.pathOf file) ∉ l.targets ∧ l.pathOf file = path ∧ fileLevel = n := by
  simp only [setup] at hopens ⊢
  split_ifs at hopens ⊢ with h
  · have hmem : .file (l.pathOf file) ∈ l.targets := (hasSink_eq_true_iff l _).mp h
    simp [mem_attach, hmem]
  · cases hcheck : (l.pathOf file).check
      (entry { l with level := min fileLevel stdoutLevel }) with
    | error e => simp [hcheck] at hopens
    | ok u => simp [mem_attach, append, targets]

/-! ### Several set-ups -/

/-- Every file has the level that it was attached with, and the logger has its level from the last
set-up. -/
structure SetUpBy (directory : Text) (l : Logger) (calls : List Setup) : Prop where
  directory_eq : l.directory = directory
  level : ∀ last ∈ calls.getLast?, l.level = min last.fileLevel last.stdoutLevel
  files : ∀ path n,
    ⟨.file path, n⟩ ∈ l.sinks ↔
      ∃ first, firstFor? directory calls path = some first ∧ first.fileLevel = n

lemma setUpBy_nil (h : l.sinks = []) : SetUpBy l.directory l [] :=
  ⟨rfl, by simp, by simp [h, firstFor?]⟩

lemma SetUpBy.congr (h : l.SetUpBy directory calls) (hdirectory : m.directory = l.directory)
    (hlevel : m.level = l.level)
    (hsinks : ∀ path n, ⟨.file path, n⟩ ∈ m.sinks ↔ (⟨.file path, n⟩ : Sink) ∈ l.sinks) :
    m.SetUpBy directory calls :=
  ⟨hdirectory.trans h.directory_eq, fun last hlast => hlevel.trans (h.level last hlast),
    fun path n => (hsinks path n).trans (h.files path n)⟩

lemma SetUpBy.of_steady (h : l.SetUpBy directory calls) (hsteady : l.Steady m) :
    m.SetUpBy directory calls :=
  h.congr hsteady.directory hsteady.level fun path n => by rw [hsteady.sinks]

lemma SetUpBy.setStdoutThreshold (h : l.SetUpBy directory calls) (level : Int) :
    (l.setStdoutThreshold level).SetUpBy directory calls :=
  h.congr rfl rfl fun _ _ => mem_relevel_file

lemma SetUpBy.target_mem_iff (h : l.SetUpBy directory calls) (path : Path) :
    .file path ∈ l.targets ↔ ∃ first, firstFor? directory calls path = some first := by
  rw [targets, List.mem_map]
  constructor
  · rintro ⟨⟨target, n⟩, hs, rfl⟩
    obtain ⟨first, hfirst, -⟩ := (h.files path n).mp hs
    exact ⟨first, hfirst⟩
  · rintro ⟨first, hfirst⟩
    exact ⟨_, (h.files path first.fileLevel).mpr ⟨first, hfirst, rfl⟩, rfl⟩

lemma SetUpBy.setup (h : l.SetUpBy directory calls) {c : Setup}
    (hopens : (l.setup c.file c.fileLevel c.stdoutLevel).2 = .ok ()) :
    (l.setup c.file c.fileLevel c.stdoutLevel).1.SetUpBy directory (calls ++ [c]) := by
  have hfile : l.pathOf c.file = c.path directory :=
    congrArg (Path.absolute · c.file) h.directory_eq
  refine ⟨(directory_setup _ _ _).trans h.directory_eq, fun last hlast => ?_, fun path n => ?_⟩
  · rw [List.getLast?_concat, Option.mem_some_iff] at hlast
    rw [level_setup, hlast]
  · rw [mem_setup hopens, h.files path n, hfile, h.target_mem_iff, firstFor?_concat]
    by_cases hpath : c.path directory = path
    · subst hpath
      cases firstFor? directory calls (c.path directory) <;> simp
    · cases firstFor? directory calls path <;> simp [hpath]

/-! ### What is written then -/

/-- A file has the line of a record that reaches the logger and the first level of the file. -/
lemma SetUpBy.contents_record (h : l.SetUpBy directory calls) (hl : l.Tidy directory)
    {first : Setup} (hfirst : firstFor? directory calls path = some first) (r : LogRecord) :
    (l.record r).contents path = l.contents path ++
      if 0 < r.level ∧ l.threshold ≤ r.level ∧ first.fileLevel ≤ r.level then l.fileLine r
      else [] := by
  have hsink := (h.files path first.fileLevel).mpr ⟨first, hfirst, rfl⟩
  have hreaches : l.reaches first.fileLevel r = true ↔
      0 < r.level ∧ l.threshold ≤ r.level ∧ first.fileLevel ≤ r.level := by
    simp [reaches, accepts, and_assoc]
  rw [hl.contents_record hsink, linesOf]
  simp only [List.filter_cons, List.filter_nil, hreaches]
  split_ifs <;> simp

lemma fileLine_ne_nil (l : Logger) (r : LogRecord) : l.fileLine r ≠ [] := by
  simp [fileLine]

end Logger

namespace Step

mutual

/-- The set-ups of a step, in the blocks inside of it too. -/
def setups : Step → List Setup
  | .setup file fileLevel stdoutLevel => [⟨file, fileLevel, stdoutLevel⟩]
  | .threshold _ => []
  | .record .. => []
  | .owning steps _ => setupsAll steps

/-- The set-ups of several steps. -/
def setupsAll : List Step → List Setup
  | [] => []
  | s :: ss => setups s ++ setupsAll ss

end

mutual

/-- Every set-up of the step opens its file. -/
def Opens (l : Logger) : Step → Prop
  | .setup file fileLevel stdoutLevel =>
    (Logger.setup { l with stdout := [] } file fileLevel stdoutLevel).2 = .ok ()
  | .threshold _ => True
  | .record .. => True
  | .owning steps _ => OpensAll (l.setStdoutThreshold Level.silent) steps

/-- Every set-up of several steps opens its file. -/
def OpensAll (l : Logger) : List Step → Prop
  | [] => True
  | s :: ss => Opens l s ∧ OpensAll (run l s).2 ss

end

mutual

/-- Whether the set-ups of a step open their files can be found out by setting up. -/
instance decidableOpens (l : Logger) : ∀ s, Decidable (Opens l s)
  | .setup .. => inferInstanceAs (Decidable (_ = _))
  | .threshold _ => inferInstanceAs (Decidable True)
  | .record .. => inferInstanceAs (Decidable True)
  | .owning steps _ => decidableOpensAll (l.setStdoutThreshold Level.silent) steps

instance decidableOpensAll (l : Logger) : ∀ steps, Decidable (OpensAll l steps)
  | [] => inferInstanceAs (Decidable True)
  | s :: ss =>
    have := decidableOpens l s
    have := decidableOpensAll (run l s).2 ss
    inferInstanceAs (Decidable (_ ∧ _))

end

mutual

lemma setUpBy_run {l : Logger} {calls : List Setup} (h : l.SetUpBy directory calls) :
    ∀ s, Opens l s → (run l s).2.SetUpBy directory (calls ++ setups s)
  | .setup file fileLevel stdoutLevel, hopens => by
    have hcleared : Logger.SetUpBy directory { l with stdout := [] } calls :=
      h.of_steady ⟨rfl, rfl, rfl, rfl⟩
    rw [run_setup, setups]
    exact hcleared.setup (c := ⟨file, fileLevel, stdoutLevel⟩) hopens
  | .threshold level, _ => by
    rw [setups, List.append_nil]
    exact (h.setStdoutThreshold level).of_steady ⟨rfl, rfl, rfl, rfl⟩
  | .record level message args, _ => by
    rw [setups, List.append_nil]
    exact h.of_steady (steady_run_record l level message args)
  | .owning steps error, hopens => by
    have hinner := setUpBy_runAll (h.setStdoutThreshold Level.silent) steps hopens
    rw [run_owning, setups]
    exact (hinner.setStdoutThreshold _).of_steady ⟨rfl, rfl, rfl, rfl⟩

lemma setUpBy_runAll {l : Logger} {calls : List Setup} (h : l.SetUpBy directory calls) :
    ∀ steps, OpensAll l steps → (afterAll l steps).SetUpBy directory (calls ++ setupsAll steps)
  | [], _ => by
    rw [setupsAll, List.append_nil]
    exact h
  | s :: ss, hopens => by
    have hss := setUpBy_runAll (setUpBy_run h s hopens.1) ss hopens.2
    rw [setupsAll, ← List.append_assoc]
    exact hss

end

variable {l : Logger}

/-- **Levels asked for**: after any steps of a logger without sinks, in which all set-ups open their
files, a record is written to a file exactly if it reaches what the last set-up made of the logger
and the level of the first set-up for that file. Two set-ups are for one file if their names, seen
from the working directory, have one path. So every set-up has what it asks for exactly if none asks
for records that are never made, nor for less than the logger lets through, nor for less than the
first one for its file. -/
theorem level_asked_for_kept_iff (hl : l.sinks = []) {steps : List Step}
    (hopens : OpensAll l steps) :
    let calls := setupsAll steps
    let m := afterAll l steps
    let file := Setup.path l.directory
    (∀ last ∈ calls.getLast?, m.level = min last.fileLevel last.stdoutLevel) ∧
      (∀ c ∈ calls, ∃ first, firstFor? l.directory calls (file c) = some first ∧
        ∀ r, (m.record r).contents (file c) = m.contents (file c) ++
          if 0 < r.level ∧ m.threshold ≤ r.level ∧ first.fileLevel ≤ r.level then m.fileLine r
          else []) ∧
      ((∀ c ∈ calls, ∀ r : LogRecord, c.fileLevel ≤ r.level →
          (m.record r).contents (file c) = m.contents (file c) ++ m.fileLine r) ↔
        ∀ c ∈ calls, 0 < c.fileLevel ∧ m.threshold ≤ c.fileLevel ∧
          ∀ first ∈ firstFor? l.directory calls (file c), first.fileLevel ≤ c.fileLevel) := by
  intro calls m file
  have hm : m.SetUpBy l.directory calls := setUpBy_runAll (Logger.setUpBy_nil hl) steps hopens
  have htidy : m.Tidy l.directory := tidy_passesAll (Logger.tidy_of_sinks_eq_nil hl) steps _
    (afterAll_mem_passesAll l steps)
  have hwritten : ∀ {c first : Setup}, firstFor? l.directory calls (file c) = some first →
      ∀ r : LogRecord, ((m.record r).contents (file c) = m.contents (file c) ++ m.fileLine r ↔
        0 < r.level ∧ m.threshold ≤ r.level ∧ first.fileLevel ≤ r.level) := by
    intro c first hfirst r
    rw [hm.contents_record htidy hfirst, List.append_cancel_left_eq]
    split_ifs with hreaches
    · simp [hreaches]
    · simp [hreaches, (m.fileLine_ne_nil r).symm]
  refine ⟨hm.level, fun c hc => ?_, forall₂_congr fun c hc => ?_⟩
  · obtain ⟨first, hfirst⟩ := exists_firstFor? l.directory hc
    exact ⟨first, hfirst, hm.contents_record htidy hfirst⟩
  · obtain ⟨first, hfirst⟩ := exists_firstFor? l.directory hc
    simp only [hwritten hfirst, file, hfirst, Option.mem_some_iff, forall_eq']
    constructor
    · -- the record that is just urgent enough tells the levels
      intro h
      exact h ⟨c.fileLevel, []⟩ (Int.le_refl _)
    · rintro ⟨hpos, hthreshold, hlevel⟩ r hr
      omega

/-- The last of three set-ups is for the file of the first one under another name, asks for less of
what is written there, and for more on the terminal. -/
theorem level_asked_for_kept_when_lowered :
    let l : Logger := { directory := "/srv".toList }
    let steps : List Step :=
      [.setup "a.log".toList Level.error Level.critical,
        .setup "b.log".toList Level.info Level.notice,
        .setup "/srv/a.log".toList Level.critical Level.debug]
    let m := afterAll l steps
    (l.sinks = [] ∧ OpensAll l steps) ∧
      ∀ c ∈ setupsAll steps, ∀ r : LogRecord, c.fileLevel ≤ r.level →
        (m.record r).contents (c.path l.directory) =
          m.contents (c.path l.directory) ++ m.fileLine r := by
  intro l steps m
  have hopens : OpensAll l steps := by decide +kernel
  obtain ⟨-, -, hiff⟩ := level_asked_for_kept_iff (l := l) rfl hopens
  exact ⟨⟨rfl, hopens⟩, hiff.mpr (by decide +kernel)⟩

/-- Information is asked for in one file, and then only errors in another one: the first file goes
without information. -/
theorem level_asked_for_not_always_kept :
    ¬ ∀ (l : Logger) (steps : List Step), l.sinks = [] → OpensAll l steps →
      ∀ c ∈ setupsAll steps, ∀ r : LogRecord, c.fileLevel ≤ r.level →
        ((afterAll l steps).record r).contents (c.path l.directory) =
          (afterAll l steps).contents (c.path l.directory) ++ (afterAll l steps).fileLine r := by
  intro h
  let l : Logger := { directory := "/srv".toList }
  have hopens : OpensAll l [.setup "a.log".toList Level.info Level.notice,
      .setup "b.log".toList Level.error Level.critical] := by decide +kernel
  exact absurd (h l _ rfl hopens ⟨"a.log".toList, Level.info, Level.notice⟩ (by decide)
    ⟨Level.info, "up".toList⟩ (by decide)) (by decide +kernel)

end Step

end DockConsole.Log
