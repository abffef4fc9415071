import DockConsole.Proofs.Log.Sinks

/-!
Blocks that own the terminal.

A block silences the terminal and gives it its threshold back at the end, however it ends. Inside of
it records are logged, and further blocks do the same. As a block leaves the sinks as they were, a
block inside of another changes nothing for the records after it, so what is logged in a block is in
the files of the sinks that it reaches, and none of it is on the terminal.
-/

namespace DockConsole.Log

namespace Logger

/-- The records lead from one logger to the other: in the file of every sink there is a line more
for each of them that reaches it, in their order. -/
structure Logs (l : Logger) (rs : List LogRecord) (m : Logger) : Prop extends Steady l m where
  written : ∀ path level, ⟨.file path, level⟩ ∈ l.sinks →
    m.contents path = l.contents path ++ l.linesOf level rs

lemma Logs.refl (l : Logger) : l.Logs [] l :=
  ⟨.refl l, fun _ _ _ => (List.append_nil _).symm⟩

lemma Logs.trans {l m n : Logger} {rs rs' : List LogRecord} (h : l.Logs rs m) (h' : m.Logs rs' n) :
    l.Logs (rs ++ rs') n := by
  refine ⟨h.toSteady.trans h'.toSteady, fun path level hsink => ?_⟩
  rw [h'.written path level (h.sinks ▸ hsink), h.written path level hsink,
    linesOf_congr h.level h.clock, linesOf_append, List.append_assoc]

/-- What the terminal shows is nothing to the files. -/
lemma Logs.congr_stdout {l m : Logger} {rs : List LogRecord} (h : l.Logs rs m)
    (shown shown' : Text) : Logs { l with stdout := shown } rs { m with stdout := shown' } :=
  ⟨⟨h.level, h.sinks, h.clock, h.directory⟩, h.written⟩

lemma Tidy.logs_record {directory : Text} {l : Logger} (hl : l.Tidy directory) (r : LogRecord) :
    l.Logs [r] (l.record r) :=
  ⟨steady_record l r, fun _ _ hsink => hl.contents_record hsink r⟩

/-- What is logged while the terminal has another threshold is logged all the same. -/
lemma Logs.of_setStdoutThreshold {l m : Logger} {rs : List LogRecord} {level : Int}
    (h : (l.setStdoutThreshold level).Logs rs m) :
    l.Logs rs (m.setStdoutThreshold l.stdoutThreshold) := by
  refine ⟨⟨h.level, ?_, h.clock, h.directory⟩, fun path n hsink => ?_⟩
  · show relevel l.stdoutThreshold m.sinks = l.sinks
    rw [h.sinks]
    exact (relevel_relevel _ _ _).trans (relevel_stdoutThreshold l)
  · exact h.written path n (mem_relevel_file.mpr hsink)

end Logger

namespace Step

variable {directory : Text} {l : Logger}

/-- The logger after several steps. -/
def afterAll (l : Logger) (steps : List Step) : Logger := steps.foldl (fun l s => (run l s).2) l

lemma last_runAll (l : Logger) (steps : List Step) :
    ((runAll l steps).getLast?.map (·.2)).getD l = afterAll l steps := by
  induction steps generalizing l with
  | nil => rfl
  | cons s ss ih =>
    rw [afterAll, List.foldl_cons, ← afterAll, ← ih, runAll, List.getLast?_cons]
    cases (runAll (run l s).2 ss).getLast? <;> rfl

lemma run_owning (l : Logger) (steps : List Step) (error : Option Text) :
    let silenced := l.setStdoutThreshold Level.silent
    (run l (.owning steps error)).2 =
      { (afterAll silenced steps).setStdoutThreshold l.stdoutThreshold with
        stdout := (runAll silenced steps).flatMap (·.2.stdout) } := by
  cases error <;> rw [run, last_runAll]

/-! ### Every logger on the way has one sink for a target -/

mutual

/-- The loggers that a step comes by, in the blocks inside of it too. -/
def passes (l : Logger) : Step → List Logger
  | .setup file fileLevel stdoutLevel => [(run l (.setup file fileLevel stdoutLevel)).2]
  | .threshold level => [(run l (.threshold level)).2]
  | .record level message args => [(run l (.record level message args)).2]
  | .owning steps error =>
    let silenced := l.setStdoutThreshold Level.silent
    silenced :: passesAll silenced steps ++ [(run l (.owning steps error)).2]

/-- The loggers that several steps come by. -/
def passesAll (l : Logger) : List Step → List Logger
  | [] => []
  | s :: ss => passes l s ++ passesAll (run l s).2 ss

end

lemma run_mem_passes (l : Logger) (s : Step) : (run l s).2 ∈ passes l s := by
  cases s <;> simp [passes]

lemma afterAll_mem_passesAll (l : Logger) (steps : List Step) :
    afterAll l steps ∈ l :: passesAll l steps := by
  induction steps generalizing l with
  | nil => exact List.mem_cons_self
  | cons s ss ih =>
    rw [passesAll]
    obtain h | h := List.mem_cons.mp (ih (run l s).2)
    · refine List.mem_cons_of_mem _ (List.mem_append_left _ ?_)
      rw [afterAll, List.foldl_cons, ← afterAll, h]
      exact run_mem_passes l s
    · exact List.mem_cons_of_mem _ (List.mem_append_right _ h)

lemma passesAll_append (l : Logger) (steps steps' : List Step) :
    passesAll l (steps ++ steps') = passesAll l steps ++ passesAll (afterAll l steps) steps' := by
  induction steps generalizing l with
  | nil => rfl
  | cons s ss ih =>
    rw [List.cons_append, passesAll, ih, passesAll, List.append_assoc]
    rfl

lemma run_setup (l : Logger) (file : Text) (fileLevel stdoutLevel : Int) :
    (run l (.setup file fileLevel stdoutLevel)).2 =
      (Logger.setup { l with stdout := [] } file fileLevel stdoutLevel).1 := by
  rw [run]

lemma steady_run_record (l : Logger) (level : Int) (message : Text) (args : List Text) :
    l.Steady (run l (.record level message args)).2 := by
  have hcleared : l.Steady { l with stdout := [] } := ⟨rfl, rfl, rfl, rfl⟩
  rw [run]
  cases Template.fill message args with
  | none => exact hcleared
  | some text => exact hcleared.trans (Logger.steady_record _ _)

mutual

lemma tidy_passes {l : Logger} (hl : l.Tidy directory) :
    ∀ s, ∀ m ∈ passes l s, m.Tidy directory
  | .setup file fileLevel stdoutLevel => by
    rw [passes, List.forall_mem_singleton, run_setup]
    have hcleared : Logger.Tidy directory { l with stdout := [] } := hl.congr rfl rfl
    exact hcleared.setup file fileLevel stdoutLevel
  | .threshold level => by
    rw [passes, List.forall_mem_singleton]
    exact (hl.setStdoutThreshold level).congr rfl rfl
  | .record level message args => by
    rw [passes, List.forall_mem_singleton]
    exact (steady_run_record l level message args).tidy hl
  | .owning steps error => by
    have hinner := tidy_passesAll (hl.setStdoutThreshold Level.silent) steps
    have hlast := hinner _ (afterAll_mem_passesAll _ steps)
    rw [passes, List.forall_mem_append, List.forall_mem_singleton, run_owning]
    exact ⟨hinner, (hlast.setStdoutThreshold _).congr rfl rfl⟩

lemma tidy_passesAll {l : Logger} (hl : l.Tidy directory) :
    ∀ steps, ∀ m ∈ l :: passesAll l steps, m.Tidy directory
  | [] => List.forall_mem_singleton.mpr hl
  | s :: ss => by
    have hs := tidy_passes hl s
    have hss := tidy_passesAll (hs _ (run_mem_passes l s)) ss
    rw [passesAll, List.forall_mem_cons, List.forall_mem_append]
    exact ⟨hl, hs, (List.forall_mem_cons.mp hss).2⟩

end

/-! ### Steps that only log -/

mutual

/-- The records that a step makes, in the blocks inside of it too. A message that does not fit its
arguments makes none. -/
def records : Step → List LogRecord
  | .setup .. => []
  | .threshold _ => []
  | .record level message args => ((Template.fill message args).map (LogRecord.mk level)).toList
  | .owning steps _ => recordsAll steps

/-- The records that several steps make. -/
def recordsAll : List Step → List LogRecord
  | [] => []
  | s :: ss => records s ++ recordsAll ss

end

mutual

/-- The step logs records of levels in use, in blocks or not, and does nothing else. -/
def LogsOnly : Step → Prop
  | .setup .. => False
  | .threshold _ => False
  | .record level _ _ => level ≤ Level.critical
  | .owning steps _ => LogsOnlyAll steps

/-- Several steps only log. -/
def LogsOnlyAll : List Step → Prop
  | [] => True
  | s :: ss => LogsOnly s ∧ LogsOnlyAll ss

end

lemma logs_record (hl : l.Tidy directory) (hsilenced : l.Silenced) {level : Int}
    (hlevel : level ≤ Level.critical) (message : Text) (args : List Text) :
    let m := (run l (.record level message args)).2
    l.Logs (records (.record level message args)) m ∧ m.stdout = [] := by
  rw [run, records]
  have hcleared : Logger.Tidy directory { l with stdout := [] } := hl.congr rfl rfl
  cases Template.fill message args with
  | none => exact ⟨(Logger.Logs.refl l).congr_stdout l.stdout [], rfl⟩
  | some text =>
    have hlogs := hcleared.logs_record ⟨level, text⟩
    have hprinted := Logger.Silenced.stdout_record (l := { l with stdout := [] }) hsilenced
      (r := ⟨level, text⟩) hlevel
    exact ⟨hlogs.congr_stdout l.stdout _, hprinted⟩

/-- A block logs what is logged inside of it, and gives the terminal back. -/
lemma logs_owning {steps : List Step} {rs : List LogRecord}
    (h : (l.setStdoutThreshold Level.silent).Logs rs
      (afterAll (l.setStdoutThreshold Level.silent) steps)) (error : Option Text) :
    l.Logs rs (run l (.owning steps error)).2 := by
  rw [run_owning]
  exact h.of_setStdoutThreshold.congr_stdout l.stdout _

mutual

lemma logs_run {l : Logger} (hl : l.Tidy directory) (hsilenced : l.Silenced) :
    ∀ s, LogsOnly s → l.Logs (records s) (run l s).2 ∧ (run l s).2.stdout = []
  | .setup .., h => False.elim h
  | .threshold _, h => False.elim h
  | .record level message args, h => logs_record hl hsilenced h message args
  | .owning steps error, h => by
    obtain ⟨hlogs, hprinted⟩ := logs_runAll (hl.setStdoutThreshold _) hl.silenced steps h
    refine ⟨logs_owning hlogs error, ?_⟩
    rw [run_owning]
    exact hprinted

lemma logs_runAll {l : Logger} (hl : l.Tidy directory) (hsilenced : l.Silenced) :
    ∀ steps, LogsOnlyAll steps → l.Logs (recordsAll steps) (afterAll l steps) ∧
      (runAll l steps).flatMap (·.2.stdout) = []
  | [], _ => ⟨.refl l, rfl⟩
  | s :: ss, h => by
    obtain ⟨hlogs, hprinted⟩ := logs_run hl hsilenced s h.1
    have htidy := tidy_passes hl s _ (run_mem_passes l s)
    have hsilenced' : (run l s).2.Silenced := by
      rw [Logger.Silenced, hlogs.sinks]
      exact hsilenced
    obtain ⟨hlogs', hprinted'⟩ := logs_runAll htidy hsilenced' ss h.2
    refine ⟨hlogs.trans hlogs', ?_⟩
    rw [runAll, List.flatMap_cons, hprinted, hprinted', List.append_nil]

end

/-- **A screen owns the terminal.** After any steps of a logger without sinks, setting it up among
them, a block in which records are logged, in further blocks or not, prints nothing. Every sink of
a file has the records that reach it, once and in order, and the terminal has the threshold that it
had. At no time are there two sinks for the terminal or for one path, and the path of a sink is that
of a name as seen from the working directory. So if that directory is given from the root, there is
one sink at most for an absolute path, and to set up a file once more, whatever it is called then,
leaves its path with the one sink.

Any body may end in an error, and at any point, as it may be any steps that come before the error.
An error that no one catches is the end of the bodies around it as well. -/
theorem owning_prints_nothing (hl : l.sinks = []) (steps : List Step) {body : List Step}
    (hbody : LogsOnlyAll body) (error : Option Text) :
    let m := afterAll l steps
    let m' := (run m (.owning body error)).2
    m'.stdout = [] ∧
      (∀ path level, ⟨.file path, level⟩ ∈ m.sinks →
        m'.contents path = m.contents path ++
          ((recordsAll body).filter fun r => m.accepts r.level && level ≤ r.level).flatMap
            m.fileLine) ∧
      m'.stdoutThreshold = m.stdoutThreshold ∧
      ∀ n ∈ l :: passesAll l (steps ++ [.owning body error]),
        n.targets.Nodup ∧
          (∀ path, .file path ∈ n.targets →
            (∃ file, path = Path.absolute l.directory file) ∧
              (l.directory.head? = some '/' → path.Absolute)) ∧
          ∀ file fileLevel stdoutLevel, (n.setup file fileLevel stdoutLevel).2 = .ok () →
            (n.setup file fileLevel stdoutLevel).1.targets.count
              (.file (Path.absolute l.directory file)) = 1 := by
  have htidy := tidy_passesAll (Logger.tidy_of_sinks_eq_nil hl)
  have hm : (afterAll l steps).Tidy l.directory := htidy steps _ (afterAll_mem_passesAll l steps)
  obtain ⟨hlogs, hprinted⟩ := logs_runAll (hm.setStdoutThreshold _) hm.silenced body hbody
  have hblock := logs_owning hlogs error
  refine ⟨?_, hblock.written, ?_, fun n hn => ?_⟩
  · rw [run_owning]
    exact hprinted
  · rw [Logger.stdoutThreshold, Logger.stdoutLevel?, hblock.sinks]
    rfl
  · have hn := htidy _ n hn
    refine ⟨hn.nodup, fun path hpath => ?_, fun file fileLevel stdoutLevel hopens => ?_⟩
    · obtain ⟨file, rfl⟩ := hn.opened path hpath
      exact ⟨⟨file, rfl⟩, fun hroot => Path.absolute_absolute hroot file⟩
    · have hmem := Logger.mem_targets_setup hopens
      rw [Logger.pathOf, hn.directory_eq] at hmem
      exact List.count_eq_one_of_mem (hn.setup file fileLevel stdoutLevel).nodup hmem

/-- A block with a block inside, both ended by the same error, on a logger set up three times for a
file that is called by another name each time. -/
theorem owning_prints_nothing_nested :
    let l : Logger := { directory := "/srv".toList }
    let steps : List Step :=
      [.setup "a.log".toList Level.debug Level.notice,
        .setup "x/../a.log".toList Level.error Level.critical,
        .setup "/srv/a.log".toList Level.info Level.critical]
    let body : List Step :=
      [.record Level.error "%s is down".toList ["host".toList],
        .owning [.record Level.critical "stop".toList []] (some "stop".toList)]
    let path : Path := [['/'], "srv".toList, "a.log".toList]
    let m := afterAll l steps
    let m' := (run m (.owning body (some "stop".toList))).2
    l.sinks = [] ∧ LogsOnlyAll body ∧
      m'.stdout = [] ∧
      m'.contents path =
        Text.lines ["<time> - ERROR - container_browser - host is down".toList,
          "<time> - CRITICAL - container_browser - stop".toList] ∧
      m'.stdoutThreshold = Level.notice ∧
      m.targets = [.file path, .stdout] ∧ path.Absolute := by
  intro l steps body path m m'
  have hbody : LogsOnlyAll body := ⟨Int.le_of_lt (by decide), ⟨Int.le_refl _, trivial⟩, trivial⟩
  obtain ⟨hprinted, hwritten, hthreshold, hpaths⟩ :=
    owning_prints_nothing (l := l) rfl steps hbody (some "stop".toList)
  have htargets : m.targets = [.file path, .stdout] := by decide
  have hm : m ∈ l :: passesAll l (steps ++ [.owning body (some "stop".toList)]) := by
    rw [passesAll_append]
    exact List.mem_cons.mpr ((List.mem_cons.mp (afterAll_mem_passesAll l steps)).imp_right
      (List.mem_append_left _))
  obtain ⟨-, hfiles, -⟩ := hpaths m hm
  refine ⟨rfl, hbody, hprinted, ?_, hthreshold.trans (by decide), htargets, ?_⟩
  · exact (hwritten path Level.debug (by decide)).trans (by decide)
  · exact (hfiles path (htargets ▸ List.mem_cons_self)).2 rfl

end Step

end DockConsole.Log
