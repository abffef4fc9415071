import Mathlib.Data.List.Nodup
import DockConsole.Log.Logger
import DockConsole.Proofs.Log.Path

/-!
The sinks of a logger, and what a record does to them.

Nothing detaches a sink and nothing attaches a second one for the same target. As paths that are
written alike are alike, no two sinks write the same file, and a record leaves one line in the file
of every sink that it reaches.
-/

namespace DockConsole.Log

namespace Logger

def targets (l : Logger) : List Target := l.sinks.map (·.target)

/-- No target has two sinks, and the paths of files are those of names seen from the directory. -/
structure Tidy (directory : Text) (l : Logger) : Prop where
  directory_eq : l.directory = directory
  nodup : l.targets.Nodup
  opened : ∀ path, .file path ∈ l.targets → ∃ file, path = Path.absolute directory file

variable {directory : Text}

lemma Tidy.congr {l m : Logger} (hl : l.Tidy directory) (hdirectory : m.directory = l.directory)
    (h : m.targets = l.targets) : m.Tidy directory :=
  ⟨hdirectory.trans hl.directory_eq, h ▸ hl.nodup, h ▸ hl.opened⟩

lemma tidy_of_sinks_eq_nil {l : Logger} (h : l.sinks = []) : l.Tidy l.directory :=
  ⟨rfl, by simp [targets, h], by simp [targets, h]⟩

/-! ### Sinks are attached once -/

lemma hasSink_eq_true_iff (l : Logger) (t : Target) : l.hasSink t = true ↔ t ∈ l.targets := by
  simp only [hasSink, targets, List.any_eq_true, List.mem_map, decide_eq_true_eq]

lemma mem_targets_attach (l : Logger) (t : Target) (level : Int) :
    t ∈ (l.attach t level).targets := by
  rw [attach]
  split_ifs with h
  · exact (hasSink_eq_true_iff l t).mp h
  · simp [targets]

lemma Tidy.attach {l : Logger} (hl : l.Tidy directory) {t : Target}
    (ht : ∀ path, t = .file path → ∃ file, path = Path.absolute directory file) (level : Int) :
    (l.attach t level).Tidy directory := by
  rw [Logger.attach]
  split_ifs with h
  · exact hl
  · have htargets : targets { l with sinks := l.sinks ++ [⟨t, level⟩] } = l.targets ++ [t] :=
      List.map_append
    have hnew : t ∉ l.targets := fun hmem => h ((hasSink_eq_true_iff l t).mpr hmem)
    refine ⟨hl.directory_eq, ?_, fun path hpath => ?_⟩
    · rw [htargets, List.nodup_append_comm]
      exact List.nodup_cons.mpr ⟨hnew, hl.nodup⟩
    · rw [htargets, List.mem_append, List.mem_singleton] at hpath
      exact hpath.elim (hl.opened path) fun h => ht path h.symm

lemma Tidy.append {l : Logger} (hl : l.Tidy directory) (path : Path) (text : Text) :
    (l.append path text).Tidy directory :=
  hl.congr rfl rfl

lemma Tidy.setup {l : Logger} (hl : l.Tidy directory) (file : Text) (fileLevel stdoutLevel : Int) :
    (l.setup file fileLevel stdoutLevel).1.Tidy directory := by
  have hlevel : Tidy directory { l with level := min fileLevel stdoutLevel } := hl.congr rfl rfl
  have hstdout : ∀ path, Target.stdout = .file path →
      ∃ file, path = Path.absolute directory file := by
    rintro _ ⟨⟩
  simp only [Logger.setup]
  split
  · exact hlevel.attach hstdout _
  · split
    · refine ((hlevel.append _ _).attach ?_ _).attach hstdout _
      rintro path ⟨⟩
      exact ⟨file, congrArg (Path.absolute · file) hl.directory_eq⟩
    · exact hlevel

/-- A set-up that opens its file leaves one sink for it. -/
lemma mem_targets_setup {l : Logger} {file : Text} {fileLevel stdoutLevel : Int}
    (hopens : (l.setup file fileLevel stdoutLevel).2 = .ok ()) :
    .file (l.pathOf file) ∈ (l.setup file fileLevel stdoutLevel).1.targets := by
  have hkept (m : Logger) (t : Target) (h : t ∈ m.targets) (level : Int) :
      t ∈ (m.attach .stdout level).targets := by
    rw [attach]
    split_ifs
    · exact h
    · simp only [targets, List.map_append, List.mem_append]
      exact .inl h
  simp only [Logger.setup] at hopens ⊢
  split at hopens
  · next h =>
    rw [if_pos h]
    exact hkept _ _ ((hasSink_eq_true_iff _ _).mp h) _
  · next h =>
    rw [if_neg h]
    split at hopens
    · exact hkept _ _ (mem_targets_attach _ _ _) _
    · cases hopens

/-! ### The threshold of the terminal -/

lemma map_target_relevel (level : Int) (ss : List Sink) :
    (relevel level ss).map (·.target) = ss.map (·.target) := by
  induction ss with
  | nil => rfl
  | cons s ss ih =>
    rw [relevel]
    split_ifs with h
    · rfl
    · rw [List.map_cons, ih, List.map_cons]

lemma Tidy.setStdoutThreshold {l : Logger} (hl : l.Tidy directory) (level : Int) :
    (l.setStdoutThreshold level).Tidy directory :=
  hl.congr rfl (map_target_relevel level l.sinks)

lemma mem_relevel_file {level : Int} {ss : List Sink} {path : Path} {n : Int} :
    ⟨.file path, n⟩ ∈ relevel level ss ↔ (⟨.file path, n⟩ : Sink) ∈ ss := by
  induction ss with
  | nil => rfl
  | cons s ss ih =>
    obtain ⟨target, level'⟩ := s
    rw [relevel]
    split_ifs with h
    · simp only at h
      simp [h]
    · rw [List.mem_cons, ih, List.mem_cons]

/-- Of several thresholds set one after the other, the last one counts. -/
lemma relevel_relevel (level level' : Int) (ss : List Sink) :
    relevel level (relevel level' ss) = relevel level ss := by
  induction ss with
  | nil => rfl
  | cons s ss ih =>
    by_cases h : s.target = .stdout
    · simp [relevel, h]
    · simp [relevel, h, ih]

/-- To set the threshold that there is changes nothing. -/
lemma relevel_stdoutThreshold (l : Logger) : relevel l.stdoutThreshold l.sinks = l.sinks := by
  rw [stdoutThreshold, stdoutLevel?]
  induction l.sinks with
  | nil => rfl
  | cons s ss ih =>
    obtain ⟨target, level⟩ := s
    cases target with
    | file path => simpa [relevel] using ih
    | stdout => simp [relevel]

/-- What is printed on the terminal is more urgent than any level in use. -/
def Silenced (l : Logger) : Prop := ∀ s ∈ l.sinks, s.target = .stdout → Level.silent ≤ s.level

lemma Tidy.silenced {l : Logger} (hl : l.Tidy directory) :
    (l.setStdoutThreshold Level.silent).Silenced := by
  have hnodup := hl.nodup
  rw [targets] at hnodup
  show ∀ s ∈ relevel Level.silent l.sinks, s.target = .stdout → Level.silent ≤ s.level
  generalize l.sinks = ss at hnodup
  induction ss with
  | nil => simp [relevel]
  | cons s ss ih =>
    obtain ⟨hs, hss⟩ := List.nodup_cons.mp hnodup
    rw [relevel]
    split_ifs with h
    · refine List.forall_mem_cons.mpr ⟨fun _ => Int.le_refl _, fun s' hs' hstdout => ?_⟩
      -- A second sink for the terminal would be one too many.
      exact absurd (List.mem_map.mpr ⟨s', hs', hstdout.trans h.symm⟩) hs
    · exact List.forall_mem_cons.mpr ⟨fun hstdout => absurd hstdout h, ih hss⟩

/-! ### What a record leaves alone -/

/-- Nothing has changed that decides where records go and how they look there. -/
structure Steady (l m : Logger) : Prop where
  level : m.level = l.level
  sinks : m.sinks = l.sinks
  clock : m.clock = l.clock
  directory : m.directory = l.directory

lemma Steady.refl (l : Logger) : Steady l l := ⟨rfl, rfl, rfl, rfl⟩

lemma Steady.trans {l m n : Logger} (h : Steady l m) (h' : Steady m n) : Steady l n :=
  ⟨h'.level.trans h.level, h'.sinks.trans h.sinks, h'.clock.trans h.clock,
    h'.directory.trans h.directory⟩

lemma Steady.tidy {l m : Logger} (h : Steady l m) (hl : l.Tidy directory) : m.Tidy directory :=
  hl.congr h.directory (by rw [targets, h.sinks, targets])

lemma steady_writeTo (r : LogRecord) (l : Logger) (s : Sink) : Steady l (writeTo r l s) := by
  rw [writeTo]
  split_ifs
  · cases s.target <;> exact ⟨rfl, rfl, rfl, rfl⟩
  · exact .refl l

lemma steady_foldl_writeTo (r : LogRecord) (l : Logger) (ss : List Sink) :
    Steady l (ss.foldl (writeTo r) l) := by
  induction ss generalizing l with
  | nil => exact .refl l
  | cons s ss ih => exact (steady_writeTo r l s).trans (ih _)

lemma steady_record (l : Logger) (r : LogRecord) : Steady l (l.record r) := by
  rw [record]
  split_ifs
  · exact steady_foldl_writeTo r l l.sinks
  · exact .refl l

lemma fileLine_congr {l m : Logger} (h : m.clock = l.clock) (r : LogRecord) :
    m.fileLine r = l.fileLine r := by
  rw [fileLine, fileLine, h]

lemma stdout_foldl_writeTo {r : LogRecord} {ss : List Sink}
    (h : ∀ s ∈ ss, s.target = .stdout → r.level < s.level) (l : Logger) :
    (ss.foldl (writeTo r) l).stdout = l.stdout := by
  induction ss generalizing l with
  | nil => rfl
  | cons s ss ih =>
    obtain ⟨hs, hss⟩ := List.forall_mem_cons.mp h
    rw [List.foldl_cons, ih hss, writeTo]
    split_ifs with hlevel
    · cases htarget : s.target with
      | file path => rfl
      | stdout => exact absurd hlevel (Int.not_le.mpr (hs htarget))
    · rfl

/-- Levels in use stay below the threshold of a silenced terminal. -/
lemma Silenced.stdout_record {l : Logger} (hl : l.Silenced) {r : LogRecord}
    (hr : r.level ≤ Level.critical) : (l.record r).stdout = l.stdout := by
  rw [record]
  split_ifs
  · exact stdout_foldl_writeTo (fun s hs hstdout => Int.lt_of_lt_of_le (Int.lt_add_one_of_le hr)
      (hl s hs hstdout)) l
  · rfl

/-! ### What a record writes -/

/-- What is in the file at a path. -/
def contents (l : Logger) (path : Path) : Text := (l.files.get? path.text).getD []

lemma contents_append_self (l : Logger) (path : Path) (text : Text) :
    (l.append path text).contents path = l.contents path ++ text := by
  simp [contents, append, NameMap.get?_put]

lemma contents_append_of_ne {path path' : Path} (h : path.text ≠ path'.text) (l : Logger)
    (text : Text) : (l.append path' text).contents path = l.contents path := by
  simp [contents, append, NameMap.get?_put, h]

/-- Sinks of other files leave a file alone. -/
lemma contents_foldl_writeTo_of_ne {ss : List Sink} {path : Path}
    (h : ∀ s ∈ ss, ∀ path', s.target = .file path' → path.text ≠ path'.text) (r : LogRecord)
    (l : Logger) : (ss.foldl (writeTo r) l).contents path = l.contents path := by
  induction ss generalizing l with
  | nil => rfl
  | cons s ss ih =>
    obtain ⟨hs, hss⟩ := List.forall_mem_cons.mp h
    rw [List.foldl_cons, ih hss, writeTo]
    split_ifs
    · cases htarget : s.target with
      | file path' => exact contents_append_of_ne (hs path' htarget) l _
      | stdout => rfl
    · rfl

/-- No other sink writes the file of a sink. -/
lemma Tidy.text_ne {l : Logger} (hl : l.Tidy directory) {before after : List Sink} {path : Path}
    {level : Int} (h : l.sinks = before ++ ⟨.file path, level⟩ :: after) {s : Sink}
    (hs : s ∈ before ++ after) {path' : Path} (hpath' : s.target = .file path') :
    path.text ≠ path'.text := by
  have hnodup : (Target.file path :: (before ++ after).map (·.target)).Nodup := by
    have := hl.nodup
    rwa [targets, h, List.map_append, List.map_cons, List.nodup_middle, ← List.map_append] at this
  have hmem : ∀ t ∈ Target.file path :: (before ++ after).map (·.target), t ∈ l.targets := by
    intro t ht
    rw [targets, h, List.map_append, List.map_cons]
    simpa [or_left_comm] using ht
  have hs' : Target.file path' ∈ (before ++ after).map (·.target) :=
    List.mem_map.mpr ⟨s, hs, hpath'⟩
  obtain ⟨t, rfl⟩ := hl.opened path (hmem _ List.mem_cons_self)
  obtain ⟨t', rfl⟩ := hl.opened path' (hmem _ (List.mem_cons_of_mem _ hs'))
  intro htext
  have hsame : Path.absolute directory t = Path.absolute directory t' :=
    Path.ofText_eq_of_text_eq htext
  rw [hsame] at hnodup
  exact (List.nodup_cons.mp hnodup).1 hs'

/-- Whether a record reaches a sink of the given level. -/
def reaches (l : Logger) (level : Int) (r : LogRecord) : Bool :=
  l.accepts r.level && level ≤ r.level

/-- The lines that records leave in the file of a sink of the given level. -/
def linesOf (l : Logger) (level : Int) (rs : List LogRecord) : Text :=
  (rs.filter (l.reaches level)).flatMap l.fileLine

lemma linesOf_append (l : Logger) (level : Int) (rs rs' : List LogRecord) :
    l.linesOf level (rs ++ rs') = l.linesOf level rs ++ l.linesOf level rs' := by
  rw [linesOf, List.filter_append, List.flatMap_append, linesOf, linesOf]

lemma linesOf_congr {l m : Logger} (hlevel : m.level = l.level) (hclock : m.clock = l.clock)
    (level : Int) (rs : List LogRecord) : m.linesOf level rs = l.linesOf level rs := by
  have hreaches : m.reaches level = l.reaches level := funext fun r => by
    rw [reaches, reaches, accepts, accepts, threshold, threshold, hlevel]
  rw [linesOf, linesOf, hreaches, funext (fileLine_congr hclock)]

/-- A record is written once to the file of every sink that it reaches. -/
lemma Tidy.contents_record {l : Logger} (hl : l.Tidy directory) {path : Path} {level : Int}
    (h : ⟨.file path, level⟩ ∈ l.sinks) (r : LogRecord) :
    (l.record r).contents path = l.contents path ++ l.linesOf level [r] := by
  obtain ⟨before, after, hsplit⟩ := List.append_of_mem h
  have hne : ∀ s ∈ before ++ after, ∀ path', s.target = .file path' → path.text ≠ path'.text :=
    fun s hs path' => hl.text_ne hsplit hs
  rw [record, hsplit, List.foldl_append, List.foldl_cons]
  have hwrite : ∀ m : Logger, m.clock = l.clock →
      (writeTo r m ⟨.file path, level⟩).contents path =
        m.contents path ++ if level ≤ r.level then l.fileLine r else [] := by
    intro m hm
    rw [writeTo]
    split_ifs
    · rw [contents_append_self, fileLine_congr hm]
    · exact (List.append_nil _).symm
  by_cases haccepts : l.accepts r.level
  · rw [if_pos haccepts,
      contents_foldl_writeTo_of_ne (fun s hs => hne s (List.mem_append_right _ hs)),
      hwrite _ (steady_foldl_writeTo r l before).clock,
      contents_foldl_writeTo_of_ne (fun s hs => hne s (List.mem_append_left _ hs))]
    by_cases hlevel : level ≤ r.level <;> simp [linesOf, reaches, haccepts, hlevel]
  · simp [linesOf, reaches, haccepts]

end Logger

end DockConsole.Log
