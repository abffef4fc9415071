import DockConsole.Proofs.App.Failures
import DockConsole.Proofs.Table.Loads

/-!
When the list is on screen.

Past its start the program has a list to show, and a load that fails leaves that list where it was.
But the key that switches between all containers and running ones unmounts the table first, so if
the load of that key fails, there is nothing to go back to: the screen stays blank until some later
load succeeds.
-/

namespace DockConsole

namespace Table

variable {ε : Type}

lemma mounted_remountFrom (t : Table) (p : Provider ε) :
    (t.remountFrom p).1.mounted ↔ (t.remountFrom p).2 = .ok () ∨ t.mounted := by
  cases h : p t.selections t.sortMode with
  | ok containers =>
    rw [remountFrom_of_ok h]
    exact iff_of_true rfl (.inl rfl)
  | error e =>
    rw [remountFrom_of_error h]
    simp

end Table

namespace App

variable {a : App}

/-! ### Loads of the program -/

/-- The daemon as the provider of the table, as it answers at present. -/
def provider (a : App) : Table.Provider Trouble := fun selections mode =>
  (a.daemon.list selections mode a.network).result.bind containers

/-- The program loads its table whether it is mounted or not. -/
lemma load_eq (a : App) : (a.load.1.table, a.load.2.2) = a.table.remountFrom a.provider := by
  rw [load]
  cases h : (a.daemon.list a.table.selections a.table.sortMode a.network).result.bind containers with
  | ok listed =>
    have hok : a.provider a.table.selections a.table.sortMode = .ok listed := h
    rw [Table.remountFrom_of_ok hok]
  | error e =>
    have herror : a.provider a.table.selections a.table.sortMode = .error e := h
    rw [Table.remountFrom_of_error herror]

lemma mounted_load (a : App) :
    a.load.1.table.mounted ↔ a.askList.result = .ok () ∨ a.table.mounted := by
  have hmounted := a.table.mounted_remountFrom a.provider
  rwa [← load_eq, result_load] at hmounted

lemma table_reload (a : App) : a.reload.app.table = a.load.1.table := by
  rw [reload]
  split <;> next h => rw [h]

lemma table_inspect (a : App) : a.inspect.app.table = a.table := by
  rw [inspect]
  split
  · rfl
  · split
    · rfl
    · simp only
      split <;> rfl

/-- One of so many rounds of the refresh loop succeeds, with no fault before it. -/
def Renewed (a : App) (rounds : ℕ) : Prop :=
  ∃ i < rounds, (a.loaded i).askList.result = .ok () ∧
    ∀ j < i, ∀ f text, ¬ (a.loaded j).Stricken f text

lemma renewed_succ (a : App) (rounds : ℕ) :
    a.Renewed (rounds + 1) ↔ a.askList.result = .ok () ∨
      (∀ f text, ¬ a.Stricken f text) ∧ a.load.1.Renewed rounds := by
  constructor
  · rintro ⟨i, hi, hok, hspared⟩
    cases i with
    | zero => exact .inl hok
    | succ i =>
      exact .inr ⟨hspared 0 (Nat.succ_pos i), i, by omega, hok,
        fun j hj => hspared (j + 1) (by omega)⟩
  · rintro (hok | ⟨hfirst, i, hi, hok, hspared⟩)
    · exact ⟨0, Nat.succ_pos rounds, hok, fun j hj => absurd hj (Nat.not_lt_zero j)⟩
    · refine ⟨i + 1, by omega, hok, fun j hj => ?_⟩
      cases j with
      | zero => exact hfirst
      | succ j => exact hspared j (by omega)

lemma mounted_refreshLoop (a : App) (rounds : ℕ) :
    (a.refreshLoop rounds).app.table.mounted ↔ a.Renewed rounds ∨ a.table.mounted := by
  induction rounds generalizing a with
  | zero => exact (or_iff_right fun ⟨i, hi, _⟩ => Nat.not_lt_zero i hi).symm
  | succ rounds ih =>
    rw [renewed_succ]
    by_cases hfault : ∃ f text, a.Stricken f text
    · -- the rounds end with the first, which fails
      obtain ⟨f, text, hstruck⟩ := hfault
      rw [(refreshLoop_of_stricken hstruck rounds).1, mounted_load]
      refine or_congr_left ⟨.inl, fun h => h.resolve_right ?_⟩
      exact fun hrest => hrest.1 f text hstruck
    · simp only [not_exists] at hfault
      rw [(refreshLoop_of_spared hfault rounds).1, ih, mounted_load]
      simp only [hfault, not_false_eq_true, implies_true, true_and]
      tauto

/-- Of the commands only a load that succeeds mounts the table, and only the switch unmounts it. -/
lemma mounted_command (a : App) (c : Command) :
    (a.command c).app.table.mounted ↔
      (c ≠ .inspect ∧ ∃ q ∈ a.ask? c, q.result = .ok ()) ∨
        a.table.mounted ∧ c ≠ .toggleShowAll := by
  cases c with
  | reload =>
    show a.reload.app.table.mounted ↔ _
    rw [table_reload, mounted_load]
    simp [ask?]
  | toggleShowAll =>
    show (reload _).app.table.mounted ↔ _
    rw [table_reload, mounted_load]
    simp [ask?, Table.toggleShowAll]
    rfl
  | inspect =>
    show a.inspect.app.table.mounted ↔ _
    rw [table_inspect]
    simp
  | _ => simp [ask?]; rfl

/-- A key of the list mounts the table exactly if its command is a load that succeeds, and unmounts
it only by the switch. -/
lemma mounted_pressList (a : App) (key : Int) :
    (a.pressList key).app.table.mounted ↔
      (∃ c q, Command.ofKey key = some c ∧ c ≠ .inspect ∧ q ∈ a.ask? c ∧ q.result = .ok ()) ∨
        a.table.mounted ∧ Command.ofKey key ≠ some .toggleShowAll := by
  rw [pressList]
  split
  · next hsilent =>
    subst hsilent
    refine ⟨fun h => .inr ⟨h, by rintro ⟨⟩⟩, ?_⟩
    rintro (⟨c, q, ⟨⟩, -⟩ | ⟨h, -⟩)
    exact h
  · cases hkey : Command.ofKey key with
    | none => simp
    | some c =>
      have hcommand := mounted_command { a with message := [] } c
      rw [ask?_cleared] at hcommand
      simpa using hcommand

lemma mounted_pressPrompt (a : App) (p : Prompt) (key : Int) :
    (a.pressPrompt p key).app.table.mounted = a.table.mounted := by
  rw [pressPrompt]
  split <;> rfl

lemma mounted_await (a : App) (next : Next) :
    (a.await next).1.table.mounted = a.table.mounted := by
  cases next with
  | list => exact Table.mounted_render a.layout.table a.cursor
  | _ => rfl

/-! ### What happens to a run -/

namespace Run

variable {r : Run}

/-- The key of the switch is hit. -/
def Switches (r : Run) : Happening → Prop
  | .key key => r.ending = none ∧ r.Listens ∧ Command.ofKey key = some .toggleShowAll
  | _ => False

/-- A load that succeeds is part of what happens. -/
def Renews (r : Run) : Happening → Prop
  | .key key => r.ending = none ∧ r.Listens ∧ ∃ c q, Command.ofKey key = some c ∧ c ≠ .inspect ∧
      q ∈ r.app.ask? c ∧ q.result = .ok ()
  | .refresh rounds => r.ending = none ∧ r.fallen = none ∧ r.app.Renewed rounds
  | _ => False

lemma mounted_proceed (r : Run) (turn : Turn) :
    (r.proceed turn).app.table.mounted = turn.app.table.mounted := by
  have hawait := turn.app.mounted_await turn.next
  rw [proceed]
  cases hnext : turn.next with
  | quit => rfl
  | died => rfl
  | _ =>
    rw [hnext] at hawait
    exact hawait

lemma mounted_press (hgoing : r.ending = none) (key : Int) :
    (r.press key).app.table.mounted ↔
      r.Renews (.key key) ∨ r.app.table.mounted ∧ ¬ r.Switches (.key key) := by
  rw [press_eq, mounted_proceed, turn, Renews, Switches, Listens]
  cases r.waiting with
  | prompt p =>
    show (r.app.pressPrompt p key).app.table.mounted ↔ _
    rw [mounted_pressPrompt]
    simp
  | page => simp
  | _ =>
    refine (r.app.mounted_pressList key).trans ?_
    simp [hgoing]

lemma mounted_refreshed (r : Run) (rounds : ℕ) :
    (r.refreshed rounds).app.table.mounted ↔
      (r.fallen = none ∧ r.app.Renewed rounds) ∨ r.app.table.mounted := by
  cases hfallen : r.fallen with
  | some e => simp [refreshed_of_fallen (r := r) (by simp [hfallen])]
  | none => simp [refreshed_of_alive hfallen, mounted_refreshLoop]

/-- Whatever happens, only a load that succeeds mounts the table, and only the switch unmounts
it. -/
lemma mounted_step (r : Run) (x : Happening) :
    (r.step x).app.table.mounted ↔ r.Renews x ∨ r.app.table.mounted ∧ ¬ r.Switches x := by
  cases hgoing : r.ending with
  | some ending =>
    rw [step_of_ended (by rw [hgoing]; rfl)]
    cases x <;> simp [Renews, Switches, hgoing]
  | none =>
    unfold step
    rw [if_neg (by rw [hgoing]; rintro ⟨⟩)]
    cases x with
    | key key => exact mounted_press hgoing key
    | resize size =>
      -- the key that tells of it is no command
      refine (mounted_press (r := { r with app := { r.app with size := size } }) hgoing
        410).trans ?_
      have hnone : Command.ofKey 410 = none := rfl
      simp [Renews, Switches, hnone]
    | refresh rounds =>
      simp only [Renews, Switches, hgoing, true_and, not_false_eq_true, and_true]
      exact r.mounted_refreshed rounds
    | _ => simp [Renews, Switches]

end Run

/-! ### Whole runs -/

/-- The switch was made, and no load has succeeded since, neither its own nor any later one. -/
def Blanked (a : App) (pattern : Text) (colours : Bool) (script : List Happening) : Prop :=
  ∃ before x, before ++ [x] <+: script ∧ (a.running pattern colours before).Switches x ∧
    ∀ later y, before <+: later → later ++ [y] <+: script →
      ¬ (a.running pattern colours later).Renews y

variable {pattern : Text} {colours : Bool} {script : List Happening}

lemma append_singleton_prefix {before : List Happening} {x y : Happening} :
    before ++ [y] <+: script ++ [x] ↔ (before = script ∧ y = x) ∨ before ++ [y] <+: script := by
  rw [List.prefix_concat_iff, List.append_singleton_inj]

lemma blanked_append (x : Happening) :
    a.Blanked pattern colours (script ++ [x]) ↔
      ¬ (a.running pattern colours script).Renews x ∧
        (a.Blanked pattern colours script ∨ (a.running pattern colours script).Switches x) := by
  constructor
  · rintro ⟨before, y, hswitch, hswitches, hunrenewed⟩
    rcases append_singleton_prefix.mp hswitch with ⟨rfl, rfl⟩ | hearlier
    · exact ⟨hunrenewed before y List.prefix_rfl List.prefix_rfl, .inr hswitches⟩
    · have hbefore : before <+: script := (List.prefix_append before [y]).trans hearlier
      exact ⟨hunrenewed script x hbefore List.prefix_rfl, .inl ⟨before, y, hearlier, hswitches,
        fun later z hlater hz => hunrenewed later z hlater (hz.trans (List.prefix_append _ _))⟩⟩
  · rintro ⟨hfailed, ⟨before, y, hswitch, hswitches, hunrenewed⟩ | hswitches⟩
    · refine ⟨before, y, hswitch.trans (List.prefix_append _ _), hswitches,
        fun later z hlater hz => ?_⟩
      rcases append_singleton_prefix.mp hz with ⟨rfl, rfl⟩ | hearlier
      · exact hfailed
      · exact hunrenewed later z hlater hearlier
    · refine ⟨script, x, List.prefix_rfl, hswitches, fun later z hlater hz => ?_⟩
      rcases append_singleton_prefix.mp hz with ⟨rfl, rfl⟩ | hearlier
      · exact hfailed
      · -- nothing happens within the script after the whole of it
        have hlength := hlater.length_le
        have hshorter := hearlier.length_le
        rw [List.length_append, List.length_singleton] at hshorter
        omega

/-- Past its start the program has loaded its table. -/
lemma result_prepared (hstarted : (a.launch pattern).ending = none) :
    (a.prepared pattern).askList.result = .ok () := by
  rw [launch] at hstarted
  simp only [fst_prepared] at hstarted
  rw [← result_load]
  split at hstarted
  · assumption
  · cases hstarted
  · cases hstarted

lemma mounted_running_nil (hstarted : (a.launch pattern).ending = none) :
    (a.running pattern colours []).app.table.mounted := by
  have hlaunched : (a.launch pattern).app.table.mounted := by
    rw [app_launch, mounted_load]
    exact .inl (result_prepared hstarted)
  show (takeScreen colours (a.launch pattern)).app.table.mounted
  rw [takeScreen]
  split
  · exact hlaunched
  · rw [Run.mounted_proceed]
    exact hlaunched

lemma mounted_running_iff (hstarted : (a.launch pattern).ending = none) (colours : Bool)
    (script : List Happening) :
    (a.running pattern colours script).app.table.mounted ↔ ¬ a.Blanked pattern colours script := by
  induction script using List.reverseRecOn with
  | nil =>
    refine iff_of_true (mounted_running_nil hstarted) ?_
    rintro ⟨before, x, hswitch, -⟩
    exact List.cons_ne_nil _ _ (List.append_eq_nil_iff.mp (List.prefix_nil.mp hswitch)).2
  | append_singleton script x ih =>
    rw [running_append, List.foldl_cons, List.foldl_nil, Run.mounted_step, ih, blanked_append]
    tauto

/-! ### The rows of the last load -/

lemma answered_loadSteps (hok : a.askList.result = .ok ()) (s : Table.Session) :
    ∃ q, q ∈ (s.queriesIn a.loadSteps).filterMap Table.Query.answered? := by
  obtain ⟨containers, hanswer⟩ : ∃ containers, a.answer? = some containers := by
    rw [askList] at hok
    rw [answer?]
    cases h : (a.daemon.list a.table.selections a.table.sortMode a.network).result.bind
      containers with
    | ok listed => exact ⟨_, rfl⟩
    | error e =>
      rw [h] at hok
      cases hok
  rw [loadSteps, hanswer]
  exact ⟨(s.table.selections, containers), List.mem_singleton_self _⟩

/-- Past its start the program has rows, and they are those of the last load that succeeded. -/
lemma rows_of_last_load (hfresh : a.session.Fresh) (hstarted : (a.launch pattern).ending = none)
    (colours : Bool) (script : List Happening) :
    ∃ asked answer, ((a.session.queriesIn (a.trace pattern colours script)).filterMap
        Table.Query.answered?).getLast? = some (asked, answer) ∧
      ((a.running pattern colours script).app.table.rows.map Row.bare).Perm
        (answer.map (Row.ofContainer
          (a.running pattern colours script).app.table.header.titles)) := by
  have hlast := Table.History.last_run {} a.session (a.trace pattern colours script)
  -- the load of the start is one that succeeded, if no other
  obtain ⟨q, hq⟩ := answered_loadSteps (result_prepared hstarted)
    (a.session.run (if pattern.isEmpty then [] else [.filter (some pattern)]))
  have hmem : q ∈ (a.session.queriesIn (a.trace pattern colours script)).filterMap
      Table.Query.answered? := by
    rw [trace, launchSteps]
    simp only [Table.Session.queriesIn_append, List.filterMap_append, List.mem_append]
    exact .inl (.inl (.inr hq))
  obtain ⟨last, hq⟩ := Option.isSome_iff_exists.mp
    (List.getLast?_isSome.mpr (List.ne_nil_of_mem hmem))
  rw [hq] at hlast
  obtain rfl : (a.history pattern colours script).last = last := hlast
  exact ⟨_, _, hq, (holds_running hfresh pattern colours script).perm⟩

/-! ### What is on screen -/

lemma paint_empty (size : ScreenSize) (theme : Theme) : Screen.paint size theme .empty = [] := rfl

/-- The screen is erased, and nothing is put on it but the help bar. -/
def Frame.Blank (f : Frame) : Prop :=
  let bar := HelpBar.draw f.app.size f.app.theme f.app.table.selected f.app.table.shown.length
    f.app.message
  let calls : List ScreenCall := [.erase] ++ bar ++ [.refresh, .waitAtMost 1000]
  ∃ before, Quiet before ∧ f.events = before ++ calls.map .screen

lemma Frame.DrawnAlone.blank {f : Frame} (h : f.DrawnAlone) (hunmounted : ¬ f.app.table.mounted) :
    f.Blank := by
  obtain ⟨a, before, hquiet, happ, hevents⟩ := h
  rw [happ] at hunmounted
  have hlaid : ¬ a.layout.table.mounted := by
    rwa [show a.drawList.1.table = (a.layout.table.render a.cursor).1 from rfl,
      Table.mounted_render] at hunmounted
  have hrender : a.layout.table.render a.layout.cursor = (a.layout.table, .empty) :=
    Table.render_of_not_mounted hlaid a.cursor
  refine ⟨before, hquiet, ?_⟩
  rw [hevents, happ, drawList]
  simp only [hrender, paint_empty, List.append_nil]

/-- **When the list is on screen**: past the start of a run, whatever keys, resizes, refreshes and
failures follow, each frame was on screen at some point of the script, and the table was mounted then
unless the list had been switched and no load had succeeded since. The rows are those of the last
load that succeeded, in some order. A frame of the list paints them if the table is mounted, and
otherwise has nothing on it but the help bar. -/
theorem mounted_frame_iff {a : App} (hfresh : a.session.Fresh) (pattern : Text) (colours : Bool)
    (hstarted : (a.launch pattern).ending = none) (script : List Happening) {f : Frame}
    (hf : f ∈ (a.run pattern colours script).allFrames) :
    let t := f.app.table
    ∃ before g, before <+: script ∧ (a.running pattern colours before).shown = some g ∧
      ((a.running pattern colours before).app = f.app ∧ g.app = f.app ∧ g.events = f.events) ∧
      (t.mounted ↔ ¬ a.Blanked pattern colours before) ∧
      (∃ asked answer, ((a.session.queriesIn (a.trace pattern colours before)).filterMap
          Table.Query.answered?).getLast? = some (asked, answer) ∧
        (t.rows.map Row.bare).Perm (answer.map (Row.ofContainer t.header.titles))) ∧
      (f.OfList → (t.mounted → f.Paints) ∧ (¬ t.mounted → f.Blank)) := by
  intro t
  rw [allFrames_run] at hf
  obtain ⟨before, g, hbefore, hshown, happ, hframe⟩ := exists_shown_of_mem_allFrames hf
  have hmounted := mounted_running_iff hstarted colours before
  have hrows := rows_of_last_load hfresh hstarted colours before
  rw [happ] at hmounted hrows
  refine ⟨before, g, hbefore, hshown, ⟨happ, hframe⟩, hmounted, hrows, fun hlist => ?_⟩
  have hdrawn := drawnAlone_of_mem_allFrames hf hlist
  refine ⟨fun hm => ?_, hdrawn.blank⟩
  obtain ⟨b, earlier, hb, hevents⟩ := hdrawn.drawn
  exact paints_of_drawList hb hevents hm

/-- The frame on which the list is waited for is one of the list. -/
lemma exists_ofList (hlist : (a.running pattern colours script).waiting = .list)
    {p : Frame → Bool} (hshown : (a.running pattern colours script).shown.any p) :
    ∃ f ∈ (a.run pattern colours script).allFrames, f.OfList ∧ p f := by
  obtain ⟨f, hf, hp⟩ := (Option.any_eq_true _ _).mp hshown
  have hdrawn : f.Drawn := pictures_running a pattern colours script hlist f hf
  refine ⟨f, ?_, hdrawn.ofList, hp⟩
  rw [allFrames_run, Run.allFrames, hf]
  exact List.mem_append_right _ (List.mem_singleton_self f)

/-- The list is switched, and the daemon refuses the load: the frame is blank, though the table still
has its row. The daemon refuses the next load too, and the frame stays blank. A load that succeeds
brings the list back. -/
theorem mounted_frame_iff_switched :
    let listed : Json := .obj [("Id".toList, .str ['a']), ("State".toList, .str "running".toList)]
    let a := App.start { host := [] } { containers := [listed] } ⟨6, 40⟩ 1 true
    let refused : Outcome := .answered 500 "Oops".toList (.json .null)
    let switched := [.outcomes [refused], .key 37]
    let again := switched ++ [.outcomes [refused], .key 269]
    (a.session.Fresh ∧ (a.launch []).ending = none) ∧
      (∃ f ∈ (a.run [] true switched).allFrames, f.OfList ∧ f.Blank ∧ f.app.table.rows ≠ []) ∧
      (∃ f ∈ (a.run [] true again).allFrames, f.OfList ∧ f.Blank ∧ f.app.table.rows ≠ []) ∧
      ∃ f ∈ (a.run [] true (again ++ [.key 269])).allFrames, f.OfList ∧ f.Paints ∧
        f.app.table.rows ≠ [] := by
  intro listed a refused switched again
  have hfresh : a.session.Fresh := fresh_start _ _ _ _ _
  have hstarted : (a.launch []).ending = none := by decide +kernel
  have hblank (script : List Happening) (hlist : (a.running [] true script).waiting = .list)
      (hshown : (a.running [] true script).shown.any fun f =>
        ¬ f.app.table.mounted ∧ f.app.table.rows.length = 1) :
      ∃ f ∈ (a.run [] true script).allFrames, f.OfList ∧ f.Blank ∧ f.app.table.rows ≠ [] := by
    obtain ⟨f, hf, hofList, hp⟩ := exists_ofList hlist hshown
    obtain ⟨hunmounted, hrows⟩ := of_decide_eq_true hp
    obtain ⟨-, -, -, -, -, -, -, hdrawn⟩ := mounted_frame_iff hfresh [] true hstarted script hf
    exact ⟨f, hf, hofList, (hdrawn hofList).2 hunmounted, List.ne_nil_of_length_eq_add_one hrows⟩
  refine ⟨⟨hfresh, hstarted⟩, hblank switched (by decide +kernel) (by decide +kernel),
    hblank again (by decide +kernel) (by decide +kernel), ?_⟩
  obtain ⟨f, hf, hofList, hp⟩ : ∃ f ∈ (a.run [] true (again ++ [.key 269])).allFrames, f.OfList ∧
      decide (f.app.table.mounted ∧ f.app.table.rows.length = 1) :=
    exists_ofList (by decide +kernel) (by decide +kernel)
  obtain ⟨hmounted, hrows⟩ := of_decide_eq_true hp
  obtain ⟨-, -, -, -, -, -, -, hdrawn⟩ := mounted_frame_iff hfresh [] true hstarted _ hf
  exact ⟨f, hf, hofList, (hdrawn hofList).1 hmounted, List.ne_nil_of_length_eq_add_one hrows⟩

/-- The list of all containers is switched to running ones and the daemon refuses the load. The run
goes on, and the table is not mounted in its last frame. -/
theorem not_always_mounted :
    ¬ ∀ (daemon : Daemon) (network : Network) (size : ScreenSize) (refresh : Float) (showAll : Bool)
      (pattern : Text) (colours : Bool) (script : List Happening),
      let a := start daemon network size refresh showAll
      (a.launch pattern).ending = none →
      (∀ f text, (a.run pattern colours script).ending ≠ some (.died f text)) →
      ∀ f ∈ (a.run pattern colours script).allFrames, f.app.table.mounted := by
  intro h
  let a := App.start { host := [] } {} ⟨6, 40⟩ 1 true
  let script : List Happening := [.outcomes [.answered 500 "Oops".toList (.json .null)], .key 37]
  have hending : (a.run [] true script).ending = some .outOfKeys := by decide +kernel
  obtain ⟨f, hf, -, hunmounted⟩ : ∃ f ∈ (a.run [] true script).allFrames, f.OfList ∧
      !f.app.table.mounted := exists_ofList (by decide +kernel) (by decide +kernel)
  rw [h { host := [] } {} ⟨6, 40⟩ 1 true [] true script (by decide +kernel) ?_ f hf] at hunmounted
  · cases hunmounted
  · intro f text
    show (a.run [] true script).ending ≠ _
    rw [hending]
    rintro ⟨⟩

end App

end DockConsole
