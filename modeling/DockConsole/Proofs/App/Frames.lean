import DockConsole.Proofs.App.Turns
import DockConsole.Proofs.Table.Composition

/-!
What every frame of the list shows.

A frame of the list is laid out for the screen and drawn anew. So whatever keys, reloads and
failures came before it, the selection is the cursor brought within the rows shown, and the window
fits the screen.
-/

namespace DockConsole.App

/-- The frame is one of the list: the program waits a second at most for its key. A page and the
prompt are waited on without limit. -/
def Frame.OfList (f : Frame) : Prop := f.events.getLast? = some (.screen (.waitAtMost 1000))

/-- The frame ends in a drawing of the list. -/
def Frame.Drawn (f : Frame) : Prop :=
  ∃ (a : App) (before : List Event),
    f.app = a.drawList.1 ∧ f.events = before ++ a.drawList.2.map .screen

lemma Frame.Drawn.ofList {f : Frame} (h : f.Drawn) : f.OfList := by
  obtain ⟨a, before, -, hevents⟩ := h
  have hlast : a.drawList.2.getLast? = some (.waitAtMost 1000) := by
    simp only [drawList, List.getLast?_append]
    rfl
  rw [Frame.OfList, hevents, List.getLast?_append, List.getLast?_map, hlast]
  rfl

/-- The frame is a drawing of the list, and nothing else puts text on its screen. -/
def Frame.DrawnAlone (f : Frame) : Prop :=
  ∃ (a : App) (before : List Event),
    Quiet before ∧ f.app = a.drawList.1 ∧ f.events = before ++ a.drawList.2.map .screen

lemma Frame.DrawnAlone.drawn {f : Frame} : f.DrawnAlone → f.Drawn
  | ⟨a, before, _, happ, hevents⟩ => ⟨a, before, happ, hevents⟩

/-! ### The frame on screen -/

namespace Run

variable {r : Run}

/-- No text was put on the screen since the last frame, and if this one is of the list, then none
was for it but the drawing of the list. -/
structure Orderly (r : Run) : Prop where
  since : Quiet r.since
  shown : ∀ f, r.shown = some f → f.OfList → f.DrawnAlone

lemma since_close (r : Run) (key : Int) : (r.close key).since = r.since := by
  rw [close]
  split <;> rfl

lemma orderly_proceed (hsince : Quiet r.since) (hshown : r.shown = none) {turn : Turn}
    (hturn : Tidy turn) : (r.proceed turn).Orderly := by
  have hquiet (hnext : turn.next ≠ .page) : Quiet (r.since ++ turn.events) :=
    quiet_append.mpr ⟨hsince, hturn.quiet hnext⟩
  rw [proceed]
  cases hnext : turn.next with
  | quit => exact ⟨hquiet (by rw [hnext]; rintro ⟨⟩), by rintro f ⟨⟩⟩
  | died =>
    refine ⟨hquiet (by rw [hnext]; rintro ⟨⟩), fun f hf => ?_⟩
    rw [show r.shown = some f from hf] at hshown
    cases hshown
  | list =>
    refine ⟨List.forall_mem_nil _, ?_⟩
    rintro f ⟨⟩ -
    exact ⟨turn.app, _, hquiet (by rw [hnext]; rintro ⟨⟩), rfl, rfl⟩
  | page =>
    refine ⟨List.forall_mem_nil _, ?_⟩
    rintro f ⟨⟩ hlist
    have hlast : (r.since ++ turn.events ++ []).getLast? =
      some (.screen (.waitAtMost 1000)) := hlist
    rw [List.append_nil, List.getLast?_append, hturn.waits hnext] at hlast
    cases hlast
  | prompt p =>
    refine ⟨List.forall_mem_nil _, ?_⟩
    rintro f ⟨⟩ hlist
    have hlast : (r.since ++ turn.events ++ (p.draw turn.app.size turn.app.theme).map
      Event.screen).getLast? = some (.screen (.waitAtMost 1000)) := hlist
    rw [List.getLast?_append, List.getLast?_map, Prompt.draw] at hlast
    cases hlast

lemma orderly_press (h : r.Orderly) (key : Int) : (r.press key).Orderly := by
  rw [press_eq]
  exact orderly_proceed (by rw [since_close]; exact h.since) (r.shown_close key) (r.tidy_turn key)

lemma orderly_refreshed (h : r.Orderly) (rounds : ℕ) : (r.refreshed rounds).Orderly := by
  cases hfallen : r.fallen with
  | some e => rwa [refreshed_of_fallen (by simp [hfallen])]
  | none =>
    rw [refreshed_of_alive hfallen]
    exact ⟨quiet_append.mpr ⟨h.since, r.app.quiet_refreshLoop rounds⟩, h.shown⟩

lemma orderly_step (h : r.Orderly) (x : Happening) : (r.step x).Orderly := by
  unfold step
  split
  · exact h
  · cases x with
    | key key => exact orderly_press h key
    | resize size =>
      exact orderly_press (r := { r with app := { r.app with size := size } })
        ⟨h.since, h.shown⟩ 410
    | refresh rounds => exact orderly_refreshed h rounds
    | _ => exact ⟨h.since, h.shown⟩

lemma orderly_run (h : r.Orderly) (script : List Happening) : (script.foldl step r).Orderly := by
  induction script generalizing r with
  | nil => exact h
  | cons x script ih => exact ih (orderly_step h x)

end Run

lemma quiet_launch (a : App) (pattern : Text) : Quiet (a.launch pattern).since := by
  have hnoted : Quiet (if pattern.isEmpty then (a, []) else a.filter pattern).2 := by
    split
    · exact List.forall_mem_nil _
    · exact quiet_singleton.mpr (by rintro ⟨⟩)
  rw [launch]
  simp only
  split <;> exact quiet_append.mpr ⟨hnoted, quiet_load _⟩

lemma orderly_running (a : App) (pattern : Text) (colours : Bool) (script : List Happening) :
    (a.running pattern colours script).Orderly := by
  have hlaunched := quiet_launch a pattern
  refine Run.orderly_run ?_ script
  rw [takeScreen]
  split
  · refine ⟨hlaunched, fun f hf => ?_⟩
    rw [shown_launch] at hf
    cases hf
  · have hcalls : Quiet (((Theme.start colours).2 ++ [ScreenCall.keypad true]).map .screen) := by
      cases colours <;> decide
    exact Run.orderly_proceed hlaunched (shown_launch a pattern)
      (tidy_of_quiet (by rintro ⟨⟩) hcalls)

/-! ### All frames of a run -/

namespace Run

variable {r : Run}

lemma mem_allFrames_proceed (r : Run) (turn : Turn) {f : Frame}
    (hf : f ∈ (r.proceed turn).allFrames) :
    f ∈ r.allFrames ∨ (r.proceed turn).shown = some f ∧ (r.proceed turn).app = f.app := by
  rw [proceed] at hf ⊢
  cases hnext : turn.next with
  | quit =>
    rw [hnext] at hf
    exact .inl (List.mem_append_left _ (by simpa [allFrames] using hf))
  | died => exact .inl (by rwa [hnext] at hf)
  | _ =>
    rw [hnext] at hf
    rcases List.mem_append.mp hf with hf | hf
    · exact .inl (List.mem_append_left _ hf)
    · rw [List.mem_singleton.mp hf]
      exact .inr ⟨rfl, rfl⟩

lemma mem_allFrames_close {key : Int} {f : Frame} (hf : f ∈ (r.close key).allFrames) :
    ∃ g ∈ r.allFrames, g.app = f.app ∧ g.events = f.events := by
  rw [close] at hf
  split at hf
  · exact ⟨f, hf, rfl, rfl⟩
  · next g hg =>
    simp only [allFrames, Option.toList_none, List.append_nil, List.mem_append,
      List.mem_singleton] at hf
    rcases hf with hf | rfl
    · exact ⟨f, List.mem_append_left _ hf, rfl, rfl⟩
    · -- its key is all that the frame gets
      exact ⟨g, by simp [allFrames, hg], rfl, rfl⟩

lemma mem_allFrames_press {key : Int} {f : Frame} (hf : f ∈ (r.press key).allFrames) :
    (∃ g ∈ r.allFrames, g.app = f.app ∧ g.events = f.events) ∨
      (r.press key).shown = some f ∧ (r.press key).app = f.app := by
  rw [press_eq] at hf ⊢
  exact (mem_allFrames_proceed _ _ hf).imp_left mem_allFrames_close

lemma mem_allFrames_step (r : Run) (x : Happening) :
    ∀ f ∈ (r.step x).allFrames, (∃ g ∈ r.allFrames, g.app = f.app ∧ g.events = f.events) ∨
      (r.step x).shown = some f ∧ (r.step x).app = f.app := by
  unfold step
  split
  · exact fun f hf => .inl ⟨f, hf, rfl, rfl⟩
  · cases x with
    | key key => exact fun f => mem_allFrames_press
    | resize size =>
      exact fun f => mem_allFrames_press (r := { r with app := { r.app with size := size } })
    | refresh rounds =>
      obtain ⟨-, hframes, hshown, -⟩ := r.refreshed_keeps rounds
      refine fun f hf => .inl ⟨f, ?_, rfl, rfl⟩
      rwa [allFrames, hframes, hshown] at hf
    | _ => exact fun f hf => .inl ⟨f, hf, rfl, rfl⟩

/-- All frames of the list are drawings of it. -/
def Framed (r : Run) : Prop := ∀ f ∈ r.allFrames, f.OfList → f.Drawn

end Run

lemma allFrames_launch (a : App) (pattern : Text) : (a.launch pattern).allFrames = [] := by
  rw [launch]
  simp only
  split <;> rfl

/-- Every frame was on screen at some point of the script, and showed the program as it was. -/
lemma exists_shown_of_mem_allFrames {a : App} {pattern : Text} {colours : Bool}
    {script : List Happening} {f : Frame}
    (hf : f ∈ (a.running pattern colours script).allFrames) :
    ∃ before g, before <+: script ∧ (a.running pattern colours before).shown = some g ∧
      (a.running pattern colours before).app = f.app ∧ g.app = f.app ∧ g.events = f.events := by
  induction script using List.reverseRecOn generalizing f with
  | nil =>
    have htaken : ∀ f ∈ (takeScreen colours (a.launch pattern)).allFrames,
        (takeScreen colours (a.launch pattern)).shown = some f ∧
          (takeScreen colours (a.launch pattern)).app = f.app := by
      rw [takeScreen]
      split <;> intro f hf
      · rw [allFrames_launch] at hf
        cases hf
      · refine (Run.mem_allFrames_proceed _ _ hf).resolve_left ?_
        rw [allFrames_launch]
        exact List.not_mem_nil
    obtain ⟨hshown, happ⟩ := htaken f hf
    exact ⟨[], f, List.prefix_rfl, hshown, happ, rfl, rfl⟩
  | append_singleton script x ih =>
    rw [running_append] at hf
    rcases Run.mem_allFrames_step _ x f hf with ⟨g, hg, hgapp, hgevents⟩ | ⟨hshown, happ⟩
    · obtain ⟨before, shown, hbefore, hshown, hthen, happ, hevents⟩ := ih hg
      exact ⟨before, shown, hbefore.trans (List.prefix_append script [x]), hshown,
        hthen.trans hgapp, happ.trans hgapp, hevents.trans hgevents⟩
    · refine ⟨script ++ [x], f, List.prefix_rfl, ?_, ?_, rfl, rfl⟩
      · rw [running_append]
        exact hshown
      · rw [running_append]
        exact happ

lemma drawnAlone_of_mem_allFrames {a : App} {pattern : Text} {colours : Bool}
    {script : List Happening} {f : Frame}
    (hf : f ∈ (a.running pattern colours script).allFrames) (hlist : f.OfList) : f.DrawnAlone := by
  obtain ⟨before, g, -, hshown, -, happ, hevents⟩ := exists_shown_of_mem_allFrames hf
  rw [Frame.OfList, ← hevents] at hlist
  rw [Frame.DrawnAlone, ← happ, ← hevents]
  exact (orderly_running a pattern colours before).shown g hshown hlist

lemma framed_running (a : App) (pattern : Text) (colours : Bool) (script : List Happening) :
    (a.running pattern colours script).Framed :=
  fun _ hf hlist => (drawnAlone_of_mem_allFrames hf hlist).drawn

lemma allFrames_run (a : App) (pattern : Text) (colours : Bool) (script : List Happening) :
    (a.run pattern colours script).allFrames = (a.running pattern colours script).allFrames := by
  show (a.running pattern colours script).finish.allFrames = _
  rw [Run.finish]
  split <;> rfl

/-! ### The list laid out -/

/-- The table has been drawn for a screen of `lines` lines: the selected row is the one under the
cursor, or the last one if the cursor is past the end, and the window leaves three lines free. -/
structure Settled (t : Table) (cursor : Cursor) (lines : Int) : Prop where
  selected : t.selected = min cursor.position (t.shown.length - 1)
  window : t.window.Fits t.shown.length (lines - 3)

lemma settled_drawList {a : App} (hmounted : a.drawList.1.table.mounted) :
    Settled a.drawList.1.table a.cursor a.size.rows := by
  have htable : a.drawList.1.table = (a.layout.table.render a.cursor).1 := rfl
  rw [htable] at hmounted ⊢
  have hlaid : a.layout.table.mounted := by rwa [Table.mounted_render] at hmounted
  have hlength := Table.length_shown_render hlaid a.cursor
  refine ⟨?_, ?_⟩
  · rw [hlength]
    exact Table.selected_render hlaid a.cursor
  · rw [hlength]
    exact Table.fits_render hlaid a.cursor

lemma Frame.Drawn.settled {f : Frame} (h : f.Drawn) (hmounted : f.app.table.mounted) :
    Settled f.app.table f.app.cursor f.app.size.rows := by
  obtain ⟨a, -, happ, -⟩ := h
  rw [happ] at hmounted ⊢
  exact settled_drawList hmounted

/-- **Frame invariant**: in every frame of the list, in every run, no more rows are shown than there
are, the cursor's row is selected, or the last one if the cursor is past the end, and the window
lies within the rows shown and has as many as there are, or as the screen has lines for. -/
theorem frames_settled (a : App) (pattern : Text) (colours : Bool) (script : List Happening)
    {f : Frame} (hf : f ∈ (a.run pattern colours script).allFrames) (hlist : f.OfList)
    (hmounted : f.app.table.mounted) :
    let t := f.app.table
    t.shown.length ≤ t.rows.length ∧ (0 : Int) ≤ f.app.cursor.position ∧
      (0 < t.shown.length → t.selected = min f.app.cursor.position (t.shown.length - 1)) ∧
      (t.shown.length = 0 → t.selected = 0) ∧
      0 ≤ t.window.start ∧ t.window.start ≤ t.window.stop ∧ t.window.stop ≤ t.shown.length ∧
      t.window.stop - t.window.start =
        min (t.shown.length : Int) (max 0 (f.app.size.rows - 3)) := by
  intro t
  rw [allFrames_run] at hf
  have hs : Settled t f.app.cursor f.app.size.rows :=
    (framed_running a pattern colours script f hf hlist).settled hmounted
  refine ⟨List.length_filter_le _ _, by omega, fun _ => hs.selected, fun h => ?_,
    hs.window.start_nonneg, hs.window.start_le_stop, hs.window.stop_le, hs.window.size_eq⟩
  rw [hs.selected, h]
  exact Nat.min_zero _

/-- Three rows, the last one selected; two are loaded again, on a screen with a line for one. The
cursor is past the end, and the second row is selected and alone in the window. -/
theorem frames_settled_past_end :
    let two : List Json := [.obj [("Id".toList, .str ['a'])], .obj [("Id".toList, .str ['b'])]]
    let a := App.start { host := [] } { containers := two ++ [.obj [("Id".toList, .str ['c'])]] }
      ⟨4, 40⟩ 1 true
    let script := [.key 360, .containers two, .key 269]
    ∃ f, (f ∈ (a.run [] true script).allFrames ∧ f.OfList ∧ f.app.table.mounted) ∧
      f.app.cursor.position = 2 ∧ f.app.table.selected = 1 ∧
      f.app.table.window.stop - f.app.table.window.start = 1 := by
  intro two a script
  obtain ⟨f, hf⟩ : ∃ f, (a.running [] true script).shown = some f :=
    Option.isSome_iff_exists.mp (by decide +kernel)
  have hdrawn : f.Drawn := pictures_running a [] true script (by decide +kernel) f hf
  have happ : (a.running [] true script).shown.map (fun f => (f.app.table.mounted,
      f.app.table.shown.length, f.app.cursor.position, f.app.size.rows)) =
        some (true, 2, 2, 4) := by
    decide +kernel
  rw [hf, Option.map_some, Option.some.injEq] at happ
  simp only [Prod.mk.injEq] at happ
  obtain ⟨hmounted, hlength, hposition, hrows⟩ := happ
  have hmem : f ∈ (a.run [] true script).allFrames := by
    rw [allFrames_run, Run.allFrames, hf]
    exact List.mem_append_right _ (List.mem_singleton_self f)
  obtain ⟨-, -, hselected, -, -, -, -, hsize⟩ :=
    frames_settled a [] true script hmem hdrawn.ofList hmounted
  refine ⟨f, ⟨hmem, hdrawn.ofList, hmounted⟩, hposition, ?_, ?_⟩
  · rw [hselected (by omega), hposition, hlength]
    rfl
  · rw [hsize, hlength, hrows]
    rfl

end DockConsole.App
