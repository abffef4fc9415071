import DockConsole.Proofs.App.Frames
import DockConsole.Proofs.Screen.HelpBar
import DockConsole.Proofs.Table.Place

/-!
How a frame of the list divides the screen.

The table is laid out for what the help bar leaves over, one line at the bottom and one column at the
right. Whatever it holds, its drawing keeps within that part of the screen and is painted whole, and
the help bar has the last line to itself.
-/

namespace DockConsole.App

/-! ### Frames -/

/-- In every frame the columns of the table are one apart. -/
lemma spacing_frame {daemon : Daemon} {network : Network} {size : ScreenSize} {refresh : Float}
    {showAll : Bool} {pattern : Text} {colours : Bool} {script : List Happening} {f : Frame}
    (hf : f ∈ ((start daemon network size refresh showAll).running pattern colours
      script).allFrames) :
    f.app.table.header.spacing = 1 := by
  obtain ⟨before, -, -, -, happ, -⟩ := exists_shown_of_mem_allFrames hf
  rw [← happ, ← (shows_running _ pattern colours before).table, Table.spacing_run]
  rfl

/-- The table that a drawing of the list lays out is drawn in the first lines and columns. -/
lemma inside_layout {a : App} (hspacing : 0 ≤ a.table.header.spacing) (hrows : 3 ≤ a.size.rows)
    (hcolumns : 1 ≤ a.size.columns) {p : Pos} {cell : Cell}
    (hcell : (a.layout.table.render a.cursor).2.get? p = some cell) :
    (0 ≤ p.x ∧ p.x ≤ a.size.columns - 2) ∧ 0 ≤ p.y ∧ p.y ≤ a.size.rows - 2 := by
  have hplaced : a.layout.table.Placed := Table.placed_align _
  have hx : a.layout.table.x = 0 := rfl
  have hy : a.layout.table.y = 0 := rfl
  have hwidth : a.layout.table.width = max 0 (a.size.columns - 1) := rfl
  have hheight : a.layout.table.height = a.size.rows - 3 := rfl
  have hinside := Table.inside_render hplaced hspacing a.cursor hcell
  omega

/-- A drawing of the list puts on the screen what the table draws and then the help bar. -/
lemma writes_drawList {a : App} (hcolumns : 1 ≤ a.size.columns) :
    ∃ (bar : Text) (attr : Int), (bar.length : Int) = a.size.columns - 1 ∧
      (a.drawList.2.map .screen).filter Event.writes =
        (Screen.paint a.size a.theme (a.layout.table.render a.cursor).2 ++
          [ScreenCall.addText (a.size.rows - 1) 0 bar attr]).map .screen := by
  obtain ⟨attr, hbar⟩ := HelpBar.draw_eq hcolumns a.theme
    a.drawList.1.table.selected a.drawList.1.table.shown.length a.message
  set bar := HelpBar.bar a.drawList.1.table.selected a.drawList.1.table.shown.length a.message
    (a.size.columns - 1).toNat with hbareq
  have hlength : (bar.length : Int) = a.size.columns - 1 := by
    rw [hbareq, HelpBar.length_bar]
    omega
  have hdrawn : a.drawList.2 = [.erase] ++
      Screen.paint a.size a.theme (a.layout.table.render a.cursor).2 ++
        [.addText (a.size.rows - 1) 0 bar attr] ++ [.refresh, .waitAtMost 1000] := by
    rw [← hbar]
    rfl
  have hpainted : ∀ e ∈ (Screen.paint a.size a.theme (a.layout.table.render a.cursor).2).map
      Event.screen, e.writes := by
    intro e he
    obtain ⟨call, hcall, rfl⟩ := List.mem_map.mp he
    obtain ⟨y, x, text, attr, -, rfl, -⟩ := Screen.paint_adds _ _ _ call hcall
    rfl
  refine ⟨bar, attr, hlength, ?_⟩
  rw [hdrawn]
  simp only [List.map_append, List.filter_append, List.filter_eq_self.mpr hpainted]
  exact List.append_nil _

/-- **Layout**: in a frame of the list, on a screen of three lines or more with a column at least,
the table is drawn in the lines and columns before the last ones and painted whole, each cell once.
The only other text put on the screen is the help bar: it starts the last line and leaves its last
column. -/
theorem frame_fits (daemon : Daemon) (network : Network) (size : ScreenSize) (refresh : Float)
    (showAll : Bool) (pattern : Text) (colours : Bool) (script : List Happening) {f : Frame}
    (hf : f ∈ ((start daemon network size refresh showAll).run pattern colours script).allFrames)
    (hlist : f.OfList) (hrows : 3 ≤ f.app.size.rows) (hcolumns : 1 ≤ f.app.size.columns) :
    let rows := f.app.size.rows
    let columns := f.app.size.columns
    ∃ (t : Table) (bar : Text) (attr : Int), (t.render f.app.cursor).1 = f.app.table ∧
      let c := (t.render f.app.cursor).2
      let calls := Screen.paint f.app.size f.app.theme c
      let written := calls.flatMap ScreenCall.strokes
      f.events.filter Event.writes =
          (calls ++ [ScreenCall.addText (rows - 1) 0 bar attr]).map .screen ∧
        (bar.length : Int) = columns - 1 ∧
        (∀ call ∈ calls, ∃ y x text attr, call = .addText y x text attr ∧ 0 ≤ y ∧ y ≤ rows - 2) ∧
        (∀ p cell, c.get? p = some cell →
          ((0 ≤ p.x ∧ p.x ≤ columns - 2) ∧ 0 ≤ p.y ∧ p.y ≤ rows - 2) ∧
            ∃ ch, cell.glyph = [ch] ∧ ⟨p, ch, f.app.theme.attr cell.style⟩ ∈ written) ∧
        (written.map (·.place)).Nodup ∧ ∀ s ∈ written, ∃ cell, c.get? s.place = some cell := by
  intro rows columns
  rw [allFrames_run] at hf
  have hspacing := spacing_frame hf
  obtain ⟨a, before, hquiet, happ, hevents⟩ := drawnAlone_of_mem_allFrames hf hlist
  obtain ⟨events, app, key⟩ := f
  obtain rfl : app = a.drawList.1 := happ
  obtain rfl : events = before ++ a.drawList.2.map .screen := hevents
  have hrows : 3 ≤ a.size.rows := hrows
  have hcolumns : 1 ≤ a.size.columns := hcolumns
  have hlaid : a.table.header.spacing = 1 :=
    (congrArg Header.spacing (Table.header_render a.layout.table a.cursor)).symm.trans hspacing
  have hsingle := Table.single_render a.layout.table a.cursor
  have hspaced : 0 ≤ a.table.header.spacing := by omega
  have hshown : ∀ p cell, (a.layout.table.render a.cursor).2.get? p = some cell →
      a.size.Shows p := by
    intro p cell hcell
    have := inside_layout hspaced hrows hcolumns hcell
    exact ⟨by omega, by omega⟩
  obtain ⟨bar, attr, hlength, hwrites⟩ := writes_drawList hcolumns
  refine ⟨a.layout.table, bar, attr, rfl, ?_, hlength, fun call hcall => ?_,
    fun p cell hcell => ⟨inside_layout hspaced hrows hcolumns hcell, ?_⟩,
    Screen.nodup_painted _ _ hsingle, fun s hs => ?_⟩
  · rw [List.filter_append, List.filter_eq_nil_iff.mpr hquiet]
    exact hwrites
  · obtain ⟨y, x, text, attr, cell, hadds, hcell⟩ := Screen.paint_adds _ _ _ call hcall
    obtain ⟨-, hy, hlast⟩ := inside_layout hspaced hrows hcolumns hcell
    exact ⟨y, x, text, attr, hadds, hy, hlast⟩
  · exact Screen.painted_whole _ hsingle hshown hcell
  · obtain ⟨-, cell, hcell, -⟩ := (Screen.mem_painted _ _ hsingle).mp hs
    exact ⟨cell, hcell⟩

/-- The screen shrinks to four lines of twenty columns while a filter is on: the help bar takes the
line 3 up to its last column, and the table is drawn above it. -/
theorem frame_fits_when_resized :
    let a := App.start { host := [] } { containers := [.obj [("Id".toList, .str ['c'])]] } ⟨24, 80⟩
      1 true
    let script := [.resize ⟨4, 20⟩]
    ∃ f, (f ∈ (a.run "long filter".toList true script).allFrames ∧ f.OfList ∧
        3 ≤ f.app.size.rows ∧ 1 ≤ f.app.size.columns) ∧
      ∃ (t : Table) (bar : Text) (attr : Int), bar.length = 19 ∧
        f.events.filter Event.writes =
          (Screen.paint ⟨4, 20⟩ f.app.theme (t.render f.app.cursor).2 ++
            [ScreenCall.addText 3 0 bar attr]).map .screen ∧
        ∀ p cell, (t.render f.app.cursor).2.get? p = some cell → p.x ≤ 18 ∧ p.y ≤ 2 := by
  intro a script
  obtain ⟨f, hf⟩ : ∃ f, (a.running "long filter".toList true script).shown = some f :=
    Option.isSome_iff_exists.mp (by decide +kernel)
  have hlist : f.OfList :=
    Frame.Drawn.ofList (pictures_running a _ true script (by decide +kernel) f hf)
  have hsize : (a.running "long filter".toList true script).shown.map (·.app.size) =
      some ⟨4, 20⟩ := by
    decide +kernel
  rw [hf, Option.map_some, Option.some.injEq] at hsize
  have hmem : f ∈ (a.run "long filter".toList true script).allFrames := by
    rw [allFrames_run, Run.allFrames, hf]
    exact List.mem_append_right _ (List.mem_singleton_self f)
  have hrows : 3 ≤ f.app.size.rows := by rw [hsize]; decide
  have hcolumns : 1 ≤ f.app.size.columns := by rw [hsize]; decide
  obtain ⟨t, bar, attr, -, hwrites, hlength, -, hinside, -⟩ :=
    frame_fits _ _ _ _ _ _ _ script hmem hlist hrows hcolumns
  rw [hsize] at hwrites hlength hinside
  refine ⟨f, ⟨hmem, hlist, hrows, hcolumns⟩, t, bar, attr, Int.ofNat.inj hlength, hwrites,
    fun p cell hcell => ?_⟩
  obtain ⟨⟨⟨-, hx⟩, -, hy⟩, -⟩ := hinside p cell hcell
  exact ⟨hx, hy⟩

end DockConsole.App
