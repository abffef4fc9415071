import DockConsole.Proofs.App.Frames
import DockConsole.Proofs.App.Inspect

/-!
Where the navigation keys lead.

A key moves the cursor, and the next frame highlights the row that the cursor is on. A cursor past
the end is shown on the last row, but a key that moves it up still counts from where it is. So such
a key need not move the highlight.
-/

namespace DockConsole

/-- The row that a motion leads to from row `selected` of `count`, with `page` rows to a page. -/
def Motion.destination (m : Motion) (selected count page : Int) : Int :=
  match m with
  | .up => max 0 (selected - 1)
  | .down => min (count - 1) (selected + 1)
  | .pageDown => min (count - 1) (selected + page)
  | .pageUp => max 0 (selected - page)
  | .first => 0
  | .last => count - 1

namespace App

/-! ### While no key is hit -/

/-- The happening gives the program no key. -/
def Happening.Silent : Happening → Prop
  | .key _ | .resize _ => False
  | _ => True

/-- The cursor and the place of the table are the same, and what was mounted still is. -/
structure Kept (a b : App) : Prop where
  cursor : b.cursor = a.cursor
  height : b.table.height = a.table.height
  mounted : a.table.mounted → b.table.mounted

namespace Kept

variable {a b c : App}

lemma refl (a : App) : Kept a a := ⟨rfl, rfl, id⟩

lemma trans (h : Kept a b) (k : Kept b c) : Kept a c :=
  ⟨k.cursor.trans h.cursor, k.height.trans h.height, k.mounted ∘ h.mounted⟩

lemma load (a : App) : Kept a a.load.1 := by
  rw [App.load]
  split
  · exact ⟨rfl, rfl, id⟩
  · exact ⟨rfl, rfl, fun _ => rfl⟩

lemma refreshLoop (a : App) (rounds : ℕ) : Kept a (a.refreshLoop rounds).app := by
  induction rounds generalizing a with
  | zero => exact refl a
  | succ rounds ih =>
    have honce : Kept a a.refreshOnce.app := app_refreshOnce a ▸ load a
    simp only [App.refreshLoop]
    cases a.refreshOnce.next with
    | died => exact honce
    | _ => exact honce.trans (ih _)

end Kept

namespace Run

variable {r : Run}

/-- The runs wait for the same, with the cursor at the same place. -/
structure Same (r s : Run) : Prop where
  waiting : s.waiting = r.waiting
  app : Kept r.app s.app

lemma same_step (r : Run) {x : Happening} (hx : x.Silent) : Same r (r.step x) := by
  unfold step
  split
  · exact ⟨rfl, .refl _⟩
  · cases x with
    | key => exact hx.elim
    | resize => exact hx.elim
    | refresh rounds =>
      refine ⟨(r.refreshed_keeps rounds).1, ?_⟩
      rcases r.app_refreshed rounds with h | h <;> rw [h]
      · exact .refl _
      · exact .refreshLoop _ _
    | _ => exact ⟨rfl, ⟨rfl, rfl, id⟩⟩

lemma same_run (r : Run) {waited : List Happening} (hw : ∀ x ∈ waited, x.Silent) :
    Same r (waited.foldl step r) := by
  induction waited generalizing r with
  | nil => exact ⟨rfl, .refl _⟩
  | cons x waited ih =>
    have hx := same_step r (hw x List.mem_cons_self)
    have hrest := ih (r.step x) fun y hy => hw y (List.mem_cons_of_mem x hy)
    exact ⟨hrest.waiting.trans hx.waiting, hx.app.trans hrest.app⟩

/-! ### A key that moves -/

lemma at_proceed (hgoing : r.ending = none) {turn : Turn} (hnext : turn.next = .list) :
    ∃ g, (r.proceed turn).At g ∧ g.app = turn.app.drawList.1 := by
  rw [proceed, hnext]
  exact ⟨_, ⟨hgoing, rfl, rfl, rfl⟩, rfl⟩

lemma ending_close (r : Run) (key : Int) : (r.close key).ending = r.ending := by
  rw [close]; split <;> rfl

lemma turn_of_move (hlist : r.waiting = .list) {key : Int} {m : Motion}
    (hkey : Motion.ofKey key = some m) :
    r.turn key = { app := { r.app with message := [] }.navigate m } :=
  turn_of_command hlist (by rw [Command.ofKey, hkey])

lemma at_key (hgoing : r.ending = none) {key : Int} (hnext : (r.turn key).next = .list) :
    ∃ g, (r.step (.key key)).At g ∧ g.app = (r.turn key).app.drawList.1 := by
  rw [step_key hgoing, press_eq]
  exact at_proceed ((r.ending_close key).trans hgoing) hnext

lemma At.drawn {f : Frame} (hf : r.At f) (hr : r.Pictures) : f.Drawn := hr hf.list f hf.shown

end Run

lemma exists_at_key (a : App) (pattern : Text) (colours : Bool) (script : List Happening)
    {key : Int} (hgoing : (a.running pattern colours script).ending = none)
    (hnext : ((a.running pattern colours script).turn key).next = .list) :
    ∃ f, (a.running pattern colours (script ++ [.key key])).At f := by
  obtain ⟨f, hf, -⟩ := Run.at_key hgoing hnext
  rw [running_append]
  exact ⟨f, hf⟩

lemma length_shown_drawList {a : App} (hmounted : a.table.mounted) :
    a.drawList.1.table.shown.length = a.table.shown.length := by
  have hlaid : a.layout.table.mounted := hmounted
  show (a.layout.table.render a.cursor).1.shown.length = _
  rw [Table.length_shown_render hlaid]
  exact (Table.Alike.resize a.table _ _ _ _).length_shown

/-- The frame after a motion selects the row that the cursor was moved to. -/
lemma selected_navigate {a : App} (hmounted : a.table.mounted) (m : Motion) :
    (a.navigate m).drawList.1.table.selected =
      min (a.navigate m).cursor.position (a.table.shown.length - 1) := by
  have hsettled := settled_drawList (a := a.navigate m)
    ((Table.mounted_render (a.navigate m).layout.table _).trans hmounted)
  rw [hsettled.selected, length_shown_drawList (a := a.navigate m) hmounted]
  rfl

/-- Counted from the cursor, a motion leads where it leads from the highlighted row, unless the
cursor is past the end and the motion is upwards. -/
lemma navigate_eq_destination_iff (a : App) (m : Motion) (hshown : 0 < a.table.shown.length) :
    (min (a.navigate m).cursor.position (a.table.shown.length - 1) : ℕ) =
        m.destination (min a.cursor.position (a.table.shown.length - 1) : ℕ)
          a.table.shown.length (max 1 a.table.height) ↔
      a.cursor.position < a.table.shown.length ∨ a.table.shown.length = 1 ∨
        (m ≠ .up ∧ m ≠ .pageUp) ∨
          (m = .pageUp ∧ (a.cursor.position : Int) ≤ max 1 a.table.height) := by
  obtain ⟨page, hpage⟩ : ∃ page, max 1 a.table.height = page := ⟨_, rfl⟩
  have hpos : 1 ≤ page := by omega
  -- a motion is brought back at the end that it goes to, so only upwards can the excess of the
  -- cursor be left over
  cases m <;> simp only [navigate, Cursor.move, Cursor.home, Cursor.toLast, Motion.destination,
    hpage, ne_eq, reduceCtorEq, not_true_eq_false, not_false_eq_true, and_self, true_and, false_and,
    and_false, or_false, false_or, or_true, iff_true] <;> clear hpage
  all_goals omega

/-- From past the end, a step up only brings the cursor back to the last row. -/
lemma navigate_up_past_end {a : App} (hpast : a.table.shown.length ≤ a.cursor.position) :
    min (a.navigate .up).cursor.position (a.table.shown.length - 1) =
      min a.cursor.position (a.table.shown.length - 1) := by
  simp only [navigate, Cursor.move]
  omega

/-- **Navigation**: hit at a frame of the list, a key that moves leads at once to another. With as
many rows shown, that frame selects the row which the motion leads to from the one selected before,
exactly if the cursor was not past the end, or if that makes no difference: the motion is not
upwards, or there is one row only, or the cursor was within a page of the start. A step up from past
the end selects the same row again. -/
theorem selected_after_motion_iff (a : App) (pattern : Text) (colours : Bool)
    (script waited : List Happening) {f : Frame} {key : Int} {m : Motion}
    (hf : (a.running pattern colours script).At f) (hmounted : f.app.table.mounted)
    (hshown : 1 ≤ f.app.table.shown.length) (hsilent : ∀ x ∈ waited, x.Silent)
    (hgoing : (a.running pattern colours (script ++ waited)).ending = none)
    (hsame : (a.running pattern colours (script ++ waited)).app.table.shown.length =
      f.app.table.shown.length)
    (hkey : Motion.ofKey key = some m) :
    let n := f.app.table.shown.length
    let page := max 1 f.app.table.height
    let cursor := f.app.cursor.position
    ∃ g, ((a.running pattern colours (script ++ waited)).step (.key key)).At g ∧
      g.app.table.mounted ∧
      ((g.app.table.selected : Int) = m.destination f.app.table.selected n page ↔
        cursor < n ∨ n = 1 ∨ (m ≠ .up ∧ m ≠ .pageUp) ∨ (m = .pageUp ∧ (cursor : Int) ≤ page)) ∧
      (n ≤ cursor → m = .up → g.app.table.selected = f.app.table.selected) := by
  intro n page cursor
  -- the program as it gets the key
  obtain ⟨e, he⟩ : ∃ e, a.running pattern colours (script ++ waited) = e := ⟨_, rfl⟩
  have hwaited : Run.Same (a.running pattern colours script) e := by
    rw [← he, running_append]
    exact Run.same_run _ hsilent
  have hkept : Kept f.app e.app := hf.app ▸ hwaited.app
  rw [he] at hgoing hsame ⊢
  obtain ⟨b, hb⟩ : ∃ b : App, { e.app with message := [] } = b := ⟨_, rfl⟩
  have hlength : b.table.shown.length = n := by rw [← hb]; exact hsame
  have hheight : b.table.height = f.app.table.height := by rw [← hb]; exact hkept.height
  have hcursor : b.cursor = f.app.cursor := by rw [← hb]; exact hkept.cursor
  have hmounted' : b.table.mounted := by rw [← hb]; exact hkept.mounted hmounted
  -- the frame before and the frame after
  have hselected : f.app.table.selected = min b.cursor.position (b.table.shown.length - 1) := by
    rw [hcursor, hlength]
    exact ((hf.drawn (pictures_running a pattern colours script)).settled hmounted).selected
  have hturn : e.turn key = { app := b.navigate m } := by
    rw [← hb]
    exact Run.turn_of_move (hwaited.waiting.trans hf.list) hkey
  have hlisted : (e.turn key).next = .list := by rw [hturn]
  obtain ⟨g, hg, happ⟩ := Run.at_key hgoing hlisted
  rw [hturn] at happ
  have hnext : g.app.table.selected =
      min (b.navigate m).cursor.position (b.table.shown.length - 1) := by
    rw [happ]
    exact selected_navigate hmounted' m
  refine ⟨g, hg, ?_, ?_, ?_⟩
  · rw [happ]
    exact (Table.mounted_render (b.navigate m).layout.table _).trans hmounted'
  · have hiff := navigate_eq_destination_iff b m (by omega)
    rw [← hnext, ← hselected, hcursor, hlength, hheight] at hiff
    exact hiff
  · rintro hpast rfl
    rw [hnext, hselected]
    exact navigate_up_past_end (by rw [hlength, hcursor]; exact hpast)

/-- From the last of three rows, which are loaded again in between, a step up leads to the second
one. -/
theorem selected_after_step_up :
    let a := App.start { host := [] } { containers :=
      [.obj [("Id".toList, .str ['a'])], .obj [("Id".toList, .str ['b'])],
       .obj [("Id".toList, .str ['c'])]] } ⟨6, 40⟩ 1 true
    let waited := [.refresh 2]
    ∃ f, ((a.running [] true [.key 360]).At f ∧ f.app.table.mounted ∧
        1 ≤ f.app.table.shown.length ∧ (∀ x ∈ waited, x.Silent) ∧
        (a.running [] true ([.key 360] ++ waited)).ending = none ∧
        (a.running [] true ([.key 360] ++ waited)).app.table.shown.length =
          f.app.table.shown.length ∧
        Motion.ofKey 259 = some .up) ∧
      ∃ g, ((a.running [] true ([.key 360] ++ waited)).step (.key 259)).At g ∧
        g.app.table.selected = 1 := by
  intro a waited
  obtain ⟨f, hf⟩ : ∃ f, (a.running [] true [.key 360]).At f :=
    exists_at_key a [] true [] (by decide +kernel) (by decide +kernel)
  have htable : f.app.table.mounted ∧ f.app.table.shown.length = 3 ∧ f.app.table.selected = 2 ∧
      f.app.cursor.position = 2 := by
    rw [← hf.app]
    decide +kernel
  have hwaited : (a.running [] true ([.key 360] ++ waited)).ending = none ∧
      (a.running [] true ([.key 360] ++ waited)).app.table.shown.length = 3 := by
    decide +kernel
  have hsilent : ∀ x ∈ waited, x.Silent := by
    intro x hx
    rw [List.mem_singleton.mp hx]
    trivial
  have hshown : 1 ≤ f.app.table.shown.length := by omega
  have hsame : (a.running [] true ([.key 360] ++ waited)).app.table.shown.length =
      f.app.table.shown.length := by omega
  have hkey : Motion.ofKey 259 = some .up := by decide
  refine ⟨f, ⟨hf, htable.1, hshown, hsilent, hwaited.1, hsame, hkey⟩, ?_⟩
  obtain ⟨g, hg, -, hiff, -⟩ := selected_after_motion_iff a [] true [.key 360] waited hf htable.1
    hshown hsilent hwaited.1 hsame hkey
  have hselected := hiff.mpr (.inl (by omega))
  simp only [Motion.destination] at hselected
  exact ⟨g, hg, by omega⟩

/-- Three rows, the last one selected; two of them are loaded again, and the second is selected. A
step up selects the second once more. -/
theorem selected_not_always_by_motion :
    ¬ ∀ (a : App) (pattern : Text) (colours : Bool) (script waited : List Happening) (f : Frame)
      (key : Int) (m : Motion), a.session.Fresh → (a.running pattern colours script).At f →
      f.app.table.mounted → 1 ≤ f.app.table.shown.length → (∀ x ∈ waited, x.Silent) →
      (a.running pattern colours (script ++ waited)).ending = none →
      (a.running pattern colours (script ++ waited)).app.table.shown.length =
        f.app.table.shown.length →
      Motion.ofKey key = some m →
      ∃ g, ((a.running pattern colours (script ++ waited)).step (.key key)).At g ∧
        (g.app.table.selected : Int) = m.destination f.app.table.selected
          f.app.table.shown.length (max 1 f.app.table.height) := by
  intro h
  let two : List Json := [.obj [("Id".toList, .str ['a'])], .obj [("Id".toList, .str ['b'])]]
  let a := App.start { host := [] } { containers := two ++ [.obj [("Id".toList, .str ['c'])]] }
    ⟨6, 40⟩ 1 true
  let script : List Happening := [.key 360, .containers two] ++ [.key 269]
  obtain ⟨f, hf⟩ : ∃ f, (a.running [] true script).At f :=
    exists_at_key a [] true _ (by decide +kernel) (by decide +kernel)
  have htable : f.app.table.mounted ∧ f.app.table.shown.length = 2 ∧ f.app.table.selected = 1 := by
    rw [← hf.app]
    decide +kernel
  have hnil : a.running [] true (script ++ []) = a.running [] true script := by
    rw [List.append_nil]
  obtain ⟨g, hg, hselected⟩ := h a [] true script [] f 259 .up (fresh_start _ _ _ _ _) hf htable.1
    (by omega) (fun _ hx => by cases hx) (hnil ▸ hf.going) (by rw [hnil, hf.app]) (by decide)
  rw [hnil] at hg
  have hstep : ((a.running [] true script).step (.key 259)).app.table.selected = 1 := by
    decide +kernel
  have hone : g.app.table.selected = 1 := by
    rw [← hg.app]
    exact hstep
  rw [hone, htable.2.2] at hselected
  exact absurd hselected (by simp [Motion.destination])

end App

end DockConsole
