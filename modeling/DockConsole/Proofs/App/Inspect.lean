import DockConsole.Proofs.App.Trace

/-!
What Enter acts on, and what was highlighted when it was hit.

A frame brings the rows in order and counts to the highlighted one. A refresh in the background puts
rows in the daemon's order in their place and leaves the count. Until the next frame Enter is given
the row that the old count finds in the new order, which need not be the one on screen.
-/

namespace DockConsole

/-! ### What asking for details sends first -/

namespace Daemon

/-- The first thing done about a request: it is sent, or given up on if no attempt is allowed. -/
def opening (d : Daemon) (url : Text) (params : Option (List (Text × Text))) : Event :=
  if (d.retries + 1).toNat = 0 then giveUpNote url (d.retries + 1)
  else .request ⟨url, params, d.timeout⟩

lemma events_fetch (d : Daemon) (path : Text) (params : Option (List (Text × Text)))
    (net : Network) :
    ∃ rest, (d.fetch path params net).events = d.opening (d.host ++ path) params :: rest := by
  rw [fetch, opening]
  rcases (d.retries + 1).toNat with _ | left
  · exact ⟨[], rfl⟩
  · simp only [attempt]
    split
    · exact ⟨_, rfl⟩
    · split
      · exact ⟨_, rfl⟩
      · split <;> exact ⟨_, rfl⟩

lemma events_inspect (d : Daemon) (id : Text) (net : Network) :
    (d.inspect id net).events =
      (d.fetch ("/containers/".toList ++ id ++ "/json".toList) none net).events := by
  rw [inspect]
  split <;> rfl

lemma opening_injective {d : Daemon} {url url' : Text} {params : Option (List (Text × Text))}
    (h : d.opening url params = d.opening url' params) : url = url' := by
  unfold opening at h
  split at h
  · simpa [giveUpNote, Event.logged] using h
  · exact congrArg Request.url (Event.request.inj h)

/-- What is done about one container is never what is done about another. -/
lemma inspect_injective {d : Daemon} {net : Network} {id id' : Text} {rest rest' : List Event}
    (h : (d.inspect id net).events ++ rest = (d.inspect id' net).events ++ rest') : id = id' := by
  obtain ⟨tail, htail⟩ := d.events_fetch ("/containers/".toList ++ id ++ "/json".toList) none net
  obtain ⟨tail', htail'⟩ := d.events_fetch ("/containers/".toList ++ id' ++ "/json".toList) none net
  rw [events_inspect, events_inspect, htail, htail'] at h
  have hurl := opening_injective (List.cons.inj h).1
  simpa using hurl

end Daemon

namespace App

open Table (Session History)

namespace Run

variable {r : Run}

lemma events_close (r : Run) (key : Int) : (r.close key).events = r.events := by
  rw [close]
  cases h : r.shown with
  | none => rfl
  | some f => simp [events, allFrames, h]

/-- What a turn did is seen, behind all that was done before. -/
lemma events_proceed (h : r.shown = none) (turn : Turn) :
    ∃ rest, (r.proceed turn).events = r.events ++ turn.events ++ rest := by
  have hevents : r.events = r.frames.flatMap (·.events) ++ r.since := by
    simp [events, allFrames, h]
  rw [proceed, hevents]
  cases turn.next with
  | quit => exact ⟨[], by simp [events, allFrames]⟩
  | died => exact ⟨[], by simp [events, allFrames, h]⟩
  | _ => exact ⟨_, by simp [events, allFrames]; rfl⟩

lemma events_press (r : Run) (key : Int) :
    ∃ rest, (r.press key).events = r.events ++ (r.turn key).events ++ rest := by
  rw [press_eq, ← events_close r key]
  exact events_proceed (r.shown_close key) _

/-- The key makes the program ask for the details of the container `id`, before anything else. -/
def Inspects (r : Run) (key : Int) (id : Text) : Prop :=
  ∃ rest, (r.step (.key key)).events =
    r.events ++ (r.app.daemon.inspect id r.app.network).events ++ rest

/-- The list is waited on and a table is registered as what shows containers. -/
structure Ready (r : Run) : Prop where
  going : r.ending = none
  list : r.waiting = .list
  registered : (r.app.registry.get? Table.source).isSome

lemma turn_of_command (hlist : r.waiting = .list) {key : Int} {c : Command}
    (hkey : Command.ofKey key = some c) : r.turn key = { r.app with message := [] }.command c := by
  have hhit : key ≠ -1 := by
    rintro rfl
    cases hkey
  rw [turn, hlist]
  show r.app.pressList key = _
  rw [pressList, if_neg hhit, hkey]

lemma turn_of_inspect (h : r.Ready) {key : Int} (hkey : Command.ofKey key = some .inspect) :
    r.turn key = { r.app with message := [] }.inspect := turn_of_command h.list hkey

/-- The container that is asked about is the one the table counts to, and no other. -/
lemma inspects_iff (h : r.Ready) {key : Int} (hkey : Command.ofKey key = some .inspect)
    {id : Text} (htarget : r.app.table.target = .ok id) (other : Text) :
    r.Inspects key other ↔ other = id := by
  have hturn : ∃ rest, (r.turn key).events =
      (r.app.daemon.inspect id r.app.network).events ++ rest := by
    obtain ⟨name, hname⟩ := Option.isSome_iff_exists.mp h.registered
    rw [turn_of_inspect h hkey, inspect]
    simp only [hname, htarget]
    split
    · exact ⟨_, rfl⟩
    · exact ⟨_, rfl⟩
    · exact ⟨[], by simp⟩
  obtain ⟨asked, hasked⟩ := hturn
  obtain ⟨drawn, hdrawn⟩ := r.events_press key
  rw [Inspects, step_key h.going, hdrawn, hasked]
  constructor
  · rintro ⟨rest, hrest⟩
    simp only [List.append_assoc, List.append_cancel_left_eq] at hrest
    exact (Daemon.inspect_injective hrest).symm
  · rintro rfl
    exact ⟨asked ++ drawn, by simp⟩

end Run

/-! ### Refreshes while a frame is on screen -/

/-- So many rounds of the refresh loop bring this list each. -/
def Brings (a : App) (containers : List Container) : ℕ → Prop
  | 0 => True
  | rounds + 1 => a.answer? = some containers ∧ a.refreshOnce.app.Brings containers rounds

variable {a : App} {containers : List Container}

lemma refreshOnce_of_answer (h : a.answer? = some containers) :
    a.refreshOnce.next = .list ∧ a.refreshOnce.app.table = a.table.load containers := by
  rw [answer?] at h
  split at h
  · next summaries hresult =>
    obtain rfl := Option.some.inj h
    simp only [refreshOnce, load, hresult, and_self]
  · cases h

lemma refreshLoop_of_brings {rounds : ℕ} (h : a.Brings containers rounds) :
    (a.refreshLoop rounds).next = .list ∧
      (a.refreshLoop rounds).app.table =
        if rounds = 0 then a.table else a.table.load containers := by
  induction rounds generalizing a with
  | zero => exact ⟨rfl, rfl⟩
  | succ rounds ih =>
    obtain ⟨hnext, htable⟩ := refreshOnce_of_answer h.1
    obtain ⟨hlast, hloop⟩ := ih h.2
    simp only [refreshLoop, hnext, hlast, hloop, htable, Table.load_load, ite_self, true_and]
    rfl

/-- How often the table is loaded anew. -/
def Happening.rounds : Happening → ℕ
  | .refresh rounds => rounds
  | _ => 0

namespace Run

variable {r : Run}

/-- No key, and if a refresh, then one of a loop that still runs, and that brings this list. -/
def Bides (r : Run) (containers : List Container) : Happening → Prop
  | .refresh rounds => r.fallen = none ∧ r.app.Brings containers rounds
  | .containers _ | .outcomes _ | .unregister _ => True
  | .key _ | .resize _ => False

def Waits (r : Run) (containers : List Container) : List Happening → Prop
  | [] => True
  | h :: hs => r.Bides containers h ∧ (r.step h).Waits containers hs

lemma step_of_bides (hr : r.ending = none) {h : Happening} (hb : r.Bides containers h) :
    (r.step h).ending = none ∧ (r.step h).waiting = r.waiting ∧
      (r.step h).app.table =
        if h.rounds = 0 then r.app.table else r.app.table.load containers := by
  cases h with
  | refresh rounds =>
    obtain ⟨halive, hbrings⟩ := hb
    obtain ⟨-, htable⟩ := refreshLoop_of_brings hbrings
    rw [step_refresh hr, refreshed_of_alive halive]
    exact ⟨hr, rfl, htable⟩
  | key => exact hb.elim
  | resize => exact hb.elim
  | _ =>
    unfold step
    rw [if_neg (by simp [hr])]
    exact ⟨hr, rfl, rfl⟩

/-- However long the wait, the table is as it was drawn, or as it was loaded. -/
lemma run_of_waits (hr : r.ending = none) {waited : List Happening}
    (hw : r.Waits containers waited) :
    (waited.foldl step r).ending = none ∧ (waited.foldl step r).waiting = r.waiting ∧
      (waited.foldl step r).app.table =
        if ∀ h ∈ waited, h.rounds = 0 then r.app.table else r.app.table.load containers := by
  induction waited generalizing r with
  | nil => exact ⟨hr, rfl, by simp⟩
  | cons h waited ih =>
    obtain ⟨hgoing, hwaiting, htable⟩ := step_of_bides hr hw.1
    obtain ⟨hgoing', hwaiting', htable'⟩ := ih hgoing hw.2
    refine ⟨hgoing', hwaiting'.trans hwaiting, ?_⟩
    rw [List.foldl_cons, htable', htable]
    by_cases hh : h.rounds = 0
    · simp [hh]
    · simp [hh, Table.load_load]

end Run

/-! ### Enter -/

/-- The frame has a row drawn in the style of the highlight. -/
structure Frame.Highlights (f : Frame) (row : Row) : Prop where
  mounted : f.app.table.mounted
  visible : row ∈ f.app.table.visible
  highlighted : row.highlighted

/-- The run has just shown the frame `f` of the list. -/
structure Run.At (r : Run) (f : Frame) : Prop where
  going : r.ending = none
  list : r.waiting = .list
  shown : r.shown = some f
  app : r.app = f.app

/-- A program that starts waits at a frame of the list. -/
lemma exists_at_start {a : App} {pattern : Text} (hstarted : (a.launch pattern).ending = none)
    (colours : Bool) : ∃ f, (a.running pattern colours []).At f := by
  show ∃ f, (takeScreen colours (a.launch pattern)).At f
  rw [takeScreen, if_neg (by simp [hstarted])]
  exact ⟨_, hstarted, rfl, rfl, rfl⟩

/-- A frame of the list paints its table, and a row highlighted on it is the one counted to. -/
lemma Run.At.shown_selected {r : Run} {f : Frame} {row : Row} (hf : r.At f) (hr : r.Pictures)
    (hrow : f.Highlights row) :
    f.Paints ∧ f.app.table.shown[f.app.table.selected]? = some row := by
  obtain ⟨a, before, happ, hevents⟩ := hr hf.list f hf.shown
  obtain ⟨hmounted, hvisible, hhighlighted⟩ := hrow
  refine ⟨paints_of_drawList happ hevents hmounted, ?_⟩
  have htable : f.app.table = (a.layout.table.render a.cursor).1 := congrArg App.table happ
  rw [htable] at hvisible ⊢
  rw [htable, Table.mounted_render] at hmounted
  exact Table.shown_selected_of_drawn hmounted hvisible hhighlighted

lemma Run.At.exists_highlights {r : Run} {f : Frame} {id : Text} (hf : r.At f)
    (hmounted : r.app.table.mounted)
    (hdrawn : ∃ row ∈ r.app.table.visible, row.highlighted ∧ row.id = id) :
    ∃ row, f.Highlights row ∧ row.id = id := by
  obtain ⟨row, hvisible, hhighlighted, hid⟩ := hdrawn
  rw [hf.app] at hmounted hvisible
  exact ⟨row, ⟨hmounted, hvisible, hhighlighted⟩, hid⟩

/-- Whoever acts on the table finds the highlighted row until the list is loaded again, and after
that the row that the list has at its index. -/
lemma Run.At.target_waited {r : Run} {f : Frame} {row : Row} {h : History} (hf : r.At f)
    (hr : r.Pictures) (hh : f.app.table.Holds h) (hrow : f.Highlights row)
    {waited : List Happening} (hwaited : r.Waits h.answer waited) :
    ∃ s, (Rows.filter (h.built f.app.table.header.titles) f.app.table.pattern)[
        f.app.table.selected]? = some s ∧
      (waited.foldl step r).app.table.target =
        .ok (if ∀ x ∈ waited, x.rounds = 0 then row.id else s.id) := by
  obtain ⟨-, hshown⟩ := hf.shown_selected hr hrow
  obtain ⟨s, hs, hload⟩ := hh.target_load hshown
  obtain ⟨-, -, htable⟩ := run_of_waits hf.going hwaited
  rw [hf.app] at htable
  refine ⟨s, hs, ?_⟩
  rw [htable]
  split
  · refine Table.target_of_getElem? hshown ?_
    obtain ⟨hlt, -⟩ := List.getElem?_eq_some_iff.mp hshown
    exact Nat.min_eq_left (by omega)
  · exact hload

/-- **What Enter acts on**: a container is asked about, and only one. If the last list was loaded
again while the frame with the highlighted row was on screen, it is the container that the index of
that row has in the list as the daemon sent it. -/
theorem inspects_highlighted_iff {a : App} (ha : a.session.Fresh) (pattern : Text)
    (colours : Bool) (script waited : List Happening) {f : Frame} {row : Row} {key : Int}
    (hf : (a.running pattern colours script).At f) (hrow : f.Highlights row)
    (hwaited : (a.running pattern colours script).Waits
      (a.history pattern colours script).answer waited)
    (hkey : Command.ofKey key = some .inspect)
    (hregistered : ((a.running pattern colours (script ++ waited)).app.registry.get?
      Table.source).isSome) :
    let t := f.app.table
    let h := a.history pattern colours script
    let listed := Rows.filter (h.built t.header.titles) t.pattern
    let e := a.running pattern colours (script ++ waited)
    f.Paints ∧ (∃ id, ∀ other, e.Inspects key other ↔ other = id) ∧
      (e.Inspects key row.id ↔
        (∀ x ∈ waited, x.rounds = 0) ∨ listed[t.selected]?.map Row.id = some row.id) ∧
      (h.rows t.header.titles = h.built t.header.titles → e.Inspects key row.id) := by
  intro t h listed e
  have hpictures := pictures_running a pattern colours script
  obtain ⟨hpaints, hshown⟩ := hf.shown_selected hpictures hrow
  have hh : t.Holds h := by
    have happ : (a.running pattern colours script).app.table = t := congrArg App.table hf.app
    rw [← happ]
    exact holds_running ha pattern colours script
  obtain ⟨s, hs, htarget⟩ := hf.target_waited hpictures hh hrow hwaited
  have happend : e = waited.foldl Run.step (a.running pattern colours script) := List.foldl_append
  obtain ⟨hgoing, hwaiting, -⟩ := Run.run_of_waits hf.going hwaited
  rw [← happend] at htarget hgoing hwaiting
  have hiff := Run.inspects_iff ⟨hgoing, hwaiting.trans hf.list, hregistered⟩ hkey htarget
  have hsame : e.Inspects key row.id ↔ (∀ x ∈ waited, x.rounds = 0) ∨ s.id = row.id := by
    rw [hiff]
    split
    · next hnone => exact ⟨fun _ => .inl hnone, fun _ => rfl⟩
    · next hsome => exact ⟨fun h => .inr h.symm, fun h => (h.resolve_left hsome).symm⟩
  refine ⟨hpaints, ⟨_, hiff⟩, ?_, fun hrows => ?_⟩
  · rw [hsame, hs, Option.map_some, Option.some_inj]
  · -- the row that was drawn is then the one the list has at its index
    have hbare := hh.bare_shown
    rw [hrows] at hbare
    have hsrow : some s = some row.bare := by
      rw [← hs, ← hbare, List.getElem?_map, hshown]
      rfl
    have hid : s.id = row.bare.id := congrArg Row.id (Option.some.inj hsrow)
    exact hsame.mpr (.inr hid)

/-- With a filter that lets only `b` through, Enter asks about `b`, which is highlighted, however
often the list is loaded again. -/
theorem inspects_highlighted_filtered :
    let a := App.start { host := [] } { containers :=
      [.obj [("Id".toList, .str ['a']), ("Names".toList, .arr [.str "/x".toList])],
       .obj [("Id".toList, .str ['b']), ("Names".toList, .arr [.str "/y".toList])]] } ⟨6, 40⟩ 1 true
    let pattern : Text := ['y']
    let waited := [.refresh 2]
    ∃ (f : Frame) (row : Row), row.id = ['b'] ∧
      (a.session.Fresh ∧ (a.running pattern true []).At f ∧ f.Highlights row ∧
        (a.running pattern true []).Waits (a.history pattern true []).answer waited ∧
        Command.ofKey 10 = some .inspect ∧
        ((a.running pattern true waited).app.registry.get? Table.source).isSome) ∧
      (a.running pattern true waited).Inspects 10 row.id := by
  intro a pattern waited
  have hfresh : a.session.Fresh := fresh_start _ _ _ _ _
  have hanswer : (a.running pattern true []).app.answer? =
        some (a.history pattern true []).answer ∧
      (a.running pattern true []).app.refreshOnce.app.answer? =
        some (a.history pattern true []).answer := by decide +kernel
  have halive : (a.running pattern true []).fallen = none := by decide +kernel
  have hwaited : (a.running pattern true []).Waits (a.history pattern true []).answer waited :=
    ⟨⟨halive, hanswer.1, hanswer.2, trivial⟩, trivial⟩
  have hstarted : (a.launch pattern).ending = none := by decide +kernel
  obtain ⟨f, hf⟩ := exists_at_start hstarted true
  obtain ⟨row, hrow, hid⟩ : ∃ row, f.Highlights row ∧ row.id = ['b'] :=
    hf.exists_highlights (by decide +kernel) (by decide +kernel)
  have hkey : Command.ofKey 10 = some .inspect := by decide
  have hregistered : ((a.running pattern true waited).app.registry.get? Table.source).isSome := by
    decide +kernel
  refine ⟨f, row, hid, ⟨hfresh, hf, hrow, hwaited, hkey, hregistered⟩, ?_⟩
  have hlisted : ((Rows.filter ((a.history pattern true []).built f.app.table.header.titles)
      f.app.table.pattern)[f.app.table.selected]?).map Row.id = some row.id := by
    rw [hid, ← hf.app]
    decide +kernel
  have henter := inspects_highlighted_iff hfresh pattern true [] waited hf hrow hwaited hkey
  rw [List.nil_append] at henter
  exact (henter hregistered).2.2.1.mpr (.inr hlisted)

/-- Containers `b` and `a`, drawn as `a` and `b`: one refresh, and Enter asks about `b` while `a` is
highlighted. -/
theorem inspects_not_always_highlighted :
    ¬ ∀ (a : App) (pattern : Text) (colours : Bool) (script waited : List Happening) (f : Frame)
      (row : Row) (key : Int), a.session.Fresh → (a.running pattern colours script).At f →
      f.Highlights row → (a.running pattern colours script).Waits
        (a.history pattern colours script).answer waited →
      Command.ofKey key = some .inspect →
      ((a.running pattern colours (script ++ waited)).app.registry.get? Table.source).isSome →
      (a.running pattern colours (script ++ waited)).Inspects key row.id := by
  intro h
  let a := App.start { host := [] } { containers :=
    [.obj [("Id".toList, .str ['b'])], .obj [("Id".toList, .str ['a'])]] } ⟨6, 40⟩ 1 true
  have hanswer : (a.running [] true []).app.answer? = some (a.history [] true []).answer := by
    decide +kernel
  have hstarted : (a.launch []).ending = none := by decide +kernel
  obtain ⟨f, hf⟩ := exists_at_start hstarted true
  obtain ⟨row, hrow, hid⟩ : ∃ row, f.Highlights row ∧ row.id = ['a'] :=
    hf.exists_highlights (by decide +kernel) (by decide +kernel)
  have hkey : Command.ofKey 10 = some .inspect := by decide
  have hready : (a.running [] true [.refresh 1]).Ready := by
    constructor <;> decide +kernel
  have htarget : (a.running [] true [.refresh 1]).app.table.target = .ok ['b'] := by
    decide +kernel
  have hinspects := h a [] true [] [.refresh 1] f row 10 (fresh_start _ _ _ _ _) hf hrow
    ⟨⟨by decide +kernel, hanswer, trivial⟩, trivial⟩ hkey hready.registered
  have hb : ['a'] = ['b'] := hid ▸ (Run.inspects_iff hready hkey htarget _).mp hinspects
  exact absurd hb (by decide)

end App

end DockConsole
