import DockConsole.Proofs.App.Trace

/-!
What a turn puts on the screen.

Only a page is put there by the turn that shows it, and then the program waits for a key without
limit. Whatever else a turn does, from requests to the daemon to the opening of the prompt, puts no
text on the screen: the list and the prompt are drawn when the turn is over.
-/

namespace DockConsole

/-- The event puts text on the screen. -/
def Event.writes : Event → Bool
  | .screen (.addText ..) | .screen (.addTextUpTo ..) => true
  | _ => false

/-- None of the events puts text on the screen. -/
def Quiet (events : List Event) : Prop := ∀ e ∈ events, ¬ e.writes

instance : DecidablePred Quiet := fun events =>
  inferInstanceAs (Decidable (∀ e ∈ events, ¬ e.writes))

lemma quiet_append {before after : List Event} :
    Quiet (before ++ after) ↔ Quiet before ∧ Quiet after := List.forall_mem_append

lemma quiet_singleton {e : Event} : Quiet [e] ↔ ¬ e.writes := List.forall_mem_singleton

namespace Daemon

lemma quiet_attempt (d : Daemon) (r : Request) (left : ℕ) (pause : Float) (lines : List Text)
    (net : Network) : Quiet (d.attempt r left pause lines net).events := by
  induction left generalizing pause lines net with
  | zero => exact quiet_singleton.mpr (by rintro ⟨⟩)
  | succ left ih =>
    have hrequest : Quiet [.request r] := quiet_singleton.mpr (by rintro ⟨⟩)
    rw [attempt]
    simp only
    cases d.verdict r (net.respond r).1 with
    | done => exact hrequest
    | again line =>
      have hbetween : Quiet [retryNote line pause, .pause pause] := by
        intro e he
        rcases List.mem_pair.mp he with rfl | rfl <;> rintro ⟨⟩
      have hbefore : Quiet [.request r, retryNote line pause, .pause pause] :=
        quiet_append.mpr ⟨hrequest, hbetween⟩
      simp only
      split
      · exact quiet_append.mpr ⟨hrequest, ih _ _ _⟩
      · cases d.pauseFault pause with
        | some e => exact hbefore
        | none => exact quiet_append.mpr ⟨hbefore, ih _ _ _⟩

lemma quiet_list (d : Daemon) (selections : List Selection) (mode : SortMode) (net : Network) :
    Quiet (d.list selections mode net).events := by
  have hasked (message : Text) (path : Text) (params : List (Text × Text)) :
      Quiet (.logged Level.debug message :: (d.fetch path (some params) net).events) :=
    List.forall_mem_cons.mpr ⟨by rintro ⟨⟩, d.quiet_attempt _ _ _ _ net⟩
  rw [list]
  simp only
  split
  · exact hasked _ _ _
  · split
    · exact hasked _ _ _
    · exact quiet_append.mpr ⟨hasked _ _ _, quiet_singleton.mpr (by rintro ⟨⟩)⟩
  · exact hasked _ _ _

lemma quiet_inspect (d : Daemon) (id : Text) (net : Network) :
    Quiet (d.inspect id net).events := by
  rw [inspect]
  split <;> exact d.quiet_attempt _ _ _ _ net

end Daemon

namespace App

lemma quiet_load (a : App) : Quiet a.load.2.1 := by
  have hasked := a.daemon.quiet_list a.table.selections a.table.sortMode a.network
  rw [load]
  simp only
  split
  · exact hasked
  · exact quiet_append.mpr ⟨hasked, quiet_singleton.mpr (by rintro ⟨⟩)⟩

lemma quiet_refreshOnce (a : App) : Quiet a.refreshOnce.events := by
  have hload := a.quiet_load
  rw [refreshOnce]
  split <;> next heq =>
    rw [heq] at hload
    first
    | exact hload
    | exact quiet_append.mpr ⟨hload, quiet_singleton.mpr (by rintro ⟨⟩)⟩

lemma quiet_refreshLoop (a : App) (rounds : ℕ) : Quiet (a.refreshLoop rounds).events := by
  have hwait : Quiet [.wait a.refresh] := quiet_singleton.mpr (by rintro ⟨⟩)
  induction rounds generalizing a with
  | zero => exact hwait
  | succ rounds ih =>
    have hround : Quiet ([.wait a.refresh] ++ a.refreshOnce.events) :=
      quiet_append.mpr ⟨hwait, a.quiet_refreshOnce⟩
    rw [refreshLoop]
    simp only
    split
    · exact hround
    · exact quiet_append.mpr ⟨hround, ih _ (quiet_singleton.mpr (by rintro ⟨⟩))⟩

/-- A turn that shows a page ends in waiting without limit. -/
def Waits (turn : Turn) : Prop :=
  turn.next = .page → turn.events.getLast? = some (.screen (.waitAtMost (-1)))

/-- A page is waited on without limit, and no other turn puts text on the screen. -/
structure Tidy (turn : Turn) : Prop where
  waits : Waits turn
  quiet : turn.next ≠ .page → Quiet turn.events

lemma tidy_of_quiet {turn : Turn} (hnext : turn.next ≠ .page) (h : Quiet turn.events) :
    Tidy turn := ⟨fun hpage => absurd hpage hnext, fun _ => h⟩

lemma tidy_silent {a : App} {next : Next} (hnext : next ≠ .page) :
    Tidy { app := a, next := next } := tidy_of_quiet hnext (List.forall_mem_nil _)

lemma getLast?_page (size : ScreenSize) (theme : Theme) (lines : List Text) :
    (Page.draw size theme lines).getLast? = some (.waitAtMost (-1)) := by
  rw [Page.draw, List.getLast?_append]
  rfl

lemma tidy_showPage (a : App) (before : List Event) (lines : List Text) :
    Tidy { a.showPage lines with events := before ++ (a.showPage lines).events } := by
  refine ⟨fun _ => ?_, fun hnext => absurd rfl hnext⟩
  show (before ++ (Page.draw a.size a.theme lines).map Event.screen).getLast? = _
  rw [List.getLast?_append, List.getLast?_map, getLast?_page]
  rfl

lemma tidy_reload (a : App) : Tidy a.reload := by
  have hload := a.quiet_load
  rw [reload]
  split <;> next heq =>
    rw [heq] at hload
    first
    | exact tidy_of_quiet (by rintro ⟨⟩) hload
    | exact tidy_of_quiet (by rintro ⟨⟩)
        (quiet_append.mpr ⟨hload, quiet_singleton.mpr (by rintro ⟨⟩)⟩)

lemma tidy_inspect (a : App) : Tidy a.inspect := by
  rw [inspect]
  split
  · exact tidy_silent (by rintro ⟨⟩)
  · split
    · exact tidy_silent (by rintro ⟨⟩)
    · next id _ =>
      have hasked := a.daemon.quiet_inspect id a.network
      simp only
      split
      · exact tidy_showPage _ _ _
      · exact tidy_of_quiet (by rintro ⟨⟩)
          (quiet_append.mpr ⟨hasked, quiet_singleton.mpr (by rintro ⟨⟩)⟩)
      · exact tidy_of_quiet (by rintro ⟨⟩) hasked

lemma tidy_command (a : App) (c : Command) : Tidy (a.command c) := by
  cases c with
  | inspect => exact tidy_inspect a
  | toggleShowAll => exact tidy_reload _
  | reload => exact tidy_reload a
  | help => exact tidy_showPage a [] Page.help
  | rotateSort | clearFilter =>
    exact tidy_of_quiet (by rintro ⟨⟩) (quiet_singleton.mpr (by rintro ⟨⟩))
  | editFilter =>
    have hopening : Quiet (Prompt.opening.map .screen) := by decide
    exact tidy_of_quiet (by rintro ⟨⟩) hopening
  | move | quit => exact tidy_silent (by rintro ⟨⟩)

lemma tidy_pressList (a : App) (key : Int) : Tidy (a.pressList key) := by
  rw [pressList]
  split
  · exact tidy_silent (by rintro ⟨⟩)
  · simp only
    split
    · exact tidy_silent (by rintro ⟨⟩)
    · exact tidy_command _ _

lemma tidy_pressPrompt (a : App) (p : Prompt) (key : Int) : Tidy (a.pressPrompt p key) := by
  rw [pressPrompt]
  split
  · exact tidy_silent (by rintro ⟨⟩)
  · exact tidy_of_quiet (by rintro ⟨⟩) (quiet_singleton.mpr (by rintro ⟨⟩))
  · exact tidy_of_quiet (by rintro ⟨⟩) (quiet_append.mpr
      ⟨quiet_singleton.mpr (by rintro ⟨⟩), quiet_singleton.mpr (by rintro ⟨⟩)⟩)

lemma Run.tidy_turn (r : Run) (key : Int) : Tidy (r.turn key) := by
  rw [turn]
  split
  · exact tidy_pressPrompt _ _ _
  · exact tidy_silent (by rintro ⟨⟩)
  · exact tidy_pressList _ _

end App

end DockConsole
