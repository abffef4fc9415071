import DockConsole.Proofs.App.Failures

/-!
How long a message stays in the help bar.

A key of the list clears the message of the key before it, and its command leaves one of its own if
it fails. Nothing else touches the message: neither the time that passes, nor rounds of the refresh
loop, nor the keys that a prompt or a page takes.
-/

namespace DockConsole.App

variable {a : App} {m : Text}

/-! ### What a command complains of -/

/-- The command fails, and the message tells why: there is no container to inspect, or what it asked
the daemon for has not been got. -/
inductive Complains (a : App) : Command → Text → Prop
  | untargeted {name : Text} {n : NoTarget} (hregistered : a.registry.get? Table.source = some name)
      (htarget : a.table.target = .error n) : Complains a .inspect n.message
  | unfetched {c : Command} {q : Asked} {e : FetchError} (hasked : q ∈ a.ask? c)
      (hresult : q.result = .error (.fetch e)) : Complains a c (c.complaint e)

lemma Complains.ne_nil {c : Command} (h : a.Complains c m) : m ≠ [] := by
  cases h with
  | @untargeted name n =>
    cases n with
    | noMatch pattern => exact List.append_ne_nil_of_right_ne_nil _ (List.cons_ne_nil _ _)
    | nothingLoaded => exact List.cons_ne_nil _ _
  | unfetched =>
    rw [Command.complaint]
    split <;> exact List.cons_ne_nil _ _

lemma complains_cleared (a : App) (c : Command) :
    { a with message := [] }.Complains c m ↔ a.Complains c m := by
  constructor
  · rintro (⟨hregistered, htarget⟩ | ⟨hasked, hresult⟩)
    · exact .untargeted hregistered htarget
    · exact .unfetched (ask?_cleared a c ▸ hasked) hresult
  · rintro (⟨hregistered, htarget⟩ | ⟨hasked, hresult⟩)
    · exact .untargeted (a := { a with message := [] }) hregistered htarget
    · exact .unfetched ((ask?_cleared a c).symm ▸ hasked) hresult

lemma message_of_complains {c : Command} (h : a.Complains c m) :
    (a.command c).app.message = m := by
  cases h with
  | untargeted hregistered htarget =>
    show a.inspect.app.message = _
    rw [inspect]
    simp only [hregistered, htarget]
  | unfetched hasked hresult => exact (command_of_fetch hasked hresult).2.1

lemma message_load (a : App) : a.load.1.message = a.message := by
  rw [load]
  split <;> rfl

lemma message_reload (h : ∀ e, a.askList.result ≠ .error (.fetch e)) :
    a.reload.app.message = a.message := by
  have hload := message_load a
  rw [← result_load] at h
  rw [reload]
  split <;> next heq =>
    rw [heq] at hload h
    first
    | exact hload
    | exact absurd rfl (h _)

lemma message_inspect (h : ∀ m, ¬ a.Complains .inspect m) :
    a.inspect.app.message = a.message := by
  rw [inspect]
  split
  · rfl
  · next hregistered =>
    split
    · next htarget => exact absurd (.untargeted hregistered htarget) (h _)
    · next id htarget =>
      simp only
      split
      · rfl
      · next e hresult =>
        have hasked : a.askDetails id ∈ a.ask? .inspect := by
          rw [ask?, hregistered, htarget]
          rfl
        exact absurd (.unfetched hasked (map_eq_error.mpr hresult)) (h _)
      · rfl

/-- A command that has nothing to complain of leaves the message alone. -/
lemma message_of_content {c : Command} (h : ∀ m, ¬ a.Complains c m) :
    (a.command c).app.message = a.message := by
  cases c with
  | inspect => exact message_inspect h
  | reload => exact message_reload fun e he => h _ (.unfetched rfl he)
  | toggleShowAll =>
    refine message_reload (a := { a with table := _, cursor := _ }) fun e he => ?_
    exact h _ (.unfetched rfl he)
  | _ => rfl

lemma message_refreshLoop (a : App) (rounds : ℕ) :
    (a.refreshLoop rounds).app.message = a.message := by
  induction rounds generalizing a with
  | zero => rfl
  | succ rounds ih =>
    have honce : a.refreshOnce.app.message = a.message := by rw [app_refreshOnce, message_load]
    rw [refreshLoop]
    simp only
    split
    · exact honce
    · exact (ih _).trans honce

lemma message_await (a : App) (next : Next) : (a.await next).1.message = a.message := by
  cases next <;> rfl

lemma message_pressPrompt (a : App) (p : Prompt) (key : Int) :
    (a.pressPrompt p key).app.message = a.message := by
  rw [pressPrompt]
  split <;> rfl

/-! ### What the list hears -/

namespace Run

variable {r : Run} {key : Int} {x : Happening}

/-- The list gets this key. The key -1 only says that none was hit in time. -/
def Hears (r : Run) (key : Int) : Happening → Prop
  | .key k => r.ending = none ∧ r.Listens ∧ k = key ∧ key ≠ -1
  | .resize _ => r.ending = none ∧ r.Listens ∧ key = 410
  | _ => False

lemma Hears.ne_silence (h : r.Hears key x) : key ≠ -1 := by
  cases x with
  | key k => exact h.2.2.2
  | resize size =>
    rw [h.2.2]
    decide
  | _ => exact h.elim

/-- Whatever happens, the list gets no key: there are only keys for a prompt or a page, the key that
says that none was hit, rounds of the refresh loop, and what the program learns nothing of. -/
def Unheard (r : Run) : List Happening → Prop
  | [] => True
  | x :: xs => (∀ key, ¬ r.Hears key x) ∧ (r.step x).Unheard xs

lemma message_proceed (r : Run) (turn : Turn) :
    (r.proceed turn).app.message = turn.app.message := by
  have hawait := turn.app.message_await turn.next
  rw [proceed]
  cases hnext : turn.next with
  | quit => rfl
  | died => rfl
  | _ =>
    rw [hnext] at hawait
    exact hawait

lemma message_press (r : Run) (key : Int) :
    (r.press key).app.message = (r.turn key).app.message := by
  rw [press_eq, message_proceed]

lemma turn_of_listens (h : r.Listens) (key : Int) : r.turn key = r.app.pressList key := by
  revert h
  rw [Listens, turn]
  cases r.waiting with
  | prompt | page => exact False.elim
  | _ => exact fun _ => rfl

lemma message_turn_of_not_listens (h : ¬ r.Listens) (key : Int) :
    (r.turn key).app.message = r.app.message := by
  revert h
  rw [Listens, turn]
  cases r.waiting with
  | prompt p => exact fun _ => message_pressPrompt _ _ _
  | page => exact fun _ => rfl
  | _ => exact fun h => absurd trivial h

/-- Whatever the refresh loop does, even if it is its last, it leaves the message alone. -/
lemma message_refreshed (r : Run) (rounds : ℕ) :
    (r.refreshed rounds).app.message = r.app.message := by
  rcases r.app_refreshed rounds with h | h <;> rw [h]
  exact r.app.message_refreshLoop rounds

lemma message_step_of_hears (h : r.Hears key x) :
    (r.step x).app.message = (r.app.pressList key).app.message := by
  cases x with
  | key k =>
    obtain ⟨hgoing, hlistens, rfl, -⟩ := h
    rw [step_key hgoing, message_press, turn_of_listens hlistens]
  | resize size =>
    obtain ⟨hgoing, hlistens, rfl⟩ := h
    rw [step_resize hgoing, message_press,
      turn_of_listens (r := { r with app := { r.app with size := size } }) hlistens]
    rfl
  | _ => exact h.elim

lemma message_step_of_unheard (h : ∀ key, ¬ r.Hears key x) :
    (r.step x).app.message = r.app.message := by
  unfold step
  split
  · rfl
  · next hgoing =>
    have hgoing : r.ending = none := by simpa using hgoing
    cases x with
    | key k =>
      rw [message_press]
      by_cases hlistens : r.Listens
      · -- a key that the list gets and does not hear is the one that says that none was hit
        obtain rfl : k = -1 := by
          by_contra hk
          exact h k ⟨hgoing, hlistens, rfl, hk⟩
        rw [turn_of_listens hlistens]
        rfl
      · exact message_turn_of_not_listens hlistens k
    | resize size =>
      have hlistens : ¬ r.Listens := fun hlistens => h 410 ⟨hgoing, hlistens, rfl⟩
      rw [message_press]
      exact message_turn_of_not_listens (r := { r with app := { r.app with size := size } })
        hlistens 410
    | refresh rounds => exact message_refreshed r rounds
    | _ => rfl

/-- Until the list hears a key, the message stays. -/
lemma message_of_unheard {xs : List Happening} (h : r.Unheard xs) :
    (xs.foldl step r).app.message = r.app.message := by
  induction xs generalizing r with
  | nil => rfl
  | cons x xs ih => exact (ih h.2).trans (message_step_of_unheard h.1)

/-- Either the list hears no key at all, or there is one that it hears last. -/
lemma unheard_or_last (r : Run) (script : List Happening) :
    r.Unheard script ∨ ∃ earlier x after key, script = earlier ++ x :: after ∧
      (earlier.foldl step r).Hears key x ∧ ((earlier ++ [x]).foldl step r).Unheard after := by
  induction script generalizing r with
  | nil => exact .inl trivial
  | cons x script ih =>
    rcases ih (r.step x) with hrest | ⟨earlier, y, after, key, rfl, hheard, hunheard⟩
    · by_cases hx : ∃ key, r.Hears key x
      · obtain ⟨key, hx⟩ := hx
        exact .inr ⟨[], x, script, key, rfl, hx, hrest⟩
      · exact .inl ⟨not_exists.mp hx, hrest⟩
    · exact .inr ⟨x :: earlier, y, after, key, rfl, hheard, hunheard⟩

/-- The frame on screen has the message that the program has. -/
def Current (r : Run) : Prop := ∀ f, r.shown = some f → f.app.message = r.app.message

lemma current_proceed (hblank : r.shown = none) (turn : Turn) : (r.proceed turn).Current := by
  rw [proceed]
  cases turn.next with
  | quit => rintro f ⟨⟩
  | died =>
    intro f hf
    rw [show r.shown = some f from hf] at hblank
    cases hblank
  | _ => rintro f ⟨⟩; rfl

lemma current_step (h : r.Current) (x : Happening) : (r.step x).Current := by
  have hpress (s : Run) (key : Int) : (s.press key).Current := by
    rw [press_eq]
    exact current_proceed (s.shown_close key) _
  unfold step
  split
  · exact h
  · cases x with
    | key key => exact hpress r key
    | resize size => exact hpress _ 410
    | refresh rounds =>
      show (r.refreshed rounds).Current
      unfold Current
      rw [(r.refreshed_keeps rounds).2.2.1, message_refreshed]
      exact h
    | _ => exact h

lemma current_run (h : r.Current) (script : List Happening) : (script.foldl step r).Current := by
  induction script generalizing r with
  | nil => exact h
  | cons x script ih => exact ih (current_step h x)

end Run

lemma message_pressList_of_complains {key : Int} {c : Command} (hkey : Command.ofKey key = some c)
    (h : a.Complains c m) : (a.pressList key).app.message = m := by
  rw [pressList]
  split
  · next hsilent =>
    subst hsilent
    cases hkey
  · simp only [hkey]
    exact message_of_complains ((complains_cleared a c).mpr h)

lemma message_pressList_of_content {key : Int} (hkey : key ≠ -1)
    (h : ∀ c m, Command.ofKey key = some c → ¬ a.Complains c m) :
    (a.pressList key).app.message = [] := by
  rw [pressList, if_neg hkey]
  cases hc : Command.ofKey key with
  | none => rfl
  | some c =>
    exact message_of_content fun m hm => h c m hc ((complains_cleared a c).mp hm)

/-! ### Whole runs -/

section Runs

variable (a : App) (pattern : Text) (colours : Bool)

/-- The last key that the list heard made its command fail, and this is the message. -/
def LastComplaint (script : List Happening) (m : Text) : Prop :=
  ∃ earlier x after key c, script = earlier ++ x :: after ∧
    (a.running pattern colours earlier).Hears key x ∧
    (a.running pattern colours (earlier ++ [x])).Unheard after ∧
    Command.ofKey key = some c ∧ (a.running pattern colours earlier).app.Complains c m

lemma message_running_nil : (a.running pattern colours []).app.message = a.message := by
  have hprepared : (a.prepared pattern).message = a.message := by
    rw [prepared]
    split <;> rfl
  have hlaunched : (a.launch pattern).app.message = a.message := by
    rw [app_launch, message_load, hprepared]
  show (takeScreen colours (a.launch pattern)).app.message = a.message
  rw [takeScreen]
  split
  · exact hlaunched
  · rw [Run.message_proceed]
    exact hlaunched

lemma current_running (script : List Happening) : (a.running pattern colours script).Current := by
  refine Run.current_run ?_ script
  rw [takeScreen]
  split
  · intro f hf
    rw [shown_launch] at hf
    cases hf
  · exact Run.current_proceed (shown_launch a pattern) _

variable {a pattern colours}

/-- There is a message exactly if the last key that the list heard made its command fail. -/
lemma message_running_iff (hquiet : a.message = []) (script : List Happening) :
    (a.running pattern colours script).app.message = m ∧ m ≠ [] ↔
      a.LastComplaint pattern colours script m := by
  have hsplit (earlier : List Happening) (x : Happening) (after : List Happening) :
      a.running pattern colours (earlier ++ x :: after) =
        after.foldl Run.step (a.running pattern colours (earlier ++ [x])) := by
    rw [← running_append, List.append_assoc]
    rfl
  have hlast {earlier : List Happening} {x : Happening} {after : List Happening} {key : Int}
      (hheard : (a.running pattern colours earlier).Hears key x)
      (hunheard : (a.running pattern colours (earlier ++ [x])).Unheard after) :
      (a.running pattern colours (earlier ++ x :: after)).app.message =
        ((a.running pattern colours earlier).app.pressList key).app.message := by
    rw [hsplit, Run.message_of_unheard hunheard, running_append]
    exact Run.message_step_of_hears hheard
  constructor
  · rintro ⟨hmessage, hm⟩
    rcases Run.unheard_or_last (takeScreen colours (a.launch pattern)) script with
      hunheard | ⟨earlier, x, after, key, rfl, hheard, hunheard⟩
    · -- there was no message at the start
      have hstart := message_running_nil a pattern colours
      have hnone : (a.running pattern colours script).app.message = [] :=
        (Run.message_of_unheard hunheard).trans (hstart.trans hquiet)
      exact absurd (hmessage.symm.trans hnone) hm
    · rw [hlast hheard hunheard] at hmessage
      by_cases hcomplains : ∃ c n, Command.ofKey key = some c ∧
          (a.running pattern colours earlier).app.Complains c n
      · obtain ⟨c, n, hkey, hn⟩ := hcomplains
        rw [message_pressList_of_complains hkey hn] at hmessage
        exact ⟨earlier, x, after, key, c, rfl, hheard, hunheard, hkey, hmessage ▸ hn⟩
      · simp only [not_exists, not_and] at hcomplains
        rw [message_pressList_of_content hheard.ne_silence hcomplains] at hmessage
        exact absurd hmessage.symm hm
  · rintro ⟨earlier, x, after, key, c, rfl, hheard, hunheard, hkey, hcomplains⟩
    rw [hlast hheard hunheard, message_pressList_of_complains hkey hcomplains]
    exact ⟨rfl, hcomplains.ne_nil⟩

end Runs

/-- **How long a message stays**: in every frame of a run, the program has a message exactly if the
last key that the list heard made its command fail, and that failure is what it tells of. Until the
list hears another key, every frame has the same message, whatever keys a prompt or a page takes, and
whatever comes of the refresh loop. A frame of the list shows the message in its help bar. -/
theorem message_of_last_key {a : App} (hquiet : a.message = []) (pattern : Text) (colours : Bool)
    (script : List Happening) {f : Frame} (hf : f ∈ (a.run pattern colours script).allFrames) :
    ∃ before g, before <+: script ∧ (a.running pattern colours before).shown = some g ∧
      ((a.running pattern colours before).app = f.app ∧ g.app = f.app ∧ g.events = f.events) ∧
      (∀ m, f.app.message = m ∧ m ≠ [] ↔ a.LastComplaint pattern colours before m) ∧
      (∀ waited h, (a.running pattern colours before).Unheard waited →
        (a.running pattern colours (before ++ waited)).shown = some h →
        h.app.message = f.app.message) ∧
      (f.OfList → f.Tells f.app.message) := by
  rw [allFrames_run] at hf
  obtain ⟨before, g, hbefore, hshown, happ, hframe⟩ := exists_shown_of_mem_allFrames hf
  refine ⟨before, g, hbefore, hshown, ⟨happ, hframe⟩, fun m => ?_, fun waited h hunheard hh => ?_,
    fun hlist => (drawnAlone_of_mem_allFrames hf hlist).drawn.tells⟩
  · rw [← happ]
    exact message_running_iff hquiet before
  · rw [current_running a pattern colours _ h hh, running_append, Run.message_of_unheard hunheard,
      happ]

/-- The daemon refuses a reload, and a round of the refresh loop after it, and its answer to another
round breaks off: a frame later the help bar still tells of the reload, as far as there is room. With
the prompt opened there is no message, nor after the letter that is typed there, though that is the
key of a reload in the list. -/
theorem message_of_last_key_reload :
    let a := App.start { host := ['h'] } {} ⟨6, 40⟩ 1 true
    let refused : Happening := .outcomes [.answered 500 "Oops".toList (.json .null)]
    let broken : Happening := .outcomes [.failed .chunkedEncodingError []]
    let waited := [refused, .key 269, refused, .refresh 1, broken, .refresh 1, .key (-1)]
    let typed := waited ++ [.key 47, refused, .key 114]
    let told := "Refresh failed: HTTP 500 Oops for h/containers/json".toList
    ∃ f g, (a.message = [] ∧ f ∈ (a.run [] true waited).allFrames ∧
        g ∈ (a.run [] true typed).allFrames) ∧
      (f.Tells told ∧ ∃ before attr, f.events = before ++
        [.screen (.addText 5 0 "Refresh failed: HTTP 500 Oops for h/con".toList attr),
         .screen .refresh, .screen (.waitAtMost 1000)]) ∧
      (∃ before, before <+: waited ∧ a.LastComplaint [] true before told) ∧
      ∃ before, before <+: typed ∧ ∀ m, ¬ a.LastComplaint [] true before m := by
  intro a refused broken waited typed told
  have hshown (script : List Happening) (message : Text)
      (h : (a.running [] true script).shown.map (fun f => (f.app.message, f.app.size)) =
        some (message, ⟨6, 40⟩)) :
      ∃ f ∈ (a.run [] true script).allFrames, (a.running [] true script).shown = some f ∧
        f.app.message = message ∧ f.app.size = ⟨6, 40⟩ := by
    obtain ⟨f, hf, hframe⟩ := Option.map_eq_some_iff.mp h
    refine ⟨f, ?_, hf, congrArg Prod.fst hframe, congrArg Prod.snd hframe⟩
    rw [allFrames_run, Run.allFrames, hf]
    exact List.mem_append_right _ (List.mem_singleton_self f)
  obtain ⟨f, hf, hfshown, hftold, hsize⟩ := hshown waited told (by decide +kernel)
  obtain ⟨g, hg, -, hgnone, -⟩ := hshown typed [] (by decide +kernel)
  have hlist : f.OfList := by
    have hwaiting : (a.running [] true waited).waiting = .list := by decide +kernel
    have hdrawn : f.Drawn := pictures_running a [] true waited hwaiting f hfshown
    exact hdrawn.ofList
  obtain ⟨before, -, hbefore, -, -, hmessage, -, htells⟩ :=
    message_of_last_key (a := a) rfl [] true waited hf
  obtain ⟨before', -, hbefore', -, -, hmessage', -, -⟩ :=
    message_of_last_key (a := a) rfl [] true typed hg
  have htold : f.Tells told := hftold ▸ htells hlist
  refine ⟨f, g, ⟨rfl, hf, hg⟩, ⟨htold, ?_⟩, ⟨before, hbefore, ?_⟩, before', hbefore',
    fun m hm => ?_⟩
  · -- the message alone is longer than the bar
    obtain ⟨earlier, attr, hevents, hlength, hprefix⟩ := htold.drawn (by rw [hsize]; decide)
    rw [hsize] at hevents hlength hprefix
    have hbar := hprefix.eq_of_length (by rw [hlength]; decide)
    rw [← hbar] at hevents
    exact ⟨earlier, attr, hevents⟩
  · exact (hmessage told).mp ⟨hftold, List.cons_ne_nil _ _⟩
  · obtain ⟨hsame, hm⟩ := (hmessage' m).mpr hm
    exact hm (hsame.symm.trans hgnone)

end DockConsole.App
