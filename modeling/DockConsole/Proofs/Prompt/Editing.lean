import DockConsole.Prompt
import DockConsole.Proofs.Text.Trim
import Mathlib.Data.List.Infix

/-!
Editing a line, seen as two stacks that meet at the caret.

What stands to the left of the caret and what stands to the right of it are kept apart. A key pushes
or pops at the caret, or moves characters from one side to the other, and never counts. A line that is
read from keys is at any time the two sides put together again.
-/

namespace DockConsole

/-- The text to the left of the caret and the text to the right of it. -/
structure Halves where
  left : Text
  right : Text
deriving DecidableEq, Repr

namespace Prompt

/-- The keys that end a line: three of them enter it, the last one gives it up. -/
def Closes (key : Int) : Prop := key = 10 ∨ key = 13 ∨ key = 343 ∨ key = 27

instance : DecidablePred Closes := fun key =>
  inferInstanceAs (Decidable (key = 10 ∨ key = 13 ∨ key = 343 ∨ key = 27))

/-- The keys in front of the first one that ends the line. -/
def typed (keys : List Int) : List Int := keys.takeWhile (¬ Closes ·)

/-- The keys from the first one on that ends the line. -/
def untyped (keys : List Int) : List Int := keys.dropWhile (¬ Closes ·)

section Keys

variable {key : Int} (keys : List Int)

lemma typed_of_closes (h : Closes key) : typed (key :: keys) = [] := by simp [typed, h]

lemma untyped_of_closes (h : Closes key) : untyped (key :: keys) = key :: keys := by
  simp [untyped, h]

lemma typed_of_not_closes (h : ¬ Closes key) : typed (key :: keys) = key :: typed keys := by
  simp [typed, h]

lemma untyped_of_not_closes (h : ¬ Closes key) : untyped (key :: keys) = untyped keys := by
  simp [untyped, h]

end Keys

end Prompt

namespace Halves

open Prompt (Closes typed untyped)

/-- What a key does that does not end the line. -/
def press (h : Halves) (key : Int) : Halves :=
  if 32 ≤ key ∧ key ≤ 126 then { h with left := h.left ++ [Char.ofNat key.toNat] }
  else if key = 8 ∨ key = 127 ∨ key = 263 then { h with left := h.left.dropLast }
  else if key = 330 then { h with right := h.right.tail }
  else if key = 260 then ⟨h.left.dropLast, h.left.getLast?.toList ++ h.right⟩
  else if key = 261 then ⟨h.left ++ h.right.head?.toList, h.right.tail⟩
  else if key = 262 then ⟨[], h.left ++ h.right⟩
  else if key = 360 then ⟨h.left ++ h.right, []⟩
  else h

/-- How a line ends, and the keys left over, when the key that ends it is the next one, if any. -/
inductive Ends (h : Halves) : List Int → Prompt.Ending × List Int → Prop
  | outOfKeys : Ends h [] (.outOfKeys, [])
  | cancelled (rest : List Int) : Ends h (27 :: rest) (.cancelled, rest)
  | accepted {key : Int} {text : Text} (rest : List Int) (enter : key = 10 ∨ key = 13 ∨ key = 343)
      (stripped : Text.Strips (h.left ++ h.right) text) :
      Ends h (key :: rest) (.accepted text, rest)

lemma Ends.unique {h : Halves} {keys : List Int} {a b : Prompt.Ending × List Int}
    (ha : h.Ends keys a) (hb : h.Ends keys b) : a = b := by
  cases ha with
  | outOfKeys =>
    cases hb
    rfl
  | cancelled =>
    cases hb with
    | cancelled => rfl
    | accepted _ enter => omega
  | accepted _ enter stripped =>
    cases hb with
    | cancelled => omega
    | accepted _ _ stripped' =>
      rw [Text.strips_iff.mp stripped, Text.strips_iff.mp stripped']

/-- The line that the two sides make up. -/
def prompt (h : Halves) (label : Text) : Prompt := ⟨label, h.left ++ h.right, h.left.length⟩

variable (h : Halves) (label : Text)

lemma caret_prompt_le : (h.prompt label).caret ≤ (h.prompt label).text.length := by
  simp [prompt]

/-! ### One key -/

lemma edit_type (c : Char) :
    (h.prompt label).edit (.type c) = .editing (prompt ⟨h.left ++ [c], h.right⟩ label) := by
  simp [prompt, Prompt.edit, Prompt.insertChar]

/-- The character behind the first ones is taken out of the text. -/
lemma dropChar_append (label left right : Text) (c : Char) (caret : ℕ) :
    (⟨label, left ++ c :: right, caret⟩ : Prompt).dropChar left.length =
      ⟨label, left ++ right, left.length⟩ := by
  have hafter : (left ++ c :: right).drop (left.length + 1) = right :=
    List.drop_length_add_append 1
  unfold Prompt.dropChar
  simp only [hafter, List.take_left]

lemma edit_dropBefore :
    (h.prompt label).edit .dropBefore = .editing (prompt ⟨h.left.dropLast, h.right⟩ label) := by
  obtain ⟨left, right⟩ := h
  rcases List.eq_nil_or_concat' left with rfl | ⟨left, c, rfl⟩
  · rfl
  · have htext : left ++ [c] ++ right = left ++ c :: right := List.append_cons left c right |>.symm
    have hcaret : (left ++ [c]).length = left.length + 1 := List.length_append
    unfold prompt Prompt.edit
    simp only [htext, hcaret, Nat.add_sub_cancel, Nat.succ_ne_zero, if_false, List.dropLast_concat,
      dropChar_append]

lemma edit_dropAt :
    (h.prompt label).edit .dropAt = .editing (prompt ⟨h.left, h.right.tail⟩ label) := by
  obtain ⟨left, right⟩ := h
  cases right with
  | nil => simp [prompt, Prompt.edit]
  | cons c right =>
    have hinside : left.length < (left ++ c :: right).length := by
      rw [List.length_append, List.length_cons]
      omega
    unfold prompt Prompt.edit
    simp only [if_pos hinside, dropChar_append, List.tail_cons]

lemma edit_left :
    (h.prompt label).edit .left =
      .editing (prompt ⟨h.left.dropLast, h.left.getLast?.toList ++ h.right⟩ label) := by
  obtain ⟨left, right⟩ := h
  rcases List.eq_nil_or_concat' left with rfl | ⟨left, c, rfl⟩
  · rfl
  · simp [prompt, Prompt.edit]

lemma edit_right :
    (h.prompt label).edit .right =
      .editing (prompt ⟨h.left ++ h.right.head?.toList, h.right.tail⟩ label) := by
  obtain ⟨left, right⟩ := h
  cases right with
  | nil => simp [prompt, Prompt.edit]
  | cons c right => simp [prompt, Prompt.edit]

lemma edit_toStart :
    (h.prompt label).edit .toStart = .editing (prompt ⟨[], h.left ++ h.right⟩ label) := rfl

lemma edit_toEnd :
    (h.prompt label).edit .toEnd = .editing (prompt ⟨h.left ++ h.right, []⟩ label) := by
  simp [prompt, Prompt.edit]

/-- What a key does to a line is what it does to its two sides. -/
lemma press_prompt {key : Int} (hkey : ¬ Closes key) :
    (h.prompt label).press key = .editing ((h.press key).prompt label) := by
  unfold Closes at hkey
  -- no key is of two of these kinds, so it does not matter in which order they are told apart
  by_cases hback : key = 8 ∨ key = 127 ∨ key = 263
  · rcases hback with rfl | rfl | rfl <;> exact h.edit_dropBefore label
  by_cases hdelete : key = 330
  · subst hdelete
    exact h.edit_dropAt label
  by_cases hleft : key = 260
  · subst hleft
    exact h.edit_left label
  by_cases hright : key = 261
  · subst hright
    exact h.edit_right label
  by_cases hhome : key = 262
  · subst hhome
    exact h.edit_toStart label
  by_cases hend : key = 360
  · subst hend
    exact h.edit_toEnd label
  by_cases htyped : 32 ≤ key ∧ key ≤ 126
  · have hedit : Edit.ofKey key = some (.type (Char.ofNat key.toNat)) := by
      unfold Edit.ofKey
      rw [if_neg (by omega), if_neg (by omega), if_neg hback, if_neg hdelete, if_neg hleft,
        if_neg hright, if_neg hhome, if_neg hend, if_pos htyped]
    have hpress : h.press key = ⟨h.left ++ [Char.ofNat key.toNat], h.right⟩ := if_pos htyped
    unfold Prompt.press
    rw [hedit, hpress]
    exact h.edit_type label _
  · have hnone : Edit.ofKey key = none := by
      unfold Edit.ofKey
      rw [if_neg (by omega), if_neg (by omega), if_neg hback, if_neg hdelete, if_neg hleft,
        if_neg hright, if_neg hhome, if_neg hend, if_neg htyped]
    have hpress : h.press key = h := by
      unfold press
      rw [if_neg htyped, if_neg hback, if_neg hdelete, if_neg hleft, if_neg hright, if_neg hhome,
        if_neg hend]
    unfold Prompt.press
    rw [hnone, hpress]

lemma press_enter {key : Int} (hkey : key = 10 ∨ key = 13 ∨ key = 343) :
    (h.prompt label).press key = .accepted (h.left ++ h.right).trim := by
  rcases hkey with rfl | rfl | rfl <;> rfl

/-! ### A line of keys -/

/-- Typing goes on between the two sides until a key ends the line. -/
lemma ends_read (size : ScreenSize) (theme : Theme) (keys : List Int) :
    Ends ((typed keys).foldl press h) (untyped keys)
      ((h.prompt label).read size theme keys).2 := by
  induction keys generalizing h with
  | nil => exact .outOfKeys
  | cons key keys ih =>
    by_cases hkey : Closes key
    · rw [Prompt.typed_of_closes keys hkey, Prompt.untyped_of_closes keys hkey]
      unfold Prompt.read
      have henter : (key = 10 ∨ key = 13 ∨ key = 343) ∨ key = 27 := by
        unfold Closes at hkey
        omega
      rcases henter with henter | rfl
      · simp only [h.press_enter label henter]
        exact .accepted keys henter (Text.strips_trim _)
      · exact .cancelled keys
    · rw [Prompt.typed_of_not_closes keys hkey, Prompt.untyped_of_not_closes keys hkey,
        List.foldl_cons]
      unfold Prompt.read
      simp only [h.press_prompt label hkey]
      exact ih (h.press key)

end Halves

/-- A call that puts the line on the screen; the others wait for a key or show and hide the caret. -/
def ScreenCall.draws : ScreenCall → Bool
  | .readKey _ => false
  | .showCursor _ => false
  | _ => true

namespace Prompt

/-- The line at each time a key is awaited. -/
def stages (p : Prompt) : List Int → List Prompt
  | [] => [p]
  | key :: keys =>
    match p.press key with
    | .editing q => p :: q.stages keys
    | _ => [p]

/-- The line is drawn once for each key that is awaited, as it is then. -/
lemma filter_draws_read (p : Prompt) (size : ScreenSize) (theme : Theme) (keys : List Int) :
    (p.read size theme keys).1.filter ScreenCall.draws =
      (p.stages keys).flatMap (·.draw size theme) := by
  induction keys generalizing p with
  | nil => rfl
  | cons key keys ih =>
    unfold read stages
    cases hpress : p.press key with
    | editing q =>
      have hrest := ih q
      simp only [List.filter_append, List.flatMap_cons, hrest]
      rfl
    | accepted text => rfl
    | cancelled => rfl

lemma stages_of_closes (p : Prompt) {key : Int} (hkey : Closes key) (keys : List Int) :
    p.stages (key :: keys) = [p] := by
  unfold Closes at hkey
  rcases hkey with rfl | rfl | rfl | rfl <;> rfl

lemma stages_prompt (h : Halves) (label : Text) (keys : List Int) :
    (h.prompt label).stages keys = (typed keys).inits.map fun before =>
      (before.foldl Halves.press h).prompt label := by
  induction keys generalizing h with
  | nil => rfl
  | cons key keys ih =>
    by_cases hkey : Closes key
    · rw [typed_of_closes keys hkey, stages_of_closes _ hkey]
      rfl
    · rw [typed_of_not_closes keys hkey, List.inits_cons]
      unfold stages
      simp only [h.press_prompt label hkey, ih, List.map_cons, List.map_map]
      rfl

lemma start_eq (label initial : Text) :
    start label initial = (⟨initial, []⟩ : Halves).prompt label := by
  simp [start, Halves.prompt]

/-- **Editing**: a line that is read from keys is, whenever a key is awaited and the line drawn, the
two sides that the keys so far make of the text it began with, and its caret is between them, hence
inside of the text. It ends by the first key that ends a line, with what the two sides make up but for
the blanks around it, or without; what follows that key is left over. Without such a key it runs out
of keys. -/
theorem read_by_halves (label initial : Text) (size : ScreenSize) (theme : Theme)
    (keys : List Int) :
    let p := start label initial
    let halves (keys : List Int) : Halves := keys.foldl Halves.press ⟨initial, []⟩
    (∀ result, (halves (typed keys)).Ends (untyped keys) result ↔
      (p.read size theme keys).2 = result) ∧
      (p.read size theme keys).1.filter ScreenCall.draws =
        (p.stages keys).flatMap (·.draw size theme) ∧
      p.stages keys = (typed keys).inits.map (fun before => (halves before).prompt label) ∧
      ∀ q ∈ p.stages keys, q.caret ≤ q.text.length := by
  intro p halves
  have hp : p = (⟨initial, []⟩ : Halves).prompt label := start_eq label initial
  have hends : (halves (typed keys)).Ends (untyped keys) (p.read size theme keys).2 := by
    rw [hp]
    exact Halves.ends_read _ label size theme keys
  have hstages : p.stages keys =
      (typed keys).inits.map fun before => (halves before).prompt label := by
    rw [hp]
    exact stages_prompt _ label keys
  refine ⟨fun result => ⟨fun h => hends.unique h, ?_⟩, p.filter_draws_read size theme keys, hstages,
    fun q hq => ?_⟩
  · rintro rfl
    exact hends
  · rw [hstages] at hq
    obtain ⟨before, -, rfl⟩ := List.mem_map.mp hq
    exact (halves before).caret_prompt_le label

/-- Before the `b` of ` ab` an `x` is typed and taken back, the `b` is deleted and a `y` typed. Enter
gives what is left without the blank, and the key behind it is not read. -/
theorem read_by_halves_up_to_enter :
    let p := start "/ ".toList " ab".toList
    let keys : List Int := [260, 120, 127, 330, 121, 10, 27]
    (p.read ⟨6, 40⟩ {} keys).2 = (.accepted "ay".toList, [27]) ∧
      (⟨"/ ".toList, " axb".toList, 3⟩ ∈ p.stages keys ∧ 3 ≤ " axb".toList.length) ∧
      (p.read ⟨6, 40⟩ {} [260, 120]).2 = (.outOfKeys, []) := by
  intro p keys
  obtain ⟨hends, -, -, hcaret⟩ := read_by_halves "/ ".toList " ab".toList ⟨6, 40⟩ {} keys
  have hentered : Text.Strips " ay".toList "ay".toList := Text.strips_iff.mpr (by decide)
  have hstage : ⟨"/ ".toList, " axb".toList, 3⟩ ∈ p.stages keys := by decide
  exact ⟨(hends _).mp (.accepted [27] (.inl rfl) hentered), ⟨hstage, hcaret _ hstage⟩, rfl⟩

end Prompt

end DockConsole
