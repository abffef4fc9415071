import DockConsole.Proofs.Prompt.Editing

/-!
Where the caret of a line stands on the screen.

The label takes its columns first, and the text gets what is left of the line. Text is hidden on the
left just as far as the caret needs to come in sight, so the caret is put under the character that it
stands in front of, or behind the last one, however long the text is.
-/

namespace DockConsole

namespace Prompt

variable {p : Prompt} {size : ScreenSize}

/-! ### The line and the caret in it -/

lemma room_eq (h : 5 ≤ size.columns - 1 - p.label.length) :
    (p.room size : Int) = size.columns - 1 - p.label.length := by
  unfold room
  omega

lemma scroll_le (h : 5 ≤ size.columns - 1 - p.label.length) : p.scroll size ≤ p.caret := by
  have hroom := room_eq h
  unfold scroll
  omega

/-- The caret never leaves the room that the text has. -/
lemma caret_lt_scroll_add_room (h : 5 ≤ size.columns - 1 - p.label.length) :
    p.caret < p.scroll size + p.room size := by
  have hroom := room_eq h
  unfold scroll
  omega

lemma length_shownText (p : Prompt) (size : ScreenSize) :
    (p.shownText size).length = min (p.room size) (p.text.length - p.scroll size) := by
  simp [shownText]

/-- Nothing of the line is cut off at the edge of the screen. -/
lemma shownLine_eq (h : 5 ≤ size.columns - 1 - p.label.length) :
    p.shownLine size = p.label ++ p.shownText size := by
  have hroom := room_eq h
  have hlength := p.length_shownText size
  have hnonneg : 0 ≤ size.columns - 1 := by omega
  unfold shownLine Text.upTo
  rw [if_pos hnonneg]
  apply List.take_of_length_le
  rw [List.length_append, hlength]
  omega

lemma caretColumn_eq (h : 5 ≤ size.columns - 1 - p.label.length) :
    p.caretColumn size = p.label.length + (p.caret - p.scroll size : ℕ) := by
  have hroom := room_eq h
  have hscroll := scroll_le h
  have hcaret := caret_lt_scroll_add_room h
  unfold caretColumn
  omega

lemma getElem?_shownText (h : 5 ≤ size.columns - 1 - p.label.length) :
    (p.shownText size)[p.caret - p.scroll size]? = p.text[p.caret]? := by
  have hscroll := scroll_le h
  have hcaret := caret_lt_scroll_add_room h
  have hplace : p.scroll size + (p.caret - p.scroll size) = p.caret := by omega
  unfold shownText
  rw [List.getElem?_take_of_lt (by omega), List.getElem?_drop, hplace]

/-- What a screen shows of a line, and the column in which the caret stands there, are true to it. -/
structure Depicts (p : Prompt) (size : ScreenSize) (drawn : Text) (column : Int) : Prop where
  fits : drawn.length ≤ size.columns - 1
  labelled : p.label <+: drawn
  behind : p.label.length ≤ column
  before : column ≤ size.columns - 2
  under : p.caret < p.text.length → drawn[column.toNat]? = p.text[p.caret]?
  atEnd : p.caret = p.text.length → column = drawn.length
  slice : drawn.drop p.label.length =
    (p.text.drop (p.scroll size)).take (size.columns - 1 - p.label.length).toNat
  unscrolled : p.caret < size.columns - 1 - p.label.length ↔ p.scroll size = 0

lemma depicts_of_room (h : 5 ≤ size.columns - 1 - p.label.length) :
    p.Depicts size (p.shownLine size) (p.caretColumn size) := by
  have hroom := room_eq h
  have hscroll := scroll_le h
  have hcaret := caret_lt_scroll_add_room h
  have hlength := p.length_shownText size
  rw [shownLine_eq h, caretColumn_eq h]
  refine ⟨?_, List.prefix_append _ _, ?_, ?_, fun _ => ?_, fun hend => ?_, ?_, ?_⟩
  · rw [List.length_append, hlength]
    omega
  · omega
  · omega
  · have hcolumn : ((p.label.length : Int) + (p.caret - p.scroll size : ℕ)).toNat =
        p.label.length + (p.caret - p.scroll size) := by omega
    rw [hcolumn, List.getElem?_append_right (by omega), Nat.add_sub_cancel_left,
      getElem?_shownText h]
  · rw [List.length_append, hlength]
    omega
  · have htake : (size.columns - 1 - (p.label.length : Int)).toNat = p.room size := by omega
    rw [List.drop_left, htake]
    rfl
  · unfold scroll
    omega

/-- **The caret**: while a line is read, it is drawn once for each key that is awaited. On a screen
with room for five characters beside the label, what is drawn of it keeps in front of the last column
and begins with the whole label. Behind that comes a slice of the text, from its start as long as the
caret is within the room there is, and the caret is put under the character it stands in front of, or
right behind the text. -/
theorem caret_in_place (label initial : Text) (keys : List Int) :
    let p := start label initial
    (∀ size theme, (p.read size theme keys).1.filter ScreenCall.draws =
      (p.stages keys).flatMap (·.draw size theme)) ∧
      ∀ q ∈ p.stages keys, q.label = label ∧ ∀ (size : ScreenSize) (theme : Theme),
        5 ≤ size.columns - 1 - label.length →
          q.draw size theme =
            [.moveTo (size.rows - 1) 0, .clearToEndOfLine,
             .addTextUpTo (size.rows - 1) 0 (q.shownLine size) (size.columns - 1)
               (Attr.union theme.reversed theme.filtered),
             .moveTo (size.rows - 1) (q.caretColumn size)] ∧
          q.Depicts size (q.shownLine size) (q.caretColumn size) := by
  intro p
  refine ⟨fun size theme => p.filter_draws_read size theme keys, fun q hq => ?_⟩
  have hlabel : q.label = label := by
    rw [show p = _ from start_eq label initial, stages_prompt] at hq
    obtain ⟨typed, -, rfl⟩ := List.mem_map.mp hq
    rfl
  exact ⟨hlabel, fun size theme hroom => ⟨rfl, depicts_of_room (hlabel.symm ▸ hroom)⟩⟩

/-- Eight characters in room for seven, one step before their end: the first one is hidden, and the
caret is under the last one, next to the edge. -/
theorem caret_in_place_when_scrolled :
    let p := start "/ ".toList "abcdefgh".toList
    let q : Prompt := ⟨"/ ".toList, "abcdefgh".toList, 7⟩
    let size : ScreenSize := ⟨6, 10⟩
    (q ∈ p.stages [260] ∧ 5 ≤ size.columns - 1 - "/ ".toList.length) ∧
      q.shownLine size = "/ bcdefgh".toList ∧ (q.shownLine size)[8]? = some 'h' ∧
      (q.shownLine size).length ≤ 9 := by
  intro p q size
  have hstage : q ∈ p.stages [260] := by decide
  have hroom : 5 ≤ size.columns - 1 - "/ ".toList.length := by decide
  obtain ⟨-, hstages⟩ := caret_in_place "/ ".toList "abcdefgh".toList [260]
  obtain ⟨-, hdrawn⟩ := hstages q hstage
  obtain ⟨-, hdepicts⟩ := hdrawn size {} hroom
  have hfits : ((q.shownLine size).length : Int) ≤ 9 := hdepicts.fits
  exact ⟨⟨hstage, hroom⟩, by decide, hdepicts.under (by decide), by omega⟩

end Prompt

end DockConsole
