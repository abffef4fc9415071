import DockConsole.Text.Blank
import Mathlib.Data.List.DropRight

/-!
Texts without the blanks at their ends.

Trimming takes blanks off both ends until none is left there, and no other text is what is left.
-/

namespace DockConsole.Text

/-- `t` is `s` without blanks around it, and neither begins nor ends in a blank. -/
structure Strips (s t : Text) : Prop where
  around : ∃ before after, s = before ++ t ++ after ∧ (∀ c ∈ before, isBlank c) ∧
    ∀ c ∈ after, isBlank c
  head : ∀ c ∈ t.head?, ¬ isBlank c
  last : ∀ c ∈ t.getLast?, ¬ isBlank c

variable {s t : Text}

lemma trim_eq (s : Text) : s.trim = (s.dropWhile isBlank).rdropWhile isBlank := rfl

/-- What is dropped from the end is dropped up to a character that stays. -/
lemma last_rdropWhile (p : Char → Bool) (s : Text) : ∀ c ∈ (s.rdropWhile p).getLast?, ¬ p c := by
  intro c hc
  have hne : s.rdropWhile p ≠ [] := by
    rintro h
    simp [h] at hc
  rw [List.getLast?_eq_some_getLast hne] at hc
  obtain rfl := Option.some.inj hc
  exact List.rdropWhile_last_not p s hne

lemma strips_trim (s : Text) : Strips s s.trim where
  around := by
    refine ⟨s.takeWhile isBlank, (s.dropWhile isBlank).rtakeWhile isBlank, ?_, ?_, ?_⟩
    · rw [trim_eq, List.append_assoc, List.rdropWhile_append_rtakeWhile,
        List.takeWhile_append_dropWhile]
    · exact fun c => List.mem_takeWhile_imp
    · exact fun c => List.mem_rtakeWhile_imp
  head := by
    intro c hc
    obtain ⟨rest, hrest⟩ := List.rdropWhile_prefix isBlank (s.dropWhile isBlank)
    have hhead : (s.dropWhile isBlank).head? = some c := by
      rw [← hrest, List.head?_append, ← trim_eq, hc]
      rfl
    have hnot := List.head?_dropWhile_not isBlank s
    rw [hhead] at hnot
    simpa using hnot
  last := last_rdropWhile isBlank _

lemma rdropWhile_append {p : Char → Bool} {after : Text} (hafter : ∀ c ∈ after, p c)
    (hlast : ∀ c ∈ t.getLast?, ¬ p c) : (t ++ after).rdropWhile p = t := by
  have hgone : (t ++ after).rdropWhile p = t.rdropWhile p := by
    unfold List.rdropWhile
    rw [List.reverse_append, List.dropWhile_append_of_pos (by simpa using hafter)]
  rw [hgone]
  exact List.rdropWhile_eq_self_iff.mpr fun hne => hlast _ (List.getLast?_eq_some_getLast hne)

/-- Nothing but trimming strips a text. -/
lemma strips_iff : Strips s t ↔ t = s.trim := by
  constructor
  · rintro ⟨⟨before, after, rfl, hbefore, hafter⟩, hhead, hlast⟩
    rw [trim_eq, List.append_assoc, List.dropWhile_append_of_pos hbefore]
    cases t with
    | nil =>
      have hnil : after.dropWhile isBlank = [] := List.dropWhile_eq_nil_iff.mpr hafter
      rw [List.nil_append, hnil, List.rdropWhile_nil]
    | cons c t =>
      have hc : ¬ isBlank c := hhead c rfl
      rw [List.cons_append, List.dropWhile_cons_of_neg hc, ← List.cons_append]
      exact (rdropWhile_append hafter hlast).symm
  · rintro rfl
    exact strips_trim s

end DockConsole.Text
