import DockConsole.Proofs.Rows.Order
import Mathlib.Data.List.Induction

/-!
Rows sorted in several orders, one after the other.

Each sort leaves rows that tie as the sorts before it put them. So sorting in several orders in turn
is one stable sort by the texts of all of them, of which that of the last order counts first.
-/

namespace DockConsole

/-- Lists are compared by the first entries in which they differ, and one that ends first comes
first. -/
def Lexicographic {α : Type} (before : α → α → Prop) : List α → List α → Prop
  | [], _ => True
  | _ :: _, [] => False
  | a :: as, b :: bs => before a b ∨ a = b ∧ Lexicographic before as bs

namespace Lexicographic

variable {α : Type} {before : α → α → Prop}

lemma refl (as : List α) : Lexicographic before as as := by
  induction as with
  | nil => trivial
  | cons a as ih => exact .inr ⟨rfl, ih⟩

lemma antisymm (hasymm : ∀ a b, before a b → ¬ before b a) {as bs : List α}
    (h : Lexicographic before as bs) (k : Lexicographic before bs as) : as = bs := by
  induction as generalizing bs with
  | nil =>
    cases bs with
    | nil => rfl
    | cons => exact k.elim
  | cons a as ih =>
    cases bs with
    | nil => exact h.elim
    | cons b bs =>
      rcases h with hab | ⟨rfl, h⟩
      · rcases k with hba | ⟨rfl, -⟩
        · exact absurd hba (hasymm a b hab)
        · exact absurd hab (hasymm b b hab)
      · rcases k with haa | ⟨-, k⟩
        · exact absurd haa (hasymm a a haa)
        · rw [ih h k]

end Lexicographic

namespace Text

/-- Texts by their code points. -/
def Precedes : Text → Text → Prop := Lexicographic fun c d => c.toNat < d.toNat

/-- The order of texts is the lexicographic order of code points. -/
lemma le_iff_precedes (s t : Text) : s ≤ t ↔ s.Precedes t := by
  induction s generalizing t with
  | nil => exact iff_of_true (List.nil_le t) trivial
  | cons c s ih =>
    cases t with
    | nil => exact iff_of_false (fun h => List.cons_ne_nil c s (List.le_nil.mp h)) id
    | cons d t =>
      have hcons : c :: s ≤ d :: t ↔ c < d ∨ c = d ∧ s ≤ t := List.cons_le_cons_iff
      rw [hcons, ih]
      rfl

lemma Precedes.antisymm {s t : Text} (h : s.Precedes t) (k : t.Precedes s) : s = t :=
  Lexicographic.antisymm (fun _ _ => Nat.lt_asymm) h k

/-- Tuples of texts are compared text by text. -/
def TuplePrecedes : List Text → List Text → Prop := Lexicographic fun s t => s.Precedes t ∧ s ≠ t

lemma TuplePrecedes.antisymm {ss ts : List Text} (h : TuplePrecedes ss ts)
    (k : TuplePrecedes ts ss) : ss = ts :=
  Lexicographic.antisymm (fun _ _ hst hts => hst.2 (hst.1.antisymm hts.1)) h k

end Text

namespace Rows

open Text (Precedes TuplePrecedes)

/-- The text that a row is sorted by. Without an order it is the same for all rows. -/
def textIn (mode : SortMode) (r : Row) : Text :=
  match mode.title? with
  | some title => r.field title
  | none => []

/-- `ys` are the rows `xs`, with keys that never go down, and with rows of one key as they stood. -/
structure StablySorted {κ : Type} [DecidableEq κ] (le : κ → κ → Prop) (key : Row → κ)
    (xs ys : List Row) : Prop where
  perm : ys.Perm xs
  ordered : ys.Pairwise fun r s => le (key r) (key s)
  ties : ∀ k, ys.filter (key · = k) = xs.filter (key · = k)

namespace StablySorted

variable {κ : Type} [DecidableEq κ] {le : κ → κ → Prop} {key : Row → κ} {xs ys zs : List Row}

/-- Rows can be sorted stably in one way only. -/
lemma unique (hrefl : ∀ k, le k k) (hantisymm : ∀ k l, le k l → le l k → k = l)
    (h : StablySorted le key xs ys) (k : StablySorted le key xs zs) : ys = zs :=
  eq_of_sorted hrefl hantisymm h.ordered k.ordered fun l => (h.ties l).trans (k.ties l).symm

end StablySorted

lemma stablySorted_sort (rows : List Row) (mode : SortMode) :
    StablySorted Precedes (textIn mode) rows (sort rows mode) := by
  have hperm := sort_perm rows mode
  cases htitle : mode.title? with
  | none =>
    have hkey : textIn mode = fun _ => [] := by
      funext r
      rw [textIn, htitle]
    have hsort : sort rows mode = rows := by rw [sort, htitle]
    rw [hkey, hsort]
    exact ⟨.refl _, List.pairwise_of_forall fun _ _ => Lexicographic.refl [], fun _ => rfl⟩
  | some title =>
    have hkey : textIn mode = (·.field title) := by
      funext r
      rw [textIn, htitle]
    have hsort : sort rows mode = sortBy (·.field title) rows := by rw [sort, htitle]
    have hsorted : (sortBy (·.field title) rows).Pairwise fun r s =>
        r.field title ≤ s.field title := sorted_sortBy rows
    rw [hsort] at hperm
    rw [hkey, hsort]
    exact ⟨hperm, hsorted.imp (Text.le_iff_precedes _ _).mp, filter_sortBy rows⟩

/-! ### One order after the other -/

/-- Where rows of one text are in order among themselves, the whole is in order by both. -/
lemma pairwise_both {f : Row → Text} {le : Row → Row → Prop} {rows : List Row}
    (htexts : rows.Pairwise fun r s => (f r).Precedes (f s))
    (hties : ∀ k, (rows.filter (f · = k)).Pairwise le) :
    rows.Pairwise fun r s => (f r).Precedes (f s) ∧ (f r = f s → le r s) := by
  induction rows with
  | nil => exact .nil
  | cons r rows ih =>
    obtain ⟨hr, hrows⟩ := List.pairwise_cons.mp htexts
    refine List.pairwise_cons.mpr ⟨fun s hs => ⟨hr s hs, fun htie => ?_⟩, ih hrows fun k => ?_⟩
    · have hfirst := hties (f r)
      rw [List.filter_cons_of_pos (by simp)] at hfirst
      exact List.rel_of_pairwise_cons hfirst (List.mem_filter.mpr ⟨hs, by simp [htie]⟩)
    · exact (hties k).sublist ((List.sublist_cons_self r rows).filter _)

/-- A stable sort by a text keeps what order there was by a tuple, where the texts are the same. -/
lemma StablySorted.cons {keys : Row → List Text} {f : Row → Text} {xs ys zs : List Row}
    (h : StablySorted TuplePrecedes keys xs ys) (k : StablySorted Precedes f ys zs) :
    StablySorted TuplePrecedes (fun r => f r :: keys r) xs zs where
  perm := k.perm.trans h.perm
  ordered := by
    have hties (t : Text) :
        (zs.filter (f · = t)).Pairwise fun r s => TuplePrecedes (keys r) (keys s) := by
      rw [k.ties t]
      exact h.ordered.filter _
    refine (pairwise_both k.ordered hties).imp fun {r s} hrs => ?_
    by_cases htie : f r = f s
    · exact .inr ⟨htie, hrs.2 htie⟩
    · exact .inl ⟨hrs.1, htie⟩
  ties := by
    rintro (_ | ⟨t, ts⟩)
    · simp
    · have hsplit (rows : List Row) : (rows.filter fun r => f r :: keys r = t :: ts) =
          (rows.filter (f · = t)).filter (keys · = ts) := by
        rw [List.filter_filter]
        refine List.filter_congr fun r _ => ?_
        simp [Bool.and_comm]
      rw [hsplit, hsplit, k.ties t, List.filter_comm, h.ties ts, List.filter_comm]

/-- The texts that rows sorted in these orders are sorted by, the last order's first. -/
def tupleIn (modes : List SortMode) (r : Row) : List Text := modes.reverse.map (textIn · r)

lemma stablySorted_foldl (rows : List Row) (modes : List SortMode) :
    StablySorted TuplePrecedes (tupleIn modes) rows (modes.foldl sort rows) := by
  induction modes using List.reverseRecOn with
  | nil => exact ⟨.refl _, List.pairwise_of_forall fun _ _ => Lexicographic.refl [], fun _ => rfl⟩
  | append_singleton modes mode ih =>
    have htuple : tupleIn (modes ++ [mode]) = fun r => textIn mode r :: tupleIn modes r := by
      funext r
      rw [tupleIn, List.reverse_append]
      rfl
    rw [htuple, List.foldl_append]
    exact ih.cons (stablySorted_sort _ mode)

/-- **Sorting**: the rows sorted by an order are the same rows, by the text of its column in
lexicographic order of code points, with rows that tie as they stood; and no other list is. Rows
sorted in several orders in turn are sorted stably, once, by the tuple of their texts, the last
order's first, in lexicographic order; and no other list is. Without an order all texts are the
same. -/
theorem sorted_in_turn_iff (rows ys : List Row) :
    (∀ mode, StablySorted Precedes (textIn mode) rows ys ↔ ys = sort rows mode) ∧
      ∀ modes, StablySorted TuplePrecedes (tupleIn modes) rows ys ↔ ys = modes.foldl sort rows := by
  refine ⟨fun mode => ⟨fun h => ?_, ?_⟩, fun modes => ⟨fun h => ?_, ?_⟩⟩
  · exact h.unique Lexicographic.refl (fun _ _ => Text.Precedes.antisymm)
      (stablySorted_sort rows mode)
  · rintro rfl
    exact stablySorted_sort rows mode
  · exact h.unique Lexicographic.refl (fun _ _ => Text.TuplePrecedes.antisymm)
      (stablySorted_foldl rows modes)
  · rintro rfl
    exact stablySorted_foldl rows modes

end Rows

end DockConsole
