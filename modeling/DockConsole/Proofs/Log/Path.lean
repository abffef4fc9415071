import Mathlib.Data.List.Basic
import DockConsole.Log.Path

/-!
Paths that are written alike are alike.

What a path is read from is cut at the slashes, so apart from the root no name on it holds a slash,
and none is empty. Cutting what such a path is written as gives the names back. From the root on,
names that lead up are followed at once, so none is left on a path that starts there.
-/

namespace DockConsole

namespace Text

lemma notMem_of_mem_pieces {sep : Char} {s p : Text} (hp : p ∈ pieces sep s) : sep ∉ p := by
  induction s generalizing p with
  | nil => simp_all [pieces]
  | cons c s ih =>
    rw [pieces] at hp
    split_ifs at hp with h
    · obtain rfl | hp := List.mem_cons.mp hp
      · exact List.not_mem_nil
      · exact ih hp
    · cases hs : pieces sep s with
      | nil => simp_all [Ne.symm h]
      | cons q qs =>
        rw [hs] at hp
        obtain rfl | hp := List.mem_cons.mp hp
        · exact List.not_mem_cons_of_ne_of_not_mem (Ne.symm h) (ih (hs ▸ List.mem_cons_self))
        · exact ih (hs ▸ List.mem_cons_of_mem _ hp)

end Text

namespace Log.Path

/-- A name on a path, other than the root. -/
structure Plain (name : Text) : Prop where
  ne_nil : name ≠ []
  slash_notMem : '/' ∉ name

lemma Plain.not_isRoot {name : Text} (h : Plain name) : isRoot name = false := by
  have h₁ : name ≠ root := by rintro rfl; exact h.slash_notMem (by decide)
  have h₂ : name ≠ otherRoot := by rintro rfl; exact h.slash_notMem (by decide)
  simp [isRoot, h₁, h₂]

lemma plain_up : Plain up := ⟨by decide, by decide⟩

lemma base_cases (s : Text) : base s = [] ∨ base s = [root] ∨ base s = [otherRoot] := by
  rw [base.eq_def]
  split <;> simp

lemma isRoot_of_mem_base {s name : Text} (h : name ∈ base s) : isRoot name = true := by
  obtain hs | hs | hs := base_cases s <;> rw [hs] at h <;> simp_all [isRoot]

/-- Whatever name is followed, what holds of the names after the start of a path still does. While
names are followed, the start is at the end. -/
def Keeps (P : Text → Prop) (start : Path) : Prop :=
  ∀ names : List Text, (∀ n ∈ names, P n) → ∀ name : Text, '/' ∉ name →
    ∃ names', follow (names ++ start) name = names' ++ start ∧ ∀ n ∈ names', P n

lemma Keeps.foldl {P : Text → Prop} {start : Path} (h : Keeps P start) {pieces : List Text}
    (hpieces : ∀ p ∈ pieces, '/' ∉ p) {names : List Text} (hnames : ∀ n ∈ names, P n) :
    ∃ names', pieces.foldl follow (names ++ start) = names' ++ start ∧ ∀ n ∈ names', P n := by
  induction pieces generalizing names with
  | nil => exact ⟨names, rfl, hnames⟩
  | cons p ps ih =>
    obtain ⟨hp, hps⟩ := List.forall_mem_cons.mp hpieces
    obtain ⟨names', hnext, hnames'⟩ := h names hnames p hp
    rw [List.foldl_cons, hnext]
    exact ih hps hnames'

lemma Keeps.ofText {P : Text → Prop} {s : Text} (h : Keeps P (base s)) :
    ∃ names, Path.ofText s = base s ++ names ∧ ∀ n ∈ names, P n := by
  have hpieces : ∀ p ∈ Text.pieces '/' s, '/' ∉ p := fun _ hp => Text.notMem_of_mem_pieces hp
  obtain ⟨names, hall, hnames⟩ := h.foldl hpieces (List.forall_mem_nil P)
  have hbase : (base s).reverse = base s := by
    obtain hs | hs | hs := base_cases s <;> rw [hs] <;> rfl
  refine ⟨names.reverse, ?_, by simpa using hnames⟩
  calc Path.ofText s = (names ++ base s).reverse := congrArg List.reverse hall
    _ = (base s).reverse ++ names.reverse := List.reverse_append
    _ = base s ++ names.reverse := by rw [hbase]

lemma keeps_plain (s : Text) : Keeps Plain (base s) := by
  intro names hnames name hname
  rw [follow.eq_def]
  split_ifs with h h'
  · exact ⟨names, rfl, hnames⟩
  · cases names with
    | nil =>
      cases hs : base s with
      | nil => exact ⟨[up], rfl, by simpa using plain_up⟩
      | cons r rest =>
        have hr : isRoot r = true := isRoot_of_mem_base (hs ▸ List.mem_cons_self)
        exact ⟨[], by simp [hr], by simp⟩
    | cons last rest =>
      have hlast : isRoot last = false := (hnames last (by simp)).not_isRoot
      simp only [List.cons_append, hlast, Bool.false_eq_true, if_false]
      split_ifs
      · exact ⟨up :: last :: rest, rfl, List.forall_mem_cons.mpr ⟨plain_up, hnames⟩⟩
      · exact ⟨rest, rfl, fun n hn => hnames n (List.mem_cons_of_mem _ hn)⟩
  · have hplain : Plain name := ⟨fun hnil => h (.inl (by simp [hnil])), hname⟩
    exact ⟨name :: names, rfl, List.forall_mem_cons.mpr ⟨hplain, hnames⟩⟩

/-- A path starts where its text starts, and goes on with plain names. -/
lemma exists_ofText (s : Text) : ∃ names, ofText s = base s ++ names ∧ ∀ n ∈ names, Plain n :=
  (keeps_plain s).ofText

lemma text_base_append (s : Text) {names : List Text} (hnames : ∀ n ∈ names, Plain n) :
    text (base s ++ names) = (base s).flatten ++ List.intercalate ['/'] names := by
  obtain hs | hs | hs := base_cases s <;> rw [hs]
  · cases names with
    | nil => rfl
    | cons n names => simp [text, (hnames n (by simp)).not_isRoot]
  · simp [text, isRoot]
  · simp [text, isRoot]

lemma head?_intercalate {names : List Text} (hnames : ∀ n ∈ names, Plain n) :
    (List.intercalate ['/'] names).head? ≠ some '/' := by
  cases names with
  | nil => simp
  | cons n rest =>
    obtain ⟨hne, hslash⟩ := hnames n (by simp)
    obtain ⟨c, cs, rfl⟩ := List.exists_cons_of_ne_nil hne
    have hc : c ≠ '/' := fun h => hslash (h ▸ List.mem_cons_self)
    cases rest <;> simpa [List.intercalate_cons_cons] using hc

/-- Between the slashes of what plain names are written as stand the names, and if there are none,
an empty text. -/
lemma filter_splitOn_intercalate {names : List Text} (hnames : ∀ n ∈ names, Plain n) :
    (List.splitOn '/' (List.intercalate ['/'] names)).filter (· ≠ []) = names := by
  cases names with
  | nil => rfl
  | cons n rest =>
    have hslash : ∀ m ∈ n :: rest, '/' ∉ m := fun m hm => (hnames m hm).slash_notMem
    rw [List.splitOn_intercalate '/' hslash (List.cons_ne_nil _ _)]
    exact List.filter_eq_self.mpr fun n hn => by simpa using (hnames n hn).ne_nil

lemma base_flatten_append (s : Text) {t : Text} (ht : t.head? ≠ some '/') :
    base ((base s).flatten ++ t) = base s := by
  obtain hs | hs | hs := base_cases s <;> rw [hs] <;> cases t <;>
    simp_all [base, root, otherRoot]

/-- **What a path is written as tells the path.** -/
theorem ofText_eq_of_text_eq {s s' : Text} (h : (ofText s).text = (ofText s').text) :
    ofText s = ofText s' := by
  obtain ⟨names, hs, hnames⟩ := exists_ofText s
  obtain ⟨names', hs', hnames'⟩ := exists_ofText s'
  rw [hs, hs', text_base_append s hnames, text_base_append s' hnames'] at h
  have hbase : base s = base s' := by
    rw [← base_flatten_append s (head?_intercalate hnames), h,
      base_flatten_append s' (head?_intercalate hnames')]
  rw [hbase] at h
  have hjoined := congrArg (fun t => (List.splitOn '/' t).filter (· ≠ []))
    (List.append_cancel_left h)
  simp only [filter_splitOn_intercalate hnames, filter_splitOn_intercalate hnames'] at hjoined
  rw [hs, hs', hbase, hjoined]

/-! ### Paths from the root -/

/-- A name that leads down, to one more directory or to a file. -/
structure Proper (name : Text) : Prop extends Plain name where
  ne_here : name ≠ ['.']
  ne_up : name ≠ up

/-- The path starts at the root, and every name on it leads down. -/
def Absolute (p : Path) : Prop :=
  ∃ top names, p = top :: names ∧ isRoot top = true ∧ ∀ n ∈ names, Proper n

/-- From the root, one more name leads to no name that leads up. -/
lemma keeps_proper {top : Text} (htop : isRoot top = true) : Keeps Proper [top] := by
  intro names hnames name hname
  rw [follow.eq_def]
  split_ifs with h h'
  · exact ⟨names, rfl, hnames⟩
  · cases names with
    | nil => exact ⟨[], by simp [htop], by simp⟩
    | cons last rest =>
      obtain ⟨hlast, hrest⟩ := List.forall_mem_cons.mp hnames
      exact ⟨rest, by simp [hlast.not_isRoot, hlast.ne_up], hrest⟩
  · obtain ⟨hfull, hhere⟩ := not_or.mp h
    have hproper : Proper name := ⟨⟨fun hnil => hfull (by simp [hnil]), hname⟩, hhere, h'⟩
    exact ⟨name :: names, rfl, List.forall_mem_cons.mpr ⟨hproper, hnames⟩⟩

lemma exists_base_of_head? {s : Text} (h : s.head? = some '/') :
    ∃ top, base s = [top] ∧ isRoot top = true := by
  cases s with
  | nil => cases h
  | cons c s =>
    obtain rfl := Option.some.inj h
    rw [base.eq_def]
    split
    · exact ⟨root, rfl, by decide⟩
    · exact ⟨otherRoot, rfl, by decide⟩
    · exact ⟨root, rfl, by decide⟩
    · next hslash => exact absurd rfl (hslash s)

lemma absolute_ofText {s : Text} (h : s.head? = some '/') : (ofText s).Absolute := by
  obtain ⟨top, hbase, htop⟩ := exists_base_of_head? h
  have hkeeps : Keeps Proper (base s) := hbase ▸ keeps_proper htop
  obtain ⟨names, hpath, hnames⟩ := hkeeps.ofText
  rw [hbase] at hpath
  exact ⟨top, names, hpath, htop, hnames⟩

lemma head?_join {directory : Text} (h : directory.head? = some '/') (name : Text) :
    (join directory name).head? = some '/' := by
  unfold join
  split_ifs with hname
  · exact hname
  · rw [List.head?_append, h, Option.some_or]
  · rw [List.head?_append, h, Option.some_or]

/-- **For those who work in a directory given from the root, every file has a path from there.** -/
theorem absolute_absolute {directory : Text} (h : directory.head? = some '/') (name : Text) :
    (absolute directory name).Absolute :=
  absolute_ofText (head?_join h name)

/-- Names of one file, each seen from the same directory. -/
example : absolute "/srv".toList "x/../a.log".toList = absolute "/srv".toList "a.log".toList ∧
    absolute "/srv".toList "//srv/a.log".toList ≠ absolute "/srv".toList "a.log".toList ∧
    absolute "/srv".toList "/srv/./a.log".toList = absolute "/srv".toList "a.log".toList := by
  decide

end Log.Path

end DockConsole
