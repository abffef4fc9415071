import DockConsole.NameMap
import Mathlib.Data.List.Induction
import Mathlib.Data.List.Nodup
import Mathlib.Data.Nat.Find

/-!
What a map of names holds, told by all that was done to it.

Of the values that a name was given since it was last erased, the last one counts, and the first one
gives the name its place: names stand in the order in which they came in, and a value that replaces
another moves none of them. The program keeps what shows each source in such a map, so these are
also the rules for which table a key reaches.
-/

namespace DockConsole.NameMap

variable {α : Type}

/-- What is done to a map: a name gets a value, or it goes. -/
inductive Change (α : Type) where
  | put (name : Text) (value : α)
  | erase (name : Text)
deriving DecidableEq, Repr

def Change.name : Change α → Text
  | .put name _ | .erase name => name

def act (m : NameMap α) : Change α → NameMap α
  | .put name value => m.put name value
  | .erase name => m.erase name

/-- The map after changes, from an empty one. -/
def afterAll (changes : List (Change α)) : NameMap α := changes.foldl act empty

/-- The change at `k` gives the name the value, and the name was not erased since. -/
structure PutSince (changes : List (Change α)) (name : Text) (k : ℕ) (value : α) : Prop where
  put : changes[k]? = some (.put name value)
  kept : ∀ j, k < j → changes[j]? ≠ some (.erase name)

/-- The value is the last that the name was given since it was last erased. -/
def LastPut (changes : List (Change α)) (name : Text) (value : α) : Prop :=
  ∃ k, PutSince changes name k value ∧ ∀ j d, k < j → ¬ PutSince changes name j d

/-- The change at `k` is the first that gave the name a value since it was last erased. -/
def FirstPut (changes : List (Change α)) (name : Text) (k : ℕ) : Prop :=
  (∃ value, PutSince changes name k value) ∧ ∀ j d, j < k → ¬ PutSince changes name j d

/-! ### One change -/

section Act

variable {m : NameMap α} {name other : Text} {value : α}

lemma mem_names_iff : name ∈ m.names ↔ ∃ value, m.get? name = some value := by
  rw [← Option.isSome_iff_exists, get?, List.lookup_isSome_iff, names, List.mem_map]
  exact exists_congr fun e => and_congr_right fun _ => by rw [beq_iff_eq, eq_comm]

lemma mem_names_put : name ∈ (m.put other value).names ↔ name ∈ m.names ∨ name = other := by
  rw [names_put]
  split
  · next h => exact ⟨.inl, fun hname => hname.elim id fun heq => heq ▸ h⟩
  · rw [List.mem_append, List.mem_singleton]

lemma mem_names_erase : name ∈ (m.erase other).names ↔ name ∈ m.names ∧ name ≠ other := by
  rw [names_erase, List.mem_filter, decide_eq_true_iff]

lemma names_put_of_mem (h : name ∈ m.names) : (m.put name value).names = m.names := by
  rw [names_put, if_pos h]

lemma erase_of_notMem (h : name ∉ m.names) : m.erase name = m := by
  have hall : ∀ e ∈ m.entries, e.1 ≠ name := fun e he heq => h (List.mem_map.mpr ⟨e, he, heq⟩)
  rw [erase, List.filter_eq_self.mpr fun e he => decide_eq_true (hall e he)]

lemma nodup_act (h : m.names.Nodup) (c : Change α) : (m.act c).names.Nodup := by
  cases c with
  | put name value =>
    rw [act, names_put]
    split
    · exact h
    · next hname =>
      rw [← List.concat_eq_append]
      exact h.concat hname
  | erase name =>
    rw [act, names_erase]
    exact h.filter _

end Act

/-! ### One change more -/

section Concat

variable {changes : List (Change α)} {c : Change α} {name : Text} {k : ℕ} {value : α}

lemma afterAll_concat (changes : List (Change α)) (c : Change α) :
    afterAll (changes ++ [c]) = (afterAll changes).act c := by
  rw [afterAll, List.foldl_append]
  rfl

lemma PutSince.lt (h : PutSince changes name k value) : k < changes.length :=
  (List.getElem?_eq_some_iff.mp h.put).1

lemma getElem?_concat_eq_some {d : Change α} :
    (changes ++ [c])[k]? = some d ↔ changes[k]? = some d ∨ k = changes.length ∧ c = d := by
  rcases Nat.lt_trichotomy k changes.length with hlt | rfl | hgt
  · rw [List.getElem?_append_left hlt]
    exact (or_iff_left fun h => Nat.ne_of_lt hlt h.1).symm
  · simp
  · have hout : (changes ++ [c]).length ≤ k := by
      rw [List.length_append, List.length_singleton]
      omega
    rw [List.getElem?_eq_none hout, List.getElem?_eq_none (Nat.le_of_lt hgt)]
    simp [Nat.ne_of_gt hgt]

lemma putSince_concat : PutSince (changes ++ [c]) name k value ↔
    PutSince changes name k value ∧ c ≠ .erase name ∨ k = changes.length ∧ c = .put name value := by
  constructor
  · rintro ⟨hput, hkept⟩
    rcases getElem?_concat_eq_some.mp hput with hput | hlast
    · have hlt := (List.getElem?_eq_some_iff.mp hput).1
      refine .inl ⟨⟨hput, fun j hj herase => ?_⟩, fun hc => ?_⟩
      · exact hkept j hj (getElem?_concat_eq_some.mpr (.inl herase))
      · exact hkept changes.length hlt (getElem?_concat_eq_some.mpr (.inr ⟨rfl, hc⟩))
    · exact .inr hlast
  · rintro (⟨⟨hput, hkept⟩, hc⟩ | ⟨rfl, hc⟩)
    · refine ⟨getElem?_concat_eq_some.mpr (.inl hput), fun j hj herase => ?_⟩
      rcases getElem?_concat_eq_some.mp herase with herase | ⟨-, herase⟩
      · exact hkept j hj herase
      · exact hc herase
    · refine ⟨getElem?_concat_eq_some.mpr (.inr ⟨rfl, hc⟩), fun j hj => ?_⟩
      rw [List.getElem?_eq_none (by rw [List.length_append, List.length_singleton]; omega)]
      rintro ⟨⟩

/-- The last value is the one given just now, or still the same if the change is of another name. -/
lemma lastPut_concat : LastPut (changes ++ [c]) name value ↔
    c = .put name value ∨ c.name ≠ name ∧ LastPut changes name value := by
  constructor
  · rintro ⟨k, hput, hlast⟩
    rcases putSince_concat.mp hput with ⟨hk, hc⟩ | ⟨-, hc⟩
    · refine .inr ⟨fun hname => ?_, k, hk, fun j d hj hd => ?_⟩
      · cases c with
        | put other d =>
          obtain rfl : other = name := hname
          exact hlast changes.length d hk.lt (putSince_concat.mpr (.inr ⟨rfl, rfl⟩))
        | erase other =>
          obtain rfl : other = name := hname
          exact hc rfl
      · exact hlast j d hj (putSince_concat.mpr (.inl ⟨hd, hc⟩))
    · exact .inl hc
  · rintro (rfl | ⟨hname, k, hk, hlast⟩)
    · refine ⟨changes.length, putSince_concat.mpr (.inr ⟨rfl, rfl⟩), fun j d hj hd => ?_⟩
      have hlt := hd.lt
      rw [List.length_append, List.length_singleton] at hlt
      omega
    · refine ⟨k, putSince_concat.mpr (.inl ⟨hk, ?_⟩), fun j d hj hd => ?_⟩
      · rintro rfl
        exact hname rfl
      · rcases putSince_concat.mp hd with ⟨hd, -⟩ | ⟨-, rfl⟩
        · exact hlast j d hj hd
        · exact hname rfl

/-- A first value was there before the change, or it is given by the change to a name without one. -/
lemma firstPut_of_concat (h : FirstPut (changes ++ [c]) name k) :
    FirstPut changes name k ∨ k = changes.length ∧ ∀ j d, ¬ PutSince changes name j d := by
  obtain ⟨⟨value, hk⟩, hfirst⟩ := h
  rcases putSince_concat.mp hk with ⟨hk, hc⟩ | ⟨rfl, rfl⟩
  · refine .inl ⟨⟨value, hk⟩, fun j d hj hd => ?_⟩
    exact hfirst j d hj (putSince_concat.mpr (.inl ⟨hd, hc⟩))
  · refine .inr ⟨rfl, fun j d hd => ?_⟩
    exact hfirst j d hd.lt (putSince_concat.mpr (.inl ⟨hd, by rintro ⟨⟩⟩))

end Concat

/-! ### All changes -/

section AfterAll

variable {changes : List (Change α)} {c : Change α} {name : Text} {k : ℕ} {value : α}

lemma get?_afterAll : (afterAll changes).get? name = some value ↔ LastPut changes name value := by
  induction changes using List.reverseRecOn with
  | nil =>
    constructor
    · rintro ⟨⟩
    · rintro ⟨k, hk, -⟩
      exact absurd hk.lt (Nat.not_lt_zero k)
  | append_singleton changes c ih =>
    rw [afterAll_concat, lastPut_concat]
    cases c with
    | put other d =>
      rw [act, get?_put, Change.name, ← ih]
      by_cases hname : name = other
      · simp [hname]
      · simp [hname, Ne.symm hname]
    | erase other =>
      rw [act, get?_erase, Change.name, ← ih]
      by_cases hname : name = other
      · simp [hname]
      · simp [hname, Ne.symm hname]

lemma mem_names_afterAll :
    name ∈ (afterAll changes).names ↔ ∃ k value, PutSince changes name k value := by
  induction changes using List.reverseRecOn with
  | nil =>
    constructor
    · rintro ⟨⟩
    · rintro ⟨k, value, hk⟩
      exact absurd hk.lt (Nat.not_lt_zero k)
  | append_singleton changes c ih =>
    rw [afterAll_concat]
    simp only [putSince_concat, exists_or, exists_and_right, exists_and_left, ← ih]
    cases c with
    | put other d => simp [act, mem_names_put, eq_comm]
    | erase other => simp [act, mem_names_erase, eq_comm]

lemma nodup_afterAll (changes : List (Change α)) : (afterAll changes).names.Nodup := by
  induction changes using List.reverseRecOn with
  | nil => exact .nil
  | append_singleton changes c ih =>
    rw [afterAll_concat]
    exact nodup_act ih c

/-- A name that is there came in before the change. -/
lemma firstPut_of_mem (hname : name ∈ (afterAll changes).names)
    (h : FirstPut (changes ++ [c]) name k) : FirstPut changes name k := by
  obtain ⟨j, d, hd⟩ := mem_names_afterAll.mp hname
  rcases firstPut_of_concat h with hk | ⟨-, hnone⟩
  · exact hk
  · exact absurd hd (hnone j d)

/-- A name that is not there comes in by the change, behind all others. -/
lemma eq_length_of_notMem (hname : name ∉ (afterAll changes).names)
    (h : FirstPut (changes ++ [c]) name k) : k = changes.length := by
  rcases firstPut_of_concat h with ⟨⟨value, hk⟩, -⟩ | ⟨hlength, -⟩
  · exact absurd (mem_names_afterAll.mpr ⟨k, value, hk⟩) hname
  · exact hlength

/-- Names stand in the order in which they came in. -/
lemma pairwise_afterAll (changes : List (Change α)) :
    (afterAll changes).names.Pairwise fun a b =>
      ∀ i j, FirstPut changes a i → FirstPut changes b j → i < j := by
  induction changes using List.reverseRecOn with
  | nil => exact .nil
  | append_singleton changes c ih =>
    have hold : (afterAll changes).names.Pairwise fun a b =>
        ∀ i j, FirstPut (changes ++ [c]) a i → FirstPut (changes ++ [c]) b j → i < j :=
      -- names that are there came in before the change, whatever it is
      ih.imp_of_mem fun ha hb h i j hi hj =>
        h i j (firstPut_of_mem ha hi) (firstPut_of_mem hb hj)
    rw [afterAll_concat]
    cases c with
    | put name value =>
      rw [act, names_put]
      split
      · exact hold
      · next hname =>
        refine List.pairwise_append.mpr ⟨hold, List.pairwise_singleton _ _, fun a ha b hb => ?_⟩
        obtain rfl := List.mem_singleton.mp hb
        intro i j hi hj
        obtain ⟨⟨d, hd⟩, -⟩ := firstPut_of_mem ha hi
        rw [eq_length_of_notMem hname hj]
        exact hd.lt
    | erase name =>
      rw [act, names_erase]
      exact hold.filter _

lemma exists_firstPut (h : name ∈ (afterAll changes).names) : ∃ k, FirstPut changes name k := by
  classical
  have hput : ∃ k, ∃ value, PutSince changes name k value := mem_names_afterAll.mp h
  exact ⟨Nat.find hput, Nat.find_spec hput, fun j d hj hd => Nat.find_min hput hj ⟨d, hd⟩⟩

lemma FirstPut.unique {i : ℕ} (h : FirstPut changes name k) (h' : FirstPut changes name i) :
    i = k := by
  obtain ⟨⟨v, hk⟩, hfirst⟩ := h
  obtain ⟨⟨d, hi⟩, hfirst'⟩ := h'
  rcases Nat.lt_trichotomy i k with hlt | heq | hgt
  · exact absurd hi (hfirst i d hlt)
  · exact heq
  · exact absurd hk (hfirst' k v hgt)

end AfterAll

/-- **A map of names is told by its history**: a name has the value that it was given last, if it
was not erased since, and else none. The names are those that have a value, each once, in the order
in which they came in, that is by the first value since the name was last erased. So a value for a
name that is there leaves it in its place, and erasing a name that is not there changes nothing. -/
theorem read_off_history (changes : List (Change α)) :
    let m := afterAll changes
    (∀ name value, m.get? name = some value ↔ LastPut changes name value) ∧
      m.names.Nodup ∧
      (∀ name, name ∈ m.names ↔ ∃ value, LastPut changes name value) ∧
      (∀ name ∈ m.names, ∃! k, FirstPut changes name k) ∧
      (m.names.Pairwise fun a b => ∀ i j, FirstPut changes a i → FirstPut changes b j → i < j) ∧
      (∀ name ∈ m.names, ∀ value, (m.put name value).names = m.names) ∧
      ∀ name, name ∉ m.names → m.erase name = m := by
  intro m
  refine ⟨fun name value => get?_afterAll, nodup_afterAll changes, fun name => ?_,
    fun name hname => ?_, pairwise_afterAll changes, fun name hname value => names_put_of_mem hname,
    fun name => erase_of_notMem⟩
  · rw [mem_names_iff]
    exact exists_congr fun value => get?_afterAll
  · obtain ⟨k, hk⟩ := exists_firstPut hname
    exact ⟨k, hk, fun i hi => hk.unique hi⟩

/-- Of three names one gets another value, one goes and comes back behind the others, and one that
never came is erased. -/
theorem read_off_history_replaced :
    let changes : List (Change ℕ) := [.put ['z'] 0, .put ['y'] 1, .put ['x'] 2, .put ['z'] 3,
      .erase ['y'], .erase ['w'], .put ['y'] 4]
    let m := afterAll changes
    m.names = [['z'], ['x'], ['y']] ∧ LastPut changes ['z'] 3 ∧ LastPut changes ['y'] 4 ∧
      (['z'] ∈ m.names ∧ ∃! k, FirstPut changes ['z'] k) ∧
      (∀ i j, FirstPut changes ['x'] i → FirstPut changes ['y'] j → i < j) ∧
      (['x'] ∈ m.names ∧ (m.put ['x'] 5).names = m.names) ∧
      (['w'] ∉ m.names ∧ m.erase ['w'] = m) := by
  intro changes m
  obtain ⟨hget, -, -, hfirst, horder, hput, herase⟩ := read_off_history changes
  have hnames : m.names = [['z'], ['x'], ['y']] := by decide
  have hz : ['z'] ∈ m.names := by decide
  have hx : ['x'] ∈ m.names := by decide
  have hw : ['w'] ∉ m.names := by decide
  rw [show (afterAll changes).names = m.names from rfl, hnames] at horder
  obtain ⟨-, hrest⟩ := List.pairwise_cons.mp horder
  exact ⟨hnames, (hget _ _).mp (by decide), (hget _ _).mp (by decide), ⟨hz, hfirst _ hz⟩,
    (List.pairwise_cons.mp hrest).1 _ (List.mem_singleton_self _), ⟨hx, hput _ hx 5⟩, hw,
    herase _ hw⟩

end DockConsole.NameMap
