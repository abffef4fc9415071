import DockConsole.Text

/-!
Names with values, in the order in which the names came.

A name that is put again keeps its place and takes the new value; a name that was erased and
is put again comes last.
-/

namespace DockConsole

structure NameMap (α : Type) where
  entries : List (Text × α) := []
deriving Repr

namespace NameMap

variable {α : Type}

def empty : NameMap α := {}

def putIn (name : Text) (value : α) : List (Text × α) → List (Text × α)
  | [] => [(name, value)]
  | e :: es => if e.1 = name then (name, value) :: es else e :: putIn name value es

def put (m : NameMap α) (name : Text) (value : α) : NameMap α := ⟨putIn name value m.entries⟩

def erase (m : NameMap α) (name : Text) : NameMap α := ⟨m.entries.filter (·.1 ≠ name)⟩

def get? (m : NameMap α) (name : Text) : Option α := m.entries.lookup name

def names (m : NameMap α) : List Text := m.entries.map (·.1)

def ofList (es : List (Text × α)) : NameMap α := es.foldl (fun m e => m.put e.1 e.2) empty

/-! ### What each operation does to a look-up and to the names -/

theorem get?_empty (name : Text) : (empty : NameMap α).get? name = none := rfl

theorem lookup_cons (e : Text × α) (es : List (Text × α)) (name : Text) :
    (e :: es).lookup name = if name = e.1 then some e.2 else es.lookup name := by
  rw [List.lookup_cons]
  by_cases h : name = e.1
  · simp [h]
  · rw [if_neg h, beq_false_of_ne h]

theorem lookup_putIn (name : Text) (value : α) (es : List (Text × α)) (other : Text) :
    (putIn name value es).lookup other = if other = name then some value else es.lookup other := by
  fun_induction putIn name value es with
  | case1 => rw [lookup_cons]
  | case2 e es h => rw [lookup_cons, lookup_cons, h]; split <;> rfl
  | case3 e es h ih =>
    rw [lookup_cons, lookup_cons, ih]
    by_cases h' : other = e.1
    · rw [if_pos h', if_neg (h' ▸ h), if_pos h']
    · rw [if_neg h', if_neg h']

theorem get?_put (m : NameMap α) (name : Text) (value : α) (other : Text) :
    (m.put name value).get? other = if other = name then some value else m.get? other :=
  lookup_putIn name value m.entries other

theorem lookup_filter_ne (name : Text) (es : List (Text × α)) (other : Text) :
    (es.filter (·.1 ≠ name)).lookup other = if other = name then none else es.lookup other := by
  induction es with
  | nil => simp
  | cons e es ih =>
    by_cases h : e.1 = name
    · rw [List.filter_cons_of_neg (by simpa using h), ih, lookup_cons, h]
      by_cases h' : other = name <;> simp [h']
    · rw [List.filter_cons_of_pos (by simpa using h), lookup_cons, lookup_cons, ih]
      by_cases h' : other = e.1
      · rw [if_pos h', if_neg (h' ▸ h), if_pos h']
      · rw [if_neg h', if_neg h']

theorem get?_erase (m : NameMap α) (name other : Text) :
    (m.erase name).get? other = if other = name then none else m.get? other :=
  lookup_filter_ne name m.entries other

theorem map_fst_putIn (name : Text) (value : α) (es : List (Text × α)) :
    (putIn name value es).map (·.1) =
      if name ∈ es.map (·.1) then es.map (·.1) else es.map (·.1) ++ [name] := by
  fun_induction putIn name value es with
  | case1 => simp
  | case2 e es h => simp [h]
  | case3 e es h ih =>
    have h' : ¬ name = e.1 := fun k => h k.symm
    simp only [List.map_cons, List.mem_cons, h', false_or, ih]
    split <;> rfl

theorem names_put (m : NameMap α) (name : Text) (value : α) :
    (m.put name value).names = if name ∈ m.names then m.names else m.names ++ [name] :=
  map_fst_putIn name value m.entries

theorem names_erase (m : NameMap α) (name : Text) :
    (m.erase name).names = m.names.filter (· ≠ name) := by
  simp only [names, erase, List.filter_map, Function.comp_def]

end NameMap

end DockConsole
