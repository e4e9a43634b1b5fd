import Chip8.Fault

/-!
# Dictionaries

Values under names, in the order in which the names were first given.  A value given to a name that
already has one takes its place.
-/

namespace Chip8

/-- Values under names. -/
structure Dictionary (Value : Type) where
  /-- Each name with its value, in the order in which the names were first given. -/
  entries : List (String × Value)
  deriving DecidableEq, Repr

namespace Dictionary

variable {Value : Type}

/-- No names. -/
def empty : Dictionary Value :=
  ⟨[]⟩

/-- Give a value to a name in a list of entries. -/
def assign (name : String) (value : Value) : List (String × Value) → List (String × Value)
  | [] => [(name, value)]
  | (head, other) :: rest =>
    if head = name then (head, value) :: rest else (head, other) :: assign name value rest

/-- Give a value to a name. -/
def set (dictionary : Dictionary Value) (name : String) (value : Value) : Dictionary Value :=
  ⟨assign name value dictionary.entries⟩

/-- The dictionary to which entries are given one after the other. -/
def ofEntries (entries : List (String × Value)) : Dictionary Value :=
  entries.foldl (fun dictionary entry => dictionary.set entry.1 entry.2) empty

/-- The value under a name, or the fault that there is none. -/
def get (dictionary : Dictionary Value) (name : String) : Except Fault Value :=
  match dictionary.entries.lookup name with
  | some value => .ok value
  | none => .error (.noSuchEntry name)

/-- The names in order. -/
def names (dictionary : Dictionary Value) : List String :=
  dictionary.entries.map Prod.fst

theorem lookup_assign (name other : String) (value : Value) (entries : List (String × Value)) :
    (assign name value entries).lookup other =
      if other = name then some value else entries.lookup other := by
  induction entries with
  | nil =>
      rw [assign, List.lookup_cons]
      split <;> simp_all
  | cons entry entries ih =>
      obtain ⟨head, old⟩ := entry
      by_cases first : head = name
      · subst first
        rw [assign, if_pos rfl, List.lookup_cons, List.lookup_cons]
        split <;> simp_all
      · rw [assign, if_neg first, List.lookup_cons, List.lookup_cons, ih]
        split <;> simp_all

theorem get_set (dictionary : Dictionary Value) (name other : String) (value : Value) :
    (dictionary.set name value).get other =
      if other = name then .ok value else dictionary.get other := by
  rw [get, set, lookup_assign]
  by_cases same : other = name
  · rw [if_pos same, if_pos same]
  · rw [if_neg same, if_neg same, get]

/-- A new name comes last. -/
theorem set_of_not_mem {dictionary : Dictionary Value} {name : String}
    (fresh : name ∉ dictionary.names) (value : Value) :
    dictionary.set name value = ⟨dictionary.entries ++ [(name, value)]⟩ := by
  obtain ⟨entries⟩ := dictionary
  simp only [set, mk.injEq]
  induction entries with
  | nil => rfl
  | cons entry entries ih =>
      obtain ⟨other, later⟩ := not_or.mp (mt List.mem_cons.mpr fresh)
      rw [assign, if_neg fun same => other same.symm, ih later, List.cons_append]

/-- No entry is lost if no name is given twice. -/
theorem entries_ofEntries {entries : List (String × Value)}
    (distinct : (entries.map Prod.fst).Nodup) : (ofEntries entries).entries = entries := by
  suffices onto : ∀ front : List (String × Value), ((front ++ entries).map Prod.fst).Nodup →
      (entries.foldl (fun dictionary entry => dictionary.set entry.1 entry.2)
        (⟨front⟩ : Dictionary Value)).entries = front ++ entries from onto [] distinct
  clear distinct
  induction entries with
  | nil => exact fun front _ => (List.append_nil front).symm
  | cons entry entries ih =>
      intro front distinct
      have fresh : entry.1 ∉ front.map Prod.fst := by
        rw [List.map_append, List.nodup_append] at distinct
        exact fun member => distinct.2.2 _ member _ List.mem_cons_self rfl
      have regrouped : front ++ entry :: entries = front ++ [entry] ++ entries := by simp
      rw [List.foldl_cons, set_of_not_mem fresh, regrouped]
      exact ih (front ++ [entry]) (regrouped ▸ distinct)

end Dictionary
end Chip8
