import Chip8.Table

/-!
# The entry that a table chooses

A table looks an opcode up in the bucket of its class.  The bucket leaves out only entries that could
not agree with the opcode, and it is sorted so that the first entry that agrees is one of the most
specific.  The sort is stable, so among the most specific it is the one that was declared first.  The
choice is therefore the one that a look at all entries of the table would make.
-/

namespace Chip8

namespace Table

variable {Action : Type} {table : Table Action} {opcode : Opcode} {nibble : Int}
  {chosen entry : Entry Action} {entries : List (Entry Action)}

/-! ## Sorting by specificity -/

/-- No entry stands before one that is more specific. -/
def Sorted (entries : List (Entry Action)) : Prop :=
  entries.Pairwise fun left right => right.pattern.specificity ≤ left.pattern.specificity

theorem mem_insert {other : Entry Action} :
    other ∈ insert entry entries ↔ other = entry ∨ other ∈ entries := by
  induction entries with
  | nil => simp [insert]
  | cons head tail ih =>
      rw [insert]
      split
      · simp
      · rw [List.mem_cons, ih, List.mem_cons]
        exact or_left_comm

theorem mem_sort : entry ∈ sort entries ↔ entry ∈ entries := by
  induction entries with
  | nil => simp [sort]
  | cons head tail ih =>
      change entry ∈ insert head (sort tail) ↔ _
      rw [mem_insert, ih, List.mem_cons]

theorem Sorted.insert (sorted : Sorted entries) : Sorted (insert entry entries) := by
  induction entries with
  | nil => exact List.pairwise_singleton _ entry
  | cons head tail ih =>
      obtain ⟨below_head, tail_sorted⟩ := List.pairwise_cons.mp sorted
      rw [Table.insert]
      split
      · rename_i head_below
        refine List.pairwise_cons.mpr ⟨fun other member => ?_, sorted⟩
        rcases List.mem_cons.mp member with rfl | later
        · exact head_below
        · exact Nat.le_trans (below_head other later) head_below
      · rename_i head_above
        refine List.pairwise_cons.mpr ⟨fun other member => ?_, ih tail_sorted⟩
        rcases mem_insert.mp member with rfl | later
        · omega
        · exact below_head other later

theorem sorted_sort (entries : List (Entry Action)) : Sorted (sort entries) := by
  induction entries with
  | nil => exact .nil
  | cons head tail ih => exact ih.insert

/-- An entry is put before those of its specificity and does not disturb the order of any others. -/
theorem filter_insert (value : Nat) :
    (insert entry entries).filter (·.pattern.specificity == value) =
      (entry :: entries).filter (·.pattern.specificity == value) := by
  induction entries with
  | nil => rfl
  | cons head tail ih =>
      rw [insert]
      split
      · rfl
      · rename_i head_above
        rw [List.filter_cons, ih]
        by_cases at_head : head.pattern.specificity = value
        · have apart : entry.pattern.specificity ≠ value := by omega
          simp [at_head, apart]
        · simp [List.filter_cons, at_head]

/-- Sorting keeps the order of equally specific entries. -/
theorem filter_sort (entries : List (Entry Action)) (value : Nat) :
    (sort entries).filter (·.pattern.specificity == value) =
      entries.filter (·.pattern.specificity == value) := by
  induction entries with
  | nil => rfl
  | cons head tail ih =>
      change (insert head (sort tail)).filter _ = _
      rw [filter_insert, List.filter_cons, ih, List.filter_cons]

/-! ## Buckets -/

/-- The pattern of an entry that agrees with an opcode has its class nibble or leaves it out. -/
theorem in_class_of_agrees (first : opcode.first = some nibble)
    (agrees : entry.pattern.agrees opcode = true) :
    entry.pattern.first.all (· == nibble) = true := by
  simp only [Opcode.agrees, first, Bool.and_eq_true] at agrees
  cases own : entry.pattern.first with
  | none => rfl
  | some own_nibble =>
      rw [own] at agrees
      exact agrees.1.1.1

/-- An entry that agrees with an opcode is in the bucket of its class. -/
theorem mem_bucket_of_agrees (first : opcode.first = some nibble)
    (member : entry ∈ table.entries) (agrees : entry.pattern.agrees opcode = true) :
    entry ∈ table.bucket nibble := by
  rw [bucket, mem_sort]
  exact List.mem_filter.mpr ⟨member, in_class_of_agrees first agrees⟩

theorem mem_entries_of_mem_bucket (member : entry ∈ table.bucket nibble) :
    entry ∈ table.entries := by
  rw [bucket, mem_sort] at member
  exact (List.mem_filter.mp member).1

theorem mem_of_select (found : table.select opcode = some entry) :
    entry ∈ table.entries ∧ entry.pattern.agrees opcode = true := by
  unfold select at found
  split at found
  · exact ⟨List.mem_of_find?_eq_some found, by simpa using List.find?_some found⟩
  · have member := mem_entries_of_mem_bucket (List.mem_of_find?_eq_some found)
    exact ⟨member, by simpa using List.find?_some found⟩

/-- No entry is chosen only when none agrees. -/
theorem agrees_of_select_eq_none (unknown : table.select opcode = none) :
    ∀ entry ∈ table.entries, entry.pattern.agrees opcode = false := by
  intro entry member
  unfold select at unknown
  split at unknown
  · simpa using List.find?_eq_none.mp unknown entry member
  · rename_i nibble first
    cases agrees : entry.pattern.agrees opcode with
    | false => rfl
    | true =>
        have listed := mem_bucket_of_agrees first member agrees
        exact absurd agrees (List.find?_eq_none.mp unknown entry listed)

/-- No entry that agrees is more specific than the chosen one. -/
theorem specificity_le_of_select (first : opcode.first = some nibble)
    (selected : table.select opcode = some chosen) (member : entry ∈ table.entries)
    (agrees : entry.pattern.agrees opcode = true) :
    entry.pattern.specificity ≤ chosen.pattern.specificity := by
  have listed := mem_bucket_of_agrees first member agrees
  have sorted : Sorted (table.bucket nibble) := sorted_sort _
  simp only [select, first] at selected
  obtain ⟨-, before, after, split, earlier⟩ := List.find?_eq_some_iff_append.mp selected
  rw [split] at listed sorted
  rcases List.mem_append.mp listed with before_chosen | from_chosen
  · simpa [agrees] using earlier entry before_chosen
  · rcases List.mem_cons.mp from_chosen with rfl | after_chosen
    · exact Nat.le_refl _
    · exact (List.pairwise_cons.mp (List.pairwise_append.mp sorted).2.1).1 entry after_chosen

/-- The chosen entry is the first of its specificity that agrees. -/
theorem find?_of_select (first : opcode.first = some nibble)
    (selected : table.select opcode = some chosen) :
    (table.entries.find? fun entry =>
      entry.pattern.specificity == chosen.pattern.specificity && entry.pattern.agrees opcode) =
        some chosen := by
  let equal (entry : Entry Action) : Bool :=
    entry.pattern.specificity == chosen.pattern.specificity
  have stable : (table.bucket nibble).filter equal =
      (table.entries.filter fun entry => entry.pattern.first.all (· == nibble)).filter equal :=
    filter_sort _ _
  have in_bucket : ((table.bucket nibble).filter equal).find? (·.pattern.agrees opcode) =
      some chosen := by
    simp only [select, first] at selected
    obtain ⟨agrees, before, after, split, earlier⟩ := List.find?_eq_some_iff_append.mp selected
    rw [List.find?_filter]
    refine List.find?_eq_some_iff_append.mpr ⟨by simp [equal, agrees], before, after, split, ?_⟩
    intro entry before_chosen
    have disagrees := earlier entry before_chosen
    simp only [Bool.not_eq_true'] at disagrees
    simp [disagrees]
  rw [stable, List.find?_filter, List.find?_filter] at in_bucket
  rw [← in_bucket]
  congr 1
  funext entry
  rw [Bool.eq_iff_iff]
  cases agrees : entry.pattern.agrees opcode with
  | false => simp
  | true => simp [in_class_of_agrees first agrees, equal]

/-! ## The winner among the entries that agree -/

/-- An entry wins under a rank: it agrees with an opcode, and none that agrees ranks higher or, with
the same rank, is declared earlier. -/
structure Wins (table : Table Action) (opcode : Opcode) (rank : Entry Action → Nat) (position : Nat)
    (entry : Entry Action) : Prop where
  /-- The entry is declared at a position of the table. -/
  declared : table.entries[position]? = some entry
  agrees : entry.pattern.agrees opcode = true
  best : ∀ place other, table.entries[place]? = some other → other.pattern.agrees opcode = true →
    rank other < rank entry ∨ rank other = rank entry ∧ position ≤ place

/-- There is no second winner. -/
theorem Wins.unique {rank : Entry Action → Nat} {position place : Nat} {other : Entry Action}
    (wins : table.Wins opcode rank position entry) (also : table.Wins opcode rank place other) :
    entry = other := by
  have behind := wins.best place other also.declared also.agrees
  have before := also.best position entry wins.declared wins.agrees
  have same_place : position = place := by omega
  subst same_place
  exact Option.some.inj (wins.declared.symm.trans also.declared)

/-- The first entry of a level that agrees wins when every other entry that agrees ranks lower. -/
theorem exists_wins_of_find? {rank : Entry Action → Nat} (level : Entry Action → Bool)
    (found : (table.entries.find? fun entry => level entry && entry.pattern.agrees opcode) =
      some chosen)
    (highest : ∀ entry ∈ table.entries, entry.pattern.agrees opcode = true →
      rank entry < rank chosen ∨ rank entry = rank chosen ∧ level entry = true) :
    ∃ position, table.Wins opcode rank position chosen := by
  obtain ⟨holds, position, inside, declared, earlier⟩ := List.find?_eq_some_iff_getElem.mp found
  simp only [Bool.and_eq_true] at holds
  refine ⟨position, ?_, holds.2, ?_⟩
  · rw [List.getElem?_eq_getElem inside, declared]
  · intro place other listed agrees
    rcases highest other (List.mem_of_getElem? listed) agrees with lower | ⟨same, on_level⟩
    · exact .inl lower
    · refine .inr ⟨same, Nat.le_of_not_lt fun sooner => ?_⟩
      obtain ⟨_, there⟩ := List.getElem?_eq_some_iff.mp listed
      have skipped := earlier place sooner
      rw [there, on_level, agrees] at skipped
      cases skipped

/-- How an opcode ranks the entries that agree with it: by specificity if it has a class nibble, and
all alike if it has none. -/
def rankFor (opcode : Opcode) (entry : Entry Action) : Nat :=
  if opcode.first.isSome then entry.pattern.specificity else 0

theorem exists_wins_of_select (selected : table.select opcode = some chosen) :
    ∃ position, table.Wins opcode (rankFor opcode) position chosen := by
  cases first : opcode.first with
  | none =>
      simp only [select, first] at selected
      refine exists_wins_of_find? (fun _ => true) (by simpa using selected) ?_
      intro entry member agrees
      exact .inr ⟨by simp [rankFor, first], rfl⟩
  | some nibble =>
      refine exists_wins_of_find? _ (find?_of_select first selected) ?_
      intro entry member agrees
      have most := specificity_le_of_select first selected member agrees
      simp only [rankFor, first, Option.isSome_some, if_true, beq_iff_eq]
      omega

theorem select_eq_some_iff :
    table.select opcode = some entry ↔
      ∃ position, table.Wins opcode (rankFor opcode) position entry := by
  constructor
  · exact exists_wins_of_select
  · rintro ⟨position, wins⟩
    cases selected : table.select opcode with
    | none =>
        have disagrees := agrees_of_select_eq_none selected entry
          (List.mem_of_getElem? wins.declared)
        rw [wins.agrees] at disagrees
        cases disagrees
    | some chosen =>
        obtain ⟨place, also⟩ := exists_wins_of_select selected
        rw [also.unique wins]

theorem select_eq_none_iff :
    table.select opcode = none ↔ ∀ entry ∈ table.entries, entry.pattern.agrees opcode = false := by
  refine ⟨agrees_of_select_eq_none, fun disagree => ?_⟩
  cases selected : table.select opcode with
  | none => rfl
  | some entry =>
      obtain ⟨member, agrees⟩ := mem_of_select selected
      rw [disagree entry member] at agrees
      cases agrees

/-- An opcode of one of the sixteen classes, or of none, is given the chosen entry. -/
theorem find_eq_select
    (classed : ∀ nibble, opcode.first = some nibble → 0 ≤ nibble ∧ nibble < 16) :
    table.find opcode = .ok (table.select opcode) := by
  unfold find
  split
  · rfl
  · rename_i nibble first
    rw [if_pos (classed nibble first)]

/-- Whatever the table, an opcode whose class nibble is absent or one of the sixteen is given the
entry that wins among those that agree with it: the first declared of the most specific ones, or the
first declared of all if the opcode has no class nibble.  It is given none, and looking it up is
refused as an invalid opcode, exactly when no entry agrees. -/
theorem most_specific_entry_wins (table : Table Action) (opcode : Opcode)
    (classed : ∀ nibble, opcode.first = some nibble → 0 ≤ nibble ∧ nibble < 16) :
    ∃ found, table.find opcode = .ok found ∧
      (∀ entry, found = some entry ↔
        ∃ position, table.Wins opcode (rankFor opcode) position entry) ∧
      (found = none ↔ ∀ entry ∈ table.entries, entry.pattern.agrees opcode = false) ∧
      table.lookup opcode =
        match found with
        | some entry => .ok entry
        | none => .error (.invalidOpcode opcode.word) := by
  have looked_up := table.find_eq_select classed
  refine ⟨table.select opcode, looked_up, fun entry => select_eq_some_iff, select_eq_none_iff, ?_⟩
  rw [lookup, looked_up]
  cases table.select opcode <;> rfl

/-- A pattern without a class nibble takes part in every class: there it gives way to more specific
ones and precedes equally specific ones that are declared later. -/
theorem most_specific_entry_wins_over_wildcards :
    let entry (name : String) (nibbles : List (Option Int)) : Entry Unit :=
      ⟨name, .ofNibbles nibbles, .ofText name, ()⟩
    let wildcard := entry "C" [none, some 2, some 3]
    let table : Table Unit :=
      ⟨[entry "A" [none, some 2], entry "B" [some 1], wildcard, entry "D" [some 1, some 2],
        entry "E" [some 5, some 2, some 3]]⟩
    let opcode : Opcode := .ofNibbles [some 1, some 2, some 3, some 4]
    (∀ nibble, opcode.first = some nibble → 0 ≤ nibble ∧ nibble < 16) ∧
      table.Wins opcode (rankFor opcode) 2 wildcard ∧ table.find opcode = .ok (some wildcard) ∧
      table.lookup opcode = .ok wildcard := by
  intro entry wildcard table opcode
  have classed : ∀ nibble, opcode.first = some nibble → 0 ≤ nibble ∧ nibble < 16 := by
    rintro nibble ⟨⟩
    decide
  have wins : table.Wins opcode (rankFor opcode) 2 wildcard := by
    refine ⟨rfl, by decide, fun place other listed agrees => ?_⟩
    match place with
    | 0 | 1 =>
        cases listed
        exact .inl (by decide)
    | 2 | 3 =>
        cases listed
        exact .inr (by decide)
    | 4 =>
        cases listed
        cases agrees
    | place + 5 => cases listed
  obtain ⟨found, looked_up, winner, -, result⟩ := most_specific_entry_wins table opcode classed
  have same : found = some wildcard := (winner wildcard).mpr ⟨2, wins⟩
  subst same
  exact ⟨classed, wins, looked_up, result⟩

end Table
end Chip8
