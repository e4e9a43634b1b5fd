/-!
# Breakpoints

A finite set of addresses, kept in strictly ascending order.
-/

namespace Chip8

/-- A set of addresses. -/
structure Breakpoints where
  /-- The addresses. -/
  addresses : List Int
  /-- Each address is larger than the ones before it. -/
  ascending : addresses.Pairwise (· < ·)
  deriving DecidableEq

namespace Breakpoints

/-- No address. -/
def empty : Breakpoints :=
  ⟨[], .nil⟩

/-- Put an address into an ascending list, unless it is there. -/
def insert (address : Int) : List Int → List Int
  | [] => [address]
  | head :: tail =>
    if address < head then address :: head :: tail
    else if address = head then head :: tail
    else head :: insert address tail

theorem mem_insert (address target : Int) (addresses : List Int) :
    target ∈ insert address addresses ↔ target = address ∨ target ∈ addresses := by
  induction addresses with
  | nil => simp [insert]
  | cons head tail ih =>
    simp only [insert]
    split
    · simp
    · split
      · rename_i same
        simp [same]
      · simp only [List.mem_cons, ih]
        constructor
        · rintro (h | h | h) <;> simp [h]
        · rintro (h | h | h) <;> simp [h]

theorem insert_ascending (address : Int) (addresses : List Int)
    (ascending : addresses.Pairwise (· < ·)) : (insert address addresses).Pairwise (· < ·) := by
  induction addresses with
  | nil => simp [insert]
  | cons head tail ih =>
    have head_lt := (List.pairwise_cons.mp ascending).1
    have tail_ascending := (List.pairwise_cons.mp ascending).2
    simp only [insert]
    split
    · rename_i before
      refine List.pairwise_cons.mpr ⟨fun other member => ?_, ascending⟩
      rcases List.mem_cons.mp member with rfl | member
      · exact before
      · exact Int.lt_trans before (head_lt other member)
    · split
      · exact ascending
      · rename_i not_before not_same
        refine List.pairwise_cons.mpr ⟨fun other member => ?_, ih tail_ascending⟩
        rcases (mem_insert address other tail).mp member with rfl | member
        · omega
        · exact head_lt other member

/-- The set with an address. -/
def add (breakpoints : Breakpoints) (address : Int) : Breakpoints :=
  ⟨insert address breakpoints.addresses,
    insert_ascending address breakpoints.addresses breakpoints.ascending⟩

/-- The set without an address. -/
def remove (breakpoints : Breakpoints) (address : Int) : Breakpoints :=
  ⟨breakpoints.addresses.filter (· != address), breakpoints.ascending.filter _⟩

/-- Whether an address is in the set. -/
def contains (breakpoints : Breakpoints) (address : Int) : Bool :=
  breakpoints.addresses.contains address

@[simp]
theorem contains_empty (address : Int) : empty.contains address = false := rfl

@[simp]
theorem contains_add (breakpoints : Breakpoints) (added address : Int) :
    (breakpoints.add added).contains address = (address == added || breakpoints.contains address) := by
  rw [Bool.eq_iff_iff]
  simp [contains, add, mem_insert]

@[simp]
theorem contains_remove (breakpoints : Breakpoints) (removed address : Int) :
    (breakpoints.remove removed).contains address =
      (address != removed && breakpoints.contains address) := by
  rw [Bool.eq_iff_iff]
  simp [contains, remove, and_comm]

end Breakpoints
end Chip8
