import Chip8.Fault

/-!
# Computations that can be refused

A computation made of several parts is refused with the fault of the first part that is, and
otherwise comes to what its last part makes of the values of the others.
-/

namespace Chip8

@[simp]
theorem ok_bind {Value Result : Type} (value : Value) (next : Value → Except Fault Result) :
    (Except.ok value >>= next) = next value := rfl

@[simp]
theorem error_bind {Value Result : Type} (fault : Fault) (next : Value → Except Fault Result) :
    (Except.error fault >>= next) = .error fault := rfl

/-- A computation in two parts succeeds when the first part does and the second does after it. -/
theorem bind_eq_ok {Value Result : Type} {first : Except Fault Value}
    {next : Value → Except Fault Result} {result : Result} :
    (first >>= next) = .ok result ↔ ∃ value, first = .ok value ∧ next value = .ok result := by
  cases first with
  | error fault => simp
  | ok value => simp

/-- Computations that come to the same through a view are refused alike or give values that look the
same. -/
theorem eq_or_eq_of_map_eq_map {Value View : Type} {view : Value → View}
    {left right : Except Fault Value} (same : left.map view = right.map view) :
    (∃ fault, left = .error fault ∧ right = .error fault) ∨
      ∃ value other, left = .ok value ∧ right = .ok other ∧ view value = view other := by
  cases left with
  | error fault =>
      cases right with
      | error other => exact .inl ⟨fault, rfl, (Except.error.inj same) ▸ rfl⟩
      | ok other => cases same
  | ok value =>
      cases right with
      | error other => cases same
      | ok other => exact .inr ⟨value, other, rfl, rfl, Except.ok.inj same⟩

end Chip8
