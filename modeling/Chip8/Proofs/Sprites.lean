import Mathlib.Order.Fin.Basic
import Chip8.Proofs.Encoding
import Chip8.Threefry

/-!
# Sprites, pixel by pixel

A sprite is drawn in one stroke, by combining the screen with the mask of the sprite.  Toggling its
lit bits one after another gives the same display and the same collision as long as no toggle meets
the work of an earlier one.  A sprite is narrower than the screen and, with at most 32 rows, not
taller either, so its bits land on distinct pixels wherever it is placed.
-/

namespace Chip8
namespace Display

/-! ## Toggling points -/

/-- The column and row that a point lands on. -/
def landing (point : Int × Int) : Fin 64 × Fin 32 :=
  (column point.1, row point.2)

/-- Toggle one more point; the flag remembers the collisions so far. -/
def toggleNext (drawn : Display × Bool) (point : Int × Int) : Display × Bool :=
  let (display, lit) := drawn.1.toggle point.1 point.2
  (display, drawn.2 || lit)

/-- Toggle points one after another and tell whether one of the toggles was a collision. -/
def toggleAll (display : Display) (points : List (Int × Int)) : Display × Bool :=
  points.foldl toggleNext (display, false)

/-- The display that is lit exactly where some of the points land. -/
def ofPoints (points : List (Int × Int)) : Display :=
  ofFn fun column row => decide ((column, row) ∈ points.map landing)

theorem pixel_toggle (display : Display) (x y : Int) (c : Fin 64) (r : Fin 32) :
    (display.toggle x y).1.pixel c r =
      (display.pixel c r ^^ decide ((c, r) = landing (x, y))) := by
  by_cases same_row : r = row y
  · subst same_row
    by_cases same_column : c = column x
    · subst same_column
      simp [toggle, pixel, landing]
    · have other : (column x).val ≠ c.val := fun same => same_column (Fin.ext same.symm)
      simp [toggle, pixel, landing, same_column, other]
  · have other : (row y).val ≠ r.val := fun same => same_row (Fin.ext same.symm)
    simp [toggle, pixel, landing, same_row, other]

theorem pixel_toggleNext_of_ne {point : Int × Int} {pixel : Fin 64 × Fin 32}
    (elsewhere : pixel ≠ landing point) (drawn : Display × Bool) :
    (toggleNext drawn point).1.pixel pixel.1 pixel.2 = drawn.1.pixel pixel.1 pixel.2 := by
  simp [toggleNext, pixel_toggle, elsewhere]

section Toggles

variable {points : List (Int × Int)}

/-- Toggles at distinct pixels change exactly these pixels. -/
theorem pixel_foldl_toggleNext (apart : (points.map landing).Nodup) (drawn : Display × Bool)
    (c : Fin 64) (r : Fin 32) :
    (points.foldl toggleNext drawn).1.pixel c r =
      (drawn.1.pixel c r ^^ decide ((c, r) ∈ points.map landing)) := by
  induction points generalizing drawn with
  | nil => simp
  | cons point points ih =>
      obtain ⟨fresh, rest⟩ := List.nodup_cons.mp apart
      rw [List.foldl_cons, ih rest, toggleNext, pixel_toggle, Bool.xor_assoc]
      congr 1
      by_cases here : (c, r) = landing point
      · simp [here, fresh]
      · simp [here]

/-- Toggles at distinct pixels collide where a pixel was lit before the first of them. -/
theorem collided_foldl_toggleNext (apart : (points.map landing).Nodup) (drawn : Display × Bool) :
    (points.foldl toggleNext drawn).2 = true ↔
      drawn.2 = true ∨ ∃ pixel ∈ points.map landing, drawn.1.pixel pixel.1 pixel.2 = true := by
  induction points generalizing drawn with
  | nil => simp
  | cons point points ih =>
      obtain ⟨fresh, rest⟩ := List.nodup_cons.mp apart
      -- The first toggle leaves the pixels of the later ones as they were.
      have untouched : ∀ pixel ∈ points.map landing,
          (toggleNext drawn point).1.pixel pixel.1 pixel.2 = drawn.1.pixel pixel.1 pixel.2 := by
        intro pixel member
        exact pixel_toggleNext_of_ne (fun same => fresh (same ▸ member)) drawn
      have first : (toggleNext drawn point).2 = true ↔
          drawn.2 = true ∨ drawn.1.pixel (landing point).1 (landing point).2 = true :=
        Bool.or_eq_true_iff
      simp only [List.foldl_cons, ih rest, first, List.map_cons, List.mem_cons, or_and_right,
        exists_or, exists_eq_left, or_assoc]
      refine or_congr_right (or_congr_right (exists_congr fun pixel => and_congr_right ?_))
      intro member
      rw [untouched pixel member]

theorem toggleAll_of_nodup (apart : (points.map landing).Nodup) (display : Display) :
    display.toggleAll points =
      (display.xor (ofPoints points), display.meets (ofPoints points)) := by
  apply Prod.ext
  · ext column row
    simp [toggleAll, pixel_foldl_toggleNext apart, ofPoints]
  · rw [Bool.eq_iff_iff, meets_iff, toggleAll, collided_foldl_toggleNext apart]
    simp [ofPoints, and_comm]

end Toggles

/-! ## The lit bits of a sprite -/

/-- The columns of the lit bits of a row, from left to right. -/
def litColumns (byte : UInt8) : List Nat :=
  (List.range 8).filter fun column => byte.toNat.testBit (7 - column)

/-- The rows and columns of the lit bits of a sprite, row by row and each row from left to right. -/
def litBits (sprite : List UInt8) : List (Nat × Nat) :=
  sprite.zipIdx.flatMap fun (byte, row) => (litColumns byte).map fun column => (row, column)

/-- The points of the lit bits of a sprite with its corner at a point, in the same order. -/
def litPoints (sprite : List UInt8) (x y : Int) : List (Int × Int) :=
  (litBits sprite).map fun (row, column) => (x + column, y + row)

theorem spriteBit_eq_true_iff {sprite : List UInt8} {row column : Nat} :
    spriteBit sprite row column = true ↔
      ∃ byte, sprite[row]? = some byte ∧ column < 8 ∧ byte.toNat.testBit (7 - column) = true := by
  cases found : sprite[row]? with
  | none => simp [spriteBit, found]
  | some byte => simp [spriteBit, found]

@[simp]
theorem mem_litBits {sprite : List UInt8} {row column : Nat} :
    (row, column) ∈ litBits sprite ↔ spriteBit sprite row column = true := by
  simp [litBits, litColumns, spriteBit_eq_true_iff, List.mk_mem_zipIdx_iff_getElem?]

theorem bounds_of_mem_litBits {sprite : List UInt8} {bit : Nat × Nat}
    (member : bit ∈ litBits sprite) : bit.1 < sprite.length ∧ bit.2 < 8 := by
  obtain ⟨byte, found, narrow, -⟩ := spriteBit_eq_true_iff.mp (mem_litBits.mp member)
  exact ⟨(List.getElem?_eq_some_iff.mp found).1, narrow⟩

/-- The lit bits come row by row, and in each row from left to right. -/
theorem pairwise_litBits (sprite : List UInt8) :
    (litBits sprite).Pairwise (Prod.Lex (· < ·) (· < ·)) := by
  have downward : sprite.zipIdx.Pairwise (fun upper lower => upper.2 < lower.2) := by
    apply List.pairwise_map.mp
    rw [List.zipIdx_map_snd]
    exact List.pairwise_lt_range'
  rw [litBits, List.pairwise_flatMap]
  constructor
  · intro entry _
    rw [List.pairwise_map]
    exact (List.pairwise_lt_range.filter _).imp fun less => .right _ less
  · refine downward.imp ?_
    intro upper lower less _ bit _ bit'
    obtain ⟨column, -, rfl⟩ := List.mem_map.mp bit
    obtain ⟨column', -, rfl⟩ := List.mem_map.mp bit'
    exact .left _ _ less

/-- Within the width and height of the screen, where an offset lands determines the offset. -/
theorem landing_add_iff {x y : Int} {across down : Nat} (narrow : across < 64) (low : down < 32)
    (pixel : Fin 64 × Fin 32) :
    landing (x + across, y + down) = pixel ↔
      across = (((pixel.1 : Int) - x) % 64).toNat ∧ down = (((pixel.2 : Int) - y) % 32).toNat := by
  simp only [landing, column, row, Prod.ext_iff, Fin.ext_iff]
  omega

theorem landing_add_inj {x y : Int} {across down across' down' : Nat}
    (narrow : across < 64) (low : down < 32) (narrow' : across' < 64) (low' : down' < 32)
    (same : landing (x + across, y + down) = landing (x + across', y + down')) :
    across = across' ∧ down = down' := by
  have first := (landing_add_iff narrow low _).mp same
  have second := (landing_add_iff narrow' low' (landing (x + across', y + down'))).mp rfl
  exact ⟨first.1.trans second.1.symm, first.2.trans second.2.symm⟩

section Placed

variable {sprite : List UInt8} (short : sprite.length ≤ 32) (x y : Int)

include short

/-- No two lit bits of a sprite land on the same pixel. -/
theorem nodup_map_landing : ((litPoints sprite x y).map landing).Nodup := by
  rw [List.Nodup, List.pairwise_map, litPoints, List.pairwise_map]
  refine (pairwise_litBits sprite).imp_of_mem ?_
  intro bit bit' member member' before same
  have bounds := bounds_of_mem_litBits member
  have bounds' := bounds_of_mem_litBits member'
  obtain ⟨same_column, same_row⟩ :=
    landing_add_inj (by omega) (by omega) (by omega) (by omega) same
  rcases Prod.lex_def.mp before with above | ⟨-, left⟩
  · omega
  · omega

/-- The mask of a sprite is lit exactly where its lit bits land. -/
theorem mask_eq_ofPoints : mask sprite x y = ofPoints (litPoints sprite x y) := by
  ext c r
  rw [mask, ofPoints, pixel_ofFn, pixel_ofFn, Bool.eq_iff_iff, decide_eq_true_iff, litPoints,
    List.map_map, List.mem_map]
  constructor
  · intro lit
    refine ⟨_, mem_litBits.mpr lit, ?_⟩
    exact (landing_add_iff (by omega) (by omega) (c, r)).mpr ⟨rfl, rfl⟩
  · rintro ⟨⟨row, column⟩, member, lands⟩
    have bounds := bounds_of_mem_litBits member
    obtain ⟨rfl, rfl⟩ := (landing_add_iff (by omega) (by omega) (c, r)).mp lands
    exact mem_litBits.mp member

theorem draw_eq_toggleAll (display : Display) :
    display.draw sprite x y = display.toggleAll (litPoints sprite x y) := by
  rw [toggleAll_of_nodup (nodup_map_landing short x y), ← mask_eq_ofPoints short x y, draw]

end Placed

end Display

/-! ## The instruction that draws -/

section Source

variable [RandomSource]

/-- The bytes in memory from the index on, going on at the first cell after the last one. -/
def State.spriteAtIndex (state : State) (height : Nat) : List UInt8 :=
  (List.range height).map fun k => state.memory.read ((state.index.toNat + k) % 4096)

theorem execute_draw {word : Int} (covers : Operation.draw.Covers word) (state : State) :
    let drawn := state.display.draw (state.spriteAtIndex (Operand.n.valueIn word).toNat)
      (state.register (Operand.x.registerIn word)) (state.register (Operand.y.registerIn word))
    execute state word = .ok { state with
      display := drawn.1
      registers := state.registers.set 15 (if drawn.2 = true then 1 else 0) } := by
  intro drawn
  have effects : (Operation.draw.instructionIn word).effects state =
      .ok [.redraw drawn.1, .setRegister 15 (Alu.flag (drawn.2 = true))] := rfl
  have ran : execute state word = .ok (Effect.applyAll
      [.redraw drawn.1, .setRegister 15 (Alu.flag (drawn.2 = true))] state) := by
    rw [covers.execute_eq (by decide), Instruction.execute, effects]
    rfl
  clear_value drawn
  have flag : UInt8.ofInt (Alu.flag (drawn.2 = true)) = if drawn.2 = true then 1 else 0 := by
    cases drawn.2 <;> rfl
  rw [ran, ← flag]
  rfl

/-- Drawing is toggling the lit bits of the sprite one after another, row by row and from left to
right: on any display, for any sprite of at most 32 rows at any point, the display is the same and
there is a collision if one of the toggles collides.  The instruction that draws toggles the lit
bits of the bytes at the index, placed at the values that two registers held before, and puts the
collision into the last register, even if it is one of the two. -/
theorem drawing_toggles_lit_bits :
    (∀ (display : Display) (sprite : List UInt8) (x y : Int), sprite.length ≤ 32 →
      display.draw sprite x y = display.toggleAll (Display.litPoints sprite x y)) ∧
    ∀ (state : State) (word : Int), Operation.draw.Covers word →
      let x := state.register (Operand.x.registerIn word)
      let y := state.register (Operand.y.registerIn word)
      let sprite := state.spriteAtIndex (Operand.n.valueIn word).toNat
      let drawn := state.display.toggleAll (Display.litPoints sprite x y)
      execute state word = .ok { state with
        display := drawn.1
        registers := state.registers.set 15 (if drawn.2 = true then 1 else 0) } := by
  constructor
  · intro display sprite x y short
    exact Display.draw_eq_toggleAll short x y display
  · intro state word covers x y sprite drawn
    have short : sprite.length ≤ 32 := by
      have height : Operand.n.valueIn word < 16 := by
        simp only [Operand.valueIn]
        omega
      simp only [sprite, State.spriteAtIndex, List.length_map, List.length_range]
      omega
    rw [execute_draw covers state, Display.draw_eq_toggleAll short]

end Source

/-- A sprite that crosses a corner of the screen is read across the end of memory; its place is in
the register that receives the collision. -/
theorem drawing_toggles_lit_bits_across_the_corner :
    let display := (Display.blank.toggle (-2) (-1)).1
    let state := { State.initial 0 ⟨false, true⟩ with
      memory := Memory.initial.write 0xFFF 0x81
      registers := (Vector.replicate 16 0).set 15 62
      index := 0xFFF
      display }
    let points := [(62, 62), (69, 62), (62, 63), (63, 63), (64, 63), (65, 63)]
    display.draw [0x81, 0xF0] 62 62 = display.toggleAll points ∧
      execute state 0xDFF2 = .ok { state with
        display := (display.toggleAll points).1
        registers := state.registers.set 15 1 } ∧
      (display.toggleAll points).1.pixel 5 30 = true ∧
      (display.toggleAll points).1.pixel 62 31 = false := by
  intro display state points
  have lit : Display.litPoints [0x81, 0xF0] 62 62 = points := by decide
  have drawn := drawing_toggles_lit_bits.1 display [0x81, 0xF0] 62 62 (by decide)
  have ran := drawing_toggles_lit_bits.2 state 0xDFF2 (by decide)
  have sprite : state.spriteAtIndex (Operand.n.valueIn 0xDFF2).toNat = [0x81, 0xF0] := by
    decide +kernel
  have placed : (state.register (Operand.x.registerIn 0xDFF2) : Int) = 62 ∧
      (state.register (Operand.y.registerIn 0xDFF2) : Int) = 62 := by
    decide
  obtain ⟨collided, pixels⟩ : (state.display.toggleAll points).2 = true ∧
      (display.toggleAll points).1.pixel 5 30 = true ∧
      (display.toggleAll points).1.pixel 62 31 = false := by
    decide +kernel
  rw [lit] at drawn
  simp only [sprite, placed, lit, collided, if_true] at ran
  exact ⟨drawn, ran, pixels⟩

end Chip8
