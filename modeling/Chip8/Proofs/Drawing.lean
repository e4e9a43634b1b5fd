import Mathlib.Data.Set.Card
import Chip8.Proofs.Sprites

/-!
# Drawing over what is on the screen

A sprite is combined with the screen by exclusive or, so drawings can be exchanged and the same
drawing made again takes itself back.  Each lit bit of the sprite toggles a pixel of its own: it
lights the pixel, or puts it out, which is a collision.  Hence the first of two equal drawings
collides where a lit bit meets a lit pixel and the second where one met an unlit pixel, and the
number of lit pixels changes by one for every lit bit.
-/

namespace Chip8
namespace Display

/-! ## Combining displays -/

theorem xor_right_comm (display first second : Display) :
    (display.xor first).xor second = (display.xor second).xor first := by
  ext column row
  simp only [pixel_xor]
  exact Bool.xor_right_comm _ _ _

theorem xor_xor_cancel_right (display covered : Display) :
    (display.xor covered).xor covered = display := by
  ext column row
  simp

/-! ## Where a drawing collides -/

/-- Whether a point lands on a lit pixel. -/
def litAt (display : Display) (point : Int × Int) : Bool :=
  display.pixel (landing point).1 (landing point).2

/-- A byte is not zero when one of its columns is lit. -/
theorem exists_testBit_iff (byte : UInt8) :
    (∃ column < 8, byte.toNat.testBit (7 - column) = true) ↔ byte ≠ 0 := by
  constructor
  · rintro ⟨column, -, lit⟩ rfl
    simp at lit
  · intro nonzero
    have positive : byte.toNat ≠ 0 := fun zero => nonzero (UInt8.toNat_inj.mp zero)
    obtain ⟨bit, lit⟩ := Nat.exists_testBit_of_ne_zero positive
    have narrow : bit < 8 := by
      refine Nat.lt_of_not_le fun high => ?_
      have bound : byte.toNat < 2 ^ bit :=
        Nat.lt_of_lt_of_le byte.toNat_lt (Nat.pow_le_pow_right (by decide) high)
      rw [Nat.testBit_lt_two_pow bound] at lit
      cases lit
    exact ⟨7 - bit, by omega, by rwa [show 7 - (7 - bit) = bit by omega]⟩

/-- A sprite has a lit bit when one of its bytes is not zero. -/
theorem exists_mem_litPoints_iff (sprite : List UInt8) (x y : Int) :
    (∃ point, point ∈ litPoints sprite x y) ↔ ∃ byte ∈ sprite, byte ≠ 0 := by
  simp only [← exists_testBit_iff]
  constructor
  · rintro ⟨point, member⟩
    obtain ⟨⟨row, column⟩, bit, rfl⟩ := List.mem_map.mp member
    obtain ⟨byte, found, narrow, lit⟩ := spriteBit_eq_true_iff.mp (mem_litBits.mp bit)
    exact ⟨byte, List.mem_of_getElem? found, column, narrow, lit⟩
  · rintro ⟨byte, member, column, narrow, lit⟩
    obtain ⟨row, found⟩ := List.getElem?_of_mem member
    have bit : (row, column) ∈ litBits sprite :=
      mem_litBits.mpr (spriteBit_eq_true_iff.mpr ⟨byte, found, narrow, lit⟩)
    exact ⟨_, List.mem_map_of_mem bit⟩

section Placed

variable {sprite : List UInt8} (short : sprite.length ≤ 32) (x y : Int) (display : Display)

include short

theorem draw_collides_iff :
    (display.draw sprite x y).2 = true ↔
      ∃ point ∈ litPoints sprite x y, display.litAt point = true := by
  rw [draw_eq_toggleAll short, toggleAll, collided_foldl_toggleNext (nodup_map_landing short x y)]
  simp [landing, litAt]

/-- Drawing toggles the pixel that a lit bit lands on. -/
theorem litAt_draw {point : Int × Int} (member : point ∈ litPoints sprite x y) :
    (display.draw sprite x y).1.litAt point = !display.litAt point := by
  have covered : landing point ∈ (litPoints sprite x y).map landing := List.mem_map_of_mem member
  have toggled := pixel_foldl_toggleNext (nodup_map_landing short x y) (display, false)
    (landing point).1 (landing point).2
  rw [litAt, draw_eq_toggleAll short, toggleAll, toggled]
  simp [covered, litAt]

theorem draw_collides_again_iff :
    ((display.draw sprite x y).1.draw sprite x y).2 = true ↔
      ∃ point ∈ litPoints sprite x y, display.litAt point = false := by
  rw [draw_collides_iff short]
  refine exists_congr fun point => and_congr_right fun member => ?_
  rw [litAt_draw short x y display member, Bool.not_eq_true']

end Placed

/-- Two drawings give the same display in either order.  Drawing a sprite of at most 32 rows twice
at the same point restores the display; the second drawing collides when some lit bit of the sprite
fell on a pixel that was not lit before the first, and so one of the two collides when the sprite
has a lit bit at all. -/
theorem drawings_commute_and_cancel :
    (∀ (display : Display) (first second : List UInt8) (x y x' y' : Int),
      ((display.draw first x y).1.draw second x' y').1 =
        ((display.draw second x' y').1.draw first x y).1) ∧
    ∀ (display : Display) (sprite : List UInt8) (x y : Int), sprite.length ≤ 32 →
      let once := display.draw sprite x y
      let twice := once.1.draw sprite x y
      twice.1 = display ∧
        (twice.2 = true ↔ ∃ point ∈ litPoints sprite x y, display.litAt point = false) ∧
        (once.2 = true ∨ twice.2 = true ↔ ∃ byte ∈ sprite, byte ≠ 0) := by
  constructor
  · intro display first second x y x' y'
    exact xor_right_comm display (mask first x y) (mask second x' y')
  · intro display sprite x y short once twice
    have restored : twice.1 = display := xor_xor_cancel_right display (mask sprite x y)
    have again := draw_collides_again_iff short x y display
    refine ⟨restored, again, ?_⟩
    -- Every lit bit falls on a pixel that is lit or on one that is not.
    calc once.2 = true ∨ twice.2 = true
        ↔ (∃ point ∈ litPoints sprite x y, display.litAt point = true) ∨
          ∃ point ∈ litPoints sprite x y, display.litAt point = false :=
            or_congr (draw_collides_iff short x y display) again
      _ ↔ ∃ point, point ∈ litPoints sprite x y := by
            simp only [← exists_or, ← and_or_left, Bool.eq_true_or_eq_false_self, and_true]
      _ ↔ ∃ byte ∈ sprite, byte ≠ 0 := exists_mem_litPoints_iff sprite x y

/-- The only lit bit of a sprite falls on a lit pixel: the first drawing collides, the second does
not. -/
theorem drawings_commute_and_cancel_on_a_lit_pixel :
    let display := (blank.toggle (-2) (-1)).1
    let once := display.draw [0x80] 62 31
    let twice := once.1.draw [0x80] 62 31
    (once.1.draw [0xF0] 60 31).1 = ((display.draw [0xF0] 60 31).1.draw [0x80] 62 31).1 ∧
      twice.1 = display ∧ once.2 = true ∧ twice.2 = false := by
  intro display once twice
  have exchanged := drawings_commute_and_cancel.1 display [0x80] [0xF0] 62 31 60 31
  obtain ⟨restored, again, either⟩ :=
    drawings_commute_and_cancel.2 display [0x80] 62 31 (by decide)
  have lit : ∀ point ∈ litPoints [0x80] 62 31, display.litAt point = true := by
    decide +kernel
  have quiet : twice.2 = false := by
    rw [Bool.eq_false_iff]
    intro collided
    obtain ⟨point, member, dark⟩ := again.mp collided
    rw [lit point member] at dark
    cases dark
  have collided : once.2 = true := by
    refine (either.mpr ⟨0x80, by decide, by decide⟩).resolve_right ?_
    rw [Bool.not_eq_true]
    exact quiet
  exact ⟨exchanged, restored, collided, quiet⟩

/-! ## Counting lit pixels -/

/-- The pixels that are lit. -/
def litPixels (display : Display) : Set (Fin 64 × Fin 32) :=
  {pixel | display.pixel pixel.1 pixel.2 = true}

@[simp]
theorem mem_litPixels {display : Display} {pixel : Fin 64 × Fin 32} :
    pixel ∈ display.litPixels ↔ display.pixel pixel.1 pixel.2 = true :=
  Iff.rfl

theorem landing_mem_litPixels {display : Display} {point : Int × Int} :
    landing point ∈ display.litPixels ↔ display.litAt point = true :=
  Iff.rfl

theorem litPixels_blank : blank.litPixels = ∅ := by
  ext pixel
  simp [blank]

/-- The number of lit bits of a sprite. -/
def bitCount (sprite : List UInt8) : Nat :=
  (sprite.map fun byte => byte.toBitVec.cpop.toNat).sum

/-- The columns of a row show each bit of its byte once. -/
theorem length_litColumns (byte : UInt8) :
    (litColumns byte).length = byte.toBitVec.cpop.toNat := by
  have counted (width : Nat) : byte.toBitVec.cpopNatRec width 0 =
      (List.range width).countP byte.toNat.testBit := by
    induction width with
    | zero => rfl
    | succ width ih =>
        rw [BitVec.cpopNatRec_succ, BitVec.cpopNatRec_add, ih, List.range_succ, List.countP_append,
          List.countP_singleton]
        change _ + (byte.toNat.testBit width).toNat = _
        cases byte.toNat.testBit width <;> rfl
  have mirrored : (List.range 8).map (7 - ·) = (List.range 8).reverse := rfl
  calc (litColumns byte).length
      = (List.range 8).countP (byte.toNat.testBit ∘ (7 - ·)) := List.countP_eq_length_filter.symm
    _ = (List.range 8).countP byte.toNat.testBit := by
          rw [← List.countP_map, mirrored, List.countP_reverse]
    _ = byte.toBitVec.cpop.toNat := by rw [BitVec.toNat_cpop, counted]

theorem length_litPoints (sprite : List UInt8) (x y : Int) :
    (litPoints sprite x y).length = bitCount sprite := by
  rw [litPoints, List.length_map, litBits, List.length_flatMap, bitCount]
  simp only [List.length_map, length_litColumns]
  conv_rhs => rw [← List.zipIdx_map_fst 0 sprite, List.map_map]
  rfl

theorem mem_litPixels_toggle {display : Display} {point : Int × Int} {pixel : Fin 64 × Fin 32} :
    pixel ∈ (display.toggle point.1 point.2).1.litPixels ↔
      if pixel = landing point then display.litAt point = false else pixel ∈ display.litPixels := by
  by_cases here : pixel = landing point
  · subst here
    simp [pixel_toggle, litAt]
  · simp [pixel_toggle, here]

/-- A toggle lights one pixel or puts one out. -/
theorem ncard_litPixels_toggle (display : Display) (point : Int × Int) :
    (display.toggle point.1 point.2).1.litPixels.ncard + 2 * (display.litAt point).toNat =
      display.litPixels.ncard + 1 := by
  cases lit : display.litAt point with
  | true =>
      have erased : (display.toggle point.1 point.2).1.litPixels =
          display.litPixels \ {landing point} := by
        ext pixel
        rw [mem_litPixels_toggle, Set.mem_sdiff, Set.mem_singleton_iff, lit]
        by_cases here : pixel = landing point <;> simp [here]
      have fewer := Set.ncard_sdiff_singleton_add_one (landing_mem_litPixels.mpr lit)
      rw [erased, Bool.toNat_true]
      omega
  | false =>
      have inserted : (display.toggle point.1 point.2).1.litPixels =
          insert (landing point) display.litPixels := by
        ext pixel
        rw [mem_litPixels_toggle, Set.mem_insert_iff, lit]
        by_cases here : pixel = landing point <;> simp [here]
      have absent : landing point ∉ display.litPixels := by
        rw [landing_mem_litPixels, lit]
        exact Bool.false_ne_true
      rw [inserted, Set.ncard_insert_of_notMem absent, Bool.toNat_false]

/-- Toggles at distinct pixels change the number of lit pixels by one each. -/
theorem ncard_litPixels_foldl_toggleNext {points : List (Int × Int)}
    (apart : (points.map landing).Nodup) (drawn : Display × Bool) :
    (points.foldl toggleNext drawn).1.litPixels.ncard + 2 * points.countP drawn.1.litAt =
      drawn.1.litPixels.ncard + points.length := by
  induction points generalizing drawn with
  | nil => rfl
  | cons point points ih =>
      obtain ⟨fresh, rest⟩ := List.nodup_cons.mp apart
      have untouched : points.countP (toggleNext drawn point).1.litAt =
          points.countP drawn.1.litAt := by
        refine List.countP_congr fun other member => ?_
        have elsewhere : landing other ≠ landing point :=
          fun same => fresh (same ▸ List.mem_map_of_mem member)
        rw [litAt, pixel_toggleNext_of_ne elsewhere, litAt]
      have one := ncard_litPixels_toggle drawn.1 point
      have others := ih rest (toggleNext drawn point)
      rw [untouched] at others
      change _ = (drawn.1.toggle point.1 point.2).1.litPixels.ncard + _ at others
      have flag : (if drawn.1.litAt point = true then 1 else 0) = (drawn.1.litAt point).toNat := by
        cases drawn.1.litAt point <;> rfl
      rw [List.foldl_cons, List.countP_cons, List.length_cons, flag]
      omega

/-- Each lit bit of a sprite of at most 32 rows lights one pixel or puts one out: drawing adds as
many lit pixels as the sprite has lit bits, less two for each bit that landed on a lit pixel.  There
is a collision when there is such a bit, or in other words when a lit pixel has been put out. -/
theorem drawing_counts_every_bit {sprite : List UInt8} (short : sprite.length ≤ 32)
    (display : Display) (x y : Int) :
    let drawn := display.draw sprite x y
    let hits := (litPoints sprite x y).countP display.litAt
    (drawn.1.litPixels.ncard : Int) = display.litPixels.ncard + bitCount sprite - 2 * hits ∧
      (drawn.2 = true ↔ 0 < hits) ∧
      (drawn.2 = true ↔
        ∃ column row, display.pixel column row = true ∧ drawn.1.pixel column row = false) := by
  intro drawn hits
  refine ⟨?_, ?_, ?_⟩
  · have counted := ncard_litPixels_foldl_toggleNext (nodup_map_landing short x y) (display, false)
    have toggled : drawn.1 = ((litPoints sprite x y).foldl toggleNext (display, false)).1 :=
      congrArg Prod.fst (draw_eq_toggleAll short x y display)
    rw [← toggled, length_litPoints] at counted
    change _ + 2 * hits = display.litPixels.ncard + _ at counted
    omega
  · rw [List.countP_pos_iff]
    exact draw_collides_iff short x y display
  · refine (meets_iff display (mask sprite x y)).trans ?_
    refine exists_congr fun column => exists_congr fun row => and_congr_right fun lit => ?_
    change _ ↔ (display.xor (mask sprite x y)).pixel column row = false
    rw [pixel_xor, lit, Bool.true_xor, Bool.not_eq_false']

/-- A sprite that crosses a corner of the screen loses no bit; one of its six bits lands on a lit
pixel. -/
theorem drawing_counts_every_bit_across_the_corner :
    let display := (blank.toggle (-2) (-1)).1
    let drawn := display.draw [0x81, 0xF0] 62 62
    display.litPixels.ncard = 1 ∧ bitCount [0x81, 0xF0] = 6 ∧ drawn.1.litPixels.ncard = 5 ∧
      drawn.2 = true := by
  intro display drawn
  have before : display.litPixels.ncard = 1 := by
    have toggled := ncard_litPixels_toggle blank (-2, -1)
    have dark : blank.litAt (-2, -1) = false := pixel_ofFn _ _ _
    rw [litPixels_blank, dark, Set.ncard_empty] at toggled
    exact toggled
  have bits : bitCount [0x81, 0xF0] = 6 := rfl
  have hits : (litPoints [0x81, 0xF0] 62 62).countP display.litAt = 1 := by
    decide +kernel
  obtain ⟨counted, collides, -⟩ :=
    drawing_counts_every_bit (by decide : [(0x81 : UInt8), 0xF0].length ≤ 32) display 62 62
  rw [before, bits, hits] at counted
  rw [hits] at collides
  have after : (drawn.1.litPixels.ncard : Int) = 5 := counted
  exact ⟨before, bits, by exact_mod_cast after, collides.mpr Nat.one_pos⟩

end Display
end Chip8
