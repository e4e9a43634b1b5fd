import Chip8.Proofs.InstructionFrame
import Chip8.Proofs.SingleCommand
import Chip8.Threefry

/-!
# Loading a program

A load puts the program into its area and clears everything else but the keypad, the random key, the
dialect and the memory around the area.  So the state after a load depends on these and on nothing
that an earlier program has left, and an earlier load of no longer a program makes no difference.  A
program that does not fit is refused and nothing happens.
-/

namespace Chip8

section Source

variable [RandomSource]

/-- States with the same keypad, random key, dialect and memory around a program area. -/
structure State.SameSurroundings (size : Nat) (left right : State) : Prop where
  keypad : left.keypad = right.keypad
  randomKey : left.randomKey = right.randomKey
  dialect : left.dialect = right.dialect
  memory : ∀ address < 4096, address < 0x200 ∨ 0x200 + size ≤ address →
    left.memory.read address = right.memory.read address

/-- What a load makes of a state: the program is in its area, the surroundings are kept, and
everything else is cleared. -/
structure State.Loads (rom : List UInt8) (before after : State) : Prop where
  surroundings : before.SameSurroundings rom.length after
  program : ∀ (k : Nat) (inside : k < rom.length), after.memory.read (0x200 + k) = rom[k]
  pc : after.pc = 0x200
  registers : after.registers = Vector.replicate 16 0
  index : after.index = 0
  stack : after.stack = .empty
  delayTimer : after.delayTimer = 0
  soundTimer : after.soundTimer = 0
  display : after.display = .blank

namespace State

/-! ## Surroundings -/

namespace SameSurroundings

variable {size : Nat} {left middle right : State}

theorem symm (same : left.SameSurroundings size right) : right.SameSurroundings size left where
  keypad := same.keypad.symm
  randomKey := same.randomKey.symm
  dialect := same.dialect.symm
  memory address inside around := (same.memory address inside around).symm

theorem trans (first : left.SameSurroundings size middle)
    (second : middle.SameSurroundings size right) : left.SameSurroundings size right where
  keypad := first.keypad.trans second.keypad
  randomKey := first.randomKey.trans second.randomKey
  dialect := first.dialect.trans second.dialect
  memory address inside around :=
    (first.memory address inside around).trans (second.memory address inside around)

/-- A larger area has less around it. -/
theorem mono {larger : Nat} (same : left.SameSurroundings size right) (le : size ≤ larger) :
    left.SameSurroundings larger right :=
  { same with memory := fun address inside around => same.memory address inside (by omega) }

end SameSurroundings

/-! ## Loads -/

variable {rom : List UInt8} {left right : State}

theorem load_of_fits (fits : rom.length ≤ 3584) (state : State) :
    state.load rom =
      .ok { state.reset with memory := state.memory.writeAll Memory.programStart rom } := by
  have room : ¬Memory.programCapacity < rom.length := by
    simp only [Memory.programCapacity, Memory.programStart]
    omega
  rw [load, if_neg room]

theorem load_of_too_large (large : 3584 < rom.length) (state : State) :
    state.load rom = .error (.romTooLarge rom.length) := by
  have no_room : Memory.programCapacity < rom.length := by
    simp only [Memory.programCapacity, Memory.programStart]
    omega
  rw [load, if_pos no_room]

/-- A program that fits is loaded. -/
theorem exists_loads (fits : rom.length ≤ 3584) (state : State) :
    ∃ after, state.load rom = .ok after ∧ state.Loads rom after := by
  have received : state.memory.Receives (state.memory.writeAll Memory.programStart rom)
      Memory.programStart rom := state.memory.receives_writeAll _ (by omega)
  refine ⟨_, load_of_fits fits state, ?_⟩
  refine ⟨⟨rfl, rfl, rfl, fun address inside around => ?_⟩, received.inside, rfl, rfl, rfl, rfl,
    rfl, rfl, rfl⟩
  refine (received.outside address inside fun k below => ?_).symm
  simp only [Memory.programStart]
  omega

/-- The surroundings are all that a load takes over. -/
theorem Loads.unique {leftAfter rightAfter : State}
    (left_loads : left.Loads rom leftAfter) (right_loads : right.Loads rom rightAfter)
    (same : left.SameSurroundings rom.length right) : leftAfter = rightAfter := by
  have surroundings : leftAfter.SameSurroundings rom.length rightAfter :=
    (left_loads.surroundings.symm.trans same).trans right_loads.surroundings
  have memory : leftAfter.memory = rightAfter.memory := by
    ext address inside
    by_cases around : address < 0x200 ∨ 0x200 + rom.length ≤ address
    · rw [surroundings.memory address inside around]
    · obtain ⟨k, rfl⟩ : ∃ k, address = 0x200 + k := ⟨address - 0x200, by omega⟩
      have below : k < rom.length := by omega
      rw [left_loads.program k below, right_loads.program k below]
  cases leftAfter
  cases rightAfter
  rw [State.mk.injEq]
  exact ⟨memory, left_loads.registers.trans right_loads.registers.symm,
    left_loads.index.trans right_loads.index.symm, left_loads.pc.trans right_loads.pc.symm,
    left_loads.stack.trans right_loads.stack.symm,
    left_loads.delayTimer.trans right_loads.delayTimer.symm,
    left_loads.soundTimer.trans right_loads.soundTimer.symm, surroundings.keypad,
    left_loads.display.trans right_loads.display.symm, surroundings.randomKey,
    surroundings.dialect⟩

/-- Loads come to the same exactly in the same surroundings. -/
theorem load_eq_load_iff (fits : rom.length ≤ 3584) :
    left.load rom = right.load rom ↔ left.SameSurroundings rom.length right := by
  obtain ⟨leftAfter, left_loaded, left_loads⟩ := exists_loads fits left
  obtain ⟨rightAfter, right_loaded, right_loads⟩ := exists_loads fits right
  rw [left_loaded, right_loaded, Except.ok.injEq]
  constructor
  · rintro rfl
    exact left_loads.surroundings.trans right_loads.surroundings.symm
  · exact left_loads.unique right_loads

/-- An earlier load of no longer a program makes no difference. -/
theorem load_of_loads {first : List UInt8} {state after : State} (fits : rom.length ≤ 3584)
    (shorter : first.length ≤ rom.length) (loads : state.Loads first after) :
    after.load rom = state.load rom :=
  (load_eq_load_iff fits).mpr (loads.surroundings.symm.mono shorter)

theorem load_eq_too_large_iff (state : State) :
    state.load rom = .error (.romTooLarge rom.length) ↔ 3584 < rom.length := by
  constructor
  · intro refused
    refine Classical.byContradiction fun small => ?_
    rw [load_of_fits (by omega)] at refused
    cases refused
  · exact fun large => load_of_too_large large state

end State

namespace Machine

/-! ## Machines -/

variable {rom : List UInt8}

theorem perform_load_ok {machine : Machine} {after : State}
    (loaded : machine.state.load rom = .ok after) :
    machine.perform (.load rom) =
      ⟨{ machine with state := after, rom := rom, lastBreak := none }, .ok .done,
        [.romLoaded rom]⟩ := by
  simp only [perform, performLoad, load, loaded, ok_bind]
  rfl

theorem perform_load_too_large (large : 3584 < rom.length) (machine : Machine) :
    machine.perform (.load rom) = ⟨machine, .error (.romTooLarge rom.length), []⟩ :=
  perform_request_error rfl (State.load_of_too_large large machine.state)

/-- A program loaded over no larger a one leaves nothing of it. -/
theorem perform_load_load {first : List UInt8} (fits : rom.length ≤ 3584)
    (shorter : first.length ≤ rom.length) (machine : Machine) :
    (machine.perform (.load first)).machine.perform (.load rom) = machine.perform (.load rom) := by
  obtain ⟨between, first_loaded, first_loads⟩ :=
    State.exists_loads (show first.length ≤ 3584 by omega) machine.state
  obtain ⟨after, loaded, -⟩ := State.exists_loads fits machine.state
  have again := (State.load_of_loads fits shorter first_loads).trans loaded
  rw [perform_load_ok loaded, perform_load_ok first_loaded]
  exact perform_load_ok again

/-- A program that fits is loaded, and what a load takes over is just its surroundings: loads come
to the same exactly in the same surroundings, so that an earlier load of no longer a program makes
no difference.  Only a program that does not fit is refused, and then nothing changes and observers
see nothing. -/
theorem loading_forgets_the_past (rom : List UInt8) :
    (rom.length ≤ 3584 →
      (∀ left right : State,
          left.load rom = right.load rom ↔ left.SameSurroundings rom.length right) ∧
        (∀ state : State, ∃ after,
          state.load rom = .ok after ∧ state.Loads rom after ∧ after.load rom = .ok after) ∧
        ∀ first : List UInt8, first.length ≤ rom.length →
          (∀ state : State, (state.load first >>= fun after => after.load rom) = state.load rom) ∧
            ∀ machine : Machine, (machine.perform (.load first)).machine.perform (.load rom) =
              machine.perform (.load rom)) ∧
      (∀ state : State, state.load rom = .error (.romTooLarge rom.length) ↔ 3584 < rom.length) ∧
      (3584 < rom.length → ∀ machine : Machine,
        machine.perform (.load rom) = ⟨machine, .error (.romTooLarge rom.length), []⟩) := by
  refine ⟨fun fits => ⟨fun _ _ => State.load_eq_load_iff fits, fun state => ?_, ?_⟩,
    State.load_eq_too_large_iff, perform_load_too_large⟩
  · obtain ⟨after, loaded, loads⟩ := State.exists_loads fits state
    exact ⟨after, loaded, loads, (State.load_of_loads fits (Nat.le_refl _) loads).trans loaded⟩
  · intro first shorter
    refine ⟨fun state => ?_, perform_load_load fits shorter⟩
    obtain ⟨between, first_loaded, loads⟩ :=
      State.exists_loads (show first.length ≤ 3584 by omega) state
    rw [first_loaded, ok_bind]
    exact State.load_of_loads fits shorter loads

end Machine

end Source

/-- A program of two bytes leaves nothing of the two bytes and the registers before it, and one of
3585 bytes is refused. -/
theorem Machine.loading_forgets_the_past_of_two_bytes :
    let left := State.initial 0 ⟨true, true⟩
    let right := { left with
      memory := left.memory.write 0x201 7, registers := Vector.replicate 16 3, pc := 0x2A4 }
    left.memory.read 0x201 ≠ right.memory.read 0x201 ∧
      left.load [0x12, 0x00] = right.load [0x12, 0x00] ∧
      (∃ after, right.load [0x12, 0x00] = .ok after ∧ right.Loads [0x12, 0x00] after) ∧
      3584 < (List.replicate 3585 (0 : UInt8)).length ∧
      ∀ machine : Machine, machine.perform (.load (List.replicate 3585 0)) =
        ⟨machine, .error (.romTooLarge 3585), []⟩ := by
  intro left right
  have same : left.SameSurroundings 2 right := by
    refine ⟨rfl, rfl, rfl, fun address inside around => ?_⟩
    rw [Memory.read_write, if_neg (by omega)]
  obtain ⟨loads_iff, loads, -⟩ := (loading_forgets_the_past [0x12, 0x00]).1 (by decide)
  obtain ⟨after, loaded, fresh, -⟩ := loads right
  have large : 3584 < (List.replicate 3585 (0 : UInt8)).length := by
    rw [List.length_replicate]
    decide
  refine ⟨?_, (loads_iff left right).mpr same, ⟨after, loaded, fresh⟩, large, ?_⟩
  · decide +kernel
  · intro machine
    have refused := (loading_forgets_the_past (List.replicate 3585 0)).2.2 large machine
    rwa [List.length_replicate] at refused

end Chip8
