import Chip8.Proofs.History
import Chip8.Proofs.InstructionFrame
import Chip8.Proofs.WordSteps

/-!
# The machine over unbounded integers

A second machine keeps integers of any size where the machine keeps bytes and words, and stores
every value as it is.  Only the two moves of the program counter and the advance of the index wrap.
An instruction has the same effects over the numbers of a state as in the state itself.
-/

namespace Chip8

/-! ## States -/

variable [RandomSource]

/-- A state whose numbers may have any size and sign. -/
structure UnboundedState where
  /-- The cells. -/
  memory : Vector Int 4096
  /-- The registers. -/
  registers : Vector Int 16
  /-- The index register. -/
  index : Int
  /-- The address of the next instruction. -/
  pc : Int
  /-- The slots of the call stack. -/
  slots : Vector Int 16
  /-- The pointer of the call stack. -/
  pointer : Int
  /-- The timer that instructions can read. -/
  delayTimer : Int
  /-- The timer that sounds. -/
  soundTimer : Int
  /-- Which keys are down. -/
  keypad : Vector Bool 16
  /-- The screen. -/
  display : Display
  /-- The key of the random stream. -/
  randomKey : RandomKey
  /-- The interpreter's choices. -/
  dialect : Dialect

/-- The numbers of a state. -/
def State.unbounded (state : State) : UnboundedState where
  memory := state.memory.cells.map fun byte => byte.toNat
  registers := state.registers.map fun byte => byte.toNat
  index := state.index.toNat
  pc := state.pc.toNat
  slots := state.stack.slots.map fun word => word.toNat
  pointer := state.stack.pointer
  delayTimer := state.delayTimer.toNat
  soundTimer := state.soundTimer.toNat
  keypad := state.keypad
  display := state.display
  randomKey := state.randomKey
  dialect := state.dialect

namespace UnboundedState

/-- Values with another one put at a place. -/
def put {Value : Type} {size : Nat} (values : Vector Value size) (place : Fin size)
    (value : Value) : Vector Value size :=
  values.set place value place.isLt

/-- The cell that an address names. -/
def location (address : Int) : Fin 4096 :=
  ⟨(address % 4096).toNat, by omega⟩

/-- The number in the cell of an address. -/
def read (state : UnboundedState) (address : Int) : Int :=
  state.memory.get (location address)

/-- The word at the address of the next instruction. -/
def word (state : UnboundedState) : Int :=
  256 * state.read state.pc + state.read (state.pc + 1)

/-- Go on to the instruction after the next one. -/
def advance (state : UnboundedState) : UnboundedState :=
  { state with pc := (state.pc + 2) % 65536 }

/-! ## Stores -/

/-- The state after an effect; every value is stored as it is. -/
def apply (state : UnboundedState) : Effect → UnboundedState
  | .setRegister register value => { state with registers := put state.registers register value }
  | .setIndex address => { state with index := address }
  | .advanceIndex distance => { state with index := (state.index + distance) % 65536 }
  | .jump address => { state with pc := address }
  | .skip => { state with pc := (state.pc + 2) % 65536 }
  | .hold => { state with pc := (state.pc - 2) % 65536 }
  | .store address value => { state with memory := put state.memory (location address) value }
  | .setDelay value => { state with delayTimer := value }
  | .setSound value => { state with soundTimer := value }
  | .redraw display => { state with display := display }
  | .push address =>
    { state with
      slots := put state.slots (Bits.lowNibble (state.pointer + 1)) address
      pointer := state.pointer + 1 }
  | .pop => { state with pointer := state.pointer - 1 }
  | .reseed key => { state with randomKey := key }

/-- The state after effects in order. -/
def applyAll (effects : List Effect) (state : UnboundedState) : UnboundedState :=
  effects.foldl apply state

/-! ## Instructions -/

/-- Whether a condition holds. -/
def holds (state : UnboundedState) : Condition → Bool
  | .equalsByte x value => state.registers.get x == value
  | .equalsRegister x y => state.registers.get x == state.registers.get y
  | .keyDown x => state.keypad.get (Bits.lowNibble (state.registers.get x))

/-- The effects of an operation on registers. -/
def combineEffects (state : UnboundedState) (operation : Alu) (x y : Fin 16) : List Effect :=
  let shifted := if operation.isShift && !state.dialect.modern then y else x
  let (result, flag) :=
    operation.apply state.dialect.strictBorrow (state.registers.get shifted) (state.registers.get y)
  flag.toList.map (.setRegister Instruction.flagRegister) ++ [.setRegister x result]

/-- The effects of drawing; a row of a sprite is made of the lowest eight bits of a cell. -/
def drawEffects (state : UnboundedState) (x y : Fin 16) (height : Int) : List Effect :=
  let sprite := (List.range height.toNat).map fun offset : Nat =>
    UInt8.ofInt (state.read (state.index + offset))
  let (display, collided) := state.display.draw sprite (state.registers.get x) (state.registers.get y)
  [.redraw display, .setRegister Instruction.flagRegister (Alu.flag (collided = true))]

/-- The effects of waiting for a key. -/
def waitEffects (state : UnboundedState) (x : Fin 16) : List Effect :=
  match (List.finRange 16).filter fun key => state.keypad.get key with
  | [] => [.hold]
  | key :: _ => [.setRegister x key.val]

/-- The store of a value some cells after the index. -/
def storeAt (state : UnboundedState) (offset : Nat) (value : Int) : Effect :=
  .store (location (state.index + offset)) value

/-- The index moves past a transfer of registers in the older dialect. -/
def afterTransfer (state : UnboundedState) (x : Fin 16) : List Effect :=
  if state.dialect.modern then [] else [.advanceIndex (x.val + 1)]

/-- What an instruction does in a state whose program counter is already past it. -/
def effects (state : UnboundedState) : Instruction → Except Fault (List Effect)
  | .clearScreen => .ok [.redraw .blank]
  | .ret =>
    if state.pointer ≤ 0 then .error .stackUnderflow
    else .ok [.pop, .jump (state.slots.get (Bits.lowNibble state.pointer))]
  | .machineCall address word =>
    .error (.notImplemented ("SYS 0x" ++ Numeral.hex 3 address) word)
  | .jump address => .ok [.jump address]
  | .call address =>
    if 16 ≤ state.pointer + 1 then .error (.stackOverflow state.pointer)
    else .ok [.push state.pc, .jump address]
  | .skip condition wanted => .ok (if state.holds condition = wanted then [.skip] else [])
  | .load x value => .ok [.setRegister x value]
  | .add x value => .ok [.setRegister x ((state.registers.get x + value) % 256)]
  | .combine operation x y => .ok (state.combineEffects operation x y)
  | .loadIndex address => .ok [.setIndex (address % 4096)]
  | .jumpOffset address => .ok [.jump (state.registers.get (Bits.lowNibble 0) + address)]
  | .random x mask =>
    .ok [.setRegister x (Bits.and state.randomKey.draw.toNat mask),
      .reseed state.randomKey.next]
  | .draw x y height => .ok (state.drawEffects x y height)
  | .readDelay x => .ok [.setRegister x state.delayTimer]
  | .waitKey x => .ok (state.waitEffects x)
  | .writeDelay x => .ok [.setDelay (state.registers.get x)]
  | .writeSound x => .ok [.setSound (state.registers.get x)]
  | .addIndex x => .ok [.setIndex ((state.index + state.registers.get x) % 65536)]
  | .glyph x => .ok [.setIndex (state.registers.get x * Memory.glyphHeight)]
  | .decimal x =>
    .ok [state.storeAt 0 (state.registers.get x / 100),
      state.storeAt 1 (state.registers.get x / 10 % 10), state.storeAt 2 (state.registers.get x % 10)]
  | .storeRegisters x =>
    .ok ((Instruction.upTo x).map (fun k : Fin 16 => state.storeAt k (state.registers.get k)) ++
      state.afterTransfer x)
  | .loadRegisters x =>
    .ok ((Instruction.upTo x).map (fun k : Fin 16 => .setRegister k (state.read (state.index + k))) ++
      state.afterTransfer x)

/-- The state after the instruction of a word. -/
def execute (state : UnboundedState) (word : Int) : Except Fault UnboundedState := do
  let opcode := Opcode.decode word
  let entry ← instructionSet.lookup opcode
  let instruction ← entry.action.read opcode
  let effects ← state.effects instruction
  return state.applyAll effects

/-! ## Runs -/

/-- A step that does not pause goes past a word that is not run, and stays at a fault of the call
stack. -/
def step (state : UnboundedState) : UnboundedState :=
  match state.advance.execute state.word with
  | .ok after => after
  | .error fault => if fault.isStackFault then state else state.advance

/-- A program in its area, and everything else cleared but the rest of memory, the keypad, the
random key and the dialect. -/
def load (state : UnboundedState) (rom : List UInt8) : UnboundedState :=
  applyAll (Effect.stores Memory.programStart (rom.map fun byte => byte.toNat))
    { state with
      registers := Vector.replicate 16 0
      index := 0
      pc := 0x200
      slots := Vector.replicate 16 0
      pointer := 0
      delayTimer := 0
      soundTimer := 0
      display := .blank }

/-- One tick of the delay timer. -/
def tickDelay (state : UnboundedState) : UnboundedState :=
  { state with delayTimer := max state.delayTimer 1 - 1 }

/-- One tick of the sound timer. -/
def tickSound (state : UnboundedState) : UnboundedState :=
  { state with soundTimer := max state.soundTimer 1 - 1 }

/-- A key put up or down; there are no others than the sixteen. -/
def setKey (state : UnboundedState) (key : Int) (down : Bool) : UnboundedState :=
  if 0 ≤ key ∧ key < 16 then
    { state with keypad := put state.keypad (Bits.lowNibble key) down }
  else
    state

/-- The state of a new machine. -/
def initial (seed : Int) (dialect : Dialect) : UnboundedState :=
  applyAll (Effect.stores 0 (Memory.font.map fun byte => byte.toNat))
    { memory := Vector.replicate 4096 0
      registers := Vector.replicate 16 0
      index := 0
      pc := 0x200
      slots := Vector.replicate 16 0
      pointer := 0
      delayTimer := 0
      soundTimer := 0
      keypad := Vector.replicate 16 false
      display := .blank
      randomKey := RandomSource.ofSeed seed
      dialect := dialect }

/-- What a single command makes of the state, if the machine does not pause. -/
def obey (state : UnboundedState) : Command → UnboundedState
  | .load rom => if Memory.programCapacity < rom.length then state else state.load rom
  | .step => state.step
  | .tickDelay => state.tickDelay
  | .tickSound => state.tickSound
  | .tick => state.tickDelay.tickSound
  | .pressKey key => state.setKey key true
  | .releaseKey key => state.setKey key false
  | _ => state

/-- The state after the commands of a history.  Of the replies only the pauses are heeded. -/
def replay (state : UnboundedState) : List Turn → UnboundedState
  | [] => state
  | turn :: past => (if turn.isPause then state else state.obey turn.command).replay past

theorem replay_concat (state : UnboundedState) (past : List Turn) (turn : Turn) :
    state.replay (past ++ [turn]) =
      if turn.isPause then state.replay past else (state.replay past).obey turn.command := by
  induction past generalizing state with
  | nil => rfl
  | cons first past ih => exact ih _

end UnboundedState

/-! ## What instructions read -/

section Reading

open UnboundedState (location)

variable (state : State)

omit [RandomSource] in
theorem val_location (address : Nat) : (location address).val = address % 4096 := by
  simp only [location]
  omega

omit [RandomSource] in
theorem get_map {Value Number : Type} {size : Nat} (values : Vector Value size)
    (number : Value → Number) (place : Fin size) :
    (values.map number).get place = number (values.get place) :=
  Vector.getElem_map number place.isLt

theorem registers_unbounded (x : Fin 16) : state.unbounded.registers.get x = state.register x :=
  get_map state.registers (fun byte => (byte.toNat : Int)) x

theorem read_unbounded (address : Nat) :
    state.unbounded.read address = (state.memory.read address).toNat := by
  have named := val_location address
  simp only [UnboundedState.read, State.unbounded, get_map, Memory.read, ← named]
  rfl

theorem word_unbounded : state.unbounded.word = state.word := by
  have second : state.unbounded.pc + 1 = (state.pc.toNat + 1 : Nat) := rfl
  rw [UnboundedState.word, second, read_unbounded, show state.unbounded.pc = state.pc.toNat from rfl,
    read_unbounded]
  rfl

theorem holds_unbounded (condition : Condition) :
    state.unbounded.holds condition = condition.holds state := by
  cases condition with
  | equalsByte x value => rw [UnboundedState.holds, registers_unbounded]; rfl
  | equalsRegister x y =>
      rw [UnboundedState.holds, registers_unbounded, registers_unbounded, Bool.eq_iff_iff]
      simp only [Condition.holds, beq_iff_eq]
      exact Int.natCast_inj
  | keyDown x =>
      have named : (Bits.lowNibble (state.register x)).val = state.register x % 16 := by
        simp only [Bits.lowNibble]
        omega
      simp only [UnboundedState.holds, registers_unbounded, Condition.holds, ← named]
      rfl

theorem val_location_index (offset : Nat) :
    (location (state.unbounded.index + offset)).val = Instruction.cell state offset :=
  val_location (state.index.toNat + offset)

theorem read_index_unbounded (offset : Nat) :
    state.unbounded.read (state.unbounded.index + offset) =
      (state.memory.read (Instruction.cell state offset)).toNat := by
  rw [Instruction.cell, Memory.read_mod, ← read_unbounded]
  rfl

theorem combineEffects_unbounded (operation : Alu) (x y : Fin 16) :
    state.unbounded.combineEffects operation x y =
      Instruction.combineEffects state operation x y := by
  have shifted : state.unbounded.registers.get
      (if operation.isShift && !state.unbounded.dialect.modern then y else x) =
        Instruction.leftOperand state operation x y := by
    rw [registers_unbounded, Instruction.leftOperand, apply_ite state.register]
    rfl
  simp only [UnboundedState.combineEffects, shifted, registers_unbounded]
  rfl

theorem drawEffects_unbounded (x y : Fin 16) (height : Int) :
    state.unbounded.drawEffects x y height = Instruction.drawEffects state x y height := by
  have rows : (fun offset : Nat =>
      UInt8.ofInt (state.unbounded.read (state.unbounded.index + offset))) =
        fun offset => state.memory.read (Instruction.cell state offset) := by
    funext offset
    rw [read_index_unbounded, ofInt_toNat_uint8]
  rw [UnboundedState.drawEffects, rows, registers_unbounded, registers_unbounded]
  rfl

theorem storeAt_unbounded (offset : Nat) (value : Int) :
    state.unbounded.storeAt offset value = .store (Instruction.cell state offset) value := by
  rw [UnboundedState.storeAt, val_location_index]

/-- Over the numbers of a state an instruction does what it does in the state. -/
theorem effects_unbounded (instruction : Instruction) :
    state.unbounded.effects instruction = instruction.effects state := by
  cases instruction with
  | ret =>
      rw [Instruction.effects_ret]
      simp only [UnboundedState.effects, State.unbounded, get_map]
      rfl
  | call address =>
      rw [Instruction.effects_call]
      rfl
  | skip condition wanted => rw [UnboundedState.effects, holds_unbounded]; rfl
  | add x value =>
      rw [UnboundedState.effects, registers_unbounded]; rfl
  | combine operation x y => rw [UnboundedState.effects, combineEffects_unbounded]; rfl
  | draw x y height => rw [UnboundedState.effects, drawEffects_unbounded]; rfl
  | decimal x =>
      simp only [UnboundedState.effects, registers_unbounded, storeAt_unbounded]
      rfl
  | storeRegisters x =>
      simp only [UnboundedState.effects, registers_unbounded, storeAt_unbounded]
      rfl
  | loadRegisters x =>
      simp only [UnboundedState.effects, read_index_unbounded]
      rfl
  | jumpOffset | writeDelay | writeSound | addIndex | glyph =>
      simp only [UnboundedState.effects, registers_unbounded]
      rfl
  | _ => rfl

end Reading

end Chip8
