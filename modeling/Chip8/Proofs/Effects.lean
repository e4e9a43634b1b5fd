import Chip8.Instruction

/-!
# Frames of effects

Each effect writes to one component of the state.  A part of the state that no effect of a list
writes to is the same after the whole list.
-/

namespace Chip8

/-- A component of the state that effects write to. -/
inductive Component where
  /-- One register. -/
  | register (x : Fin 16)
  /-- The index register. -/
  | index
  /-- The program counter. -/
  | pc
  /-- One memory cell. -/
  | cell (address : Nat)
  /-- The delay timer. -/
  | delayTimer
  /-- The sound timer. -/
  | soundTimer
  /-- The screen. -/
  | display
  /-- The call stack. -/
  | stack
  /-- The key of the random stream. -/
  | randomKey
  deriving DecidableEq

/-- The integer that a sixteen-bit register keeps of a value. -/
theorem toNat_ofInt_uint16 (value : Int) : ((UInt16.ofInt value).toNat : Int) = value % 65536 := by
  have inside : (value % 65536).toNat < 65536 := by omega
  simp only [UInt16.ofInt, UInt16.toNat_ofNat']
  omega

theorem toNat_ofInt_uint8 (value : Int) : ((UInt8.ofInt value).toNat : Int) = value % 256 := by
  have inside : (value % 256).toNat < 256 := by omega
  simp only [UInt8.ofInt, UInt8.toNat_ofNat']
  omega

theorem ofInt_natCast_uint8 (value : Nat) : UInt8.ofInt value = UInt8.ofNat value := by
  have kept := toNat_ofInt_uint8 value
  apply UInt8.toNat_inj.mp
  rw [UInt8.toNat_ofNat']
  omega

theorem ofInt_toNat_uint8 (byte : UInt8) : UInt8.ofInt (byte.toNat : Int) = byte := by
  have bound := byte.toNat_lt
  have kept := toNat_ofInt_uint8 byte.toNat
  apply UInt8.toNat_inj.mp
  omega

namespace Alu

/-- Whether an operation tells something by a flag. -/
def hasFlag : Alu → Bool
  | .set => false
  | .or => false
  | .and => false
  | .xor => false
  | _ => true

theorem hasFlag_of_mem {operation : Alu} {strict : Bool} {left right flag : Int}
    (set : flag ∈ (operation.apply strict left right).2.toList) : operation.hasFlag = true := by
  cases operation with
  | set | or | and | xor => cases set
  | _ => rfl

theorem mem_of_hasFlag {operation : Alu} (has_flag : operation.hasFlag = true) :
    operation ∈ [Alu.add, .subtract, .shiftRight, .subtractFrom, .shiftLeft] := by
  cases operation with
  | set | or | and | xor => cases has_flag
  | _ => decide

end Alu

variable [RandomSource]

namespace Effect

/-- The component that an effect writes to. -/
def component : Effect → Component
  | .setRegister register _ => .register register
  | .setIndex _ => .index
  | .advanceIndex _ => .index
  | .jump _ => .pc
  | .skip => .pc
  | .hold => .pc
  | .store address _ => .cell (address % 4096)
  | .setDelay _ => .delayTimer
  | .setSound _ => .soundTimer
  | .redraw _ => .display
  | .push _ => .stack
  | .pop => .stack
  | .reseed _ => .randomKey

/-- What every effect of a list leaves alone is left alone by the list. -/
theorem applyAll_keeps {Value : Type} (view : State → Value) {effects : List Effect}
    (keeps : ∀ effect ∈ effects, ∀ state, view (effect.apply state) = view state) (state : State) :
    view (applyAll effects state) = view state := by
  induction effects generalizing state with
  | nil => rfl
  | cons effect effects ih =>
      have rest := ih (fun other member => keeps other (List.mem_cons_of_mem effect member))
        (effect.apply state)
      rw [applyAll_cons, rest]
      exact keeps effect List.mem_cons_self state

theorem keypad_applyAll (effects : List Effect) (state : State) :
    (applyAll effects state).keypad = state.keypad :=
  applyAll_keeps State.keypad (fun effect _ _ => by cases effect <;> rfl) state

theorem dialect_applyAll (effects : List Effect) (state : State) :
    (applyAll effects state).dialect = state.dialect :=
  applyAll_keeps State.dialect (fun effect _ _ => by cases effect <;> rfl) state

end Effect

/-- A component holds the same in two states. -/
def Component.Kept (before after : State) : Component → Prop
  | .register x => after.register x = before.register x
  | .index => after.index = before.index
  | .pc => after.pc = before.pc
  | .cell address => address < 4096 → after.memory.read address = before.memory.read address
  | .delayTimer => after.delayTimer = before.delayTimer
  | .soundTimer => after.soundTimer = before.soundTimer
  | .display => after.display = before.display
  | .stack => after.stack = before.stack
  | .randomKey => after.randomKey = before.randomKey

theorem Component.Kept.refl (component : Component) (state : State) :
    component.Kept state state := by
  cases component with
  | cell address => exact fun _ => rfl
  | _ => rfl

theorem Component.Kept.trans {component : Component} {before middle after : State}
    (first : component.Kept before middle) (second : component.Kept middle after) :
    component.Kept before after := by
  cases component with
  | cell address => exact fun inside => (second inside).trans (first inside)
  | _ => exact Eq.trans second first

namespace Effect

/-- An effect keeps every component but the one that it writes to. -/
theorem kept_apply {effect : Effect} {component : Component}
    (other : effect.component ≠ component) (state : State) :
    component.Kept state (effect.apply state) := by
  cases component with
  | register x =>
      cases effect with
      | setRegister register value =>
          have apart : register.val ≠ x.val := by
            intro same
            exact other (congrArg Component.register (Fin.ext same))
          exact congrArg UInt8.toNat (Vector.getElem_set_ne register.isLt x.isLt apart)
      | _ => rfl
  | cell address =>
      intro inside
      cases effect with
      | store target value =>
          have apart : target % 4096 ≠ address % 4096 := by
            intro same
            rw [Nat.mod_eq_of_lt inside] at same
            exact other (congrArg Component.cell same)
          exact (Memory.read_write _ _ _ _).trans (if_neg apart)
      | _ => rfl
  | index =>
      cases effect with
      | setIndex | advanceIndex => exact (other rfl).elim
      | _ => rfl
  | pc =>
      cases effect with
      | jump | skip | hold => exact (other rfl).elim
      | _ => rfl
  | delayTimer =>
      cases effect with
      | setDelay => exact (other rfl).elim
      | _ => rfl
  | soundTimer =>
      cases effect with
      | setSound => exact (other rfl).elim
      | _ => rfl
  | display =>
      cases effect with
      | redraw => exact (other rfl).elim
      | _ => rfl
  | stack =>
      cases effect with
      | push | pop => exact (other rfl).elim
      | _ => rfl
  | randomKey =>
      cases effect with
      | reseed => exact (other rfl).elim
      | _ => rfl

theorem kept_applyAll {effects : List Effect} {component : Component}
    (others : ∀ effect ∈ effects, effect.component ≠ component) (state : State) :
    component.Kept state (applyAll effects state) := by
  induction effects generalizing state with
  | nil => exact .refl component state
  | cons effect effects ih =>
      have first := kept_apply (others effect List.mem_cons_self) state
      have rest := ih (fun other member => others other (List.mem_cons_of_mem effect member))
        (effect.apply state)
      exact first.trans rest

end Effect

namespace Instruction

/-- The index is written to after a transfer of registers unless the dialect is modern. -/
def transferTargets (state : State) : List Component :=
  if state.dialect.modern then [] else [.index]

/-- The components that an instruction may write to, in the state that it is run in. -/
def targets (state : State) : Instruction → List Component
  | .clearScreen => [.display]
  | .ret => [.stack, .pc]
  | .machineCall _ _ => []
  | .jump _ => [.pc]
  | .call _ => [.stack, .pc]
  | .skip _ _ => [.pc]
  | .load x _ => [.register x]
  | .add x _ => [.register x]
  | .combine operation x _ =>
    (if operation.hasFlag then [.register flagRegister] else []) ++ [.register x]
  | .loadIndex _ => [.index]
  | .jumpOffset _ => [.pc]
  | .random x _ => [.register x, .randomKey]
  | .draw _ _ _ => [.display, .register flagRegister]
  | .readDelay x => [.register x]
  | .waitKey x => [.pc, .register x]
  | .writeDelay _ => [.delayTimer]
  | .writeSound _ => [.soundTimer]
  | .addIndex _ => [.index]
  | .glyph _ => [.index]
  | .decimal _ => [.cell (cell state 0), .cell (cell state 1), .cell (cell state 2)]
  | .storeRegisters x =>
    transferTargets state ++ (upTo x).map fun k : Fin 16 => .cell (cell state k)
  | .loadRegisters x => transferTargets state ++ (upTo x).map .register

theorem effects_call (state : State) (address : Int) :
    (Instruction.call address).effects state =
      if 16 ≤ state.stack.pointer + 1 then .error (.stackOverflow state.stack.pointer)
      else .ok [.push state.pc.toNat, .jump address] := by
  simp only [effects, CallStack.checkCall]
  split <;> rfl

theorem effects_ret (state : State) :
    Instruction.ret.effects state =
      if state.stack.pointer ≤ 0 then .error .stackUnderflow
      else .ok [.pop, .jump state.stack.top.toNat] := by
  simp only [effects, CallStack.checkReturn]
  split <;> rfl

theorem component_afterTransfer {state : State} {x : Fin 16} {effect : Effect}
    (member : effect ∈ afterTransfer state x) :
    effect.component = .index ∧ effect.component ∈ transferTargets state := by
  unfold afterTransfer at member
  split at member
  · cases member
  · rename_i old
    rw [List.mem_singleton.mp member]
    simp [Effect.component, transferTargets, old]

/-- An instruction writes to nothing but its targets. -/
theorem component_mem_targets {instruction : Instruction} {state : State} {effects : List Effect}
    (acts : instruction.effects state = .ok effects) :
    ∀ effect ∈ effects, effect.component ∈ instruction.targets state := by
  intro effect member
  cases instruction with
  | machineCall => cases acts
  | ret | call address =>
      simp only [effects_ret, effects_call] at acts
      split at acts
      · cases acts
      cases acts
      simp only [List.mem_cons, List.not_mem_nil, or_false] at member
      rcases member with rfl | rfl <;> simp [Effect.component, targets]
  | skip condition wanted =>
      cases acts
      split at member
      · rw [List.mem_singleton.mp member]
        simp [Effect.component, targets]
      · cases member
  | combine operation x y =>
      cases acts
      simp only [combineEffects, List.mem_append, List.mem_map, List.mem_singleton] at member
      rcases member with ⟨flag, set, rfl⟩ | rfl
      · simp [Effect.component, targets, Alu.hasFlag_of_mem set]
      · simp [Effect.component, targets]
  | waitKey x =>
      cases acts
      unfold waitEffects at member
      split at member <;> rw [List.mem_singleton.mp member] <;> simp [Effect.component, targets]
  | storeRegisters x | loadRegisters x =>
      cases acts
      rcases List.mem_append.mp member with member | member
      · obtain ⟨k, up_to, rfl⟩ := List.mem_map.mp member
        refine List.mem_append_right _ (List.mem_map.mpr ⟨k, up_to, ?_⟩)
        simp [Effect.component, cell]
      · exact List.mem_append_left _ (component_afterTransfer member).2
  | draw | decimal | random =>
      cases acts
      simp only [drawEffects, decimalEffects, List.mem_cons, List.not_mem_nil, or_false] at member
      rcases member with rfl | rfl | rfl <;> simp [Effect.component, targets, cell]
  | _ =>
      cases acts
      rw [List.mem_singleton.mp member]
      simp [Effect.component, targets]

/-- An instruction keeps every component but its targets. -/
theorem kept_of_not_mem_targets {instruction : Instruction} {state : State}
    {effects : List Effect} {component : Component} (acts : instruction.effects state = .ok effects)
    (other : component ∉ instruction.targets state) :
    component.Kept state (Effect.applyAll effects state) := by
  refine Effect.kept_applyAll (fun effect member same => other ?_) state
  rw [← same]
  exact component_mem_targets acts effect member

/-- Only calls and returns write to the call stack. -/
theorem stack_mem_targets_iff (instruction : Instruction) (state : State) :
    .stack ∈ instruction.targets state ↔
      (∃ address, instruction = .call address) ∨ instruction = .ret := by
  cases instruction <;> simp [targets, transferTargets]

end Instruction
end Chip8
