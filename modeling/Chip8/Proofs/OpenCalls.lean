import Chip8.Proofs.Effects
import Chip8.Proofs.History

/-!
# The call stack as a list

The return addresses of the open calls can be read off the history of a machine: a load forgets
them, a call that has been run adds the address after it and a return that has been run takes the
newest one away.  The call stack holds just this list in the slots from one up to its pointer,
whatever earlier calls have left in the slots above.
-/

namespace Chip8

/-! ## Open calls of a history -/

/-- The return addresses after a step, oldest first. -/
def callsAfterStep (calls : List Int) (result : StepResult) : List Int :=
  if result.status ≠ .ok then calls
  else if result.word / 4096 = 2 then calls ++ [(result.address + 2) % 65536]
  else if result.word = 0x00EE then calls.dropLast
  else calls

/-- The return addresses after a turn. -/
def callsAfterTurn (calls : List Int) : Turn → List Int
  | ⟨.load _, .ok _⟩ => []
  | ⟨.step, .ok (.stepped result)⟩ => callsAfterStep calls result
  | _ => calls

/-- The return addresses of the calls that are open after a history, oldest first. -/
def openCalls (past : List Turn) : List Int :=
  past.foldl callsAfterTurn []

theorem openCalls_concat (past : List Turn) (turn : Turn) :
    openCalls (past ++ [turn]) = callsAfterTurn (openCalls past) turn := by
  simp [openCalls]

/-! ## Stacks that hold a list -/

namespace CallStack

/-- A stack holds a list of return addresses, oldest first, in the slots from one up to its pointer.
-/
structure Holds (stack : CallStack) (calls : List Int) : Prop where
  /-- The pointer counts the open calls. -/
  pointer : stack.pointer = calls.length
  /-- There is no room for more than fifteen. -/
  room : calls.length ≤ 15
  /-- The lowest slot is not used. -/
  bottom : stack.slots[0] = 0
  /-- The other slots up to the pointer hold the list. -/
  used : ∀ (position : Nat) (inside : position < calls.length),
    (stack.slots[position + 1].toNat : Int) = calls[position]

theorem holds_empty : empty.Holds [] where
  pointer := rfl
  room := by decide
  bottom := rfl
  used position inside := by simp at inside

theorem Holds.slots {stack : CallStack} {calls : List Int} (holds : stack.Holds calls) :
    (stack.slots.toList.map fun slot => (slot.toNat : Int)).take (calls.length + 1) =
      0 :: calls := by
  have room := holds.room
  apply List.ext_getElem
  · simp
    omega
  · intro position left right
    cases position with
    | zero => simp [holds.bottom]
    | succ position =>
        simp only [List.length_cons] at right
        simpa using holds.used position (by omega)

theorem Holds.place {stack : CallStack} {calls : List Int} {address : Int}
    (holds : stack.Holds calls) (free : calls.length < 15)
    (inside : 0 ≤ address ∧ address < 65536) :
    (stack.place address).Holds (calls ++ [address]) := by
  have target : (Bits.lowNibble (stack.pointer + 1)).val = calls.length + 1 := by
    simp only [Bits.lowNibble, holds.pointer]
    omega
  refine ⟨?_, ?_, ?_, ?_⟩
  · simp [CallStack.place, holds.pointer]
  · simp
    omega
  · simp [CallStack.place, target, holds.bottom]
  · intro position below
    simp only [List.length_append, List.length_singleton] at below
    simp only [CallStack.place, target, Vector.getElem_set, Nat.add_right_cancel_iff]
    split
    · rename_i newest
      subst newest
      rw [toNat_ofInt_uint16, List.getElem_concat_length rfl]
      omega
    · rename_i older
      rw [List.getElem_append_left (by omega)]
      exact holds.used position (by omega)

theorem Holds.drop {stack : CallStack} {calls : List Int} (holds : stack.Holds calls)
    (open_call : calls ≠ []) : stack.drop.Holds calls.dropLast := by
  have positive := List.length_pos_iff.mpr open_call
  have room := holds.room
  have pointer := holds.pointer
  refine ⟨?_, ?_, holds.bottom, ?_⟩
  · simp only [CallStack.drop, List.length_dropLast]
    omega
  · simp only [List.length_dropLast]
    omega
  · intro position below
    simp only [List.length_dropLast] at below
    rw [List.getElem_dropLast]
    exact holds.used position (by omega)

theorem Holds.getLast?_eq_top {stack : CallStack} {calls : List Int} (holds : stack.Holds calls)
    (open_call : calls ≠ []) : calls.getLast? = some (stack.top.toNat : Int) := by
  have positive := List.length_pos_iff.mpr open_call
  have room := holds.room
  have newest : (Bits.lowNibble stack.pointer).val = calls.length - 1 + 1 := by
    simp only [Bits.lowNibble, holds.pointer]
    omega
  have held := holds.used (calls.length - 1) (by omega)
  rw [List.getLast?_eq_getElem?, List.getElem?_eq_getElem (by omega), ← held]
  simp [CallStack.top, newest]

end CallStack

/-! ## Steps -/

/-- Nothing but a call or a return that has been run changes the open calls. -/
theorem callsAfterStep_eq_self {calls : List Int} {result : StepResult}
    (other : result.status = .ok → result.word / 4096 ≠ 2 ∧ result.word ≠ 0x00EE) :
    callsAfterStep calls result = calls := by
  by_cases ok : result.status = .ok
  · simp [callsAfterStep, ok, other ok]
  · simp [callsAfterStep, ok]

variable [RandomSource]

namespace CallStack.Holds

variable {state : State} {calls : List Int} {effects : List Effect}

theorem call {address : Int} (holds : state.stack.Holds calls)
    (acts : (Instruction.call address).effects state.advance = .ok effects) :
    (Effect.applyAll effects state.advance).stack.Holds
      (calls ++ [((state.pc.toNat : Int) + 2) % 65536]) := by
  rw [Instruction.effects_call] at acts
  split at acts
  · cases acts
  · rename_i free
    cases acts
    change ¬16 ≤ state.stack.pointer + 1 at free
    have pointer := holds.pointer
    simp only [Effect.applyAll_cons, Effect.applyAll_nil, Effect.apply, toNat_pc_advance]
    exact holds.place (by omega) (by omega)

theorem ret (holds : state.stack.Holds calls)
    (acts : Instruction.ret.effects state.advance = .ok effects) :
    (Effect.applyAll effects state.advance).stack.Holds calls.dropLast ∧
      calls.getLast? = some ((Effect.applyAll effects state.advance).pc.toNat : Int) := by
  rw [Instruction.effects_ret] at acts
  split at acts
  · cases acts
  · rename_i open_call
    cases acts
    change ¬state.stack.pointer ≤ 0 at open_call
    have pointer := holds.pointer
    have some_call : calls ≠ [] := by
      rintro rfl
      simp only [List.length_nil] at pointer
      omega
    refine ⟨holds.drop some_call, ?_⟩
    have small := state.stack.top.toNat_lt
    have same : state.advance.stack.top = state.stack.top := rfl
    simp only [Effect.applyAll_cons, Effect.applyAll_nil, Effect.apply, same, toNat_ofInt_uint16]
    rw [holds.getLast?_eq_top some_call, Int.emod_eq_of_lt (by omega) (by omega)]

theorem other {instruction : Instruction} (holds : state.stack.Holds calls)
    (acts : instruction.effects state.advance = .ok effects)
    (other : ¬((∃ address, instruction = .call address) ∨ instruction = .ret)) :
    (Effect.applyAll effects state.advance).stack.Holds calls := by
  rw [← Instruction.stack_mem_targets_iff instruction state.advance] at other
  have kept : (Effect.applyAll effects state.advance).stack = state.stack :=
    Instruction.kept_of_not_mem_targets acts other
  rw [kept]
  exact holds

end CallStack.Holds

namespace Machine

/-- A step changes the open calls as its report says. -/
theorem holds_step {machine next : Machine} {result : StepResult} {calls : List Int}
    (holds : machine.state.stack.Holds calls) (step : machine.step = .ok (result, next)) :
    next.state.stack.Holds (callsAfterStep calls result) := by
  cases stepsTo_of_step step with
  | paused | invalid | refused | awaiting =>
      rw [callsAfterStep_eq_self (by rintro ⟨⟩)]
      exact holds
  | @completed entry mnemonic instruction effects runs decodes no_wait acts =>
      by_cases moves : (∃ address, instruction = .call address) ∨ instruction = .ret
      · rcases moves with ⟨address, rfl⟩ | rfl
        · have word := (call_iff_word decodes).mp ⟨address, rfl⟩
          simpa [callsAfterStep, report, proceed, word] using holds.call acts
        · have word := (ret_iff_word decodes).mp rfl
          simpa [callsAfterStep, report, proceed, word] using (holds.ret acts).1
      · rw [callsAfterStep_eq_self]
        · exact holds.other acts moves
        · intro ok
          refine ⟨fun class_two => ?_, fun lowest => ?_⟩
          · exact moves (.inl ((call_iff_word decodes).mpr class_two))
          · exact moves (.inr ((ret_iff_word decodes).mpr lowest))

/-! ## Commands -/

/-- A turn changes the open calls as its reply says. -/
theorem holds_perform {machine : Machine} {calls : List Int} {command : Command}
    (single : command.isBatch = false) (holds : machine.state.stack.Holds calls) :
    (machine.perform command).machine.state.stack.Holds
      (callsAfterTurn calls ⟨command, (machine.perform command).reply⟩) := by
  rcases Command.step_or_request single with rfl | request
  · cases step : machine.step with
    | error fault =>
        rw [perform_step_error step]
        exact holds
    | ok outcome =>
        obtain ⟨result, next⟩ := outcome
        rw [perform_step_ok step]
        exact holds_step holds step
  · cases granted : command.onState machine.state with
    | error fault =>
        rw [perform_request_error request granted]
        cases command <;> exact holds
    | ok state =>
        obtain ⟨reply, state_eq⟩ := perform_request_ok request granted
        rw [reply, state_eq]
        cases command with
        | step | run => cases request
        | load rom =>
            obtain ⟨-, rfl⟩ := State.load_eq_ok granted
            exact CallStack.holds_empty
        | pressKey key | releaseKey key =>
            obtain ⟨-, rfl⟩ := State.setKey_eq_ok granted
            exact holds
        | _ =>
            cases granted
            exact holds

/-- The call stack holds the open calls of the history. -/
theorem holds_openCalls (seed : Int) (dialect : Dialect) (commands : List Command) :
    ((create seed dialect).after commands).state.stack.Holds
      (openCalls ((create seed dialect).history commands)) := by
  refine history_invariant
    (fun machine past => machine.state.stack.Holds (openCalls past)) ?_ ?_ commands
  · intro machine past command single holds
    rw [openCalls_concat]
    exact holds_perform single holds
  · exact CallStack.holds_empty

/-! ## Faults and returns -/

/-- A step faults exactly on a call that the list has no room for and on a return without a call. -/
theorem step_error_iff_of_holds {machine : Machine} {calls : List Int} {fault : Fault}
    (holds : machine.state.stack.Holds calls) :
    machine.step = .error fault ↔
      machine.pauses = false ∧
        (machine.state.word / 4096 = 2 ∧ calls.length = 15 ∧ fault = .stackOverflow 15 ∨
          machine.state.word = 0x00EE ∧ calls = [] ∧ fault = .stackUnderflow) := by
  have pointer := holds.pointer
  have room := holds.room
  have full : machine.state.stack.pointer = 15 ↔ calls.length = 15 := by omega
  have no_call : machine.state.stack.pointer = 0 ↔ calls = [] := by
    rw [← List.length_eq_zero_iff]
    omega
  rw [step_error_iff (by omega) (by omega), full, no_call]

theorem status_step_of_call {machine next : Machine} {result : StepResult}
    (runs : machine.pauses = false) (class_two : machine.state.word / 4096 = 2)
    (step : machine.step = .ok (result, next)) : result.status = .ok := by
  obtain ⟨entry, mnemonic, address, decodes⟩ := exists_decodes_call class_two
  rw [step_of_no_wait runs decodes rfl, Instruction.effects_call] at step
  split at step <;> cases step
  rfl

theorem pc_step_of_ret {machine next : Machine} {calls : List Int} {result : StepResult}
    (holds : machine.state.stack.Holds calls) (runs : machine.pauses = false)
    (lowest : machine.state.word = 0x00EE) (step : machine.step = .ok (result, next)) :
    result.status = .ok ∧ calls.getLast? = some (next.state.pc.toNat : Int) := by
  obtain ⟨entry, mnemonic, decodes⟩ := exists_decodes_ret lowest
  rw [step_of_no_wait runs decodes rfl] at step
  cases acts : Instruction.ret.effects machine.state.advance with
  | error fault =>
      rw [acts] at step
      rw [Instruction.effects_ret] at acts
      split at acts <;> cases acts
      cases step
  | ok effects =>
      rw [acts] at step
      cases step
      exact ⟨rfl, (holds.ret acts).2⟩

/-- After every run the call stack is the list of the open calls: the pointer counts them, the slots
up to it hold them above an unused zero, calls and returns that fault are the ones that the list
refuses, and a return goes to the newest call. -/
theorem call_stack_refines_open_calls (seed : Int) (dialect : Dialect) (commands : List Command) :
    let machine := (create seed dialect).after commands
    let calls := openCalls ((create seed dialect).history commands)
    (machine.state.stack.pointer = calls.length ∧ calls.length ≤ 15) ∧
      (machine.state.stack.slots.toList.map fun slot => (slot.toNat : Int)).take
          (calls.length + 1) = 0 :: calls ∧
      (∀ fault, machine.step = .error fault ↔
        machine.pauses = false ∧
          (machine.state.word / 4096 = 2 ∧ calls.length = 15 ∧ fault = .stackOverflow 15 ∨
            machine.state.word = 0x00EE ∧ calls = [] ∧ fault = .stackUnderflow)) ∧
      (∀ result next, machine.step = .ok (result, next) →
        (result.address = machine.state.pc.toNat ∧ result.word = machine.state.word) ∧
          (machine.pauses = false → machine.state.word / 4096 = 2 → result.status = .ok) ∧
          (machine.pauses = false → machine.state.word = 0x00EE →
            result.status = .ok ∧ calls.getLast? = some (next.state.pc.toNat : Int))) := by
  intro machine calls
  have holds : machine.state.stack.Holds calls := holds_openCalls seed dialect commands
  refine ⟨⟨holds.pointer, holds.room⟩, holds.slots, ?_, ?_⟩
  · intro fault
    exact step_error_iff_of_holds holds
  · intro result next step
    refine ⟨step_reports step, ?_, ?_⟩
    · intro runs class_two
      exact status_step_of_call runs class_two step
    · intro runs lowest
      exact pc_step_of_ret holds runs lowest step

end Machine
end Chip8
