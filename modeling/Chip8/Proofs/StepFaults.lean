import Chip8.Proofs.OpenCalls

/-!
# Steps that fault

A step of a machine in the hands of a host faults on a call when fifteen calls are open and on a
return when none is, and on nothing else, whatever memory holds.  Such a step leaves the machine as
it was and is not shown to observers, so it faults again when it is tried again.
-/

namespace Chip8
namespace Machine

variable [RandomSource]

/-- The call stack has a pointer in its range after every run. -/
theorem pointer_bounds (seed : Int) (dialect : Dialect) (commands : List Command) :
    0 ≤ ((create seed dialect).after commands).state.stack.pointer ∧
      ((create seed dialect).after commands).state.stack.pointer ≤ 15 := by
  have holds := holds_openCalls seed dialect commands
  have pointer := holds.pointer
  have room := holds.room
  constructor <;> omega

section Faults

variable {machine : Machine} (low : 0 ≤ machine.state.stack.pointer)
  (high : machine.state.stack.pointer ≤ 15)

include low high

theorem step_eq_overflow_iff :
    machine.step = .error (.stackOverflow 15) ↔
      machine.pauses = false ∧ machine.state.word / 4096 = 2 ∧
        machine.state.stack.pointer = 15 := by
  rw [step_error_iff low high]
  simp

theorem step_eq_underflow_iff :
    machine.step = .error .stackUnderflow ↔
      machine.pauses = false ∧ machine.state.word = 0x00EE ∧
        machine.state.stack.pointer = 0 := by
  rw [step_error_iff low high]
  simp

theorem stack_fault_of_step {fault : Fault} (step : machine.step = .error fault) :
    fault = .stackOverflow 15 ∨ fault = .stackUnderflow := by
  obtain ⟨-, ⟨-, -, overflow⟩ | ⟨-, -, underflow⟩⟩ := (step_error_iff low high).mp step
  · exact .inl overflow
  · exact .inr underflow

end Faults

/-- After every run a step faults exactly on a call with the pointer at fifteen and on a return with
the pointer at zero, if it does not pause.  With any other memory it faults in no third way.  A step
that faults changes nothing, shows nothing to observers and faults again. -/
theorem steps_fault_on_the_call_stack (seed : Int) (dialect : Dialect) (commands : List Command) :
    let machine := (create seed dialect).after commands
    (machine.step = .error (.stackOverflow 15) ↔
        machine.pauses = false ∧ machine.state.word / 4096 = 2 ∧
          machine.state.stack.pointer = 15) ∧
      (machine.step = .error .stackUnderflow ↔
        machine.pauses = false ∧ machine.state.word = 0x00EE ∧
          machine.state.stack.pointer = 0) ∧
      (∀ memory fault,
        Machine.step { machine with state := { machine.state with memory } } = .error fault →
          fault = .stackOverflow 15 ∨ fault = .stackUnderflow) ∧
      ∀ fault, machine.step = .error fault →
        machine.perform .step = ⟨machine, .error fault, []⟩ ∧
          (machine.perform .step).machine.perform .step = ⟨machine, .error fault, []⟩ := by
  intro machine
  obtain ⟨low, high⟩ := pointer_bounds seed dialect commands
  refine ⟨step_eq_overflow_iff low high, step_eq_underflow_iff low high, ?_, ?_⟩
  · intro memory fault step
    refine stack_fault_of_step ?_ ?_ step
    · exact low
    · exact high
  · intro fault step
    have performed := perform_step_error step
    exact ⟨performed, by rw [performed, performed]⟩

end Machine
end Chip8
