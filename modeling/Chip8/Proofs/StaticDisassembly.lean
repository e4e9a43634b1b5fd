import Chip8.Proofs.DisassemblyViews
import Chip8.Proofs.History
import Chip8.Proofs.Loading
import Chip8.Proofs.WordSteps
import Chip8.Threefry

/-!
# A loaded program, read and run

The disassembly reads the bytes of a program two by two, and a step reads two cells of memory.  Both
find the same word at an even offset into a loaded program for as long as no instruction has stored
to the two cells, and so they show the same of it.  An odd last byte is followed by whatever memory
held behind the program, which has to be zero for the disassembly to be right about it.
-/

namespace Chip8

/-! ## Lines of a program -/

/-- The line at an even offset shows the byte there and the one after it, or zero after the last. -/
theorem Disassembly.at?_eq_some {disassembly : Disassembly} {offset : Nat} (even : offset % 2 = 0)
    (inside : offset < disassembly.rom.length) :
    disassembly.at? (disassembly.start + offset) =
      some (Line.ofWord (disassembly.start + offset)
        (256 * disassembly.rom[offset].toNat +
          (disassembly.rom[offset + 1]?.getD 0).toNat : Nat)) := by
  obtain ⟨rom, start⟩ := disassembly
  obtain ⟨k, rfl⟩ : ∃ k, offset = 2 * k := ⟨offset / 2, by omega⟩
  have doubled : ((2 * k : Nat) : Int) = 2 * k := Int.natCast_mul 2 k
  rw [doubled, at?_start_add, lineAt, List.drop_eq_getElem_cons inside]
  by_cases last : 2 * k + 1 < rom.length
  · rw [List.drop_eq_getElem_cons last, List.getElem?_eq_getElem last]
    rfl
  · have none_left : rom.length ≤ 2 * k + 1 := by omega
    rw [List.drop_eq_nil_of_le none_left, List.getElem?_eq_none none_left]
    rfl

/-! ## Stores into the program -/

section Source

variable [RandomSource]

/-- The next step stores to a cell: it runs a word for decimal digits or for storing registers, and
the cell is among those from the index on that the word fills. -/
def Machine.Stores (machine : Machine) (address : Nat) : Prop :=
  machine.pauses = false ∧
    ((Operation.decimal.Covers machine.state.word ∧
        ∃ k < 3, address = Instruction.cell machine.state k) ∨
      (Operation.storeRegisters.Covers machine.state.word ∧
        ∃ k ≤ (Operand.x.registerIn machine.state.word).val,
          address = Instruction.cell machine.state k))

/-- No step of a run stores to a cell. -/
def Machine.Spares (machine : Machine) (address : Nat) (commands : List Command) : Prop :=
  ∀ done, done ++ [.step] <+: machine.singles commands → ¬(machine.after done).Stores address

namespace Machine

variable {machine : Machine}

theorem read_step {next : Machine} {result : StepResult} {address : Nat} (inside : address < 4096)
    (spared : ¬machine.Stores address) (step : machine.step = .ok (result, next)) :
    next.state.memory.read address = machine.state.memory.read address := by
  cases stepsTo_of_step step with
  | paused | invalid | refused | awaiting => rfl
  | @completed entry mnemonic instruction effects runs decodes no_wait acts =>
      -- The effects start from the advanced state, whose index and memory are those at hand.
      have ran : execute machine.state.advance machine.state.word =
          .ok (Effect.applyAll effects machine.state.advance) := by
        rw [execute_of_decodes decodes, Instruction.execute, acts, ok_bind]
        rfl
      refine Classical.byContradiction fun changed => spared ⟨runs, ?_⟩
      have moved : ¬(Component.cell address).Kept machine.state.advance
          (Effect.applyAll effects machine.state.advance) :=
        fun kept => changed (kept inside)
      obtain ⟨operation, covers, ⟨rfl, among⟩ | ⟨rfl, among⟩⟩ := exists_writer ran _ moved
      · exact .inl ⟨covers, among⟩
      · exact .inr ⟨covers, among⟩

/-- A single command that is no load keeps a cell that it does not store to. -/
theorem read_perform {command : Command} {address : Nat} (single : command.isBatch = false)
    (no_load : command.isLoad = false) (inside : address < 4096)
    (spared : command = .step → ¬machine.Stores address) :
    (machine.perform command).machine.state.memory.read address =
      machine.state.memory.read address := by
  rcases Command.step_or_request single with rfl | request
  · cases step : machine.step with
    | error fault => rw [perform_step_error step]
    | ok outcome =>
        rw [perform_step_ok step]
        exact read_step inside (spared rfl) step
  · cases outcome : command.onState machine.state with
    | error fault => rw [perform_request_error request outcome]
    | ok state =>
        rw [(perform_request_ok request outcome).2, Command.memory_of_onState no_load outcome]

section Runs

variable {commands : List Command} (no_load : ∀ command ∈ commands, command.isLoad = false)

include no_load

theorem single_of_prefix {done : List Command} {command : Command}
    (early : done ++ [command] <+: machine.singles commands) :
    command.isBatch = false ∧ command.isLoad = false := by
  have member : command ∈ machine.singles commands :=
    early.subset (List.mem_append_right done (List.mem_singleton_self command))
  refine ⟨(machine.singles_spec commands).1 command member, ?_⟩
  rcases step_or_mem_of_mem_singles member with rfl | member
  · rfl
  · exact no_load command member

/-- A run without loads keeps the program. -/
theorem rom_after : (machine.after commands).rom = machine.rom := by
  refine after_keeps Machine.rom fun done command early => ?_
  obtain ⟨single, other⟩ := single_of_prefix no_load early
  exact rom_perform single other

/-- A run without loads keeps a cell that none of its steps stores to. -/
theorem read_after {address : Nat} (inside : address < 4096)
    (spared : machine.Spares address commands) :
    (machine.after commands).state.memory.read address = machine.state.memory.read address := by
  refine after_keeps (fun current => current.state.memory.read address) fun done command early => ?_
  obtain ⟨single, other⟩ := single_of_prefix no_load early
  refine read_perform single other inside ?_
  rintro rfl
  exact spared done early

end Runs

/-! ## Loading -/

section Loading

variable (machine : Machine) {rom : List UInt8} (fits : rom.length ≤ 3584)

include fits

theorem perform_load :
    (machine.perform (.load rom)).reply = .ok .done ∧
      (machine.perform (.load rom)).machine.rom = rom ∧
      (machine.perform (.load rom)).machine.state.memory =
        machine.state.memory.writeAll 0x200 rom := by
  rw [perform_load_ok (State.load_of_fits fits machine.state)]
  exact ⟨rfl, rfl, rfl⟩

/-- Memory holds the program and behind it what it held before. -/
theorem read_load {offset : Nat} (inside : offset < rom.length) :
    (machine.perform (.load rom)).machine.state.memory.read (0x200 + offset) = rom[offset] := by
  rw [(machine.perform_load fits).2.2]
  exact Memory.read_writeAll_inside (by omega) inside

/-- The cell after a byte of the program holds the next byte of it, or zero behind an odd program
if it did before. -/
theorem read_load_next {offset : Nat} (even : offset % 2 = 0) (inside : offset < rom.length)
    (padded : offset + 1 = rom.length → machine.state.memory.read (0x200 + rom.length) = 0) :
    (machine.perform (.load rom)).machine.state.memory.read (0x200 + offset + 1) =
      rom[offset + 1]?.getD 0 := by
  by_cases last : offset + 1 = rom.length
  · have outside : ∀ k < rom.length, (0x200 + k) % 4096 ≠ (0x200 + rom.length) % 4096 := by
      intro k below
      omega
    have behind : 0x200 + offset + 1 = 0x200 + rom.length := by omega
    rw [(machine.perform_load fits).2.2, behind, Memory.read_writeAll_outside outside, padded last,
      List.getElem?_eq_none (by omega)]
    rfl
  · have next : offset + 1 < rom.length := by omega
    rw [List.getElem?_eq_getElem next]
    exact machine.read_load fits next

end Loading

/-! ## Reading against running -/

/-- After a load, and for as long as nothing is loaded and no step stores to the two cells at an
even offset into the program, a step at that offset shows the word that the disassembly shows there,
and, unless it pauses, the same mnemonic and validity.  At an odd last byte this takes a cell behind
the program that was zero before the load. -/
theorem disassembly_agrees_with_steps (machine : Machine) (rom : List UInt8)
    (commands : List Command) (offset : Nat) (fits : rom.length ≤ 3584)
    (no_load : ∀ command ∈ commands, command.isLoad = false)
    (even : offset % 2 = 0) (inside : offset < rom.length)
    (padded : offset + 1 = rom.length → machine.state.memory.read (0x200 + rom.length) = 0)
    (spared : (machine.perform (.load rom)).machine.Spares (0x200 + offset) commands)
    (spared_next : (machine.perform (.load rom)).machine.Spares (0x200 + offset + 1) commands) :
    let current := (machine.perform (.load rom)).machine.after commands
    (machine.perform (.load rom)).reply = .ok .done ∧
      ∃ line, current.disassembly.at? (0x200 + offset) = some line ∧
        ∀ result next, current.step = .ok (result, next) → result.address = 0x200 + offset →
          result.word = line.word ∧
            (result.status ≠ .pausedAtBreakpoint →
              result.mnemonic = line.mnemonic ∧
                (result.status = .invalidOpcode ↔ line.valid = false)) := by
  intro current
  have loaded := machine.perform_load fits
  have program : current.rom = rom := (rom_after no_load).trans loaded.2.1
  have high : current.state.memory.read (0x200 + offset) = rom[offset] :=
    (read_after no_load (by omega) spared).trans (machine.read_load fits inside)
  have low : current.state.memory.read (0x200 + offset + 1) = rom[offset + 1]?.getD 0 :=
    (read_after no_load (by omega) spared_next).trans
      (machine.read_load_next fits even inside padded)
  have shown : current.disassembly.at? (0x200 + offset) =
      some (Line.ofWord (0x200 + offset)
        (256 * rom[offset].toNat + (rom[offset + 1]?.getD 0).toNat : Nat)) := by
    rw [disassembly, program]
    exact Disassembly.at?_eq_some even inside
  refine ⟨loaded.1, _, shown, ?_⟩
  intro result next step address
  obtain ⟨at_pc, at_word⟩ := step_reports step
  have pc : current.state.pc.toNat = 0x200 + offset := by omega
  have word : current.state.word =
      256 * rom[offset].toNat + (rom[offset + 1]?.getD 0).toNat := by
    rw [State.word, Memory.word, pc, high, low]
  refine ⟨by rw [at_word, word]; rfl, ?_⟩
  intro no_pause
  have runs : current.pauses = false := by
    rw [← Bool.not_eq_true, ← status_step_eq_paused_iff step]
    exact no_pause
  obtain ⟨mnemonic, valid⟩ := describeWord_step runs step
  rw [word] at mnemonic valid
  exact ⟨mnemonic, valid.symm⟩

end Machine

end Source

/-- At an odd last byte the step and the disassembly show a word that ends in zero. -/
theorem Machine.disassembly_agrees_with_steps_at_odd_byte :
    let start := create 0 ⟨true, true⟩
    let current := (start.perform (.load [0x60, 0x05, 0xFF])).machine.after [.step]
    ∃ line, current.disassembly.at? 0x202 = some line ∧
      ∃ result next, current.step = .ok (result, next) ∧ result.address = 0x202 ∧
        result.word = 0xFF00 ∧ line.word = 0xFF00 ∧ result.mnemonic = line.mnemonic := by
  intro start current
  have spares (address : Nat) :
      (start.perform (.load [0x60, 0x05, 0xFF])).machine.Spares address [.step] := by
    intro done early
    have length := early.length_le
    have no_more : done = [] := by simpa [singles, turns] using length
    subst no_more
    have word : (start.perform (.load [0x60, 0x05, 0xFF])).machine.state.word = 0x6005 := by
      decide +kernel
    rintro ⟨-, ⟨covers, -⟩ | ⟨covers, -⟩⟩
    · exact absurd (word ▸ covers) (by decide)
    · exact absurd (word ▸ covers) (by decide)
  have behind : start.state.memory.read 0x203 = 0 := by decide +kernel
  have runs : current.pauses = false := by decide +kernel
  have pc : current.state.pc.toNat = 0x202 := by decide +kernel
  have word : current.state.word = 0xFF00 := by decide +kernel
  have unknown : instructionSet.select (.decode current.state.word) = none := by
    rw [word]
    decide +kernel
  obtain ⟨result, next, step, status⟩ : ∃ result next,
      current.step = .ok (result, next) ∧ result.status = .invalidOpcode :=
    ⟨_, _, step_of_unknown runs unknown, rfl⟩
  have no_pause : result.status ≠ .pausedAtBreakpoint := by
    rw [status]
    decide
  obtain ⟨address, reported⟩ := step_reports step
  rw [pc] at address
  rw [word] at reported
  obtain ⟨-, line, shown, agrees⟩ :=
    start.disassembly_agrees_with_steps [0x60, 0x05, 0xFF] [.step] 2 (by decide)
      (by simp [Command.isLoad]) rfl (by decide) (fun _ => behind) (spares _) (spares _)
  obtain ⟨same, described⟩ := agrees result next step address
  exact ⟨line, shown, result, next, step, address, reported, same.symm.trans reported,
    (described no_pause).1⟩

end Chip8
