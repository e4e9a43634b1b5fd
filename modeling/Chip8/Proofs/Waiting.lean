import Chip8.Proofs.History
import Chip8.Proofs.WordSteps
import Chip8.Threefry

/-!
# Waiting for a key

A machine that asks for a key while none is down comes back to itself by every step, so a host may
poll it as often as it likes, in batches or one step at a time.  Ticks between the polls count the
timers down and change nothing else.  When keys are down at last, the next step takes the lowest of
them and goes past the instruction.
-/

namespace Chip8

namespace Command

/-- Whether a command ticks timers. -/
def isTick : Command → Bool
  | .tickDelay => true
  | .tickSound => true
  | .tick => true
  | _ => false

/-- Whether a command moves a key. -/
def movesKey : Command → Bool
  | .pressKey _ => true
  | .releaseKey _ => true
  | _ => false

end Command

/-! ## The lowest key -/

section Source

variable [RandomSource]

namespace State

theorem pairwise_pressedKeys (state : State) : state.pressedKeys.Pairwise (· < ·) :=
  (List.pairwise_lt_finRange 16).filter _

/-- The first of the pressed keys is down, and no lower one is. -/
theorem lowest_of_pressedKeys {state : State} {key : Fin 16} {others : List (Fin 16)}
    (keys : state.pressedKeys = key :: others) :
    state.keypad.get key = true ∧ ∀ lower < key, state.keypad.get lower = false := by
  have ascending := state.pairwise_pressedKeys
  rw [keys, List.pairwise_cons] at ascending
  refine ⟨(state.mem_pressedKeys key).mp (keys ▸ List.mem_cons_self), fun lower below => ?_⟩
  rw [← Bool.not_eq_true, ← state.mem_pressedKeys, keys, List.mem_cons]
  rintro (rfl | among)
  · exact absurd below (Fin.lt_irrefl _)
  · exact absurd below (Fin.lt_asymm (ascending.1 lower among))

end State

namespace Machine

/-! ## Steps at an instruction that asks for a key -/

/-- The machine is about to ask for a key for a register. -/
structure Asks (machine : Machine) (x : Fin 16) : Prop where
  runs : machine.pauses = false
  covers : Operation.waitKey.Covers machine.state.word
  named : Operand.x.registerIn machine.state.word = x

/-- The machine after a key has been taken. -/
def takeKey (machine : Machine) (x key : Fin 16) : Machine :=
  { machine with
    lastBreak := none
    state := machine.state.advance.setRegister x (UInt8.ofNat key) }

section Steps

variable {machine : Machine} {x : Fin 16}

theorem Asks.exists_decodes (asks : machine.Asks x) :
    ∃ entry mnemonic, Decodes machine.state.word entry mnemonic (.waitKey x) := by
  have decodes := asks.covers.decodes (by decide)
  rwa [Operation.instructionIn, asks.named] at decodes

/-- Without a key the step leaves the machine as it is. -/
theorem Asks.step_of_no_key (asks : machine.Asks x)
    (no_key : ∀ key : Fin 16, machine.state.keypad.get key = false) :
    ∃ result, machine.step = .ok (result, machine) ∧ result.status = .waitingForKey := by
  obtain ⟨entry, mnemonic, decodes⟩ := asks.exists_decodes
  have waits : (Instruction.waitKey x).waits machine.state = true :=
    (Instruction.waits_iff _ _).mpr ⟨rfl, no_key⟩
  have step := step_of_decodes asks.runs decodes
  rw [waits, if_pos rfl] at step
  exact ⟨_, step, rfl⟩

/-- With a key down the step takes the lowest. -/
theorem Asks.step_of_key (asks : machine.Asks x)
    (some_key : ∃ key : Fin 16, machine.state.keypad.get key = true) :
    ∃ result key, machine.step = .ok (result, machine.takeKey x key) ∧ result.status = .ok ∧
      machine.state.keypad.get key = true ∧
      ∀ lower < key, machine.state.keypad.get lower = false := by
  obtain ⟨entry, mnemonic, decodes⟩ := asks.exists_decodes
  obtain ⟨down, is_down⟩ := some_key
  cases keys : machine.state.pressedKeys with
  | nil =>
      have among := (machine.state.mem_pressedKeys down).mpr is_down
      rw [keys] at among
      cases among
  | cons key others =>
      have no_wait : (Instruction.waitKey x).waits machine.state = false := by
        rw [Instruction.waits, keys]
        rfl
      have acts : (Instruction.waitKey x).effects machine.state.advance =
          .ok [.setRegister x key.val] := by
        have same_keys : machine.state.advance.pressedKeys = key :: others := keys
        rw [Instruction.effects, Instruction.waitEffects, same_keys]
      have taken : machine.proceed
          (Effect.applyAll [.setRegister x key.val] machine.state.advance) =
            machine.takeKey x key := by
        simp only [Effect.applyAll_cons, Effect.applyAll_nil, Effect.apply, ofInt_natCast_uint8]
        rfl
      have step := step_of_no_wait asks.runs decodes no_wait
      rw [acts, conclude, complete, taken] at step
      exact ⟨_, key, step, rfl, State.lowest_of_pressedKeys keys⟩

end Steps

/-! ## Batches that stay -/

section Stays

variable {machine : Machine} {result : StepResult}

/-- A step that leaves the machine as it is and does not halt is made again and again. -/
theorem runFrom_of_stays (stays : machine.step = .ok (result, machine))
    (goes_on : result.status.halts = false) (done remaining : Nat) :
    machine.runFrom none done (some result) remaining =
      ⟨machine, List.replicate remaining (result, machine.state), none, none, done + remaining,
        some result⟩ := by
  induction remaining generalizing done with
  | zero => rfl
  | succ remaining ih =>
      rw [runFrom_of_goes_on stays goes_on, Option.map_none, ih, Nat.add_right_comm]
      rfl

theorem perform_run_of_stays (stays : machine.step = .ok (result, machine))
    (goes_on : result.status.halts = false) {limit : Int} (positive : 0 < limit)
    (options : Option BarOptions) :
    (machine.perform (.run limit options)).machine = machine ∧
      ∃ bar, (machine.perform (.run limit options)).reply = .ok (.ran (some result) bar) := by
  obtain ⟨others, first⟩ : ∃ others, limit.toNat = others + 1 :=
    Nat.exists_eq_succ_of_ne_zero (by omega)
  rw [perform_run, run_without_bar, first, runFrom_of_goes_on stays goes_on, Option.map_none,
    runFrom_of_stays stays goes_on]
  exact ⟨rfl, (machine.run limit options).bar, rfl⟩

end Stays

/-! ## Timers and keys -/

/-- Two machines differ in nothing but timers and keys. -/
def SameButInputs (machine other : Machine) : Prop :=
  ∃ delayTimer soundTimer keypad,
    other = { machine with state := { machine.state with delayTimer, soundTimer, keypad } }

theorem SameButInputs.refl (machine : Machine) : machine.SameButInputs machine :=
  ⟨_, _, _, rfl⟩

theorem SameButInputs.trans {machine middle other : Machine} (first : machine.SameButInputs middle)
    (second : middle.SameButInputs other) : machine.SameButInputs other := by
  obtain ⟨_, _, _, rfl⟩ := first
  obtain ⟨_, _, _, rfl⟩ := second
  exact ⟨_, _, _, rfl⟩

/-- An instruction asks for a key whatever the timers and keys are. -/
theorem Asks.congr {machine other : Machine} {x : Fin 16} (asks : machine.Asks x)
    (same : machine.SameButInputs other) : other.Asks x := by
  obtain ⟨_, _, _, rfl⟩ := same
  exact ⟨asks.runs, asks.covers, asks.named⟩

theorem sameButInputs_setKey (machine : Machine) (key : Int) (down : Bool) :
    machine.SameButInputs (machine.quietly (machine.setKey key down)).machine := by
  cases moved : machine.state.setKey key down with
  | error fault =>
      simp only [setKey, moved, error_bind, quietly]
      exact .refl machine
  | ok state =>
      obtain ⟨inside, rfl⟩ := State.setKey_eq_ok moved
      simp only [setKey, moved, ok_bind]
      exact ⟨_, _, _, rfl⟩

theorem sameButInputs_perform {machine : Machine} {command : Command}
    (input : command.isTick = true ∨ command.movesKey = true) :
    machine.SameButInputs (machine.perform command).machine := by
  cases command with
  | tickDelay | tickSound | tick => exact ⟨_, _, _, rfl⟩
  | pressKey key => exact machine.sameButInputs_setKey key true
  | releaseKey key => exact machine.sameButInputs_setKey key false
  | _ => rcases input with tick | key <;> contradiction

theorem sameButInputs_after {machine : Machine} {commands : List Command}
    (inputs : ∀ command ∈ commands, command.isTick = true ∨ command.movesKey = true) :
    machine.SameButInputs (machine.after commands) := by
  induction commands generalizing machine with
  | nil => exact .refl machine
  | cons command commands ih =>
      exact (sameButInputs_perform (inputs command List.mem_cons_self)).trans
        (ih fun other member => inputs other (List.mem_cons_of_mem command member))

theorem keypad_perform_tick {machine : Machine} {command : Command} (tick : command.isTick = true) :
    (machine.perform command).machine.state.keypad = machine.state.keypad := by
  cases command with
  | tickDelay | tickSound | tick => rfl
  | _ => cases tick

theorem keypad_after_ticks {machine : Machine} {commands : List Command}
    (ticks : ∀ command ∈ commands, command.isTick = true) :
    (machine.after commands).state.keypad = machine.state.keypad := by
  induction commands generalizing machine with
  | nil => rfl
  | cons command commands ih =>
      rw [after_cons, ih fun other member => ticks other (List.mem_cons_of_mem command member)]
      exact keypad_perform_tick (ticks command List.mem_cons_self)

/-! ## Polls -/

section Polls

variable {machine : Machine} {x : Fin 16}

/-- A step or a batch of steps leaves the machine as it is. -/
theorem Asks.perform_poll (asks : machine.Asks x)
    (no_key : ∀ key : Fin 16, machine.state.keypad.get key = false) {command : Command}
    (poll : command.isRequest = false) : (machine.perform command).machine = machine := by
  obtain ⟨result, stays, waiting⟩ := asks.step_of_no_key no_key
  have goes_on : result.status.halts = false := by rw [waiting]; rfl
  cases command with
  | step => rw [perform_step_ok stays]
  | run limit options =>
      by_cases positive : 0 < limit
      · exact (perform_run_of_stays stays goes_on positive options).1
      · have nothing : limit.toNat = 0 := by omega
        rw [perform_run, run_without_bar, nothing]
        rfl
  | _ => cases poll

/-- Polls between ticks might as well not be made. -/
theorem Asks.after_polls (asks : machine.Asks x)
    (no_key : ∀ key : Fin 16, machine.state.keypad.get key = false) {polls : List Command}
    (quiet : ∀ command ∈ polls, command.isRequest = false ∨ command.isTick = true) :
    machine.after polls = machine.after (polls.filter Command.isTick) := by
  induction polls generalizing machine with
  | nil => rfl
  | cons command polls ih =>
      have rest := fun other member => quiet other (List.mem_cons_of_mem command member)
      cases tick : command.isTick with
      | true =>
          have same : machine.SameButInputs (machine.perform command).machine :=
            sameButInputs_perform (.inl tick)
          rw [List.filter_cons_of_pos tick, after_cons, after_cons]
          refine ih (asks.congr same) ?_ rest
          rw [keypad_perform_tick tick]
          exact no_key
      | false =>
          have poll := (quiet command List.mem_cons_self).resolve_right (by simp [tick])
          rw [List.filter_cons_of_neg (by simp [tick]), after_cons, asks.perform_poll no_key poll]
          exact ih asks no_key rest

end Polls

/-- A machine that asks for a key while none is down waits.  However often it is polled, by single
steps or in batches, and its timers ticked in between, it comes to where the ticks alone take it,
which differs from where it was in the timers only; and every further poll finds it waiting and
leaves it as it is.  When keys have been moved, and timers ticked, so that some key is down, the next
step takes the lowest key that is, goes past the instruction, forgets the last pause and changes
nothing else. -/
theorem waiting_stutters_until_a_key_is_down {machine : Machine} (runs : machine.pauses = false)
    (asks : Operation.waitKey.Covers machine.state.word)
    (no_key : ∀ key : Fin 16, machine.state.keypad.get key = false) {polls : List Command}
    (quiet : ∀ command ∈ polls, command.isRequest = false ∨ command.isTick = true) :
    let x := Operand.x.registerIn machine.state.word
    let later := machine.after polls
    later = machine.after (polls.filter Command.isTick) ∧
      (∃ delayTimer soundTimer,
        later = { machine with state := { machine.state with delayTimer, soundTimer } }) ∧
      (∃ result, later.step = .ok (result, later) ∧ result.status = .waitingForKey ∧
        ∀ (limit : Int) (options : Option BarOptions), 0 < limit →
          (later.perform (.run limit options)).machine = later ∧
            ∃ bar, (later.perform (.run limit options)).reply = .ok (.ran (some result) bar)) ∧
      ∀ inputs : List Command,
        (∀ command ∈ inputs, command.isTick = true ∨ command.movesKey = true) →
          let pressed := later.after inputs
          (∃ key : Fin 16, pressed.state.keypad.get key = true) →
            ∃ result key, pressed.step = .ok (result, pressed.takeKey x key) ∧
              result.status = .ok ∧ pressed.state.keypad.get key = true ∧
              ∀ lower < key, pressed.state.keypad.get lower = false := by
  intro x later
  have here : machine.Asks x := ⟨runs, asks, rfl⟩
  have filtered : later = _ := here.after_polls no_key quiet
  have ticks : ∀ command ∈ polls.filter Command.isTick, command.isTick = true :=
    fun command member => (List.mem_filter.mp member).2
  have same : machine.SameButInputs later :=
    filtered ▸ sameButInputs_after fun command member => .inl (ticks command member)
  have keypad : later.state.keypad = machine.state.keypad := filtered ▸ keypad_after_ticks ticks
  have still : later.Asks x := here.congr same
  refine ⟨filtered, ?_, ?_, ?_⟩
  · obtain ⟨delayTimer, soundTimer, _, equal⟩ := same
    rw [equal] at keypad ⊢
    cases keypad
    exact ⟨delayTimer, soundTimer, rfl⟩
  · obtain ⟨result, stays, waiting⟩ := still.step_of_no_key (keypad ▸ no_key)
    have goes_on : result.status.halts = false := by rw [waiting]; rfl
    exact ⟨result, stays, waiting, fun limit options positive =>
      perform_run_of_stays stays goes_on positive options⟩
  · intro inputs moved pressed some_key
    exact (still.congr (sameButInputs_after moved)).step_of_key some_key

end Machine

end Source

/-- A machine that has paused at an instruction in the last cell and the first one waits there until
two keys are down, and takes the lower one. -/
theorem Machine.waiting_stutters_until_a_key_is_down_across_the_end :
    let start := create 0 ⟨true, true⟩
    let memory := Memory.blank.writeAll 0xFFF [0xF5, 0x0A]
    let machine : Machine := { start with
      state := { start.state with pc := 0xFFFF, memory, delayTimer := 2 }
      breakpoints := Breakpoints.empty.add 0xFFFF
      lastBreak := some 0xFFFF }
    let later := machine.after [.step, .tick, .run 3 none]
    let pressed := later.after [.pressKey 9, .pressKey 4]
    machine.pauses = false ∧ machine.state.word = 0xF50A ∧ later.lastBreak = some 0xFFFF ∧
      later.state.delayTimer = 1 ∧
      ∃ result next, pressed.step = .ok (result, next) ∧ result.status = .ok ∧
        next.state.register 5 = 4 ∧ next.state.pc.toNat = 1 ∧ next.lastBreak = none := by
  intro start memory machine later pressed
  have runs : machine.pauses = false := by decide +kernel
  have word : machine.state.word = 0xF50A := by decide +kernel
  have asks : Operation.waitKey.Covers machine.state.word := by
    rw [word]
    decide
  have quiet : ∀ command ∈ [Command.step, .tick, .run 3 none],
      command.isRequest = false ∨ command.isTick = true := by decide
  obtain ⟨ticked, -, -, takes⟩ :=
    waiting_stutters_until_a_key_is_down runs asks (by decide +kernel) quiet
  have later_eq : later = machine.after [.tick] := ticked
  have pressed_eq : pressed = machine.after [.tick, .pressKey 9, .pressKey 4] :=
    congrArg (Machine.after · [.pressKey 9, .pressKey 4]) ticked
  have some_key : ∃ key : Fin 16, pressed.state.keypad.get key = true := by
    rw [pressed_eq]
    exact ⟨9, by decide +kernel⟩
  have lowest_is_four : ∀ key : Fin 16, pressed.state.keypad.get key = true →
      (∀ lower < key, pressed.state.keypad.get lower = false) → key = 4 := by
    rw [pressed_eq]
    decide +kernel
  obtain ⟨result, key, step, status, down, lowest⟩ :=
    takes [.pressKey 9, .pressKey 4] (by decide) some_key
  obtain rfl := lowest_is_four key down lowest
  rw [word] at step
  refine ⟨runs, word, by rw [later_eq]; rfl, by rw [later_eq]; decide +kernel, result,
    pressed.takeKey 5 4, step, status, ?_, ?_, rfl⟩
  · rw [pressed_eq]
    decide +kernel
  · rw [pressed_eq]
    decide +kernel

end Chip8
