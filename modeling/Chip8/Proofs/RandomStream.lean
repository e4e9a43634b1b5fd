import Mathlib.Logic.Function.Iterate
import Chip8.Proofs.History
import Chip8.Proofs.SplitBatches
import Chip8.Threefry

/-!
# The random stream

Each instruction for a random byte takes one key from the stream and goes on with the next; nothing
else touches the key, neither other instructions nor pauses, faults, loads, ticks and key
events.  So, whatever the source of random bytes is, the key of a machine is that of its seed, split
as many times as bytes have been drawn, and each byte depends on the seed and on the number of bytes
drawn before it alone.
-/

namespace Chip8

/-! ## Steps along the stream -/

/-- A step is one that draws a random byte. -/
def StepResult.isDraw (result : StepResult) : Bool :=
  result.name == some "RND"

section Source

variable [RandomSource]

/-- The steps that draw random bytes. -/
def draws (steps : List (StepResult × State)) : List (StepResult × State) :=
  steps.filter fun step => step.1.isDraw

theorem draws_cons_of_draw {result : StepResult} (draw : result.isDraw = true) (state : State)
    (steps : List (StepResult × State)) :
    draws ((result, state) :: steps) = (result, state) :: draws steps :=
  List.filter_cons_of_pos draw

theorem draws_cons_of_other {result : StepResult} (other : result.isDraw = false) (state : State)
    (steps : List (StepResult × State)) : draws ((result, state) :: steps) = draws steps :=
  List.filter_cons_of_neg (Bool.eq_false_iff.mp other)

/-- A step has put the byte of a key under the mask of its word into the register of its word. -/
def StoresByte (key : RandomKey) (result : StepResult) (state : State) : Prop :=
  ∃ (x : Fin 16) (mask : UInt8), result.word = 0xC000 + 0x100 * x.val + mask.toNat ∧
    state.register x = mask.toNat &&& (RandomSource.byte key.subkey).toNat

/-- Steps go along the stream from one key to another: those that draw take one key each. -/
inductive RandomKey.Feeds : RandomKey → List (StepResult × State) → RandomKey → Prop
  | refl (key : RandomKey) : Feeds key [] key
  | draw {key last : RandomKey} {result : StepResult} {state : State}
      {steps : List (StepResult × State)} (draw : result.isDraw = true)
      (stores : StoresByte key result state) (rest : Feeds key.next steps last) :
      Feeds key ((result, state) :: steps) last
  | other {key last : RandomKey} {result : StepResult} {state : State}
      {steps : List (StepResult × State)} (other : result.isDraw = false)
      (rest : Feeds key steps last) : Feeds key ((result, state) :: steps) last

namespace RandomKey.Feeds

variable {key middle last : RandomKey} {steps front back : List (StepResult × State)}

theorem append (first : Feeds key front middle) (second : Feeds middle back last) :
    Feeds key (front ++ back) last := by
  induction first with
  | refl => exact second
  | draw draws stores _ ih => exact .draw draws stores (ih second)
  | other other _ ih => exact .other other (ih second)

/-- The last key is the first one, split once for each draw. -/
theorem last_eq (feeds : Feeds key steps last) : last = next^[(draws steps).length] key := by
  induction feeds with
  | refl => rfl
  | draw draw _ _ ih =>
      rw [draws_cons_of_draw draw, List.length_cons, Function.iterate_succ_apply]
      exact ih
  | other other _ ih =>
      rw [draws_cons_of_other other]
      exact ih

/-- Each draw takes its byte from the key that the draws before it have led to. -/
theorem storesByte (feeds : Feeds key steps last) {count : Nat} {result : StepResult}
    {state : State} (drawn : (draws steps)[count]? = some (result, state)) :
    StoresByte (next^[count] key) result state := by
  induction feeds generalizing count with
  | refl => cases drawn
  | draw draw stores _ ih =>
      rw [draws_cons_of_draw draw] at drawn
      cases count with
      | zero =>
          cases drawn
          exact stores
      | succ count =>
          rw [Function.iterate_succ_apply]
          exact ih drawn
  | other other _ ih =>
      rw [draws_cons_of_other other] at drawn
      exact ih drawn

end RandomKey.Feeds

theorem StoresByte.no_other_bit {key : RandomKey} {result : StepResult} {state : State}
    (stores : StoresByte key result state) :
    ∃ (x : Fin 16) (mask : UInt8), result.word = 0xC000 + 0x100 * x.val + mask.toNat ∧
      state.register x = mask.toNat &&& (RandomSource.byte key.subkey).toNat ∧
      ∀ bit, (state.register x).testBit bit = true → mask.toNat.testBit bit = true := by
  obtain ⟨x, mask, word, stored⟩ := stores
  refine ⟨x, mask, word, stored, fun bit set => ?_⟩
  rw [stored, Nat.testBit_and, Bool.and_eq_true] at set
  exact set.1

/-! ## One step -/

omit [RandomSource] in
theorem name_eq_iff_of_mem_instructionSet :
    ∀ entry ∈ instructionSet.entries, entry.name = "RND" ↔ entry.action = .random := by
  decide +kernel

omit [RandomSource] in
theorem toNat_ofInt_and (byte mask : UInt8) :
    (UInt8.ofInt (Bits.and byte.toNat mask.toNat)).toNat = mask.toNat &&& byte.toNat := by
  rw [Bits.and_natCast, ofInt_natCast_uint8, ← UInt8.toNat_and, UInt8.ofNat_toNat, UInt8.toNat_and,
    Nat.and_comm]

/-- Only the instruction for random bytes writes to the key. -/
theorem Instruction.randomKey_mem_targets_iff (instruction : Instruction) (state : State) :
    .randomKey ∈ instruction.targets state ↔ instruction.operation = .random := by
  cases instruction <;> simp [targets, transferTargets, operation]

namespace Machine

section Steps

variable {machine next last : Machine} {result : StepResult} {entry : Entry Operation}
  {mnemonic : String} {instruction : Instruction} {effects : List Effect}

theorem isDraw_report (decodes : Decodes machine.state.word entry mnemonic instruction)
    (status : StepStatus) (error : Option String) :
    (machine.report status mnemonic (some entry.name) error).isDraw = true ↔
      instruction.operation = .random := by
  simp only [StepResult.isDraw, report, beq_iff_eq, Option.some.injEq,
    name_eq_iff_of_mem_instructionSet entry decodes.member, decodes.action]

/-- The instruction for random bytes takes the key of the state. -/
theorem draws_of_random (decodes : Decodes machine.state.word entry mnemonic instruction)
    (random : instruction.operation = .random)
    (acts : instruction.effects machine.state.advance = .ok effects) :
    let after := Effect.applyAll effects machine.state.advance
    after.randomKey = machine.state.randomKey.next ∧
      StoresByte machine.state.randomKey
        (machine.report .ok mnemonic (some entry.name) none) after := by
  have covers := decodes.covers
  have chosen := decodes.eq_instructionIn
  rw [random] at covers chosen
  subst chosen
  cases acts
  have high := (Operation.covers_iff_class rfl machine.state.word).mp covers
  have bound := machine.state.word_lt
  have mask : (UInt8.ofNat (machine.state.word % 256)).toNat = machine.state.word % 256 :=
    UInt8.toNat_ofNat'.trans (Nat.mod_mod _ 256)
  refine ⟨rfl, Operand.x.registerIn machine.state.word, .ofNat (machine.state.word % 256), ?_, ?_⟩
  · simp only [report, mask, Operand.registerIn, Operand.valueIn, Bits.lowNibble]
    omega
  · rw [← RandomKey.draw, ← toNat_ofInt_and, mask]
    simp [Effect.apply, State.register, State.setRegister, Operand.valueIn, State.advance]

/-- A step goes along the stream, by one key if it draws. -/
theorem feeds_of_step (step : machine.step = .ok (result, next)) :
    machine.state.randomKey.Feeds [(result, next.state)] next.state.randomKey := by
  cases stepsTo_of_step step with
  | paused | invalid => exact .other rfl (.refl _)
  | refused runs decodes | awaiting runs decodes =>
      -- These carry the names of other entries, so they do not count as draws.
      refine .other (Bool.eq_false_iff.mpr fun draw => ?_) (.refl _)
      cases (isDraw_report decodes _ _).mp draw
  | @completed entry mnemonic instruction effects runs decodes no_wait acts =>
      cases draw : (machine.report .ok mnemonic (some entry.name) none).isDraw with
      | true =>
          have random := (isDraw_report decodes _ _).mp draw
          obtain ⟨next_key, stores⟩ := draws_of_random decodes random acts
          exact .draw draw stores (next_key ▸ .refl _)
      | false =>
          have other : .randomKey ∉ instruction.targets machine.state.advance := by
            rw [Instruction.randomKey_mem_targets_iff, ← isDraw_report decodes .ok none, draw]
            decide
          have kept : (Effect.applyAll effects machine.state.advance).randomKey =
              machine.state.randomKey := Instruction.kept_of_not_mem_targets acts other
          exact .other draw (kept ▸ .refl _)

end Steps

/-! ## Whole runs -/

theorem Walk.feeds {machine last : Machine} {steps : List (StepResult × State)}
    (walk : machine.Walk steps last) :
    machine.state.randomKey.Feeds steps last.state.randomKey := by
  induction walk with
  | refl => exact .refl _
  | head step _ ih => exact (feeds_of_step step).append ih

theorem randomKey_onState {command : Command} {state next : State}
    (granted : command.onState state = .ok next) : next.randomKey = state.randomKey := by
  cases command with
  | load rom =>
      obtain ⟨-, rfl⟩ := State.load_eq_ok granted
      rfl
  | pressKey | releaseKey =>
      obtain ⟨-, rfl⟩ := State.setKey_eq_ok granted
      rfl
  | _ =>
      cases granted
      rfl

/-- Requests make no steps. -/
theorem steps_request (machine : Machine) {command : Command} (request : command.isRequest = true) :
    (machine.perform command).steps = [] := by
  cases command with
  | step | run => cases request
  | load rom =>
      rw [perform, performLoad]
      split <;> rfl
  | pressKey key | releaseKey key =>
      rw [perform]
      cases machine.setKey key _ <;> rfl
  | _ => rfl

/-- The steps of a command that is no request are a walk. -/
theorem walk_of_poll (machine : Machine) {command : Command} (poll : command.isRequest = false) :
    machine.Walk (machine.perform command).steps (machine.perform command).machine := by
  cases command with
  | step =>
      cases outcome : machine.step with
      | error fault =>
          rw [perform_step_error outcome]
          exact .refl machine
      | ok pair =>
          rw [perform_step_ok outcome]
          exact .head outcome (.refl _)
  | run limit bar =>
      rw [perform_run, Batch.steps_activity, Batch.machine_activity]
      exact (machine.concludes_run limit none).walk
  | _ => cases poll

theorem feeds_perform (machine : Machine) (command : Command) :
    machine.state.randomKey.Feeds (machine.perform command).steps
      (machine.perform command).machine.state.randomKey := by
  cases request : command.isRequest with
  | false => exact (machine.walk_of_poll request).feeds
  | true =>
      rw [steps_request machine request]
      cases outcome : command.onState machine.state with
      | error fault =>
          rw [perform_request_error request outcome]
          exact .refl _
      | ok state =>
          rw [(perform_request_ok request outcome).2, randomKey_onState outcome]
          exact .refl _

theorem Walk.exists_step {machine last : Machine} {steps : List (StepResult × State)}
    (walk : machine.Walk steps last) :
    ∀ step ∈ steps, ∃ before next : Machine, before.step = .ok (step.1, next) := by
  induction walk with
  | refl => exact fun _ member => absurd member List.not_mem_nil
  | head first _ ih =>
      intro step member
      rcases List.mem_cons.mp member with rfl | later
      · exact ⟨_, _, first⟩
      · exact ih step later

/-- Observers are told of no step but those that machines make. -/
theorem exists_step_of_mem_steps (machine : Machine) (command : Command) :
    ∀ step ∈ (machine.perform command).steps,
      ∃ before next : Machine, before.step = .ok (step.1, next) := by
  cases request : command.isRequest with
  | false => exact (machine.walk_of_poll request).exists_step
  | true =>
      rw [steps_request machine request]
      exact fun _ member => absurd member List.not_mem_nil

/-- The steps that commands make, each with its report and the state after it. -/
def trace (machine : Machine) : List Command → List (StepResult × State)
  | [] => []
  | command :: commands =>
    (machine.perform command).steps ++ (machine.perform command).machine.trace commands

theorem exists_step_of_mem_trace {machine : Machine} {commands : List Command} :
    ∀ step ∈ machine.trace commands, ∃ before next : Machine, before.step = .ok (step.1, next) := by
  induction commands generalizing machine with
  | nil => exact fun _ member => absurd member List.not_mem_nil
  | cons command commands ih =>
      intro step member
      rcases List.mem_append.mp member with now | later
      · exact machine.exists_step_of_mem_steps command step now
      · exact ih step later

theorem feeds_trace (machine : Machine) (commands : List Command) :
    machine.state.randomKey.Feeds (machine.trace commands)
      (machine.after commands).state.randomKey := by
  induction commands generalizing machine with
  | nil => exact .refl _
  | cons command commands ih =>
      exact (machine.feeds_perform command).append (ih (machine.perform command).machine)

/-- The trace has the reports of the history. -/
theorem map_fst_trace (machine : Machine) (commands : List Command) :
    (machine.trace commands).map Prod.fst =
      (machine.history commands).filterMap Turn.report? := by
  induction commands generalizing machine with
  | nil => rfl
  | cons command commands ih =>
      rw [trace, history_cons, List.map_append, List.filterMap_append, ih]
      refine congrArg (· ++ _) ?_
      cases batch : command.isBatch with
      | true =>
          obtain ⟨limit, bar, rfl⟩ := Command.eq_run_of_isBatch batch
          rw [turns, Batch.filterMap_report?_turns, perform_run, Batch.steps_activity,
            run_eq_follow machine limit bar]
      | false =>
          rw [turns_of_single _ batch]
          rcases Command.step_or_request batch with rfl | request
          · cases outcome : machine.step with
            | error fault =>
                rw [perform_step_error outcome]
                rfl
            | ok pair =>
                rw [perform_step_ok outcome]
                rfl
          · rw [steps_request machine request]
            cases command with
            | step | run => cases request
            | _ => rfl

end Machine

/-- Whatever a new machine has been told, its key is that of its seed, split as many times as its
steps drew random bytes, and the step that drew after `count` others did so with the seed's key
split `count` times: it stored the byte of the subkey under the mask of its word in the register of
its word, so no bit outside the mask was set. -/
theorem random_stream_counts_draws (seed : Int) (dialect : Dialect) (commands : List Command) :
    let machine := Machine.create seed dialect
    let drawn := draws (machine.trace commands)
    let key (count : Nat) := RandomKey.next^[count] (RandomSource.ofSeed seed)
    (machine.after commands).state.randomKey = key drawn.length ∧
      ∀ (count : Nat) (result : StepResult) (after : State),
        drawn[count]? = some (result, after) →
        ∃ (x : Fin 16) (mask : UInt8), result.word = 0xC000 + 0x100 * x.val + mask.toNat ∧
          after.register x = mask.toNat &&& (RandomSource.byte (key count).subkey).toNat ∧
          ∀ bit, (after.register x).testBit bit = true → mask.toNat.testBit bit = true := by
  intro machine drawn key
  have feeds := machine.feeds_trace commands
  exact ⟨feeds.last_eq, fun count result after taken => (feeds.storesByte taken).no_other_bit⟩

end Source

/-- A program draws two bytes from the Threefry generator and is paused between them: the second byte
is that of the seed's key split once, under the mask of its word. -/
theorem random_stream_counts_draws_across_a_pause :
    let commands : List Command :=
      [.load [0xC3, 0x0F, 0xC5, 0xF0], .step, .addBreakpoint 0x202, .step, .step]
    let steps := (Machine.create 7 ⟨true, false⟩).trace commands
    let once := (Threefry.ofSeed 7).split.1
    steps.length = 3 ∧ (draws steps).length = 2 ∧
      ((Machine.create 7 ⟨true, false⟩).after commands).state.randomKey = once.split.1 ∧
      ∃ result after, (draws steps)[1]? = some (result, after) ∧
        after.register 5 = 0xF0 &&& once.split.2.byte.toNat := by
  intro commands steps once
  obtain ⟨key, bytes⟩ := random_stream_counts_draws 7 ⟨true, false⟩ commands
  change _ = RandomKey.next^[(draws steps).length] _ at key
  change ∀ count result after, (draws steps)[count]? = some (result, after) → _ at bytes
  have three : steps.length = 3 := by decide +kernel
  have words : (draws steps).map (·.1.word) = [0xC30F, 0xC5F0] := by decide +kernel
  have two : (draws steps).length = 2 := by simpa using congrArg List.length words
  rw [two, Function.iterate_succ_apply, Function.iterate_one] at key
  refine ⟨three, two, key, ?_⟩
  generalize draws steps = drawn at bytes words
  obtain ⟨first, others, rfl, -, words⟩ := List.map_eq_cons_iff.mp words
  obtain ⟨⟨result, after⟩, others, rfl, second, words⟩ := List.map_eq_cons_iff.mp words
  obtain ⟨x, mask, word, stored, -⟩ := bytes 1 result after rfl
  change result.word = 0xC5F0 at second
  have bound := mask.toNat_lt
  have low : mask.toNat = 0xF0 := by omega
  obtain rfl : x = 5 := by omega
  rw [low] at stored
  exact ⟨result, after, rfl, stored⟩

end Chip8
