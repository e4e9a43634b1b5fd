import Chip8.Proofs.Lockstep
import Chip8.Threefry

/-!
# State that never shows

Nothing reads the sound timer, and a slot of the call stack is written before it is read again once
the pointer has gone below it; slot zero is never read at all.  Machines that differ in nothing else
make the same reports and faults all through a run, and at each moment of it they still differ in
nothing else.
-/

namespace Chip8

/-! ## Stacks -/

/-- Stacks with the same pointer and the same addresses in the slots from one up to it. -/
structure CallStack.SameCalls (left right : CallStack) : Prop where
  pointer : left.pointer = right.pointer
  slots : ∀ slot : Fin 16, 0 < slot.val → (slot.val : Int) ≤ left.pointer →
    left.slots[slot] = right.slots[slot]

namespace CallStack.SameCalls

variable {left right : CallStack}

theorem refl (stack : CallStack) : stack.SameCalls stack :=
  ⟨rfl, fun _ _ _ => rfl⟩

theorem place (same : left.SameCalls right) (address : Int) :
    (left.place address).SameCalls (right.place address) := by
  have pointer := same.pointer
  refine ⟨congrArg (· + 1) pointer, fun slot used below => ?_⟩
  simp only [CallStack.place, ← pointer, Fin.getElem_fin, Vector.getElem_set] at below ⊢
  split
  · rfl
  · rename_i older
    refine same.slots slot used ?_
    -- A slot above the old pointer is the one that is written.
    simp only [Bits.lowNibble] at older
    omega

theorem drop (same : left.SameCalls right) : left.drop.SameCalls right.drop := by
  refine ⟨congrArg (· - 1) same.pointer, fun slot used below => same.slots slot used ?_⟩
  simp only [CallStack.drop] at below
  omega

/-- With an open call the newest address is the same. -/
theorem top (same : left.SameCalls right) (some_call : 0 < left.pointer)
    (high : left.pointer ≤ 15) : left.top = right.top := by
  simp only [CallStack.top, ← same.pointer]
  refine same.slots _ ?_ ?_
  · simp only [Bits.lowNibble]
    omega
  · simp only [Bits.lowNibble]
    omega

end CallStack.SameCalls

section Source

variable [RandomSource]

/-- States that differ in the sound timer and in unused slots of the call stack at most. -/
inductive State.SameLive (state : State) : State → Prop
  | intro {stack : CallStack} (soundTimer : UInt8) (calls : state.stack.SameCalls stack) :
    SameLive state { state with stack, soundTimer }

/-! ## Instructions -/

namespace State.SameLive

variable {left right : State}

theorem refl (state : State) : state.SameLive state :=
  .intro state.soundTimer (.refl state.stack)

theorem apply (same : left.SameLive right) (effect : Effect) :
    (effect.apply left).SameLive (effect.apply right) := by
  cases same with
  | intro soundTimer calls =>
      cases effect with
      | push address => exact .intro soundTimer (calls.place address)
      | pop => exact .intro soundTimer calls.drop
      | setSound value => exact .intro (UInt8.ofInt value) calls
      | _ => exact .intro soundTimer calls

theorem applyAll (same : left.SameLive right) (effects : List Effect) :
    (Effect.applyAll effects left).SameLive (Effect.applyAll effects right) := by
  induction effects generalizing left right with
  | nil => exact same
  | cons effect effects ih => exact ih (same.apply effect)

/-- An instruction has the same effects, or is refused alike, whatever the dead state. -/
theorem effects (same : left.SameLive right) (high : left.stack.pointer ≤ 15)
    (instruction : Instruction) : instruction.effects left = instruction.effects right := by
  cases same with
  | intro soundTimer calls =>
      cases instruction with
      | call address => simp only [Instruction.effects_call, calls.pointer]
      | ret =>
          rw [Instruction.effects_ret, Instruction.effects_ret, ← calls.pointer]
          split
          · rfl
          · rename_i open_call
            rw [calls.top (by omega) high]
      | _ => rfl

theorem waits (same : left.SameLive right) (instruction : Instruction) :
    instruction.waits left = instruction.waits right := by
  cases same
  cases instruction <;> rfl

theorem pc (same : left.SameLive right) : left.pc = right.pc := by
  cases same
  rfl

theorem word (same : left.SameLive right) : left.word = right.word := by
  cases same
  rfl

theorem advance (same : left.SameLive right) : left.advance.SameLive right.advance := by
  cases same with
  | intro soundTimer calls => exact .intro soundTimer calls

/-- A request is refused in both states, or leaves them differing in nothing else. -/
theorem onState (same : left.SameLive right) (command : Command) :
    (∃ fault, command.onState left = .error fault ∧ command.onState right = .error fault) ∨
      ∃ leftNext rightNext, command.onState left = .ok leftNext ∧
        command.onState right = .ok rightNext ∧ leftNext.SameLive rightNext := by
  cases same with
  | intro soundTimer calls =>
      cases command with
      | load rom =>
          simp only [Command.onState, State.load]
          split
          · exact .inl ⟨_, rfl, rfl⟩
          · exact .inr ⟨_, _, rfl, rfl, .refl _⟩
      | pressKey key | releaseKey key =>
          simp only [Command.onState, State.setKey]
          split
          · exact .inr ⟨_, _, rfl, rfl, .intro soundTimer calls⟩
          · exact .inl ⟨_, rfl, rfl⟩
      | tickSound | tick =>
          exact .inr ⟨_, _, rfl, rfl, .intro (State.countDown soundTimer) calls⟩
      | _ => exact .inr ⟨_, _, rfl, rfl, .intro soundTimer calls⟩

end State.SameLive

/-! ## The range of the pointer -/

namespace CallStack

/-- The pointer is at a slot. -/
def InRange (stack : CallStack) : Prop :=
  0 ≤ stack.pointer ∧ stack.pointer ≤ 15

end CallStack

theorem Instruction.inRange_applyAll {instruction : Instruction} {state : State}
    {effects : List Effect} (acts : instruction.effects state = .ok effects)
    (inRange : state.stack.InRange) : (Effect.applyAll effects state).stack.InRange := by
  obtain ⟨low, high⟩ := inRange
  by_cases moves : (∃ address, instruction = .call address) ∨ instruction = .ret
  · rcases moves with ⟨address, rfl⟩ | rfl
    · rw [effects_call] at acts
      split at acts <;> cases acts
      simp only [Effect.applyAll_cons, Effect.applyAll_nil, Effect.apply, CallStack.place,
        CallStack.InRange]
      omega
    · rw [effects_ret] at acts
      split at acts <;> cases acts
      simp only [Effect.applyAll_cons, Effect.applyAll_nil, Effect.apply, CallStack.drop,
        CallStack.InRange]
      omega
  · rw [← stack_mem_targets_iff instruction state] at moves
    have kept : (Effect.applyAll effects state).stack = state.stack :=
      kept_of_not_mem_targets acts moves
    rw [kept]
    exact ⟨low, high⟩

theorem Command.inRange_onState {command : Command} {state next : State}
    (granted : command.onState state = .ok next) (inRange : state.stack.InRange) :
    next.stack.InRange := by
  cases command with
  | load rom =>
      obtain ⟨-, rfl⟩ := State.load_eq_ok granted
      have empty : CallStack.empty.InRange := ⟨by decide, by decide⟩
      exact empty
  | pressKey | releaseKey =>
      obtain ⟨-, rfl⟩ := State.setKey_eq_ok granted
      exact inRange
  | _ =>
      cases granted
      exact inRange

namespace Machine

/-- Machines with the same breakpoints and last pause whose states differ in nothing that shows. -/
structure SameLive (left right : Machine) : Prop where
  state : left.state.SameLive right.state
  inRange : left.state.stack.InRange
  breakpoints : left.breakpoints = right.breakpoints
  lastBreak : left.lastBreak = right.lastBreak

namespace SameLive

variable {left right : Machine}

/-! ## Steps -/

theorem report (same : left.SameLive right) : left.report = right.report := by
  funext status mnemonic name error
  simp only [Machine.report, same.state.pc, same.state.word]

theorem pauses (same : left.SameLive right) : left.pauses = right.pauses := by
  simp only [Machine.pauses, same.state.pc, same.breakpoints, same.lastBreak]

theorem proceed {leftState rightState : State} (same : left.SameLive right)
    (states : leftState.SameLive rightState) (inRange : leftState.stack.InRange) :
    (left.proceed leftState).SameLive (right.proceed rightState) :=
  ⟨states, inRange, same.breakpoints, rfl⟩

/-- Machines that differ in nothing that shows take the same step. -/
theorem matching (same : left.SameLive right) : Matches SameLive id left right where
  related := same
  word := same.state.word
  pauses := same.pauses
  waits := same.state.waits
  report status mnemonic name error := by rw [same.report]
  paused := ⟨same.state, same.inRange, same.breakpoints, congrArg some same.state.pc⟩
  passed := same.proceed same.state.advance same.inRange
  acts instruction := by
    have advanced := same.state.advance
    have same_effects := advanced.effects same.inRange.2 instruction
    cases acts : instruction.effects left.state.advance with
    | error fault => exact .inl ⟨fault, rfl, same_effects ▸ acts⟩
    | ok effects =>
        have inRange := Instruction.inRange_applyAll acts same.inRange
        exact .inr ⟨effects, effects, rfl, same_effects ▸ acts,
          same.proceed (advanced.applyAll effects) inRange⟩

/-! ## Requests -/

theorem request {command : Command} (same : left.SameLive right)
    (request : command.isRequest = true) :
    (left.perform command).reply = (right.perform command).reply ∧
      (left.perform command).machine.SameLive (right.perform command).machine := by
  refine request_of_onState same request (same.state.onState command) ?_
  intro _ _ left_granted right_granted states
  obtain ⟨breakpoints, lastBreak⟩ := pauses_perform_request request left_granted right_granted
    same.breakpoints same.lastBreak
  refine ⟨states, ?_, breakpoints, lastBreak⟩
  rw [(perform_request_ok request left_granted).2]
  exact Command.inRange_onState left_granted same.inRange

/-! ## Runs -/

theorem lockstep : Lockstep SameLive id fun _ _ => True where
  status _ := rfl
  step same _ := same.matching.step
  request same request _ := same.request request

theorem after (same : left.SameLive right) (commands : List Command) :
    (left.after commands).SameLive (right.after commands) ∧
      left.history commands = right.history commands := by
  have run : (left.after commands).SameLive (right.after commands) ∧
      (left.history commands).map (Turn.mapReport id) =
        (right.history commands).map (Turn.mapReport id) :=
    lockstep.run same fun _ _ _ => trivial
  simpa only [Turn.mapReport_id, List.map_id] using run

/-- The reply to every command is the same, batches included. -/
theorem reply (same : left.SameLive right) (command : Command) :
    (left.perform command).reply = (right.perform command).reply := by
  have histories := (same.after [command]).2
  simp only [history_cons, history_nil, List.append_nil] at histories
  cases batch : command.isBatch with
  | true =>
      obtain ⟨limit, bar, rfl⟩ := Command.eq_run_of_isBatch batch
      exact reply_run_congr histories
  | false =>
      rw [turns_of_single left batch, turns_of_single right batch] at histories
      exact congrArg Turn.reply (List.singleton_inj.mp histories)

end SameLive

/-- Machines with the same breakpoints and last pause that differ in the sound timer and in unused
slots of the call stack at most make the same reports and are refused with the same faults all
through a run, whatever a host asks of them, and at every moment they differ in nothing else. -/
theorem dead_state_never_shows {left right : Machine} (commands : List Command)
    (states : left.state.SameLive right.state) (low : 0 ≤ left.state.stack.pointer)
    (high : left.state.stack.pointer ≤ 15) (breakpoints : left.breakpoints = right.breakpoints)
    (lastBreak : left.lastBreak = right.lastBreak) :
    left.history commands = right.history commands ∧
      ∀ done, done <+: commands →
        (left.after done).state.SameLive (right.after done).state ∧
          (0 ≤ (left.after done).state.stack.pointer ∧
            (left.after done).state.stack.pointer ≤ 15) ∧
          (left.after done).breakpoints = (right.after done).breakpoints ∧
          (left.after done).lastBreak = (right.after done).lastBreak ∧
          ∀ command, ((left.after done).perform command).reply =
            ((right.after done).perform command).reply := by
  have start : left.SameLive right := ⟨states, ⟨low, high⟩, breakpoints, lastBreak⟩
  refine ⟨(start.after commands).2, fun done _ => ?_⟩
  have now := (start.after done).1
  exact ⟨now.state, now.inRange, now.breakpoints, now.lastBreak, now.reply⟩

end Machine

end Source

/-- The address that a return has left behind does not show, nor does a sound timer. -/
theorem Machine.dead_state_never_shows_after_return :
    let left := (create 0 ⟨true, true⟩).after
      [.load [0x22, 0x04, 0x00, 0xE0, 0x00, 0xEE], .step, .step]
    let right : Machine :=
      { left with state := { left.state with stack := .empty, soundTimer := 9 } }
    let commands := [.addBreakpoint 0x202, .step, .tick, .run 40 none]
    left.state.stack.slots[1] = 0x202 ∧ right.state.stack.slots[1] = 0 ∧
      left.state.SameLive right.state ∧ left.history commands = right.history commands := by
  intro left right commands
  obtain ⟨pointer, stale⟩ :
      left.state.stack.pointer = 0 ∧ left.state.stack.slots[1] = 0x202 := by decide +kernel
  clear_value left
  have calls : left.state.stack.SameCalls .empty :=
    ⟨pointer, fun slot used below => absurd below (by omega)⟩
  have states : left.state.SameLive right.state := .intro 9 calls
  exact ⟨stale, rfl, states,
    (dead_state_never_shows commands states (by omega) (by omega) rfl rfl).1⟩

end Chip8
