import Chip8.Proofs.Interchange
import Chip8.Proofs.WordSteps
import Chip8.Threefry

/-!
# Events between steps

A host ticks the timers and moves keys between steps.  Each event changes one timer or one key and
nothing else, so it may as well be put off until after a step that neither reads nor writes what the
event changes.  Events among themselves can be put in any order, but for the two moves of one key.
-/

namespace Chip8

/-- What a host does to the state between two steps. -/
inductive HostEvent where
  /-- Tick the delay timer. -/
  | tickDelay
  /-- Tick the sound timer. -/
  | tickSound
  /-- Put a key down or up. -/
  | moveKey (key : Fin 16) (down : Bool)

section Source

variable [RandomSource]

namespace HostEvent

/-- The command for an event. -/
def command : HostEvent → Command
  | .tickDelay => .tickDelay
  | .tickSound => .tickSound
  | .moveKey key true => .pressKey key.val
  | .moveKey key false => .releaseKey key.val

/-- What an event does to the state. -/
def change : HostEvent → State → State
  | .tickDelay => State.tickDelay
  | .tickSound => State.tickSound
  | .moveKey ⟨key, inside⟩ down =>
    fun state => { state with keypad := state.keypad.set key down inside }

/-- The word at hand reads or writes what an event changes. -/
def Concerns (event : HostEvent) (state : State) : Prop :=
  match event with
  | .tickDelay => Operation.readDelay.Covers state.word ∨ Operation.writeDelay.Covers state.word
  | .tickSound => Operation.writeSound.Covers state.word
  | .moveKey key _ =>
    Operation.waitKey.Covers state.word ∨
      ∃ wanted, (Operation.skip .key wanted).Covers state.word ∧
        state.register (Operand.x.registerIn state.word) % 16 = key

/-- Two events put the same key in opposite positions. -/
def Opposes : HostEvent → HostEvent → Prop
  | .moveKey key down, .moveKey other otherDown => key = other ∧ down ≠ otherDown
  | _, _ => False

theorem unfetched (event : HostEvent) : State.Unfetched event.change := by
  cases event <;> exact ⟨fun _ => rfl, fun _ => rfl, fun _ => rfl⟩

/-- Every event is granted. -/
theorem perform_command (event : HostEvent) (machine : Machine) :
    machine.perform event.command = ⟨machine.mapState event.change, .ok .done, []⟩ := by
  cases event with
  | moveKey key down =>
      have inside : 0 ≤ (key.val : Int) ∧ (key.val : Int) < 16 := by omega
      have granted : machine.state.setKey key.val down =
          .ok (change (.moveKey key down) machine.state) := by
        rw [State.setKey, dif_pos inside]
        rfl
      cases down with
      | true | false =>
          simp only [command, Machine.perform, Machine.setKey, granted, ok_bind]
          rfl
  | _ => rfl

/-! ## Events and instructions -/

/-- The component that an event changes, if instructions write to it. -/
def timer? : HostEvent → Option Component
  | .tickDelay => some .delayTimer
  | .tickSound => some .soundTimer
  | .moveKey _ _ => none

theorem commutes_of_component_ne {event : HostEvent} {effect : Effect}
    (apart : event.timer? ≠ some effect.component) : effect.Commutes event.change := by
  intro state
  cases event with
  | tickDelay =>
      cases effect with
      | setDelay => exact (apart rfl).elim
      | _ => rfl
  | tickSound =>
      cases effect with
      | setSound => exact (apart rfl).elim
      | _ => rfl
  | moveKey key down => cases effect <;> rfl

theorem timer_targets_iff (instruction : Instruction) (state : State) :
    (.delayTimer ∈ instruction.targets state ↔ instruction.operation = .writeDelay) ∧
      (.soundTimer ∈ instruction.targets state ↔ instruction.operation = .writeSound) := by
  cases instruction <;> simp [Instruction.targets, Instruction.transferTargets, Instruction.operation]

section Instructions

variable {event : HostEvent} {state : State} {entry : Entry Operation} {mnemonic : String}
  {instruction : Instruction}

theorem timer?_ne_of_not_concerns (decodes : Decodes state.word entry mnemonic instruction)
    (apart : ¬event.Concerns state) {component : Component}
    (target : component ∈ instruction.targets state.advance) : event.timer? ≠ some component := by
  intro same
  cases event with
  | tickDelay =>
      cases same
      have writes := (timer_targets_iff instruction state.advance).1.mp target
      exact apart (.inr ((decodes.operation_eq_iff (by simp)).mp writes))
  | tickSound =>
      cases same
      have writes := (timer_targets_iff instruction state.advance).2.mp target
      exact apart ((decodes.operation_eq_iff (by simp)).mp writes)
  | moveKey key down => cases same

/-- A key that a test does not ask for can be moved. -/
theorem holds_moveKey {key x : Fin 16} {down : Bool} (other : state.register x % 16 ≠ key) :
    (Condition.keyDown x).holds ((HostEvent.moveKey key down).change state) =
      (Condition.keyDown x).holds state :=
  Vector.getElem_set_ne key.isLt (Nat.mod_lt _ (by decide)) other.symm

theorem effects_change (decodes : Decodes state.word entry mnemonic instruction)
    (apart : ¬event.Concerns state) :
    instruction.effects (event.change state.advance) = instruction.effects state.advance := by
  have own := decodes.eq_instructionIn
  cases event with
  | tickDelay =>
      cases instruction with
      | readDelay x => exact (apart (.inl decodes.covers)).elim
      | _ => rfl
  | tickSound => cases instruction <;> rfl
  | moveKey key down =>
      cases instruction with
      | waitKey x => exact (apart (.inl decodes.covers)).elim
      | skip condition wanted =>
          cases condition with
          | keyDown x =>
              have named : x = Operand.x.registerIn state.word :=
                Condition.keyDown.inj (Instruction.skip.inj own).1
              have other : state.advance.register x % 16 ≠ key := fun same =>
                apart (.inr ⟨wanted, decodes.covers, named ▸ same⟩)
              simp only [Instruction.effects, holds_moveKey other]
          | _ => rfl
      | _ => rfl

theorem waits_change (decodes : Decodes state.word entry mnemonic instruction)
    (apart : ¬event.Concerns state) :
    instruction.waits (event.change state) = instruction.waits state := by
  cases event with
  | moveKey key down =>
      cases instruction with
      | waitKey x => exact (apart (.inl decodes.covers)).elim
      | _ => rfl
  | _ => cases instruction <;> rfl

theorem commutes_change (decodes : Decodes state.word entry mnemonic instruction)
    (apart : ¬event.Concerns state) : instruction.Commutes event.change state.advance := by
  refine Instruction.commutes_of_effects (effects_change decodes apart) ?_
  intro effects acts effect member
  have target := Instruction.component_mem_targets acts effect member
  exact commutes_of_component_ne (timer?_ne_of_not_concerns decodes apart target)

end Instructions

/-! ## Events among themselves -/

theorem change_comm {event other : HostEvent} (apart : ¬event.Opposes other) (state : State) :
    event.change (other.change state) = other.change (event.change state) := by
  cases event with
  | moveKey key down =>
      cases other with
      | moveKey otherKey otherDown =>
          have keypads : (state.keypad.set otherKey otherDown).set key down =
              (state.keypad.set key down).set otherKey otherDown := by
            by_cases same : key = otherKey
            · subst same
              have agree : down = otherDown :=
                Classical.byContradiction fun differ => apart ⟨rfl, differ⟩
              rw [agree]
            · exact Vector.set_comm _ _ (Fin.val_ne_of_ne (Ne.symm same))
          simp only [change, keypads]
      | _ => rfl
  | _ => cases other <;> rfl

theorem change_ne {event other : HostEvent} (opposes : event.Opposes other) (state : State) :
    event.change (other.change state) ≠ other.change (event.change state) := by
  cases event with
  | moveKey key down =>
      cases other with
      | moveKey otherKey otherDown =>
          obtain ⟨rfl, differ⟩ := opposes
          intro same
          have moved := congrArg (fun state : State => state.keypad[key]) same
          exact differ (by simpa [change] using moved)
      | _ => exact opposes.elim
  | _ => exact opposes.elim

end HostEvent

namespace Machine

theorem perform_event_step {machine : Machine} {event : HostEvent}
    (apart : machine.pauses = false → ¬event.Concerns machine.state) :
    ((machine.perform event.command).machine.perform .step).reply = (machine.perform .step).reply ∧
      ((machine.perform event.command).machine.perform .step).machine =
        ((machine.perform .step).machine.perform event.command).machine := by
  have steps : (machine.mapState event.change).step = machine.step.map (changeNext event.change) :=
    step_mapState event.unfetched fun runs _ _ _ decodes =>
      ⟨HostEvent.waits_change decodes (apart runs), HostEvent.commutes_change decodes (apart runs)⟩
  rw [event.perform_command, event.perform_command]
  cases step : machine.step with
  | error fault =>
      rw [step] at steps
      rw [perform_step_error step, perform_step_error steps]
      exact ⟨rfl, rfl⟩
  | ok outcome =>
      rw [step] at steps
      rw [perform_step_ok step, perform_step_ok steps]
      exact ⟨rfl, rfl⟩

theorem perform_event_event (machine : Machine) (event other : HostEvent) :
    ((machine.perform event.command).machine.perform other.command).machine =
        ((machine.perform other.command).machine.perform event.command).machine ↔
      ¬event.Opposes other := by
  simp only [HostEvent.perform_command]
  constructor
  · intro same opposes
    exact HostEvent.change_ne opposes machine.state (congrArg Machine.state same).symm
  · intro apart
    simp only [mapState, HostEvent.change_comm apart]

/-- An event that does not concern the word at hand can be put off until after the step: the step
replies the same, be it a report or a fault, and the machine ends up the same.  Two events can change
places exactly if they are not opposite moves of one key. -/
theorem events_commute_with_steps (machine : Machine) (event : HostEvent) :
    ((machine.pauses = false → ¬event.Concerns machine.state) →
      ((machine.perform event.command).machine.perform .step).reply =
          (machine.perform .step).reply ∧
        ((machine.perform event.command).machine.perform .step).machine =
          ((machine.perform .step).machine.perform event.command).machine) ∧
      ∀ other : HostEvent,
        ((machine.perform event.command).machine.perform other.command).machine =
            ((machine.perform other.command).machine.perform event.command).machine ↔
          ¬event.Opposes other := by
  exact ⟨perform_event_step, machine.perform_event_event event⟩

end Machine

end Source

/-- A key can be put down after a test of another key as well as before it, but not after it has been
put up. -/
theorem Machine.events_commute_with_steps_on_other_key :
    let start := create 0 ⟨true, true⟩
    let memory := Memory.blank.writeAll 0x200 [0xE0, 0x9E]
    let machine : Machine := { start with state := { start.state with memory } }
    let press : HostEvent := .moveKey 5 true
    let release : HostEvent := .moveKey 5 false
    machine.pauses = false ∧ ¬press.Concerns machine.state ∧
      ((machine.perform press.command).machine.perform .step).reply =
        (machine.perform .step).reply ∧
      ((machine.perform press.command).machine.perform .step).machine =
        ((machine.perform .step).machine.perform press.command).machine ∧
      ((machine.perform press.command).machine.perform release.command).machine ≠
        ((machine.perform release.command).machine.perform press.command).machine := by
  intro start memory machine press release
  have word : machine.state.word = 0xE09E := by decide +kernel
  have apart : ¬press.Concerns machine.state := by
    rintro (covers | ⟨wanted, -, same⟩)
    · rw [word] at covers
      exact absurd covers (by decide)
    · rw [word] at same
      cases same
  obtain ⟨steps, events⟩ := machine.events_commute_with_steps press
  obtain ⟨reply, reached⟩ := steps fun _ => apart
  exact ⟨rfl, apart, reply, reached, fun same => (events release).mp same ⟨rfl, nofun⟩⟩

end Chip8
