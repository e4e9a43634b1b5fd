import Mathlib.Data.List.Induction
import Chip8.Proofs.RandomStream
import Chip8.Proofs.Waiting
import Chip8.Threefry

/-!
# The keypad

A key is down if the last command that moved it put it down.  Instructions read the keypad and never
write to it, loads leave it alone, and a command for a key outside the sixteen is refused before
anything is changed, so that a negative number does not name a key from the other end.
-/

namespace Chip8

namespace Command

/-- The command that puts a key down or up. -/
def moveKey (key : Int) (down : Bool) : Command :=
  if down then .pressKey key else .releaseKey key

theorem exists_moveKey {command : Command} (moves : command.movesKey = true) :
    ∃ key down, command = moveKey key down := by
  cases command with
  | pressKey key => exact ⟨key, true, rfl⟩
  | releaseKey key => exact ⟨key, false, rfl⟩
  | _ => cases moves

theorem moveKey_inj {key other : Int} {down otherDown : Bool} :
    moveKey key down = moveKey other otherDown ↔ key = other ∧ down = otherDown := by
  cases down <;> cases otherDown <;> simp [moveKey]

end Command

/-- Among commands there is one that puts a key down, and none after the last of these puts it up. -/
def LastPressed (key : Fin 16) (commands : List Command) : Prop :=
  ∃ earlier later, commands = earlier ++ .pressKey key.val :: later ∧
    .pressKey key.val ∉ later ∧ .releaseKey key.val ∉ later

theorem not_lastPressed_nil (key : Fin 16) : ¬LastPressed key [] := by
  rintro ⟨earlier, later, split, -⟩
  simp at split

/-- The last command decides, unless it is not about the key. -/
theorem lastPressed_concat (key : Fin 16) (commands : List Command) (command : Command) :
    LastPressed key (commands ++ [command]) ↔
      command = .pressKey key.val ∨ command ≠ .releaseKey key.val ∧ LastPressed key commands := by
  constructor
  · rintro ⟨earlier, later, split, no_press, no_release⟩
    induction later using List.reverseRecOn with
    | nil =>
        obtain ⟨-, last⟩ := List.append_inj' split rfl
        exact .inl (List.singleton_inj.mp last)
    | append_singleton later last =>
        rw [← List.cons_append, ← List.append_assoc] at split
        obtain ⟨before, same⟩ := List.append_inj' split rfl
        obtain rfl := List.singleton_inj.mp same
        rw [List.mem_append, not_or] at no_press no_release
        refine .inr ⟨?_, earlier, later, before, no_press.1, no_release.1⟩
        rintro rfl
        exact no_release.2 List.mem_cons_self
  · rintro (rfl | ⟨no_release, earlier, later, rfl, quiet, still⟩)
    · exact ⟨commands, [], rfl, List.not_mem_nil, List.not_mem_nil⟩
    · by_cases press : command = .pressKey key.val
      · exact ⟨_, [], by rw [press], List.not_mem_nil, List.not_mem_nil⟩
      · refine ⟨earlier, later ++ [command], by simp, ?_, ?_⟩
        · simpa [quiet] using Ne.symm press
        · simpa [still] using Ne.symm no_release

namespace Machine

/-! ## Moving a key -/

variable [RandomSource]

section Moves

variable {machine : Machine} {key : Int} {down : Bool}

omit [RandomSource] in
theorem isRequest_moveKey (key : Int) (down : Bool) :
    (Command.moveKey key down).isRequest = true := by
  cases down <;> rfl

theorem onState_moveKey (key : Int) (down : Bool) (state : State) :
    (Command.moveKey key down).onState state = state.setKey key down := by
  cases down <;> rfl

theorem perform_moveKey_outside (outside : ¬(0 ≤ key ∧ key < 16)) :
    machine.perform (.moveKey key down) = ⟨machine, .error (.noSuchKey key), []⟩ := by
  refine perform_request_error (isRequest_moveKey key down) ?_
  rw [onState_moveKey, State.setKey, dif_neg outside]

/-- A key of the keypad is moved where the command says, and the others stay where they are. -/
theorem perform_moveKey_inside (inside : 0 ≤ key ∧ key < 16) :
    (machine.perform (.moveKey key down)).reply = .ok .done ∧
      ∀ k : Fin 16, (machine.perform (.moveKey key down)).machine.state.keypad.get k =
        if key = k.val then down else machine.state.keypad.get k := by
  obtain ⟨next, granted⟩ : ∃ next, machine.state.setKey key down = .ok next :=
    ⟨_, dif_pos inside⟩
  obtain ⟨reply, reached⟩ := perform_request_ok (isRequest_moveKey key down)
    ((onState_moveKey key down machine.state).trans granted)
  refine ⟨reply, fun k => ?_⟩
  obtain ⟨below, rfl⟩ := State.setKey_eq_ok granted
  have named : key.toNat = k.val ↔ key = k.val := by omega
  rw [reached]
  change (machine.state.keypad.set key.toNat down below)[k.val] = _
  rw [Vector.getElem_set]
  simp only [named]
  rfl

theorem keypad_perform_moveKey (k : Fin 16) :
    (machine.perform (.moveKey key down)).machine.state.keypad.get k =
      if key = k.val then down else machine.state.keypad.get k := by
  by_cases inside : 0 ≤ key ∧ key < 16
  · exact (perform_moveKey_inside inside).2 k
  · have other : key ≠ k.val := by omega
    rw [perform_moveKey_outside inside, if_neg other]

end Moves

/-! ## Everything else -/

theorem keypad_onState {command : Command} {state next : State} (other : command.movesKey = false)
    (granted : command.onState state = .ok next) : next.keypad = state.keypad := by
  cases command with
  | pressKey | releaseKey => cases other
  | load rom =>
      obtain ⟨-, rfl⟩ := State.load_eq_ok granted
      rfl
  | _ =>
      cases granted
      rfl

theorem keypad_step {machine next : Machine} {result : StepResult}
    (step : machine.step = .ok (result, next)) : next.state.keypad = machine.state.keypad := by
  cases stepsTo_of_step step with
  | completed => exact Effect.keypad_applyAll _ _
  | paused | invalid | refused | awaiting => rfl

/-- The keypad is the same all along a walk. -/
theorem Walk.keypad {machine last : Machine} {steps : List (StepResult × State)}
    (walk : machine.Walk steps last) :
    last.state.keypad = machine.state.keypad ∧
      ∀ step ∈ steps, step.2.keypad = machine.state.keypad := by
  induction walk with
  | refl => exact ⟨rfl, fun _ member => absurd member List.not_mem_nil⟩
  | head step _ ih =>
      have first := keypad_step step
      obtain ⟨last, later⟩ := ih
      refine ⟨last.trans first, fun shown member => ?_⟩
      rcases List.mem_cons.mp member with rfl | member
      · exact first
      · exact (later shown member).trans first

theorem keypad_perform (machine : Machine) {command : Command} (other : command.movesKey = false) :
    (machine.perform command).machine.state.keypad = machine.state.keypad ∧
      ∀ step ∈ (machine.perform command).steps, step.2.keypad = machine.state.keypad := by
  cases request : command.isRequest with
  | false => exact (machine.walk_of_poll request).keypad
  | true =>
      rw [steps_request machine request]
      refine ⟨?_, fun _ member => absurd member List.not_mem_nil⟩
      cases outcome : command.onState machine.state with
      | error fault => rw [perform_request_error request outcome]
      | ok state =>
          rw [(perform_request_ok request outcome).2]
          exact keypad_onState other outcome

/-! ## Whole runs -/

theorem keypad_perform_iff (machine : Machine) (command : Command) (key : Fin 16) :
    (machine.perform command).machine.state.keypad.get key = true ↔
      command = .pressKey key.val ∨
        command ≠ .releaseKey key.val ∧ machine.state.keypad.get key = true := by
  cases moves : command.movesKey with
  | false =>
      have no_press : command ≠ .pressKey key.val := by rintro rfl; cases moves
      have no_release : command ≠ .releaseKey key.val := by rintro rfl; cases moves
      rw [(machine.keypad_perform moves).1]
      simp [no_press, no_release]
  | true =>
      obtain ⟨moved, down, rfl⟩ := Command.exists_moveKey moves
      have press : Command.pressKey key.val = .moveKey key.val true := rfl
      have release : Command.releaseKey key.val = .moveKey key.val false := rfl
      rw [keypad_perform_moveKey, press, release, ne_eq, Command.moveKey_inj, Command.moveKey_inj]
      by_cases same : moved = key.val
      · cases down <;> simp [same]
      · simp [same]

theorem keypad_after_iff (seed : Int) (dialect : Dialect) (commands : List Command)
    (key : Fin 16) :
    ((create seed dialect).after commands).state.keypad.get key = true ↔
      LastPressed key commands := by
  induction commands using List.reverseRecOn with
  | nil =>
      have up : (create seed dialect).state.keypad.get key = false :=
        Vector.getElem_replicate key.isLt
      exact iff_of_false (Bool.eq_false_iff.mp up) (not_lastPressed_nil key)
  | append_singleton commands command ih =>
      rw [after_append, after_cons, after_nil, keypad_perform_iff, lastPressed_concat, ih]

/-- Whatever a new machine has been told, a key is down exactly if it has been put down and not put
up since it was last put down.  A command for a key is refused exactly if the key is not one of the
sixteen, and then it changes nothing and shows nothing.  Any other command leaves the keypad as it
is, as do all the steps that it shows. -/
theorem keypad_is_the_last_word (seed : Int) (dialect : Dialect) (commands : List Command) :
    let machine := (create seed dialect).after commands
    (∀ key : Fin 16, machine.state.keypad.get key = true ↔ LastPressed key commands) ∧
      (∀ (key : Int) (command : Command), command = .pressKey key ∨ command = .releaseKey key →
        ((∃ fault, (machine.perform command).reply = .error fault) ↔ key < 0 ∨ 15 < key) ∧
          (key < 0 ∨ 15 < key →
            machine.perform command = ⟨machine, .error (.noSuchKey key), []⟩)) ∧
      ∀ command : Command, command.movesKey = false →
        (machine.perform command).machine.state.keypad = machine.state.keypad ∧
          ∀ step ∈ (machine.perform command).steps, step.2.keypad = machine.state.keypad := by
  intro machine
  refine ⟨keypad_after_iff seed dialect commands, ?_, fun command other =>
    machine.keypad_perform other⟩
  intro key command moves
  obtain ⟨down, rfl⟩ : ∃ down, command = .moveKey key down := by
    rcases moves with rfl | rfl
    · exact ⟨true, rfl⟩
    · exact ⟨false, rfl⟩
  by_cases inside : 0 ≤ key ∧ key < 16
  · have sixteen : ¬(key < 0 ∨ 15 < key) := by omega
    refine ⟨iff_of_false ?_ sixteen, fun outside => (sixteen outside).elim⟩
    rw [(perform_moveKey_inside inside).1]
    rintro ⟨fault, refused⟩
    cases refused
  · have performed :
        machine.perform (.moveKey key down) = ⟨machine, .error (.noSuchKey key), []⟩ :=
      perform_moveKey_outside inside
    refine ⟨iff_of_true ⟨_, congrArg Activity.reply performed⟩ (by omega), fun _ => performed⟩

end Machine

/-- A key that has been put up and then down stays down while a program runs, and cannot be put up by
the number that would name it from the other end. -/
theorem Machine.keypad_is_the_last_word_for_a_negative_key :
    let later : List Command := [.load [0x12, 0x00], .run 5 none, .tick]
    let machine := (create 0 ⟨true, true⟩).after (.releaseKey 3 :: .pressKey 3 :: later)
    machine.state.keypad.get 3 = true ∧
      machine.perform (.releaseKey (-13)) = ⟨machine, .error (.noSuchKey (-13)), []⟩ ∧
      (machine.perform (.run 5 none)).machine.state.keypad = machine.state.keypad := by
  intro later machine
  obtain ⟨down, refused, kept⟩ :=
    keypad_is_the_last_word 0 ⟨true, true⟩ (.releaseKey 3 :: .pressKey 3 :: later)
  change ∀ command : Command, _ →
    (machine.perform command).machine.state.keypad = machine.state.keypad ∧ _ at kept
  have pressed : LastPressed 3 (.releaseKey 3 :: .pressKey 3 :: later) :=
    ⟨[.releaseKey 3], later, rfl, by decide, by decide⟩
  refine ⟨(down 3).mpr pressed, ?_, (kept (.run 5 none) rfl).1⟩
  exact (refused (-13) (.releaseKey (-13)) (.inr rfl)).2 (.inl (by decide))

end Chip8
