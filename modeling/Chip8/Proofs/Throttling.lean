import Mathlib.Data.Rat.Floor
import Chip8.Proofs.ProgressBars

/-!
# Throttled reports

As long as a batch goes on, its bar reports one stride at a time; the last step of the batch is
always reported, with what has come since the last stride.  So the reports are behind the steps by
less than a stride, and there are as many of them as whole strides have been made, the last one of
a complete batch being counted even if it is shorter.
-/

namespace Chip8
namespace ProgressBar

theorem strideOf_le {total : Int} (positive : 0 < total) (chosen : Option Int) :
    strideOf total chosen ≤ total := by
  cases chosen <;> simp only [strideOf] <;> omega

/-- The step told last is an update of the bar that has been told of those before it. -/
theorem follow_succ (bar : ProgressBar) (done count : Nat) :
    bar.follow done (count + 1) = (bar.follow done count).update (done + count + 1 : Nat) := by
  induction count generalizing bar done with
  | zero => rfl
  | succ count ih =>
      have later := ih (bar.update (done + 1 : Nat)) (done + 1)
      rw [show done + 1 + count + 1 = done + (count + 1) + 1 by omega] at later
      exact later

/-! ## One call -/

namespace Tracks

variable {bar : ProgressBar} {total stride done : Int}

/-- The reports are not ahead of the steps, and behind them by less than a stride. -/
theorem lag (tracks : bar.Tracks total stride done) (positive : 0 < stride) :
    bar.advances.sum ≤ done ∧ done - bar.advances.sum < stride := by
  have split := Int.mul_ediv_add_emod done stride
  have rest_nonneg := Int.emod_nonneg done (Int.ne_of_gt positive)
  have rest_lt := Int.emod_lt_of_pos done positive
  rw [tracks.sum_advances, tracks.reported_eq, reportable]
  split <;> omega

/-- Before the last step of a batch a report is of one stride; of the last step there is a report,
and it is of one step at least. -/
theorem exists_advances_update (tracks : bar.Tracks total stride done) (positive : 0 < stride) :
    ∃ made, (bar.update (done + 1)).advances = bar.advances ++ made ∧
      (∀ steps ∈ made, 0 < steps ∧ (done + 1 < total → steps = stride)) ∧
      (done + 1 = total → made.length = 1) := by
  obtain ⟨not_ahead, close_behind⟩ := tracks.lag positive
  rw [tracks.sum_advances] at not_ahead close_behind
  by_cases reports : bar.ReportsAt (done + 1)
  · refine ⟨_, bar.advances_update_of_reportsAt reports, ?_, fun _ => rfl⟩
    rw [ReportsAt, tracks.stride_eq, tracks.total_eq] at reports
    intro steps member
    rw [List.mem_singleton.mp member]
    omega
  · refine ⟨[], ?_, by simp, ?_⟩
    · rw [bar.update_of_not_reportsAt reports, List.append_nil]
    · rw [ReportsAt, tracks.total_eq] at reports
      omega

end Tracks

/-! ## Calls in a row -/

section Calls

variable {total : Int} (options : BarOptions) {calls : Nat}

theorem tracks_follow (within : calls ≤ total) :
    ((start total options).follow 0 calls).Tracks total (strideOf total options.stride) calls := by
  have start : (ProgressBar.start total options).Tracks total (strideOf total options.stride)
      (0 : Nat) := .start total options
  have followed := start.follow (strideOf_pos total options.stride) calls (by omega)
  rwa [Nat.zero_add] at followed

/-- What a bar reports when it is told of one more step. -/
theorem exists_advances_follow (unfinished : calls < total) :
    ∃ made, ((start total options).follow 0 (calls + 1)).advances =
        ((start total options).follow 0 calls).advances ++ made ∧
      (∀ steps ∈ made, 0 < steps ∧
        (calls + 1 < total → steps = strideOf total options.stride)) ∧
      (calls + 1 = total → made.length = 1) := by
  rw [follow_succ, Nat.zero_add]
  exact (tracks_follow options unfinished.le).exists_advances_update
    (strideOf_pos total options.stride)

/-- As long as the batch goes on, every report is of one stride. -/
theorem advances_eq_stride (unfinished : calls < total) :
    ∀ steps ∈ ((start total options).follow 0 calls).advances,
      steps = strideOf total options.stride := by
  induction calls with
  | zero => simp [follow, start, advances, signals]
  | succ calls ih =>
      have earlier : calls < total := by omega
      obtain ⟨made, grown, each, -⟩ := exists_advances_follow options earlier
      rw [grown]
      exact List.forall_mem_append.mpr
        ⟨ih earlier, fun steps member => (each steps member).2 unfinished⟩

theorem advances_pos (within : calls ≤ total) :
    ∀ steps ∈ ((start total options).follow 0 calls).advances, 0 < steps := by
  cases calls with
  | zero => simp [follow, start, advances, signals]
  | succ calls =>
      have earlier : calls < total := by omega
      obtain ⟨made, grown, each, -⟩ := exists_advances_follow options earlier
      rw [grown]
      refine List.forall_mem_append.mpr ⟨fun steps member => ?_, fun steps member => ?_⟩
      · rw [advances_eq_stride options earlier steps member]
        exact strideOf_pos total options.stride
      · exact (each steps member).1

/-! ## Numbers of reports -/

/-- The steps of a batch that goes on are those of the strides reported, and less than one stride
more. -/
theorem length_advances_bounds (unfinished : calls < total) :
    let stride := strideOf total options.stride
    let reported := ((start total options).follow 0 calls).advances.length * stride
    reported ≤ calls ∧ calls < reported + stride := by
  intro stride reported
  have sum_eq : ((start total options).follow 0 calls).advances.sum = reported := by
    rw [List.sum_eq_card_nsmul _ _ (advances_eq_stride options unfinished), nsmul_eq_mul]
  obtain ⟨not_ahead, close_behind⟩ := (tracks_follow options unfinished.le).lag
    (strideOf_pos total options.stride)
  rw [sum_eq] at not_ahead close_behind
  exact ⟨not_ahead, sub_lt_iff_lt_add'.mp close_behind⟩

theorem length_advances_of_lt (unfinished : calls < total) :
    (((start total options).follow 0 calls).advances.length : Int) =
      ⌊(calls / strideOf total options.stride : ℚ)⌋ := by
  have positive : (0 : ℚ) < strideOf total options.stride := by
    exact_mod_cast strideOf_pos total options.stride
  obtain ⟨whole, short⟩ := length_advances_bounds options unfinished
  symm
  rw [Int.floor_eq_iff, le_div_iff₀ positive, div_lt_iff₀ positive, add_mul, one_mul]
  exact ⟨by exact_mod_cast whole, by exact_mod_cast short⟩

/-- The last step of a batch makes one more report, be it of a whole stride or not. -/
theorem length_advances_of_eq (complete : calls = total) (some_steps : 0 < total) :
    (((start total options).follow 0 calls).advances.length : Int) =
      ⌈(total / strideOf total options.stride : ℚ)⌉ := by
  obtain ⟨before, rfl⟩ : ∃ before, calls = before + 1 :=
    Nat.exists_eq_succ_of_ne_zero (by omega)
  have unfinished : before < total := by omega
  obtain ⟨made, grown, -, one⟩ := exists_advances_follow options unfinished
  rw [grown, List.length_append, one (by exact_mod_cast complete)]
  have positive : (0 : ℚ) < strideOf total options.stride := by
    exact_mod_cast strideOf_pos total options.stride
  obtain ⟨whole, short⟩ := length_advances_bounds options unfinished
  have above := whole.trans_lt unfinished
  have reached := Int.add_one_le_of_lt short
  rw [show (before : Int) + 1 = total by exact_mod_cast complete] at reached
  symm
  rw [Int.ceil_eq_iff, lt_div_iff₀ positive, div_le_iff₀ positive]
  push_cast
  rw [add_sub_cancel_right, add_mul, one_mul]
  exact ⟨by exact_mod_cast above, by exact_mod_cast reached⟩

end Calls

/-! ## Throttled reports -/

/-- A bar that has been called after each of the first steps of a batch has reported them a stride
at a time. -/
structure Throttled (bar : ProgressBar) (total stride calls : Int) : Prop where
  positive : ∀ steps ∈ bar.advances, 0 < steps
  of_stride : calls < total → ∀ steps ∈ bar.advances, steps = stride
  reported_eq : bar.reported = bar.advances.sum
  not_ahead : bar.advances.sum ≤ calls
  close_behind : calls - bar.advances.sum < stride
  length_early : calls < total → (bar.advances.length : Int) = ⌊(calls / stride : ℚ)⌋
  length_complete : calls = total → (bar.advances.length : Int) = ⌈(total / stride : ℚ)⌉
  sum_complete : calls = total → bar.advances.sum = total

/-- The stride of a bar is at least one step and at most the whole batch, whatever is asked for.  A
call of the bar makes only reports of one stride, except for the call after the last step, which
makes one report of what is left; so the reports stay less than a stride behind the steps, there is
one for each whole stride, and in the end one for the rest if there is any. -/
theorem reports_are_throttled (total : Int) (some_steps : 0 < total) (options : BarOptions) :
    let bar := start total options
    (1 ≤ bar.stride ∧ bar.stride ≤ total) ∧
      (∀ calls : Nat, calls ≤ total →
        (bar.follow 0 calls).Throttled total bar.stride calls) ∧
      ∀ calls : Nat, calls < total →
        ∃ made, (bar.follow 0 (calls + 1)).advances = (bar.follow 0 calls).advances ++ made ∧
          (∀ steps ∈ made, 0 < steps ∧ (calls + 1 < total → steps = bar.stride)) ∧
          (calls + 1 = total → made.length = 1) := by
  intro bar
  have stride_pos : 0 < bar.stride := strideOf_pos total options.stride
  refine ⟨⟨stride_pos, strideOf_le some_steps options.stride⟩, fun calls within => ?_,
    fun calls unfinished => exists_advances_follow options unfinished⟩
  have tracks := tracks_follow options within
  obtain ⟨not_ahead, close_behind⟩ := tracks.lag stride_pos
  constructor
  case positive => exact advances_pos options within
  case of_stride => exact fun unfinished => advances_eq_stride options unfinished
  case reported_eq => exact tracks.sum_advances.symm
  case not_ahead => exact not_ahead
  case close_behind => exact close_behind
  case length_early => exact fun unfinished => length_advances_of_lt options unfinished
  case length_complete => exact fun complete => length_advances_of_eq options complete some_steps
  case sum_complete =>
    intro complete
    rw [tracks.sum_advances, tracks.reported_eq, reportable, if_pos complete, complete]

/-- Seven steps in strides of three: two whole strides, and a last report of one step. -/
theorem reports_are_throttled_with_a_rest :
    let bar := start 7 ⟨some 3, none, .none⟩
    (0 : Int) < 7 ∧ (bar.follow 0 7).advances = [3, 3, 1] ∧
      (bar.follow 0 7).Throttled 7 3 7 := by
  intro bar
  have throttled := (reports_are_throttled 7 (by decide) ⟨some 3, none, .none⟩).2.1 7 (by decide)
  exact ⟨by decide, by decide +kernel, throttled⟩

end ProgressBar
end Chip8
