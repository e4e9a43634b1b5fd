import Chip8.Registers
import Chip8.Proofs.Numerals

/-!
# Listings of registers

Inspectors show the registers as texts under names.  The names of the five single registers have at
most two characters, those of the stack slots more, and only those of the value registers begin with
a `V`; within a family the names are told apart by the position.  So no text takes the place of
another one.  The two families can be separated again, and each text tells its number, so the listing
tells the snapshot.
-/

namespace Chip8

theorem Numeral.hex_injective (width : Nat) : Function.Injective (hex width) :=
  fun _ _ same => Layout.chars_injective _ (String.ofList_injective same)

theorem Numeral.length_hex_pos (width : Nat) (value : Int) : 0 < (hex width value).length := by
  rw [hex, String.length_ofList]
  exact Layout.length_chars_pos _ value

namespace RegisterSnapshot

/-! ## Names -/

/-- The name of a position in a family. -/
def numbered (name : String) (position : Nat) : String :=
  name ++ Numeral.hex 0 position

/-- The names of the registers that stand alone. -/
def singleNames : List String :=
  ["PC", "I", "SP", "DT", "ST"]

/-- Whether a name is one of a value register. -/
def isValueName (name : String) : Bool :=
  name.toList.head? == some 'V'

theorem numbered_injective (name : String) : Function.Injective (numbered name) := by
  intro position other same
  exact_mod_cast Numeral.hex_injective 0 ((String.append_right_inj name).mp same)

theorem length_numbered_gt (name : String) (position : Nat) :
    name.length < (numbered name position).length := by
  have digits := Numeral.length_hex_pos 0 position
  rw [numbered, String.length_append]
  omega

theorem length_le_of_mem_singleNames : ∀ name ∈ singleNames, name.length ≤ 2 := by
  decide

theorem isValueName_of_mem_singleNames : ∀ name ∈ singleNames, isValueName name = false := by
  decide

theorem isValueName_slot (position : Nat) : isValueName (numbered "SP" position) = false := by
  rw [isValueName, numbered, String.toList_append]
  rfl

theorem isValueName_value (position : Nat) : isValueName (numbered "V" position) = true := by
  rw [isValueName, numbered, String.toList_append]
  rfl

theorem map_fst_family (name : String) (width : Nat) (values : List Int) :
    (family name width values).map Prod.fst = (List.range values.length).map (numbered name) := by
  calc (family name width values).map Prod.fst
      = (values.zipIdx.map Prod.snd).map (numbered name) := by
        rw [family, List.map_map, List.map_map]
        rfl
    _ = (List.range values.length).map (numbered name) := by
        rw [List.zipIdx_map_snd, List.range_eq_range']

theorem map_snd_family (name : String) (width : Nat) (values : List Int) :
    (family name width values).map Prod.snd =
      values.map fun value => "0x" ++ Numeral.hex width value := by
  calc (family name width values).map Prod.snd
      = (values.zipIdx.map Prod.fst).map fun value => "0x" ++ Numeral.hex width value := by
        rw [family, List.map_map, List.map_map]
        rfl
    _ = values.map fun value => "0x" ++ Numeral.hex width value := by
        rw [List.zipIdx_map_fst]

/-- The names of all registers in the order in which they are written down. -/
theorem map_fst_fields (snapshot : RegisterSnapshot) :
    snapshot.fields.map Prod.fst =
      singleNames ++ (List.range snapshot.stack.length).map (numbered "SP") ++
        (List.range snapshot.values.length).map (numbered "V") := by
  rw [fields, List.map_append, List.map_append, map_fst_family, map_fst_family]
  rfl

theorem nodup_numbered (name : String) (count : Nat) :
    ((List.range count).map (numbered name)).Nodup :=
  List.nodup_range.map (numbered_injective name)

/-- No name is given to two registers. -/
theorem nodup_names (snapshot : RegisterSnapshot) : (snapshot.fields.map Prod.fst).Nodup := by
  rw [map_fst_fields, List.nodup_append', List.nodup_append']
  refine ⟨⟨by decide, nodup_numbered "SP" _, ?_⟩, nodup_numbered "V" _, ?_⟩
  · intro name single slot
    obtain ⟨position, -, rfl⟩ := List.mem_map.mp slot
    have short := length_le_of_mem_singleNames _ single
    have long : 2 < (numbered "SP" position).length := length_numbered_gt "SP" position
    omega
  · intro name earlier value
    obtain ⟨position, -, rfl⟩ := List.mem_map.mp value
    have is_value := isValueName_value position
    rcases List.mem_append.mp earlier with single | slot
    · rw [isValueName_of_mem_singleNames _ single] at is_value
      cases is_value
    · obtain ⟨other, -, same⟩ := List.mem_map.mp slot
      rw [← same, isValueName_slot] at is_value
      cases is_value

/-- The listing has all registers that are written down. -/
theorem format_eq_fields (snapshot : RegisterSnapshot) : snapshot.format = snapshot.fields :=
  Dictionary.entries_ofEntries snapshot.nodup_names

/-! ## Reading a listing -/

theorem family_injective (name : String) (width : Nat) :
    Function.Injective (family name width) := by
  intro values others same
  have texts := congrArg (List.map Prod.snd) same
  rw [map_snd_family, map_snd_family] at texts
  refine List.map_injective_iff.mpr (fun value other equal => ?_) texts
  exact Numeral.hex_injective width ((String.append_right_inj "0x").mp equal)

theorem field_injective (name : String) (width : Nat) : Function.Injective (field name width) := by
  intro value other same
  exact Numeral.hex_injective width ((String.append_right_inj "0x").mp (congrArg Prod.snd same))

/-- The names tell how many value registers there are. -/
theorem countP_isValueName (snapshot : RegisterSnapshot) :
    (snapshot.fields.map Prod.fst).countP isValueName = snapshot.values.length := by
  have no_slot : ((List.range snapshot.stack.length).map (numbered "SP")).countP isValueName = 0 := by
    simp [List.countP_map, Function.comp_def, isValueName_slot]
  have all_values :
      ((List.range snapshot.values.length).map (numbered "V")).countP isValueName =
        snapshot.values.length := by
    simp [List.countP_map, Function.comp_def, isValueName_value]
  have no_single : singleNames.countP isValueName = 0 := by decide
  rw [map_fst_fields, List.countP_append, List.countP_append, no_single, no_slot, all_values,
    Nat.zero_add]

theorem length_fields (snapshot : RegisterSnapshot) :
    snapshot.fields.length = 5 + snapshot.stack.length + snapshot.values.length := by
  rw [← List.length_map Prod.fst, map_fst_fields]
  simp only [singleNames, List.length_append, List.length_map, List.length_range, List.length_cons,
    List.length_nil]

/-- What is written down tells the snapshot. -/
theorem fields_injective : Function.Injective fields := by
  intro snapshot other same
  have values_length : snapshot.values.length = other.values.length := by
    rw [← countP_isValueName, ← countP_isValueName, same]
  have family_length : (family "V" 2 snapshot.values).length =
      (family "V" 2 other.values).length := by
    simp [family, values_length]
  obtain ⟨front, values⟩ := List.append_inj' same family_length
  obtain ⟨singles, stack⟩ := List.append_inj front rfl
  simp only [List.cons.injEq, and_true] at singles
  obtain ⟨pc, index, stackPointer, delayTimer, soundTimer⟩ := singles
  obtain ⟨values_of, index_of, pc_of, pointer_of, delay_of, sound_of, stack_of⟩ := snapshot
  obtain rfl := field_injective _ _ pc
  obtain rfl := field_injective _ _ index
  obtain rfl := field_injective _ _ stackPointer
  obtain rfl := field_injective _ _ delayTimer
  obtain rfl := field_injective _ _ soundTimer
  obtain rfl := family_injective _ _ stack
  obtain rfl := family_injective _ _ values
  rfl

/-- A listing has an entry for each of the five single registers, for each slot of the stack and for
each value register, in this order, and no entry has taken the place of another.  Snapshots with the
same listing are the same, whatever the size and sign of their numbers and however many slots and
registers they have. -/
theorem listing_is_lossless (snapshot : RegisterSnapshot) :
    snapshot.format = snapshot.fields ∧
      snapshot.format.length = 5 + snapshot.stack.length + snapshot.values.length ∧
      snapshot.format.map Prod.fst =
        ["PC", "I", "SP", "DT", "ST"] ++
          (List.range snapshot.stack.length).map (fun slot : Nat => "SP" ++ Numeral.hex 0 slot) ++
          (List.range snapshot.values.length).map (fun register : Nat =>
            "V" ++ Numeral.hex 0 register) ∧
      (snapshot.format.map Prod.fst).Nodup ∧
      ∀ other : RegisterSnapshot, snapshot.format = other.format → snapshot = other := by
  rw [format_eq_fields]
  refine ⟨rfl, snapshot.length_fields, snapshot.map_fst_fields, snapshot.nodup_names, ?_⟩
  intro other same
  rw [format_eq_fields] at same
  exact fields_injective same

end RegisterSnapshot
end Chip8
