import Chip8.Template
import Chip8.Proofs.Refusals

/-!
# Rendering a template

A template is rendered in two passes: first the operands that its fields name are fetched, and then
the pieces are filled with them.  The first pass stops at the leftmost name that is refused.  If none
is, it has fetched every operand that the second pass needs, so that every field is filled with the
value of its own operand, however often it is named.
-/

namespace Chip8

/-! ## Pieces -/

namespace Segment

/-- A field of a template that names one of the operands, or a literal character. -/
def isKnown : Segment → Bool
  | .literal _ => true
  | .field operand _ => (Operand.ofName? operand).isSome

/-- The operand that a piece names. -/
def operand? : Segment → Option Operand
  | .literal _ => none
  | .field name _ => Operand.ofName? name

/-- The text of a piece where every name has a value. -/
def showing (value : String → Int) : Segment → List Char
  | .literal character => [character]
  | .field name spec => (spec.getD ⟨0, 0, none⟩).layout.chars (value name)

theorem fill_eq_showing {segment : Segment} {operands : Dictionary Int} {value : String → Int}
    (fetched : ∀ name ∈ segment.name?, operands.get name = .ok (value name)) :
    segment.fill operands = .ok (segment.showing value) := by
  cases segment with
  | literal character => rfl
  | field name spec =>
      rw [fill, fetched name rfl, ok_bind]
      rfl

end Segment

namespace Template

/-- The operands that a template names. -/
def operands (template : Template) : List Operand :=
  template.segments.filterMap Segment.operand?

/-! ## Fetching the operands -/

section Fetching

variable {opcode : Opcode} {value : String → Int} {names : List String}

/-- Names that all have values are fetched with them, and nothing else is. -/
theorem exists_foldlM_collect (found : ∀ name ∈ names, opcode.operand name = .ok (value name))
    (operands : Dictionary Int) :
    ∃ after, names.foldlM (collect opcode) operands = .ok after ∧
      ∀ name, after.get name = if name ∈ names then .ok (value name) else operands.get name := by
  induction names generalizing operands with
  | nil => exact ⟨operands, rfl, fun name => (if_neg List.not_mem_nil).symm⟩
  | cons first names ih =>
      have first_found := found first List.mem_cons_self
      obtain ⟨after, collected, get_after⟩ :=
        ih (fun name later => found name (List.mem_cons_of_mem first later))
          (operands.set first (value first))
      refine ⟨after, ?_, fun name => ?_⟩
      · rw [List.foldlM_cons, collect, first_found]
        exact collected
      · rw [get_after, Dictionary.get_set]
        by_cases same : name = first <;> by_cases later : name ∈ names <;> simp [same, later]

/-- The leftmost name that is refused decides the fault. -/
theorem foldlM_collect_of_refused {front back : List String} {name : String} {fault : Fault}
    (found : ∀ earlier ∈ front, opcode.operand earlier = .ok (value earlier))
    (refused : opcode.operand name = .error fault) (operands : Dictionary Int) :
    (front ++ name :: back).foldlM (collect opcode) operands = .error fault := by
  obtain ⟨after, collected, -⟩ := exists_foldlM_collect found operands
  rw [List.foldlM_append, collected, ok_bind, List.foldlM_cons, collect, refused]
  rfl

end Fetching

/-! ## Both passes -/

variable {template : Template} {opcode : Opcode} {value : String → Int}

/-- If every name in a field has a value, the text shows these values in place of the fields. -/
theorem render_of_found
    (found : ∀ name ∈ template.fieldNames, opcode.operand name = .ok (value name)) :
    template.render opcode =
      .ok (String.ofList (template.segments.flatMap (Segment.showing value))) := by
  obtain ⟨operands, fetched, get_eq⟩ := exists_foldlM_collect found .empty
  have filled : ∀ segments : List Segment, (∀ segment ∈ segments, segment ∈ template.segments) →
      segments.mapM (Segment.fill operands) = .ok (segments.map (Segment.showing value)) := by
    intro segments among
    induction segments with
    | nil => rfl
    | cons segment segments ih =>
        have own : segment.fill operands = .ok (segment.showing value) := by
          refine Segment.fill_eq_showing fun name named => ?_
          have member : name ∈ template.fieldNames :=
            List.mem_filterMap.mpr ⟨segment, among segment List.mem_cons_self, named⟩
          rw [get_eq, if_pos member]
        rw [List.mapM_cons, own, ok_bind,
          ih fun other later => among other (List.mem_cons_of_mem segment later)]
        rfl
  rw [render, fetch, fetched, ok_bind, filled template.segments fun _ member => member,
    List.flatMap_def]
  rfl

/-- If a name is refused and those to its left are not, so is the text. -/
theorem render_of_refused {front back : List String} {name : String} {fault : Fault}
    (split : template.fieldNames = front ++ name :: back)
    (found : ∀ earlier ∈ front, opcode.operand earlier = .ok (value earlier))
    (refused : opcode.operand name = .error fault) : template.render opcode = .error fault := by
  rw [render, fetch, split, foldlM_collect_of_refused found refused]
  rfl

end Template
end Chip8
