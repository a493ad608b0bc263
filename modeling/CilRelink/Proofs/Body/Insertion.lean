import CilRelink.Proofs.Fallible
import CilRelink.Proofs.Rule.Rewrites

/-!
# Carrying out a verdict

Loads are put in one by one, and each time all positions behind the place are moved by one. Together this is one
move of everything behind the place, because the loads themselves name no position. What stood in front of the place
stays in front, what stood behind it stays behind, and the loads and the replacement are all that lies between.
-/

namespace CilRelink

namespace Clause

theorem mapPositions_id (clause : Clause) : clause.mapPositions id id = clause := by
  simp [mapPositions]

theorem mapPositions_mapPositions (clause : Clause) (first second : Nat → Nat) :
    (clause.mapPositions first first).mapPositions second second =
      clause.mapPositions (second ∘ first) (second ∘ first) := by
  simp [mapPositions]

end Clause

namespace Operand

theorem mapPositions_id (operand : Operand) : operand.mapPositions id = operand := by
  cases operand <;> simp [mapPositions]

end Operand

namespace Instruction

theorem mapPositions_id (instruction : Instruction) : instruction.mapPositions id = instruction := by
  simp [mapPositions, Operand.mapPositions_id]

end Instruction

namespace Body

/-- Where a position behind `place` is once there are `count` more instructions. -/
def advance (place count position : Nat) : Nat := if place < position then position + count else position

theorem advance_zero (place : Nat) : advance place 0 = id := by
  funext position
  simp [advance]

theorem advance_comp_shiftAfter (place count : Nat) :
    advance (place + 1) count ∘ shiftAfter place = advance place (count + 1) := by
  funext position
  simp only [Function.comp_apply, advance, shiftAfter]
  split <;> split <;> omega

theorem insertIdx_at_seam {α : Type} (front back : List α) (element : α) :
    (front ++ back).insertIdx front.length element = front ++ element :: back := by
  induction front with
  | nil => rfl
  | cons first front ih => simp [ih]

theorem insertBefore_eq_ok {body result : Body} {place : Nat} {instruction : Instruction}
    (inserted : body.insertBefore place instruction = .ok result) :
    place < body.size ∧
      result = { body.mapPositions (shiftAfter place) (shiftAfter place) with
        instructions := (body.instructions.map (·.mapPositions (shiftAfter place))).insertIdx place instruction } := by
  unfold insertBefore at inserted
  split at inserted
  · cases inserted
  · rename_i inside
    rcases Fallible.bind_eq_ok_iff.mp inserted with ⟨_, _, rest⟩
    rcases Fallible.bind_eq_ok_iff.mp rest with ⟨_, _, made⟩
    cases made
    exact ⟨by omega, rfl⟩

/-- All loads together move what is behind the place once, by their number. -/
theorem insertAllBefore_eq_ok {body result : Body} {loads front back : List Instruction}
    (shape : body.instructions = front ++ back) (nowhere : ∀ load ∈ loads, load.jumpPositions = [])
    (inserted : insertAllBefore front.length loads body = .ok result) :
    result = { body.mapPositions (advance front.length loads.length) (advance front.length loads.length) with
      instructions := front.map (·.mapPositions (advance front.length loads.length)) ++ loads ++
        back.map (·.mapPositions (advance front.length loads.length)) } := by
  induction loads generalizing body front back with
  | nil =>
      cases inserted
      simp only [List.length_nil, advance_zero, mapPositions, Instruction.mapPositions_id, Clause.mapPositions_id,
        List.map_id', List.append_nil, ← shape]
  | cons load loads ih =>
      rcases Fallible.bind_eq_ok_iff.mp inserted with ⟨next, first, rest⟩
      rcases insertBefore_eq_ok first with ⟨_, rfl⟩
      have loadStays : load.mapPositions (advance (front.length + 1) loads.length) = load :=
        Instruction.mapPositions_eq_self (nowhere load (by simp)) _
      -- what comes before the next load is the front part with the load that was just put in
      have nextShape : (body.instructions.map (·.mapPositions (shiftAfter front.length))).insertIdx front.length load =
          (front.map (·.mapPositions (shiftAfter front.length)) ++ [load]) ++
            back.map (·.mapPositions (shiftAfter front.length)) := by
        rw [shape, List.map_append, List.append_assoc, List.singleton_append]
        exact by simpa using insertIdx_at_seam (front.map (·.mapPositions (shiftAfter front.length))) _ load
      have nextPlace : (front.map (·.mapPositions (shiftAfter front.length)) ++ [load]).length = front.length + 1 := by
        simp
      rw [← nextPlace] at rest
      have others := ih nextShape (fun other otherMem => nowhere other (by simp [otherMem])) rest
      rw [nextPlace] at others
      rw [others, List.length_cons, ← advance_comp_shiftAfter]
      simp only [mapPositions, List.map_append, List.map_map, Function.comp_def, loadStays, List.map_cons,
        List.map_nil, List.append_assoc, List.cons_append, List.nil_append, Instruction.mapPositions_mapPositions,
        Clause.mapPositions_mapPositions]

theorem size_insertAllBefore {body result : Body} {place : Nat} {loads : List Instruction}
    (inserted : insertAllBefore place loads body = .ok result) : result.size = body.size + loads.length := by
  induction loads generalizing body place with
  | nil =>
      cases inserted
      rfl
  | cons load loads ih =>
      rcases Fallible.bind_eq_ok_iff.mp inserted with ⟨next, first, rest⟩
      rcases insertBefore_eq_ok first with ⟨inside, rfl⟩
      have others := ih rest
      simp only [size, List.length_insertIdx, List.length_map, List.length_cons] at inside others ⊢
      rw [others, if_pos (by omega)]
      omega

theorem replace_eq_ok {body result : Body} {place : Nat} {instruction old : Instruction}
    (replaced : body.replace place instruction = .ok (old, result)) :
    body.instructions[place]? = some old ∧
      result = { body with instructions := body.instructions.set place { instruction with offset := old.offset } } := by
  rcases Fallible.bind_eq_ok_iff.mp replaced with ⟨_, _, rest⟩
  split at rest
  · cases rest
  · rename_i found
    cases rest
    exact ⟨found, rfl⟩

/-- As many instructions take the place of one as the verdict tells. -/
theorem size_carryOut {body changed : Body} {place : Nat} {verdict : Verdict}
    (carried : body.carryOut place verdict = .ok changed) : changed.size + 1 = body.size + verdict.span := by
  cases verdict with
  | incompatible breakage =>
      cases carried
      rfl
  | rewritten loads replacement confidence =>
      rcases Fallible.bind_eq_ok_iff.mp carried with ⟨loaded, inserted, rest⟩
      rcases Fallible.bind_eq_ok_iff.mp rest with ⟨⟨old, rewritten⟩, replaced, made⟩
      rcases replace_eq_ok replaced with ⟨_, rfl⟩
      cases made
      have grown := size_insertAllBefore inserted
      simp only [size, List.length_set, Verdict.span] at grown ⊢
      omega

/-- A rewrite leaves what is in front of the place and what is behind it where they are, with all positions moved,
and puts the loads and the replacement between them. The replacement takes over the offset. -/
theorem carryOut_rewritten_eq_ok {body changed : Body} {loads front back : List Instruction}
    {old replacement : Instruction} {confidence : Confidence} (shape : body.instructions = front ++ old :: back)
    (nowhere : ∀ load ∈ loads, load.jumpPositions = [])
    (carried : body.carryOut front.length (.rewritten loads replacement confidence) = .ok changed) :
    changed = { body.mapPositions (advance front.length loads.length) (advance front.length loads.length) with
      maxStack := deepen body.maxStack loads.length
      instructions := front.map (·.mapPositions (advance front.length loads.length)) ++
        (loads ++ [{ replacement with offset := old.offset }]) ++
        back.map (·.mapPositions (advance front.length loads.length)) } := by
  rcases Fallible.bind_eq_ok_iff.mp carried with ⟨loaded, inserted, rest⟩
  rcases Fallible.bind_eq_ok_iff.mp rest with ⟨⟨found, rewritten⟩, replaced, made⟩
  have loadedShape := insertAllBefore_eq_ok shape nowhere inserted
  subst loadedShape
  rcases replace_eq_ok replaced with ⟨stands, rfl⟩
  cases made
  -- the instruction that stands behind the loads is the old one
  simp only [List.map_cons] at stands ⊢
  rw [List.getElem?_append_right (by simp)] at stands
  simp only [List.length_append, List.length_map, Nat.sub_self, List.getElem?_cons_zero, Option.some.injEq] at stands
  subst stands
  rw [List.set_append_right _ _ (by simp)]
  simp [Instruction.mapPositions, mapPositions]

end Body

end CilRelink
