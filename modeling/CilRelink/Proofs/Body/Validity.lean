import CilRelink.Body.Validity
import CilRelink.Proofs.Fallible

/-!
# What valid bodies are

A body is valid exactly if each of its instructions and each of its clauses passes, whatever its place among the
others. The places matter to what is said about the first thing that is wrong, and to nothing else.
-/

namespace CilRelink

namespace Body

theorem checkInstruction_eq_ok_iff {count position : Nat} {instruction : Instruction} :
    checkInstruction count position instruction = .ok () ↔
      instruction.isWellFormed = true ∧ ∀ target ∈ instruction.jumpPositions, target < count := by
  unfold checkInstruction
  cases instruction.isWellFormed with
  | false => simp
  | true =>
      simp only [Bool.not_true, Bool.false_eq_true, if_false, true_and]
      cases outside : instruction.jumpPositions.find? (count ≤ ·) with
      | none =>
          simp only [true_iff]
          intro target targetMem
          simpa using List.find?_eq_none.mp outside target targetMem
      | some target =>
          simp only [reduceCtorEq, false_iff]
          intro inside
          have tooFar := List.find?_some outside
          have near := inside target (List.mem_of_find?_eq_some outside)
          simp only [decide_eq_true_eq] at tooFar
          omega

theorem checkInstructions_eq_ok_iff {count position : Nat} {instructions : List Instruction} :
    checkInstructions count position instructions = .ok () ↔ ∀ instruction ∈ instructions,
      instruction.isWellFormed = true ∧ ∀ target ∈ instruction.jumpPositions, target < count := by
  induction instructions generalizing position with
  | nil => simp [checkInstructions]
  | cons instruction instructions ih =>
      rw [checkInstructions, Fallible.then_eq_ok_iff, checkInstruction_eq_ok_iff, ih, List.forall_mem_cons]

theorem checkClause_eq_ok_iff {count index : Nat} {clause : Clause} :
    checkClause count index clause = .ok () ↔
      clause.isInside count = true ∧ (clause.flags.isFilter = true → clause.filterStart.isSome = true) := by
  unfold checkClause
  cases clause.isInside count <;> cases clause.flags.isFilter <;> cases clause.filterStart <;> simp

theorem checkClauses_eq_ok_iff {count index : Nat} {clauses : List Clause} :
    checkClauses count index clauses = .ok () ↔ ∀ clause ∈ clauses,
      clause.isInside count = true ∧ (clause.flags.isFilter = true → clause.filterStart.isSome = true) := by
  induction clauses generalizing index with
  | nil => simp [checkClauses]
  | cons clause clauses ih =>
      rw [checkClauses, Fallible.then_eq_ok_iff, checkClause_eq_ok_iff, ih, List.forall_mem_cons]

/-- A body passes if its instructions are well-formed and jump inside, and its clauses stay inside and have the
filters that they call for. -/
theorem validate_eq_ok_iff {body : Body} :
    body.validate = .ok () ↔
      (∀ instruction ∈ body.instructions,
        instruction.isWellFormed = true ∧ ∀ target ∈ instruction.jumpPositions, target < body.size) ∧
      ∀ clause ∈ body.clauses,
        clause.isInside body.size = true ∧ (clause.flags.isFilter = true → clause.filterStart.isSome = true) := by
  rw [validate, Fallible.then_eq_ok_iff, checkInstructions_eq_ok_iff, checkClauses_eq_ok_iff]

end Body

end CilRelink
