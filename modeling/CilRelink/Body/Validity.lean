import CilRelink.Error

/-!
# Valid bodies

In a valid body every operand fits its opcode, every branch stays inside, and every clause has regions that are not
empty, stay inside and, if the clause has a filter, a place for it. `validate` tells the first thing that is wrong,
instructions before clauses.
-/
namespace CilRelink

namespace Clause

/-- Whether the regions of the clause are not empty and lie inside `count` instructions. -/
def isInside (count : Nat) (clause : Clause) : Bool :=
  clause.tryStart < clause.tryEnd && clause.tryEnd ≤ count &&
    clause.handlerStart < clause.handlerEnd && clause.handlerEnd ≤ count &&
    clause.filterStart.all (· < count)

end Clause

namespace Body

/-- Checks the instruction at `position` of `count`. -/
def checkInstruction (count position : Nat) (instruction : Instruction) : Except Error Unit :=
  if !instruction.isWellFormed then
    .error (.structural (.illFormedOperand position instruction))
  else
    match instruction.jumpPositions.find? (count ≤ ·) with
    | some target => .error (.structural (.invalidTarget position instruction.opcode target count))
    | none => .ok ()

/-- Checks instructions, the first of which is at `position` of `count`. -/
def checkInstructions (count : Nat) : (position : Nat) → List Instruction → Except Error Unit
  | _, [] => .ok ()
  | position, instruction :: instructions => do
    checkInstruction count position instruction
    checkInstructions count (position + 1) instructions

/-- Checks the clause with a given index in a body of `count` instructions. -/
def checkClause (count index : Nat) (clause : Clause) : Except Error Unit :=
  if !clause.isInside count then .error (.structural (.invalidRegion index clause))
  else if clause.flags.isFilter && clause.filterStart.isNone then .error (.structural (.missingFilter index))
  else .ok ()

/-- Checks clauses, the first of which has a given index, in a body of `count` instructions. -/
def checkClauses (count : Nat) : (index : Nat) → List Clause → Except Error Unit
  | _, [] => .ok ()
  | index, clause :: clauses => do
    checkClause count index clause
    checkClauses count (index + 1) clauses

/-- Tells the first thing that is wrong with the body. -/
def validate (body : Body) : Except Error Unit := do
  checkInstructions body.size 0 body.instructions
  checkClauses body.size 0 body.clauses

end Body

end CilRelink
