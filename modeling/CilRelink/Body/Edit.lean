import CilRelink.Body.Validity
import CilRelink.Code.Layout

/-!
# Edits of bodies

Inserting, replacing and removing an instruction. Positions in branches and clauses move along, so that they keep
naming the instructions they named before; the operations differ in what becomes of those that name the place of the
edit. An edit that fails leaves nothing behind.
-/
namespace CilRelink.Body

/-- Where a position at or after `place` is once there is one more instruction there. -/
def shiftFrom (place position : Nat) : Nat := if place ≤ position then position + 1 else position

/-- Where a position after `place` is once there is one more instruction. -/
def shiftAfter (place position : Nat) : Nat := if place < position then position + 1 else position

/-- Where a position after `place` is once there is one instruction less. -/
def unshiftAfter (place position : Nat) : Nat := if place < position then position - 1 else position

/-- Checks that an instruction may stand in a body. -/
def checkInsertable (instruction : Instruction) : Except Error Unit :=
  if instruction.isWellFormed then .ok () else .error (.structural (.notInsertable instruction))

/-- Checks that all positions of a body are indices. -/
def checkPositions (body : Body) : Except Error Unit :=
  if body.positions.all (· < Code.indexLimit) then .ok () else .error .positionOverflow

/-- Puts an instruction at `place`. What named the instruction there names it still, so branches to it skip the new
one, and so does a region that begins or ends there. -/
def insert (body : Body) (place : Nat) (instruction : Instruction) : Except Error Body := do
  if body.size < place then throw (.structural (.insertPastEnd place))
  checkInsertable instruction
  let moved := body.mapPositions (shiftFrom place) (shiftAfter place)
  moved.checkPositions
  return { moved with instructions := moved.instructions.insertIdx place instruction }

/-- Puts an instruction in front of the one at `place`. What named that one names the new one, so branches to it run
through the new one, and a region that begins there begins with the new one. -/
def insertBefore (body : Body) (place : Nat) (instruction : Instruction) : Except Error Body := do
  if body.size ≤ place then throw (.structural (.nothingToInsertBefore place))
  checkInsertable instruction
  let moved := body.mapPositions (shiftAfter place) (shiftAfter place)
  moved.checkPositions
  return { moved with instructions := moved.instructions.insertIdx place instruction }

/-- Puts an instruction in the place of another, which is returned. The new one takes over the offset. -/
def replace (body : Body) (place : Nat) (instruction : Instruction) : Except Error (Instruction × Body) := do
  checkInsertable instruction
  match body.instructions[place]? with
  | none => throw (.structural (.nothingToReplace place))
  | some old =>
    let placed := { instruction with offset := old.offset }
    return (old, { body with instructions := body.instructions.set place placed })

/-- Whether removing the instruction at `place` leaves a region of the clause without instructions or its filter
without a place. -/
def emptiesClause (body : Body) (place : Nat) (clause : Clause) : Bool :=
  (clause.tryStart = place && clause.tryEnd = place + 1) ||
    (clause.handlerStart = place && clause.handlerEnd = place + 1) ||
    (place + 1 = body.size && clause.filterStart = some place)

/-- Takes out the instruction at `place` and returns it; its own positions move along with all others. What named it
names the one after it, so there has to be one if anything does; no region may become empty. -/
def remove (body : Body) (place : Nat) : Except Error (Instruction × Body) := do
  match body.instructions[place]? with
  | none => throw (.structural (.nothingToRemove place))
  | some old =>
    if place + 1 = body.size ∧ body.instructions.any (·.jumpPositions.contains place) then
      throw (.structural .lastIsTarget)
    if body.clauses.any (body.emptiesClause place) then throw (.structural (.emptiesRegion place))
    let moved := body.mapPositions (unshiftAfter place) (unshiftAfter place)
    return (old.mapPositions (unshiftAfter place), { moved with instructions := moved.instructions.eraseIdx place })

/-- Lays out the instructions of the body. -/
def layout (body : Body) : Except Error Code.LayoutStats × Body :=
  let (result, instructions) := Code.layout body.instructions
  (result, { body with instructions })

end CilRelink.Body
