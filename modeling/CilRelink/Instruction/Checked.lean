import CilRelink.Error

/-!
# Checked instructions

The safe way to make an instruction: the operand has to be of the kind that the opcode calls for.
-/
namespace CilRelink

/-- The instruction that consists of an opcode and an operand that fits it. -/
def Instruction.checked (opcode : Opcode) (operand : Operand) : Except Error Instruction :=
  if operand.fits opcode.operandKind then .ok (.unplaced opcode operand)
  else .error (.structural (.operandMismatch operand opcode))

end CilRelink
