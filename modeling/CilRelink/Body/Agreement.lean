import CilRelink.Body.Basic

/-!
# Agreement of bodies

Bodies agree if they are equal where floating point operands are compared as numbers: zero agrees with negative zero,
and what is not a number agrees with nothing.
-/
namespace CilRelink

/-- Whether two bit patterns stand for the same number. -/
def Decimal.BinaryFormat.agree (format : BinaryFormat) (left right : Nat) : Bool :=
  match format.read left, format.read right with
  | .notANumber, _ | _, .notANumber => false
  | .zero _, .zero _ => true
  | _, _ => left = right

/-- Whether two operands agree. -/
def Operand.agrees : (left right : Operand) → Bool
  | .immediate (.float32 left), .immediate (.float32 right) =>
    Decimal.BinaryFormat.single.agree left.toNat right.toNat
  | .immediate (.float64 left), .immediate (.float64 right) =>
    Decimal.BinaryFormat.double.agree left.toNat right.toNat
  | left, right => left = right

/-- Whether two instructions agree. -/
def Instruction.agrees (left right : Instruction) : Bool :=
  left.offset = right.offset && left.opcode = right.opcode && left.operand.agrees right.operand

/-- Whether two lists of instructions agree one by one. -/
def Instruction.agreeAll : (left right : List Instruction) → Bool
  | [], [] => true
  | left :: lefts, right :: rights => left.agrees right && agreeAll lefts rights
  | _, _ => false

/-- Whether two bodies agree. -/
def Body.agrees (left right : Body) : Bool :=
  left.maxStack = right.maxStack && left.localSignature = right.localSignature &&
    left.initLocals = right.initLocals && Instruction.agreeAll left.instructions right.instructions &&
    left.clauses = right.clauses

end CilRelink
