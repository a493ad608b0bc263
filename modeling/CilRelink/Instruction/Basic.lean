import CilRelink.Opcode.Encoding
import CilRelink.Reference.Member
import CilRelink.Token

/-!
# Instructions

An instruction is an opcode with an operand. Operands are symbolic: members and types stand for themselves and not
for tokens, and branches name the positions of their targets in the list of instructions and not distances in
bytes, so that instructions can be moved about freely. `offset` is where the instruction began when the list was
last decoded or laid out.
-/
namespace CilRelink

/-- A number in the code; floating point numbers are their bit patterns. -/
inductive Immediate where
  | int8 (value : Int8)
  | uint8 (value : UInt8)
  | int32 (value : Int32)
  | int64 (value : Int64)
  | float32 (bits : UInt32)
  | float64 (bits : UInt64)
deriving DecidableEq

/-- The operand of an instruction. -/
inductive Operand where
  | none
  | immediate (value : Immediate)
  | string (value : String)
  | target (position : Nat)
  | targets (positions : List Nat)
  | localVariable (index : UInt16)
  | argument (index : UInt16)
  | type (type : TypeRef)
  | field (field : FieldRef)
  | method (method : MethodRef)
  | symbol (symbol : Symbol)
  | signature (token : Token)
deriving DecidableEq

/-- Whether an operand is of the kind that an opcode calls for. -/
def Operand.fits : Operand → OperandKind → Bool
  | .none, .none => true
  | .immediate (.int8 _), .int8 => true
  | .immediate (.uint8 _), .uint8 => true
  | .immediate (.int32 _), .int32 => true
  | .immediate (.int64 _), .int64 => true
  | .immediate (.float32 _), .float32 => true
  | .immediate (.float64 _), .float64 => true
  | .string _, .string => true
  | .target _, .shortBranch => true
  | .target _, .branch => true
  | .targets _, .switch => true
  | .localVariable _, .localVariable => true
  | .localVariable index, .shortLocalVariable => index ≤ 255
  | .argument _, .argument => true
  | .argument index, .shortArgument => index ≤ 255
  | .type _, .type => true
  | .field _, .field => true
  | .method _, .method => true
  | .symbol _, .symbol => true
  | .signature _, .signature => true
  | _, _ => false

/-- The positions that an operand names. -/
def Operand.positions : Operand → List Nat
  | .target position => [position]
  | .targets positions => positions
  | _ => []

/-- The number of targets of a jump table. -/
def Operand.tableLength : Operand → Nat
  | .targets positions => positions.length
  | _ => 0

/-- The operand with every position sent through `move`. -/
def Operand.mapPositions (move : Nat → Nat) : Operand → Operand
  | .target position => .target (move position)
  | .targets positions => .targets (positions.map move)
  | other => other

/-- An opcode, its operand, and where it began at the last decoding or layout. -/
structure Instruction where
  offset : Nat
  opcode : Opcode
  operand : Operand
deriving DecidableEq

namespace Instruction

/-- An instruction that has not been laid out. -/
def unplaced (opcode : Opcode) (operand : Operand) : Instruction := ⟨0, opcode, operand⟩

/-- Whether the operand is of the kind that the opcode calls for. -/
def isWellFormed (instruction : Instruction) : Bool := instruction.operand.fits instruction.opcode.operandKind

/-- The number of bytes that the operand takes. A jump table has its length and four bytes for each target; one
whose operand is missing is empty. -/
def operandSize (instruction : Instruction) : Nat :=
  match instruction.opcode.operandKind.size? with
  | some size => size
  | none => 4 + 4 * instruction.operand.tableLength

/-- The number of bytes that the instruction takes. -/
def size (instruction : Instruction) : Nat := instruction.opcode.size + instruction.operandSize

/-- The positions that control may jump to. -/
def jumpPositions (instruction : Instruction) : List Nat := instruction.operand.positions

/-- Whether the instruction is a branch with a displacement of one byte. -/
def isShortBranch (instruction : Instruction) : Bool := instruction.opcode.operandKind = .shortBranch

/-- The instruction with every position sent through `move`. -/
def mapPositions (move : Nat → Nat) (instruction : Instruction) : Instruction :=
  { instruction with operand := instruction.operand.mapPositions move }

/-- The field that the instruction reads or writes; taking its address is neither. -/
def accessedField? (instruction : Instruction) : Option FieldRef :=
  match instruction.opcode, instruction.operand with
  | .ldfld, .field field | .ldsfld, .field field | .stfld, .field field | .stsfld, .field field => some field
  | _, _ => none

/-- The method that the instruction calls, construction of an instance included. -/
def invokedMethod? (instruction : Instruction) : Option MethodRef :=
  match instruction.opcode, instruction.operand with
  | .call, .method method | .callvirt, .method method | .newobj, .method method => some method
  | _, _ => none

theorem invokedMethod?_mapPositions (instruction : Instruction) (move : Nat → Nat) :
    (instruction.mapPositions move).invokedMethod? = instruction.invokedMethod? := by
  rcases instruction with ⟨offset, opcode, operand⟩
  cases operand with
  | target position => cases opcode <;> rfl
  | targets positions => cases opcode <;> rfl
  | _ => rfl

end Instruction

end CilRelink
