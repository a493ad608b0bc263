import CilRelink.Instruction.Basic
import CilRelink.Host.Value

/-!
# Loads of constants

The instruction that pushes a literal value, in as few bytes as the instruction set allows. Characters, narrow and
unsigned integers and objects have none.
-/
namespace CilRelink

/-- The load of an integer of 32 bits: some have an opcode of their own, some fit a byte. -/
def Instruction.loadInt32 (value : Int32) : Instruction :=
  if value = -1 then .unplaced .ldcI4M1 .none
  else if value = 0 then .unplaced .ldcI4_0 .none
  else if value = 1 then .unplaced .ldcI4_1 .none
  else if value = 2 then .unplaced .ldcI4_2 .none
  else if value = 3 then .unplaced .ldcI4_3 .none
  else if value = 4 then .unplaced .ldcI4_4 .none
  else if value = 5 then .unplaced .ldcI4_5 .none
  else if value = 6 then .unplaced .ldcI4_6 .none
  else if value = 7 then .unplaced .ldcI4_7 .none
  else if value = 8 then .unplaced .ldcI4_8 .none
  else if -128 ≤ value.toInt ∧ value.toInt ≤ 127 then
    .unplaced .ldcI4S (.immediate (.int8 (Int8.ofInt value.toInt)))
  else .unplaced .ldcI4 (.immediate (.int32 value))

/-- The load of a value, if there is an instruction for its kind. -/
def HostValue.load? : HostValue → Option Instruction
  | .null => some (.unplaced .ldnull .none)
  | .boolean true => some (.unplaced .ldcI4_1 .none)
  | .boolean false => some (.unplaced .ldcI4_0 .none)
  | .int32 value => some (.loadInt32 value)
  | .int64 value => some (.unplaced .ldcI8 (.immediate (.int64 value)))
  | .float32 bits => some (.unplaced .ldcR4 (.immediate (.float32 bits)))
  | .float64 bits => some (.unplaced .ldcR8 (.immediate (.float64 bits)))
  | .string value => some (.unplaced .ldstr (.string value))
  | _ => none

end CilRelink
