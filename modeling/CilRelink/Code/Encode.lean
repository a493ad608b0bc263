import CilRelink.Bytes.LittleEndian
import CilRelink.Code.Offsets
import CilRelink.Scope

/-!
# Encoding of code

The bytes of a list of instructions: each opcode and its operand, numbers little-endian, positions as displacements
from the end of the instruction. Offsets are computed afresh, so those written in the instructions do not matter.
Branches are not widened here.
-/
namespace CilRelink

open Bytes (encode)

/-- The bytes of a number in two's complement. -/
def Bytes.encodeSigned (width : Nat) (number : Int) : List UInt8 :=
  encode width (number % (256 ^ width : Nat)).toNat

/-- The bytes of a number in the code. -/
def Immediate.bytes : Immediate → List UInt8
  | .int8 value => encode 1 value.toUInt8.toNat
  | .uint8 value => encode 1 value.toNat
  | .int32 value => encode 4 value.toUInt32.toNat
  | .int64 value => encode 8 value.toUInt64.toNat
  | .float32 bits => encode 4 bits.toNat
  | .float64 bits => encode 8 bits.toNat

/-- The bytes of a token. -/
def Token.bytes (token : Token) : List UInt8 := encode 4 token.value.toNat

namespace Code

/-- The bytes of a branch's displacement: one for a short branch, else four. -/
def branchBytes (instruction : Instruction) (position target : Nat) (distance : Int) : Except Error (List UInt8) :=
  if instruction.isShortBranch then
    if fitsByte distance then .ok (Bytes.encodeSigned 1 distance)
    else .error (.structural (.outOfShortReach instruction.opcode position target distance))
  else
    if fitsWord distance then .ok (Bytes.encodeSigned 4 distance)
    else .error (.structural (.branchTooFar distance))

/-- The bytes of the displacements in a jump table. -/
def tableBytes (distance : Nat → Except Error Int) : List Nat → Except Error (List UInt8)
  | [] => .ok []
  | target :: targets => do
    let wide ← distance target
    if !fitsWord wide then throw (.structural (.tableTargetTooFar wide))
    let rest ← tableBytes distance targets
    return Bytes.encodeSigned 4 wide ++ rest

/-- The bytes of the operand of the instruction at `position`, which begins at `start`. -/
def operandBytes (emitter : Emitter State) (offsets : Array Nat) (position start : Nat)
    (instruction : Instruction) : Emission State (List UInt8) :=
  let distance := displacement offsets position (start + instruction.size)
  let indexWidth := (instruction.opcode.operandKind.size?).getD 4
  match instruction.operand with
  | .none => return []
  | .immediate value => return value.bytes
  | .localVariable index | .argument index => return encode indexWidth index.toNat
  | .target target => .ofExcept do branchBytes instruction position target (← distance target)
  | .targets targets => .ofExcept do return encode 4 targets.length ++ (← tableBytes distance targets)
  | .string value => Token.bytes <$> emitter.string value
  | .type reference => Token.bytes <$> emitter.type reference
  | .field reference => Token.bytes <$> emitter.field reference
  | .method reference => Token.bytes <$> emitter.method reference
  | .symbol reference => Token.bytes <$> emitter.symbol reference
  | .signature token => return token.bytes

/-- The bytes of instructions, the first of which is at `position` and begins at `start`. -/
def encodeFrom (emitter : Emitter State) (offsets : Array Nat) :
    (position start : Nat) → List Instruction → Emission State (List UInt8)
  | _, _, [] => return []
  | position, start, instruction :: instructions => do
    if !instruction.isWellFormed then
      throw (.structural (.illFormed position instruction.opcode))
    let operand ← operandBytes emitter offsets position start instruction
    let rest ← encodeFrom emitter offsets (position + 1) (start + instruction.size) instructions
    return instruction.opcode.bytes ++ operand ++ rest

/-- The bytes of the code. -/
def encode (emitter : Emitter State) (instructions : List Instruction) : Emission State (List UInt8) := do
  let places ← Emission.ofExcept (offsets instructions)
  encodeFrom emitter places.toArray 0 0 instructions

end Code

end CilRelink
