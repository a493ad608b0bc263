import CilRelink.Bytes.LittleEndian
import CilRelink.Code.Offsets
import CilRelink.Scope

/-!
# Decoding of code

Decoding first cuts the code into instructions and then gives a meaning to their operands, because a branch can be
understood only when all boundaries between instructions are known. Every instruction takes at least one byte, so
cutting comes to an end.
-/
namespace CilRelink.Code

open Bytes (read readMany)

/-- An operand cut out of the code. -/
inductive RawOperand where
  /-- Needs no further interpretation. -/
  | plain (operand : Operand)
  | token (token : Token)
  | displacement (distance : Int)
  | displacements (distances : List Int)
deriving DecidableEq

/-- An instruction cut out of the code, with its offset and that of the byte after it. -/
structure RawInstruction where
  offset : Nat
  next : Nat
  opcode : Opcode
  operand : RawOperand
deriving DecidableEq

/-- The number that `width` bytes stand for in two's complement. -/
def signed (width number : Nat) : Int := Int.bmod number (256 ^ width)

/-- What the bytes of an operand stand for, as a number of as many bytes as the kind takes. -/
def interpret (kind : OperandKind) (number : Nat) : RawOperand :=
  match kind with
  | .none | .switch => .plain .none
  | .int8 => .plain (.immediate (.int8 (UInt8.ofNat number).toInt8))
  | .uint8 => .plain (.immediate (.uint8 (UInt8.ofNat number)))
  | .int32 => .plain (.immediate (.int32 (UInt32.ofNat number).toInt32))
  | .int64 => .plain (.immediate (.int64 (UInt64.ofNat number).toInt64))
  | .float32 => .plain (.immediate (.float32 (UInt32.ofNat number)))
  | .float64 => .plain (.immediate (.float64 (UInt64.ofNat number)))
  | .shortArgument | .argument => .plain (.argument (UInt16.ofNat number))
  | .shortLocalVariable | .localVariable => .plain (.localVariable (UInt16.ofNat number))
  | .shortBranch => .displacement (signed 1 number)
  | .branch => .displacement (signed 4 number)
  | .field | .method | .type | .string | .symbol | .signature => .token ⟨UInt32.ofNat number⟩

/-- Cuts the opcode at `offset` off the code. -/
def cutOpcode (offset : Nat) : List UInt8 → Except Error (Opcode × List UInt8)
  | [] => .error .outOfBounds
  | first :: rest =>
    if first = Opcode.escapeByte then
      match rest with
      | [] => .error .outOfBounds
      | second :: rest => found first (some second) rest
    else found first none rest
where
  /-- The opcode of the bytes, if there is one. -/
  found (first : UInt8) (second : Option UInt8) (rest : List UInt8) : Except Error (Opcode × List UInt8) :=
    match Opcode.ofBytes? first second with
    | some opcode => .ok (opcode, rest)
    | none => .error (.malformed (.invalidOpcode first second offset))

/-- Cuts the operand of an instruction at `offset` off the code and tells its size. -/
def cutOperand (offset : Nat) (kind : OperandKind) (code : List UInt8) :
    Except Error (RawOperand × Nat × List UInt8) :=
  match kind.size? with
  | some size =>
    match read size code with
    | none => .error .outOfBounds
    | some (number, rest) => .ok (interpret kind number, size, rest)
  | none =>
    match read 4 code with
    | none => .error .outOfBounds
    | some (count, rest) =>
      match readMany 4 count rest with
      | none => .error (.malformed (.tableTooLong offset count rest.length))
      | some (numbers, rest) => .ok (.displacements (numbers.map (signed 4)), 4 + 4 * count, rest)

/-- Cuts the instruction at `offset` off the code. -/
def cutInstruction (offset : Nat) (code : List UInt8) : Except Error (RawInstruction × List UInt8) := do
  let (opcode, afterOpcode) ← cutOpcode offset code
  let (operand, size, rest) ← cutOperand offset opcode.operandKind afterOpcode
  return (⟨offset, offset + opcode.size + size, opcode, operand⟩, rest)

theorem length_of_cutOpcode {offset : Nat} {code rest : List UInt8} {opcode : Opcode}
    (cut : cutOpcode offset code = .ok (opcode, rest)) : rest.length < code.length := by
  have found : ∀ {first second tail}, cutOpcode.found offset first second tail = .ok (opcode, rest) →
      rest = tail := by
    intro first second tail found
    unfold cutOpcode.found at found
    split at found <;> cases found
    rfl
  unfold cutOpcode at cut
  split at cut
  · cases cut
  · split at cut
    · split at cut
      · cases cut
      · simp only [found cut, List.length_cons]
        omega
    · simp [found cut]

theorem length_of_cutOperand {offset size : Nat} {kind : OperandKind} {code rest : List UInt8}
    {operand : RawOperand} (cut : cutOperand offset kind code = .ok (operand, size, rest)) :
    code.length = size + rest.length := by
  unfold cutOperand at cut
  split at cut
  · split at cut
    · cases cut
    · rename_i found
      cases cut
      exact Bytes.length_of_read found
  · split at cut
    · cases cut
    · rename_i first
      split at cut
      · cases cut
      · rename_i more
        cases cut
        have := Bytes.length_of_read first
        have := Bytes.length_of_readMany more
        omega

theorem length_of_cutInstruction {offset : Nat} {code rest : List UInt8} {raw : RawInstruction}
    (cut : cutInstruction offset code = .ok (raw, rest)) : rest.length < code.length := by
  unfold cutInstruction at cut
  simp only [bind, Except.bind] at cut
  split at cut
  · cases cut
  · rename_i afterOpcode first
    obtain ⟨opcode, tail⟩ := afterOpcode
    split at cut
    · cases cut
    · rename_i afterOperand second
      obtain ⟨operand, size, last⟩ := afterOperand
      cases cut
      have := length_of_cutOpcode first
      have := length_of_cutOperand second
      simp only at *
      omega

/-- Cuts code that begins at `offset` into instructions. -/
def cut (offset : Nat) (code : List UInt8) : Except Error (List RawInstruction) :=
  match code with
  | [] => .ok []
  | byte :: bytes =>
    match step : cutInstruction offset (byte :: bytes) with
    | .error error => .error error
    | .ok (raw, rest) =>
      have := length_of_cutInstruction step
      (raw :: ·) <$> cut raw.next rest
termination_by code.length
decreasing_by assumption

/-- For each byte of the code, the position of the instruction that begins with it, the first of which is at
`position`. -/
def boundaries (position : Nat) : List RawInstruction → List (Option Nat)
  | [] => []
  | raw :: raws =>
    some position :: (List.replicate (raw.next - raw.offset - 1) none ++ boundaries (position + 1) raws)

/-- The position that a displacement leads to. -/
def target (boundaries : Array (Option Nat)) (raw : RawInstruction) (distance : Int) : Except Error Nat :=
  let offset := (raw.next : Int) + distance
  match if 0 ≤ offset then boundaries[offset.toNat]?.join else none with
  | some position => .ok position
  | none => .error (.malformed (.targetOffBoundary raw.offset offset))

/-- What a token stands for after an opcode that calls for operands of `kind`. -/
def resolveToken (resolver : Resolver) (kind : OperandKind) (token : Token) : Except Error Operand :=
  match kind with
  | .field => Operand.field <$> resolver.field token
  | .method => Operand.method <$> resolver.method token
  | .type => Operand.type <$> resolver.type token
  | .string => Operand.string <$> resolver.string token
  | .symbol => Operand.symbol <$> resolver.symbol token
  | _ => .ok (.signature token)

/-- What the operand of an instruction stands for. -/
def resolveOperand (resolver : Resolver) (boundaries : Array (Option Nat)) (raw : RawInstruction) :
    Except Error Operand :=
  match raw.operand with
  | .plain operand => .ok operand
  | .token token => resolveToken resolver raw.opcode.operandKind token
  | .displacement distance => Operand.target <$> target boundaries raw distance
  | .displacements distances => Operand.targets <$> distances.mapM (target boundaries raw)

/-- The instruction with its operand's meaning. -/
def resolve (resolver : Resolver) (boundaries : Array (Option Nat)) (raw : RawInstruction) :
    Except Error Instruction :=
  (⟨raw.offset, raw.opcode, ·⟩) <$> resolveOperand resolver boundaries raw

/-- The instructions of the code. -/
def decode (resolver : Resolver) (code : List UInt8) : Except Error (List Instruction) := do
  let raws ← cut 0 code
  raws.mapM (resolve resolver (boundaries 0 raws).toArray)

end CilRelink.Code
