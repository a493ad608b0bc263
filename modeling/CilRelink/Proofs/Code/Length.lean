import CilRelink.Proofs.Code.Canonical

/-!
# The length of encoded code

The size of an instruction is told by the kind of its operand, its bytes are made from the operand itself. For
instructions whose operands fit, both are the same, with whatever emitter and wherever branches lead. Encoded code is
made of a piece for each instruction, so its length is the sum of the sizes.
-/

namespace CilRelink

namespace Code

variable {State : Type} {emitter : Emitter State} {before after : State} {bytes : List UInt8}

theorem length_encodeSigned (width : Nat) (number : Int) : (Bytes.encodeSigned width number).length = width := by
  rw [Bytes.encodeSigned_eq, Bytes.length_encode]

theorem length_branchBytes {instruction : Instruction} {position target : Nat} {distance : Int}
    (fits : (Operand.target target).fits instruction.opcode.operandKind = true)
    (made : branchBytes instruction position target distance = .ok bytes) :
    instruction.opcode.operandKind.size? = some bytes.length := by
  unfold branchBytes at made
  split at made
  · rename_i short
    have kind : instruction.opcode.operandKind = .shortBranch := by simpa [Instruction.isShortBranch] using short
    split at made
    · cases made
      rw [kind, length_encodeSigned]
      rfl
    · cases made
  · rename_i long
    have notShort : instruction.opcode.operandKind ≠ .shortBranch := by simpa [Instruction.isShortBranch] using long
    have kind : instruction.opcode.operandKind = .branch := by
      simpa [Operand.kinds, notShort] using Operand.mem_kinds_of_fits fits
    split at made
    · cases made
      rw [kind, length_encodeSigned]
      rfl
    · cases made

theorem length_tableBytes {distance : Nat → Except Error Int} {targets : List Nat}
    (made : tableBytes distance targets = .ok bytes) : bytes.length = 4 * targets.length := by
  induction targets generalizing bytes with
  | nil =>
      cases made
      rfl
  | cons target targets ih =>
      rw [tableBytes] at made
      rcases Fallible.bind_eq_ok_iff.mp made with ⟨wide, _, checked⟩
      cases fits : fitsWord wide with
      | false =>
          rw [fits] at checked
          cases checked
      | true =>
          rw [fits] at checked
          rcases Fallible.bind_eq_ok_iff.mp checked with ⟨rest, others, same⟩
          cases same
          rw [List.length_append, length_encodeSigned, ih others, List.length_cons]
          omega

/-- An operand that fits takes as many bytes as its kind says. -/
theorem length_operandBytes {offsets : Array Nat} {position start : Nat} {instruction : Instruction}
    (wellFormed : instruction.isWellFormed = true)
    (encoded : operandBytes emitter offsets position start instruction before = (.ok bytes, after)) :
    bytes.length = instruction.operandSize := by
  unfold Instruction.isWellFormed at wellFormed
  have kinds := Operand.mem_kinds_of_fits wellFormed
  cases asked : emitter.token? instruction.operand with
  | some action =>
      rw [operandBytes_of_token? asked] at encoded
      rcases Emission.map_eq_ok_iff.mp encoded with ⟨token, _, rfl⟩
      rw [operandSize_of_fixed, Token.bytes, Bytes.length_encode]
      generalize instruction.operand = operand at asked kinds
      cases operand <;> cases asked <;> rw [List.mem_singleton.mp kinds] <;> rfl
  | none =>
      unfold operandBytes at encoded
      cases operand : instruction.operand with
      | none =>
          simp only [operand] at encoded kinds
          rcases Emission.pure_eq_ok_iff.mp encoded with ⟨rfl, rfl⟩
          rw [operandSize_of_fixed]
          rw [List.mem_singleton.mp kinds]
          rfl
      | immediate value =>
          simp only [operand] at encoded kinds
          rcases Emission.pure_eq_ok_iff.mp encoded with ⟨rfl, rfl⟩
          rw [operandSize_of_fixed]
          rw [List.mem_singleton.mp kinds]
          exact value.size?_kind
      | localVariable index | argument index =>
          simp only [operand] at encoded kinds
          rcases Emission.pure_eq_ok_iff.mp encoded with ⟨rfl, rfl⟩
          rw [Bytes.length_encode]
          rcases List.mem_cons.mp kinds with short | long
          · rw [operandSize_of_fixed]
            rw [short]
            rfl
          · rw [operandSize_of_fixed]
            rw [List.mem_singleton.mp long]
            rfl
      | target target =>
          simp only [operand] at encoded wellFormed
          rcases Fallible.bind_eq_ok_iff.mp (Emission.ofExcept_eq_ok_iff.mp encoded).1 with ⟨distance, _, made⟩
          exact (operandSize_of_fixed (length_branchBytes wellFormed made)).symm
      | targets targets =>
          simp only [operand] at encoded kinds
          rcases Fallible.bind_eq_ok_iff.mp (Emission.ofExcept_eq_ok_iff.mp encoded).1 with ⟨table, made, same⟩
          cases same
          rw [List.length_append, Bytes.length_encode, length_tableBytes made]
          simp only [Instruction.operandSize, List.mem_singleton.mp kinds, OperandKind.size?, operand,
            Operand.tableLength]
      | _ =>
          rw [operand] at asked
          cases asked

/-! ## Pieces -/

/-- The bytes of the instruction at `position`, which begins at `start`: its opcode and its operand, if that fits. -/
def instructionBytes (emitter : Emitter State) (offsets : Array Nat) (position start : Nat)
    (instruction : Instruction) : Emission State (List UInt8) := do
  if !instruction.isWellFormed then
    throw (.structural (.illFormed position instruction.opcode))
  let operand ← operandBytes emitter offsets position start instruction
  return instruction.opcode.bytes ++ operand

/-- The bytes of each of the instructions, the first of which is at `position` and begins at `start`. -/
def piecesFrom (emitter : Emitter State) (offsets : Array Nat) :
    (position start : Nat) → List Instruction → Emission State (List (List UInt8))
  | _, _, [] => return []
  | position, start, instruction :: instructions => do
    let piece ← instructionBytes emitter offsets position start instruction
    let rest ← piecesFrom emitter offsets (position + 1) (start + instruction.size) instructions
    return piece :: rest

theorem encodeFrom_eq_flatten (emitter : Emitter State) (offsets : Array Nat) (position start : Nat)
    (instructions : List Instruction) :
    encodeFrom emitter offsets position start instructions =
      List.flatten <$> piecesFrom emitter offsets position start instructions := by
  induction instructions generalizing position start with
  | nil => simp [encodeFrom, piecesFrom]
  | cons instruction instructions ih =>
      rw [encodeFrom, piecesFrom, instructionBytes, ih]
      cases instruction.isWellFormed <;> simp

section Pieces

variable {piece : List UInt8} {made : List (List UInt8)} {instruction : Instruction}
variable {instructions : List Instruction} {offsets : Array Nat} {position start : Nat}

theorem length_instructionBytes
    (emitted : instructionBytes emitter offsets position start instruction before = (.ok piece, after)) :
    piece.length = instruction.size := by
  unfold instructionBytes at emitted
  split at emitted
  · rcases Emission.bind_eq_ok_iff.mp emitted with ⟨_, _, thrown, _⟩
    exact absurd thrown Emission.throw_ne_ok
  · rename_i wellFormed
    simp only [Bool.not_eq_true, Bool.not_eq_false'] at wellFormed
    rcases Emission.bind_eq_ok_iff.mp emitted with ⟨operand, _, first, whole⟩
    rcases Emission.pure_eq_ok_iff.mp whole with ⟨rfl, rfl⟩
    rw [List.length_append, Opcode.length_bytes, length_operandBytes wellFormed first, Instruction.size]

theorem piecesFrom_cons_eq_ok
    (emitted : piecesFrom emitter offsets position start (instruction :: instructions) before = (.ok made, after)) :
    ∃ piece rest between, made = piece :: rest ∧
      instructionBytes emitter offsets position start instruction before = (.ok piece, between) ∧
      piecesFrom emitter offsets (position + 1) (start + instruction.size) instructions between =
        (.ok rest, after) := by
  rcases Emission.bind_eq_ok_iff.mp emitted with ⟨piece, between, first, more⟩
  rcases Emission.bind_eq_ok_iff.mp more with ⟨rest, _, others, whole⟩
  rcases Emission.pure_eq_ok_iff.mp whole with ⟨rfl, rfl⟩
  exact ⟨piece, rest, between, rfl, first, others⟩

theorem map_length_piecesFrom
    (emitted : piecesFrom emitter offsets position start instructions before = (.ok made, after)) :
    made.map List.length = instructions.map Instruction.size := by
  induction instructions generalizing position start before made with
  | nil =>
      rcases Emission.pure_eq_ok_iff.mp emitted with ⟨rfl, rfl⟩
      rfl
  | cons instruction instructions ih =>
      rcases piecesFrom_cons_eq_ok emitted with ⟨piece, rest, between, rfl, first, others⟩
      rw [List.map_cons, List.map_cons, length_instructionBytes first, ih others]

/-- Pieces as long as their instructions begin where their instructions do. -/
theorem length_flatten_take (agree : made.map List.length = instructions.map Instruction.size) (count : Nat) :
    (made.take count).flatten.length = size (instructions.take count) := by
  rw [List.length_flatten, List.map_take, agree, ← List.map_take, size]

end Pieces

/-- Encoded code takes as many bytes as the sizes of its instructions say, and has room for them. -/
theorem length_encode {instructions : List Instruction}
    (encoded : encode emitter instructions before = (.ok bytes, after)) :
    bytes.length = size instructions ∧ size instructions < 2 ^ 32 := by
  rcases Emission.bind_eq_ok_iff.mp encoded with ⟨places, _, found, emitted⟩
  rcases Emission.ofExcept_eq_ok_iff.mp found with ⟨laidOut, rfl⟩
  rw [encodeFrom_eq_flatten] at emitted
  rcases Emission.map_eq_ok_iff.mp emitted with ⟨made, each, rfl⟩
  refine ⟨?_, (offsets_eq_ok_iff.mp laidOut).1⟩
  rw [List.length_flatten, map_length_piecesFrom each, size]

end Code

end CilRelink
