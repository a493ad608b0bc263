import CilRelink.Proofs.Bytes.Numbers
import CilRelink.Proofs.Code.Offsets
import CilRelink.Proofs.Opcode
import CilRelink.Proofs.Scope

/-!
# Encoded code reads back

Decoding gives back the instructions that were encoded. It cuts the code first, and what it cuts off stands for an
instruction before it is understood: a displacement stands for the position that it leads to, and a token for what
the resolver finds under it. This relation is what the walk over the code establishes, whatever bytes follow an
instruction. Once it holds for the whole code, the cut instructions have the boundaries of the encoded ones, and so
every displacement leads to the position that it was made for.
-/

namespace CilRelink

/-- The kind of operand that a number in the code is. -/
def Immediate.kind : Immediate → OperandKind
  | .int8 _ => .int8
  | .uint8 _ => .uint8
  | .int32 _ => .int32
  | .int64 _ => .int64
  | .float32 _ => .float32
  | .float64 _ => .float64

/-- The kinds of operands that an operand can be of. -/
def Operand.kinds : Operand → List OperandKind
  | .none => [.none]
  | .immediate value => [value.kind]
  | .string _ => [.string]
  | .target _ => [.shortBranch, .branch]
  | .targets _ => [.switch]
  | .localVariable _ => [.shortLocalVariable, .localVariable]
  | .argument _ => [.shortArgument, .argument]
  | .type _ => [.type]
  | .field _ => [.field]
  | .method _ => [.method]
  | .symbol _ => [.symbol]
  | .signature _ => [.signature]

theorem Operand.mem_kinds_of_fits {operand : Operand} {kind : OperandKind} (fitting : operand.fits kind = true) :
    kind ∈ operand.kinds := by
  cases operand with
  | immediate value => cases value <;> cases kind <;> simp [fits, kinds, Immediate.kind] at fitting ⊢
  | _ => cases kind <;> simp [fits, kinds] at fitting ⊢

namespace Code

theorem cutOpcode_found_of_ofBytes? {opcode : Opcode} {first : UInt8} {second : Option UInt8}
    (known : Opcode.ofBytes? first second = some opcode) (offset : Nat) (rest : List UInt8) :
    cutOpcode.found offset first second rest = .ok (opcode, rest) := by
  rw [cutOpcode.found, known]

theorem cutOpcode_bytes_append (opcode : Opcode) (offset : Nat) (rest : List UInt8) :
    cutOpcode offset (opcode.bytes ++ rest) = .ok (opcode, rest) := by
  have range := opcode.code_range
  unfold Opcode.bytes
  split
  · rename_i twoByte
    rw [if_pos twoByte] at range
    simp only [List.cons_append, List.nil_append, cutOpcode, if_true]
    exact cutOpcode_found_of_ofBytes? (Opcode.ofBytes?_twoByte range.1 range.2) offset rest
  · rename_i oneByte
    rw [if_neg oneByte] at range
    simp only [List.cons_append, List.nil_append, cutOpcode, if_neg (Opcode.oneByte_ne_escapeByte range)]
    exact cutOpcode_found_of_ofBytes? (Opcode.ofBytes?_oneByte range) offset rest

/-! ## Operands -/

theorem cutOperand_encode_of_lt {kind : OperandKind} {width number : Nat} (fixed : kind.size? = some width)
    (small : number < 256 ^ width) (offset : Nat) (rest : List UInt8) :
    cutOperand offset kind (Bytes.encode width number ++ rest) = .ok (interpret kind number, width, rest) := by
  simp only [cutOperand, fixed, Bytes.read_encode_of_lt small]

theorem cutOperand_immediate {kind : OperandKind} {value : Immediate}
    (fits : (Operand.immediate value).fits kind = true) (offset : Nat) (rest : List UInt8) :
    ∃ width, kind.size? = some width ∧
      cutOperand offset kind (value.bytes ++ rest) = .ok (.plain (.immediate value), width, rest) := by
  have sameKind : kind = value.kind := by simpa [Operand.kinds] using Operand.mem_kinds_of_fits fits
  subst sameKind
  cases value with
  | int8 value =>
      refine ⟨1, rfl, (cutOperand_encode_of_lt rfl value.toUInt8.toNat_lt _ _).trans ?_⟩
      simp [Immediate.kind, interpret]
  | uint8 value =>
      refine ⟨1, rfl, (cutOperand_encode_of_lt rfl value.toNat_lt _ _).trans ?_⟩
      simp [Immediate.kind, interpret]
  | int32 value =>
      refine ⟨4, rfl, (cutOperand_encode_of_lt rfl value.toUInt32.toNat_lt _ _).trans ?_⟩
      simp [Immediate.kind, interpret]
  | int64 value =>
      refine ⟨8, rfl, (cutOperand_encode_of_lt rfl value.toUInt64.toNat_lt _ _).trans ?_⟩
      simp [Immediate.kind, interpret]
  | float32 bits =>
      refine ⟨4, rfl, (cutOperand_encode_of_lt rfl bits.toNat_lt _ _).trans ?_⟩
      simp [Immediate.kind, interpret]
  | float64 bits =>
      refine ⟨8, rfl, (cutOperand_encode_of_lt rfl bits.toNat_lt _ _).trans ?_⟩
      simp [Immediate.kind, interpret]

/-- The kinds of operands that are written as tokens. -/
def tokenKinds : List OperandKind := [.field, .method, .type, .string, .symbol, .signature]

theorem cutOperand_token {kind : OperandKind} (isToken : kind ∈ tokenKinds) (offset : Nat) (token : Token)
    (rest : List UInt8) :
    kind.size? = some 4 ∧ cutOperand offset kind (token.bytes ++ rest) = .ok (.token token, 4, rest) := by
  simp only [tokenKinds, List.mem_cons, List.not_mem_nil, or_false] at isToken
  rcases isToken with rfl | rfl | rfl | rfl | rfl | rfl
  all_goals
    refine ⟨rfl, (cutOperand_encode_of_lt rfl token.value.toNat_lt offset rest).trans ?_⟩
    simp only [interpret, UInt32.ofNat_toNat]

theorem cutOperand_table {count : Nat} {distances : List Int} (counted : distances.length = count)
    (small : count < 2 ^ 32) (fits : ∀ distance ∈ distances, fitsWord distance = true) (offset : Nat)
    (rest : List UInt8) :
    cutOperand offset .switch (Bytes.encode 4 count ++ distances.flatMap (Bytes.encodeSigned 4) ++ rest) =
      .ok (.displacements distances, 4 + 4 * count, rest) := by
  subst counted
  rcases Bytes.exists_readMany_encodeSigned fits rest with ⟨numbers, row, back⟩
  rw [List.append_assoc]
  simp only [cutOperand, OperandKind.size?]
  rw [Bytes.read_encode_of_lt (by omega)]
  simp only [row, back]

theorem tableBytes_eq_ok {code : List Instruction} {position next : Nat} {targets : List Nat} {bytes : List UInt8}
    (encoded : tableBytes (displacement (offsetsFrom 0 code).toArray position next) targets = .ok bytes) :
    (∀ target ∈ targets, target < code.length ∧ fitsWord ((size (code.take target) : Int) - next) = true) ∧
      bytes = (targets.map fun target => (size (code.take target) : Int) - next).flatMap (Bytes.encodeSigned 4) := by
  induction targets generalizing bytes with
  | nil =>
      cases encoded
      simp
  | cons target targets ih =>
      rcases Fallible.bind_eq_ok_iff.mp encoded with ⟨distance, found, rest⟩
      rcases displacement_eq_ok_iff.mp found with ⟨_, inside, rfl⟩
      have fits : fitsWord ((size (code.take target) : Int) - next) = true := by
        by_contra tooFar
        rw [Bool.not_eq_true] at tooFar
        rw [tooFar] at rest
        cases rest
      simp only [fits, Bool.not_true, Bool.false_eq_true, if_false] at rest
      rcases Fallible.bind_eq_ok_iff.mp rest with ⟨others, more, made⟩
      cases made
      rcases ih more with ⟨each, rfl⟩
      refine ⟨?_, rfl⟩
      intro other otherMem
      rcases List.mem_cons.mp otherMem with rfl | otherMem
      · exact ⟨inside, fits⟩
      · exact each other otherMem

section Operands

variable {State : Type} {resolver : Resolver} {emitter : Emitter State} {settled : State → Prop}

/-- Whether a cut operand stands for an operand of an instruction of `code` behind which the code goes on at
`next`. -/
inductive RawOperand.StandsFor (resolver : Resolver) (code : List Instruction) (next : Nat) (kind : OperandKind) :
    RawOperand → Operand → Prop where
  | plain (operand : Operand) : RawOperand.StandsFor resolver code next kind (.plain operand) operand
  | token {token : Token} {operand : Operand} (resolves : resolveToken resolver kind token = .ok operand) :
      RawOperand.StandsFor resolver code next kind (.token token) operand
  | branch {target : Nat} (inside : target < code.length) :
      RawOperand.StandsFor resolver code next kind
        (.displacement ((size (code.take target) : Int) - next)) (.target target)
  | table {targets : List Nat} (inside : ∀ target ∈ targets, target < code.length) :
      RawOperand.StandsFor resolver code next kind
        (.displacements (targets.map fun target => (size (code.take target) : Int) - next)) (.targets targets)

theorem operandSize_of_fixed {instruction : Instruction} {width : Nat}
    (fixed : instruction.opcode.operandKind.size? = some width) : instruction.operandSize = width := by
  simp only [Instruction.operandSize, fixed]

theorem cutOperand_branchBytes {code : List Instruction} {instruction : Instruction} {position next target : Nat}
    {bytes : List UInt8} (wellFormed : (Operand.target target).fits instruction.opcode.operandKind = true)
    (encoded : (displacement (offsetsFrom 0 code).toArray position next target >>=
      branchBytes instruction position target) = .ok bytes) :
    ∃ raw, RawOperand.StandsFor resolver code next instruction.opcode.operandKind raw (.target target) ∧
      ∀ offset rest, cutOperand offset instruction.opcode.operandKind (bytes ++ rest) =
        .ok (raw, instruction.operandSize, rest) := by
  rcases Fallible.bind_eq_ok_iff.mp encoded with ⟨distance, found, made⟩
  rcases displacement_eq_ok_iff.mp found with ⟨_, inside, rfl⟩
  refine ⟨_, .branch inside, ?_⟩
  intro offset rest
  unfold branchBytes at made
  split at made
  · rename_i short
    split at made
    · rename_i fits
      cases made
      have kind : instruction.opcode.operandKind = .shortBranch := by simpa [Instruction.isShortBranch] using short
      rw [operandSize_of_fixed (by rw [kind]; rfl), kind, Bytes.encodeSigned_eq,
        cutOperand_encode_of_lt rfl (Bytes.twosComplement_lt 1 _)]
      simp only [interpret, Bytes.signed_twosComplement_of_fitsByte fits]
    · cases made
  · rename_i long
    split at made
    · rename_i fits
      cases made
      have kind : instruction.opcode.operandKind = .branch := by
        have notShort : instruction.opcode.operandKind ≠ .shortBranch := by
          simpa [Instruction.isShortBranch] using long
        simpa [Operand.kinds, notShort] using Operand.mem_kinds_of_fits wellFormed
      rw [operandSize_of_fixed (by rw [kind]; rfl), kind, Bytes.encodeSigned_eq,
        cutOperand_encode_of_lt rfl (Bytes.twosComplement_lt 4 _)]
      simp only [interpret, Bytes.signed_twosComplement_of_fitsWord fits]
    · cases made

theorem cutOperand_tableBytes {code : List Instruction} {instruction : Instruction} {position next : Nat}
    {targets : List Nat} {bytes : List UInt8} (operand : instruction.operand = .targets targets)
    (kind : instruction.opcode.operandKind = .switch) (small : instruction.size < 2 ^ 32)
    (encoded : tableBytes (displacement (offsetsFrom 0 code).toArray position next) targets = .ok bytes) :
    ∃ raw, RawOperand.StandsFor resolver code next instruction.opcode.operandKind raw (.targets targets) ∧
      ∀ offset rest, cutOperand offset instruction.opcode.operandKind
        (Bytes.encode 4 targets.length ++ bytes ++ rest) = .ok (raw, instruction.operandSize, rest) := by
  rcases tableBytes_eq_ok encoded with ⟨each, rfl⟩
  have table : instruction.operandSize = 4 + 4 * targets.length := by
    simp only [Instruction.operandSize, kind, OperandKind.size?, operand, Operand.tableLength]
  have short : targets.length < 2 ^ 32 := by
    simp only [Instruction.size, table] at small
    omega
  refine ⟨_, .table fun target targetMem => (each target targetMem).1, ?_⟩
  intro offset rest
  rw [kind, table]
  refine cutOperand_table (List.length_map _) short ?_ offset rest
  intro distance distanceMem
  rcases List.mem_map.mp distanceMem with ⟨target, targetMem, rfl⟩
  exact (each target targetMem).2

theorem cutOperand_tokenBytes {code : List Instruction} {instruction : Instruction} {next : Nat} {token : Token}
    {operand : Operand} (isToken : instruction.opcode.operandKind ∈ tokenKinds)
    (resolves : resolveToken resolver instruction.opcode.operandKind token = .ok operand) :
    ∃ raw, RawOperand.StandsFor resolver code next instruction.opcode.operandKind raw operand ∧
      ∀ offset rest, cutOperand offset instruction.opcode.operandKind (token.bytes ++ rest) =
        .ok (raw, instruction.operandSize, rest) := by
  refine ⟨_, .token resolves, ?_⟩
  intro offset rest
  rcases cutOperand_token isToken offset token rest with ⟨fixed, cut⟩
  rw [cut, operandSize_of_fixed fixed]

/-- An index is written in one byte only where it has to fit one byte. -/
theorem cutOperand_indexBytes {code : List Instruction} {instruction : Instruction} {next : Nat}
    {short long : OperandKind} {index : UInt16} {operand : Operand}
    (kinds : instruction.opcode.operandKind ∈ [short, long]) (shortSize : short.size? = some 1)
    (longSize : long.size? = some 2) (low : instruction.opcode.operandKind = short → index ≤ 255)
    (reads : ∀ kind ∈ [short, long], interpret kind index.toNat = .plain operand) :
    ∃ raw, RawOperand.StandsFor resolver code next instruction.opcode.operandKind raw operand ∧
      ∀ offset rest, cutOperand offset instruction.opcode.operandKind
        (Bytes.encode ((instruction.opcode.operandKind.size?).getD 4) index.toNat ++ rest) =
          .ok (raw, instruction.operandSize, rest) := by
  have fits : ∃ width, instruction.opcode.operandKind.size? = some width ∧ index.toNat < 256 ^ width := by
    rcases List.mem_cons.mp kinds with isShort | isLong
    · refine ⟨1, by rw [isShort, shortSize], ?_⟩
      exact Nat.lt_succ_of_le (UInt16.le_iff_toNat_le.mp (low isShort))
    · exact ⟨2, by rw [List.mem_singleton.mp isLong, longSize], index.toNat_lt⟩
  rcases fits with ⟨width, fixed, small⟩
  refine ⟨_, .plain operand, ?_⟩
  intro offset rest
  rw [fixed, Option.getD_some, cutOperand_encode_of_lt fixed small, operandSize_of_fixed fixed, reads _ kinds]

/-- What is written for an operand is cut off as something that stands for the operand. -/
theorem cutOperand_operandBytes (undoes : resolver.Undoes emitter settled) {code : List Instruction}
    {instruction : Instruction} {position start : Nat} {before after : State} {bytes : List UInt8}
    (small : instruction.size < 2 ^ 32) (wellFormed : instruction.isWellFormed = true)
    (encoded : operandBytes emitter (offsetsFrom 0 code).toArray position start instruction before =
      (.ok bytes, after)) (settles : settled after) :
    settled before ∧
      ∃ raw, RawOperand.StandsFor resolver code (start + instruction.size) instruction.opcode.operandKind raw
          instruction.operand ∧
        ∀ offset rest, cutOperand offset instruction.opcode.operandKind (bytes ++ rest) =
          .ok (raw, instruction.operandSize, rest) := by
  unfold Instruction.isWellFormed at wellFormed
  unfold operandBytes at encoded
  have kinds := Operand.mem_kinds_of_fits wellFormed
  cases operand : instruction.operand with
  | none =>
      simp only [operand] at encoded kinds
      rcases Emission.pure_eq_ok_iff.mp encoded with ⟨rfl, rfl⟩
      have kind : instruction.opcode.operandKind = .none := List.mem_singleton.mp kinds
      refine ⟨settles, _, .plain .none, ?_⟩
      intro offset rest
      rw [kind, operandSize_of_fixed (by rw [kind]; rfl)]
      rfl
  | immediate value =>
      simp only [operand] at encoded wellFormed
      rcases Emission.pure_eq_ok_iff.mp encoded with ⟨rfl, rfl⟩
      refine ⟨settles, _, .plain _, ?_⟩
      intro offset rest
      rcases cutOperand_immediate wellFormed offset rest with ⟨width, fixed, cut⟩
      rw [cut, operandSize_of_fixed fixed]
  | string value =>
      simp only [operand] at encoded kinds
      rcases Emission.map_eq_ok_iff.mp encoded with ⟨token, emitted, rfl⟩
      rcases undoes.string emitted settles with ⟨resolves, settledBefore⟩
      have kind : instruction.opcode.operandKind = .string := List.mem_singleton.mp kinds
      refine ⟨settledBefore, cutOperand_tokenBytes (by rw [kind]; decide) ?_⟩
      simp only [kind, resolveToken, resolves]
      rfl
  | type reference =>
      simp only [operand] at encoded kinds
      rcases Emission.map_eq_ok_iff.mp encoded with ⟨token, emitted, rfl⟩
      rcases undoes.type emitted settles with ⟨resolves, settledBefore⟩
      have kind : instruction.opcode.operandKind = .type := List.mem_singleton.mp kinds
      refine ⟨settledBefore, cutOperand_tokenBytes (by rw [kind]; decide) ?_⟩
      simp only [kind, resolveToken, resolves]
      rfl
  | field reference =>
      simp only [operand] at encoded kinds
      rcases Emission.map_eq_ok_iff.mp encoded with ⟨token, emitted, rfl⟩
      rcases undoes.field emitted settles with ⟨resolves, settledBefore⟩
      have kind : instruction.opcode.operandKind = .field := List.mem_singleton.mp kinds
      refine ⟨settledBefore, cutOperand_tokenBytes (by rw [kind]; decide) ?_⟩
      simp only [kind, resolveToken, resolves]
      rfl
  | method reference =>
      simp only [operand] at encoded kinds
      rcases Emission.map_eq_ok_iff.mp encoded with ⟨token, emitted, rfl⟩
      rcases undoes.method emitted settles with ⟨resolves, settledBefore⟩
      have kind : instruction.opcode.operandKind = .method := List.mem_singleton.mp kinds
      refine ⟨settledBefore, cutOperand_tokenBytes (by rw [kind]; decide) ?_⟩
      simp only [kind, resolveToken, resolves]
      rfl
  | symbol reference =>
      simp only [operand] at encoded kinds
      rcases Emission.map_eq_ok_iff.mp encoded with ⟨token, emitted, rfl⟩
      rcases undoes.symbol emitted settles with ⟨resolves, settledBefore⟩
      have kind : instruction.opcode.operandKind = .symbol := List.mem_singleton.mp kinds
      refine ⟨settledBefore, cutOperand_tokenBytes (by rw [kind]; decide) ?_⟩
      simp only [kind, resolveToken, resolves]
      rfl
  | signature token =>
      simp only [operand] at encoded kinds
      rcases Emission.pure_eq_ok_iff.mp encoded with ⟨rfl, rfl⟩
      have kind : instruction.opcode.operandKind = .signature := List.mem_singleton.mp kinds
      refine ⟨settles, cutOperand_tokenBytes (by rw [kind]; decide) ?_⟩
      rw [kind]
      rfl
  | target target =>
      simp only [operand] at encoded wellFormed
      rcases Emission.ofExcept_eq_ok_iff.mp encoded with ⟨made, rfl⟩
      exact ⟨settles, cutOperand_branchBytes wellFormed made⟩
  | targets targets =>
      simp only [operand] at encoded kinds
      rcases Emission.ofExcept_eq_ok_iff.mp encoded with ⟨made, rfl⟩
      rcases Fallible.bind_eq_ok_iff.mp made with ⟨table, found, same⟩
      cases same
      exact ⟨settles, cutOperand_tableBytes operand (List.mem_singleton.mp kinds) small found⟩
  | localVariable index =>
      simp only [operand] at encoded wellFormed kinds
      rcases Emission.pure_eq_ok_iff.mp encoded with ⟨rfl, rfl⟩
      refine ⟨settles, cutOperand_indexBytes kinds rfl rfl ?_ ?_⟩
      · intro short
        simpa [short, Operand.fits] using wellFormed
      · simp [interpret]
  | argument index =>
      simp only [operand] at encoded wellFormed kinds
      rcases Emission.pure_eq_ok_iff.mp encoded with ⟨rfl, rfl⟩
      refine ⟨settles, cutOperand_indexBytes kinds rfl rfl ?_ ?_⟩
      · intro short
        simpa [short, Operand.fits] using wellFormed
      · simp [interpret]

/-! ## Instructions -/

theorem cutInstruction_append {offset width : Nat} {opcode : Opcode} {operand : List UInt8} {raw : RawOperand}
    {rest : List UInt8}
    (cut : cutOperand offset opcode.operandKind (operand ++ rest) = .ok (raw, width, rest)) :
    cutInstruction offset (opcode.bytes ++ operand ++ rest) =
      .ok (⟨offset, offset + opcode.size + width, opcode, raw⟩, rest) := by
  rw [List.append_assoc]
  refine Fallible.bind_eq_ok_iff.mpr ⟨_, cutOpcode_bytes_append opcode offset _, ?_⟩
  exact Fallible.bind_eq_ok_iff.mpr ⟨_, cut, rfl⟩

theorem cut_of_cutInstruction {offset : Nat} {bytes rest : List UInt8} {raw : RawInstruction}
    (step : cutInstruction offset bytes = .ok (raw, rest)) : cut offset bytes = (raw :: ·) <$> cut raw.next rest := by
  cases bytes with
  | nil => cases step
  | cons byte bytes =>
      rw [cut]
      split
      · rename_i failed
        rw [step] at failed
        cases failed
      · rename_i other otherRest stepped
        rw [step] at stepped
        cases stepped
        rfl

/-- Whether a cut instruction stands for an instruction of `code`. -/
structure RawInstruction.StandsFor (resolver : Resolver) (code : List Instruction) (raw : RawInstruction)
    (instruction : Instruction) : Prop where
  offset : raw.offset = instruction.offset
  next : raw.next = instruction.offset + instruction.size
  opcode : raw.opcode = instruction.opcode
  operand : RawOperand.StandsFor resolver code raw.next raw.opcode.operandKind raw.operand instruction.operand

/-- Encoded instructions are cut again where one ends and the next begins. -/
theorem cut_encodeFrom (undoes : resolver.Undoes emitter settled) {code instructions : List Instruction}
    {position start : Nat} {before after : State} {bytes : List UInt8} (small : size instructions < 2 ^ 32)
    (placed : placeFrom start instructions = instructions)
    (encoded : encodeFrom emitter (offsetsFrom 0 code).toArray position start instructions before =
      (.ok bytes, after)) (settles : settled after) :
    settled before ∧ bytes.length = size instructions ∧
      ∃ raws, cut start bytes = .ok raws ∧ List.Forall₂ (RawInstruction.StandsFor resolver code) raws instructions := by
  induction instructions generalizing position start before bytes with
  | nil =>
      rcases Emission.pure_eq_ok_iff.mp encoded with ⟨rfl, rfl⟩
      exact ⟨settles, rfl, [], by rw [cut], .nil⟩
  | cons instruction instructions ih =>
      rw [placeFrom, List.cons.injEq] at placed
      rw [size_cons] at small
      have offset : instruction.offset = start := by rw [← placed.1]
      rw [encodeFrom] at encoded
      split at encoded
      · rcases Emission.bind_eq_ok_iff.mp encoded with ⟨_, _, thrown, _⟩
        exact absurd thrown Emission.throw_ne_ok
      · rename_i wellFormed
        simp only [Bool.not_eq_true, Bool.not_eq_false'] at wellFormed
        rcases Emission.bind_eq_ok_iff.mp encoded with ⟨operand, between, first, more⟩
        rcases Emission.bind_eq_ok_iff.mp more with ⟨others, last, rest, made⟩
        rcases Emission.pure_eq_ok_iff.mp made with ⟨rfl, rfl⟩
        rcases ih (by omega) placed.2 rest with ⟨settledBetween, length, raws, cuts, related⟩
        rcases cutOperand_operandBytes undoes (by omega) wellFormed first settledBetween with
          ⟨settledBefore, raw, standsFor, cutsOperand⟩
        have step := cutInstruction_append (cutsOperand start others)
        rw [Nat.add_assoc, ← Instruction.size] at step
        have operandLength := length_of_cutOperand (cutsOperand start [])
        refine ⟨settledBefore, ?_, ⟨start, start + instruction.size, instruction.opcode, raw⟩ :: raws, ?_,
          .cons ?_ related⟩
        · simp only [List.append_nil, List.length_nil, Nat.add_zero] at operandLength
          simp only [List.length_append, Opcode.length_bytes, operandLength, length, size_cons, Instruction.size]
        · rw [cut_of_cutInstruction step, cuts]
          rfl
        · exact ⟨offset.symm, by rw [offset], rfl, standsFor⟩

theorem getElem?_boundaries {code instructions : List Instruction} {raws : List RawInstruction}
    (related : List.Forall₂ (RawInstruction.StandsFor resolver code) raws instructions) {index : Nat}
    (inside : index < instructions.length) (position : Nat) :
    (boundaries position raws)[size (instructions.take index)]? = some (some (position + index)) := by
  induction related generalizing index position with
  | nil => simp at inside
  | cons first related ih =>
      rename_i raw instruction raws instructions
      cases index with
      | zero => rfl
      | succ index =>
          have positive := instruction.size_pos
          have width : raw.next - raw.offset = instruction.size := by
            rw [first.next, first.offset]
            omega
          have place : size ((instruction :: instructions).take (index + 1)) =
              (instruction.size - 1) + size (instructions.take index) + 1 := by
            rw [List.take_succ_cons, size_cons]
            omega
          rw [boundaries, width, place, List.getElem?_cons_succ, List.getElem?_append_right (by simp)]
          rw [List.length_replicate, Nat.add_sub_cancel_left, ih (by simpa using inside)]
          congr 2
          omega

theorem target_eq_ok {code : List Instruction} {raws : List RawInstruction}
    (related : List.Forall₂ (RawInstruction.StandsFor resolver code) raws code) {index : Nat}
    (inside : index < code.length) (raw : RawInstruction) :
    target (boundaries 0 raws).toArray raw ((size (code.take index) : Int) - raw.next) = .ok index := by
  have place : (raw.next : Int) + ((size (code.take index) : Int) - raw.next) = (size (code.take index) : Nat) := by
    omega
  simp only [target, place, Int.natCast_nonneg, if_true, Int.toNat_natCast, List.getElem?_toArray,
    getElem?_boundaries related inside, Nat.zero_add, Option.join_some]

theorem resolveOperand_eq_ok {code : List Instruction} {raws : List RawInstruction}
    (related : List.Forall₂ (RawInstruction.StandsFor resolver code) raws code) {raw : RawInstruction}
    {operand : Operand}
    (standsFor : RawOperand.StandsFor resolver code raw.next raw.opcode.operandKind raw.operand operand) :
    resolveOperand resolver (boundaries 0 raws).toArray raw = .ok operand := by
  unfold resolveOperand
  generalize raw.operand = cutOff at standsFor
  cases standsFor with
  | plain operand => rfl
  | token resolves => exact resolves
  | branch inside =>
      simp only [target_eq_ok related inside]
      rfl
  | table inside =>
      refine Fallible.map_eq_ok_iff.mpr ⟨_, Fallible.mapM_eq_ok_iff.mpr ?_, rfl⟩
      rw [List.forall₂_map_left_iff, List.forall₂_same]
      intro index indexMem
      exact target_eq_ok related (inside index indexMem) raw

theorem resolve_eq_ok {code : List Instruction} {raws : List RawInstruction}
    (related : List.Forall₂ (RawInstruction.StandsFor resolver code) raws code) {raw : RawInstruction}
    {instruction : Instruction} (standsFor : raw.StandsFor resolver code instruction) :
    resolve resolver (boundaries 0 raws).toArray raw = .ok instruction := by
  refine Fallible.map_eq_ok_iff.mpr ⟨_, resolveOperand_eq_ok related standsFor.operand, ?_⟩
  rw [standsFor.offset, standsFor.opcode]

/-- Code is decoded to what was encoded. -/
theorem decode_of_encode (undoes : resolver.Undoes emitter settled) {code : List Instruction} {before after : State}
    {bytes : List UInt8} (placed : IsPlaced code) (encoded : encode emitter code before = (.ok bytes, after))
    (settles : settled after) :
    settled before ∧ size code < 2 ^ 32 ∧ bytes.length = size code ∧ decode resolver bytes = .ok code := by
  rcases Emission.bind_eq_ok_iff.mp encoded with ⟨places, _, found, made⟩
  rcases Emission.ofExcept_eq_ok_iff.mp found with ⟨laidOut, rfl⟩
  rcases offsets_eq_ok_iff.mp laidOut with ⟨small, rfl⟩
  rcases cut_encodeFrom undoes small placed.placeFrom_eq made settles with ⟨settledBefore, length, raws, cuts, related⟩
  refine ⟨settledBefore, small, length, Fallible.bind_eq_ok_iff.mpr ⟨raws, cuts, Fallible.mapM_eq_ok_iff.mpr ?_⟩⟩
  exact related.imp fun _ _ standsFor => resolve_eq_ok related standsFor

end Operands

end Code

end CilRelink
