import CilRelink.Proofs.Body.Validity
import CilRelink.Proofs.Code.Length
import CilRelink.Proofs.Watched.Decode

/-!
# Watched encoding

Encoding looks offsets up by positions, takes them from one another, and writes numbers in as few bytes as their place
has. Offsets are looked up only after validation has found all positions inside, regions that are not empty do not run
backwards, and narrow parts are written only where all clauses are narrow. So no body makes encoding come to a fault,
as long as the size of each jump table is a number of four bytes. At a larger table offsets come to a fault, unless they
have left four bytes before it.
-/

namespace CilRelink

namespace Watched

variable {State : Type}

/-! ## Offsets -/

/-- The number of bytes of an instruction, as a number of four bytes. -/
def sizeOf (instruction : Instruction) : Watched State Nat := do
  let operandSize ←
    match instruction.opcode.operandKind.size? with
    | some size => pure size
    | none => do
      let count ← narrow 4 instruction.operand.tableLength
      let entries ← narrow 4 (count * 4)
      narrow 4 (entries + 4)
  narrow 4 (instruction.opcode.size + operandSize)

/-- The offsets of the instructions, the first of which begins at `start`, and the end of the last. -/
def offsetsFrom (start : Nat) : List Instruction → Watched State (List Nat)
  | [] => return [start]
  | instruction :: instructions => do
    let size ← sizeOf instruction
    if start + size < 2 ^ 32 then
      let rest ← offsetsFrom (start + size) instructions
      return start :: rest
    else throw (.structural .codeTooLarge)

/-- How far the instruction at `target` is from the end of the one of the given size at `position`. -/
def displacement (offsets : List Nat) (position size target : Nat) : Watched State Int := do
  watch (target + 1 < Code.indexLimit) .cutNumber
  if offsets.length ≤ target + 1 then
    let count ← subtract offsets.length 1
    throw (.structural (.targetOutside position target count))
  else
    let start ← element offsets position
    let place ← element offsets target
    return (place : Int) - (start + size : Nat)

/-! ## Instructions -/

/-- The bytes of a number in two's complement, which has to fit them. -/
def emitSigned (width : Nat) (number : Int) : Watched State (List UInt8) := do
  watch (-(256 ^ width : Nat) ≤ number * 2 ∧ number * 2 < (256 ^ width : Nat)) .cutNumber
  return Bytes.encodeSigned width number

/-- The bytes of a branch's displacement. -/
def branchBytes (instruction : Instruction) (position target : Nat) (distance : Int) : Watched State (List UInt8) :=
  if instruction.isShortBranch then
    if Code.fitsByte distance then emitSigned 1 distance
    else throw (.structural (.outOfShortReach instruction.opcode position target distance))
  else
    if Code.fitsWord distance then emitSigned 4 distance
    else throw (.structural (.branchTooFar distance))

/-- The bytes of the displacements in a jump table. -/
def tableBytes (distance : Nat → Watched State Int) : List Nat → Watched State (List UInt8)
  | [] => return []
  | target :: targets => do
    let wide ← distance target
    if Code.fitsWord wide then
      let entry ← emitSigned 4 wide
      let rest ← tableBytes distance targets
      return entry ++ rest
    else throw (.structural (.tableTargetTooFar wide))

/-- The bytes of the operand of an instruction of the given size at `position`. -/
def operandBytes (emitter : Emitter State) (offsets : List Nat) (position size : Nat) (instruction : Instruction) :
    Watched State (List UInt8) :=
  match instruction.operand with
  | .none => return []
  | .immediate value => return value.bytes
  | .localVariable index | .argument index => emit ((instruction.opcode.operandKind.size?).getD 4) index.toNat
  | .target target => do
    let distance ← displacement offsets position size target
    branchBytes instruction position target distance
  | .targets targets => do
    let count ← emit 4 targets.length
    let table ← tableBytes (displacement offsets position size) targets
    return count ++ table
  | .string value => of (Token.bytes <$> emitter.string value)
  | .type reference => of (Token.bytes <$> emitter.type reference)
  | .field reference => of (Token.bytes <$> emitter.field reference)
  | .method reference => of (Token.bytes <$> emitter.method reference)
  | .symbol reference => of (Token.bytes <$> emitter.symbol reference)
  | .signature token => return token.bytes

/-- The bytes of instructions, the first of which is at `position`. -/
def encodeFrom (emitter : Emitter State) (offsets : List Nat) :
    (position : Nat) → List Instruction → Watched State (List UInt8)
  | _, [] => return []
  | position, instruction :: instructions =>
    if !instruction.isWellFormed then throw (.structural (.illFormed position instruction.opcode))
    else do
      let size ← sizeOf instruction
      let operand ← operandBytes emitter offsets position size instruction
      let rest ← encodeFrom emitter offsets (position + 1) instructions
      return instruction.opcode.bytes ++ operand ++ rest

/-- The bytes of the code. -/
def encodeCode (emitter : Emitter State) (instructions : List Instruction) : Watched State (List UInt8) := do
  let offsets ← offsetsFrom 0 instructions
  encodeFrom emitter offsets 0 instructions

/-! ## Sizes -/

/-- The number of entries from which on a jump table is too large for a number of four bytes. -/
def tableLimit : Nat := 2 ^ 30 - 1

/-- Whether the instruction has a jump table that is too large for a number of four bytes. -/
def IsOversized (instruction : Instruction) : Prop :=
  instruction.opcode.operandKind.size? = none ∧ tableLimit ≤ instruction.operand.tableLength

/-- Whether the offsets of instructions, the first of which begins at `start`, come to such a table before they leave
four bytes. -/
def MeetsOversized (start : Nat) (instructions : List Instruction) : Prop :=
  ∃ position instruction, instructions[position]? = some instruction ∧
    start + Code.size (instructions.take position) < 2 ^ 32 ∧ IsOversized instruction

/-- The limit is the least: just such a table makes the size leave four bytes. -/
theorem isOversized_iff {instruction : Instruction} : IsOversized instruction ↔ 2 ^ 32 ≤ instruction.size := by
  have opcodeSize : 1 ≤ instruction.opcode.size ∧ instruction.opcode.size ≤ 2 := by
    unfold Opcode.size
    split <;> omega
  unfold IsOversized tableLimit Instruction.size Instruction.operandSize
  cases fixed : instruction.opcode.operandKind.size? with
  | some size =>
      have small : size ≤ 8 := by
        generalize instruction.opcode.operandKind = kind at fixed
        cases kind <;> cases fixed <;> decide
      simp only [reduceCtorEq, false_and, false_iff]
      omega
  | none =>
      simp only [true_and]
      omega

/-- A size of four bytes is a number of four bytes on the way to it, too. -/
theorem sizeOf_of_small {instruction : Instruction} (small : instruction.size < 2 ^ 32) :
    (sizeOf instruction : Watched State Nat) = pure instruction.size := by
  unfold sizeOf
  unfold Instruction.size Instruction.operandSize at small ⊢
  cases fixed : instruction.opcode.operandKind.size? with
  | some size =>
      simp only [fixed] at small ⊢
      rw [pure_bind]
      exact narrow_of (by omega)
  | none =>
      simp only [fixed] at small ⊢
      rw [narrow_of (by omega), pure_bind, narrow_of (by omega), pure_bind, narrow_of (by omega), pure_bind,
        narrow_of (by omega), Nat.mul_comm, Nat.add_comm 4]

theorem sizeOf_of_few {instruction : Instruction} (few : instruction.operand.tableLength < tableLimit) :
    (sizeOf instruction : Watched State Nat) = pure instruction.size :=
  sizeOf_of_small (Nat.lt_of_not_le fun large => Nat.not_le_of_lt few (isOversized_iff.mpr large).2)

theorem sizeOf_of_isOversized {instruction : Instruction} (oversized : IsOversized instruction) :
    (sizeOf instruction : Watched State Nat) = fault .cutNumber := by
  have cut : ∀ {number}, 256 ^ 4 ≤ number → (narrow 4 number : Watched State Nat) = fault .cutNumber := by
    intro number large
    rw [narrow, watch, if_neg (by omega)]
    rfl
  rcases oversized with ⟨table, many⟩
  unfold tableLimit at many
  unfold sizeOf
  simp only [table]
  by_cases count : instruction.operand.tableLength < 256 ^ 4
  · rw [narrow_of count, pure_bind]
    by_cases entries : instruction.operand.tableLength * 4 < 256 ^ 4
    · rw [narrow_of entries, pure_bind, cut (by omega)]
      rfl
    · rw [cut (by omega : 256 ^ 4 ≤ instruction.operand.tableLength * 4)]
      rfl
  · rw [cut (by omega : 256 ^ 4 ≤ instruction.operand.tableLength)]
    rfl

section Offsets

variable {start : Nat} {instruction : Instruction} {instructions : List Instruction}

theorem meetsOversized_cons_iff :
    MeetsOversized start (instruction :: instructions) ↔
      start < 2 ^ 32 ∧ IsOversized instruction ∨ MeetsOversized (start + instruction.size) instructions := by
  constructor
  · rintro ⟨_ | position, oversized, found, reached, isOversized⟩
    · cases found
      exact .inl ⟨reached, isOversized⟩
    · rw [List.take_succ_cons, Code.size_cons, ← Nat.add_assoc] at reached
      exact .inr ⟨position, oversized, found, reached, isOversized⟩
  · rintro (⟨reached, isOversized⟩ | ⟨position, oversized, found, reached, isOversized⟩)
    · exact ⟨0, instruction, rfl, reached, isOversized⟩
    · refine ⟨position + 1, oversized, found, ?_, isOversized⟩
      rwa [List.take_succ_cons, Code.size_cons, ← Nat.add_assoc]

theorem not_meetsOversized (each : ∀ instruction ∈ instructions, ¬ IsOversized instruction) :
    ¬ MeetsOversized start instructions := by
  rintro ⟨position, instruction, found, _, isOversized⟩
  exact each instruction (List.mem_of_getElem? found) isOversized

theorem not_meetsOversized_of_few (few : ∀ instruction ∈ instructions, instruction.operand.tableLength < tableLimit) :
    ¬ MeetsOversized start instructions :=
  not_meetsOversized fun instruction instructionMem oversized =>
    Nat.not_le_of_lt (few instruction instructionMem) oversized.2

theorem not_isOversized_of_fits (fits : Code.size instructions < 2 ^ 32) :
    ∀ instruction ∈ instructions, ¬ IsOversized instruction := by
  intro instruction instructionMem oversized
  rcases List.getElem?_of_mem instructionMem with ⟨position, found⟩
  have part := Code.size_le_size found
  have large := isOversized_iff.mp oversized
  omega

theorem offsetsFrom_of_fits (fits : start + Code.size instructions < 2 ^ 32) :
    (offsetsFrom start instructions : Watched State _) = pure (Code.offsetsFrom start instructions) := by
  induction instructions generalizing start with
  | nil => rfl
  | cons instruction instructions ih =>
      rw [Code.size_cons] at fits
      rw [offsetsFrom, sizeOf_of_small (by omega), pure_bind, if_pos (by omega), ih (by omega), pure_bind]
      rfl

theorem offsetsFrom_of_large (small : start < 2 ^ 32) (kept : ¬ MeetsOversized start instructions)
    (large : 2 ^ 32 ≤ start + Code.size instructions) :
    (offsetsFrom start instructions : Watched State _) = throw (.structural .codeTooLarge) := by
  induction instructions generalizing start with
  | nil =>
      rw [Code.size_nil] at large
      omega
  | cons instruction instructions ih =>
      rw [meetsOversized_cons_iff, not_or, isOversized_iff] at kept
      rw [Code.size_cons] at large
      rw [offsetsFrom, sizeOf_of_small (by omega), pure_bind]
      split
      · rename_i fits
        rw [ih fits kept.2 (by omega)]
        rfl
      · rfl

theorem offsetsFrom_of_meetsOversized (meets : MeetsOversized start instructions) :
    (offsetsFrom start instructions : Watched State _) = fault .cutNumber := by
  induction instructions generalizing start with
  | nil =>
      rcases meets with ⟨position, instruction, found, _⟩
      simp at found
  | cons instruction instructions ih =>
      rw [offsetsFrom]
      rcases meetsOversized_cons_iff.mp meets with ⟨_, oversized⟩ | later
      · rw [sizeOf_of_isOversized oversized]
        rfl
      · have fits : start + instruction.size < 2 ^ 32 := by
          rcases later with ⟨_, _, _, reached, _⟩
          omega
        rw [sizeOf_of_small (by omega), pure_bind, if_pos fits, ih later]
        rfl

theorem refines_offsetsFrom (kept : ¬ MeetsOversized 0 instructions) :
    RefinesExcept State Eq (offsetsFrom 0 instructions) (Code.offsets instructions) := by
  unfold Code.offsets
  split
  · rename_i fits
    rw [offsetsFrom_of_fits (by omega)]
    exact refinesExcept_ok rfl
  · rename_i large
    rw [offsetsFrom_of_large (by decide) kept (by omega)]
    exact refinesExcept_error _

end Offsets

section Instructions

variable {code : List Instruction} {instruction : Instruction} {position target : Nat}

/-- Offsets of positions inside are found. -/
theorem element_offsetsFrom (inside : position ≤ code.length) :
    (element (Code.offsetsFrom 0 code) position : Watched State Nat) = pure (Code.size (code.take position)) := by
  have found := Code.getElem?_offsetsFrom 0 inside
  rw [Nat.zero_add] at found
  exact element_of found

theorem refines_displacement (few : code.length < Code.indexLimit) (here : position < code.length)
    (inside : target < code.length) (size : Nat) :
    RefinesExcept State Eq (displacement (Code.offsetsFrom 0 code) position size target)
      (Code.displacement (Code.offsetsFrom 0 code).toArray position (Code.size (code.take position) + size)
        target) := by
  have within : ¬ (Code.offsetsFrom 0 code).length ≤ target + 1 := by
    rw [Code.length_offsetsFrom]
    omega
  rw [Code.displacement_of_inside few inside, displacement, watch_of (by omega), pure_bind, if_neg within,
    element_offsetsFrom (Nat.le_of_lt here), pure_bind, element_offsetsFrom (Nat.le_of_lt inside), pure_bind]
  exact refinesExcept_ok rfl

theorem emitSigned_of_fitsByte {number : Int} (fits : Code.fitsByte number = true) :
    (emitSigned 1 number : Watched State _) = pure (Bytes.encodeSigned 1 number) := by
  simp only [Code.fitsByte, Bool.and_eq_true, decide_eq_true_eq] at fits
  rw [emitSigned, watch_of (by omega), pure_bind]

theorem emitSigned_of_fitsWord {number : Int} (fits : Code.fitsWord number = true) :
    (emitSigned 4 number : Watched State _) = pure (Bytes.encodeSigned 4 number) := by
  simp only [Code.fitsWord, Bool.and_eq_true, decide_eq_true_eq] at fits
  rw [emitSigned, watch_of (by omega), pure_bind]

theorem refines_branchBytes (instruction : Instruction) (position target : Nat) (distance : Int) :
    RefinesExcept State Eq (branchBytes instruction position target distance)
      (Code.branchBytes instruction position target distance) := by
  unfold branchBytes Code.branchBytes
  split
  · split
    · rename_i fits
      rw [emitSigned_of_fitsByte fits]
      exact refinesExcept_ok rfl
    · exact refinesExcept_error _
  · split
    · rename_i fits
      rw [emitSigned_of_fitsWord fits]
      exact refinesExcept_ok rfl
    · exact refinesExcept_error _

theorem refines_tableBytes {distance : Nat → Watched State Int} {plainDistance : Nat → Except Error Int}
    {targets : List Nat}
    (each : ∀ target ∈ targets, RefinesExcept State Eq (distance target) (plainDistance target)) :
    RefinesExcept State Eq (tableBytes distance targets) (Code.tableBytes plainDistance targets) := by
  induction targets with
  | nil => exact refinesExcept_ok rfl
  | cons target targets ih =>
      rw [List.forall_mem_cons] at each
      rw [tableBytes, Code.tableBytes]
      refine each.1.bind fun wide expected same _ => ?_
      subst same
      cases fits : Code.fitsWord wide with
      | false => exact refinesExcept_error _
      | true =>
          rw [if_pos rfl, emitSigned_of_fitsWord fits, pure_bind]
          refine (ih each.2).bind fun rest expected same _ => ?_
          exact refinesExcept_ok (by rw [same])

/-- The bytes of an operand that fits, with targets inside. -/
theorem refines_operandBytes (emitter : Emitter State) (few : code.length < Code.indexLimit)
    (here : position < code.length) (wellFormed : instruction.isWellFormed = true)
    (inside : ∀ target ∈ instruction.jumpPositions, target < code.length)
    (short : instruction.operand.tableLength < tableLimit) :
    Refines Eq (operandBytes emitter (Code.offsetsFrom 0 code) position instruction.size instruction)
      (Code.operandBytes emitter (Code.offsetsFrom 0 code).toArray position (Code.size (code.take position))
        instruction) := by
  unfold Instruction.isWellFormed at wellFormed
  unfold Instruction.jumpPositions at inside
  have kinds := Operand.mem_kinds_of_fits wellFormed
  unfold operandBytes Code.operandBytes
  cases operand : instruction.operand with
  | none | immediate | signature => exact refines_pure rfl
  | string | type | field | method | symbol => exact refines_of _
  | localVariable index | argument index =>
      rw [operand] at wellFormed kinds
      have small : index.toNat < 256 ^ (instruction.opcode.operandKind.size?).getD 4 := by
        rcases List.mem_cons.mp kinds with byte | word
        · rw [byte] at wellFormed ⊢
          have atMost : index ≤ 255 := by simpa [Operand.fits] using wellFormed
          exact Nat.lt_succ_of_le (UInt16.le_iff_toNat_le.mp atMost)
        · rw [List.mem_singleton.mp word]
          exact index.toNat_lt
      simp only
      rw [emit_of small]
      exact refines_pure rfl
  | target target =>
      rw [operand] at inside
      have distance := @refines_displacement State code position target few here
        (inside target (List.mem_singleton_self _)) instruction.size
      refine RefinesExcept.bind distance fun distance expected same _ => ?_
      subst same
      exact refines_branchBytes instruction position target distance
  | targets targets =>
      rw [operand] at inside short
      have count : targets.length < 256 ^ 4 := Nat.lt_trans short (by decide)
      simp only
      rw [emit_of count, pure_bind]
      have table := refines_tableBytes fun target targetMem =>
        @refines_displacement State code position target few here (inside target targetMem) instruction.size
      refine RefinesExcept.bind table fun rest expected same _ => ?_
      exact refinesExcept_ok (by rw [same])

theorem refines_encodeFrom (emitter : Emitter State) (few : code.length < Code.indexLimit)
    (inside : ∀ instruction ∈ code, ∀ target ∈ instruction.jumpPositions, target < code.length)
    (short : ∀ instruction ∈ code, instruction.operand.tableLength < tableLimit) {rest : List Instruction}
    (found : rest = code.drop position) :
    Refines Eq (encodeFrom emitter (Code.offsetsFrom 0 code) position rest)
      (Code.encodeFrom emitter (Code.offsetsFrom 0 code).toArray position (Code.size (code.take position)) rest) := by
  induction rest generalizing position with
  | nil => exact refines_pure rfl
  | cons instruction rest ih =>
      rcases Code.of_cons_eq_drop found with ⟨here, others⟩
      have instructionMem := List.mem_of_getElem? here
      rw [encodeFrom, Code.encodeFrom, ← Code.size_take_succ here]
      cases wellFormed : instruction.isWellFormed with
      | false => exact refines_throw _
      | true =>
          rw [Bool.not_true, if_neg Bool.false_ne_true, if_neg Bool.false_ne_true,
            sizeOf_of_few (short instruction instructionMem), pure_bind]
          refine (refines_operandBytes emitter few (List.getElem?_eq_some_iff.mp here).1 wellFormed
            (inside instruction instructionMem) (short instruction instructionMem)).bind
            fun operand expected same _ => ?_
          subst same
          refine (ih others).bind fun bytes expected same _ => ?_
          exact refines_pure (by rw [same])

/-- The bytes of code with targets inside. -/
theorem refines_encodeCode (emitter : Emitter State)
    (inside : ∀ instruction ∈ code, ∀ target ∈ instruction.jumpPositions, target < code.length)
    (short : ∀ instruction ∈ code, instruction.operand.tableLength < tableLimit) :
    Refines Eq (encodeCode emitter code) (Code.encode emitter code) := by
  refine Refines.bind (refines_offsetsFrom (not_meetsOversized_of_few short)) fun places expected same comes => ?_
  rcases comes with ⟨before, after, comes⟩
  rcases Code.offsets_eq_ok_iff.mp (Emission.ofExcept_eq_ok_iff.mp comes).1 with ⟨small, rfl⟩
  subst same
  have all := refines_encodeFrom emitter (Code.length_lt_indexLimit small) inside short List.drop_zero.symm
  rwa [List.take_zero, Code.size_nil] at all

end Instructions

/-! ## Clauses -/

/-- What a clause says besides its regions. -/
def extraOf (emitter : Emitter State) (offsets : List Nat) (clause : Clause) : Watched State Nat :=
  if clause.flags.isFilter then
    match clause.filterStart with
    | none => return 0
    | some start => element offsets start
  else if clause.flags.isTyped then
    match clause.catchType with
    | some type => of ((·.value.toNat) <$> emitter.type type)
    | none => throw (.structural .untypedCatch)
  else return 0

/-- The clause with its regions in bytes. -/
def toBytesOf (emitter : Emitter State) (offsets : List Nat) (clause : Clause) : Watched State ByteClause := do
  let extra ← extraOf emitter offsets clause
  let tryOffset ← element offsets clause.tryStart
  let tryStop ← element offsets clause.tryEnd
  let tryLength ← subtract tryStop tryOffset
  let handlerOffset ← element offsets clause.handlerStart
  let handlerStop ← element offsets clause.handlerEnd
  let handlerLength ← subtract handlerStop handlerOffset
  return ⟨clause.flags, tryOffset, tryLength, handlerOffset, handlerLength, extra⟩

/-- The bytes of a clause whose parts have the given widths. -/
def clauseBytes : (widths parts : List Nat) → Watched State (List UInt8)
  | width :: widths, part :: parts => do
    let bytes ← emit width part
    let rest ← clauseBytes widths parts
    return bytes ++ rest
  | _, _ => return []

/-- The section of the clauses. -/
def sectionBytes (clauses : List ByteClause) : Watched State (List UInt8) :=
  let smallSize := 4 + clauses.length * Section.smallClauseSize
  let fatSize := 4 + clauses.length * Section.fatClauseSize
  if smallSize < 2 ^ 8 && clauses.all Section.isNarrow then do
    let size ← emit 1 smallSize
    let parts ← clauses.mapM fun clause => clauseBytes Section.smallWidths clause.parts
    return Bytes.encode 1 Section.clauseFlag ++ size ++ Bytes.encode 2 0 ++ parts.flatten
  else if fatSize < 2 ^ 24 then do
    let size ← emit 3 fatSize
    let parts ← clauses.mapM fun clause => clauseBytes Section.fatWidths clause.parts
    return Bytes.encode 1 (Section.clauseFlag + Section.fatFlag) ++ size ++ parts.flatten
  else throw (.structural .tooManyClauses)

section Clauses

variable {code : List Instruction} {clause : Clause}

/-- Whether a clause is the expected one, and each of its parts is a number of four bytes. -/
def SmallClause (clause expected : ByteClause) : Prop := clause = expected ∧ ∀ part ∈ clause.parts, part < 256 ^ 4

theorem refines_extraOf (emitter : Emitter State) (small : Code.size code < 2 ^ 32)
    (inside : clause.isInside code.length = true) :
    Refines (fun extra expected => extra = expected ∧ extra < 256 ^ 4)
      (extraOf emitter (Code.offsetsFrom 0 code) clause)
      (Section.extraOf emitter (Code.offsetsFrom 0 code).toArray clause) := by
  unfold extraOf Section.extraOf
  split
  · cases filterStart : clause.filterStart with
    | none => exact refines_pure ⟨rfl, by decide⟩
    | some start =>
        have before : start < code.length := by
          simp only [Clause.isInside, filterStart, Option.all_some, Bool.and_eq_true, decide_eq_true_eq] at inside
          exact inside.2
        have total := Code.size_take_le code start
        simp only
        rw [element_offsetsFrom (Nat.le_of_lt before), Code.getD_offsetsFrom (Nat.le_of_lt before)]
        exact refines_pure ⟨rfl, by omega⟩
  · split
    · cases clause.catchType with
      | none => exact refines_throw _
      | some type =>
          refine refines_of_each fun made => ?_
          rcases Emission.map_eq_ok_iff.mp made with ⟨token, _, rfl⟩
          exact token.value.toNat_lt
    · exact refines_pure ⟨rfl, by decide⟩

/-- A clause that stays inside has regions that do not run backwards, and parts that are no more than the code. -/
theorem refines_toBytesOf (emitter : Emitter State) (small : Code.size code < 2 ^ 32)
    (inside : clause.isInside code.length = true) :
    Refines SmallClause (toBytesOf emitter (Code.offsetsFrom 0 code) clause)
      (Section.toBytesOf emitter (Code.offsetsFrom 0 code).toArray clause) := by
  unfold toBytesOf Section.toBytesOf
  refine (refines_extraOf emitter small inside).bind fun extra expected same _ => ?_
  rcases same with ⟨rfl, extraSmall⟩
  simp only [Clause.isInside, Bool.and_eq_true, decide_eq_true_eq] at inside
  rcases inside with ⟨⟨⟨⟨tryOrder, tryInside⟩, handlerOrder⟩, handlerInside⟩, _⟩
  have tryLess : Code.size (code.take clause.tryStart) < Code.size (code.take clause.tryEnd) :=
    Code.size_take_lt_of_lt tryOrder (by omega)
  have handlerLess : Code.size (code.take clause.handlerStart) < Code.size (code.take clause.handlerEnd) :=
    Code.size_take_lt_of_lt handlerOrder (by omega)
  have tryTotal := Code.size_take_le code clause.tryEnd
  have handlerTotal := Code.size_take_le code clause.handlerEnd
  have flags := clause.flags.toNat_lt
  rw [element_offsetsFrom (by omega), pure_bind, element_offsetsFrom tryInside, pure_bind,
    subtract_of (Nat.le_of_lt tryLess), pure_bind, element_offsetsFrom (by omega), pure_bind,
    element_offsetsFrom handlerInside, pure_bind, subtract_of (Nat.le_of_lt handlerLess), pure_bind]
  refine refines_pure ⟨?_, ?_⟩
  · beta_reduce
    rw [Code.getD_offsetsFrom (by omega), Code.getD_offsetsFrom tryInside, Code.getD_offsetsFrom (by omega),
      Code.getD_offsetsFrom handlerInside]
  · simp only [ByteClause.parts, List.forall_mem_cons, List.not_mem_nil, false_implies, implies_true, and_true]
    exact ⟨by omega, by omega, by omega, by omega, by omega, extraSmall⟩

-- without validation, a region may run backwards
example : toBytesOf Scope.emitter [0, 1] ⟨.finallyFlag, 1, 0, 0, 1, none, none⟩ Scope.empty = .error .belowZero :=
  rfl

theorem clauseBytes_of_fitWidths {widths parts : List Nat} (fits : Section.FitWidths widths parts) :
    (clauseBytes widths parts : Watched State _) = pure (List.zipWith Bytes.encode widths parts).flatten := by
  induction fits with
  | nil => rfl
  | cons small fits ih =>
      rw [clauseBytes, emit_of small, pure_bind, ih, pure_bind]
      rfl

theorem mapM_clauseBytes {widths : List Nat} {clauses : List ByteClause}
    (fits : ∀ clause ∈ clauses, Section.FitWidths widths clause.parts) :
    (clauses.mapM fun clause => clauseBytes widths clause.parts : Watched State _) =
      pure (clauses.map (Section.clauseBytes widths)) := by
  induction clauses with
  | nil => rfl
  | cons clause clauses ih =>
      rw [List.forall_mem_cons] at fits
      rw [List.mapM_cons, clauseBytes_of_fitWidths fits.1, pure_bind, ih fits.2, pure_bind]
      rfl

theorem refines_sectionBytes {clauses : List ByteClause}
    (small : ∀ clause ∈ clauses, ∀ part ∈ clause.parts, part < 256 ^ 4) :
    RefinesExcept State Eq (sectionBytes clauses) (Section.sectionBytes clauses) := by
  unfold sectionBytes Section.sectionBytes
  simp only
  split
  · rename_i takesSmall
    simp only [Bool.and_eq_true, decide_eq_true_eq, List.all_eq_true] at takesSmall
    have fits : ∀ clause ∈ clauses, Section.FitWidths Section.smallWidths clause.parts := by
      intro clause clauseMem
      exact Section.fitWidths_smallWidths (small clause clauseMem) (takesSmall.2 clause clauseMem)
    rw [emit_of takesSmall.1, pure_bind, mapM_clauseBytes fits, pure_bind]
    exact refinesExcept_ok rfl
  · split
    · rename_i takesFat
      have fits : ∀ clause ∈ clauses, Section.FitWidths Section.fatWidths clause.parts := by
        intro clause clauseMem
        exact Section.fitWidths_fatWidths (small clause clauseMem)
      rw [emit_of takesFat, pure_bind, mapM_clauseBytes fits, pure_bind]
      exact refinesExcept_ok rfl
    · exact refinesExcept_error _

end Clauses

/-! ## Bodies -/

/-- The section of the body's clauses. -/
def encodeClauses (emitter : Emitter State) (body : Body) : Watched State (List UInt8) := do
  let offsets ← offsetsFrom 0 body.instructions
  let clauses ← body.clauses.mapM (toBytesOf emitter offsets)
  sectionBytes clauses

/-- Encodes a body. -/
def encode (emitter : Emitter State) (body : Body) : Watched State (List UInt8) := do
  ofExcept body.validate
  let code ← encodeCode emitter body.instructions
  if body.fitsTiny code.length then do
    let header ← emit 1 (code.length * 4 + 2)
    return header ++ code
  else do
    let codeSize ← narrow 4 code.length
    let start := body.fatHeader codeSize ++ code
    if body.clauses.isEmpty then return start
    else do
      let clauses ← encodeClauses emitter body
      return start ++ Body.padding start.length ++ clauses

theorem refines_encodeClauses (emitter : Emitter State) {body : Body}
    (inside : ∀ clause ∈ body.clauses, clause.isInside body.size = true)
    (short : ∀ instruction ∈ body.instructions, instruction.operand.tableLength < tableLimit) :
    Refines Eq (encodeClauses emitter body) (body.encodeClauses emitter) := by
  refine Refines.bind (refines_offsetsFrom (not_meetsOversized_of_few short)) fun places expected same comes => ?_
  rcases comes with ⟨before, after, comes⟩
  rcases Code.offsets_eq_ok_iff.mp (Emission.ofExcept_eq_ok_iff.mp comes).1 with ⟨small, rfl⟩
  subst same
  have each := Refines.mapM fun clause clauseMem => refines_toBytesOf emitter small (inside clause clauseMem)
  refine each.bind fun clauses expected related _ => ?_
  have same : clauses = expected := List.forall₂_eq_eq_eq ▸ related.imp fun _ _ both => both.1
  subst same
  apply refines_sectionBytes
  exact List.forall₂_same.mp (related.imp fun _ _ both => both.2)

/-- No body makes encoding come to a fault, as long as its jump tables are not too large. -/
theorem refines_encode (emitter : Emitter State) {body : Body}
    (short : ∀ instruction ∈ body.instructions, instruction.operand.tableLength < tableLimit) :
    Refines Eq (encode emitter body) (body.encode emitter) := by
  refine Refines.bind (refines_of _) fun _ _ _ passed => ?_
  rcases passed with ⟨_, _, passed⟩
  rcases Body.validate_eq_ok_iff.mp (Emission.ofExcept_eq_ok_iff.mp passed).1 with ⟨instructions, clauses⟩
  refine (refines_encodeCode emitter (fun instruction instructionMem => (instructions instruction instructionMem).2)
    short).bind fun code expected same encoded => ?_
  subst same
  rcases encoded with ⟨_, _, encoded⟩
  rcases Code.length_encode encoded with ⟨length, small⟩
  cases tiny : body.fitsTiny code.length with
  | true =>
      have few : code.length ≤ Body.tinyCodeLimit := by
        simp only [Body.fitsTiny, Bool.and_eq_true, decide_eq_true_eq] at tiny
        exact tiny.1.1.1.1
      unfold Body.tinyCodeLimit at few
      rw [if_pos rfl, emit_of (by omega), pure_bind]
      exact refines_pure rfl
  | false =>
      rw [if_neg Bool.false_ne_true, if_neg Bool.false_ne_true, narrow_of (by omega), pure_bind]
      simp only
      split
      · exact refines_pure rfl
      · refine (refines_encodeClauses emitter (fun clause clauseMem => (clauses clause clauseMem).1) short).bind
          fun bytes expected same _ => ?_
        exact refines_pure (by rw [same])

/-! ## Both directions -/

/-- Whatever bytes there are, decoding by places comes to what decoding comes to, and so never to a fault. Whatever
body there is, valid or not, the same holds of encoding if its jump tables have fewer than `2 ^ 30 - 1` entries. -/
theorem codec_never_faults (emitter : Emitter State) (resolver : Resolver) :
    (∀ data (before : State), decode resolver data before = .ok (Body.decode resolver data, before)) ∧
      ∀ body : Body, (∀ instruction ∈ body.instructions, instruction.operand.tableLength < 2 ^ 30 - 1) →
        ∀ before, encode emitter body before = .ok (body.encode emitter before) :=
  ⟨fun data => refines_eq_iff.mp (refines_decode resolver data),
    fun _ few => refines_eq_iff.mp (refines_encode emitter few)⟩

/-- A body with a jump table, a filter and a clause of another kind. -/
def forkedBody : Body where
  maxStack := 2
  localSignature := Token.null
  initLocals := false
  instructions := Code.placeFrom 0
    [.unplaced .ldcI4_0 .none, .unplaced .switch (.targets [0, 2, 3]), .unplaced .endfilter .none, .unplaced .ret .none]
  clauses := [⟨.filterFlag, 0, 2, 3, 4, none, some 2⟩, ⟨.finallyFlag, 0, 3, 3, 4, none, none⟩]

/-- The bytes of the body. -/
def forkedData : List UInt8 :=
  [0x0B, 0x30, 0x02, 0x00, 0x15, 0x00, 0x00, 0x00, 0x00, 0x00, 0x00, 0x00,
    0x16, 0x45, 0x03, 0x00, 0x00, 0x00, 0xEE, 0xFF, 0xFF, 0xFF, 0x00, 0x00, 0x00, 0x00, 0x02, 0x00, 0x00, 0x00,
    0xFE, 0x11, 0x2A,
    0x00, 0x00, 0x00,
    0x01, 0x1C, 0x00, 0x00,
    0x01, 0x00, 0x00, 0x00, 0x12, 0x14, 0x00, 0x01, 0x12, 0x00, 0x00, 0x00,
    0x02, 0x00, 0x00, 0x00, 0x14, 0x14, 0x00, 0x01, 0x00, 0x00, 0x00, 0x00]

theorem codec_never_faults_forkedBody :
    (∀ instruction ∈ forkedBody.instructions, instruction.operand.tableLength < 2 ^ 30 - 1) ∧
      encode Scope.emitter forkedBody Scope.empty = .ok (.ok forkedData, Scope.empty) ∧
      decode Scope.empty.resolver forkedData Scope.empty = .ok (.ok forkedBody, Scope.empty) := by
  have few : ∀ instruction ∈ forkedBody.instructions, instruction.operand.tableLength < 2 ^ 30 - 1 := by decide
  rcases codec_never_faults Scope.emitter Scope.empty.resolver with ⟨decodes, encodes⟩
  have encoded : forkedBody.encode Scope.emitter Scope.empty = (.ok forkedData, Scope.empty) :=
    Prod.ext (by decide +kernel) (by decide +kernel)
  have decoded : Body.decode Scope.empty.resolver forkedData = .ok forkedBody := by decide +kernel
  exact ⟨few, by rw [encodes forkedBody few, encoded], by rw [decodes, decoded]⟩

end Watched

end CilRelink
