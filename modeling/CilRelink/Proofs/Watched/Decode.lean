import CilRelink.Proofs.Body.Chain
import CilRelink.Proofs.Watched.Basic

/-!
# Watched decoding

Decoding by places in the data, where each byte is asked for by its index, each part of the data is a slice, and
loops are told how many steps they may take. No bytes make it come to a fault, and what it comes to is what decoding
comes to.
-/

namespace CilRelink

open Bytes (fieldAt)

/-! ## One step of decoding -/

/-- Code that is not empty is cut instruction by instruction. -/
theorem Code.cut_eq_of_ne_nil {offset : Nat} {code : List UInt8} (nonempty : code ≠ []) :
    Code.cut offset code =
      Code.cutInstruction offset code >>= fun step => (step.1 :: ·) <$> Code.cut step.1.next step.2 := by
  cases step : Code.cutInstruction offset code with
  | ok result => exact Code.cut_of_cutInstruction step
  | error error =>
      cases code with
      | nil => exact absurd rfl nonempty
      | cons byte bytes =>
          rw [Code.cut]
          split
          · rename_i failed
            rw [step] at failed
            cases failed
            rfl
          · rename_i found
            rw [step] at found
            cases found

namespace Watched

variable {State : Type}

/-! ## Reading -/

/-- Reads the byte at `place` and tells the place behind it. -/
def readByte (data : List UInt8) (place : Nat) : Watched State (UInt8 × Nat) :=
  if data.length < place + 1 then throw .outOfBounds
  else do
    let byte ← element data place
    return (byte, place + 1)

/-- Reads the number in the `width` bytes at `place` and tells the place behind them. -/
def read (width : Nat) (data : List UInt8) (place : Nat) : Watched State (Nat × Nat) :=
  if data.length < place + width then throw .outOfBounds
  else do
    let bytes ← slice data place (place + width)
    return (Bytes.decode bytes, place + width)

/-- The bytes from `first` up to `last`, if there are so many. -/
def part (data : List UInt8) (first last : Nat) : Watched State (List UInt8) :=
  if last < first ∨ data.length < last then throw .outOfBounds else slice data first last

/-- Whether what is read by places is what is read off the front, and the place is that of what is left. -/
structure Behind {α : Type} (data : List UInt8) (reached : α × Nat) (left : α × List UInt8) : Prop where
  value : reached.1 = left.1
  inside : reached.2 ≤ data.length
  rest : left.2 = data.drop reached.2

theorem read_of_inside {width : Nat} {data : List UInt8} {place : Nat} (inside : place + width ≤ data.length) :
    (read width data place : Watched State (Nat × Nat)) = pure (fieldAt data place width, place + width) := by
  rw [read, if_neg (Nat.not_lt.mpr inside), slice_of (Nat.le_add_right _ _) inside, pure_bind, fieldAt,
    Nat.add_sub_cancel_left]

theorem read_of_outside {width : Nat} {data : List UInt8} {place : Nat} (outside : data.length < place + width) :
    (read width data place : Watched State (Nat × Nat)) = throw .outOfBounds := if_pos outside

theorem readByte_of_inside {data : List UInt8} {place : Nat} {byte : UInt8} (found : data[place]? = some byte) :
    (readByte data place : Watched State (UInt8 × Nat)) = pure (byte, place + 1) := by
  have inside := (List.getElem?_eq_some_iff.mp found).1
  rw [readByte, if_neg (by omega), element_of found, pure_bind]

theorem readByte_of_outside {data : List UInt8} {place : Nat} (outside : data.length ≤ place) :
    (readByte data place : Watched State (UInt8 × Nat)) = throw .outOfBounds := if_pos (by omega)

/-! ## Instructions -/

/-- The opcode of the bytes, if there is one. -/
def foundOpcode (offset : Nat) (first : UInt8) (second : Option UInt8) (next : Nat) : Watched State (Opcode × Nat) :=
  match Opcode.ofBytes? first second with
  | some opcode => return (opcode, next)
  | none => throw (.malformed (.invalidOpcode first second offset))

/-- Reads the opcode at `place`. -/
def readOpcode (code : List UInt8) (place : Nat) : Watched State (Opcode × Nat) := do
  let (first, next) ← readByte code place
  if first = Opcode.escapeByte then
    let (second, next) ← readByte code next
    foundOpcode place first (some second) next
  else foundOpcode place first none next

/-- Reads numbers of four bytes. -/
def readTable (code : List UInt8) : (count place : Nat) → Watched State (List Nat × Nat)
  | 0, place => return ([], place)
  | count + 1, place => do
    let (number, next) ← read 4 code place
    let (numbers, last) ← readTable code count next
    return (number :: numbers, last)

/-- Reads the operand at `place` of the instruction at `offset`. A table gets as much room as it says that it has
entries, before the entries are read. -/
def readOperand (code : List UInt8) (offset : Nat) (kind : OperandKind) (place : Nat) :
    Watched State (Code.RawOperand × Nat) :=
  match kind.size? with
  | some size => do
    let (number, next) ← read size code place
    return (Code.interpret kind number, next)
  | none => do
    let (count, next) ← read 4 code place
    let remaining := code.length - next
    if remaining / 4 < count then throw (.malformed (.tableTooLong offset count remaining))
    watch (4 * count ≤ remaining) .oversizedTable
    let (numbers, last) ← readTable code count next
    return (.displacements (numbers.map (Code.signed 4)), last)

/-- Reads the instruction at `place`. -/
def readInstruction (code : List UInt8) (place : Nat) : Watched State (Code.RawInstruction × Nat) := do
  let (opcode, next) ← readOpcode code place
  let (operand, last) ← readOperand code place opcode.operandKind next
  return (⟨place, last, opcode, operand⟩, last)

/-- Reads the instructions from `place` on, in `steps` steps at most. -/
def readInstructions (code : List UInt8) : (steps place : Nat) → Watched State (List Code.RawInstruction)
  | 0, place => if code.length ≤ place then return [] else fault .endless
  | steps + 1, place =>
    if code.length ≤ place then return []
    else do
      let (raw, next) ← readInstruction code place
      watch (place < next) .standstill
      let raws ← readInstructions code steps next
      return raw :: raws

theorem refines_foundOpcode {code : List UInt8} {next : Nat} (inside : next ≤ code.length) (offset : Nat)
    (first : UInt8) (second : Option UInt8) :
    RefinesExcept State (Behind code) (foundOpcode offset first second next)
      (Code.cutOpcode.found offset first second (code.drop next)) := by
  unfold foundOpcode Code.cutOpcode.found
  cases Opcode.ofBytes? first second with
  | some opcode => exact refinesExcept_ok ⟨rfl, inside, rfl⟩
  | none => exact refinesExcept_error _

theorem refines_readOpcode (code : List UInt8) (place : Nat) :
    RefinesExcept State (Behind code) (readOpcode code place)
      (Code.cutOpcode place (code.drop place)) := by
  unfold readOpcode
  rcases Nat.lt_or_ge place code.length with inside | outside
  · rw [readByte_of_inside (List.getElem?_eq_getElem inside), pure_bind, List.drop_eq_getElem_cons inside]
    simp only [Code.cutOpcode]
    split
    · rcases Nat.lt_or_ge (place + 1) code.length with more | short
      · rw [readByte_of_inside (List.getElem?_eq_getElem more), pure_bind, List.drop_eq_getElem_cons more]
        exact refines_foundOpcode more _ _ _
      · rw [readByte_of_outside short, List.drop_eq_nil_of_le short]
        exact refinesExcept_error _
    · exact refines_foundOpcode inside _ _ _
  · rw [readByte_of_outside outside, List.drop_eq_nil_of_le outside]
    exact refinesExcept_error _

/-- An opcode ends as many bytes behind its place as it takes. -/
theorem Behind.next_eq_of_cutOpcode {code rest : List UInt8} {place : Nat} {reached : Opcode × Nat} {opcode : Opcode}
    (behind : Behind code reached (opcode, rest))
    (cut : Code.cutOpcode place (code.drop place) = .ok (opcode, rest)) : reached.2 = place + opcode.size := by
  have length := congrArg List.length (Code.cutOpcode_eq_ok cut)
  have positive := opcode.size_pos
  have inside := behind.inside
  have left : rest = code.drop reached.2 := behind.rest
  rw [List.length_append, Opcode.length_bytes, left, List.length_drop, List.length_drop] at length
  omega

/-- A row of numbers is read exactly if there are bytes enough. -/
theorem readTable_eq (code : List UInt8) (count place : Nat) :
    if 4 * count ≤ code.length - place then
      ∃ numbers, (readTable code count place : Watched State _) = pure (numbers, place + 4 * count) ∧
        Bytes.readMany 4 count (code.drop place) = some (numbers, code.drop (place + 4 * count))
    else Bytes.readMany 4 count (code.drop place) = none := by
  induction count generalizing place with
  | zero =>
      rw [if_pos (Nat.zero_le _)]
      exact ⟨[], rfl, rfl⟩
  | succ count ih =>
      have others := ih (place + 4)
      rw [Bytes.readMany, Bytes.read_drop]
      by_cases first : 4 ≤ code.length - place
      · rw [if_pos first]
        simp only
        by_cases more : 4 * count ≤ code.length - (place + 4)
        · rw [if_pos more] at others
          rcases others with ⟨numbers, reads, row⟩
          rw [if_pos (by omega)]
          refine ⟨fieldAt code place 4 :: numbers, ?_, ?_⟩
          · rw [readTable, read_of_inside (by omega), pure_bind]
            simp only [reads, pure_bind]
            rw [Nat.mul_succ, Nat.add_assoc, Nat.add_comm 4]
          · rw [row, Option.map_some, Nat.mul_succ, Nat.add_assoc, Nat.add_comm 4]
        · rw [if_neg more] at others
          rw [if_neg (by omega), others, Option.map_none]
      · rw [if_neg first, if_neg (by omega)]

/-- Whether an operand that is read by places is the one that is cut off, and the place is behind its bytes. -/
structure BehindOperand (code : List UInt8) (place : Nat) (reached : Code.RawOperand × Nat)
    (left : Code.RawOperand × Nat × List UInt8) : Prop where
  value : reached.1 = left.1
  next : reached.2 = place + left.2.1
  inside : reached.2 ≤ code.length
  rest : left.2.2 = code.drop reached.2

theorem refines_readOperand {code : List UInt8} {place : Nat} (inside : place ≤ code.length) (offset : Nat)
    (kind : OperandKind) :
    RefinesExcept State (BehindOperand code place) (readOperand code offset kind place)
      (Code.cutOperand offset kind (code.drop place)) := by
  unfold readOperand Code.cutOperand
  cases kind.size? with
  | some size =>
      simp only [Bytes.read_drop]
      by_cases enough : size ≤ code.length - place
      · rw [if_pos enough, read_of_inside (by omega), pure_bind]
        exact refinesExcept_ok ⟨rfl, rfl, by omega, rfl⟩
      · rw [if_neg enough, read_of_outside (by omega)]
        exact refinesExcept_error _
  | none =>
      simp only [Bytes.read_drop]
      by_cases enough : 4 ≤ code.length - place
      · rw [if_pos enough, read_of_inside (by omega), pure_bind]
        simp only
        have row := @readTable_eq State code (fieldAt code place 4) (place + 4)
        by_cases room : 4 * fieldAt code place 4 ≤ code.length - (place + 4)
        · rw [if_pos room] at row
          rcases row with ⟨numbers, reads, found⟩
          rw [if_neg (by omega), found, watch_of room, pure_bind, reads, pure_bind]
          exact refinesExcept_ok ⟨rfl, by simp only; omega, by simp only; omega, rfl⟩
        · rw [if_neg room] at row
          rw [if_pos (by omega), row]
          simp only [List.length_drop]
          exact refinesExcept_error _
      · rw [if_neg enough, read_of_outside (by omega)]
        exact refinesExcept_error _

/-- Whether an instruction that is read by places is the one that is cut off, and ends where it says, behind its
place. -/
structure BehindInstruction (code : List UInt8) (place : Nat) (reached : Code.RawInstruction × Nat)
    (left : Code.RawInstruction × List UInt8) : Prop extends Behind code reached left where
  next : left.1.next = reached.2
  progress : place < reached.2

theorem refines_readInstruction (code : List UInt8) (place : Nat) :
    RefinesExcept State (BehindInstruction code place) (readInstruction code place)
      (Code.cutInstruction place (code.drop place)) := by
  unfold readInstruction Code.cutInstruction
  refine (refines_readOpcode code place).bind fun reached left behind cut => ?_
  rcases reached with ⟨opcode, next⟩
  rcases left with ⟨sameOpcode, afterOpcode⟩
  have ends := behind.next_eq_of_cutOpcode cut
  rcases behind with ⟨same, inside, rest⟩
  dsimp only at ends same inside rest ⊢
  subst same rest ends
  refine (refines_readOperand inside place opcode.operandKind).bind fun reached left behind _ => ?_
  rcases reached with ⟨operand, last⟩
  rcases left with ⟨sameOperand, size, afterOperand⟩
  rcases behind with ⟨same, ends, inside, rest⟩
  dsimp only at same ends inside rest ⊢
  subst same rest ends
  have positive := opcode.size_pos
  exact refinesExcept_ok ⟨⟨rfl, inside, rfl⟩, rfl, by dsimp only; omega⟩

theorem refines_readInstructions {code : List UInt8} {steps place : Nat} (enough : code.length ≤ place + steps) :
    RefinesExcept State Eq (readInstructions code steps place) (Code.cut place (code.drop place)) := by
  induction steps generalizing place with
  | zero =>
      rw [readInstructions, if_pos (by omega), List.drop_eq_nil_of_le (by omega), Code.cut]
      exact refinesExcept_ok rfl
  | succ steps ih =>
      rw [readInstructions]
      rcases Nat.lt_or_ge place code.length with inside | outside
      · have nonempty : code.drop place ≠ [] := by
          rw [Ne, List.drop_eq_nil_iff]
          omega
        rw [if_neg (by omega), Code.cut_eq_of_ne_nil nonempty]
        refine (refines_readInstruction code place).bind fun reached left behind _ => ?_
        rcases reached with ⟨raw, next⟩
        rcases left with ⟨sameRaw, rest⟩
        rcases behind with ⟨⟨same, _, left⟩, ends, progress⟩
        dsimp only at same left ends progress ⊢
        subst same left
        rw [watch_of progress, pure_bind, ← bind_pure_comp, ends]
        refine (ih (by omega)).bind fun raws others same _ => ?_
        exact refinesExcept_ok (by rw [same])
      · rw [if_pos outside, List.drop_eq_nil_of_le outside, Code.cut]
        exact refinesExcept_ok rfl

/-! ## Operands -/

/-- The position that a displacement leads to, from the instruction at a position among those read. -/
def target (boundaries : Array (Option Nat)) (raws : List Code.RawInstruction) (position : Nat) (distance : Int) :
    Watched State Nat := do
  let stop : Nat ← element (raws.map (·.next)) position
  let offset := (stop : Int) + distance
  match if 0 ≤ offset then boundaries[offset.toNat]?.join else none with
  | some found => return found
  | none => do
    let start ← element (raws.map (·.offset)) position
    throw (.malformed (.targetOffBoundary start offset))

/-- What the operand of the instruction at a position stands for. -/
def resolveOperand (resolver : Resolver) (boundaries : Array (Option Nat)) (raws : List Code.RawInstruction)
    (position : Nat) (raw : Code.RawInstruction) : Watched State Operand :=
  match raw.operand with
  | .plain operand => return operand
  | .token token => ofExcept (Code.resolveToken resolver raw.opcode.operandKind token)
  | .displacement distance => Operand.target <$> target boundaries raws position distance
  | .displacements distances => Operand.targets <$> distances.mapM (target boundaries raws position)

/-- Resolves instructions, the first of which is at `position` among those read. -/
def resolveFrom (resolver : Resolver) (boundaries : Array (Option Nat)) (raws : List Code.RawInstruction) :
    (position : Nat) → List Code.RawInstruction → Watched State (List Instruction)
  | _, [] => return []
  | position, raw :: rest => do
    let operand ← resolveOperand resolver boundaries raws position raw
    let instructions ← resolveFrom resolver boundaries raws (position + 1) rest
    return ⟨raw.offset, raw.opcode, operand⟩ :: instructions

/-- The instructions of the code, which takes no more bytes than offsets can tell. -/
def decodeCode (resolver : Resolver) (code : List UInt8) : Watched State (List Instruction) := do
  watch (code.length < 256 ^ 4) .cutNumber
  let raws ← readInstructions code code.length 0
  resolveFrom resolver (Code.boundaries 0 raws).toArray raws 0 raws

section Operands

variable {resolver : Resolver} {boundaries : Array (Option Nat)} {raws : List Code.RawInstruction} {position : Nat}
variable {raw : Code.RawInstruction}

theorem refines_target (found : raws[position]? = some raw) (distance : Int) :
    RefinesExcept State Eq (target boundaries raws position distance) (Code.target boundaries raw distance) := by
  have stop : (raws.map (·.next))[position]? = some raw.next := by rw [List.getElem?_map, found, Option.map_some]
  have start : (raws.map (·.offset))[position]? = some raw.offset := by rw [List.getElem?_map, found, Option.map_some]
  rw [target, element_of stop, pure_bind, Code.target]
  simp only
  cases if 0 ≤ (raw.next : Int) + distance then boundaries[((raw.next : Int) + distance).toNat]?.join else none with
  | some found => exact refinesExcept_ok rfl
  | none =>
      simp only [element_of start, pure_bind]
      exact refinesExcept_error _

theorem refines_resolveOperand (found : raws[position]? = some raw) :
    RefinesExcept State Eq (resolveOperand resolver boundaries raws position raw)
      (Code.resolveOperand resolver boundaries raw) := by
  unfold resolveOperand Code.resolveOperand
  cases raw.operand with
  | plain operand => exact refinesExcept_ok rfl
  | token token => exact refinesExcept_ofExcept _
  | displacement distance =>
      exact (refines_target found distance).map fun _ _ same _ => by rw [same]
  | displacements distances =>
      refine (RefinesExcept.mapM fun distance _ => refines_target found distance).map fun _ _ same _ => ?_
      rw [same]

theorem refines_resolveFrom {rest : List Code.RawInstruction} (found : rest = raws.drop position) :
    RefinesExcept State Eq (resolveFrom resolver boundaries raws position rest)
      (rest.mapM (Code.resolve resolver boundaries)) := by
  induction rest generalizing position with
  | nil => exact refinesExcept_ok rfl
  | cons raw rest ih =>
      rcases Code.of_cons_eq_drop found with ⟨here, others⟩
      rw [resolveFrom, List.mapM_cons, Code.resolve, ← bind_pure_comp, bind_assoc]
      refine (refines_resolveOperand here).bind fun operand expected same _ => ?_
      rw [pure_bind]
      refine (ih others).bind fun instructions expectedRest sameRest _ => ?_
      exact refinesExcept_ok (by rw [same, sameRest])

/-- Code that offsets can tell is decoded without a fault. -/
theorem refines_decodeCode (resolver : Resolver) {code : List UInt8} (small : code.length < 256 ^ 4) :
    RefinesExcept State Eq (decodeCode resolver code) (Code.decode resolver code) := by
  rw [decodeCode, watch_of small, pure_bind, Code.decode]
  have reads := @refines_readInstructions State code code.length 0 (Nat.le_add_left _ _)
  rw [List.drop_zero] at reads
  refine reads.bind fun raws expected same _ => ?_
  subst same
  exact refines_resolveFrom rfl

end Operands

/-! ## Sections -/

/-- Reads the number at `place` in a section that ends at `stop`. -/
def readWithin (stop width : Nat) (data : List UInt8) (place : Nat) : Watched State (Nat × Nat) := do
  watch (place + width ≤ stop) .pastSection
  read width data place

/-- Reads numbers of the given widths from `place` on, in a section that ends at `stop`. -/
def readWidths (stop : Nat) (data : List UInt8) : (widths : List Nat) → (place : Nat) → Watched State (List Nat × Nat)
  | [], place => return ([], place)
  | width :: widths, place => do
    let (number, next) ← readWithin stop width data place
    let (numbers, last) ← readWidths stop data widths next
    return (number :: numbers, last)

/-- Reads `count` clauses from `place` on, in a section that ends at `stop`. -/
def readClauses (widths : List Nat) (stop : Nat) (data : List UInt8) :
    (count place : Nat) → Watched State (List ByteClause)
  | 0, _ => return []
  | count + 1, place => do
    let (parts, next) ← readWidths stop data widths place
    match ByteClause.ofParts? parts with
    | some clause => do
      let clauses ← readClauses widths stop data count next
      return clause :: clauses
    | none => throw .outOfBounds

/-- The size of the section with the given flags at `cursor`. -/
def sectionSize (data : List UInt8) (cursor flags : Nat) : Watched State Nat :=
  if Section.hasFlag flags Section.fatFlag then do
    let here ← slice data cursor data.length
    let (head, _) ← read 4 here 0
    return head / 256
  else do
    let here ← part data (cursor + 1) data.length
    let (size, _) ← read 1 here 0
    return size

/-- The clauses of the section with the given flags and size at `cursor`. -/
def sectionClauses (data : List UInt8) (cursor flags size : Nat) : Watched State (List ByteClause) := do
  let space ← subtract size 4
  if Section.hasFlag flags Section.fatFlag then
    readClauses Section.fatWidths (cursor + size) data (space / Section.fatClauseSize) (cursor + 4)
  else readClauses Section.smallWidths (cursor + size) data (space / Section.smallClauseSize) (cursor + 4)

/-- The clauses of the chain of sections at `cursor`, which is followed for `steps` sections at most. -/
def readChain (data : List UInt8) : (steps cursor : Nat) → Watched State (List ByteClause)
  | 0, _ => fault .endless
  | steps + 1, cursor => do
    let here ← part data cursor data.length
    let (head, _) ← readByte here 0
    let flags := head.toNat
    if !Section.hasFlag flags Section.clauseFlag then return []
    else do
    let size ← sectionSize data cursor flags
    if size < 4 ∨ data.length < cursor + size then throw .outOfBounds
    else do
    let clauses ← sectionClauses data cursor flags size
    if Section.hasFlag flags Section.moreFlag then do
      let next := Section.alignUp (cursor + size)
      watch (cursor + 4 ≤ next) .standstill
      let others ← readChain data steps next
      return clauses ++ others
    else return clauses

theorem readWidths_of_inside {stop : Nat} {data : List UInt8} (within : stop ≤ data.length) {widths : List Nat}
    {place : Nat} (inside : place + widths.sum ≤ stop) :
    (readWidths stop data widths place : Watched State _) =
      pure (Section.fieldsAt data place widths, place + widths.sum) := by
  induction widths generalizing place with
  | nil => rfl
  | cons width widths ih =>
      rw [List.sum_cons] at inside
      rw [readWidths, readWithin, watch_of (by omega), pure_bind, read_of_inside (by omega), pure_bind]
      simp only [ih (by omega : place + width + widths.sum ≤ stop), pure_bind]
      rw [List.sum_cons, Nat.add_assoc]
      rfl

/-- As many clauses as a section has room for are read, and reading does not leave it. -/
theorem readClauses_of_inside {widths : List Nat} {size stop : Nat} {data : List UInt8} {clauseAt : Nat → ByteClause}
    (sum : widths.sum = size)
    (parts : ∀ offset, ByteClause.ofParts? (Section.fieldsAt data offset widths) = some (clauseAt offset))
    (within : stop ≤ data.length) {count place : Nat} (inside : place + count * size ≤ stop) :
    ∃ clauses, (readClauses widths stop data count place : Watched State _) = pure clauses ∧
      Section.readClauses widths count (data.drop place) = some clauses := by
  induction count generalizing place with
  | zero => exact ⟨[], rfl, rfl⟩
  | succ count ih =>
      rw [Nat.succ_mul] at inside
      rcases ih (by omega : place + size + count * size ≤ stop) with ⟨clauses, reads, found⟩
      refine ⟨clauseAt place :: clauses, ?_, ?_⟩
      · rw [readClauses, readWidths_of_inside within (by omega), pure_bind, sum]
        simp only [parts, reads, pure_bind]
      · rw [Section.readClauses, Section.readWidths_drop, sum, if_pos (by omega)]
        simp only [parts, found]

theorem sectionClauses_of_inside {data : List UInt8} {cursor size : Nat} (flags : Nat) (hasHead : 4 ≤ size)
    (inside : cursor + size ≤ data.length) :
    ∃ clauses, (sectionClauses data cursor flags size : Watched State _) = pure clauses ∧
      Section.clauses? flags size (data.drop cursor) = some clauses := by
  rw [sectionClauses, subtract_of hasHead, pure_bind, Section.clauses?, List.drop_drop]
  have fatRoom := Nat.div_mul_le_self (size - 4) Section.fatClauseSize
  have smallRoom := Nat.div_mul_le_self (size - 4) Section.smallClauseSize
  split
  · exact readClauses_of_inside Section.sum_fatWidths (Section.ofParts?_fatWidths data) inside (by omega)
  · exact readClauses_of_inside Section.sum_smallWidths (Section.ofParts?_smallWidths data) inside (by omega)

theorem part_of_inside {data : List UInt8} {first last : Nat} (order : first ≤ last) (inside : last ≤ data.length) :
    (part data first last : Watched State _) = pure ((data.drop first).take (last - first)) := by
  rw [part, if_neg (by omega), slice_of order inside]

theorem part_of_outside {data : List UInt8} {first last : Nat} (outside : last < first ∨ data.length < last) :
    (part data first last : Watched State _) = throw .outOfBounds := if_pos outside

/-- The rest of the data from a place on, up to its end. -/
theorem take_drop_length (data : List UInt8) (place : Nat) :
    (data.drop place).take (data.length - place) = data.drop place :=
  List.take_of_length_le (List.length_drop ▸ Nat.le_refl _)

theorem refines_sectionSize {data : List UInt8} {cursor : Nat} (inside : cursor ≤ data.length) (flags : Nat) :
    RefinesExcept State Eq (sectionSize data cursor flags)
      (match Section.size? flags (data.drop cursor) with
        | some size => .ok size
        | none => .error .outOfBounds) := by
  unfold sectionSize Section.size?
  split
  · rw [slice_of inside (Nat.le_refl _), pure_bind, take_drop_length, Bytes.read_drop]
    by_cases enough : 4 ≤ data.length - cursor
    · rw [if_pos enough, read_of_inside (by rw [List.length_drop]; omega), pure_bind]
      exact refinesExcept_ok rfl
    · rw [if_neg enough, read_of_outside (by rw [List.length_drop]; omega)]
      exact refinesExcept_error _
  · rw [List.drop_drop, Bytes.read_drop]
    by_cases enough : 1 ≤ data.length - (cursor + 1)
    · rw [if_pos enough, part_of_inside (by omega) (Nat.le_refl _), pure_bind, take_drop_length,
        read_of_inside (by rw [List.length_drop]; omega), pure_bind]
      exact refinesExcept_ok rfl
    · rw [if_neg enough]
      by_cases atEnd : data.length < cursor + 1
      · rw [part_of_outside (.inl atEnd)]
        exact refinesExcept_error _
      · rw [part_of_inside (by omega) (Nat.le_refl _), pure_bind, take_drop_length,
          read_of_outside (by rw [List.length_drop]; omega)]
        exact refinesExcept_error _

/-- A chain at a multiple of four is followed for no more sections than there are multiples of four left. -/
theorem refines_readChain {data : List UInt8} {steps cursor : Nat} (aligned : cursor % 4 = 0)
    (near : cursor ≤ data.length + 3) (enough : data.length + 4 ≤ cursor + 4 * steps) :
    RefinesExcept State Eq (readChain data steps cursor) (Section.readChain (data.drop cursor)) := by
  induction steps generalizing cursor with
  | zero => omega
  | succ steps ih =>
      rw [readChain]
      rcases Nat.lt_or_ge cursor data.length with inside | outside
      · have head : (data.drop cursor)[0]? = some data[cursor] := by
          rw [List.getElem?_drop, Nat.add_zero, List.getElem?_eq_getElem inside]
        rw [part_of_inside (by omega) (Nat.le_refl _), pure_bind, take_drop_length, readByte_of_inside head, pure_bind,
          Section.readChain_drop inside]
        simp only
        split
        · exact refinesExcept_ok rfl
        · refine (refines_sectionSize (by omega) _).bind fun size expected same _ => ?_
          subst same
          by_cases short : size < 4 ∨ data.length < cursor + size
          · rw [if_pos short, if_pos short]
            exact refinesExcept_error _
          · rw [if_neg short, if_neg short]
            rcases @sectionClauses_of_inside State data cursor size data[cursor].toNat (by omega) (by omega) with
              ⟨clauses, reads, found⟩
            rw [reads, found, pure_bind]
            simp only
            split
            · have atLeast := Section.le_alignUp (cursor + size)
              have atMost := Section.alignUp_le (cursor + size)
              rw [watch_of (by omega), pure_bind, Section.add_alignUp aligned, ← bind_pure_comp]
              refine (ih (Section.alignUp_mod _) (by omega) (by omega)).bind fun others expectedOthers same _ => ?_
              exact refinesExcept_ok (by rw [same])
            · exact refinesExcept_ok rfl
      · rw [List.drop_eq_nil_of_le outside, Section.readChain]
        by_cases past : data.length < cursor
        · rw [part_of_outside (.inl past)]
          exact refinesExcept_error _
        · rw [part_of_inside (by omega) (Nat.le_refl _), pure_bind, take_drop_length, List.drop_eq_nil_of_le outside,
            readByte_of_outside (Nat.zero_le _)]
          exact refinesExcept_error _

/-! ## Bodies -/

/-- Decodes a body whose tiny header announces code of `size` bytes. -/
def decodeTiny (resolver : Resolver) (data : List UInt8) (size : Nat) : Watched State Body := do
  let code ← part data 1 (1 + size)
  Body.ofInstructions <$> decodeCode resolver code

/-- The handlers of a body, from the chain of sections at `cursor`. -/
def decodeClauses (resolver : Resolver) (data : List UInt8) (instructions : List Instruction) (codeSize cursor : Nat) :
    Watched State (List Clause) := do
  let clauses ← readChain data (data.length / 4) cursor
  ofExcept (clauses.mapM (Section.resolveClause resolver instructions codeSize))

/-- Decodes a body with a fat header. -/
def decodeFat (resolver : Resolver) (data : List UInt8) : Watched State Body :=
  if data.length < Body.fatHeaderSize then throw .outOfBounds
  else do
    let (head, place) ← read 2 data 0
    let (maxStack, place) ← read 2 data place
    let (codeSize, place) ← read 4 data place
    let (signature, _) ← read 4 data place
    let headerSize := head / 2 ^ 12 * 4
    if headerSize < Body.fatHeaderSize then throw (.malformed (.shortHeader headerSize))
    else do
    let code ← part data headerSize (headerSize + codeSize)
    let instructions ← decodeCode resolver code
    let clauses ←
      if Section.hasFlag head Body.sectionsFlag then
        decodeClauses resolver data instructions codeSize (Section.alignUp (headerSize + codeSize))
      else pure []
    return ⟨UInt16.ofNat maxStack, ⟨UInt32.ofNat signature⟩, Section.hasFlag head Body.initLocalsFlag, instructions,
      clauses⟩

/-- Decodes a body. -/
def decode (resolver : Resolver) (data : List UInt8) : Watched State Body :=
  if data.isEmpty then throw .empty
  else do
    let (first, _) ← readByte data 0
    if first.toNat % 4 = 2 then decodeTiny resolver data (first.toNat / 4)
    else if first.toNat % 4 = 3 then decodeFat resolver data
    else throw (.malformed (.unknownHeader first))

theorem refines_decodeTiny (resolver : Resolver) (first : UInt8) (rest : List UInt8) :
    RefinesExcept State Eq (decodeTiny resolver (first :: rest) (first.toNat / 4))
      (Body.decodeTiny resolver (first.toNat / 4) rest) := by
  have small := first.toNat_lt
  unfold decodeTiny Body.decodeTiny
  by_cases short : rest.length < first.toNat / 4
  · rw [if_pos short, part_of_outside (.inr (by rw [List.length_cons]; omega))]
    exact refinesExcept_error _
  · rw [if_neg short, part_of_inside (by omega) (by rw [List.length_cons]; omega), pure_bind, List.drop_succ_cons,
      List.drop_zero, Nat.add_sub_cancel_left]
    have few : (rest.take (first.toNat / 4)).length < 256 ^ 4 := by
      rw [List.length_take]
      omega
    exact (refines_decodeCode resolver few).map fun _ _ same _ => by rw [same]

theorem refines_decodeClauses (resolver : Resolver) {data : List UInt8} (instructions : List Instruction)
    (codeSize : Nat) {size : Nat} (hasHeader : Body.fatHeaderSize ≤ size) (inside : size ≤ data.length) :
    RefinesExcept State Eq (decodeClauses resolver data instructions codeSize (Section.alignUp size))
      (Body.decodeClauses resolver instructions codeSize (data.drop (Section.alignUp size))) := by
  have atLeast := Section.le_alignUp size
  have atMost := Section.alignUp_le size
  unfold Body.fatHeaderSize at hasHeader
  refine (refines_readChain (Section.alignUp_mod size) (by omega) (by omega)).bind fun clauses expected same _ => ?_
  subst same
  exact refinesExcept_ofExcept _

theorem refines_decodeFat (resolver : Resolver) (data : List UInt8) :
    RefinesExcept State Eq (decodeFat resolver data) (Body.decodeFat resolver data) := by
  have header := Section.readWidths_drop data 0 [2, 2, 4, 4]
  rw [List.drop_zero] at header
  unfold decodeFat Body.decodeFat
  by_cases short : data.length < Body.fatHeaderSize
  · have incomplete : ¬ [2, 2, 4, 4].sum ≤ data.length - 0 := Nat.not_le.mpr short
    rw [if_neg incomplete] at header
    rw [if_pos short, header]
    exact refinesExcept_error _
  · have complete : [2, 2, 4, 4].sum ≤ data.length - 0 := Nat.not_lt.mp short
    have long : 12 ≤ data.length := complete
    rw [if_pos complete] at header
    rw [if_neg short, header, read_of_inside (by omega), pure_bind]
    simp only
    rw [read_of_inside (by omega), pure_bind]
    simp only
    rw [read_of_inside (by omega), pure_bind]
    simp only
    rw [read_of_inside (by omega), pure_bind]
    simp only [Section.fieldsAt]
    have sizeSmall := @Bytes.fieldAt_lt data (0 + 2 + 2) 4 (by omega)
    by_cases shortHeader : fieldAt data 0 2 / 2 ^ 12 * 4 < Body.fatHeaderSize
    · rw [if_pos shortHeader, if_pos shortHeader]
      exact refinesExcept_error _
    · rw [if_neg shortHeader, if_neg shortHeader]
      by_cases shortCode : data.length < fieldAt data 0 2 / 2 ^ 12 * 4 + fieldAt data (0 + 2 + 2) 4
      · rw [if_pos shortCode, part_of_outside (.inr shortCode)]
        exact refinesExcept_error _
      · rw [if_neg shortCode, part_of_inside (by omega) (by omega), pure_bind, Nat.add_sub_cancel_left]
        have few :
            ((data.drop (fieldAt data 0 2 / 2 ^ 12 * 4)).take (fieldAt data (0 + 2 + 2) 4)).length < 256 ^ 4 := by
          rw [List.length_take]
          omega
        refine (refines_decodeCode resolver few).bind fun instructions expected same _ => ?_
        subst same
        split
        · refine (refines_decodeClauses resolver instructions _ (by omega) (by omega)).bind
            fun clauses expected same _ => ?_
          exact refinesExcept_ok (by rw [same])
        · exact refinesExcept_ok rfl

/-- No bytes make decoding come to a fault. -/
theorem refines_decode (resolver : Resolver) (data : List UInt8) :
    RefinesExcept State Eq (decode resolver data) (Body.decode resolver data) := by
  unfold decode
  cases data with
  | nil => exact refinesExcept_error _
  | cons first rest =>
      have found : (first :: rest)[0]? = some first := rfl
      rw [List.isEmpty_cons, if_neg Bool.false_ne_true, readByte_of_inside found, pure_bind, Body.decode]
      simp only
      split
      · exact refines_decodeTiny resolver first rest
      · split
        · exact refines_decodeFat resolver _
        · exact refinesExcept_error _

end Watched

end CilRelink
