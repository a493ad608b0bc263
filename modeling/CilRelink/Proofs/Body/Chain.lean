import CilRelink.Proofs.Body.Stability

/-!
# Chains of sections

Behind the code of a body there are sections, and the flags of each tell whether another follows, at the next
multiple of four bytes. Some hold exception clauses and some do not. Decoding follows the chain only as long as the
sections hold clauses, so what it finds are the clauses of the sections in front of the first that holds none. The
clauses behind that one are lost.
-/

namespace CilRelink

open Bytes (fieldAt)

/-- The clause in small form at `offset`. -/
def ByteClause.smallAt (bytes : List UInt8) (offset : Nat) : ByteClause where
  flags := .ofNat (fieldAt bytes offset 2)
  tryOffset := fieldAt bytes (offset + 2) 2
  tryLength := fieldAt bytes (offset + 4) 1
  handlerOffset := fieldAt bytes (offset + 5) 2
  handlerLength := fieldAt bytes (offset + 7) 1
  extra := fieldAt bytes (offset + 8) 4

/-- The clause in fat form at `offset`. -/
def ByteClause.fatAt (bytes : List UInt8) (offset : Nat) : ByteClause where
  flags := .ofNat (fieldAt bytes offset 4)
  tryOffset := fieldAt bytes (offset + 4) 4
  tryLength := fieldAt bytes (offset + 8) 4
  handlerOffset := fieldAt bytes (offset + 12) 4
  handlerLength := fieldAt bytes (offset + 16) 4
  extra := fieldAt bytes (offset + 20) 4

/-- A section by itself: a head of four bytes, which tells its size, and what it holds. -/
structure DataSection where
  bytes : List UInt8
  hasHead : 4 ≤ bytes.length
  sized : fieldAt bytes 1 (if Section.hasFlag (fieldAt bytes 0 1) Section.fatFlag then 3 else 1) = bytes.length

namespace DataSection

variable (part : DataSection)

/-- The flags of the section. -/
def flags : Nat := fieldAt part.bytes 0 1

/-- Whether the section holds exception clauses. -/
def holdsClauses : Bool := Section.hasFlag part.flags Section.clauseFlag

/-- Whether the section and its clauses are in fat form. -/
def isFat : Bool := Section.hasFlag part.flags Section.fatFlag

/-- Whether another section follows. -/
def hasMore : Bool := Section.hasFlag part.flags Section.moreFlag

/-- The clauses that are complete in the section, if it holds clauses. -/
def clauses : List ByteClause :=
  if !part.holdsClauses then []
  else if part.isFat then
    (List.range ((part.bytes.length - 4) / 24)).map fun index => .fatAt part.bytes (4 + index * 24)
  else
    (List.range ((part.bytes.length - 4) / 12)).map fun index => .smallAt part.bytes (4 + index * 12)

/-- Whether sections follow one another in the data, the first at `place`, the others where the flags tell. -/
inductive Chain (data : List UInt8) : (place : Nat) → List DataSection → Prop where
  | last {place : Nat} {part : DataSection} (found : part.bytes <+: data.drop place) (ends : part.hasMore = false) :
      Chain data place [part]
  | link {place : Nat} {part : DataSection} {parts : List DataSection} (found : part.bytes <+: data.drop place)
      (goesOn : part.hasMore = true) (rest : Chain data (Section.alignUp (place + part.bytes.length)) parts) :
      Chain data place (part :: parts)

end DataSection

namespace Section

/-! ## Multiples of four -/

theorem le_alignUp (number : Nat) : number ≤ alignUp number := by
  unfold alignUp
  omega

theorem alignUp_le (number : Nat) : alignUp number ≤ number + 3 := by
  unfold alignUp
  omega

theorem alignUp_mod (number : Nat) : alignUp number % 4 = 0 := Nat.mul_mod_left _ _

theorem add_alignUp {place : Nat} (aligned : place % 4 = 0) (number : Nat) :
    place + alignUp number = alignUp (place + number) := by
  unfold alignUp
  omega

/-! ## Clauses by their places -/

/-- The numbers of the given widths, one behind the other from `offset` on. -/
def fieldsAt (bytes : List UInt8) : (offset : Nat) → (widths : List Nat) → List Nat
  | _, [] => []
  | offset, width :: widths => fieldAt bytes offset width :: fieldsAt bytes (offset + width) widths

theorem readWidths_drop (bytes : List UInt8) (offset : Nat) (widths : List Nat) :
    readWidths widths (bytes.drop offset) =
      if widths.sum ≤ bytes.length - offset then
        some (fieldsAt bytes offset widths, bytes.drop (offset + widths.sum))
      else none := by
  induction widths generalizing offset with
  | nil => simp [readWidths, fieldsAt]
  | cons width widths ih =>
      rw [readWidths, Bytes.read_drop, List.sum_cons]
      by_cases first : width ≤ bytes.length - offset
      · rw [if_pos first]
        simp only [ih]
        by_cases others : widths.sum ≤ bytes.length - (offset + width)
        · rw [if_pos others, if_pos (by omega), Nat.add_assoc]
          rfl
        · rw [if_neg others, if_neg (by omega), Option.map_none]
      · rw [if_neg first, if_neg (by omega)]

theorem readClauses_drop {widths : List Nat} {size : Nat} {clauseAt : Nat → ByteClause} {bytes : List UInt8}
    (sum : widths.sum = size)
    (parts : ∀ offset, ByteClause.ofParts? (fieldsAt bytes offset widths) = some (clauseAt offset)) {count : Nat}
    (offset : Nat) (enough : count * size ≤ bytes.length - offset) :
    readClauses widths count (bytes.drop offset) =
      some ((List.range count).map fun index => clauseAt (offset + index * size)) := by
  induction count generalizing offset with
  | zero => rfl
  | succ count ih =>
      rw [Nat.succ_mul] at enough
      rw [readClauses, readWidths_drop, sum, if_pos (by omega)]
      simp only [parts, ih (offset + size) (by omega), List.range_succ_eq_map, List.map_cons, List.map_map,
        Nat.zero_mul, Nat.add_zero]
      congr 2
      apply List.map_congr_left
      intro index _
      rw [Function.comp_apply, Nat.succ_mul, Nat.add_assoc, Nat.add_comm size]

theorem ofParts?_smallWidths (bytes : List UInt8) (offset : Nat) :
    ByteClause.ofParts? (fieldsAt bytes offset smallWidths) = some (.smallAt bytes offset) := rfl

theorem ofParts?_fatWidths (bytes : List UInt8) (offset : Nat) :
    ByteClause.ofParts? (fieldsAt bytes offset fatWidths) = some (.fatAt bytes offset) := rfl

theorem sum_smallWidths : smallWidths.sum = smallClauseSize := rfl

theorem sum_fatWidths : fatWidths.sum = fatClauseSize := rfl

theorem smallAt_append {bytes : List UInt8} {offset : Nat} (inside : offset + 12 ≤ bytes.length) (rest : List UInt8) :
    ByteClause.smallAt (bytes ++ rest) offset = .smallAt bytes offset := by
  simp (disch := omega) only [ByteClause.smallAt, Bytes.fieldAt_append]

theorem fatAt_append {bytes : List UInt8} {offset : Nat} (inside : offset + 24 ≤ bytes.length) (rest : List UInt8) :
    ByteClause.fatAt (bytes ++ rest) offset = .fatAt bytes offset := by
  simp (disch := omega) only [ByteClause.fatAt, Bytes.fieldAt_append]

/-! ## Sections by themselves -/

/-- A chain at a place before the end is read section by section. -/
theorem readChain_drop {data : List UInt8} {place : Nat} (inside : place < data.length) :
    readChain (data.drop place) =
      if !hasFlag data[place].toNat clauseFlag then .ok []
      else
        (match size? data[place].toNat (data.drop place) with
          | some size => .ok size
          | none => .error .outOfBounds) >>= fun size =>
        if size < 4 ∨ data.length < place + size then .error .outOfBounds
        else
          match clauses? data[place].toNat size (data.drop place) with
          | none => .error .outOfBounds
          | some clauses =>
            if hasFlag data[place].toNat moreFlag then
              (clauses ++ ·) <$> readChain (data.drop (place + alignUp size))
            else .ok clauses := by
  rw [List.drop_eq_getElem_cons inside, readChain]
  have left : (data.drop (place + 1)).length + 1 = data.length - place := by
    rw [List.length_drop]
    omega
  split
  · rfl
  · cases size? data[place].toNat (data[place] :: data.drop (place + 1)) with
    | none => rfl
    | some size =>
        have short : (size < 4 ∨ (data.drop (place + 1)).length + 1 < size) ↔
            size < 4 ∨ data.length < place + size := by
          rw [left]
          omega
        simp only [short]
        change _ = if size < 4 ∨ data.length < place + size then _ else _
        split
        · rfl
        · have further : (data.drop (place + 1)).drop (alignUp size - 1) = data.drop (place + alignUp size) := by
            have atLeast := le_alignUp size
            rw [List.drop_drop]
            congr 1
            omega
          exact further ▸ rfl

/-- The clauses of a section are found in it, whatever follows. -/
theorem readClauses_append {widths : List Nat} {size : Nat} {clauseAt : List UInt8 → Nat → ByteClause}
    (sum : widths.sum = size)
    (parts : ∀ bytes offset, ByteClause.ofParts? (fieldsAt bytes offset widths) = some (clauseAt bytes offset))
    (kept : ∀ {bytes offset}, offset + size ≤ bytes.length →
      ∀ rest, clauseAt (bytes ++ rest) offset = clauseAt bytes offset)
    {bytes : List UInt8} (hasHead : 4 ≤ bytes.length) (rest : List UInt8) :
    readClauses widths ((bytes.length - 4) / size) ((bytes ++ rest).drop 4) =
      some ((List.range ((bytes.length - 4) / size)).map fun index => clauseAt bytes (4 + index * size)) := by
  have inside := Nat.div_mul_le_self (bytes.length - 4) size
  rw [readClauses_drop sum (parts (bytes ++ rest)) 4 (by rw [List.length_append]; omega)]
  congr 1
  apply List.map_congr_left
  intro index indexMem
  have before := Nat.mul_le_mul_right size (Nat.succ_le_of_lt (List.mem_range.mp indexMem))
  rw [Nat.succ_mul] at before
  exact kept (by omega) rest

theorem size?_eq_fieldAt (flags : Nat) {bytes : List UInt8} (hasHead : 4 ≤ bytes.length) :
    size? flags bytes = some (fieldAt bytes 1 (if hasFlag flags fatFlag then 3 else 1)) := by
  rcases bytes with _ | ⟨first, _ | ⟨second, _ | ⟨third, _ | ⟨fourth, tail⟩⟩⟩⟩
  iterate 4 simp at hasHead
  have firstByte := first.toNat_lt
  unfold size?
  split
  · simp [fieldAt, Bytes.read, Bytes.decode]
    omega
  · simp [fieldAt, Bytes.read, Bytes.decode]

variable (part : DataSection) (rest : List UInt8)

theorem size?_append : size? part.flags (part.bytes ++ rest) = some part.bytes.length := by
  have hasHead := part.hasHead
  rw [size?_eq_fieldAt _ (by rw [List.length_append]; omega), ← part.sized, DataSection.flags]
  split
  · rw [Bytes.fieldAt_append (by omega)]
  · rw [Bytes.fieldAt_append (by omega)]

theorem clauses?_append (holds : part.holdsClauses = true) :
    clauses? part.flags part.bytes.length (part.bytes ++ rest) = some part.clauses := by
  rw [clauses?, DataSection.clauses, holds, Bool.not_true, if_neg Bool.false_ne_true, DataSection.isFat]
  split
  · exact readClauses_append sum_fatWidths ofParts?_fatWidths fatAt_append part.hasHead rest
  · exact readClauses_append sum_smallWidths ofParts?_smallWidths smallAt_append part.hasHead rest

/-- What reading finds where there is a section, and where it goes on. -/
theorem readChain_of_found {data : List UInt8} {place : Nat} (found : part.bytes <+: data.drop place)
    (aligned : place % 4 = 0) :
    readChain (data.drop place) =
      if !part.holdsClauses then .ok []
      else if part.hasMore then
        (part.clauses ++ ·) <$> readChain (data.drop (alignUp (place + part.bytes.length)))
      else .ok part.clauses := by
  have hasHead := part.hasHead
  rcases found with ⟨rest, whole⟩
  have length := congrArg List.length whole
  rw [List.length_append, List.length_drop] at length
  have inside : place < data.length := by omega
  have flags : data[place].toNat = part.flags := by
    rw [DataSection.flags, ← Bytes.fieldAt_append (by omega) rest, whole, fieldAt, List.drop_zero,
      List.drop_eq_getElem_cons inside, List.take_succ_cons, List.take_zero]
    rfl
  have enough : ¬ (part.bytes.length < 4 ∨ data.length < place + part.bytes.length) := by omega
  rw [readChain_drop inside, flags, ← add_alignUp aligned, DataSection.hasMore]
  cases holds : part.holdsClauses with
  | false =>
      rw [DataSection.holdsClauses] at holds
      rw [holds, Bool.not_false, if_pos rfl, if_pos rfl]
  | true =>
      have clauses := clauses?_append part rest holds
      rw [whole] at clauses
      have size := size?_append part rest
      rw [whole] at size
      rw [DataSection.holdsClauses] at holds
      rw [holds, Bool.not_true, if_neg Bool.false_ne_true, if_neg Bool.false_ne_true, size]
      change (if part.bytes.length < 4 ∨ data.length < place + part.bytes.length then _ else _) = _
      rw [if_neg enough, clauses]

/-- Reading a chain comes to an end at the first section that holds no clauses, and never fails. -/
theorem readChain_of_chain {data : List UInt8} {place : Nat} {parts : List DataSection}
    (chain : DataSection.Chain data place parts) (aligned : place % 4 = 0) :
    readChain (data.drop place) = .ok ((parts.takeWhile (·.holdsClauses)).flatMap (·.clauses)) := by
  induction chain with
  | last found ends =>
      rename_i place part
      rw [readChain_of_found part found aligned, ends]
      cases holds : part.holdsClauses <;> simp [holds]
  | link found goesOn _ ih =>
      rename_i place part parts _
      rw [readChain_of_found part found aligned, goesOn, ih (alignUp_mod _)]
      cases holds : part.holdsClauses with
      | false => simp [holds]
      | true => simp [holds]

end Section

namespace Body

/-- Whether the data is a body with a fat header that tells of sections, and behind the code there is this chain. -/
structure HasChain (data : List UInt8) (parts : List DataSection) : Prop where
  fat : fieldAt data 0 1 % 4 = 3
  more : Section.hasFlag (fieldAt data 0 2) sectionsFlag = true
  chain : DataSection.Chain data (Section.alignUp (fieldAt data 0 2 / 2 ^ 12 * 4 + fieldAt data 4 4)) parts

/-- Whether the handlers are the clauses, one by one and in order, with their regions as positions. -/
def Handles (resolver : Resolver) (instructions : List Instruction) (codeSize : Nat) :
    List ByteClause → List Clause → Prop :=
  List.Forall₂ fun clause handler => Section.resolveClause resolver instructions codeSize clause = .ok handler

theorem handles_of_hasChain {resolver : Resolver} {data : List UInt8} {body : Body} {parts : List DataSection}
    (chained : HasChain data parts) (decoded : decode resolver data = .ok body) :
    Handles resolver body.instructions (fieldAt data 4 4)
      ((parts.takeWhile (·.holdsClauses)).flatMap (·.clauses)) body.clauses := by
  have read := Section.readChain_of_chain chained.chain (Section.alignUp_mod _)
  have fatDecoded : decodeFat resolver data = .ok body := by
    have fat := chained.fat
    cases data with
    | nil => cases decoded
    | cons first rest =>
        have head : fieldAt (first :: rest) 0 1 = first.toNat := by simp [fieldAt, Bytes.decode]
        rw [head] at fat
        rwa [decode, if_neg (by omega), if_pos fat] at decoded
  have header := Section.readWidths_drop data 0 [2, 2, 4, 4]
  rw [List.drop_zero] at header
  by_cases complete : [2, 2, 4, 4].sum ≤ data.length - 0
  · rw [if_pos complete] at header
    rw [decodeFat, header] at fatDecoded
    simp only [Section.fieldsAt, Nat.zero_add] at fatDecoded
    split at fatDecoded
    · cases fatDecoded
    · split at fatDecoded
      · cases fatDecoded
      · rcases Fallible.bind_eq_ok_iff.mp fatDecoded with ⟨instructions, _, rest⟩
        rw [if_pos chained.more] at rest
        rcases Fallible.bind_eq_ok_iff.mp rest with ⟨clauses, resolved, made⟩
        cases made
        rw [decodeClauses, read] at resolved
        exact Fallible.mapM_eq_ok_iff.mp resolved
  · rw [if_neg complete] at header
    rw [decodeFat, header] at fatDecoded
    cases fatDecoded

/-- Decoding finds the clauses in front of the first section without clauses, each as one handler and in the order of
the chain. These are all clauses of the chain exactly if there is no clause behind that section. -/
theorem handlers_of_chain (resolver : Resolver) (data : List UInt8) (parts : List DataSection)
    (chained : HasChain data parts) (body : Body) (decoded : decode resolver data = .ok body) :
    Handles resolver body.instructions (fieldAt data 4 4)
        ((parts.takeWhile (·.holdsClauses)).flatMap (·.clauses)) body.clauses ∧
      (Handles resolver body.instructions (fieldAt data 4 4) (parts.flatMap (·.clauses)) body.clauses ↔
        ∀ part ∈ parts.dropWhile (·.holdsClauses), part.clauses = []) := by
  have front := handles_of_hasChain chained decoded
  have whole : parts.flatMap (·.clauses) = (parts.takeWhile (·.holdsClauses)).flatMap (·.clauses) ++
      (parts.dropWhile (·.holdsClauses)).flatMap (·.clauses) := by
    rw [← List.flatMap_append, List.takeWhile_append_dropWhile]
  refine ⟨front, ?_⟩
  rw [whole]
  constructor
  · intro all
    have counts := all.length_eq
    rw [List.length_append, front.length_eq] at counts
    have none : (parts.dropWhile (·.holdsClauses)).flatMap (·.clauses) = [] :=
      List.length_eq_zero_iff.mp (by omega)
    exact List.flatMap_eq_nil_iff.mp none
  · intro none
    rwa [List.flatMap_eq_nil_iff.mpr none, List.append_nil]

/-- The two sections of the body with a chain of both forms. -/
def chainedParts : List DataSection :=
  [⟨(chainedData.drop 28).take 16, by decide, by decide⟩, ⟨(chainedData.drop 44).take 28, by decide, by decide⟩]

theorem hasChain_chainedParts : HasChain chainedData chainedParts where
  fat := by decide
  more := by decide
  chain := .link (by decide) (by decide) (.last (by decide) (by decide))

theorem handlers_of_chain_chainedBody :
    HasChain chainedData chainedParts ∧ decode chainedScope.resolver chainedData = .ok chainedBody ∧
      Handles chainedScope.resolver chainedBody.instructions (fieldAt chainedData 4 4)
        (chainedParts.flatMap (·.clauses)) chainedBody.clauses := by
  have decoded : decode chainedScope.resolver chainedData = .ok chainedBody := by decide +kernel
  rcases handlers_of_chain chainedScope.resolver chainedData chainedParts hasChain_chainedParts chainedBody decoded with
    ⟨_, all⟩
  exact ⟨hasChain_chainedParts, decoded, all.mpr (by decide)⟩

/-- A body with three sections, of which the second holds no clauses. -/
def interruptedData : List UInt8 :=
  [0x1B, 0x30, 0x08, 0x00, 0x02, 0x00, 0x00, 0x00, 0x00, 0x00, 0x00, 0x00,
    0x00, 0x2A,
    0x00, 0x00,
    0x81, 0x10, 0x00, 0x00, 0x02, 0x00, 0x00, 0x00, 0x01, 0x01, 0x00, 0x01, 0x00, 0x00, 0x00, 0x00,
    0x82, 0x04, 0x00, 0x00,
    0x01, 0x10, 0x00, 0x00, 0x04, 0x00, 0x00, 0x00, 0x01, 0x01, 0x00, 0x01, 0x00, 0x00, 0x00, 0x00]

/-- The sections of the body. -/
def interruptedParts : List DataSection :=
  [⟨(interruptedData.drop 16).take 16, by decide, by decide⟩, ⟨(interruptedData.drop 32).take 4, by decide, by decide⟩,
    ⟨(interruptedData.drop 36).take 16, by decide, by decide⟩]

/-- The body that is decoded, with the clause of the first section. -/
def interruptedBody : Body where
  maxStack := 8
  localSignature := ⟨0⟩
  initLocals := true
  instructions := Code.placeFrom 0 [.unplaced .nop .none, .unplaced .ret .none]
  clauses := [⟨.finallyFlag, 0, 1, 1, 2, none, none⟩]

/-- The clause of the third section is lost, without an error. -/
theorem clause_lost_behind_other_section :
    HasChain interruptedData interruptedParts ∧
      decode Scope.empty.resolver interruptedData = .ok interruptedBody ∧
      (interruptedParts.map fun part => part.clauses.length) = [1, 0, 1] ∧ interruptedBody.clauses.length = 1 ∧
      ¬ Handles Scope.empty.resolver interruptedBody.instructions (fieldAt interruptedData 4 4)
          (interruptedParts.flatMap (·.clauses)) interruptedBody.clauses := by
  have chained : HasChain interruptedData interruptedParts :=
    ⟨by decide, by decide,
      .link (by decide) (by decide) (.link (by decide) (by decide) (.last (by decide) (by decide)))⟩
  refine ⟨chained, by decide +kernel, by decide, rfl, ?_⟩
  intro all
  have counts := all.length_eq
  revert counts
  decide

end Body

end CilRelink
