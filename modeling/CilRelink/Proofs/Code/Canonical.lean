import CilRelink.Proofs.Code.Layout
import CilRelink.Proofs.Code.RoundTrip

/-!
# Code has one form

Whatever code is decoded, encoding gives the same code again. Each way to cut an operand off the code is undone by one
way to write it, and the boundaries between the cut instructions are those that their sizes make. So a displacement
is known again from the position that was found for it, and nothing but the choice of tokens is left to the emitter.
-/

namespace CilRelink

/-- The action by which an emitter finds the token of an operand, if the operand is written as a token. -/
def Emitter.token? {State : Type} (emitter : Emitter State) : Operand → Option (Emission State Token)
  | .string value => some (emitter.string value)
  | .type reference => some (emitter.type reference)
  | .field reference => some (emitter.field reference)
  | .method reference => some (emitter.method reference)
  | .symbol reference => some (emitter.symbol reference)
  | .signature token => some (pure token)
  | _ => none

/-- Whether the emitter hands out a token for an operand in each steady state, and leaves a steady state. -/
def Emitter.HandsOut {State : Type} (emitter : Emitter State) (steady : State → Prop) (token : Token)
    (operand : Operand) : Prop :=
  ∀ action ∈ emitter.token? operand, ∀ before, steady before →
    ∃ after, action before = (.ok token, after) ∧ steady after

theorem Immediate.size?_kind (value : Immediate) : value.kind.size? = some value.bytes.length := by
  cases value <;> rfl

namespace Code

/-! ## What was cut -/

/-- Whether an operand of a kind is written as the given bytes, from which it was cut. -/
inductive RawOperand.IsWritten (kind : OperandKind) : RawOperand → List UInt8 → Prop where
  | none (isNone : kind = .none) : RawOperand.IsWritten kind (.plain .none) []
  | immediate {value : Immediate} (fits : (Operand.immediate value).fits kind = true) :
      RawOperand.IsWritten kind (.plain (.immediate value)) value.bytes
  | localVariable {index : UInt16} {width : Nat} (fixed : kind.size? = some width)
      (fits : (Operand.localVariable index).fits kind = true) :
      RawOperand.IsWritten kind (.plain (.localVariable index)) (Bytes.encode width index.toNat)
  | argument {index : UInt16} {width : Nat} (fixed : kind.size? = some width)
      (fits : (Operand.argument index).fits kind = true) :
      RawOperand.IsWritten kind (.plain (.argument index)) (Bytes.encode width index.toNat)
  | token (token : Token) (isToken : kind ∈ tokenKinds) : RawOperand.IsWritten kind (.token token) token.bytes
  | shortBranch {distance : Int} (short : kind = .shortBranch) (fits : fitsByte distance = true) :
      RawOperand.IsWritten kind (.displacement distance) (Bytes.encodeSigned 1 distance)
  | branch {distance : Int} (long : kind = .branch) (fits : fitsWord distance = true) :
      RawOperand.IsWritten kind (.displacement distance) (Bytes.encodeSigned 4 distance)
  | table {distances : List Int} (isSwitch : kind = .switch)
      (fits : ∀ distance ∈ distances, fitsWord distance = true) :
      RawOperand.IsWritten kind (.displacements distances)
        (Bytes.encode 4 distances.length ++ distances.flatMap (Bytes.encodeSigned 4))

/-- Whether cut instructions, the first of which begins at an offset, lie one behind the other in the code. -/
inductive ConsistOf : (start : Nat) → List RawInstruction → List UInt8 → Prop where
  | nil (start : Nat) : ConsistOf start [] []
  | cons {raw : RawInstruction} {raws : List RawInstruction} {operand rest : List UInt8}
      (next : raw.next = raw.offset + raw.opcode.size + operand.length)
      (written : raw.operand.IsWritten raw.opcode.operandKind operand) (others : ConsistOf raw.next raws rest) :
      ConsistOf raw.offset (raw :: raws) (raw.opcode.bytes ++ operand ++ rest)

theorem cutOpcode_eq_ok {offset : Nat} {code rest : List UInt8} {opcode : Opcode}
    (cut : cutOpcode offset code = .ok (opcode, rest)) : code = opcode.bytes ++ rest := by
  have known : ∀ {first second tail}, cutOpcode.found offset first second tail = .ok (opcode, rest) →
      Opcode.ofBytes? first second = some opcode ∧ tail = rest := by
    intro first second tail found
    unfold cutOpcode.found at found
    split at found
    · cases found
      exact ⟨by assumption, rfl⟩
    · cases found
  unfold cutOpcode at cut
  split at cut
  · cases cut
  · split at cut
    · rename_i escaped
      subst escaped
      split at cut
      · cases cut
      · rcases known cut with ⟨found, rfl⟩
        rw [Opcode.bytes_of_twoByte found]
        rfl
    · rename_i different
      rcases known cut with ⟨found, rfl⟩
      rw [Opcode.bytes_of_oneByte different found]
      rfl

theorem index_le_of_lt {number : Nat} (small : number < 256 ^ 1) : UInt16.ofNat number ≤ 255 := by
  rw [UInt16.le_iff_toNat_le, UInt16.toNat_ofNat']
  change number % 65536 ≤ 255
  omega

theorem RawOperand.IsWritten.of_immediate {kind : OperandKind} {value : Immediate} {bytes : List UInt8}
    (fits : (Operand.immediate value).fits kind = true) (made : value.bytes = bytes) :
    RawOperand.IsWritten kind (.plain (.immediate value)) bytes := by
  subst made
  exact .immediate fits

theorem RawOperand.IsWritten.of_token {kind : OperandKind} {number : Nat} (isToken : kind ∈ tokenKinds)
    (small : number < 2 ^ 32) :
    RawOperand.IsWritten kind (.token ⟨UInt32.ofNat number⟩) (Bytes.encode 4 number) := by
  have written := RawOperand.IsWritten.token ⟨UInt32.ofNat number⟩ isToken
  rwa [Token.bytes, UInt32.toNat_ofNat_of_lt' small] at written

/-- A number stands for an operand that is written as this number. -/
theorem isWritten_interpret {kind : OperandKind} {width number : Nat} (fixed : kind.size? = some width)
    (small : number < 256 ^ width) : (interpret kind number).IsWritten kind (Bytes.encode width number) := by
  cases kind with
  | none =>
      cases fixed
      exact .none rfl
  | int8 =>
      cases fixed
      refine .of_immediate rfl ?_
      simp only [Immediate.bytes, UInt8.toUInt8_toInt8, UInt8.toNat_ofNat_of_lt' small]
  | uint8 =>
      cases fixed
      refine .of_immediate rfl ?_
      simp only [Immediate.bytes, UInt8.toNat_ofNat_of_lt' small]
  | int32 =>
      cases fixed
      refine .of_immediate rfl ?_
      simp only [Immediate.bytes, UInt32.toUInt32_toInt32, UInt32.toNat_ofNat_of_lt' small]
  | int64 =>
      cases fixed
      refine .of_immediate rfl ?_
      simp only [Immediate.bytes, UInt64.toUInt64_toInt64, UInt64.toNat_ofNat_of_lt' small]
  | float32 =>
      cases fixed
      refine .of_immediate rfl ?_
      simp only [Immediate.bytes, UInt32.toNat_ofNat_of_lt' small]
  | float64 =>
      cases fixed
      refine .of_immediate rfl ?_
      simp only [Immediate.bytes, UInt64.toNat_ofNat_of_lt' small]
  | shortLocalVariable =>
      cases fixed
      have written : RawOperand.IsWritten .shortLocalVariable (.plain (.localVariable (UInt16.ofNat number))) _ :=
        .localVariable rfl (decide_eq_true (index_le_of_lt small))
      rwa [UInt16.toNat_ofNat_of_lt' (Nat.lt_trans small (by decide))] at written
  | localVariable =>
      cases fixed
      have written : RawOperand.IsWritten .localVariable (.plain (.localVariable (UInt16.ofNat number))) _ :=
        .localVariable rfl rfl
      rwa [UInt16.toNat_ofNat_of_lt' small] at written
  | shortArgument =>
      cases fixed
      have written : RawOperand.IsWritten .shortArgument (.plain (.argument (UInt16.ofNat number))) _ :=
        .argument rfl (decide_eq_true (index_le_of_lt small))
      rwa [UInt16.toNat_ofNat_of_lt' (Nat.lt_trans small (by decide))] at written
  | argument =>
      cases fixed
      have written : RawOperand.IsWritten .argument (.plain (.argument (UInt16.ofNat number))) _ := .argument rfl rfl
      rwa [UInt16.toNat_ofNat_of_lt' small] at written
  | shortBranch =>
      cases fixed
      have written : RawOperand.IsWritten .shortBranch _ _ := .shortBranch rfl (Bytes.fitsByte_signed number)
      rwa [Bytes.encodeSigned_eq, Bytes.twosComplement_signed small] at written
  | branch =>
      cases fixed
      have written : RawOperand.IsWritten .branch _ _ := .branch rfl (Bytes.fitsWord_signed number)
      rwa [Bytes.encodeSigned_eq, Bytes.twosComplement_signed small] at written
  | switch => cases fixed
  | field | method | type | string | symbol | signature =>
      cases fixed
      exact .of_token (by decide) small

theorem isWritten_table {kind : OperandKind} (isSwitch : kind = .switch) {numbers : List Nat}
    (small : ∀ number ∈ numbers, number < 256 ^ 4) :
    RawOperand.IsWritten kind (.displacements (numbers.map (signed 4)))
      (Bytes.encode 4 numbers.length ++ numbers.flatMap (Bytes.encode 4)) := by
  have fits : ∀ distance ∈ numbers.map (signed 4), fitsWord distance = true :=
    List.forall_mem_map.mpr fun number _ => Bytes.fitsWord_signed number
  have written := RawOperand.IsWritten.table isSwitch fits
  rwa [List.length_map, Bytes.flatMap_encodeSigned_signed small] at written

theorem cutOperand_eq_ok {offset size : Nat} {kind : OperandKind} {code rest : List UInt8} {operand : RawOperand}
    (cut : cutOperand offset kind code = .ok (operand, size, rest)) :
    ∃ bytes, code = bytes ++ rest ∧ bytes.length = size ∧ operand.IsWritten kind bytes := by
  unfold cutOperand at cut
  split at cut
  · rename_i fixed
    split at cut
    · cases cut
    · rename_i found
      cases cut
      rcases Bytes.eq_encode_of_read found with ⟨small, rfl⟩
      exact ⟨_, rfl, Bytes.length_encode _ _, isWritten_interpret fixed small⟩
  · rename_i unfixed
    have isSwitch : kind = .switch := by cases kind <;> first | rfl | cases unfixed
    split at cut
    · cases cut
    · rename_i first
      split at cut
      · cases cut
      · rename_i more
        cases cut
        rcases Bytes.eq_encode_of_read first with ⟨_, rfl⟩
        rcases Bytes.eq_flatMap_encode_of_readMany more with ⟨rfl, small, rfl⟩
        refine ⟨_, (List.append_assoc _ _ _).symm, ?_, isWritten_table isSwitch small⟩
        have rows := Bytes.length_of_readMany more
        rw [List.length_append] at rows ⊢
        rw [Bytes.length_encode]
        omega

theorem consistOf_of_cut {offset : Nat} {code : List UInt8} {raws : List RawInstruction}
    (cuts : cut offset code = .ok raws) : ConsistOf offset raws code := by
  fun_induction cut offset code generalizing raws with
  | case1 offset =>
      cases cuts
      exact .nil offset
  | case2 offset byte bytes error failed => cases cuts
  | case3 offset byte bytes raw rest step shorter ih =>
      rcases Fallible.map_eq_ok_iff.mp cuts with ⟨others, more, rfl⟩
      rcases Fallible.bind_eq_ok_iff.mp step with ⟨⟨opcode, afterOpcode⟩, first, further⟩
      rcases Fallible.bind_eq_ok_iff.mp further with ⟨⟨operand, size, afterOperand⟩, second, made⟩
      cases made
      rcases cutOperand_eq_ok second with ⟨operandBytes, rfl, rfl, written⟩
      rw [cutOpcode_eq_ok first, ← List.append_assoc]
      exact .cons rfl written (ih more)

/-! ## What it means -/

section Meaning

variable {State : Type} {resolver : Resolver}

theorem fits_of_resolveToken {kind : OperandKind} {token : Token} {operand : Operand} (isToken : kind ∈ tokenKinds)
    (resolves : resolveToken resolver kind token = .ok operand) :
    operand.fits kind = true ∧ kind.size? = some 4 ∧ operand.positions = [] := by
  simp only [tokenKinds, List.mem_cons, List.not_mem_nil, or_false] at isToken
  rcases isToken with rfl | rfl | rfl | rfl | rfl | rfl
  case inr.inr.inr.inr.inr =>
    cases resolves
    exact ⟨rfl, rfl, rfl⟩
  all_goals
    rcases Fallible.map_eq_ok_iff.mp resolves with ⟨named, _, rfl⟩
    exact ⟨rfl, rfl, rfl⟩

/-- An operand takes the bytes that it was cut from, and is of the kind that the opcode calls for. -/
theorem resolve_eq_ok_of_isWritten {places : Array (Option Nat)} {raw : RawInstruction} {instruction : Instruction}
    {bytes : List UInt8} (written : raw.operand.IsWritten raw.opcode.operandKind bytes)
    (resolves : resolve resolver places raw = .ok instruction) :
    instruction.offset = raw.offset ∧ instruction.opcode = raw.opcode ∧ instruction.isWellFormed = true ∧
      instruction.operandSize = bytes.length := by
  rcases raw with ⟨offset, next, opcode, cutOff⟩
  rcases Fallible.map_eq_ok_iff.mp resolves with ⟨operand, found, rfl⟩
  refine ⟨rfl, rfl, ?_⟩
  simp only [Instruction.isWellFormed]
  cases written with
  | none isNone =>
      cases found
      simp only [isNone]
      exact ⟨rfl, operandSize_of_fixed (by simp only [isNone]; rfl)⟩
  | immediate fits =>
      rename_i value
      cases found
      have kind : opcode.operandKind = value.kind := by simpa [Operand.kinds] using Operand.mem_kinds_of_fits fits
      exact ⟨fits, operandSize_of_fixed (by rw [kind, value.size?_kind])⟩
  | localVariable fixed fits =>
      cases found
      exact ⟨fits, by rw [operandSize_of_fixed fixed, Bytes.length_encode]⟩
  | argument fixed fits =>
      cases found
      exact ⟨fits, by rw [operandSize_of_fixed fixed, Bytes.length_encode]⟩
  | token token isToken =>
      rcases fits_of_resolveToken isToken found with ⟨fits, fixed, _⟩
      exact ⟨fits, by rw [operandSize_of_fixed fixed, Token.bytes, Bytes.length_encode]⟩
  | shortBranch short fits =>
      rcases Fallible.map_eq_ok_iff.mp found with ⟨position, _, rfl⟩
      simp only [short, Bytes.encodeSigned_eq, Bytes.length_encode]
      exact ⟨rfl, operandSize_of_fixed (by simp only [short]; rfl)⟩
  | branch long fits =>
      rcases Fallible.map_eq_ok_iff.mp found with ⟨position, _, rfl⟩
      simp only [long, Bytes.encodeSigned_eq, Bytes.length_encode]
      exact ⟨rfl, operandSize_of_fixed (by simp only [long]; rfl)⟩
  | table isSwitch fits =>
      rcases Fallible.map_eq_ok_iff.mp found with ⟨positions, each, rfl⟩
      have count := (Fallible.mapM_eq_ok_iff.mp each).length_eq
      simp only [isSwitch, Instruction.operandSize, OperandKind.size?, Operand.tableLength, List.length_append,
        Bytes.length_encode, Bytes.length_flatMap_encodeSigned, count]
      exact ⟨rfl, by omega⟩

/-- Decoded instructions lie where the code in front of them ends, and take as many bytes as they were cut from. -/
theorem placeFrom_of_consistOf {places : Array (Option Nat)} {start : Nat} {raws : List RawInstruction}
    {instructions : List Instruction} {bytes : List UInt8} (consist : ConsistOf start raws bytes)
    (resolved : List.Forall₂ (fun raw instruction => resolve resolver places raw = .ok instruction) raws
      instructions) :
    placeFrom start instructions = instructions ∧ size instructions = bytes.length ∧
      (∀ instruction ∈ instructions, instruction.isWellFormed = true) ∧
      List.Forall₂ (fun raw instruction => raw.next = raw.offset + instruction.size) raws instructions := by
  induction consist generalizing instructions with
  | nil start =>
      cases resolved
      exact ⟨rfl, rfl, by simp, .nil⟩
  | cons next written others ih =>
      rename_i raw raws operand rest
      rcases resolved with _ | ⟨first, resolved⟩
      rename_i instruction instructions
      rcases resolve_eq_ok_of_isWritten written first with ⟨offset, opcode, wellFormed, operandSize⟩
      rcases ih resolved with ⟨placed, length, othersWellFormed, widths⟩
      have width : raw.next = raw.offset + instruction.size := by
        rw [Instruction.size, opcode, operandSize, ← Nat.add_assoc, next]
      refine ⟨?_, ?_, List.forall_mem_cons.mpr ⟨wellFormed, othersWellFormed⟩, .cons width widths⟩
      · rw [placeFrom, ← width, placed, ← offset]
      · rw [size_cons, Instruction.size, length, opcode, operandSize]
        simp only [List.length_append, Opcode.length_bytes]

theorem exists_of_boundaries {instructions : List Instruction} {raws : List RawInstruction}
    (widths : List.Forall₂ (fun raw instruction => raw.next = raw.offset + instruction.size) raws instructions)
    {first place found : Nat} (begins : (boundaries first raws)[place]? = some (some found)) :
    ∃ position, found = first + position ∧ position < instructions.length ∧
      place = size (instructions.take position) := by
  induction widths generalizing first place with
  | nil => simp [boundaries] at begins
  | cons width widths ih =>
      rename_i raw instruction raws instructions
      cases place with
      | zero =>
          rw [boundaries, List.getElem?_cons_zero] at begins
          cases begins
          exact ⟨0, rfl, Nat.succ_pos _, rfl⟩
      | succ place =>
          have positive := instruction.size_pos
          have size : raw.next - raw.offset = instruction.size := by omega
          rw [boundaries, size, List.getElem?_cons_succ] at begins
          rcases Nat.lt_or_ge place (instruction.size - 1) with within | behind
          · rw [List.getElem?_append_left (by simpa using within), List.getElem?_replicate_of_lt within] at begins
            cases begins
          · rw [List.getElem?_append_right (by simpa using behind), List.length_replicate] at begins
            rcases ih begins with ⟨position, rfl, inside, same⟩
            refine ⟨position + 1, by omega, Nat.succ_lt_succ inside, ?_⟩
            rw [List.take_succ_cons, size_cons, ← same]
            omega

/-- A displacement that leads to a position is the one that would be written for it. -/
theorem eq_displacement_of_target {code : List Instruction} {raws : List RawInstruction}
    (widths : List.Forall₂ (fun raw instruction => raw.next = raw.offset + instruction.size) raws code)
    {raw : RawInstruction} {distance : Int} {position : Nat}
    (found : target (boundaries 0 raws).toArray raw distance = .ok position) :
    position < code.length ∧ distance = (size (code.take position) : Int) - raw.next := by
  simp only [target] at found
  split at found
  · rename_i place
    cases found
    split at place
    · rename_i nonneg
      rw [List.getElem?_toArray, Option.join_eq_some_iff] at place
      rcases exists_of_boundaries widths place with ⟨index, rfl, inside, same⟩
      rw [Nat.zero_add]
      exact ⟨inside, by omega⟩
    · cases place
  · cases found

theorem eq_displacements_of_targets {code : List Instruction} {raws : List RawInstruction}
    (widths : List.Forall₂ (fun raw instruction => raw.next = raw.offset + instruction.size) raws code)
    {raw : RawInstruction} {distances : List Int} {positions : List Nat}
    (found : distances.mapM (target (boundaries 0 raws).toArray raw) = .ok positions) :
    (∀ position ∈ positions, position < code.length) ∧
      distances = positions.map fun position => (size (code.take position) : Int) - raw.next := by
  have each := Fallible.mapM_eq_ok_iff.mp found
  induction each with
  | nil => simp
  | cons first rest ih =>
      rcases eq_displacement_of_target widths first with ⟨inside, rfl⟩
      rcases ih (Fallible.mapM_eq_ok_iff.mpr rest) with ⟨othersInside, rfl⟩
      exact ⟨List.forall_mem_cons.mpr ⟨inside, othersInside⟩, rfl⟩

theorem standsFor_of_resolveOperand {code : List Instruction} {raws : List RawInstruction}
    (widths : List.Forall₂ (fun raw instruction => raw.next = raw.offset + instruction.size) raws code)
    {raw : RawInstruction} {operand : Operand}
    (found : resolveOperand resolver (boundaries 0 raws).toArray raw = .ok operand) :
    RawOperand.StandsFor resolver code raw.next raw.opcode.operandKind raw.operand operand := by
  unfold resolveOperand at found
  split at found
  · rename_i plain shape
    cases found
    rw [shape]
    exact .plain _
  · rename_i token shape
    rw [shape]
    exact .token found
  · rename_i distance shape
    rcases Fallible.map_eq_ok_iff.mp found with ⟨position, leads, rfl⟩
    rcases eq_displacement_of_target widths leads with ⟨inside, rfl⟩
    rw [shape]
    exact .branch inside
  · rename_i distances shape
    rcases Fallible.map_eq_ok_iff.mp found with ⟨positions, each, rfl⟩
    rcases eq_displacements_of_targets widths each with ⟨inside, rfl⟩
    rw [shape]
    exact .table inside

/-- What was cut off stands for what it was decoded to. -/
theorem standsFor_of_resolve {code : List Instruction} {raws : List RawInstruction} {start : Nat} {bytes : List UInt8}
    (consist : ConsistOf start raws bytes)
    (resolved : List.Forall₂
      (fun raw instruction => resolve resolver (boundaries 0 raws).toArray raw = .ok instruction) raws code) :
    List.Forall₂ (RawInstruction.StandsFor resolver code) raws code := by
  rcases placeFrom_of_consistOf consist resolved with ⟨_, _, _, widths⟩
  refine List.Forall₂.mp ?_ widths resolved
  intro raw instruction width resolves
  rcases Fallible.map_eq_ok_iff.mp resolves with ⟨operand, found, rfl⟩
  exact ⟨rfl, width, rfl, standsFor_of_resolveOperand widths found⟩

/-- A branch that was cut off leads to an instruction, and over a distance that its bytes can tell. -/
theorem canReach_of_standsFor {code : List Instruction} {next : Nat} {instruction : Instruction} {raw : RawOperand}
    {bytes : List UInt8} (written : raw.IsWritten instruction.opcode.operandKind bytes)
    (standsFor : RawOperand.StandsFor resolver code next instruction.opcode.operandKind raw instruction.operand) :
    ∀ target ∈ instruction.jumpPositions, target < code.length ∧
      instruction.CanReach ((size (code.take target) : Int) - next) := by
  unfold Instruction.jumpPositions
  generalize instruction.operand = operand at standsFor
  cases standsFor with
  | plain operand => cases written <;> simp [Operand.positions]
  | token resolves =>
      cases written with
      | token token isToken =>
        rw [(fits_of_resolveToken isToken resolves).2.2]
        simp
  | branch inside =>
      simp only [Operand.positions, List.mem_singleton, forall_eq]
      refine ⟨inside, ?_⟩
      cases written with
      | shortBranch short fits => simpa [Instruction.CanReach, Instruction.isShortBranch, short, fitsByte] using fits
      | branch long fits => simpa [Instruction.CanReach, Instruction.isShortBranch, long, fitsWord] using fits
  | table inside =>
      cases written with
      | table isSwitch fits =>
          intro target targetMem
          have reaches := List.forall_mem_map.mp fits target targetMem
          refine ⟨inside target targetMem, ?_⟩
          simpa [Instruction.CanReach, Instruction.isShortBranch, isSwitch, fitsWord] using reaches

end Meaning

/-! ## How it is written -/

section Writing

variable {State : Type} {resolver : Resolver} {emitter : Emitter State} {steady : State → Prop}

theorem displacement_of_inside {code : List Instruction} {target : Nat} (small : code.length < indexLimit)
    (inside : target < code.length) (position next : Nat) :
    displacement (offsetsFrom 0 code).toArray position next target = .ok ((size (code.take target) : Int) - next) :=
  displacement_eq_ok_iff.mpr ⟨by omega, inside, rfl⟩

theorem tableBytes_of_inside {code : List Instruction} (position : Nat) {next : Nat} {targets : List Nat}
    (small : code.length < indexLimit) (inside : ∀ target ∈ targets, target < code.length)
    (fits : ∀ target ∈ targets, fitsWord ((size (code.take target) : Int) - next) = true) :
    tableBytes (displacement (offsetsFrom 0 code).toArray position next) targets =
      .ok ((targets.map fun target => (size (code.take target) : Int) - next).flatMap (Bytes.encodeSigned 4)) := by
  induction targets with
  | nil => rfl
  | cons target targets ih =>
      rw [List.forall_mem_cons] at inside fits
      refine Fallible.bind_eq_ok_iff.mpr ⟨_, displacement_of_inside small inside.1 position next, ?_⟩
      rw [fits.1]
      exact Fallible.bind_eq_ok_iff.mpr ⟨_, ih inside.2 fits.2, rfl⟩

theorem operandBytes_of_token? {action : Emission State Token} {instruction : Instruction}
    (asked : emitter.token? instruction.operand = some action) (offsets : Array Nat) (position start : Nat) :
    operandBytes emitter offsets position start instruction = Token.bytes <$> action := by
  unfold operandBytes
  generalize instruction.operand = operand at asked
  cases operand <;> cases asked <;> rfl

theorem exists_token?_of_resolveToken {kind : OperandKind} {token : Token} {operand : Operand}
    (isToken : kind ∈ tokenKinds) (resolves : resolveToken resolver kind token = .ok operand)
    (emitter : Emitter State) : ∃ action, emitter.token? operand = some action := by
  simp only [tokenKinds, List.mem_cons, List.not_mem_nil, or_false] at isToken
  rcases isToken with rfl | rfl | rfl | rfl | rfl | rfl
  case inr.inr.inr.inr.inr =>
    cases resolves
    exact ⟨_, rfl⟩
  all_goals
    rcases Fallible.map_eq_ok_iff.mp resolves with ⟨named, _, rfl⟩
    exact ⟨_, rfl⟩

theorem operandBytes_of_handsOut {kind : OperandKind} {token : Token} {instruction : Instruction}
    (offsets : Array Nat) (position start : Nat) (isToken : kind ∈ tokenKinds)
    (resolves : resolveToken resolver kind token = .ok instruction.operand)
    (handsOut : emitter.HandsOut steady token instruction.operand) {before : State} (isSteady : steady before) :
    ∃ after, operandBytes emitter offsets position start instruction before = (.ok token.bytes, after) ∧
      steady after := by
  rcases exists_token?_of_resolveToken isToken resolves emitter with ⟨action, asked⟩
  rcases handsOut action asked before isSteady with ⟨after, emitted, steadyAfter⟩
  refine ⟨after, ?_, steadyAfter⟩
  rw [operandBytes_of_token? asked]
  exact Emission.map_eq_ok_iff.mpr ⟨token, emitted, rfl⟩

theorem branchBytes_of_isWritten {instruction : Instruction} {distance : Int} {bytes : List UInt8}
    (position target : Nat)
    (written : RawOperand.IsWritten instruction.opcode.operandKind (.displacement distance) bytes) :
    branchBytes instruction position target distance = .ok bytes := by
  unfold branchBytes Instruction.isShortBranch
  cases written with
  | shortBranch short fits => simp only [short, decide_true, if_true, fits]
  | branch long fits => simp only [long, reduceCtorEq, decide_false, Bool.false_eq_true, if_false, fits, if_true]

theorem operandBytes_of_standsFor {code : List Instruction} {position start : Nat} {instruction : Instruction}
    {raw : RawOperand} {bytes : List UInt8} (small : code.length < indexLimit)
    (written : raw.IsWritten instruction.opcode.operandKind bytes)
    (standsFor : RawOperand.StandsFor resolver code (start + instruction.size) instruction.opcode.operandKind raw
      instruction.operand)
    (handsOut : ∀ token, raw = .token token → emitter.HandsOut steady token instruction.operand) {before : State}
    (isSteady : steady before) :
    ∃ after, operandBytes emitter (offsetsFrom 0 code).toArray position start instruction before =
      (.ok bytes, after) ∧ steady after := by
  unfold operandBytes
  generalize operand : instruction.operand = named at standsFor
  cases standsFor with
  | plain named =>
      cases written with
      | none isNone => exact ⟨before, rfl, isSteady⟩
      | immediate fits => exact ⟨before, rfl, isSteady⟩
      | localVariable fixed fits =>
          simp only [fixed, Option.getD_some]
          exact ⟨before, rfl, isSteady⟩
      | argument fixed fits =>
          simp only [fixed, Option.getD_some]
          exact ⟨before, rfl, isSteady⟩
  | token resolves =>
      rename_i token
      cases written with
      | token token isToken =>
          rw [← operand] at resolves
          have emits := operandBytes_of_handsOut (offsetsFrom 0 code).toArray position start isToken resolves
            (handsOut token rfl) isSteady
          simpa only [operandBytes, operand] using emits
  | branch inside =>
      rename_i target
      have distance := displacement_of_inside small inside position (start + instruction.size)
      have chosen := branchBytes_of_isWritten position target written
      refine ⟨before, Emission.ofExcept_eq_ok_iff.mpr ⟨?_, rfl⟩, isSteady⟩
      exact Fallible.bind_eq_ok_iff.mpr ⟨_, distance, chosen⟩
  | table inside =>
      rename_i targets
      cases written with
      | table isSwitch fits =>
          have table := tableBytes_of_inside position small inside (List.forall_mem_map.mp fits)
          rw [List.length_map]
          refine ⟨before, Emission.ofExcept_eq_ok_iff.mpr ⟨?_, rfl⟩, isSteady⟩
          exact Fallible.bind_eq_ok_iff.mpr ⟨_, table, rfl⟩

/-- What was cut off is what is written for the instructions that it stands for. -/
theorem encodeFrom_of_standsFor {code : List Instruction} {raws : List RawInstruction}
    {instructions : List Instruction} {start : Nat} {bytes : List UInt8} (small : code.length < indexLimit)
    (consist : ConsistOf start raws bytes)
    (related : List.Forall₂ (RawInstruction.StandsFor resolver code) raws instructions)
    (wellFormed : ∀ instruction ∈ instructions, instruction.isWellFormed = true)
    (handsOut : ∀ raw ∈ raws, ∀ token operand, raw.operand = .token token →
      resolveToken resolver raw.opcode.operandKind token = .ok operand → emitter.HandsOut steady token operand)
    (position : Nat) {before : State} (isSteady : steady before) :
    ∃ after, encodeFrom emitter (offsetsFrom 0 code).toArray position start instructions before =
      (.ok bytes, after) ∧ steady after := by
  induction consist generalizing instructions position before with
  | nil start =>
      cases related
      exact ⟨before, rfl, isSteady⟩
  | cons next written others ih =>
      rename_i raw raws operand rest
      rcases related with _ | ⟨first, related⟩
      rename_i instruction instructions
      rw [List.forall_mem_cons] at wellFormed handsOut
      have next : raw.next = raw.offset + instruction.size := by rw [first.next, first.offset]
      have standsFor := first.operand
      rw [next, first.opcode] at standsFor
      rw [first.opcode] at written
      have handsOutFirst : ∀ token, raw.operand = .token token →
          emitter.HandsOut steady token instruction.operand := by
        intro token shape
        rw [shape] at standsFor
        cases standsFor with
        | token resolves =>
            rw [← first.opcode] at resolves
            exact handsOut.1 token _ shape resolves
      rcases operandBytes_of_standsFor small written standsFor handsOutFirst isSteady with
        ⟨between, made, steadyBetween⟩
      rcases ih related wellFormed.2 handsOut.2 (position + 1) steadyBetween with ⟨after, more, steadyAfter⟩
      refine ⟨after, ?_, steadyAfter⟩
      rw [encodeFrom, wellFormed.1, Bool.not_true, if_neg (by decide), ← next]
      refine Emission.bind_eq_ok_iff.mpr ⟨_, between, made, ?_⟩
      refine Emission.bind_eq_ok_iff.mpr ⟨_, after, more, ?_⟩
      rw [first.opcode]
      rfl

end Writing

/-! ## Code -/

/-- The tokens in the code, each with the kind of operand that it is. -/
def tokens (code : List UInt8) : List (OperandKind × Token) :=
  match cut 0 code with
  | .error _ => []
  | .ok raws => raws.filterMap fun raw =>
    match raw.operand with
    | .token token => some (raw.opcode.operandKind, token)
    | _ => none

theorem mem_tokens {code : List UInt8} {raws : List RawInstruction} (cuts : cut 0 code = .ok raws)
    {raw : RawInstruction} (rawMem : raw ∈ raws) {token : Token} (shape : raw.operand = .token token) :
    (raw.opcode.operandKind, token) ∈ tokens code := by
  simp only [tokens, cuts]
  exact List.mem_filterMap.mpr ⟨raw, rawMem, by rw [shape]⟩

theorem exists_written {resolver : Resolver} {code instructions : List Instruction} {start : Nat}
    {raws : List RawInstruction} {bytes : List UInt8} (consist : ConsistOf start raws bytes)
    (related : List.Forall₂ (RawInstruction.StandsFor resolver code) raws instructions) :
    ∀ instruction ∈ instructions, ∃ raw operand, RawInstruction.StandsFor resolver code raw instruction ∧
      raw.operand.IsWritten raw.opcode.operandKind operand := by
  induction consist generalizing instructions with
  | nil start =>
      cases related
      simp
  | cons next written others ih =>
      rcases related with _ | ⟨first, related⟩
      exact List.forall_mem_cons.mpr ⟨⟨_, _, first, written⟩, ih related⟩

theorem decode_eq_ok {resolver : Resolver} {code : List UInt8} {instructions : List Instruction}
    (decoded : decode resolver code = .ok instructions) :
    ∃ raws, cut 0 code = .ok raws ∧ ConsistOf 0 raws code ∧
      List.Forall₂ (fun raw instruction => resolve resolver (boundaries 0 raws).toArray raw = .ok instruction) raws
        instructions := by
  rcases Fallible.bind_eq_ok_iff.mp decoded with ⟨raws, cuts, each⟩
  exact ⟨raws, cuts, consistOf_of_cut cuts, Fallible.mapM_eq_ok_iff.mp each⟩

theorem exists_written_of_decode {resolver : Resolver} {code : List UInt8} {instructions : List Instruction}
    (decoded : decode resolver code = .ok instructions) :
    ∀ instruction ∈ instructions, ∃ raw operand, RawInstruction.StandsFor resolver instructions raw instruction ∧
      raw.operand.IsWritten raw.opcode.operandKind operand := by
  rcases decode_eq_ok decoded with ⟨raws, _, consist, resolved⟩
  exact exists_written consist (standsFor_of_resolve consist resolved)

theorem reaches_of_decode {resolver : Resolver} {code : List UInt8} {instructions : List Instruction}
    (decoded : decode resolver code = .ok instructions) :
    ∀ instruction ∈ instructions, ∀ target ∈ instruction.jumpPositions, target < instructions.length ∧
      instruction.CanReach
        ((size (instructions.take target) : Int) - (instruction.offset + instruction.size : Nat)) := by
  intro instruction instructionMem
  rcases exists_written_of_decode decoded instruction instructionMem with ⟨raw, operand, standsFor, written⟩
  have operandStandsFor := standsFor.operand
  rw [standsFor.opcode] at written operandStandsFor
  rw [← standsFor.next]
  exact canReach_of_standsFor written operandStandsFor

/-- Decoded code needs no layout. -/
theorem settled_of_decode {resolver : Resolver} {code : List UInt8} {instructions : List Instruction}
    (decoded : decode resolver code = .ok instructions) :
    Settled instructions ∧ size instructions = code.length ∧
      ∀ instruction ∈ instructions, instruction.isWellFormed = true := by
  rcases decode_eq_ok decoded with ⟨raws, _, consist, resolved⟩
  rcases placeFrom_of_consistOf consist resolved with ⟨placed, length, wellFormed, _⟩
  have isPlaced : IsPlaced instructions := placed ▸ isPlaced_placeFrom instructions
  refine ⟨⟨isPlaced, ?_⟩, length, wellFormed⟩
  intro position instruction found target targetMem
  rcases reaches_of_decode decoded instruction (List.mem_of_getElem? found) target targetMem with ⟨inside, reaches⟩
  have destination := List.getElem?_eq_getElem inside
  refine ⟨_, destination, ?_⟩
  rw [isPlaced target _ destination]
  exact reaches

/-- Only what encoding makes is decoded: decoding tells instructions whose encoding is the code that was decoded, for
each emitter that hands out the tokens which stand in the code. -/
theorem encode_decode (resolver : Resolver) (code : List UInt8) (short : code.length < 2 ^ 32)
    (instructions : List Instruction) (decoded : decode resolver code = .ok instructions) :
    (∀ instruction ∈ instructions, instruction.isWellFormed = true) ∧
      (∃ places : List Nat, offsets instructions = .ok places ∧ places[instructions.length]? = some code.length ∧
        ∀ (position : Nat) (instruction : Instruction), instructions[position]? = some instruction →
          places[position]? = some instruction.offset) ∧
      TargetsInside instructions.length instructions ∧
      ∀ (State : Type) (emitter : Emitter State) (steady : State → Prop),
        (∀ entry ∈ tokens code, ∀ operand, resolveToken resolver entry.1 entry.2 = .ok operand →
          emitter.HandsOut steady entry.2 operand) →
        ∀ before, steady before → ∃ after, encode emitter instructions before = (.ok code, after) ∧ steady after := by
  rcases decode_eq_ok decoded with ⟨raws, cuts, consist, resolved⟩
  rcases settled_of_decode decoded with ⟨settled, length, wellFormed⟩
  have related := standsFor_of_resolve consist resolved
  have small : size instructions < 2 ^ 32 := by rw [length]; exact short
  have laidOut : offsets instructions = .ok (offsetsFrom 0 instructions) := offsets_eq_ok_iff.mpr ⟨small, rfl⟩
  refine ⟨wellFormed, ⟨_, laidOut, ?_, ?_⟩, ?_, ?_⟩
  · rw [getElem?_offsetsFrom 0 (Nat.le_refl _), List.take_length, Nat.zero_add, length]
  · intro position instruction found
    have inside := (List.getElem?_eq_some_iff.mp found).1
    rw [getElem?_offsetsFrom 0 (Nat.le_of_lt inside), settled.placed position instruction found, Nat.zero_add]
  · intro instruction instructionMem target targetMem
    exact (reaches_of_decode decoded instruction instructionMem target targetMem).1
  · intro State emitter steady handsOut before isSteady
    rcases encodeFrom_of_standsFor (length_lt_indexLimit small) consist related wellFormed
      (fun raw rawMem token operand shape => handsOut _ (mem_tokens cuts rawMem shape) operand) 0 isSteady with
      ⟨after, made, steadyAfter⟩
    refine ⟨after, ?_, steadyAfter⟩
    exact Emission.bind_eq_ok_iff.mpr ⟨_, before, Emission.ofExcept_eq_ok_iff.mpr ⟨laidOut, rfl⟩, made⟩

/-- Code with a string, a number that is not one, a jump table, a branch back over it and an opcode of two bytes. -/
def tableCode : List UInt8 :=
  [0x72, 0x01, 0x00, 0x00, 0x70,
    0x22, 0x01, 0x00, 0x80, 0x7F,
    0x45, 0x02, 0x00, 0x00, 0x00, 0xE9, 0xFF, 0xFF, 0xFF, 0x00, 0x00, 0x00, 0x00,
    0x2B, 0xF1,
    0xFE, 0x01,
    0x2A]

/-- The scope in which the string of the code has a token. -/
def tableScope : Scope := Scope.empty.defineString ⟨0x70000001⟩ "hall"

/-- The instructions of the code. -/
def tableInstructions : List Instruction :=
  placeFrom 0
    [.unplaced .ldstr (.string "hall"),
      .unplaced .ldcR4 (.immediate (.float32 0x7F800001)),
      .unplaced .switch (.targets [0, 3]),
      .unplaced .brS (.target 2),
      .unplaced .ceq .none,
      .unplaced .ret .none]

theorem encode_decode_tableCode :
    tableCode.length < 2 ^ 32 ∧ tokens tableCode = [(.string, ⟨0x70000001⟩)] ∧
      decode tableScope.resolver tableCode = .ok tableInstructions ∧
      TargetsInside 6 tableInstructions ∧
      encode Scope.emitter tableInstructions tableScope = (.ok tableCode, tableScope) := by
  have short : tableCode.length < 2 ^ 32 := by decide
  have cuts : cut 0 tableCode = .ok
      [⟨0, 5, .ldstr, .token ⟨0x70000001⟩⟩,
        ⟨5, 10, .ldcR4, .plain (.immediate (.float32 0x7F800001))⟩,
        ⟨10, 23, .switch, .displacements [-23, 0]⟩,
        ⟨23, 25, .brS, .displacement (-15)⟩,
        ⟨25, 27, .ceq, .plain .none⟩,
        ⟨27, 28, .ret, .plain .none⟩] := by
    decide +kernel
  have named : tokens tableCode = [(.string, ⟨0x70000001⟩)] := by
    rw [tokens, cuts]
    rfl
  have decoded : decode tableScope.resolver tableCode = .ok tableInstructions :=
    Fallible.bind_eq_ok_iff.mpr ⟨_, cuts, by decide +kernel⟩
  have handsOut : ∀ entry ∈ tokens tableCode, ∀ operand,
      resolveToken tableScope.resolver entry.1 entry.2 = .ok operand →
        Scope.emitter.HandsOut (· = tableScope) entry.2 operand := by
    rw [named]
    intro entry entryMem operand resolves
    rw [List.mem_singleton.mp entryMem] at resolves ⊢
    have resolved : resolveToken tableScope.resolver .string ⟨0x70000001⟩ = .ok (.string "hall") := by decide +kernel
    rw [resolved] at resolves
    cases resolves
    rintro action ⟨⟩ before rfl
    exact ⟨tableScope, rfl, rfl⟩
  rcases encode_decode tableScope.resolver tableCode short _ decoded with ⟨_, _, inside, encodes⟩
  rcases encodes Scope Scope.emitter (· = tableScope) handsOut tableScope rfl with ⟨_, encoded, rfl⟩
  exact ⟨short, named, decoded, inside, encoded⟩

end Code

end CilRelink
