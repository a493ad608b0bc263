import CilRelink.Proofs.Code.Canonical

/-!
# Settled code

Code in which every instruction is at its place and every branch reaches its targets is left alone by layout, in one
pass. It can also be encoded, if only the emitter answers for each operand that is written as a token. Decoding gives
nothing but such code.
-/

namespace CilRelink

/-- Whether the emitter finds a token for an operand in each steady state, and leaves a steady state. -/
def Emitter.Serves {State : Type} (emitter : Emitter State) (steady : State → Prop) (operand : Operand) : Prop :=
  ∀ action ∈ emitter.token? operand, ∀ before, steady before →
    ∃ token after, action before = (.ok token, after) ∧ steady after

namespace Code

variable {code : List Instruction} {instruction : Instruction}

theorem Settled.reach (settled : Settled code) (instructionMem : instruction ∈ code) :
    ∀ target ∈ instruction.jumpPositions, target < code.length ∧
      instruction.CanReach ((size (code.take target) : Int) - (instruction.offset + instruction.size : Nat)) := by
  intro target targetMem
  rcases List.getElem?_of_mem instructionMem with ⟨position, found⟩
  rcases settled.reaches position instruction found target targetMem with ⟨destination, atTarget, reaches⟩
  refine ⟨(List.getElem?_eq_some_iff.mp atTarget).1, ?_⟩
  rw [← settled.placed target destination atTarget]
  exact reaches

theorem fitsWord_of_canReach {distance : Int} (reaches : instruction.CanReach distance) : fitsWord distance = true := by
  simp only [fitsWord, Bool.and_eq_true, decide_eq_true_eq]
  unfold Instruction.CanReach at reaches
  split at reaches <;> omega

theorem fitsByte_of_canReach (short : instruction.isShortBranch = true) {distance : Int}
    (reaches : instruction.CanReach distance) : fitsByte distance = true := by
  simp only [fitsByte, Bool.and_eq_true, decide_eq_true_eq]
  rwa [Instruction.CanReach, if_pos short] at reaches

/-! ## Layout -/

theorem widening?_of_reach (few : code.length < indexLimit)
    (reach : ∀ target ∈ instruction.jumpPositions, target < code.length ∧
      instruction.CanReach ((size (code.take target) : Int) - (instruction.offset + instruction.size : Nat)))
    (position : Nat) : widening? (offsetsFrom 0 code).toArray position instruction = .ok none := by
  have distance : ∀ target ∈ instruction.jumpPositions,
      displacement (offsetsFrom 0 code).toArray position (instruction.offset + instruction.size) target =
        .ok ((size (code.take target) : Int) - (instruction.offset + instruction.size : Nat)) := by
    intro target targetMem
    exact displacement_of_inside few (reach target targetMem).1 position _
  unfold widening?
  cases kind : instruction.opcode.operandKind with
  | shortBranch =>
      have short : instruction.isShortBranch = true := by simp [Instruction.isShortBranch, kind]
      have distances := Fallible.mapM_eq_ok_iff.mpr (List.forall₂_map_right_iff.mpr (List.forall₂_same.mpr distance))
      refine Fallible.bind_eq_ok_iff.mpr ⟨_, distances, if_pos ?_⟩
      rw [List.all_map, List.all_eq_true]
      intro target targetMem
      exact fitsByte_of_canReach short (reach target targetMem).2
  | branch | «switch» =>
      refine Fallible.bind_eq_ok_iff.mpr ⟨(), checked_eq_ok_iff.mpr ?_, rfl⟩
      intro target targetMem
      exact ⟨_, distance target targetMem, fitsWord_of_canReach (reach target targetMem).2⟩
  | _ => rfl

theorem widenFrom_of_fine {offsets : Array Nat} {part : List Instruction}
    (fine : ∀ instruction ∈ part, ∀ position, widening? offsets position instruction = .ok none) (position : Nat) :
    widenFrom offsets position part = (.ok 0, part) := by
  induction part generalizing position with
  | nil => rfl
  | cons instruction part ih =>
      rw [List.forall_mem_cons] at fine
      rw [widenFrom, fine.1 position, ih fine.2]

/-- Layout leaves settled code alone and is done after one pass. -/
theorem layout_of_settled (settled : Settled code) (small : size code < 2 ^ 32) :
    layout code = (.ok ⟨1, 0, size code⟩, code) := by
  have laidOut : offsets code = .ok (offsetsFrom 0 code) := offsets_eq_ok_iff.mpr ⟨small, rfl⟩
  have pass : widenFrom (offsetsFrom 0 code).toArray 0 (placeFrom 0 code) = (.ok 0, code) := by
    rw [settled.placed.placeFrom_eq]
    apply widenFrom_of_fine
    intro instruction instructionMem
    exact widening?_of_reach (length_lt_indexLimit small) (settled.reach instructionMem)
  rw [layout, layoutFrom]
  simp only [laidOut]
  split
  · rename_i failed
    rw [pass] at failed
    cases failed
  · rename_i last
    rw [pass] at last
    cases last
    rfl
  · rename_i again
    rw [pass] at again
    cases again

/-! ## Encoding -/

section Encoding

variable {State : Type} {emitter : Emitter State} {steady : State → Prop}

theorem exists_branchBytes {distance : Int} (reaches : instruction.CanReach distance) (position target : Nat) :
    ∃ bytes, branchBytes instruction position target distance = .ok bytes := by
  unfold branchBytes
  split
  · rename_i short
    rw [if_pos (fitsByte_of_canReach short reaches)]
    exact ⟨_, rfl⟩
  · rw [if_pos (fitsWord_of_canReach reaches)]
    exact ⟨_, rfl⟩

theorem exists_operandBytes (few : code.length < indexLimit) {start : Nat}
    (reach : ∀ target ∈ instruction.jumpPositions, target < code.length ∧
      instruction.CanReach ((size (code.take target) : Int) - (start + instruction.size : Nat)))
    (serves : emitter.Serves steady instruction.operand) (position : Nat) {before : State} (isSteady : steady before) :
    ∃ bytes after, operandBytes emitter (offsetsFrom 0 code).toArray position start instruction before =
      (.ok bytes, after) ∧ steady after := by
  cases asked : emitter.token? instruction.operand with
  | some action =>
      rcases serves action asked before isSteady with ⟨token, after, emitted, steadyAfter⟩
      refine ⟨token.bytes, after, ?_, steadyAfter⟩
      rw [operandBytes_of_token? asked]
      exact Emission.map_eq_ok_iff.mpr ⟨token, emitted, rfl⟩
  | none =>
      unfold operandBytes
      unfold Instruction.jumpPositions at reach
      cases operand : instruction.operand with
      | target target =>
          rw [operand] at reach
          simp only [Operand.positions, List.mem_singleton, forall_eq] at reach
          rcases exists_branchBytes reach.2 position target with ⟨bytes, made⟩
          have distance := displacement_of_inside few reach.1 position (start + instruction.size)
          refine ⟨bytes, before, Emission.ofExcept_eq_ok_iff.mpr ⟨?_, rfl⟩, isSteady⟩
          exact Fallible.bind_eq_ok_iff.mpr ⟨_, distance, made⟩
      | targets targets =>
          rw [operand] at reach
          have table := tableBytes_of_inside position few (fun target targetMem => (reach target targetMem).1)
            (fun target targetMem => fitsWord_of_canReach (reach target targetMem).2)
          exact ⟨_, before, Emission.ofExcept_eq_ok_iff.mpr ⟨Fallible.bind_eq_ok_iff.mpr ⟨_, table, rfl⟩, rfl⟩,
            isSteady⟩
      | none | immediate value | localVariable index | argument index => exact ⟨_, before, rfl, isSteady⟩
      | _ =>
          rw [operand] at asked
          cases asked

theorem exists_encodeFrom (few : code.length < indexLimit) {part : List Instruction} {start : Nat}
    (placed : placeFrom start part = part)
    (reach : ∀ instruction ∈ part, ∀ target ∈ instruction.jumpPositions, target < code.length ∧
      instruction.CanReach ((size (code.take target) : Int) - (instruction.offset + instruction.size : Nat)))
    (wellFormed : ∀ instruction ∈ part, instruction.isWellFormed = true)
    (serves : ∀ instruction ∈ part, emitter.Serves steady instruction.operand) (position : Nat) {before : State}
    (isSteady : steady before) :
    ∃ bytes after, encodeFrom emitter (offsetsFrom 0 code).toArray position start part before = (.ok bytes, after) ∧
      steady after := by
  induction part generalizing start position before with
  | nil => exact ⟨_, before, rfl, isSteady⟩
  | cons instruction part ih =>
      rw [List.forall_mem_cons] at reach wellFormed serves
      rw [placeFrom, List.cons.injEq] at placed
      have offset : instruction.offset = start := by rw [← placed.1]
      rw [offset] at reach
      rcases exists_operandBytes few reach.1 serves.1 position isSteady with ⟨operand, between, first, steadyBetween⟩
      rcases ih placed.2 reach.2 wellFormed.2 serves.2 (position + 1) steadyBetween with
        ⟨others, after, rest, steadyAfter⟩
      refine ⟨instruction.opcode.bytes ++ operand ++ others, after, ?_, steadyAfter⟩
      rw [encodeFrom, wellFormed.1, Bool.not_true, if_neg (by decide)]
      refine Emission.bind_eq_ok_iff.mpr ⟨_, between, first, ?_⟩
      exact Emission.bind_eq_ok_iff.mpr ⟨_, after, rest, rfl⟩

/-- Settled code can be encoded as soon as there are tokens for its operands. -/
theorem exists_encode_of_settled (settled : Settled code) (small : size code < 2 ^ 32)
    (wellFormed : ∀ instruction ∈ code, instruction.isWellFormed = true)
    (serves : ∀ instruction ∈ code, emitter.Serves steady instruction.operand) {before : State}
    (isSteady : steady before) :
    ∃ bytes after, encode emitter code before = (.ok bytes, after) ∧ steady after := by
  have laidOut : offsets code = .ok (offsetsFrom 0 code) := offsets_eq_ok_iff.mpr ⟨small, rfl⟩
  rcases exists_encodeFrom (length_lt_indexLimit small) settled.placed.placeFrom_eq
    (fun instruction instructionMem => settled.reach instructionMem) wellFormed serves 0 isSteady with
    ⟨bytes, after, made, steadyAfter⟩
  refine ⟨bytes, after, ?_, steadyAfter⟩
  exact Emission.bind_eq_ok_iff.mpr ⟨_, before, Emission.ofExcept_eq_ok_iff.mpr ⟨laidOut, rfl⟩, made⟩

theorem serves_of_standsFor {resolver : Resolver} {kind : OperandKind} {next : Nat} {raw : RawOperand}
    {operand : Operand} {bytes : List UInt8} (written : raw.IsWritten kind bytes)
    (standsFor : RawOperand.StandsFor resolver code next kind raw operand)
    (answers : ∀ token, resolveToken resolver kind token = .ok operand → emitter.Serves steady operand) :
    emitter.Serves steady operand := by
  cases standsFor with
  | plain operand =>
      intro action asked
      cases written <;> cases asked
  | token resolves => exact answers _ resolves
  | branch inside =>
      intro action asked
      cases asked
  | table inside =>
      intro action asked
      cases asked

/-- Decoded code names nothing but what the resolver found under some token. -/
theorem serves_of_decode {resolver : Resolver} {bytes : List UInt8} (decoded : decode resolver bytes = .ok code)
    (answers : ∀ kind token operand, resolveToken resolver kind token = .ok operand → emitter.Serves steady operand) :
    ∀ instruction ∈ code, emitter.Serves steady instruction.operand := by
  intro instruction instructionMem
  rcases exists_written_of_decode decoded instruction instructionMem with ⟨raw, operand, standsFor, written⟩
  exact serves_of_standsFor written standsFor.operand fun token => answers _ token _

end Encoding

end Code

end CilRelink
