import CilRelink.Proofs.Code.Misses
import CilRelink.Proofs.Watched.Encode

/-!
# Overflows as faults

Functions on lists tell that an index overflows by an error of its own, and so have an answer everywhere. A program
that adds to an index comes to a fault there. Trapping a run makes faults of these errors and leaves all else alone, and
it can be done step by step.

Whatever the targets of code are, watched encoding comes to just what encoding comes to when it is trapped, as long as
no jump table is met whose size is no number of four bytes. So the error stands for the fault, and a place that is
looked up is always there.
-/

namespace CilRelink

namespace Watched

variable {State α β : Type}

/-- What a run comes to, if overflows are faults. -/
def trapped : Except Error α × State → Except Fault (Except Error α × State)
  | (.error .positionOverflow, _) => .error .cutNumber
  | outcome => .ok outcome

/-- The run in which overflows are faults. -/
def trap (plain : Emission State α) : Watched State α := fun before => trapped (plain before)

/-- The result with which the run goes on, if overflows are faults. -/
def trapExcept (result : Except Error α) : Watched State α := trap (.ofExcept result)

theorem trapped_of_ne {outcome : Except Error α × State} (kept : outcome.1 ≠ .error .positionOverflow) :
    trapped outcome = .ok outcome := by
  unfold trapped
  split
  · exact absurd rfl kept
  · rfl

theorem trap_bind (first : Emission State α) (next : α → Emission State β) :
    trap (first >>= next) = trap first >>= fun value => trap (next value) := by
  funext before
  rw [bind_apply]
  unfold trap
  rw [Emission.bind_apply]
  rcases first before with ⟨error | value, between⟩
  · cases error <;> rfl
  · rfl

theorem of_eq_trap {plain : Emission State α} (kept : ∀ before, (plain before).1 ≠ .error .positionOverflow) :
    of plain = trap plain := by
  funext before
  exact (trapped_of_ne (kept before)).symm

theorem trapExcept_bind (first : Except Error α) (next : α → Except Error β) :
    (trapExcept (first >>= next) : Watched State β) = trapExcept first >>= fun value => trapExcept (next value) := by
  cases first with
  | error error => cases error <;> rfl
  | ok value => rfl

theorem trapExcept_bind_apply (result : Except Error α) (next : α → Watched State β) (before : State) :
    (trapExcept result >>= next) before =
      match result with
      | .ok value => next value before
      | .error error => trapped (.error error, before) := by
  rw [bind_apply]
  cases result with
  | error error => cases error <;> rfl
  | ok value => rfl

theorem RefinesExcept.eq_trapExcept {run : Watched State α} {result : Except Error α}
    (refines : RefinesExcept State Eq run result) (kept : result ≠ .error .positionOverflow) :
    run = trapExcept result :=
  (funext (refines_eq_iff.mp refines)).trans (of_eq_trap fun _ => kept)

theorem trapExcept_mapM {step : α → Watched State β} {plainStep : α → Except Error β} {list : List α}
    (each : ∀ member ∈ list, step member = trapExcept (plainStep member)) :
    list.mapM step = trapExcept (list.mapM plainStep) := by
  induction list with
  | nil => rfl
  | cons member list ih =>
      rw [List.forall_mem_cons] at each
      rw [List.mapM_cons, List.mapM_cons, trapExcept_bind, each.1]
      congr 1
      funext value
      rw [trapExcept_bind, ih each.2]
      rfl

theorem trapExcept_forM {step : α → Watched State Unit} {plainStep : α → Except Error Unit} {list : List α}
    (each : ∀ member ∈ list, step member = trapExcept (plainStep member)) :
    list.forM step = trapExcept (list.forM plainStep) := by
  induction list with
  | nil => rfl
  | cons member list ih =>
      rw [List.forall_mem_cons] at each
      change (step member >>= fun _ => list.forM step) = trapExcept (plainStep member >>= fun _ => list.forM plainStep)
      rw [trapExcept_bind, each.1, ih each.2]

/-! ## Operands -/

section Operands

variable {code : List Instruction} {instruction : Instruction} {position : Nat}

/-- The displacement to any target, be it inside or not. -/
theorem displacement_eq_trapExcept (few : code.length < Code.indexLimit) (here : position < code.length)
    (size target : Nat) :
    (displacement (Code.offsetsFrom 0 code) position size target : Watched State Int) =
      trapExcept (Code.displacement (Code.offsetsFrom 0 code).toArray position (Code.size (code.take position) + size)
        target) := by
  by_cases inside : target < code.length
  · refine (refines_displacement few here inside size).eq_trapExcept ?_
    rw [Code.displacement_of_inside few inside]
    simp
  · have outside : (Code.offsetsFrom 0 code).length ≤ target + 1 := by
      rw [Code.length_offsetsFrom]
      omega
    unfold displacement Code.displacement
    by_cases above : Code.indexLimit ≤ target + 1
    · rw [watch, if_neg (Nat.not_lt_of_le above), if_pos above]
      rfl
    · rw [watch_of (Nat.lt_of_not_le above), pure_bind, if_pos outside, if_neg above,
        dif_neg (by rw [List.size_toArray]; exact Nat.not_lt_of_le outside), subtract_of (by simp), pure_bind,
        List.size_toArray]
      rfl

theorem branchBytes_eq_trapExcept (instruction : Instruction) (position target : Nat) (distance : Int) :
    (branchBytes instruction position target distance : Watched State _) =
      trapExcept (Code.branchBytes instruction position target distance) := by
  refine (refines_branchBytes instruction position target distance).eq_trapExcept ?_
  unfold Code.branchBytes
  split <;> split <;> simp

theorem tableBytes_eq_trapExcept {distance : Nat → Watched State Int} {plainDistance : Nat → Except Error Int}
    (each : ∀ target, distance target = trapExcept (plainDistance target)) (targets : List Nat) :
    tableBytes distance targets = trapExcept (Code.tableBytes plainDistance targets) := by
  induction targets with
  | nil => rfl
  | cons target targets ih =>
      rw [tableBytes, Code.tableBytes, trapExcept_bind, each]
      congr 1
      funext wide
      cases fits : Code.fitsWord wide with
      | false => rfl
      | true =>
          rw [if_pos rfl, emitSigned_of_fitsWord fits, pure_bind, ih, Bool.not_true, if_neg Bool.false_ne_true,
            trapExcept_bind]
          rfl

/-- The bytes of an operand that fits, wherever it leads. The emitter must not tell of overflows itself. -/
theorem operandBytes_eq_trap {emitter : Emitter State} (honest : ¬ emitter.Refuses .positionOverflow)
    (few : code.length < Code.indexLimit) (here : code[position]? = some instruction)
    (wellFormed : instruction.isWellFormed = true) (small : instruction.size < 2 ^ 32) :
    operandBytes emitter (Code.offsetsFrom 0 code) position instruction.size instruction =
      trap (Code.operandBytes emitter (Code.offsetsFrom 0 code).toArray position (Code.size (code.take position))
        instruction) := by
  have inside := (List.getElem?_eq_some_iff.mp here).1
  have distance (target : Nat) :
      (displacement (Code.offsetsFrom 0 code) position instruction.size target : Watched State Int) = _ :=
    displacement_eq_trapExcept few inside instruction.size target
  have noEntry : 0 < tableLimit := by decide
  -- an operand that leads nowhere is refused by the emitter only
  have nowhere (still : instruction.jumpPositions = []) (noTable : instruction.operand.tableLength < tableLimit) :
      operandBytes emitter (Code.offsetsFrom 0 code) position instruction.size instruction =
        trap (Code.operandBytes emitter (Code.offsetsFrom 0 code).toArray position (Code.size (code.take position))
          instruction) := by
    have refines := refines_operandBytes emitter few inside wellFormed (by simp [still]) noTable
    refine (funext (refines_eq_iff.mp refines)).trans (of_eq_trap fun before overflows => honest ?_)
    exact Code.refuses_of_operandBytes few here wellFormed (by simp [still]) (Prod.ext overflows rfl)
  cases operand : instruction.operand with
  | target target =>
      unfold operandBytes Code.operandBytes
      simp only [operand]
      change _ = trapExcept _
      rw [trapExcept_bind, distance]
      congr 1
      funext wide
      exact branchBytes_eq_trapExcept instruction position target wide
  | targets targets =>
      have count : targets.length < 256 ^ 4 := by
        rw [Instruction.size, Instruction.operandSize, operand] at small
        have kinds := Operand.mem_kinds_of_fits wellFormed
        rw [operand] at kinds
        rw [List.mem_singleton.mp kinds] at small
        simp only [OperandKind.size?, Operand.tableLength] at small
        omega
      unfold operandBytes Code.operandBytes
      simp only [operand]
      change _ = trapExcept _
      rw [trapExcept_bind, emit_of count, pure_bind, tableBytes_eq_trapExcept distance]
      rfl
  | _ => exact nowhere (by rw [Instruction.jumpPositions, operand]; rfl) (by rw [operand]; exact noEntry)

theorem encodeFrom_eq_trap {emitter : Emitter State} (honest : ¬ emitter.Refuses .positionOverflow)
    (small : Code.size code < 2 ^ 32) {rest : List Instruction} (found : rest = code.drop position) :
    encodeFrom emitter (Code.offsetsFrom 0 code) position rest =
      trap (Code.encodeFrom emitter (Code.offsetsFrom 0 code).toArray position (Code.size (code.take position))
        rest) := by
  induction rest generalizing position with
  | nil => rfl
  | cons instruction rest ih =>
      rcases Code.of_cons_eq_drop found with ⟨here, others⟩
      have fits : instruction.size < 2 ^ 32 := Nat.lt_of_le_of_lt (Code.size_le_size here) small
      rw [encodeFrom, Code.encodeFrom, ← Code.size_take_succ here]
      cases wellFormed : instruction.isWellFormed with
      | false => rfl
      | true =>
          rw [Bool.not_true, if_neg Bool.false_ne_true, if_neg Bool.false_ne_true, sizeOf_of_small fits, pure_bind,
            trap_bind, operandBytes_eq_trap honest (Code.length_lt_indexLimit small) here wellFormed fits]
          congr 1
          funext operand
          rw [trap_bind, ih others]
          rfl

/-- Whatever the targets are, encoding overflows where the plain one tells so, and looks up no place that is not
there, as long as it meets no jump table that is too large. -/
theorem encodeCode_eq_trap {emitter : Emitter State} (honest : ¬ emitter.Refuses .positionOverflow)
    (kept : ¬ MeetsOversized 0 code) : encodeCode emitter code = trap (Code.encode emitter code) := by
  unfold encodeCode Code.encode
  rw [trap_bind]
  by_cases small : Code.size code < 2 ^ 32
  · have places : Code.offsets code = .ok (Code.offsetsFrom 0 code) := if_pos small
    rw [places, offsetsFrom_of_fits (by omega)]
    exact encodeFrom_eq_trap honest small List.drop_zero.symm
  · have failed : Code.offsets code = .error (.structural .codeTooLarge) := if_neg small
    rw [failed, offsetsFrom_of_large (by decide) kept (by omega)]
    rfl

theorem encodeCode_of_meetsOversized (emitter : Emitter State) (meets : MeetsOversized 0 code) :
    encodeCode emitter code = fault .cutNumber := by
  rw [encodeCode, offsetsFrom_of_meetsOversized meets]
  rfl

end Operands

end Watched

end CilRelink
