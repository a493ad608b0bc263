import CilRelink.Proofs.Code.Canonical
import CilRelink.Proofs.Code.Layout

/-!
# Missed targets

Layout and encoding look at the targets of one instruction after the other, and stop at the first that they miss:
one that is outside, or one that the branch does not reach. What they come to then depends on that target alone. A
target is compared with the number of instructions by way of the position after it, and if no index tells that
position, the comparison overflows; any other target that is missed is told as a defect.
-/

namespace CilRelink

namespace Instruction

/-- Whether layout looks at the targets of the instruction. -/
def leads (instruction : Instruction) : Bool :=
  match instruction.opcode.operandKind with
  | .shortBranch | .branch | .switch => true
  | _ => false

theorem leads_of_isWellFormed {instruction : Instruction} (wellFormed : instruction.isWellFormed = true) {target : Nat}
    (targetMem : target ∈ instruction.jumpPositions) : instruction.leads = true := by
  have kinds := Operand.mem_kinds_of_fits wellFormed
  rw [jumpPositions] at targetMem
  unfold leads
  cases operand : instruction.operand with
  | target | targets =>
      rw [operand] at kinds
      generalize instruction.opcode.operandKind = kind at kinds
      cases kind <;> simp [Operand.kinds] at kinds ⊢
  | _ =>
      rw [operand] at targetMem
      cases targetMem

theorem Relaid.leads {before after : Instruction} (relaid : before.Relaid after) : after.leads = before.leads := by
  unfold Instruction.leads
  rcases relaid.opcode with same | widened
  · rw [same]
  · rw [(Opcode.isSome_widened?_iff before.opcode).mp (by simp [widened]), Code.operandKind_of_widened? widened]

end Instruction

/-- Whether the emitter fails with an error for some operand in some state. -/
def Emitter.Refuses {State : Type} (emitter : Emitter State) (error : Error) : Prop :=
  ∃ operand, ∃ action ∈ emitter.token? operand, ∃ before after, action before = (.error error, after)

namespace Code

/-- Whether an operand that fits leads to a position that is not one of `count`. -/
def LeadsOutside (count : Nat) (instructions : List Instruction) : Prop :=
  ∃ branch ∈ instructions, branch.isWellFormed = true ∧ ∃ target ∈ branch.jumpPositions, count ≤ target

/-- The first target that is missed, instruction by instruction; none if the way to it ends at an instruction before. -/
def firstMiss? (ends : Instruction → Bool) (misses : Nat → Instruction → Nat → Bool) :
    (position : Nat) → List Instruction → Option Nat
  | _, [] => none
  | position, instruction :: instructions =>
    if ends instruction then none
    else (instruction.jumpPositions.find? (misses position instruction)).or
      (firstMiss? ends misses (position + 1) instructions)

/-- How far a target is from the end of the instruction at `position`. -/
def distance (code : List Instruction) (position target : Nat) : Int :=
  (size (code.take target) : Int) - size (code.take (position + 1))

/-- Whether layout misses a target. A short branch that does not reach is widened. -/
def layoutMisses (code : List Instruction) (position : Nat) (instruction : Instruction) (target : Nat) : Bool :=
  instruction.leads &&
    (code.length ≤ target || !instruction.isShortBranch && !fitsWord (distance code position target))

/-- Whether a displacement fits the bytes that a branch or a jump table has for it. -/
def fitsOperand (instruction : Instruction) : Int → Bool := if instruction.isShortBranch then fitsByte else fitsWord

/-- Whether encoding misses a target. -/
def encodeMisses (code : List Instruction) (position : Nat) (instruction : Instruction) (target : Nat) : Bool :=
  code.length ≤ target || !fitsOperand instruction (distance code position target)

/-- The first target that layout misses; it looks at none if the code is too large. -/
def layoutMiss? (code : List Instruction) : Option Nat :=
  if size code < 2 ^ 32 then firstMiss? (fun _ => false) (layoutMisses code) 0 code else none

/-- The first target that encoding misses, if the code is not too large and every operand up to there fits. -/
def encodeMiss? (code : List Instruction) : Option Nat :=
  if size code < 2 ^ 32 then firstMiss? (!·.isWellFormed) (encodeMisses code) 0 code else none

/-- Whether the position after the target that is missed is no index. -/
def Overflows (miss : Option Nat) : Prop := ∃ target ∈ miss, indexLimit ≤ target + 1

/-- Whether an error is what layout or encoding answers: an overflow if the target that it misses makes the comparison
overflow, and a defect otherwise. -/
def Answers (miss : Option Nat) (error : Error) : Prop :=
  Overflows miss ∧ error = .positionOverflow ∨ ¬ Overflows miss ∧ ∃ defect, error = .structural defect

theorem not_overflows_none : ¬ Overflows none := by
  rintro ⟨_, impossible, _⟩
  cases impossible

theorem answers_none (defect : Defect) : Answers none (.structural defect) :=
  .inr ⟨not_overflows_none, defect, rfl⟩

theorem Answers.eq_positionOverflow_iff {miss : Option Nat} {error : Error} (answers : Answers miss error) :
    error = .positionOverflow ↔ Overflows miss := by
  rcases answers with ⟨overflows, same⟩ | ⟨inBounds, defect, same⟩
  · exact iff_of_true same overflows
  · exact iff_of_false (by rw [same]; exact Error.noConfusion) inBounds

theorem answers_some_structural {target : Nat} (below : ¬ indexLimit ≤ target + 1) (defect : Defect) :
    Answers (some target) (.structural defect) := by
  refine .inr ⟨?_, defect, rfl⟩
  rintro ⟨_, same, above⟩
  cases same
  exact below above

/-! ## One target -/

section Targets

variable {code : List Instruction} {position target : Nat}

theorem displacement_of_outside (outside : code.length ≤ target) (position next : Nat) :
    ∃ error, displacement (offsetsFrom 0 code).toArray position next target = .error error ∧
      Answers (some target) error := by
  unfold displacement
  split
  · rename_i above
    exact ⟨_, rfl, .inl ⟨⟨target, rfl, above⟩, rfl⟩⟩
  · rename_i below
    rw [dif_neg (by rw [List.size_toArray, length_offsetsFrom]; omega)]
    exact ⟨_, rfl, answers_some_structural below _⟩

/-- A check of the distance that an instruction can go fails for what is missed. -/
theorem bind_displacement_of_missed {β : Type} (few : code.length < indexLimit) {fits : Int → Bool}
    (check : Int → Except Error β)
    (refuses : ∀ wide, fits wide = false → ∃ defect, check wide = .error (.structural defect))
    (missed : (decide (code.length ≤ target) || !fits (distance code position target)) = true) :
    ∃ error,
      displacement (offsetsFrom 0 code).toArray position (size (code.take (position + 1))) target >>= check =
        .error error ∧ Answers (some target) error := by
  by_cases outside : code.length ≤ target
  · rcases displacement_of_outside outside position (size (code.take (position + 1))) with ⟨error, failed, answers⟩
    exact ⟨error, Fallible.bind_eq_error_iff.mpr (.inl failed), answers⟩
  · have inside := displacement_of_inside few (Nat.lt_of_not_le outside) position (size (code.take (position + 1)))
    have far : fits (distance code position target) = false := by simpa [outside] using missed
    rcases refuses _ far with ⟨defect, refused⟩
    exact ⟨_, Fallible.bind_eq_error_iff.mpr (.inr ⟨_, inside, refused⟩),
      answers_some_structural (by omega) defect⟩

theorem bind_displacement_of_reached {β : Type} (few : code.length < indexLimit) {fits : Int → Bool}
    (check : Int → Except Error β) (accepts : ∀ wide, fits wide = true → ∃ result, check wide = .ok result)
    (reached : (decide (code.length ≤ target) || !fits (distance code position target)) = false) :
    ∃ result,
      displacement (offsetsFrom 0 code).toArray position (size (code.take (position + 1))) target >>= check =
        .ok result := by
  rw [Bool.or_eq_false_iff, decide_eq_false_iff_not, Bool.not_eq_false'] at reached
  have inside := displacement_of_inside few (Nat.lt_of_not_le reached.1) position (size (code.take (position + 1)))
  rcases accepts _ reached.2 with ⟨result, accepted⟩
  exact ⟨result, Fallible.bind_eq_ok_iff.mpr ⟨_, inside, accepted⟩⟩

end Targets

/-! ## One instruction -/

section Instructions

variable {code rest : List Instruction} {instruction : Instruction} {position target : Nat}

/-- The check that layout makes of a long branch or of an entry of a jump table. -/
def checkWide (position : Nat) (wide : Int) : Except Error Unit := do
  if !fitsWord wide then throw (.structural (.displacementTooWide position wide))

/-- What layout does for an instruction that begins at `start`. -/
theorem widening?_eq (offsets : Array Nat) (position start : Nat) (instruction : Instruction) :
    widening? offsets position { instruction with offset := start } =
      match instruction.opcode.operandKind with
      | .shortBranch =>
        instruction.jumpPositions.mapM (displacement offsets position (start + instruction.size)) >>= fun distances =>
          .ok (if distances.all fitsByte then none else instruction.opcode.widened?)
      | .branch | .switch =>
        (instruction.jumpPositions.forM fun target =>
          displacement offsets position (start + instruction.size) target >>= checkWide position) >>= fun _ => .ok none
      | _ => .ok none := by
  unfold widening?
  cases kind : instruction.opcode.operandKind with
  | shortBranch =>
      simp only
      congr 1
      funext distances
      rcases Option.isSome_iff_exists.mp ((Opcode.isSome_widened?_iff _).mpr kind) with ⟨wide, pair⟩
      cases distances.all fitsByte with
      | true => rfl
      | false =>
          simp only [pair]
          rfl
  | branch | «switch» => rfl
  | _ => rfl

theorem layoutMisses_of_short (short : instruction.opcode.operandKind = .shortBranch) (target : Nat) :
    layoutMisses code position instruction target = decide (code.length ≤ target) := by
  simp [layoutMisses, Instruction.leads, Instruction.isShortBranch, short]

theorem layoutMisses_of_wide
    (wide : instruction.opcode.operandKind = .branch ∨ instruction.opcode.operandKind = .switch) (target : Nat) :
    layoutMisses code position instruction target =
      (decide (code.length ≤ target) || !fitsWord (distance code position target)) := by
  rcases wide with kind | kind <;> simp [layoutMisses, Instruction.leads, Instruction.isShortBranch, kind]

theorem exists_checkWide_of_far {position : Nat} {wide : Int} (far : fitsWord wide = false) :
    ∃ defect, checkWide position wide = .error (.structural defect) := ⟨_, by rw [checkWide, far]; rfl⟩

theorem exists_checkWide_of_near {position : Nat} {wide : Int} (near : fitsWord wide = true) :
    ∃ result, checkWide position wide = .ok result := ⟨(), by rw [checkWide, near]; rfl⟩

/-- Layout stops at an instruction that leads to a target that it misses. -/
theorem widening?_eq_error (few : code.length < indexLimit) (here : code[position]? = some instruction)
    (missed : instruction.jumpPositions.find? (layoutMisses code position instruction) = some target) :
    ∃ error,
      widening? (offsetsFrom 0 code).toArray position { instruction with offset := size (code.take position) } =
        .error error ∧ Answers (some target) error := by
  have isMissed := List.find?_some missed
  rw [widening?_eq, ← size_take_succ here]
  have wideCase (wide : instruction.opcode.operandKind = .branch ∨ instruction.opcode.operandKind = .switch) :
      ∃ error, (instruction.jumpPositions.forM fun target =>
        displacement (offsetsFrom 0 code).toArray position (size (code.take (position + 1))) target >>=
          checkWide position) = .error error ∧ Answers (some target) error := by
    rw [layoutMisses_of_wide wide] at isMissed
    rcases bind_displacement_of_missed few (checkWide position) (fun _ far => exists_checkWide_of_far far) isMissed with
      ⟨error, failed, answers⟩
    refine ⟨error, Fallible.forM_eq_error_of_find? ?_ missed failed, answers⟩
    intro other notMissed
    rw [layoutMisses_of_wide wide] at notMissed
    exact bind_displacement_of_reached few (checkWide position) (fun _ near => exists_checkWide_of_near near) notMissed
  cases kind : instruction.opcode.operandKind with
  | shortBranch =>
      -- one that does not reach is widened, so only a target outside stops layout here
      rw [layoutMisses_of_short kind, decide_eq_true_eq] at isMissed
      rcases displacement_of_outside isMissed position (size (code.take (position + 1))) with ⟨error, failed, answers⟩
      refine ⟨error, Fallible.bind_eq_error_iff.mpr (.inl ?_), answers⟩
      refine Fallible.mapM_eq_error_of_find? ?_ missed failed
      intro other notMissed
      rw [layoutMisses_of_short kind, decide_eq_false_iff_not] at notMissed
      exact ⟨_, displacement_of_inside few (Nat.lt_of_not_le notMissed) _ _⟩
  | branch =>
      rcases wideCase (.inl kind) with ⟨error, failed, answers⟩
      exact ⟨error, Fallible.bind_eq_error_iff.mpr (.inl failed), answers⟩
  | «switch» =>
      rcases wideCase (.inr kind) with ⟨error, failed, answers⟩
      exact ⟨error, Fallible.bind_eq_error_iff.mpr (.inl failed), answers⟩
  | _ => simp [layoutMisses, Instruction.leads, kind] at isMissed

/-- Layout goes on behind an instruction that leads to no target that it misses. -/
theorem exists_widening?_eq_ok (few : code.length < indexLimit) (here : code[position]? = some instruction)
    (reached : instruction.jumpPositions.find? (layoutMisses code position instruction) = none) :
    ∃ change,
      widening? (offsetsFrom 0 code).toArray position { instruction with offset := size (code.take position) } =
        .ok change := by
  rw [List.find?_eq_none] at reached
  rw [widening?_eq, ← size_take_succ here]
  have wideCase (wide : instruction.opcode.operandKind = .branch ∨ instruction.opcode.operandKind = .switch) :
      (instruction.jumpPositions.forM fun target =>
        displacement (offsetsFrom 0 code).toArray position (size (code.take (position + 1))) target >>=
          checkWide position) = .ok () := by
    rw [Fallible.forM_eq_ok_iff]
    intro target targetMem
    have notMissed := Bool.eq_false_iff.mpr (reached target targetMem)
    rw [layoutMisses_of_wide wide] at notMissed
    rcases bind_displacement_of_reached few (checkWide position) (fun _ near => exists_checkWide_of_near near)
      notMissed with ⟨⟨⟩, passed⟩
    exact passed
  cases kind : instruction.opcode.operandKind with
  | shortBranch =>
      have each : ∀ target ∈ instruction.jumpPositions, ∃ distance,
          displacement (offsetsFrom 0 code).toArray position (size (code.take (position + 1))) target =
            .ok distance := by
        intro target targetMem
        have notMissed := reached target targetMem
        rw [layoutMisses_of_short kind, decide_eq_true_eq] at notMissed
        exact ⟨_, displacement_of_inside few (Nat.lt_of_not_le notMissed) _ _⟩
      rcases Fallible.exists_mapM_eq_ok each with ⟨distances, computed⟩
      exact ⟨_, Fallible.bind_eq_ok_iff.mpr ⟨distances, computed, rfl⟩⟩
  | branch => exact ⟨none, Fallible.then_eq_ok_iff.mpr ⟨wideCase (.inl kind), rfl⟩⟩
  | «switch» => exact ⟨none, Fallible.then_eq_ok_iff.mpr ⟨wideCase (.inr kind), rfl⟩⟩
  | _ => exact ⟨none, rfl⟩

end Instructions

/-! ## The way to the first target that is missed -/

section Ways

variable {ends : Instruction → Bool} {misses : Nat → Instruction → Nat → Bool} {rest : List Instruction}
  {instruction : Instruction} {position target : Nat}

theorem firstMiss?_cons_of_some (goesOn : ends instruction = false)
    (missed : instruction.jumpPositions.find? (misses position instruction) = some target) :
    firstMiss? ends misses position (instruction :: rest) = some target := by
  rw [firstMiss?, goesOn, missed]
  rfl

theorem firstMiss?_cons_of_none (goesOn : ends instruction = false)
    (reached : instruction.jumpPositions.find? (misses position instruction) = none) :
    firstMiss? ends misses position (instruction :: rest) = firstMiss? ends misses (position + 1) rest := by
  rw [firstMiss?, goesOn, reached]
  rfl

theorem exists_of_firstMiss? (missed : firstMiss? ends misses position rest = some target) :
    ∃ place, ∃ instruction ∈ rest, target ∈ instruction.jumpPositions ∧ misses place instruction target = true := by
  induction rest generalizing position with
  | nil => cases missed
  | cons instruction rest ih =>
      cases ended : ends instruction with
      | true =>
          rw [firstMiss?, ended] at missed
          cases missed
      | false =>
          cases found : instruction.jumpPositions.find? (misses position instruction) with
          | some first =>
              rw [firstMiss?_cons_of_some ended found] at missed
              cases missed
              exact ⟨position, instruction, List.mem_cons_self, List.mem_of_find?_eq_some found, List.find?_some found⟩
          | none =>
              rw [firstMiss?_cons_of_none ended found] at missed
              rcases ih missed with ⟨place, other, otherMem, both⟩
              exact ⟨place, other, List.mem_cons_of_mem _ otherMem, both⟩

/-- A way that ends nowhere and misses nothing has seen all targets. -/
theorem exists_place_of_firstMiss? (endless : ∀ instruction ∈ rest, ends instruction = false)
    (reached : firstMiss? ends misses position rest = none) {branch : Instruction} (branchMem : branch ∈ rest) :
    ∃ place, ∀ target ∈ branch.jumpPositions, misses place branch target = false := by
  induction rest generalizing position with
  | nil => cases branchMem
  | cons instruction rest ih =>
      rw [List.forall_mem_cons] at endless
      cases found : instruction.jumpPositions.find? (misses position instruction) with
      | some first =>
          rw [firstMiss?_cons_of_some endless.1 found] at reached
          cases reached
      | none =>
          rw [firstMiss?_cons_of_none endless.1 found] at reached
          rcases List.mem_cons.mp branchMem with rfl | later
          · rw [List.find?_eq_none] at found
            exact ⟨position, fun target targetMem => Bool.eq_false_iff.mpr (found target targetMem)⟩
          · exact ih endless.2 reached later

/-- Where every target has an index after it, none makes the comparison overflow. -/
theorem not_overflows_firstMiss?
    (room : ∀ branch ∈ rest, ∀ target ∈ branch.jumpPositions, target + 1 < indexLimit) :
    ¬ Overflows (firstMiss? ends misses position rest) := by
  rintro ⟨target, missed, above⟩
  rcases exists_of_firstMiss? missed with ⟨_, branch, branchMem, targetMem, _⟩
  have below := room branch branchMem target targetMem
  omega

end Ways

/-! ## Layout -/

section Layout

variable {code rest : List Instruction} {position target : Nat}

/-- A pass that comes to a target that it misses stops there. -/
theorem widenFrom_of_missed (few : code.length < indexLimit) (found : rest = code.drop position)
    (missed : firstMiss? (fun _ => false) (layoutMisses code) position rest = some target) :
    ∃ error result,
      widenFrom (offsetsFrom 0 code).toArray position (placeFrom (size (code.take position)) rest) =
        (.error error, result) ∧ Answers (some target) error := by
  induction rest generalizing position with
  | nil => cases missed
  | cons instruction rest ih =>
      rcases of_cons_eq_drop found with ⟨here, others⟩
      rw [placeFrom, widenFrom, ← size_take_succ here]
      cases first : instruction.jumpPositions.find? (layoutMisses code position instruction) with
      | some other =>
          rw [firstMiss?_cons_of_some rfl first] at missed
          cases missed
          rcases widening?_eq_error few here first with ⟨error, failed, answers⟩
          rw [failed]
          exact ⟨error, _, rfl, answers⟩
      | none =>
          rw [firstMiss?_cons_of_none rfl first] at missed
          rcases exists_widening?_eq_ok few here first with ⟨change, passed⟩
          rcases ih others missed with ⟨error, result, failed, answers⟩
          rw [passed]
          simp only [failed]
          cases change with
          | none => exact ⟨error, _, rfl, answers⟩
          | some wide => exact ⟨error, _, rfl, answers⟩

theorem exists_widenFrom_eq_ok (few : code.length < indexLimit) (found : rest = code.drop position)
    (reached : firstMiss? (fun _ => false) (layoutMisses code) position rest = none) :
    ∃ count result,
      widenFrom (offsetsFrom 0 code).toArray position (placeFrom (size (code.take position)) rest) =
        (.ok count, result) := by
  induction rest generalizing position with
  | nil => exact ⟨0, [], rfl⟩
  | cons instruction rest ih =>
      rcases of_cons_eq_drop found with ⟨here, others⟩
      rw [placeFrom, widenFrom, ← size_take_succ here]
      cases first : instruction.jumpPositions.find? (layoutMisses code position instruction) with
      | some other =>
          rw [firstMiss?_cons_of_some rfl first] at reached
          cases reached
      | none =>
          rw [firstMiss?_cons_of_none rfl first] at reached
          rcases exists_widening?_eq_ok few here first with ⟨change, passed⟩
          rcases ih others reached with ⟨count, result, rested⟩
          rw [passed]
          simp only [rested]
          cases change with
          | none => exact ⟨count, _, rfl⟩
          | some wide => exact ⟨count + 1, _, rfl⟩

theorem layoutMiss?_eq_some_iff :
    layoutMiss? code = some target ↔
      size code < 2 ^ 32 ∧ firstMiss? (fun _ => false) (layoutMisses code) 0 code = some target := by
  simp [layoutMiss?]

/-- A pass over all of the code. -/
theorem pass_of_missed (few : code.length < indexLimit)
    (missed : firstMiss? (fun _ => false) (layoutMisses code) 0 code = some target) :
    ∃ error result, widenFrom (offsetsFrom 0 code).toArray 0 (placeFrom 0 code) = (.error error, result) ∧
      Answers (some target) error :=
  widenFrom_of_missed few List.drop_zero.symm missed

theorem exists_pass_eq_ok (few : code.length < indexLimit)
    (reached : firstMiss? (fun _ => false) (layoutMisses code) 0 code = none) :
    ∃ count result, widenFrom (offsetsFrom 0 code).toArray 0 (placeFrom 0 code) = (.ok count, result) :=
  exists_widenFrom_eq_ok few List.drop_zero.symm reached

theorem layoutFrom_of_large (large : ¬ size code < 2 ^ 32) (passes widened : Nat) :
    layoutFrom passes widened code = (.error (.structural .codeTooLarge), code) := by
  have failed : offsets code = .error (.structural .codeTooLarge) := if_neg large
  rw [layoutFrom]
  split
  · rename_i error same
    rw [failed] at same
    cases same
    rfl
  · rename_i places same
    rw [failed] at same
    cases same

/-- Layout that comes to a target that it misses stops there, in the first pass. -/
theorem layoutFrom_of_missed (missed : layoutMiss? code = some target) (passes widened : Nat) :
    ∃ error result, layoutFrom passes widened code = (.error error, result) ∧ Answers (some target) error := by
  rcases layoutMiss?_eq_some_iff.mp missed with ⟨small, missed⟩
  have places : offsets code = .ok (offsetsFrom 0 code) := offsets_eq_ok_iff.mpr ⟨small, rfl⟩
  rcases pass_of_missed (length_lt_indexLimit small) missed with ⟨error, result, stopped, answers⟩
  refine ⟨error, result, ?_, answers⟩
  fun_cases layoutFrom passes widened code with
  | case1 other failed =>
      rw [places] at failed
      cases failed
  | case2 found same other changed pass =>
      rw [places] at same
      cases same
      rw [stopped] at pass
      cases pass
      rfl
  | case3 found same changed pass | case4 found same more changed pass =>
      rw [places] at same
      cases same
      rw [stopped] at pass
      cases pass

/-- Whether every target that layout looks at is inside `count` instructions. -/
def LedInside (count : Nat) (instructions : List Instruction) : Prop :=
  ∀ instruction ∈ instructions, instruction.leads = true → ∀ target ∈ instruction.jumpPositions, target < count

theorem ledInside_of_relaid {count : Nat} {before after : List Instruction}
    (relaid : List.Forall₂ Instruction.Relaid before after) (inside : LedInside count before) :
    LedInside count after := by
  induction relaid with
  | nil => exact inside
  | cons step _ ih =>
      rw [LedInside, List.forall_mem_cons] at inside ⊢
      rw [step.leads, step.jumpPositions]
      exact ⟨inside.1, ih inside.2⟩

theorem ledInside_of_reached (reached : firstMiss? (fun _ => false) (layoutMisses code) 0 code = none) :
    LedInside code.length code := by
  intro instruction instructionMem leads target targetMem
  rcases exists_place_of_firstMiss? (fun _ _ => rfl) reached instructionMem with ⟨place, seen⟩
  have notMissed := seen target targetMem
  rw [layoutMisses, leads, Bool.true_and, Bool.or_eq_false_iff, decide_eq_false_iff_not] at notMissed
  exact Nat.lt_of_not_le notMissed.1

/-- Whatever layout finds wrong with code whose targets are inside, it overflows at none of them. -/
theorem layoutFrom_ne_positionOverflow (inside : LedInside code.length code) (passes widened : Nat) :
    (layoutFrom passes widened code).1 ≠ .error .positionOverflow := by
  fun_induction layoutFrom passes widened code with
  | case1 passes widened code error failed =>
      unfold offsets at failed
      split at failed <;> cases failed
      simp
  | case2 passes widened code places found error changed failed =>
      rcases offsets_eq_ok_iff.mp found with ⟨small, rfl⟩
      have few := length_lt_indexLimit small
      cases missed : firstMiss? (fun _ => false) (layoutMisses code) 0 code with
      | none =>
          rcases exists_pass_eq_ok few missed with ⟨count, result, passed⟩
          rw [passed] at failed
          cases failed
      | some target =>
          rcases pass_of_missed few missed with ⟨cause, result, stopped, answers⟩
          rw [stopped] at failed
          cases failed
          simp only [ne_eq, Except.error.injEq]
          rw [answers.eq_positionOverflow_iff]
          rintro ⟨_, same, above⟩
          cases same
          rcases exists_of_firstMiss? missed with ⟨place, instruction, instructionMem, targetMem, missedHere⟩
          rw [layoutMisses, Bool.and_eq_true] at missedHere
          have within := inside instruction instructionMem missedHere.1 target targetMem
          omega
  | case3 => simp
  | case4 passes widened code places found more changed pass ih =>
      have step := relaid_trans (relaid_placeFrom 0 code) (relaid_of_widenFrom pass)
      apply ih
      rw [← step.length_eq]
      exact ledInside_of_relaid step inside

/-- Layout overflows just at a target that it misses and after which there is no index. -/
theorem layout_overflows_iff : (layout code).1 = .error .positionOverflow ↔ Overflows (layoutMiss? code) := by
  cases missed : layoutMiss? code with
  | some target =>
      rcases layoutFrom_of_missed missed 0 0 with ⟨error, result, stopped, answers⟩
      rw [layout, stopped, Except.error.injEq]
      exact answers.eq_positionOverflow_iff
  | none =>
      refine iff_of_false ?_ not_overflows_none
      unfold layoutMiss? at missed
      split at missed
      · exact layoutFrom_ne_positionOverflow (ledInside_of_reached missed) 0 0
      · rename_i large
        rw [layout, layoutFrom_of_large large]
        simp

/-- Layout fails if an operand that fits leads outside. -/
theorem layout_of_leadsOutside (outside : LeadsOutside code.length code) :
    ∃ error result, layout code = (.error error, result) ∧ Answers (layoutMiss? code) error := by
  cases missed : layoutMiss? code with
  | some target => exact layoutFrom_of_missed missed 0 0
  | none =>
      unfold layoutMiss? at missed
      split at missed
      · rcases outside with ⟨branch, branchMem, wellFormed, target, targetMem, beyond⟩
        have leads := Instruction.leads_of_isWellFormed wellFormed targetMem
        exact absurd (ledInside_of_reached missed branch branchMem leads target targetMem) (Nat.not_lt_of_le beyond)
      · rename_i large
        exact ⟨_, _, layoutFrom_of_large large 0 0, answers_none _⟩

end Layout

/-! ## Encoding -/

section Encoding

variable {State : Type} {emitter : Emitter State} {code rest : List Instruction} {instruction : Instruction}
  {position target : Nat} {before after : State}

theorem exists_branchBytes_of_far {distance : Int} (far : fitsOperand instruction distance = false) :
    ∃ defect, branchBytes instruction position target distance = .error (.structural defect) := by
  unfold fitsOperand at far
  unfold branchBytes
  split
  · rename_i short
    rw [if_pos short] at far
    exact ⟨_, by rw [far]; rfl⟩
  · rename_i long
    rw [if_neg long] at far
    exact ⟨_, by rw [far]; rfl⟩

theorem exists_branchBytes_of_near {distance : Int} (near : fitsOperand instruction distance = true) :
    ∃ bytes, branchBytes instruction position target distance = .ok bytes := by
  unfold fitsOperand at near
  unfold branchBytes
  split
  · rename_i short
    rw [if_pos short] at near
    exact ⟨_, if_pos near⟩
  · rename_i long
    rw [if_neg long] at near
    exact ⟨_, if_pos near⟩

/-- The check that encoding makes of an entry of a jump table. -/
def checkEntry (wide : Int) : Except Error Int :=
  if fitsWord wide then .ok wide else .error (.structural (.tableTargetTooFar wide))

theorem tableBytes_cons (distance : Nat → Except Error Int) (target : Nat) (targets : List Nat) :
    tableBytes distance (target :: targets) =
      (distance target >>= checkEntry) >>= fun wide =>
        tableBytes distance targets >>= fun rest => .ok (Bytes.encodeSigned 4 wide ++ rest) := by
  unfold checkEntry
  rw [tableBytes]
  simp only [bind, Except.bind]
  rcases distance target with error | wide
  · rfl
  · cases fits : fitsWord wide with
    | true => simp only [fits]; rfl
    | false => simp only [fits]; rfl

theorem fitsOperand_of_table {targets : List Nat} (wellFormed : instruction.isWellFormed = true)
    (table : instruction.operand = .targets targets) : fitsOperand instruction = fitsWord := by
  have kinds := Operand.mem_kinds_of_fits wellFormed
  rw [table] at kinds
  unfold fitsOperand Instruction.isShortBranch
  rw [List.mem_singleton.mp kinds]
  rfl

theorem exists_checkEntry_of_far {wide : Int} (far : fitsWord wide = false) :
    ∃ defect, checkEntry wide = .error (.structural defect) := ⟨_, by rw [checkEntry, far]; rfl⟩

theorem exists_checkEntry_of_near {wide : Int} (near : fitsWord wide = true) :
    ∃ result, checkEntry wide = .ok result := ⟨wide, by rw [checkEntry, near]; rfl⟩

theorem exists_tableBytes_eq_ok {distance : Nat → Except Error Int} {targets : List Nat}
    (each : ∀ target ∈ targets, ∃ wide, distance target >>= checkEntry = .ok wide) :
    ∃ bytes, tableBytes distance targets = .ok bytes := by
  induction targets with
  | nil => exact ⟨[], rfl⟩
  | cons target targets ih =>
      rw [List.forall_mem_cons] at each
      rcases each.1 with ⟨wide, checked⟩
      rcases ih each.2 with ⟨bytes, others⟩
      rw [tableBytes_cons, checked]
      exact ⟨_, Fallible.bind_eq_ok_iff.mpr ⟨wide, rfl, Fallible.bind_eq_ok_iff.mpr ⟨bytes, others, rfl⟩⟩⟩

/-- Encoding stops at an operand that names a target that it misses. -/
theorem operandBytes_of_missed (emitter : Emitter State) (few : code.length < indexLimit)
    (here : code[position]? = some instruction) (wellFormed : instruction.isWellFormed = true)
    (missed : instruction.jumpPositions.find? (encodeMisses code position instruction) = some target) :
    ∃ error, Answers (some target) error ∧ ∀ before : State,
      operandBytes emitter (offsetsFrom 0 code).toArray position (size (code.take position)) instruction before =
        (.error error, before) := by
  have isMissed := List.find?_some missed
  rw [Instruction.jumpPositions] at missed
  unfold operandBytes
  rw [← size_take_succ here]
  cases operand : instruction.operand with
  | target place =>
      rw [operand] at missed
      rcases List.mem_singleton.mp (List.mem_of_find?_eq_some missed) with rfl
      rcases bind_displacement_of_missed few (branchBytes instruction position target)
        (fun _ far => exists_branchBytes_of_far far) isMissed with ⟨error, failed, answers⟩
      exact ⟨error, answers, fun before => Emission.ofExcept_eq_error_iff.mpr ⟨failed, rfl⟩⟩
  | targets places =>
      rw [operand] at missed
      rw [encodeMisses, fitsOperand_of_table wellFormed operand] at isMissed
      rcases bind_displacement_of_missed few checkEntry (fun _ far => exists_checkEntry_of_far far) isMissed with
        ⟨error, failed, answers⟩
      refine ⟨error, answers, fun before => Emission.ofExcept_eq_error_iff.mpr ⟨?_, rfl⟩⟩
      refine Fallible.bind_eq_error_iff.mpr (.inl ?_)
      refine Fallible.eq_error_of_find? _ (tableBytes_cons _) (fun place notMissed => ?_) missed failed
      rw [encodeMisses, fitsOperand_of_table wellFormed operand] at notMissed
      exact bind_displacement_of_reached few checkEntry (fun _ near => exists_checkEntry_of_near near) notMissed
  | _ =>
      rw [operand] at missed
      cases missed

/-- An operand whose targets are all reached is refused by nothing but the emitter. -/
theorem refuses_of_operandBytes (few : code.length < indexLimit) (here : code[position]? = some instruction)
    (wellFormed : instruction.isWellFormed = true)
    (reached : instruction.jumpPositions.find? (encodeMisses code position instruction) = none) {cause : Error}
    (failed : operandBytes emitter (offsetsFrom 0 code).toArray position (size (code.take position)) instruction
      before = (.error cause, after)) : emitter.Refuses cause := by
  rw [List.find?_eq_none, Instruction.jumpPositions] at reached
  have ofToken {action : Emission State Token} (asked : emitter.token? instruction.operand = some action) :
      emitter.Refuses cause := by
    rw [operandBytes_of_token? asked, ← bind_pure_comp] at failed
    rcases Emission.bind_eq_error_iff.mp failed with refused | ⟨token, between, _, impossible⟩
    · exact ⟨instruction.operand, action, asked, before, after, refused⟩
    · cases impossible
  unfold operandBytes at failed
  rw [← size_take_succ here] at failed
  cases operand : instruction.operand with
  | none | immediate | localVariable | argument =>
      rw [operand] at failed
      cases failed
  | target place =>
      rw [operand] at failed reached
      have notMissed := Bool.eq_false_iff.mpr (reached place List.mem_cons_self)
      rcases bind_displacement_of_reached few (branchBytes instruction position place)
        (fun _ near => exists_branchBytes_of_near near) notMissed with ⟨bytes, written⟩
      cases written.symm.trans (Emission.ofExcept_eq_error_iff.mp failed).1
  | targets places =>
      rw [operand] at failed reached
      have each : ∀ place ∈ places, ∃ wide,
          displacement (offsetsFrom 0 code).toArray position (size (code.take (position + 1))) place >>= checkEntry =
            .ok wide := by
        intro place placeMem
        have notMissed := Bool.eq_false_iff.mpr (reached place placeMem)
        rw [encodeMisses, fitsOperand_of_table wellFormed operand] at notMissed
        exact bind_displacement_of_reached few checkEntry (fun _ near => exists_checkEntry_of_near near) notMissed
      rcases exists_tableBytes_eq_ok each with ⟨bytes, written⟩
      rcases Fallible.bind_eq_error_iff.mp (Emission.ofExcept_eq_error_iff.mp failed).1 with
        impossible | ⟨_, _, impossible⟩
      · cases written.symm.trans impossible
      · cases impossible
  | string | type | field | method | symbol | signature =>
      rw [operand] at ofToken
      exact ofToken rfl

/-- Encoding fails for what the emitter refuses, for an operand that does not fit, and for a target that it misses. -/
theorem answers_of_encodeFrom (few : code.length < indexLimit) (found : rest = code.drop position) {cause : Error}
    (failed : encodeFrom emitter (offsetsFrom 0 code).toArray position (size (code.take position)) rest before =
      (.error cause, after)) :
    emitter.Refuses cause ∨ Answers (firstMiss? (!·.isWellFormed) (encodeMisses code) position rest) cause := by
  induction rest generalizing position before with
  | nil => cases failed
  | cons instruction rest ih =>
      rcases of_cons_eq_drop found with ⟨here, others⟩
      rw [encodeFrom] at failed
      cases wellFormed : instruction.isWellFormed with
      | false =>
          rw [wellFormed] at failed
          cases failed
          rw [firstMiss?, wellFormed]
          exact .inr (answers_none _)
      | true =>
          have goesOn : (!instruction.isWellFormed) = false := by rw [wellFormed]; rfl
          rw [goesOn, if_neg Bool.false_ne_true] at failed
          cases first : instruction.jumpPositions.find? (encodeMisses code position instruction) with
          | some target =>
              rw [firstMiss?_cons_of_some goesOn first]
              rcases operandBytes_of_missed emitter few here wellFormed first with ⟨error, answers, stops⟩
              rcases Emission.bind_eq_error_iff.mp failed with atOperand | ⟨bytes, between, impossible, _⟩
              · cases (stops before).symm.trans atOperand
                exact .inr answers
              · cases (stops before).symm.trans impossible
          | none =>
              rw [firstMiss?_cons_of_none goesOn first]
              rcases Emission.bind_eq_error_iff.mp failed with atOperand | ⟨bytes, between, _, later⟩
              · exact .inl (refuses_of_operandBytes few here wellFormed first atOperand)
              · rw [← size_take_succ here] at later
                rcases Emission.bind_eq_error_iff.mp later with inRest | ⟨_, _, _, impossible⟩
                · exact ih others inRest
                · cases impossible

theorem not_leadsOutside_of_encodeFrom (few : code.length < indexLimit) (found : rest = code.drop position)
    {bytes : List UInt8}
    (encoded : encodeFrom emitter (offsetsFrom 0 code).toArray position (size (code.take position)) rest before =
      (.ok bytes, after)) : ¬ LeadsOutside code.length rest := by
  rintro ⟨branch, branchMem, wellFormed, target, targetMem, beyond⟩
  induction rest generalizing position before after bytes with
  | nil => cases branchMem
  | cons instruction rest ih =>
      rcases of_cons_eq_drop found with ⟨here, others⟩
      rw [encodeFrom] at encoded
      cases fits : instruction.isWellFormed with
      | false =>
          rw [fits] at encoded
          cases encoded
      | true =>
          rw [fits, Bool.not_true, if_neg Bool.false_ne_true] at encoded
          rcases Emission.bind_eq_ok_iff.mp encoded with ⟨operand, _, atOperand, afterOperand⟩
          rcases List.mem_cons.mp branchMem with rfl | later
          · have isMissed : (branch.jumpPositions.find? (encodeMisses code position branch)).isSome = true :=
              List.find?_isSome.mpr ⟨target, targetMem, by simp [encodeMisses, beyond]⟩
            rcases Option.isSome_iff_exists.mp isMissed with ⟨first, missed⟩
            rcases operandBytes_of_missed emitter few here wellFormed missed with ⟨error, _, stops⟩
            cases (stops _).symm.trans atOperand
          · rw [← size_take_succ here] at afterOperand
            rcases Emission.bind_eq_ok_iff.mp afterOperand with ⟨_, _, inRest, _⟩
            exact ih others inRest later

theorem encode_eq_of_small (small : size code < 2 ^ 32) (emitter : Emitter State) (before : State) :
    encode emitter code before = encodeFrom emitter (offsetsFrom 0 code).toArray 0 0 code before := by
  have places : offsets code = .ok (offsetsFrom 0 code) := if_pos small
  rw [encode, places]
  rfl

theorem encode_eq_of_large (large : ¬ size code < 2 ^ 32) (emitter : Emitter State) (before : State) :
    encode emitter code before = (.error (.structural .codeTooLarge), before) := by
  have failed : offsets code = .error (.structural .codeTooLarge) := if_neg large
  rw [encode, failed]
  rfl

theorem answers_of_encode {cause : Error} (failed : encode emitter code before = (.error cause, after)) :
    emitter.Refuses cause ∨ Answers (encodeMiss? code) cause := by
  unfold encodeMiss?
  split
  · rename_i small
    rw [encode_eq_of_small small] at failed
    exact answers_of_encodeFrom (length_lt_indexLimit small) List.drop_zero.symm failed
  · rename_i large
    rw [encode_eq_of_large large] at failed
    cases failed
    exact .inr (answers_none _)

/-- Encoding fails if an operand that fits leads outside. -/
theorem encode_of_leadsOutside (outside : LeadsOutside code.length code) (emitter : Emitter State) (before : State) :
    ∃ cause after, encode emitter code before = (.error cause, after) ∧
      (emitter.Refuses cause ∨ Answers (encodeMiss? code) cause) := by
  rcases encoded : encode emitter code before with ⟨cause | bytes, after⟩
  · exact ⟨cause, after, rfl, answers_of_encode encoded⟩
  · by_cases small : size code < 2 ^ 32
    · rw [encode_eq_of_small small] at encoded
      exact absurd outside (not_leadsOutside_of_encodeFrom (length_lt_indexLimit small) List.drop_zero.symm encoded)
    · rw [encode_eq_of_large small] at encoded
      cases encoded

end Encoding

/-- Nothing overflows in code in which every target has an index after it. -/
theorem not_overflows_miss {code : List Instruction}
    (room : ∀ branch ∈ code, ∀ target ∈ branch.jumpPositions, target + 1 < indexLimit) :
    ¬ Overflows (layoutMiss? code) ∧ ¬ Overflows (encodeMiss? code) := by
  unfold layoutMiss? encodeMiss?
  split
  · exact ⟨not_overflows_firstMiss? room, not_overflows_firstMiss? room⟩
  · exact ⟨not_overflows_none, not_overflows_none⟩

end Code

end CilRelink
