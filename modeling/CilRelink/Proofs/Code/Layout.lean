import CilRelink.Code.Layout
import CilRelink.Proofs.Code.Offsets
import CilRelink.Proofs.Fallible
import CilRelink.Proofs.Opcode

/-!
# Layout settles the code

Offsets that a pass goes by are those before the pass, so a branch that is widened leaves the displacements that
are computed after it in the same pass too small. The last pass widens nothing, and so its offsets are those of
the code it leaves behind: every displacement it accepted is the true one. What every pass keeps is that the code
is the given code with some short branches widened, and that short branches and widened ones together are as many
as there were short branches.

Layout fails only for targets outside the code and for code that is too large. How large the code can become is
bounded by its size with every short branch widened, which no pass changes.
-/

namespace CilRelink

namespace Instruction

/-- Whether layout may have made the second instruction of the first: it has the same operand, and the same opcode
or the long one that a short branch is paired with. -/
structure Relaid (before after : Instruction) : Prop where
  operand : after.operand = before.operand
  opcode : after.opcode = before.opcode ∨ before.opcode.widened? = some after.opcode

/-- Whether layout may have made the second instruction of the first, if it leaves alone what leads nowhere. -/
structure RelaidAsNeeded (before after : Instruction) : Prop extends Relaid before after where
  still : before.jumpPositions = [] → after.opcode = before.opcode

/-- The instruction with the long opcode if it is a short branch. -/
def widest (instruction : Instruction) : Instruction :=
  { instruction with opcode := instruction.opcode.widened?.getD instruction.opcode }

/-- Whether a displacement fits the instruction: one byte for a short branch, four for any other. -/
def CanReach (instruction : Instruction) (distance : Int) : Prop :=
  if instruction.isShortBranch then -128 ≤ distance ∧ distance ≤ 127
  else -2 ^ 31 ≤ distance ∧ distance < 2 ^ 31

namespace Relaid

theorem refl (instruction : Instruction) : instruction.Relaid instruction := ⟨rfl, .inl rfl⟩

theorem trans {first second third : Instruction} (earlier : first.Relaid second) (later : second.Relaid third) :
    first.Relaid third := by
  refine ⟨later.operand.trans earlier.operand, ?_⟩
  rcases later.opcode with same | widened
  · rw [same]
    exact earlier.opcode
  · rcases earlier.opcode with same | alreadyWidened
    · right
      rw [← same]
      exact widened
    · -- an opcode that widening gave is long, and has no longer one
      have long := Code.operandKind_of_widened? alreadyWidened
      rw [Opcode.widened?_eq_none_of_branch long] at widened
      contradiction

theorem jumpPositions {before after : Instruction} (relaid : before.Relaid after) :
    after.jumpPositions = before.jumpPositions := by
  simp [Instruction.jumpPositions, relaid.operand]

theorem isWellFormed {before after : Instruction} (relaid : before.Relaid after)
    (wellFormed : before.isWellFormed = true) : after.isWellFormed = true := by
  rcases relaid.opcode with same | widened
  · simpa [Instruction.isWellFormed, relaid.operand, same] using wellFormed
  · have short := (Opcode.isSome_widened?_iff before.opcode).mp (by simp [widened])
    have long := Code.operandKind_of_widened? widened
    simp only [Instruction.isWellFormed, relaid.operand, short, long] at wellFormed ⊢
    -- both kinds take a target, and nothing else
    cases operand : before.operand <;> simp [operand, Operand.fits] at wellFormed ⊢

theorem size_widest {before after : Instruction} (relaid : before.Relaid after) :
    after.widest.size = before.widest.size := by
  have sameOpcode : after.widest.opcode = before.widest.opcode := by
    rcases relaid.opcode with same | widened
    · simp [widest, same]
    · have long := Opcode.widened?_eq_none_of_branch (Code.operandKind_of_widened? widened)
      simp [widest, widened, long]
  have sameOperand : after.widest.operand = before.widest.operand := relaid.operand
  simp only [size, operandSize, sameOpcode, sameOperand]

end Relaid

theorem RelaidAsNeeded.refl (instruction : Instruction) : instruction.RelaidAsNeeded instruction :=
  ⟨.refl instruction, fun _ => rfl⟩

theorem RelaidAsNeeded.trans {first second third : Instruction} (earlier : first.RelaidAsNeeded second)
    (later : second.RelaidAsNeeded third) : first.RelaidAsNeeded third := by
  refine ⟨earlier.toRelaid.trans later.toRelaid, fun nowhere => ?_⟩
  rw [later.still (earlier.jumpPositions.trans nowhere), earlier.still nowhere]

theorem size_le_size_widest (instruction : Instruction) : instruction.size ≤ instruction.widest.size := by
  cases pair : instruction.opcode.widened? with
  | none => simp [widest, pair]
  | some wide =>
      have short := (Opcode.isSome_widened?_iff instruction.opcode).mp (by simp [pair])
      have long := Code.operandKind_of_widened? pair
      have sameSize := Opcode.size_of_widened? pair
      simp only [size, operandSize, widest, pair, Option.getD_some, short, long, sameSize, OperandKind.size?]
      omega

end Instruction

namespace Code

/-- Whether each instruction is where the code in front of it ends, and every branch fits its displacements. -/
structure Settled (instructions : List Instruction) : Prop where
  placed : IsPlaced instructions
  reaches : ∀ (position : Nat) (instruction : Instruction), instructions[position]? = some instruction →
    ∀ target ∈ instruction.jumpPositions, ∃ destination, instructions[target]? = some destination ∧
      instruction.CanReach ((destination.offset : Int) - (instruction.offset + instruction.size : Nat))

/-! ## One instruction -/

theorem checked_eq_ok_iff {distanceTo : Nat → Except Error Int} {position : Nat} {targets : List Nat} :
    (targets.forM fun target => do
      let wide ← distanceTo target
      if !fitsWord wide then throw (Error.structural (.displacementTooWide position wide))) = .ok () ↔
    ∀ target ∈ targets, ∃ distance, distanceTo target = .ok distance ∧ fitsWord distance = true := by
  rw [Fallible.forM_eq_ok_iff]
  refine forall₂_congr fun target _ => ?_
  rw [Fallible.bind_eq_ok_iff]
  refine exists_congr fun distance => and_congr_right fun _ => ?_
  cases fits : fitsWord distance <;> simp [throw, throwThe, MonadExceptOf.throw, pure, Except.pure]

theorem fitsByte_of_widening?_none {offsets : Array Nat} {position : Nat} {instruction : Instruction}
    (short : instruction.opcode.operandKind = .shortBranch)
    (fine : widening? offsets position instruction = .ok none) :
    ∀ target ∈ instruction.jumpPositions, ∃ distance,
      displacement offsets position (instruction.offset + instruction.size) target = .ok distance ∧
        fitsByte distance = true := by
  simp only [widening?, short] at fine
  rcases Fallible.bind_eq_ok_iff.mp fine with ⟨distances, computed, rest⟩
  have allFit : ∀ distance ∈ distances, fitsByte distance = true := by
    rw [← List.all_eq_true]
    by_contra someFails
    rw [if_neg someFails] at rest
    split at rest <;> cases rest
  rcases List.forall₂_iff_get.mp (Fallible.mapM_eq_ok_iff.mp computed) with ⟨sameLength, each⟩
  intro target targetMem
  rcases List.mem_iff_get.mp targetMem with ⟨index, rfl⟩
  have inside : index.1 < distances.length := by omega
  exact ⟨_, each index.1 index.2 inside, allFit _ (List.get_mem distances ⟨index.1, inside⟩)⟩

theorem fitsWord_of_widening?_none {offsets : Array Nat} {position : Nat} {instruction : Instruction}
    (wellFormed : instruction.isWellFormed = true) (long : instruction.opcode.operandKind ≠ .shortBranch)
    (fine : widening? offsets position instruction = .ok none) :
    ∀ target ∈ instruction.jumpPositions, ∃ distance,
      displacement offsets position (instruction.offset + instruction.size) target = .ok distance ∧
        fitsWord distance = true := by
  rcases instruction with ⟨offset, opcode, operand⟩
  simp only [Instruction.isWellFormed] at wellFormed long
  simp only [widening?] at fine
  -- of the kinds of operands, only those of branches and jump tables name targets
  cases kind : opcode.operandKind
  case shortBranch => exact absurd kind long
  case branch | switch =>
      simp only [kind] at fine
      rcases Fallible.bind_eq_ok_iff.mp fine with ⟨_, checked, _⟩
      exact checked_eq_ok_iff.mp checked
  all_goals
    intro target targetMem
    cases operand <;> simp [kind, Operand.fits, Instruction.jumpPositions, Operand.positions] at *

theorem canReach_of_widening?_none {instructions : List Instruction} {position target : Nat}
    {instruction : Instruction} (wellFormed : instruction.isWellFormed = true)
    (fine : widening? (offsetsFrom 0 instructions).toArray position instruction = .ok none)
    (targetMem : target ∈ instruction.jumpPositions) :
    target < instructions.length ∧
      instruction.CanReach ((size (instructions.take target) : Int) -
        (instruction.offset + instruction.size : Nat)) := by
  by_cases short : instruction.opcode.operandKind = .shortBranch
  · rcases fitsByte_of_widening?_none short fine target targetMem with ⟨distance, found, fits⟩
    rcases displacement_eq_ok_iff.mp found with ⟨_, inside, rfl⟩
    refine ⟨inside, ?_⟩
    simpa [Instruction.CanReach, Instruction.isShortBranch, short, fitsByte] using fits
  · rcases fitsWord_of_widening?_none wellFormed short fine target targetMem with ⟨distance, found, fits⟩
    rcases displacement_eq_ok_iff.mp found with ⟨_, inside, rfl⟩
    refine ⟨inside, ?_⟩
    simpa [Instruction.CanReach, Instruction.isShortBranch, short, fitsWord] using fits

/-! ## One pass -/

theorem widenFrom_cons_eq_ok {offsets : Array Nat} {position count : Nat} {instruction : Instruction}
    {instructions result : List Instruction}
    (pass : widenFrom offsets position (instruction :: instructions) = (.ok count, result)) :
    ∃ rest, (widening? offsets position instruction = .ok none ∧
        widenFrom offsets (position + 1) instructions = (.ok count, rest) ∧ result = instruction :: rest) ∨
      ∃ wide others, widening? offsets position instruction = .ok (some wide) ∧
        widenFrom offsets (position + 1) instructions = (.ok others, rest) ∧ count = others + 1 ∧
        result = { instruction with opcode := wide } :: rest := by
  rw [widenFrom] at pass
  cases found : widening? offsets position instruction with
  | error error => simp [found] at pass
  | ok change =>
      rcases more : widenFrom offsets (position + 1) instructions with ⟨others, rest⟩
      simp only [found, more] at pass
      refine ⟨rest, ?_⟩
      cases change with
      | none =>
          cases pass
          exact .inl ⟨rfl, rfl, rfl⟩
      | some wide =>
          cases others with
          | error error => cases pass
          | ok others =>
              cases pass
              exact .inr ⟨wide, others, rfl, rfl, rfl, rfl⟩

theorem widened?_of_widening?_some {offsets : Array Nat} {position : Nat} {instruction : Instruction}
    {wide : Opcode} (found : widening? offsets position instruction = .ok (some wide)) :
    instruction.opcode.widened? = some wide := by
  unfold widening? at found
  split at found
  · rcases Fallible.bind_eq_ok_iff.mp found with ⟨distances, _, rest⟩
    split at rest
    · cases rest
    · split at rest
      · rename_i pair
        cases rest
        exact pair
      · cases rest
  · rcases Fallible.bind_eq_ok_iff.mp found with ⟨_, _, rest⟩
    cases rest
  · rcases Fallible.bind_eq_ok_iff.mp found with ⟨_, _, rest⟩
    cases rest
  · cases found

theorem widening?_of_nowhere {instruction : Instruction} (nowhere : instruction.jumpPositions = [])
    (offsets : Array Nat) (position : Nat) : widening? offsets position instruction = .ok none := by
  unfold widening?
  cases instruction.opcode.operandKind with
  | shortBranch | branch | «switch» =>
      simp only [nowhere]
      rfl
  | _ => rfl

/-- Also a pass that fails has only widened short branches, and none that lead nowhere. -/
theorem relaidAsNeeded_of_widenFrom {offsets : Array Nat} {position : Nat} {outcome : Except Error Nat}
    {instructions result : List Instruction}
    (pass : widenFrom offsets position instructions = (outcome, result)) :
    List.Forall₂ Instruction.RelaidAsNeeded instructions result := by
  induction instructions generalizing position outcome result with
  | nil =>
      cases pass
      exact .nil
  | cons instruction instructions ih =>
      rw [widenFrom] at pass
      cases found : widening? offsets position instruction with
      | error error =>
          simp only [found] at pass
          cases pass
          exact List.forall₂_same.mpr fun other _ => .refl other
      | ok change =>
          rcases more : widenFrom offsets (position + 1) instructions with ⟨others, rest⟩
          simp only [found, more] at pass
          cases change with
          | none =>
              cases pass
              exact .cons (.refl instruction) (ih more)
          | some wide =>
              cases pass
              refine .cons ⟨⟨rfl, .inr (widened?_of_widening?_some found)⟩, fun nowhere => ?_⟩ (ih more)
              rw [widening?_of_nowhere nowhere] at found
              cases found

theorem relaid_of_widenFrom {offsets : Array Nat} {position : Nat} {outcome : Except Error Nat}
    {instructions result : List Instruction}
    (pass : widenFrom offsets position instructions = (outcome, result)) :
    List.Forall₂ Instruction.Relaid instructions result :=
  (relaidAsNeeded_of_widenFrom pass).imp fun _ _ needed => needed.toRelaid

/-- A pass that widens nothing leaves all as it was and has found that every branch fits. -/
theorem widening?_none_of_widenFrom_zero {offsets : Array Nat} {position : Nat}
    {instructions result : List Instruction}
    (pass : widenFrom offsets position instructions = (.ok 0, result)) :
    result = instructions ∧ ∀ (index : Nat) (instruction : Instruction), instructions[index]? = some instruction →
      widening? offsets (position + index) instruction = .ok none := by
  induction instructions generalizing position result with
  | nil =>
      cases pass
      simp
  | cons instruction instructions ih =>
      rcases widenFrom_cons_eq_ok pass with ⟨rest, ⟨fine, more, rfl⟩ | ⟨wide, others, _, _, impossible, _⟩⟩
      · rcases ih more with ⟨rfl, allFine⟩
        refine ⟨rfl, ?_⟩
        intro index other found
        rcases index with _ | index
        · simp only [List.getElem?_cons_zero, Option.some.injEq] at found
          subst other
          exact fine
        · have later := allFine index other (by simpa using found)
          rwa [Nat.add_assoc, Nat.add_comm 1] at later
      · omega

/-! ## All passes -/

theorem settled_of_last_pass {instructions result : List Instruction}
    (wellFormed : ∀ instruction ∈ instructions, instruction.isWellFormed = true)
    (pass : widenFrom (offsetsFrom 0 instructions).toArray 0 (placeFrom 0 instructions) = (.ok 0, result)) :
    result = placeFrom 0 instructions ∧ Settled result := by
  rcases widening?_none_of_widenFrom_zero pass with ⟨rfl, allFine⟩
  have placed := isPlaced_placeFrom instructions
  refine ⟨rfl, placed, ?_⟩
  intro position instruction found target targetMem
  have fine := allFine position instruction found
  rw [Nat.zero_add] at fine
  have wellFormedPlaced : instruction.isWellFormed = true := by
    rw [getElem?_placeFrom, Option.map_eq_some_iff] at found
    rcases found with ⟨original, originalFound, rfl⟩
    exact wellFormed original (List.mem_of_getElem? originalFound)
  rcases canReach_of_widening?_none wellFormedPlaced fine targetMem with ⟨inside, reaches⟩
  have inside' : target < (placeFrom 0 instructions).length := by simpa using inside
  refine ⟨_, List.getElem?_eq_getElem inside', ?_⟩
  have offset := placed target _ (List.getElem?_eq_getElem inside')
  rw [take_placeFrom, size_placeFrom] at offset
  rw [offset]
  exact reaches

theorem relaidAsNeeded_placeFrom (start : Nat) (instructions : List Instruction) :
    List.Forall₂ Instruction.RelaidAsNeeded instructions (placeFrom start instructions) := by
  induction instructions generalizing start with
  | nil => exact .nil
  | cons instruction instructions ih => exact .cons ⟨⟨rfl, .inl rfl⟩, fun _ => rfl⟩ (ih _)

theorem relaid_placeFrom (start : Nat) (instructions : List Instruction) :
    List.Forall₂ Instruction.Relaid instructions (placeFrom start instructions) :=
  (relaidAsNeeded_placeFrom start instructions).imp fun _ _ needed => needed.toRelaid

theorem forall₂_trans {relation : Instruction → Instruction → Prop}
    (trans : ∀ {first second third}, relation first second → relation second third → relation first third)
    {first second third : List Instruction} (earlier : List.Forall₂ relation first second)
    (later : List.Forall₂ relation second third) : List.Forall₂ relation first third := by
  induction earlier generalizing third with
  | nil => exact later
  | cons step _ ih =>
      rcases later with _ | ⟨laterStep, laterRest⟩
      exact .cons (trans step laterStep) (ih laterRest)

theorem relaid_trans {first second third : List Instruction}
    (earlier : List.Forall₂ Instruction.Relaid first second)
    (later : List.Forall₂ Instruction.Relaid second third) :
    List.Forall₂ Instruction.Relaid first third :=
  forall₂_trans .trans earlier later

theorem wellFormed_of_relaid {before after : List Instruction}
    (relaid : List.Forall₂ Instruction.Relaid before after)
    (wellFormed : ∀ instruction ∈ before, instruction.isWellFormed = true) :
    ∀ instruction ∈ after, instruction.isWellFormed = true := by
  induction relaid with
  | nil => simp
  | cons step _ ih =>
      simp only [List.mem_cons, forall_eq_or_imp] at wellFormed ⊢
      exact ⟨step.isWellFormed wellFormed.1, ih wellFormed.2⟩

/-- The number of instructions that have another opcode in the second list. -/
def widenings (before after : List Instruction) : Nat :=
  (before.zip after).countP fun pair => pair.1.opcode ≠ pair.2.opcode

@[simp]
theorem widenings_cons (old new : Instruction) (before after : List Instruction) :
    widenings (old :: before) (new :: after) =
      widenings before after + if old.opcode = new.opcode then 0 else 1 := by
  by_cases same : old.opcode = new.opcode <;> simp [widenings, same]

@[simp]
theorem shortBranches_cons (instruction : Instruction) (instructions : List Instruction) :
    shortBranches (instruction :: instructions) =
      shortBranches instructions + if instruction.opcode.operandKind = .shortBranch then 1 else 0 := by
  simp [shortBranches, List.countP_cons, Instruction.isShortBranch]

theorem shortBranches_add_widenings {before after : List Instruction}
    (relaid : List.Forall₂ Instruction.Relaid before after) :
    shortBranches after + widenings before after = shortBranches before := by
  induction relaid with
  | nil => rfl
  | @cons old new olds news step _ ih =>
      rw [shortBranches_cons, shortBranches_cons, widenings_cons]
      rcases step.opcode with same | widened
      · simp only [same, if_true]
        omega
      · have short := (Opcode.isSome_widened?_iff old.opcode).mp (by simp [widened])
        have long := operandKind_of_widened? widened
        have differs : old.opcode ≠ new.opcode := by
          intro same
          rw [same, long] at short
          contradiction
        simp only [short, long, differs, reduceCtorEq, if_true, if_false]
        omega

/-- Layout only moves instructions and widens short branches that lead somewhere, also when it fails. -/
theorem relaidAsNeeded_layoutFrom (passes widened : Nat) (instructions : List Instruction) :
    List.Forall₂ Instruction.RelaidAsNeeded instructions (layoutFrom passes widened instructions).2 := by
  have step {offsets : Array Nat} {instructions result : List Instruction} {outcome : Except Error Nat}
      (pass : widenFrom offsets 0 (placeFrom 0 instructions) = (outcome, result)) :
      List.Forall₂ Instruction.RelaidAsNeeded instructions result :=
    forall₂_trans .trans (relaidAsNeeded_placeFrom 0 instructions) (relaidAsNeeded_of_widenFrom pass)
  fun_induction layoutFrom passes widened instructions with
  | case1 passes widened instructions error failed =>
      exact List.forall₂_same.mpr fun instruction _ => .refl instruction
  | case2 passes widened instructions places found error changed pass => exact step pass
  | case3 passes widened instructions places found changed pass => exact step pass
  | case4 passes widened instructions places found more changed pass ih => exact forall₂_trans .trans (step pass) ih

theorem relaid_layoutFrom (passes widened : Nat) (instructions : List Instruction) :
    List.Forall₂ Instruction.Relaid instructions (layoutFrom passes widened instructions).2 :=
  (relaidAsNeeded_layoutFrom passes widened instructions).imp fun _ _ needed => needed.toRelaid

/-- What passes after `passes` others, which widened `widened` branches, come to. -/
theorem layoutFrom_eq_ok {passes widened : Nat} {instructions result : List Instruction} {stats : LayoutStats}
    (wellFormed : ∀ instruction ∈ instructions, instruction.isWellFormed = true)
    (finished : layoutFrom passes widened instructions = (.ok stats, result)) :
    shortBranches result + stats.widened = shortBranches instructions + widened ∧
      stats.passes + widened ≤ stats.widened + passes + 1 ∧ stats.codeSize = size result ∧ Settled result := by
  fun_induction layoutFrom passes widened instructions with
  | case1 passes widened instructions error failed => cases finished
  | case2 passes widened instructions places found error changed pass => cases finished
  | case3 passes widened instructions places found changed pass =>
      rcases offsets_eq_ok_iff.mp found with ⟨_, rfl⟩
      cases finished
      rcases settled_of_last_pass wellFormed pass with ⟨rfl, settled⟩
      refine ⟨?_, ?_, ?_, settled⟩
      · rw [shortBranches_placeFrom]
      · simp only
        omega
      · simp
  | case4 passes widened instructions places found more changed pass ih =>
      have step := relaid_trans (relaid_placeFrom 0 instructions) (relaid_of_widenFrom pass)
      have fewer := shortBranches_of_widenFrom pass
      rw [shortBranches_placeFrom] at fewer
      rcases ih (wellFormed_of_relaid step wellFormed) finished with ⟨count, bound, codeSize, settled⟩
      exact ⟨by omega, by omega, codeSize, settled⟩

/-! ## Success -/

theorem size_widest_of_relaid {before after : List Instruction}
    (relaid : List.Forall₂ Instruction.Relaid before after) :
    size (after.map Instruction.widest) = size (before.map Instruction.widest) := by
  induction relaid with
  | nil => rfl
  | cons step _ ih => simp [step.size_widest, ih]

theorem size_le_size_widest (instructions : List Instruction) :
    size instructions ≤ size (instructions.map Instruction.widest) := by
  induction instructions with
  | nil => simp
  | cons instruction instructions ih =>
      have first := instruction.size_le_size_widest
      simp only [List.map_cons, size_cons]
      omega

/-- Whether every target is inside `count` instructions. -/
def TargetsInside (count : Nat) (instructions : List Instruction) : Prop :=
  ∀ instruction ∈ instructions, ∀ target ∈ instruction.jumpPositions, target < count

theorem targetsInside_of_relaid {count : Nat} {before after : List Instruction}
    (relaid : List.Forall₂ Instruction.Relaid before after) (inside : TargetsInside count before) :
    TargetsInside count after := by
  induction relaid with
  | nil => exact inside
  | cons step _ ih =>
      simp only [TargetsInside, List.mem_cons, forall_eq_or_imp] at inside ih ⊢
      rw [step.jumpPositions]
      exact ⟨inside.1, ih inside.2⟩

/-- In code of less than two GiB, every displacement to a target inside exists and fits four bytes. -/
theorem displacement_of_small {instructions : List Instruction} {position target next : Nat}
    (small : size instructions < 2 ^ 31) (nextInside : next ≤ size instructions)
    (targetInside : target < instructions.length) :
    ∃ distance, displacement (offsetsFrom 0 instructions).toArray position next target = .ok distance ∧
      fitsWord distance = true := by
  have count := length_le_size instructions
  have before := size_take_le instructions target
  refine ⟨_, displacement_eq_ok_iff.mpr ⟨?_, targetInside, rfl⟩, ?_⟩
  · simp only [indexLimit]
    omega
  · simp only [fitsWord, Bool.and_eq_true, decide_eq_true_eq]
    omega

theorem exists_widening?_of_small {instructions : List Instruction} {position : Nat} {instruction : Instruction}
    (small : size instructions < 2 ^ 31)
    (nextInside : instruction.offset + instruction.size ≤ size instructions)
    (targetsInside : ∀ target ∈ instruction.jumpPositions, target < instructions.length) :
    ∃ change, widening? (offsetsFrom 0 instructions).toArray position instruction = .ok change := by
  have reach : ∀ target ∈ instruction.jumpPositions, ∃ distance,
      displacement (offsetsFrom 0 instructions).toArray position (instruction.offset + instruction.size) target =
        .ok distance ∧ fitsWord distance = true :=
    fun target targetMem => displacement_of_small small nextInside (targetsInside target targetMem)
  unfold widening?
  split
  case h_1 short =>
      rcases Fallible.exists_mapM_eq_ok
        (fun target targetMem => (reach target targetMem).imp fun _ both => both.1) with ⟨distances, computed⟩
      rcases Option.isSome_iff_exists.mp ((Opcode.isSome_widened?_iff _).mpr short) with ⟨wide, pair⟩
      by_cases allFit : distances.all fitsByte = true
      · exact ⟨none, Fallible.bind_eq_ok_iff.mpr ⟨distances, computed, by rw [if_pos allFit]; rfl⟩⟩
      · refine ⟨some wide, Fallible.bind_eq_ok_iff.mpr ⟨distances, computed, ?_⟩⟩
        rw [if_neg allFit]
        simp only [pair]
        rfl
  case h_2 | h_3 =>
      exact ⟨none, Fallible.bind_eq_ok_iff.mpr ⟨(), checked_eq_ok_iff.mpr reach, rfl⟩⟩
  case h_4 => exact ⟨none, rfl⟩

theorem exists_widenFrom_of_small {instructions : List Instruction} {position : Nat} {part : List Instruction}
    (small : size instructions < 2 ^ 31) (targetsInside : TargetsInside instructions.length part)
    (partInside : ∀ instruction ∈ part, instruction.offset + instruction.size ≤ size instructions) :
    ∃ count result, widenFrom (offsetsFrom 0 instructions).toArray position part = (.ok count, result) := by
  induction part generalizing position with
  | nil => exact ⟨0, [], rfl⟩
  | cons instruction part ih =>
      simp only [TargetsInside, List.mem_cons, forall_eq_or_imp] at targetsInside partInside
      rcases exists_widening?_of_small small partInside.1 targetsInside.1 with ⟨change, found⟩
      have others : ∃ count result, widenFrom _ (position + 1) part = (.ok count, result) :=
        ih targetsInside.2 partInside.2
      rcases others with ⟨count, result, more⟩
      rw [widenFrom, found]
      simp only [more]
      cases change with
      | none => exact ⟨count, _, rfl⟩
      | some wide => exact ⟨count + 1, _, rfl⟩

theorem end_le_size_of_mem_placeFrom {instructions : List Instruction} {instruction : Instruction}
    (placedMem : instruction ∈ placeFrom 0 instructions) :
    instruction.offset + instruction.size ≤ size instructions := by
  rcases List.mem_iff_getElem?.mp placedMem with ⟨position, found⟩
  have offset := isPlaced_placeFrom instructions position instruction found
  have next := size_take_succ found
  have bound := size_take_le (placeFrom 0 instructions) (position + 1)
  rw [size_placeFrom] at bound
  omega

theorem exists_pass_of_small {instructions : List Instruction}
    (targetsInside : TargetsInside instructions.length instructions)
    (small : size (instructions.map Instruction.widest) < 2 ^ 31) :
    ∃ count result, offsets instructions = .ok (offsetsFrom 0 instructions) ∧
      widenFrom (offsetsFrom 0 instructions).toArray 0 (placeFrom 0 instructions) = (.ok count, result) := by
  have grown := size_le_size_widest instructions
  have pass : ∃ count result, widenFrom (offsetsFrom 0 instructions).toArray 0 (placeFrom 0 instructions) =
      (.ok count, result) :=
    exists_widenFrom_of_small (by omega)
      (targetsInside_of_relaid (relaid_placeFrom 0 instructions) targetsInside)
      (fun _ => end_le_size_of_mem_placeFrom)
  rcases pass with ⟨count, result, pass⟩
  exact ⟨count, result, offsets_eq_ok_iff.mpr ⟨by omega, rfl⟩, pass⟩

theorem exists_layoutFrom_of_small {passes widened : Nat} {instructions : List Instruction}
    (targetsInside : TargetsInside instructions.length instructions)
    (small : size (instructions.map Instruction.widest) < 2 ^ 31) :
    ∃ stats result, layoutFrom passes widened instructions = (.ok stats, result) := by
  fun_induction layoutFrom passes widened instructions with
  | case1 passes widened instructions error failed =>
      rcases exists_pass_of_small targetsInside small with ⟨count, between, found, _⟩
      rw [found] at failed
      cases failed
  | case2 passes widened instructions places sameOffsets error changed failed =>
      rcases exists_pass_of_small targetsInside small with ⟨count, between, found, pass⟩
      rw [found] at sameOffsets
      cases sameOffsets
      rw [pass] at failed
      cases failed
  | case3 passes widened instructions places sameOffsets changed last => exact ⟨_, _, rfl⟩
  | case4 passes widened instructions places sameOffsets more changed pass ih =>
      have step := relaid_trans (relaid_placeFrom 0 instructions) (relaid_of_widenFrom pass)
      apply ih
      · rw [← step.length_eq]
        exact targetsInside_of_relaid step targetsInside
      · rw [size_widest_of_relaid step]
        exact small

/-! ## Failure -/

theorem displacement_ne_notWidenable (offsets : Array Nat) (position next target place : Nat) (opcode : Opcode) :
    displacement offsets position next target ≠ .error (.structural (.notWidenable opcode place)) := by
  unfold displacement
  split
  · simp
  · split <;> simp

/-- No short branch lacks a long one, whatever its operand and wherever it stands. -/
theorem widening?_ne_notWidenable (offsets : Array Nat) (position place : Nat) (instruction : Instruction)
    (opcode : Opcode) :
    widening? offsets position instruction ≠ .error (.structural (.notWidenable opcode place)) := by
  intro failed
  unfold widening? at failed
  split at failed
  case h_1 short =>
      rcases Fallible.bind_eq_error_iff.mp failed with first | ⟨distances, _, rest⟩
      · rcases Fallible.exists_of_mapM_eq_error first with ⟨target, _, impossible⟩
        exact displacement_ne_notWidenable _ _ _ _ _ _ impossible
      · rcases Option.isSome_iff_exists.mp ((Opcode.isSome_widened?_iff _).mpr short) with ⟨wide, pair⟩
        simp only [pair] at rest
        split at rest <;> cases rest
  case h_2 | h_3 =>
      rcases Fallible.bind_eq_error_iff.mp failed with checked | ⟨_, _, impossible⟩
      · rcases Fallible.exists_of_forM_eq_error checked with ⟨target, _, step⟩
        rcases Fallible.bind_eq_error_iff.mp step with outside | ⟨distance, _, tooFar⟩
        · exact displacement_ne_notWidenable _ _ _ _ _ _ outside
        · split at tooFar <;> cases tooFar
      · cases impossible
  case h_4 => cases failed

theorem exists_of_widenFrom_eq_error {offsets : Array Nat} {position : Nat} {error : Error}
    {instructions result : List Instruction}
    (failed : widenFrom offsets position instructions = (.error error, result)) :
    ∃ place instruction, widening? offsets place instruction = .error error := by
  induction instructions generalizing position result with
  | nil => cases failed
  | cons instruction instructions ih =>
      rw [widenFrom] at failed
      cases found : widening? offsets position instruction with
      | error first =>
          simp only [found, Prod.mk.injEq, Except.error.injEq] at failed
          exact ⟨position, instruction, by rw [found, failed.1]⟩
      | ok change =>
          rcases more : widenFrom offsets (position + 1) instructions with ⟨others, rest⟩
          simp only [found, more] at failed
          cases others with
          | error later =>
              have same : later = error := by
                cases change <;> cases failed <;> rfl
              subst same
              exact ih more
          | ok others => cases change <;> cases failed

theorem layoutFrom_ne_notWidenable (passes widened place : Nat) (instructions : List Instruction) (opcode : Opcode) :
    (layoutFrom passes widened instructions).1 ≠ .error (.structural (.notWidenable opcode place)) := by
  fun_induction layoutFrom passes widened instructions with
  | case1 passes widened instructions error failed =>
      unfold offsets at failed
      split at failed <;> cases failed
      simp
  | case2 passes widened instructions places found error changed failed =>
      rcases exists_of_widenFrom_eq_error failed with ⟨position, instruction, cause⟩
      simp only [ne_eq, Except.error.injEq]
      rintro rfl
      exact widening?_ne_notWidenable _ _ _ _ _ cause
  | case3 => simp
  | case4 passes widened instructions places found more changed pass ih => exact ih

/-! ## Layout as a whole -/

/-- Layout comes to an end on code whose operands fit. If it succeeds, it has moved instructions and widened the
number of short branches that it tells, nothing else, and the code is settled; it took at most one pass more than
it widened branches. It succeeds whenever targets are inside and the code would take less than two GiB with every
short branch widened. It never lacks a long opcode. -/
theorem layout_settles (instructions : List Instruction)
    (wellFormed : ∀ instruction ∈ instructions, instruction.isWellFormed = true) :
    (∀ stats result, layout instructions = (.ok stats, result) →
      List.Forall₂ Instruction.Relaid instructions result ∧ widenings instructions result = stats.widened ∧
        Settled result ∧ stats.codeSize = size result ∧ stats.passes ≤ stats.widened + 1) ∧
    (TargetsInside instructions.length instructions → size (instructions.map Instruction.widest) < 2 ^ 31 →
      ∃ stats result, layout instructions = (.ok stats, result)) ∧
    ∀ opcode position, (layout instructions).1 ≠ .error (.structural (.notWidenable opcode position)) := by
  refine ⟨?_, ?_, ?_⟩
  · intro stats result finished
    have relaid : List.Forall₂ Instruction.Relaid instructions (layout instructions).2 :=
      relaid_layoutFrom 0 0 instructions
    rw [finished] at relaid
    rcases layoutFrom_eq_ok wellFormed finished with ⟨count, passes, codeSize, settled⟩
    have widened : shortBranches result + widenings instructions result = shortBranches instructions :=
      shortBranches_add_widenings relaid
    exact ⟨relaid, by omega, settled, codeSize, by omega⟩
  · exact exists_layoutFrom_of_small
  · intro opcode position
    exact layoutFrom_ne_notWidenable 0 0 position instructions opcode

/-- A short branch over a jump table that is longer than a short branch can reach. -/
def branchOverTable : List Instruction :=
  [.unplaced .brS (.target 2), .unplaced .switch (.targets (List.replicate 40 0)), .unplaced .ret .none]

theorem layout_settles_branchOverTable :
    (∀ instruction ∈ branchOverTable, instruction.isWellFormed = true) ∧
      TargetsInside branchOverTable.length branchOverTable ∧
      size (branchOverTable.map Instruction.widest) < 2 ^ 31 ∧
      (∃ stats result, layout branchOverTable = (.ok stats, result)) ∧
      layout branchOverTable = (.ok ⟨2, 1, 171⟩, (layout branchOverTable).2) ∧
      widenings branchOverTable (layout branchOverTable).2 = 1 ∧ Settled (layout branchOverTable).2 := by
  have wellFormed : ∀ instruction ∈ branchOverTable, instruction.isWellFormed = true := by decide
  have targetsInside : TargetsInside branchOverTable.length branchOverTable := by
    unfold TargetsInside
    decide
  have small : size (branchOverTable.map Instruction.widest) < 2 ^ 31 := by decide
  have finished : layout branchOverTable = (.ok ⟨2, 1, 171⟩, (layout branchOverTable).2) := by decide +kernel
  rcases layout_settles branchOverTable wellFormed with ⟨settles, succeeds, _⟩
  rcases settles _ _ finished with ⟨_, widened, settled, _⟩
  exact ⟨wellFormed, targetsInside, small, succeeds targetsInside small, finished, widened, settled⟩

end Code

end CilRelink
