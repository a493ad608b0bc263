import CilRelink.Code.Offsets

/-!
# Layout

Layout gives each instruction its offset and widens the short branches that do not reach their targets. As widening
one branch moves what follows it, passes are repeated until one widens nothing. Each pass but the last leaves fewer
short branches, so there is a last one.

A pass that fails leaves the list as it was at that point: with the offsets of the pass, and with the branches
widened that come before the failure.
-/
namespace CilRelink.Code

/-- What a layout did. -/
structure LayoutStats where
  passes : Nat
  widened : Nat
  codeSize : Nat
deriving DecidableEq

/-- The opcode that a placed instruction has to be given so that it reaches its targets, if it needs another. -/
def widening? (offsets : Array Nat) (position : Nat) (instruction : Instruction) : Except Error (Option Opcode) :=
  let distance := displacement offsets position (instruction.offset + instruction.size)
  match instruction.opcode.operandKind with
  | .shortBranch => do
    let distances ← instruction.jumpPositions.mapM distance
    if distances.all fitsByte then return none
    match instruction.opcode.widened? with
    | some opcode => return some opcode
    | none => throw (.structural (.notWidenable instruction.opcode position))
  | .branch | .switch => do
    instruction.jumpPositions.forM fun target => do
      let wide ← distance target
      if !fitsWord wide then throw (.structural (.displacementTooWide position wide))
    return none
  | _ => return none

/-- Widens the branches among placed instructions, the first of which is at `position`, that do not reach their
targets, and counts them. -/
def widenFrom (offsets : Array Nat) : (position : Nat) → List Instruction → Except Error Nat × List Instruction
  | _, [] => (.ok 0, [])
  | position, instruction :: instructions =>
    match widening? offsets position instruction with
    | .error error => (.error error, instruction :: instructions)
    | .ok change =>
      let (count, rest) := widenFrom offsets (position + 1) instructions
      match change with
      | none => (count, instruction :: rest)
      | some opcode => ((· + 1) <$> count, { instruction with opcode } :: rest)

/-- The number of short branches. -/
def shortBranches (instructions : List Instruction) : Nat := instructions.countP Instruction.isShortBranch

theorem shortBranches_placeFrom (start : Nat) (instructions : List Instruction) :
    shortBranches (placeFrom start instructions) = shortBranches instructions := by
  induction instructions generalizing start with
  | nil => rfl
  | cons instruction instructions ih =>
    have := ih (start + instruction.size)
    simp only [shortBranches, placeFrom, List.countP_cons] at *
    rw [this]
    rfl

theorem operandKind_of_widened? {opcode wide : Opcode} (found : opcode.widened? = some wide) :
    wide.operandKind = .branch := by
  cases opcode <;> simp [Opcode.widened?] at found <;> subst found <;> rfl

theorem short_of_widening? {offsets : Array Nat} {position : Nat} {instruction : Instruction} {wide : Opcode}
    (found : widening? offsets position instruction = .ok (some wide)) :
    instruction.isShortBranch = true ∧ wide.operandKind = .branch := by
  unfold widening? at found
  split at found
  · rename_i kind
    refine ⟨by simp [Instruction.isShortBranch, kind], ?_⟩
    simp only [bind, Except.bind] at found
    split at found
    · cases found
    · split at found
      · cases found
      · split at found
        · rename_i pair
          cases found
          exact operandKind_of_widened? pair
        · cases found
  · simp only [bind, Except.bind] at found
    split at found <;> cases found
  · simp only [bind, Except.bind] at found
    split at found <;> cases found
  · cases found

theorem shortBranches_of_widenFrom {offsets : Array Nat} {position count : Nat}
    {instructions result : List Instruction}
    (step : widenFrom offsets position instructions = (.ok count, result)) :
    shortBranches result + count = shortBranches instructions := by
  induction instructions generalizing position count result with
  | nil =>
    cases step
    rfl
  | cons instruction instructions ih =>
    rw [widenFrom] at step
    cases found : widening? offsets position instruction with
    | error error => simp [found] at step
    | ok change =>
      rcases more : widenFrom offsets (position + 1) instructions with ⟨others, rest⟩
      simp only [found, more] at step
      cases change with
      | none =>
        cases step
        have := ih more
        simp only [shortBranches, List.countP_cons] at *
        omega
      | some wide =>
        obtain ⟨short, kind⟩ := short_of_widening? found
        cases others with
        | error error => cases step
        | ok others =>
          cases step
          have := ih more
          have long : Instruction.isShortBranch { instruction with opcode := wide } = false := by
            simp [Instruction.isShortBranch, kind]
          simp only [shortBranches, List.countP_cons, short, long] at *
          simp
          omega

/-- Repeats passes until one widens nothing, after `passes` passes that widened `widened` branches. -/
def layoutFrom (passes widened : Nat) (instructions : List Instruction) :
    Except Error LayoutStats × List Instruction :=
  match offsets instructions with
  | .error error => (.error error, instructions)
  | .ok places =>
    match step : widenFrom places.toArray 0 (placeFrom 0 instructions) with
    | (.error error, result) => (.error error, result)
    | (.ok 0, result) => (.ok ⟨passes + 1, widened, size instructions⟩, result)
    | (.ok (more + 1), result) => layoutFrom (passes + 1) (widened + more + 1) result
termination_by shortBranches instructions
decreasing_by
  have := shortBranches_of_widenFrom step
  rw [shortBranches_placeFrom] at this
  omega

/-- Lays out the instructions: places them and widens short branches until all branches reach. -/
def layout (instructions : List Instruction) : Except Error LayoutStats × List Instruction :=
  layoutFrom 0 0 instructions

end CilRelink.Code
