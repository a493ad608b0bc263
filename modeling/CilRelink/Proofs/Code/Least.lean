import Mathlib.Data.Finset.Lattice.Basic
import Mathlib.Order.Bounds.Defs
import CilRelink.Proofs.Code.Stability

/-!
# Layout widens the least

Any short branches may be widened by hand. If those that are left reach their targets, then layout has widened none but
these: as long as it has not, no instruction is longer than in the code that was widened by hand, so no distance is
longer either, in neither direction, and a branch that reaches its target over the longer distance reaches it over the
shorter one. What layout widens is enough itself, so it is the least that is.
-/

namespace CilRelink

namespace Code

variable {code current result : List Instruction} {chosen : Finset Nat} {stats : LayoutStats} {position : Nat}
variable {before after : Instruction}

/-- The code with the short branches at the chosen positions widened. -/
def widenAt (chosen : Finset Nat) (code : List Instruction) : List Instruction :=
  code.mapIdx fun position instruction => if position ∈ chosen then instruction.widest else instruction

/-- Whether it is enough to widen the chosen short branches: with the offsets that follow, each short branch that is
left reaches its targets. -/
structure Suffices (code : List Instruction) (chosen : Finset Nat) : Prop where
  areShort : ∀ position ∈ chosen, ∃ branch, code[position]? = some branch ∧ branch.isShortBranch = true
  reach : ∀ (position : Nat) (branch : Instruction), (placeFrom 0 (widenAt chosen code))[position]? = some branch →
    branch.isShortBranch = true → ∀ target ∈ branch.jumpPositions, ∀ destination,
      (placeFrom 0 (widenAt chosen code))[target]? = some destination →
        branch.CanReach ((destination.offset : Int) - (branch.offset + branch.size : Nat))

/-- The positions at which the second list has another opcode. -/
def widened (before after : List Instruction) : Finset Nat :=
  (Finset.range before.length).filter fun position =>
    before[position]?.map Instruction.opcode ≠ after[position]?.map Instruction.opcode

theorem mem_widened_iff (atBefore : code[position]? = some before) (atAfter : result[position]? = some after) :
    position ∈ widened code result ↔ before.opcode ≠ after.opcode := by
  have inside := (List.getElem?_eq_some_iff.mp atBefore).1
  simp only [widened, Finset.mem_filter, Finset.mem_range, inside, true_and, atBefore, atAfter, Option.map_some,
    ne_eq, Option.some.injEq]

theorem exists_of_mem_widened (positionMem : position ∈ widened code result) :
    ∃ before, code[position]? = some before :=
  ⟨_, List.getElem?_eq_getElem (Finset.mem_range.mp (Finset.mem_filter.mp positionMem).1)⟩

theorem getElem?_widenAt (chosen : Finset Nat) (code : List Instruction) (position : Nat) :
    (widenAt chosen code)[position]? =
      code[position]?.map fun instruction => if position ∈ chosen then instruction.widest else instruction :=
  List.getElem?_mapIdx

@[simp]
theorem length_widenAt (chosen : Finset Nat) (code : List Instruction) : (widenAt chosen code).length = code.length :=
  List.length_mapIdx

theorem exists_of_forall₂ {relation : Instruction → Instruction → Prop} (each : List.Forall₂ relation code result)
    (atBefore : code[position]? = some before) : ∃ after, result[position]? = some after ∧ relation before after := by
  induction each generalizing position with
  | nil => simp at atBefore
  | cons step _ ih =>
      cases position with
      | zero =>
          simp only [List.getElem?_cons_zero, Option.some.injEq] at atBefore ⊢
          subst atBefore
          exact ⟨_, rfl, step⟩
      | succ position => exact ih (by simpa using atBefore)

/-! ## Longer code has longer distances -/

theorem size_take_add_le {shorter longer : List Instruction}
    (each : List.Forall₂ (fun short long => short.size ≤ long.size) shorter longer) {first last : Nat}
    (order : first ≤ last) :
    size (shorter.take last) + size (longer.take first) ≤ size (longer.take last) + size (shorter.take first) := by
  induction each generalizing first last with
  | nil => simp
  | @cons short long shorter longer step _ ih =>
      rcases last with _ | last
      · simp [Nat.le_zero.mp order]
      · rcases first with _ | first
        · have rest := ih (Nat.zero_le last)
          simp only [List.take_succ_cons, List.take_zero, size_cons, size_nil] at rest ⊢
          omega
        · have rest := ih (Nat.le_of_succ_le_succ order)
          simp only [List.take_succ_cons, size_cons] at rest ⊢
          omega

/-- A branch that reaches its target in longer code reaches it in the shorter code too. -/
theorem fitsByte_of_longer {shorter longer : List Instruction}
    (each : List.Forall₂ (fun short long => short.size ≤ long.size) shorter longer) (next target : Nat)
    (fits : fitsByte ((size (longer.take target) : Int) - size (longer.take next)) = true) :
    fitsByte ((size (shorter.take target) : Int) - size (shorter.take next)) = true := by
  simp only [fitsByte, Bool.and_eq_true, decide_eq_true_eq] at fits ⊢
  rcases Nat.le_total next target with ahead | behind
  · have distance := size_take_add_le each ahead
    have order := size_take_le (shorter.take target) next
    rw [List.take_take, Nat.min_eq_left ahead] at order
    omega
  · have distance := size_take_add_le each behind
    have order := size_take_le (shorter.take next) target
    rw [List.take_take, Nat.min_eq_left behind] at order
    omega

/-! ## One pass -/

/-- A branch is widened for a target that it does not reach. -/
theorem exists_far_of_widening?_some {offsets : Array Nat} {instruction : Instruction} {wide : Opcode}
    (found : widening? offsets position instruction = .ok (some wide)) :
    ∃ target ∈ instruction.jumpPositions, ∃ distance,
      displacement offsets position (instruction.offset + instruction.size) target = .ok distance ∧
        fitsByte distance = false := by
  have short := (short_of_widening? found).1
  simp only [Instruction.isShortBranch, decide_eq_true_eq] at short
  simp only [widening?, short] at found
  rcases Fallible.bind_eq_ok_iff.mp found with ⟨distances, computed, rest⟩
  have someFar : ∃ distance ∈ distances, fitsByte distance = false := by
    by_contra near
    rw [if_pos (by simpa using near)] at rest
    cases rest
  rcases someFar with ⟨distance, distanceMem, far⟩
  rcases List.forall₂_iff_get.mp (Fallible.mapM_eq_ok_iff.mp computed) with ⟨sameLength, each⟩
  rcases List.mem_iff_get.mp distanceMem with ⟨index, rfl⟩
  have inside : index.1 < instruction.jumpPositions.length := by omega
  exact ⟨_, List.get_mem _ ⟨index.1, inside⟩, _, each index.1 inside index.2, far⟩

/-- A pass changes an opcode only where the branch is to be widened. -/
theorem widening?_of_widenFrom {offsets : Array Nat} {start count : Nat} {part next : List Instruction}
    (pass : widenFrom offsets start part = (.ok count, next)) (atBefore : part[position]? = some before)
    (atAfter : next[position]? = some after) (differ : before.opcode ≠ after.opcode) :
    widening? offsets (start + position) before = .ok (some after.opcode) := by
  induction part generalizing start count next position with
  | nil => simp at atBefore
  | cons instruction part ih =>
      rcases widenFrom_cons_eq_ok pass with ⟨rest, step⟩
      cases position with
      | zero =>
          simp only [List.getElem?_cons_zero, Option.some.injEq] at atBefore
          subst atBefore
          rcases step with ⟨_, _, rfl⟩ | ⟨wide, others, found, _, _, rfl⟩
          · cases atAfter
            exact absurd rfl differ
          · cases atAfter
            exact found
      | succ position =>
          have more : ∃ others,
              widenFrom offsets (start + 1) part = (.ok others, rest) ∧ rest[position]? = some after := by
            rcases step with ⟨_, more, rfl⟩ | ⟨wide, others, _, more, _, rfl⟩
            · exact ⟨count, more, by simpa using atAfter⟩
            · exact ⟨others, more, by simpa using atAfter⟩
          rcases more with ⟨others, more, atLater⟩
          have later := ih more (by simpa using atBefore) atLater
          rwa [Nat.add_assoc, Nat.add_comm 1] at later

/-! ## All passes -/

/-- As long as nothing but chosen branches is widened, no instruction is longer than with all of them widened. -/
theorem sizes_le_widenAt (relaid : List.Forall₂ Instruction.Relaid code current)
    (within : widened code current ⊆ chosen) :
    List.Forall₂ (fun short long => short.size ≤ long.size) current (widenAt chosen code) := by
  rw [List.forall₂_iff_get]
  refine ⟨by simp [relaid.length_eq], ?_⟩
  intro position insideCurrent insideChosen
  have inside : position < code.length := by simpa using insideChosen
  have atBefore : code[position]? = some code[position] := List.getElem?_eq_getElem inside
  rcases exists_of_forall₂ relaid atBefore with ⟨after, atAfter, step⟩
  have sameAfter : current.get ⟨position, insideCurrent⟩ = after := by
    simpa [List.getElem?_eq_getElem insideCurrent] using atAfter
  have sameChosen : (widenAt chosen code).get ⟨position, insideChosen⟩ =
      if position ∈ chosen then code[position].widest else code[position] := by
    have atChosen := getElem?_widenAt chosen code position
    rw [atBefore, List.getElem?_eq_getElem insideChosen, Option.map_some, Option.some.injEq] at atChosen
    exact atChosen
  rw [sameAfter, sameChosen]
  split
  · rw [← step.size_widest]
    exact after.size_le_size_widest
  · rename_i notChosen
    have sameOpcode : code[position].opcode = after.opcode := by
      by_contra differ
      exact notChosen (within ((mem_widened_iff atBefore atAfter).mpr differ))
    simp [Instruction.size, Instruction.operandSize, sameOpcode, step.operand]

/-- What suffices says about a short branch that is left, in sizes of code. -/
theorem Suffices.fitsByte (enough : Suffices code chosen) (atBefore : code[position]? = some before)
    (notChosen : position ∉ chosen) (short : before.isShortBranch = true) {target : Nat}
    (targetMem : target ∈ before.jumpPositions) (inside : target < code.length) :
    Code.fitsByte ((size ((widenAt chosen code).take target) : Int) -
      size ((widenAt chosen code).take (position + 1))) = true := by
  have atChosen : (widenAt chosen code)[position]? = some before := by
    rw [getElem?_widenAt, atBefore, Option.map_some, if_neg notChosen]
  have targetInside : target < (widenAt chosen code).length := by rwa [length_widenAt]
  have reaches := enough.reach position { before with offset := size ((widenAt chosen code).take position) }
    (by rw [getElem?_placeFrom, atChosen, Option.map_some, Nat.zero_add]) short target targetMem _
    (by rw [getElem?_placeFrom, List.getElem?_eq_getElem targetInside, Option.map_some, Nat.zero_add])
  have next : size ((widenAt chosen code).take (position + 1)) =
      size ((widenAt chosen code).take position) + before.size := size_take_succ atChosen
  rw [next]
  exact fitsByte_of_canReach short reaches

/-- A branch that does not reach its target in the code so far is among the chosen ones. -/
theorem Suffices.mem_of_widening?_some (enough : Suffices code chosen)
    (relaid : List.Forall₂ Instruction.Relaid code current) (within : widened code current ⊆ chosen)
    (atBefore : code[position]? = some before) (atCurrent : current[position]? = some after)
    (same : before.opcode = after.opcode) {wide : Opcode}
    (found : widening? (offsetsFrom 0 current).toArray position
      { after with offset := size (current.take position) } = .ok (some wide)) : position ∈ chosen := by
  by_contra notChosen
  rcases exists_far_of_widening?_some found with ⟨target, targetMem, distance, computed, far⟩
  rcases displacement_eq_ok_iff.mp computed with ⟨_, inside, rfl⟩
  rcases exists_of_forall₂ relaid atBefore with ⟨_, atCurrent', step⟩
  rw [atCurrent, Option.some.injEq] at atCurrent'
  subst atCurrent'
  have short : before.isShortBranch = true := by
    have placedShort := (short_of_widening? found).1
    rw [Instruction.isShortBranch, same]
    exact placedShort
  have reaches := enough.fitsByte atBefore notChosen short
    (by rw [← step.jumpPositions]; exact targetMem) (by rw [relaid.length_eq]; exact inside)
  have nearer := fitsByte_of_longer (sizes_le_widenAt relaid within) (position + 1) target reaches
  have next : size (current.take (position + 1)) = size (current.take position) + after.size :=
    size_take_succ atCurrent
  rw [next] at nearer
  exact Bool.false_ne_true (far.symm.trans nearer)

/-- One pass: if nothing but chosen branches was widened, then nothing but chosen branches is widened after it. -/
theorem Suffices.widened_of_widenFrom (enough : Suffices code chosen)
    (relaid : List.Forall₂ Instruction.Relaid code current) (within : widened code current ⊆ chosen) {count : Nat}
    (pass : widenFrom (offsetsFrom 0 current).toArray 0 (placeFrom 0 current) = (.ok count, result)) :
    widened code result ⊆ chosen := by
  have placed := relaid_placeFrom 0 current
  have relaidAfter := relaid_trans relaid (relaid_trans placed (relaid_of_widenFrom pass))
  intro position positionMem
  rcases exists_of_mem_widened positionMem with ⟨before, atBefore⟩
  rcases exists_of_forall₂ relaid atBefore with ⟨middle, atCurrent, _⟩
  rcases exists_of_forall₂ relaidAfter atBefore with ⟨after, atAfter, _⟩
  rw [mem_widened_iff atBefore atAfter] at positionMem
  by_cases earlier : before.opcode = middle.opcode
  · have atPlaced : (placeFrom 0 current)[position]? =
        some { middle with offset := size (current.take position) } := by
      rw [getElem?_placeFrom, atCurrent, Option.map_some, Nat.zero_add]
    have found := widening?_of_widenFrom pass atPlaced atAfter (by rw [earlier] at positionMem; exact positionMem)
    rw [Nat.zero_add] at found
    exact enough.mem_of_widening?_some relaid within atBefore atCurrent earlier found
  · exact within ((mem_widened_iff atBefore atCurrent).mpr earlier)

/-- All passes. -/
theorem Suffices.widened_of_layoutFrom (enough : Suffices code chosen)
    (relaid : List.Forall₂ Instruction.Relaid code current) (within : widened code current ⊆ chosen)
    {passes count : Nat} (finished : layoutFrom passes count current = (.ok stats, result)) :
    widened code result ⊆ chosen := by
  fun_induction layoutFrom passes count current with
  | case1 passes count current error failed => cases finished
  | case2 passes count current places found error changed pass => cases finished
  | case3 passes count current places found changed pass =>
      rcases offsets_eq_ok_iff.mp found with ⟨_, rfl⟩
      cases finished
      exact enough.widened_of_widenFrom relaid within pass
  | case4 passes count current places found more changed pass ih =>
      rcases offsets_eq_ok_iff.mp found with ⟨_, rfl⟩
      have step := relaid_trans (relaid_placeFrom 0 current) (relaid_of_widenFrom pass)
      exact ih (relaid_trans relaid step) (enough.widened_of_widenFrom relaid within pass) finished

/-! ## What layout widens suffices -/

/-- Where instructions are placed depends on their opcodes and operands alone. -/
theorem placeFrom_congr {left right : List Instruction} (start : Nat)
    (same : left.map (fun instruction => (instruction.opcode, instruction.operand)) =
      right.map fun instruction => (instruction.opcode, instruction.operand)) :
    placeFrom start left = placeFrom start right := by
  induction left generalizing right start with
  | nil =>
      rw [List.map_nil, eq_comm, List.map_eq_nil_iff] at same
      rw [same]
  | cons first left ih =>
      cases right with
      | nil => cases same
      | cons other right =>
          simp only [List.map_cons, List.cons.injEq, Prod.mk.injEq] at same
          rcases same with ⟨⟨sameOpcode, sameOperand⟩, rest⟩
          have sameSize : first.size = other.size := by
            simp only [Instruction.size, Instruction.operandSize, sameOpcode, sameOperand]
          simp only [placeFrom, sameOpcode, sameOperand, sameSize, ih _ rest]

/-- Code that layout may have made of other code is that code with the branches widened that it has widened. -/
theorem placeFrom_widenAt_widened (relaid : List.Forall₂ Instruction.Relaid code result) (placed : IsPlaced result) :
    placeFrom 0 (widenAt (widened code result) code) = result := by
  rw [← placed.placeFrom_eq]
  apply placeFrom_congr
  apply List.ext_getElem?
  intro position
  rw [placed.placeFrom_eq, List.getElem?_map, List.getElem?_map, getElem?_widenAt]
  cases atBefore : code[position]? with
  | none =>
      have outside : result[position]? = none := by
        rw [List.getElem?_eq_none_iff, ← relaid.length_eq]
        exact List.getElem?_eq_none_iff.mp atBefore
      rw [outside]
      rfl
  | some before =>
      rcases exists_of_forall₂ relaid atBefore with ⟨after, atAfter, step⟩
      simp only [atAfter, Option.map_some, mem_widened_iff atBefore atAfter]
      by_cases same : before.opcode = after.opcode
      · rw [if_neg (not_not_intro same), same, step.operand]
      · rw [if_pos same, step.operand, Instruction.widest, step.opcode.resolve_left (Ne.symm same)]
        rfl

theorem suffices_widened (relaid : List.Forall₂ Instruction.Relaid code result) (settled : Settled result) :
    Suffices code (widened code result) := by
  have same := placeFrom_widenAt_widened relaid settled.placed
  constructor
  · intro position positionMem
    rcases exists_of_mem_widened positionMem with ⟨before, atBefore⟩
    rcases exists_of_forall₂ relaid atBefore with ⟨after, atAfter, step⟩
    have differ := (mem_widened_iff atBefore atAfter).mp positionMem
    have hasLong := step.opcode.resolve_left (Ne.symm differ)
    have short := (Opcode.isSome_widened?_iff _).mp (Option.isSome_of_eq_some hasLong)
    exact ⟨_, atBefore, by simp [Instruction.isShortBranch, short]⟩
  · intro position branch atBranch _ target targetMem destination atTarget
    rw [same] at atBranch atTarget
    rcases settled.reaches position branch atBranch target targetMem with ⟨other, atTarget', reaches⟩
    rw [atTarget, Option.some.injEq] at atTarget'
    rwa [atTarget']

theorem size_lt_of_layoutFrom {passes count : Nat} (finished : layoutFrom passes count current = (.ok stats, result))
    (wellFormed : ∀ instruction ∈ current, instruction.isWellFormed = true) : size result < 2 ^ 32 := by
  fun_induction layoutFrom passes count current with
  | case1 passes count current error failed => cases finished
  | case2 passes count current places found error changed pass => cases finished
  | case3 passes count current places found changed pass =>
      rcases offsets_eq_ok_iff.mp found with ⟨small, rfl⟩
      cases finished
      rw [(settled_of_last_pass wellFormed pass).1, size_placeFrom]
      exact small
  | case4 passes count current places found more changed pass ih =>
      have step := relaid_trans (relaid_placeFrom 0 current) (relaid_of_widenFrom pass)
      exact ih finished (wellFormed_of_relaid step wellFormed)

/-- The branches that layout widens are the least that suffice, and code that was laid out is left as it is by another
layout, which takes one pass. -/
theorem layout_widens_least (wellFormed : ∀ instruction ∈ code, instruction.isWellFormed = true)
    (finished : layout code = (.ok stats, result)) :
    IsLeast {chosen | Suffices code chosen} (widened code result) ∧
      layout result = (.ok ⟨1, 0, size result⟩, result) := by
  have relaid : List.Forall₂ Instruction.Relaid code result := by
    have laidOut := relaid_layoutFrom 0 0 code
    rwa [← layout, finished] at laidOut
  rcases layoutFrom_eq_ok wellFormed finished with ⟨_, _, _, settled⟩
  refine ⟨⟨suffices_widened relaid settled, ?_⟩, layout_of_settled settled (size_lt_of_layoutFrom finished wellFormed)⟩
  intro chosen enough
  have self : List.Forall₂ Instruction.Relaid code code := List.forall₂_same.mpr fun instruction _ => .refl instruction
  have nothing : widened code code ⊆ chosen := by
    simp [widened]
  exact enough.widened_of_layoutFrom self nothing finished

/-- A short branch that just reaches over another until that one is widened, and a third that stays short. -/
def chainOfBranches : List Instruction :=
  [.unplaced .brS (.target 3), .unplaced .brS (.target 4), .unplaced .switch (.targets (List.replicate 30 0)),
    .unplaced .switch (.targets (List.replicate 30 4)), .unplaced .brS (.target 5), .unplaced .ret .none]

theorem layout_widens_least_chainOfBranches :
    (∀ instruction ∈ chainOfBranches, instruction.isWellFormed = true) ∧
      layout chainOfBranches = (.ok ⟨3, 2, 263⟩, (layout chainOfBranches).2) ∧
      widened chainOfBranches (layout chainOfBranches).2 = {0, 1} ∧
      (∀ chosen, Suffices chainOfBranches chosen → {0, 1} ⊆ chosen) ∧
      layout (layout chainOfBranches).2 = (.ok ⟨1, 0, 263⟩, (layout chainOfBranches).2) := by
  have wellFormed : ∀ instruction ∈ chainOfBranches, instruction.isWellFormed = true := by decide
  have finished : layout chainOfBranches = (.ok ⟨3, 2, 263⟩, (layout chainOfBranches).2) := by decide +kernel
  have both : widened chainOfBranches (layout chainOfBranches).2 = {0, 1} := by decide +kernel
  have total : size (layout chainOfBranches).2 = 263 := by decide +kernel
  rcases layout_widens_least wellFormed finished with ⟨⟨_, least⟩, again⟩
  rw [total] at again
  refine ⟨wellFormed, finished, both, ?_, again⟩
  intro chosen enough
  rw [← both]
  exact least enough

end Code

end CilRelink
