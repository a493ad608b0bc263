import CilRelink.Code.Offsets

/-!
# Offsets as sizes of what comes before

The offset of an instruction is the size of the code in front of it. Layout, encoding and decoding compute
offsets in three ways: as a list behind which the end of the code stands, written into the instructions, and
one after the other on the way through the code. The facts here bring all of them back to `Code.size` of a
part of the list, so that no later proof counts bytes itself.

Every instruction takes a byte at least, so offsets grow from each instruction to the next. That is all that looking
an offset up by halving relies on: it takes back computing offsets.
-/

namespace CilRelink

namespace Opcode

theorem size_pos (opcode : Opcode) : 0 < opcode.size := by
  unfold size
  split <;> omega

end Opcode

namespace Instruction

theorem size_pos (instruction : Instruction) : 0 < instruction.size := by
  have opcodeSize := instruction.opcode.size_pos
  unfold size
  omega

end Instruction

namespace Code

@[simp]
theorem size_nil : size [] = 0 := rfl

@[simp]
theorem size_cons (instruction : Instruction) (instructions : List Instruction) :
    size (instruction :: instructions) = instruction.size + size instructions := rfl

@[simp]
theorem size_append (front back : List Instruction) :
    size (front ++ back) = size front + size back := by
  simp [size]

theorem length_le_size (instructions : List Instruction) : instructions.length ≤ size instructions := by
  induction instructions with
  | nil => simp
  | cons instruction instructions ih =>
      have positive := instruction.size_pos
      simp only [List.length_cons, size_cons]
      omega

/-- Positions in code whose offsets fit are far below the limit. -/
theorem length_lt_indexLimit {instructions : List Instruction} (small : size instructions < 2 ^ 32) :
    instructions.length < indexLimit := by
  have count := length_le_size instructions
  rw [indexLimit]
  omega

theorem size_take_le (instructions : List Instruction) (count : Nat) :
    size (instructions.take count) ≤ size instructions := by
  have parts := congrArg size (List.take_append_drop count instructions)
  rw [size_append] at parts
  omega

theorem size_take_succ {instructions : List Instruction} {position : Nat} {instruction : Instruction}
    (found : instructions[position]? = some instruction) :
    size (instructions.take (position + 1)) = size (instructions.take position) + instruction.size := by
  rw [List.take_add_one, found, size_append]
  simp

theorem size_le_size {instructions : List Instruction} {position : Nat} {instruction : Instruction}
    (found : instructions[position]? = some instruction) : instruction.size ≤ size instructions := by
  have next := size_take_succ found
  have bound := size_take_le instructions (position + 1)
  omega

/-- What a list goes on with at a position is the element there and what follows it. -/
theorem of_cons_eq_drop {α : Type} {list rest : List α} {position : Nat} {element : α}
    (found : element :: rest = list.drop position) :
    list[position]? = some element ∧ rest = list.drop (position + 1) := by
  rw [← List.head?_drop, ← List.tail_drop, ← found]
  exact ⟨rfl, rfl⟩

theorem size_take_lt_of_lt {instructions : List Instruction} {position later : Nat}
    (before : position < later) (inside : position < instructions.length) :
    size (instructions.take position) < size (instructions.take later) := by
  have next := size_take_succ (List.getElem?_eq_getElem inside)
  have positive := instructions[position].size_pos
  have more := size_take_le (instructions.take later) (position + 1)
  rw [List.take_take, Nat.min_eq_left (by omega)] at more
  omega

@[simp]
theorem length_offsetsFrom (start : Nat) (instructions : List Instruction) :
    (offsetsFrom start instructions).length = instructions.length + 1 := by
  induction instructions generalizing start with
  | nil => rfl
  | cons instruction instructions ih => simp [offsetsFrom, ih]

theorem getElem?_offsetsFrom {instructions : List Instruction} {position : Nat} (start : Nat)
    (inside : position ≤ instructions.length) :
    (offsetsFrom start instructions)[position]? = some (start + size (instructions.take position)) := by
  induction instructions generalizing start position with
  | nil =>
      have first : position = 0 := by simpa using inside
      subst first
      rfl
  | cons instruction instructions ih =>
      rcases position with _ | position
      · simp [offsetsFrom]
      · have shorter : position ≤ instructions.length := by simpa using inside
        simp only [offsetsFrom, List.getElem?_cons_succ, ih (start + instruction.size) shorter,
          List.take_succ_cons, size_cons]
        congr 1
        omega

theorem getLast?_offsetsFrom (start : Nat) (instructions : List Instruction) :
    (offsetsFrom start instructions).getLast? = some (start + size instructions) := by
  rw [List.getLast?_eq_getElem?, length_offsetsFrom, Nat.add_sub_cancel, getElem?_offsetsFrom start (Nat.le_refl _),
    List.take_length]

theorem offsets_eq_ok_iff {instructions : List Instruction} {places : List Nat} :
    offsets instructions = .ok places ↔
      size instructions < 2 ^ 32 ∧ places = offsetsFrom 0 instructions := by
  unfold offsets
  split
  · rename_i small
    simp only [Except.ok.injEq, small, true_and]
    exact eq_comm
  · rename_i large
    simp only [reduceCtorEq, large, false_and]

/-- A displacement exists exactly for a target inside the code, and leads from the end of the branch to it. -/
theorem displacement_eq_ok_iff {instructions : List Instruction} {position next target : Nat} {distance : Int} :
    displacement (offsetsFrom 0 instructions).toArray position next target = .ok distance ↔
      target + 1 < indexLimit ∧ target < instructions.length ∧
        distance = (size (instructions.take target) : Int) - next := by
  unfold displacement
  split
  · rename_i overflow
    simp only [reduceCtorEq, false_iff]
    omega
  · rename_i noOverflow
    split
    · rename_i inside
      simp only [List.size_toArray, length_offsetsFrom] at inside
      have place : (offsetsFrom 0 instructions)[target]? = _ := getElem?_offsetsFrom 0 (by omega)
      rw [List.getElem?_eq_getElem (by simpa using Nat.lt_of_succ_lt inside), Option.some.injEq] at place
      simp only [List.getElem_toArray, place, Nat.zero_add, Except.ok.injEq]
      constructor
      · rintro rfl
        exact ⟨by omega, by omega, rfl⟩
      · rintro ⟨_, _, rfl⟩
        rfl
    · rename_i outside
      simp only [List.size_toArray, length_offsetsFrom] at outside
      simp only [reduceCtorEq, false_iff]
      omega

@[simp]
theorem length_placeFrom (start : Nat) (instructions : List Instruction) :
    (placeFrom start instructions).length = instructions.length := by
  induction instructions generalizing start with
  | nil => rfl
  | cons instruction instructions ih => simp [placeFrom, ih]

@[simp]
theorem size_placeFrom (start : Nat) (instructions : List Instruction) :
    size (placeFrom start instructions) = size instructions := by
  induction instructions generalizing start with
  | nil => rfl
  | cons instruction instructions ih =>
      simp only [placeFrom, size_cons, ih]
      rfl

theorem take_placeFrom (start count : Nat) (instructions : List Instruction) :
    (placeFrom start instructions).take count = placeFrom start (instructions.take count) := by
  induction instructions generalizing start count with
  | nil => simp [placeFrom]
  | cons instruction instructions ih =>
      cases count with
      | zero => rfl
      | succ count => simp [placeFrom, ih]

theorem getElem?_placeFrom (start : Nat) (instructions : List Instruction) (position : Nat) :
    (placeFrom start instructions)[position]? =
      instructions[position]?.map fun instruction =>
        { instruction with offset := start + size (instructions.take position) } := by
  induction instructions generalizing start position with
  | nil => rfl
  | cons instruction instructions ih =>
      cases position with
      | zero => simp [placeFrom]
      | succ position => simp [placeFrom, ih, Nat.add_assoc]

/-- Whether each instruction is where the code in front of it ends. -/
def IsPlaced (instructions : List Instruction) : Prop :=
  ∀ position instruction, instructions[position]? = some instruction →
    instruction.offset = size (instructions.take position)

theorem isPlaced_placeFrom (instructions : List Instruction) : IsPlaced (placeFrom 0 instructions) := by
  intro position instruction found
  rw [getElem?_placeFrom, Option.map_eq_some_iff] at found
  rcases found with ⟨original, _, rfl⟩
  rw [take_placeFrom, size_placeFrom]
  simp

theorem IsPlaced.placeFrom_eq {instructions : List Instruction} (placed : IsPlaced instructions) :
    placeFrom 0 instructions = instructions := by
  apply List.ext_getElem?
  intro position
  rw [getElem?_placeFrom]
  cases found : instructions[position]? with
  | none => rfl
  | some instruction =>
      have offset := placed position instruction found
      rw [Option.map_some, Nat.zero_add, ← offset]

/-! ## Positions of offsets -/

/-- Halving does not lose a position: of two instructions the later begins behind the earlier, so the half that is kept
is the one in which it is. -/
theorem bisect_size_take {code : List Instruction} (placed : IsPlaced code) {position first count : Nat}
    (low : first ≤ position) (high : position < first + count) (inside : first + count ≤ code.length) :
    bisect code.toArray (size (code.take position)) first count = position := by
  have begins {middle : Nat} (middleInside : middle < code.length) (offset : Nat) :
      code.toArray[middle]?.any (offset < ·.offset) = decide (offset < size (code.take middle)) := by
    rw [List.getElem?_toArray, List.getElem?_eq_getElem middleInside, Option.any_some,
      placed middle _ (List.getElem?_eq_getElem middleInside)]
  fun_induction bisect code.toArray (size (code.take position)) first count with
  | case1 first count several half middle behind ih =>
      rw [begins (by omega), decide_eq_true_eq] at behind
      have before : position < middle := by
        refine Nat.lt_of_not_le fun after => ?_
        rcases Nat.lt_or_eq_of_le after with later | same
        · have less : size (code.take middle) < size (code.take position) := size_take_lt_of_lt later (by omega)
          omega
        · rw [same] at behind
          exact Nat.lt_irrefl _ behind
      exact ih low (by omega) (by omega)
  | case2 first count several half middle notBehind ih =>
      rw [begins (by omega), decide_eq_true_eq] at notBehind
      have after : middle ≤ position :=
        Nat.le_of_not_lt fun before => notBehind (size_take_lt_of_lt before (by omega))
      exact ih after (by omega) (by omega)
  | case3 first count single => omega

theorem positionOf?_eq_some_iff {code : List Instruction} (placed : IsPlaced code) {offset position : Nat} :
    positionOf? code offset (size code) = some position ↔
      position ≤ code.length ∧ size (code.take position) = offset := by
  unfold positionOf?
  split
  · rename_i isEnd
    rw [Option.some.injEq]
    constructor
    · rintro rfl
      exact ⟨Nat.le_refl _, by rw [List.take_length, isEnd]⟩
    · rintro ⟨inside, same⟩
      rcases Nat.lt_or_eq_of_le inside with before | last
      · have less := size_take_lt_of_lt before before
        rw [List.take_length] at less
        omega
      · exact last.symm
  · rename_i notEnd
    simp only [Option.ite_none_right_eq_some, Option.some.injEq]
    constructor
    · rintro ⟨begins, rfl⟩
      rcases Option.any_eq_true _ _ |>.mp begins with ⟨instruction, found, same⟩
      rw [decide_eq_true_eq] at same
      rw [← placed _ instruction found]
      exact ⟨Nat.le_of_lt (List.getElem?_eq_some_iff.mp found).1, same⟩
    · rintro ⟨inside, rfl⟩
      have before : position < code.length := by
        refine Nat.lt_of_le_of_ne inside ?_
        rintro rfl
        rw [List.take_length] at notEnd
        exact notEnd rfl
      have found := List.getElem?_eq_getElem before
      rw [bisect_size_take placed (Nat.zero_le _) (by omega) (by omega), found, Option.any_some, decide_eq_true_eq]
      exact ⟨placed position _ found, rfl⟩

end Code

end CilRelink
