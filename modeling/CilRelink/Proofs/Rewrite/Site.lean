import CilRelink.Proofs.Rewrite.Again
import CilRelink.Proofs.Rewrite.Expansion

/-!
# Making way for a site

When loads and a replacement take the place of an instruction, whatever led to the instruction leads to the first of
them, so control runs through all loads, and nothing leads into the middle. In a valid body there is nothing that
could keep them out, as long as positions are left.
-/

namespace CilRelink

namespace Clause

/-- The positions where regions of the clause, or the code that decides for a filter, begin. -/
def starts (clause : Clause) : List Nat := [clause.tryStart, clause.handlerStart] ++ clause.filterStart.toList

theorem starts_mapPositions (move moveEnd : Nat → Nat) (clause : Clause) :
    (clause.mapPositions move moveEnd).starts = clause.starts.map move := by
  cases filter : clause.filterStart <;> simp [starts, mapPositions, filter]

theorem positions_mapPositions (move : Nat → Nat) (clause : Clause) :
    (clause.mapPositions move move).positions = clause.positions.map move := by
  cases filter : clause.filterStart <;> simp [positions, mapPositions, filter]

theorem le_of_isInside {count position : Nat} {clause : Clause} (inside : clause.isInside count = true)
    (positionMem : position ∈ clause.positions) : position ≤ count := by
  rw [isInside_iff] at inside
  simp only [regions, List.forall_mem_cons, List.not_mem_nil, false_implies, implies_true, and_true] at inside
  rcases inside with ⟨⟨⟨tryOrder, tryBound⟩, handlerOrder, handlerBound⟩, filter⟩
  simp only [positions, List.cons_append, List.nil_append, List.mem_cons, Option.mem_toList] at positionMem
  rcases positionMem with rfl | rfl | rfl | rfl | filterStart
  · omega
  · omega
  · omega
  · omega
  · exact Nat.le_of_lt (filter position filterStart)

end Clause

namespace Body

/-- The positions where code is entered: where branches and jump tables lead, and where regions begin. -/
def entries (body : Body) : List Nat :=
  body.instructions.flatMap Instruction.jumpPositions ++ body.clauses.flatMap Clause.starts

theorem advance_eq_place_iff {place count position : Nat} :
    advance place count position = place ↔ position = place := by
  unfold advance
  split <;> omega

theorem advance_notMem_Ioc (place count position : Nat) :
    advance place count position ∉ Set.Ioc place (place + count) := by
  rw [Set.mem_Ioc]
  unfold advance
  split <;> omega

/-- A valid body names no position past its end. -/
theorem le_size_of_mem_positions {body : Body} {position : Nat} (valid : body.validate = .ok ())
    (positionMem : position ∈ body.positions) : position ≤ body.size := by
  rcases validate_eq_ok_iff.mp valid with ⟨instructions, clauses⟩
  rcases List.mem_append.mp positionMem with jumped | covered
  · rcases List.mem_flatMap.mp jumped with ⟨instruction, instructionMem, target⟩
    exact Nat.le_of_lt ((instructions instruction instructionMem).2 position target)
  · rcases List.mem_flatMap.mp covered with ⟨clause, clauseMem, bound⟩
    exact Clause.le_of_isInside (clauses clause clauseMem).1 bound

theorem exists_insertBefore {body : Body} {place : Nat} {instruction : Instruction} (valid : body.validate = .ok ())
    (bound : place < body.size) (wellFormed : instruction.isWellFormed = true)
    (room : body.size + 1 < Code.indexLimit) : ∃ result, body.insertBefore place instruction = .ok result := by
  have moved : (body.mapPositions (shiftAfter place) (shiftAfter place)).positions =
      body.positions.map (shiftAfter place) := by
    simp only [positions, mapPositions, List.flatMap_map, Instruction.jumpPositions_mapPositions,
      Clause.positions_mapPositions, List.map_append, List.map_flatMap]
  have indices :
      (body.mapPositions (shiftAfter place) (shiftAfter place)).positions.all (· < Code.indexLimit) = true := by
    rw [moved, List.all_map, List.all_eq_true]
    intro position positionMem
    have inside := le_size_of_mem_positions valid positionMem
    refine decide_eq_true (?_ : shiftAfter place position < Code.indexLimit)
    unfold shiftAfter
    split <;> omega
  simp only [insertBefore, checkInsertable, wellFormed, checkPositions, indices, if_true]
  rw [if_neg (by omega)]
  exact ⟨_, rfl⟩

/-- Loads can be put in front of an instruction of a valid body as long as positions are left for them. -/
theorem exists_insertAllBefore {body : Body} {place : Nat} {loads : List Instruction} (valid : body.validate = .ok ())
    (bound : place < body.size) (wellFormed : ∀ load ∈ loads, load.isWellFormed = true)
    (nowhere : ∀ load ∈ loads, load.jumpPositions = []) (room : body.size + loads.length < Code.indexLimit) :
    ∃ result, insertAllBefore place loads body = .ok result := by
  induction loads generalizing body place with
  | nil => exact ⟨body, rfl⟩
  | cons load loads ih =>
      rw [List.forall_mem_cons] at wellFormed nowhere
      rw [List.length_cons] at room
      rcases exists_insertBefore valid bound wellFormed.1 (by omega) with ⟨next, first⟩
      have one : insertAllBefore place [load] body = .ok next := by
        rw [insertAllBefore, first]
        rfl
      have grown : next.size = body.size + 1 := size_insertAllBefore one
      have nextValid := validate_of_insertBefore valid first (by simp [nowhere.1])
      have nextBound : place + 1 < next.size := by omega
      rcases ih nextValid nextBound wellFormed.2 nowhere.2 (by omega) with ⟨result, rest⟩
      exact ⟨result, by rw [insertAllBefore, first]; exact rest⟩

theorem exists_replace {body : Body} {place : Nat} {instruction : Instruction} (bound : place < body.size)
    (wellFormed : instruction.isWellFormed = true) :
    ∃ old result, body.replace place instruction = .ok (old, result) := by
  have stands : body.instructions[place]? = some body.instructions[place] := List.getElem?_eq_getElem bound
  simp only [replace, checkInsertable, wellFormed, if_true, stands]
  exact ⟨_, _, rfl⟩

/-- What a body becomes when loads and a replacement take the place of the instruction at `place`. -/
structure MakesWay (body changed : Body) (place : Nat) (loads : List Instruction) (replacement : Instruction) :
    Prop where
  /-- The site is the loads and the replacement; what stood in front of the old instruction and behind it is still
  there. -/
  instructions :
    changed.instructions =
      (body.instructions.take place).map (·.mapPositions (advance place loads.length)) ++ (loads ++ [replacement]) ++
        (body.instructions.drop (place + 1)).map (·.mapPositions (advance place loads.length))
  clauses :
    changed.clauses =
      body.clauses.map (·.mapPositions (advance place loads.length) (advance place loads.length))
  /-- What led to the old instruction leads to the first of the site, and nothing leads to another one of it. -/
  entries :
    List.Forall₂
      (fun before after => (before = place ↔ after = place) ∧ after ∉ Set.Ioc place (place + loads.length))
      body.entries changed.entries
  maxStack : changed.maxStack.toNat = min 65535 (body.maxStack.toNat + loads.length)
  localSignature : changed.localSignature = body.localSignature
  initLocals : changed.initLocals = body.initLocals

theorem makesWay_of_carryOut {body changed : Body} {place : Nat} {loads : List Instruction}
    {old replacement : Instruction} {confidence : Confidence} (stands : body.instructions[place]? = some old)
    (leads : old.jumpPositions = []) (nowhere : ∀ load ∈ loads, load.jumpPositions = [])
    (replacementLeads : replacement.jumpPositions = [])
    (carried : body.carryOut place (.rewritten loads replacement confidence) = .ok changed) :
    MakesWay body changed place loads { replacement with offset := old.offset } := by
  rcases List.getElem?_eq_some_iff.mp stands with ⟨inside, rfl⟩
  have shape : body.instructions =
      body.instructions.take place ++ body.instructions[place] :: body.instructions.drop (place + 1) := by
    rw [← List.drop_eq_getElem_cons inside, List.take_append_drop]
  have front : (body.instructions.take place).length = place := List.length_take_of_le (Nat.le_of_lt inside)
  have result := carryOut_rewritten_eq_ok shape nowhere (by rwa [front])
  rw [front] at result
  -- neither the site nor the old instruction leads anywhere, so the others make up the entries before and after
  have site : (loads ++ [{ replacement with offset := body.instructions[place].offset }]).flatMap
      Instruction.jumpPositions = [] := by
    simpa [Instruction.jumpPositions] using ⟨nowhere, replacementLeads⟩
  have others : body.instructions.flatMap Instruction.jumpPositions =
      (body.instructions.take place).flatMap Instruction.jumpPositions ++
        (body.instructions.drop (place + 1)).flatMap Instruction.jumpPositions := by
    conv_lhs => rw [shape, List.flatMap_append, List.flatMap_cons, leads, List.nil_append]
  have entered : changed.entries = body.entries.map (advance place loads.length) := by
    rw [result, entries, entries, others]
    simp only [List.flatMap_append, site, List.append_nil, List.map_append, List.flatMap_map, List.map_flatMap,
      Instruction.jumpPositions_mapPositions, Clause.starts_mapPositions, mapPositions]
  refine ⟨by rw [result], by rw [result]; rfl, ?_, ?_, by rw [result]; rfl, by rw [result]; rfl⟩
  · rw [entered, List.forall₂_map_right_iff, List.forall₂_same]
    intro position _
    exact ⟨advance_eq_place_iff.symm, advance_notMem_Ioc place loads.length position⟩
  · rw [result, Rewriter.toNat_deepen, Nat.min_comm]

/-- The site stands where the old instruction stood. -/
theorem MakesWay.site {body changed : Body} {place : Nat} {loads : List Instruction} {replacement : Instruction}
    (makesWay : MakesWay body changed place loads replacement) (inside : place ≤ body.instructions.length) :
    (changed.instructions.drop place).take (loads.length + 1) = loads ++ [replacement] := by
  have front : ((body.instructions.take place).map
      (·.mapPositions (advance place loads.length))).length = place := by
    rw [List.length_map, List.length_take_of_le inside]
  have count : loads.length + 1 = (loads ++ [replacement]).length := by rw [List.length_append, List.length_singleton]
  rw [makesWay.instructions, List.append_assoc, List.drop_left' front, count, List.take_left]

/-- A site of well-formed instructions that lead nowhere finds room as long as positions are left. -/
theorem exists_carryOut {body : Body} {place : Nat} {loads : List Instruction} {replacement : Instruction}
    {confidence : Confidence} (valid : body.validate = .ok ()) (bound : place < body.size)
    (wellFormed : ∀ load ∈ loads, load.isWellFormed = true) (nowhere : ∀ load ∈ loads, load.jumpPositions = [])
    (replacementFits : replacement.isWellFormed = true) (room : body.size + loads.length < Code.indexLimit) :
    ∃ changed, body.carryOut place (.rewritten loads replacement confidence) = .ok changed := by
  rcases exists_insertAllBefore valid bound wellFormed nowhere room with ⟨loaded, inserted⟩
  have grown := size_insertAllBefore inserted
  have loadedBound : place + loads.length < loaded.size := by omega
  rcases exists_replace loadedBound replacementFits with ⟨old, result, replaced⟩
  refine ⟨{ result with maxStack := deepen result.maxStack loads.length }, ?_⟩
  exact Fallible.bind_eq_ok_iff.mpr ⟨loaded, inserted, Fallible.bind_eq_ok_iff.mpr ⟨(old, result), replaced, rfl⟩⟩

end Body

end CilRelink
