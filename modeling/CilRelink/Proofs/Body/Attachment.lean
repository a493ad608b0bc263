import Mathlib.Data.Set.Image
import CilRelink.Proofs.Body.Edits

/-!
# Edits keep positions attached

What an edit does to a body is told by where the old instructions stand after it. A position names the same old
instruction before and after, wherever that stands now; only what named the place of the edit may name another one, the
new instruction in front of it or the one behind what was taken out. A region holds the same old instructions, and the
new one if it is in the midst of them, or at their head and to be run before them.
-/

namespace CilRelink

/-- Where the instructions of a body are after an edit. -/
structure Relocation where
  /-- Whether the old instruction at a position is still there. -/
  survives : Nat → Prop
  /-- Where the old instruction at a position stands, if it is still there. -/
  home : Nat → Nat
  /-- Which position is named by what named an old position. -/
  heir : Nat → Nat
  /-- Where the new instruction stands, if there is one. -/
  newcomer : Option Nat
  /-- Whether the new instruction is part of a region, given by its old first position and the one after its last. -/
  joins : Nat × Nat → Prop

namespace Relocation

/-- Another instruction at `place`, which nothing names and which is part of the regions around it. -/
def insertion (place : Nat) : Relocation where
  survives _ := True
  home := Body.shiftFrom place
  heir := Body.shiftFrom place
  newcomer := some place
  joins region := region.1 < place ∧ place < region.2

/-- Another instruction in front of the one at `place`, which is named in its stead and is part of its regions. -/
def insertionBefore (place : Nat) : Relocation where
  survives _ := True
  home := Body.shiftFrom place
  heir position := if position = place then place else Body.shiftFrom place position
  newcomer := some place
  joins region := region.1 ≤ place ∧ place < region.2

/-- No more instruction at `place`; the one after it is named in its stead. -/
def removal (place : Nat) : Relocation where
  survives position := position ≠ place
  home := Body.unshiftAfter place
  heir position := Body.unshiftAfter place (if position = place then place + 1 else position)
  newcomer := none
  joins _ := False

/-- Whether a region holds what another held of the old instructions, and the new one if it joins. -/
def MovesRegion (relocation : Relocation) (before after : Nat × Nat) : Prop :=
  Set.Ico after.1 after.2 =
    relocation.home '' {position ∈ Set.Ico before.1 before.2 | relocation.survives position} ∪
      {position | position ∈ relocation.newcomer ∧ relocation.joins before}

/-- Whether a clause is another with its positions moved along. -/
structure MovesClause (relocation : Relocation) (before after : Clause) : Prop where
  flags : after.flags = before.flags
  catchType : after.catchType = before.catchType
  filterStart : after.filterStart = before.filterStart.map relocation.heir
  regions : List.Forall₂ relocation.MovesRegion before.regions after.regions

/-- Whether a body is another with its instructions relocated and all positions moved along. -/
structure Carries (relocation : Relocation) (before after : Body) : Prop where
  /-- Old instructions stay in their order. -/
  order : ∀ first second, relocation.survives first → relocation.survives second → first < second →
    relocation.home first < relocation.home second
  /-- Nothing stands in the body but old instructions and the new one. -/
  places : ∀ position, position < after.size ↔
    (∃ old < before.size, relocation.survives old ∧ relocation.home old = position) ∨ position ∈ relocation.newcomer
  /-- Old instructions are the same but for the positions that they name. -/
  instructions : ∀ position old, before.instructions[position]? = some old → relocation.survives position →
    after.instructions[relocation.home position]? = some (old.mapPositions relocation.heir)
  /-- There is an instruction at every position that stands for one that was named. -/
  targets : ∀ old ∈ before.instructions, ∀ target ∈ old.jumpPositions, relocation.heir target < after.size
  filters : ∀ clause ∈ before.clauses, ∀ start ∈ clause.filterStart, relocation.heir start < after.size
  clauses : List.Forall₂ relocation.MovesClause before.clauses after.clauses

variable {relocation : Relocation}

theorem movesClause_map {move moveEnd : Nat → Nat} (heir : relocation.heir = move)
    (regions : ∀ region, relocation.MovesRegion region (move region.1, moveEnd region.2)) (clauses : List Clause) :
    List.Forall₂ relocation.MovesClause clauses (clauses.map (·.mapPositions move moveEnd)) := by
  rw [List.forall₂_map_right_iff, List.forall₂_same]
  intro clause _
  refine ⟨rfl, rfl, ?_, .cons (regions _) (.cons (regions _) .nil)⟩
  rw [heir]
  rfl

end Relocation

namespace Body

variable {body result : Body} {place : Nat} {instruction removed : Instruction}

/-! ## Where old instructions stand -/

theorem strictMono_shiftFrom (place : Nat) : StrictMono (shiftFrom place) := by
  intro first second before
  unfold shiftFrom
  split <;> split <;> omega

theorem shiftFrom_ne (place position : Nat) : shiftFrom place position ≠ place := by
  unfold shiftFrom
  split <;> omega

/-- Taking an instruction out leads back to where positions were before it was put in. -/
theorem unshiftAfter_shiftFrom (place position : Nat) : unshiftAfter place (shiftFrom place position) = position := by
  unfold unshiftAfter shiftFrom
  split <;> split <;> omega

theorem shiftFrom_unshiftAfter {position : Nat} (elsewhere : position ≠ place) :
    shiftFrom place (unshiftAfter place position) = position := by
  unfold unshiftAfter shiftFrom
  split <;> split <;> omega

/-- Every position but the new one is that of an old instruction. -/
theorem eq_or_exists_shiftFrom (place position : Nat) : position = place ∨ ∃ old, shiftFrom place old = position := by
  by_cases same : position = place
  · exact .inl same
  · exact .inr ⟨unshiftAfter place position, shiftFrom_unshiftAfter same⟩

theorem shiftFrom_lt_iff {old count : Nat} (bound : place ≤ count) : shiftFrom place old < count + 1 ↔ old < count := by
  unfold shiftFrom
  split <;> omega

theorem getElem?_insertIdx_shiftFrom {α : Type} (list : List α) (element : α) (place position : Nat) :
    (list.insertIdx place element)[shiftFrom place position]? = list[position]? := by
  rw [List.getElem?_insertIdx]
  unfold shiftFrom
  split
  · rw [if_neg (by omega), if_neg (by omega), Nat.add_sub_cancel]
  · rw [if_pos (by omega)]

theorem getElem?_eraseIdx_unshiftAfter {α : Type} (list : List α) {position : Nat} (elsewhere : position ≠ place) :
    (list.eraseIdx place)[unshiftAfter place position]? = list[position]? := by
  rw [List.getElem?_eraseIdx]
  unfold unshiftAfter
  split
  · rw [if_neg (by omega), Nat.sub_add_cancel (by omega)]
  · rw [if_pos (by omega)]

/-! ## One instruction more -/

section Insertion

variable {relocation : Relocation} (survives : relocation.survives = fun _ => True)
  (home : relocation.home = shiftFrom place) (newcomer : relocation.newcomer = some place)

include survives home newcomer

/-- A region is moved along if it holds an old instruction where it held it before, and the new one if it joins. -/
theorem movesRegion_of_shiftFrom {before after : Nat × Nat}
    (holds : ∀ old, shiftFrom place old ∈ Set.Ico after.1 after.2 ↔ old ∈ Set.Ico before.1 before.2)
    (joins : place ∈ Set.Ico after.1 after.2 ↔ relocation.joins before) : relocation.MovesRegion before after := by
  ext position
  rw [survives, home, newcomer]
  rcases eq_or_exists_shiftFrom place position with rfl | ⟨old, rfl⟩
  · simp [joins, shiftFrom_ne]
  · have other : place ≠ shiftFrom place old := (shiftFrom_ne place old).symm
    simp [holds, other, (strictMono_shiftFrom place).injective.eq_iff]

/-- What an insertion makes of a body, by what it does to positions. -/
theorem carries_of_inserted {moveEnd : Nat → Nat} (valid : body.validate = .ok ()) (bound : place ≤ body.size)
    (made : result = { body.mapPositions relocation.heir moveEnd with
      instructions := (body.instructions.map (·.mapPositions relocation.heir)).insertIdx place instruction })
    (near : ∀ position, relocation.heir position ≤ position + 1)
    (regions : ∀ region, relocation.MovesRegion region (relocation.heir region.1, moveEnd region.2)) :
    relocation.Carries body result ∧ result.instructions[place]? = some instruction := by
  rcases validate_eq_ok_iff.mp valid with ⟨instructionsValid, clausesValid⟩
  have grown : result.size = body.size + 1 := by
    rw [made]
    simp only [size] at bound ⊢
    rw [List.length_insertIdx, List.length_map, if_pos bound]
  refine ⟨⟨?_, ?_, ?_, ?_, ?_, ?_⟩, ?_⟩
  · intro first second _ _ before
    rw [home]
    exact strictMono_shiftFrom place before
  · intro position
    rw [survives, home, newcomer, grown]
    rcases eq_or_exists_shiftFrom place position with rfl | ⟨old, rfl⟩
    · simp only [Option.mem_some_iff, or_true, iff_true]
      omega
    · have other : place ≠ shiftFrom place old := (shiftFrom_ne place old).symm
      simp [shiftFrom_lt_iff bound, other, (strictMono_shiftFrom place).injective.eq_iff]
  · intro position old found _
    rw [home, made, getElem?_insertIdx_shiftFrom, List.getElem?_map, found, Option.map_some]
  · intro old oldMem target targetMem
    have inside := (instructionsValid old oldMem).2 target targetMem
    have step := near target
    omega
  · intro clause clauseMem start startMem
    have inside := (Clause.isInside_iff.mp (clausesValid clause clauseMem).1).2 start startMem
    have step := near start
    omega
  · rw [made]
    exact Relocation.movesClause_map rfl regions body.clauses
  · rw [made, List.getElem?_insertIdx_self, if_pos (by rw [List.length_map]; exact bound)]

end Insertion

theorem carries_insert (valid : body.validate = .ok ()) (inserted : body.insert place instruction = .ok result) :
    (Relocation.insertion place).Carries body result ∧ result.instructions[place]? = some instruction := by
  rcases insert_eq_ok inserted with ⟨bound, _, made⟩
  refine carries_of_inserted rfl rfl rfl valid bound made ?_ ?_
  · intro position
    simp only [Relocation.insertion, shiftFrom]
    split <;> omega
  · intro region
    refine movesRegion_of_shiftFrom rfl rfl rfl ?_ ?_
    · intro old
      simp only [Relocation.insertion, Set.mem_Ico, shiftFrom, shiftAfter]
      split <;> split <;> split <;> omega
    · simp only [Relocation.insertion, Set.mem_Ico, shiftFrom, shiftAfter]
      split <;> split <;> omega

theorem heir_insertionBefore (place : Nat) : (Relocation.insertionBefore place).heir = shiftAfter place := by
  funext position
  simp only [Relocation.insertionBefore, shiftFrom, shiftAfter]
  split_ifs <;> omega

theorem carries_insertBefore (valid : body.validate = .ok ())
    (inserted : body.insertBefore place instruction = .ok result) :
    (Relocation.insertionBefore place).Carries body result ∧ result.instructions[place]? = some instruction := by
  rcases insertBefore_eq_ok inserted with ⟨bound, made⟩
  rw [← heir_insertionBefore] at made
  refine carries_of_inserted rfl rfl rfl valid (Nat.le_of_lt bound) made ?_ ?_
  · intro position
    rw [heir_insertionBefore, shiftAfter]
    split <;> omega
  · intro region
    rw [heir_insertionBefore]
    refine movesRegion_of_shiftFrom rfl rfl rfl ?_ ?_
    · intro old
      simp only [Set.mem_Ico, shiftFrom, shiftAfter]
      split <;> split <;> split <;> omega
    · simp only [Relocation.insertionBefore, Set.mem_Ico, shiftAfter]
      split <;> split <;> omega

/-! ## One instruction less -/

theorem heir_removal (place : Nat) : (Relocation.removal place).heir = unshiftAfter place := by
  funext position
  simp only [Relocation.removal, unshiftAfter]
  split_ifs <;> omega

/-- What stands at a position after a removal stood at the position that an insertion would move it to. -/
theorem mem_image_unshiftAfter_iff {positions : Set Nat} {position : Nat} :
    position ∈ unshiftAfter place '' {old ∈ positions | old ≠ place} ↔ shiftFrom place position ∈ positions := by
  constructor
  · rintro ⟨old, ⟨oldMem, elsewhere⟩, rfl⟩
    rwa [shiftFrom_unshiftAfter elsewhere]
  · intro oldMem
    exact ⟨_, ⟨oldMem, shiftFrom_ne place position⟩, unshiftAfter_shiftFrom place position⟩

theorem movesRegion_removal (place : Nat) (region : Nat × Nat) :
    (Relocation.removal place).MovesRegion region (unshiftAfter place region.1, unshiftAfter place region.2) := by
  ext position
  have moved : position ∈ Set.Ico (unshiftAfter place region.1) (unshiftAfter place region.2) ↔
      shiftFrom place position ∈ Set.Ico region.1 region.2 := by
    simp only [Set.mem_Ico, unshiftAfter, shiftFrom]
    split <;> split <;> split <;> omega
  rw [moved, ← mem_image_unshiftAfter_iff]
  simp [Relocation.removal]

theorem carries_remove (valid : body.validate = .ok ()) (removes : body.remove place = .ok (removed, result)) :
    (Relocation.removal place).Carries body result := by
  rcases validate_eq_ok_iff.mp valid with ⟨instructionsValid, clausesValid⟩
  rcases remove_eq_ok removes with ⟨bound, missed, spared, made⟩
  have shrunk : result.size + 1 = body.size := by
    rw [made]
    simp only [size] at bound ⊢
    rw [List.length_eraseIdx, List.length_map, if_pos bound]
    omega
  -- what is named in the last place is not that place itself
  have inside : ∀ position < body.size, (place + 1 = body.size → position ≠ place) →
      (Relocation.removal place).heir position < result.size := by
    intro position positionInside elsewhere
    rw [heir_removal, unshiftAfter]
    split <;> omega
  constructor
  · intro first second firstElsewhere secondElsewhere before
    simp only [Relocation.removal, unshiftAfter] at *
    split <;> split <;> omega
  · intro position
    have stood : position < result.size ↔ shiftFrom place position ∈ Set.Iio body.size := by
      rw [Set.mem_Iio, ← shrunk, shiftFrom_lt_iff (by omega)]
    rw [stood, ← mem_image_unshiftAfter_iff]
    simp [Relocation.removal, and_assoc]
  · intro position old found elsewhere
    rw [made, heir_removal]
    change (List.eraseIdx _ place)[unshiftAfter place position]? = _
    rw [getElem?_eraseIdx_unshiftAfter _ elsewhere, List.getElem?_map, found, Option.map_some]
  · intro old oldMem target targetMem
    refine inside target ((instructionsValid old oldMem).2 target targetMem) ?_
    rintro last rfl
    exact missed last old oldMem targetMem
  · intro clause clauseMem start startMem
    refine inside start ((Clause.isInside_iff.mp (clausesValid clause clauseMem).1).2 start startMem) ?_
    rintro last rfl
    exact (not_emptied_of_emptiesClause (spared clause clauseMem)).2 last startMem
  · rw [made]
    exact Relocation.movesClause_map (heir_removal place) (movesRegion_removal place) body.clauses

/-- The edits of a valid body that succeed carry old instructions along with all that names them, and put the new
instruction where it was to be put. -/
theorem edits_keep_attached (valid : body.validate = .ok ()) (place : Nat) (instruction : Instruction) :
    (∀ result, body.insert place instruction = .ok result →
      (Relocation.insertion place).Carries body result ∧ result.instructions[place]? = some instruction) ∧
    (∀ result, body.insertBefore place instruction = .ok result →
      (Relocation.insertionBefore place).Carries body result ∧ result.instructions[place]? = some instruction) ∧
    ∀ removed result, body.remove place = .ok (removed, result) → (Relocation.removal place).Carries body result :=
  ⟨fun _ => carries_insert valid, fun _ => carries_insertBefore valid, fun _ _ => carries_remove valid⟩

/-- At the border of the try region and the handler: an instruction that stays outside of both, one that the handler
begins with, and the first of the handler taken out. -/
theorem edits_keep_attached_guardedBody :
    let nop := Instruction.unplaced .nop .none
    let outside := (guardedBody.insert 3 nop).toOption.getD guardedBody
    let inside := (guardedBody.insertBefore 3 nop).toOption.getD guardedBody
    let shorter := ((guardedBody.remove 3).toOption.map Prod.snd).getD guardedBody
    guardedBody.validate = .ok () ∧
      (guardedBody.insert 3 nop = .ok outside ∧ outside.clauses.map Clause.regions = [[(0, 3), (4, 6)]] ∧
        (Relocation.insertion 3).Carries guardedBody outside) ∧
      (guardedBody.insertBefore 3 nop = .ok inside ∧ inside.clauses.map Clause.regions = [[(0, 3), (3, 6)]] ∧
        (Relocation.insertionBefore 3).Carries guardedBody inside) ∧
      guardedBody.remove 3 = .ok (⟨12, .pop, .none⟩, shorter) ∧
        shorter.clauses.map Clause.regions = [[(0, 3), (3, 4)]] ∧
        (Relocation.removal 3).Carries guardedBody shorter := by
  intro nop outside inside shorter
  have valid : guardedBody.validate = .ok () := by decide +kernel
  have inserts : guardedBody.insert 3 nop = .ok outside := by decide +kernel
  have insertsBefore : guardedBody.insertBefore 3 nop = .ok inside := by decide +kernel
  have removes : guardedBody.remove 3 = .ok (⟨12, .pop, .none⟩, shorter) := by decide +kernel
  rcases edits_keep_attached valid 3 nop with ⟨insertion, insertionBefore, removal⟩
  exact ⟨valid, ⟨inserts, by decide +kernel, (insertion _ inserts).1⟩,
    ⟨insertsBefore, by decide +kernel, (insertionBefore _ insertsBefore).1⟩,
    removes, by decide +kernel, removal _ _ removes⟩

end Body

end CilRelink
