import CilRelink.Proofs.Body.Attachment

/-!
# Taking out what was put in

Putting an instruction in moves positions apart at its place, and taking it out moves them together again: targets,
starts and ends alike, and whether what named the place goes on to name the old instruction or names the new one. The
body is then what it was before. Nothing stands in the way of taking the new instruction out, because no region
consists of it alone, and in the last place nothing names it. The exception is an instruction that was put at the end
and jumps to itself.
-/

namespace CilRelink

theorem Instruction.mapPositions_back {move back : Nat → Nat} (undoes : ∀ position, back (move position) = position)
    (instruction : Instruction) : (instruction.mapPositions move).mapPositions back = instruction := by
  have same : back ∘ move = id := funext undoes
  rw [mapPositions_mapPositions, same, mapPositions_id]

theorem Clause.mapPositions_back {move moveEnd back : Nat → Nat} (undoes : ∀ position, back (move position) = position)
    (undoesEnd : ∀ position, back (moveEnd position) = position) (clause : Clause) :
    (clause.mapPositions move moveEnd).mapPositions back back = clause := by
  simp [mapPositions, undoes, undoesEnd, Function.comp_def]

namespace Body

variable {body result : Body} {place : Nat} {instruction : Instruction}

theorem unshiftAfter_shiftAfter (place position : Nat) : unshiftAfter place (shiftAfter place position) = position := by
  unfold unshiftAfter shiftAfter
  split_ifs <;> omega

/-- An end is not moved to where it would end a region that consists of the new instruction. -/
theorem shiftAfter_ne (place position : Nat) : shiftAfter place position ≠ place + 1 := by
  unfold shiftAfter
  split <;> omega

section Inserted

variable {move moveEnd : Nat → Nat}
  (made : result = { body.mapPositions move moveEnd with
    instructions := (body.instructions.map (·.mapPositions move)).insertIdx place instruction })

include made

theorem getElem?_inserted (bound : place ≤ body.size) : result.instructions[place]? = some instruction := by
  rw [made, List.getElem?_insertIdx_self, if_pos (by rw [List.length_map]; exact bound)]

theorem size_inserted (bound : place ≤ body.size) : result.size = body.size + 1 := by
  simp only [size] at bound ⊢
  rw [made, List.length_insertIdx, List.length_map, if_pos bound]

theorem remove_of_inserted (bound : place ≤ body.size)
    (undoes : ∀ position, unshiftAfter place (move position) = position)
    (undoesEnd : ∀ position, unshiftAfter place (moveEnd position) = position)
    (unnamed : place = body.size → place ∉ instruction.jumpPositions ∧ ∀ position, move position ≠ place)
    (spared : ∀ clause : Clause, result.emptiesClause place (clause.mapPositions move moveEnd) = false) :
    result.remove place = .ok (instruction.mapPositions (unshiftAfter place), body) := by
  have missed : place + 1 = result.size → ∀ other ∈ result.instructions, place ∉ other.jumpPositions := by
    intro last other otherMem
    rw [size_inserted made bound, Nat.add_right_cancel_iff] at last
    rw [made, List.mem_insertIdx (by rw [List.length_map]; exact bound)] at otherMem
    rcases otherMem with rfl | movedMem
    · exact (unnamed last).1
    · rcases List.mem_map.mp movedMem with ⟨old, _, rfl⟩
      rw [Instruction.jumpPositions_mapPositions, List.mem_map]
      rintro ⟨position, _, meets⟩
      exact (unnamed last).2 position meets
  have kept : ∀ clause ∈ result.clauses, result.emptiesClause place clause = false := by
    have moved : result.clauses = body.clauses.map (·.mapPositions move moveEnd) := by
      rw [made]
      rfl
    rw [moved, List.forall_mem_map]
    exact fun clause _ => spared clause
  rw [remove_of_spared (getElem?_inserted made bound) missed kept]
  congr 2
  rw [made]
  simp [mapPositions, List.map_insertIdx, List.eraseIdx_insertIdx_self, Function.comp_def,
    Instruction.mapPositions_back undoes, Clause.mapPositions_back undoes undoesEnd]

end Inserted

theorem remove_of_insert (inserted : body.insert place instruction = .ok result)
    (unnamed : ¬ (place = body.size ∧ place ∈ instruction.jumpPositions)) :
    result.remove place = .ok (instruction.mapPositions (unshiftAfter place), body) := by
  rcases insert_eq_ok inserted with ⟨bound, _, made⟩
  refine remove_of_inserted made bound (unshiftAfter_shiftFrom place) (unshiftAfter_shiftAfter place) ?_ ?_
  · intro last
    exact ⟨fun named => unnamed ⟨last, named⟩, shiftFrom_ne place⟩
  · intro clause
    -- nothing starts at the new instruction
    simp [emptiesClause, Clause.mapPositions, shiftFrom_ne]

/-- In the last place, an instruction that names itself cannot be taken out. -/
theorem remove_of_insert_self (inserted : body.insert body.size instruction = .ok result)
    (named : body.size ∈ instruction.jumpPositions) : result.remove body.size = .error (.structural .lastIsTarget) := by
  rcases insert_eq_ok inserted with ⟨bound, _, made⟩
  have stands := getElem?_inserted made bound
  have last : body.size + 1 = result.size := (size_inserted made bound).symm
  have targeted : result.instructions.any (·.jumpPositions.contains body.size) = true := by
    apply List.any_eq_true.mpr
    exact ⟨instruction, List.mem_of_getElem? stands, by simpa using named⟩
  simp only [remove, stands, if_pos (And.intro last targeted)]
  rfl

theorem remove_of_insertBefore (inserted : body.insertBefore place instruction = .ok result) :
    result.remove place = .ok (instruction.mapPositions (unshiftAfter place), body) := by
  rcases insertBefore_eq_ok inserted with ⟨inside, made⟩
  have bound : place ≤ body.size := Nat.le_of_lt inside
  have grown := size_inserted made bound
  refine remove_of_inserted made bound (unshiftAfter_shiftAfter place) (unshiftAfter_shiftAfter place) ?_ ?_
  · intro last
    omega
  · intro clause
    -- nothing ends right behind the new instruction, and it does not stand in the last place
    have behind : place + 1 ≠ result.size := by omega
    simp [emptiesClause, Clause.mapPositions, shiftAfter_ne, behind]

/-- Taking out an instruction that was put in gives back the body as it was before, and the instruction with its
targets behind the place moved down by one. It is refused only where the instruction was put at the end and jumps to
itself, which is to say nowhere if it was put in front of another. -/
theorem remove_undoes_insertion (body : Body) (place : Nat) (instruction : Instruction) :
    (∀ result, body.insert place instruction = .ok result →
      result.remove place =
        if place = body.size ∧ place ∈ instruction.jumpPositions then .error (.structural .lastIsTarget)
        else .ok (instruction.mapPositions (unshiftAfter place), body)) ∧
    ∀ result, body.insertBefore place instruction = .ok result →
      result.remove place = .ok (instruction.mapPositions (unshiftAfter place), body) := by
  refine ⟨?_, fun _ => remove_of_insertBefore⟩
  intro result inserted
  split
  · rename_i named
    rcases named with ⟨rfl, named⟩
    exact remove_of_insert_self inserted named
  · rename_i unnamed
    exact remove_of_insert inserted unnamed

/-- At the border of the try region and the handler, and at the end of the guarded body. -/
theorem remove_undoes_insertion_guardedBody :
    let jump := Instruction.unplaced .leaveS (.target 6)
    let behind := (guardedBody.insert 3 jump).toOption.getD guardedBody
    let inFront := (guardedBody.insertBefore 3 jump).toOption.getD guardedBody
    let looping := (guardedBody.insert 6 jump).toOption.getD guardedBody
    (guardedBody.insert 3 jump = .ok behind ∧
        behind.remove 3 = .ok (Instruction.unplaced .leaveS (.target 5), guardedBody)) ∧
      (guardedBody.insertBefore 3 jump = .ok inFront ∧
        inFront.remove 3 = .ok (Instruction.unplaced .leaveS (.target 5), guardedBody)) ∧
      guardedBody.insert 6 jump = .ok looping ∧ looping.remove 6 = .error (.structural .lastIsTarget) := by
  intro jump behind inFront looping
  have inserts : guardedBody.insert 3 jump = .ok behind := by decide +kernel
  have insertsBefore : guardedBody.insertBefore 3 jump = .ok inFront := by decide +kernel
  have appends : guardedBody.insert 6 jump = .ok looping := by decide +kernel
  refine ⟨⟨inserts, ?_⟩, ⟨insertsBefore, ?_⟩, appends, ?_⟩
  · exact (remove_undoes_insertion guardedBody 3 jump).1 behind inserts
  · exact (remove_undoes_insertion guardedBody 3 jump).2 inFront insertsBefore
  · exact (remove_undoes_insertion guardedBody 6 jump).1 looping appends

end Body

end CilRelink
