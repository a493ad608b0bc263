import CilRelink.Body.Edit
import CilRelink.Proofs.Body.Insertion
import CilRelink.Proofs.Body.RoundTrip
import CilRelink.Proofs.Body.Validity

/-!
# Edits in place

A body can also be edited where it is, by checks and writes one after the other. All checks come before the first
write, so that an edit that fails has written nothing, and one that succeeds has made of the body what the edit is
said to make of it. A valid body stays valid, whatever is done to it: positions move in the order in which they were,
and a removal is refused where two of them would meet or the last one would be lost. Only the targets of what is
brought in are not looked at.
-/

namespace CilRelink

namespace Operand

theorem fits_mapPositions (operand : Operand) (move : Nat → Nat) (kind : OperandKind) :
    (operand.mapPositions move).fits kind = operand.fits kind := by
  cases operand with
  | target position => cases kind <;> rfl
  | targets positions => cases kind <;> rfl
  | _ => rfl

theorem positions_mapPositions (operand : Operand) (move : Nat → Nat) :
    (operand.mapPositions move).positions = operand.positions.map move := by
  cases operand <;> rfl

end Operand

namespace Instruction

theorem isWellFormed_mapPositions (instruction : Instruction) (move : Nat → Nat) :
    (instruction.mapPositions move).isWellFormed = instruction.isWellFormed :=
  Operand.fits_mapPositions _ _ _

theorem jumpPositions_mapPositions (instruction : Instruction) (move : Nat → Nat) :
    (instruction.mapPositions move).jumpPositions = instruction.jumpPositions.map move :=
  Operand.positions_mapPositions _ _

end Instruction

namespace Clause

/-- The regions of the clause, each with its first position and the one after its last. -/
def regions (clause : Clause) : List (Nat × Nat) :=
  [(clause.tryStart, clause.tryEnd), (clause.handlerStart, clause.handlerEnd)]

theorem isInside_iff {count : Nat} {clause : Clause} :
    clause.isInside count = true ↔
      (∀ region ∈ clause.regions, region.1 < region.2 ∧ region.2 ≤ count) ∧
        ∀ start ∈ clause.filterStart, start < count := by
  simp only [isInside, regions, Bool.and_eq_true, decide_eq_true_eq, Option.all_eq_true, List.forall_mem_cons,
    List.not_mem_nil, false_implies, implies_true, and_true, and_assoc, Option.mem_def]

/-- Moved regions stay inside if moving keeps each of them from becoming empty. -/
theorem isInside_mapPositions {count newCount : Nat} {move moveEnd : Nat → Nat} {clause : Clause}
    (inside : clause.isInside count = true)
    (regions : ∀ region ∈ clause.regions, region.1 < region.2 → region.2 ≤ count →
      move region.1 < moveEnd region.2 ∧ moveEnd region.2 ≤ newCount)
    (filter : ∀ start ∈ clause.filterStart, start < count → move start < newCount) :
    (clause.mapPositions move moveEnd).isInside newCount = true := by
  rw [isInside_iff] at inside ⊢
  have moved : (clause.mapPositions move moveEnd).regions =
      clause.regions.map fun region => (move region.1, moveEnd region.2) := rfl
  rw [moved, List.forall_mem_map]
  refine ⟨?_, ?_⟩
  · intro region regionMem
    rcases inside.1 region regionMem with ⟨order, bound⟩
    exact regions region regionMem order bound
  · intro start movedStart
    rcases Option.map_eq_some_iff.mp movedStart with ⟨old, filterStart, rfl⟩
    exact filter old filterStart (inside.2 old filterStart)

end Clause

namespace Body

/-! ## Validity -/

theorem isWellFormed_of_checkInsertable {instruction : Instruction}
    (checked : checkInsertable instruction = .ok ()) : instruction.isWellFormed = true := by
  unfold checkInsertable at checked
  split at checked
  · assumption
  · cases checked

/-- A body that consists of what a valid one consisted of, with its positions moved, and of instructions that fit is
valid. -/
theorem validate_of_moved {body changed : Body} (move moveEnd : Nat → Nat) (valid : body.validate = .ok ())
    (instructions : ∀ instruction ∈ changed.instructions,
      (∃ old ∈ body.instructions, instruction = old.mapPositions move) ∨
        instruction.isWellFormed = true ∧ ∀ target ∈ instruction.jumpPositions, target < changed.size)
    (targets : ∀ old ∈ body.instructions, ∀ target ∈ old.jumpPositions, target < body.size →
      move target < changed.size)
    (clauses : changed.clauses = body.clauses.map (·.mapPositions move moveEnd))
    (regions : ∀ old ∈ body.clauses, ∀ region ∈ old.regions, region.1 < region.2 → region.2 ≤ body.size →
      move region.1 < moveEnd region.2 ∧ moveEnd region.2 ≤ changed.size)
    (filters : ∀ old ∈ body.clauses, ∀ start ∈ old.filterStart, start < body.size → move start < changed.size) :
    changed.validate = .ok () := by
  rcases validate_eq_ok_iff.mp valid with ⟨oldInstructions, oldClauses⟩
  rw [validate_eq_ok_iff, clauses, List.forall_mem_map]
  refine ⟨?_, ?_⟩
  · intro instruction instructionMem
    rcases instructions instruction instructionMem with ⟨old, oldMem, rfl⟩ | fits
    · rcases oldInstructions old oldMem with ⟨wellFormed, inside⟩
      refine ⟨by rw [Instruction.isWellFormed_mapPositions, wellFormed], ?_⟩
      rw [Instruction.jumpPositions_mapPositions, List.forall_mem_map]
      intro target targetMem
      exact targets old oldMem target targetMem (inside target targetMem)
    · exact fits
  · intro old oldMem
    rcases oldClauses old oldMem with ⟨inside, hasFilter⟩
    refine ⟨Clause.isInside_mapPositions inside (regions old oldMem) (filters old oldMem), ?_⟩
    intro isFilter
    simpa [Clause.mapPositions] using hasFilter isFilter

/-- One more instruction leaves a valid body valid, if its targets are inside and positions keep their order. -/
theorem validate_of_inserted {body changed : Body} {place : Nat} {instruction : Instruction} (move moveEnd : Nat → Nat)
    (valid : body.validate = .ok ()) (bound : place ≤ body.size) (wellFormed : instruction.isWellFormed = true)
    (instructions : changed.instructions =
      (body.instructions.map (·.mapPositions move)).insertIdx place instruction)
    (clauses : changed.clauses = body.clauses.map (·.mapPositions move moveEnd))
    (moves : ∀ position, move position ≤ position + 1 ∧ moveEnd position ≤ position + 1)
    (order : ∀ first last, first < last → move first < moveEnd last)
    (inside : ∀ target ∈ instruction.jumpPositions, target < changed.size) : changed.validate = .ok () := by
  have grown : changed.size = body.size + 1 := by
    simp only [size] at bound ⊢
    rw [instructions, List.length_insertIdx, List.length_map, if_pos bound]
  refine validate_of_moved move moveEnd valid ?_ ?_ clauses ?_ ?_
  · intro other otherMem
    rw [instructions, List.mem_insertIdx (by rw [List.length_map]; exact bound)] at otherMem
    rcases otherMem with rfl | movedMem
    · exact .inr ⟨wellFormed, inside⟩
    · rcases List.mem_map.mp movedMem with ⟨old, oldMem, rfl⟩
      exact .inl ⟨old, oldMem, rfl⟩
  · intro old _ target _ targetInside
    have step := (moves target).1
    omega
  · intro old _ region _ nonempty regionInside
    have step := (moves region.2).2
    exact ⟨order _ _ nonempty, by omega⟩
  · intro old _ start _ startInside
    have step := (moves start).1
    omega

/-! ## What edits that succeed have made -/

theorem insert_eq_ok {body result : Body} {place : Nat} {instruction : Instruction}
    (inserted : body.insert place instruction = .ok result) :
    place ≤ body.size ∧ instruction.isWellFormed = true ∧
      result = { body.mapPositions (shiftFrom place) (shiftAfter place) with
        instructions := (body.instructions.map (·.mapPositions (shiftFrom place))).insertIdx place instruction } := by
  unfold insert at inserted
  split at inserted
  · cases inserted
  · rename_i inside
    rcases Fallible.then_eq_ok_iff.mp inserted with ⟨checked, rest⟩
    rcases Fallible.then_eq_ok_iff.mp rest with ⟨_, made⟩
    cases made
    exact ⟨by omega, isWellFormed_of_checkInsertable checked, rfl⟩

theorem isWellFormed_of_insertBefore {body result : Body} {place : Nat} {instruction : Instruction}
    (inserted : body.insertBefore place instruction = .ok result) : instruction.isWellFormed = true := by
  unfold insertBefore at inserted
  split at inserted
  · cases inserted
  · exact isWellFormed_of_checkInsertable (Fallible.then_eq_ok_iff.mp inserted).1

theorem isWellFormed_of_replace {body result : Body} {place : Nat} {instruction old : Instruction}
    (replaced : body.replace place instruction = .ok (old, result)) : instruction.isWellFormed = true :=
  isWellFormed_of_checkInsertable (Fallible.then_eq_ok_iff.mp replaced).1

theorem remove_eq_ok {body result : Body} {place : Nat} {removed : Instruction}
    (succeeds : body.remove place = .ok (removed, result)) :
    place < body.size ∧
      (place + 1 = body.size → ∀ instruction ∈ body.instructions, place ∉ instruction.jumpPositions) ∧
      (∀ clause ∈ body.clauses, body.emptiesClause place clause = false) ∧
      result = { body.mapPositions (unshiftAfter place) (unshiftAfter place) with
        instructions := (body.instructions.map (·.mapPositions (unshiftAfter place))).eraseIdx place } := by
  unfold remove at succeeds
  split at succeeds
  · cases succeeds
  · rename_i old found
    by_cases missed : place + 1 = body.size ∧ body.instructions.any (·.jumpPositions.contains place) = true
    · rw [if_pos missed] at succeeds
      cases succeeds
    · by_cases emptied : body.clauses.any (body.emptiesClause place) = true
      · rw [if_neg missed, if_pos emptied] at succeeds
        cases succeeds
      · rw [if_neg missed, if_neg emptied] at succeeds
        cases succeeds
        refine ⟨(List.getElem?_eq_some_iff.mp found).1, ?_, by simpa using emptied, rfl⟩
        intro last instruction instructionMem targetMem
        exact missed ⟨last, List.any_eq_true.mpr ⟨instruction, instructionMem, by simpa using targetMem⟩⟩

theorem remove_of_spared {body : Body} {place : Nat} {old : Instruction} (stands : body.instructions[place]? = some old)
    (unnamed : place + 1 = body.size → ∀ instruction ∈ body.instructions, place ∉ instruction.jumpPositions)
    (spared : ∀ clause ∈ body.clauses, body.emptiesClause place clause = false) :
    body.remove place = .ok (old.mapPositions (unshiftAfter place),
      { body.mapPositions (unshiftAfter place) (unshiftAfter place) with
        instructions := (body.instructions.map (·.mapPositions (unshiftAfter place))).eraseIdx place }) := by
  have missed : ¬ (place + 1 = body.size ∧ body.instructions.any (·.jumpPositions.contains place) = true) := by
    rintro ⟨last, named⟩
    rcases List.any_eq_true.mp named with ⟨instruction, instructionMem, targetMem⟩
    exact unnamed last instruction instructionMem (by simpa using targetMem)
  have kept : ¬ body.clauses.any (body.emptiesClause place) = true := by simpa using spared
  simp only [remove, stands, if_neg missed, if_neg kept]
  rfl

/-! ## Edits of valid bodies -/

theorem validate_of_insert {body result : Body} {place : Nat} {instruction : Instruction}
    (valid : body.validate = .ok ()) (inserted : body.insert place instruction = .ok result)
    (inside : ∀ target ∈ instruction.jumpPositions, target < result.size) : result.validate = .ok () := by
  rcases insert_eq_ok inserted with ⟨bound, wellFormed, made⟩
  refine validate_of_inserted (shiftFrom place) (shiftAfter place) valid bound wellFormed (by rw [made])
    (by rw [made]; rfl) ?_ ?_ inside
  · intro position
    unfold shiftFrom shiftAfter
    split <;> split <;> omega
  · intro first last before
    unfold shiftFrom shiftAfter
    split <;> split <;> omega

theorem validate_of_insertBefore {body result : Body} {place : Nat} {instruction : Instruction}
    (valid : body.validate = .ok ()) (inserted : body.insertBefore place instruction = .ok result)
    (inside : ∀ target ∈ instruction.jumpPositions, target < result.size) : result.validate = .ok () := by
  have wellFormed := isWellFormed_of_insertBefore inserted
  rcases insertBefore_eq_ok inserted with ⟨bound, made⟩
  refine validate_of_inserted (shiftAfter place) (shiftAfter place) valid (Nat.le_of_lt bound) wellFormed
    (by rw [made]) (by rw [made]; rfl) ?_ ?_ inside
  · intro position
    unfold shiftAfter
    split <;> omega
  · intro first last before
    unfold shiftAfter
    split <;> split <;> omega

theorem validate_of_replace {body result : Body} {place : Nat} {instruction old : Instruction}
    (valid : body.validate = .ok ()) (replaced : body.replace place instruction = .ok (old, result))
    (inside : ∀ target ∈ instruction.jumpPositions, target < result.size) : result.validate = .ok () := by
  have wellFormed := isWellFormed_of_replace replaced
  rcases replace_eq_ok replaced with ⟨_, rfl⟩
  rcases validate_eq_ok_iff.mp valid with ⟨oldInstructions, oldClauses⟩
  rw [validate_eq_ok_iff]
  simp only [size, List.length_set] at inside oldInstructions oldClauses ⊢
  refine ⟨?_, oldClauses⟩
  intro other otherMem
  rcases List.mem_or_eq_of_mem_set otherMem with oldMem | rfl
  · exact oldInstructions other oldMem
  · exact ⟨wellFormed, inside⟩

/-- A region of a clause that is not emptied has a position besides the one that is taken out. -/
theorem not_emptied_of_emptiesClause {body : Body} {place : Nat} {clause : Clause}
    (spared : body.emptiesClause place clause = false) :
    (∀ region ∈ clause.regions, ¬ (region.1 = place ∧ region.2 = place + 1)) ∧
      (place + 1 = body.size → clause.filterStart ≠ some place) := by
  simpa [emptiesClause, Clause.regions, and_assoc] using spared

theorem validate_of_remove {body result : Body} {place : Nat} {removed : Instruction}
    (valid : body.validate = .ok ()) (succeeds : body.remove place = .ok (removed, result)) :
    result.validate = .ok () := by
  rcases remove_eq_ok succeeds with ⟨bound, missed, spared, made⟩
  have shrunk : result.size + 1 = body.size := by
    rw [made]
    simp only [size] at bound ⊢
    rw [List.length_eraseIdx, List.length_map, if_pos bound]
    omega
  refine validate_of_moved (unshiftAfter place) (unshiftAfter place) valid ?_ ?_ (by rw [made]; rfl) ?_ ?_
  · intro other otherMem
    rw [made] at otherMem
    rcases List.mem_map.mp (List.mem_of_mem_eraseIdx otherMem) with ⟨old, oldMem, rfl⟩
    exact .inl ⟨old, oldMem, rfl⟩
  · intro old oldMem target targetMem inside
    -- a target in the last place would be the place itself
    have elsewhere : place + 1 = body.size → target ≠ place := by
      rintro last rfl
      exact missed last old oldMem targetMem
    unfold unshiftAfter
    split <;> omega
  · intro old oldMem region regionMem nonempty inside
    have kept := (not_emptied_of_emptiesClause (spared old oldMem)).1 region regionMem
    unfold unshiftAfter
    split <;> split <;> omega
  · intro old oldMem start filterStart inside
    have elsewhere : place + 1 = body.size → start ≠ place := by
      rintro last rfl
      exact (not_emptied_of_emptiesClause (spared old oldMem)).2 last filterStart
    unfold unshiftAfter
    split <;> omega

end Body

/-! ## Edits in place -/

/-- A call that edits a body. -/
inductive Edit where
  | insert (place : Nat) (instruction : Instruction)
  | insertBefore (place : Nat) (instruction : Instruction)
  | replace (place : Nat) (instruction : Instruction)
  | remove (place : Nat)

namespace Edit

/-- The targets of the instruction that the edit brings in. -/
def targets : Edit → List Nat
  | insert _ instruction | insertBefore _ instruction | replace _ instruction => instruction.jumpPositions
  | remove _ => []

/-- What the edit makes of a body, and the instruction that it hands back. -/
def outcome (body : Body) : Edit → Except Error (Option Instruction × Body)
  | insert place instruction => (none, ·) <$> body.insert place instruction
  | insertBefore place instruction => (none, ·) <$> body.insertBefore place instruction
  | replace place instruction => (fun (old, changed) => (some old, changed)) <$> body.replace place instruction
  | remove place => (fun (old, changed) => (some old, changed)) <$> body.remove place

/-- Moves the positions of the instructions of a body, and then those of its clauses. -/
def moveInPlace (move moveEnd : Nat → Nat) : Emission Body Unit := do
  modify fun body => { body with instructions := body.instructions.map (·.mapPositions move) }
  modify fun body => { body with clauses := body.clauses.map (·.mapPositions move moveEnd) }

/-- Makes room at `place` and puts an instruction there. -/
def insertInPlace (place : Nat) (instruction : Instruction) (move moveEnd : Nat → Nat) :
    Emission Body (Option Instruction) := do
  Emission.ofExcept (Body.checkInsertable instruction)
  -- a position that would leave the range of indices has to be seen before anything is written
  Emission.ofExcept ((← get).mapPositions move moveEnd).checkPositions
  moveInPlace move moveEnd
  modify fun body => { body with instructions := body.instructions.insertIdx place instruction }
  return none

/-- Carries out the edit on a body where it is. -/
def perform : Edit → Emission Body (Option Instruction)
  | insert place instruction => do
    if (← get).size < place then throw (.structural (.insertPastEnd place))
    insertInPlace place instruction (Body.shiftFrom place) (Body.shiftAfter place)
  | insertBefore place instruction => do
    if (← get).size ≤ place then throw (.structural (.nothingToInsertBefore place))
    insertInPlace place instruction (Body.shiftAfter place) (Body.shiftAfter place)
  | replace place instruction => do
    Emission.ofExcept (Body.checkInsertable instruction)
    match (← get).instructions[place]? with
    | none => throw (.structural (.nothingToReplace place))
    | some old =>
      let placed := { instruction with offset := old.offset }
      modify fun body => { body with instructions := body.instructions.set place placed }
      return some old
  | remove place => do
    let body ← get
    if body.size ≤ place then throw (.structural (.nothingToRemove place))
    if place + 1 = body.size ∧ body.instructions.any (·.jumpPositions.contains place) then
      throw (.structural .lastIsTarget)
    if body.clauses.any (body.emptiesClause place) then throw (.structural (.emptiesRegion place))
    moveInPlace (Body.unshiftAfter place) (Body.unshiftAfter place)
    let old := (← get).instructions[place]?
    modify fun body => { body with instructions := body.instructions.eraseIdx place }
    return old

/-- What an edit in place comes to if it leaves the body as it was when it fails. -/
def settle (body : Body) : Except Error (Option Instruction × Body) → Except Error (Option Instruction) × Body
  | .error error => (.error error, body)
  | .ok (old, changed) => (.ok old, changed)

theorem get_bind (next : Body → Emission Body (Option Instruction)) (body : Body) :
    (get >>= next) body = next body body := rfl

/-- A check in place leaves the body alone. -/
theorem check_bind (check : Except Error Unit) (next : Emission Body (Option Instruction)) (body : Body) :
    (Emission.ofExcept check >>= fun _ => next) body =
      match check with
      | .error error => (.error error, body)
      | .ok () => next body := by
  cases check with
  | error error => rfl
  | ok checked => rfl

theorem insertInPlace_eq (body : Body) (place : Nat) (instruction : Instruction) (move moveEnd : Nat → Nat) :
    insertInPlace place instruction move moveEnd body = settle body ((none, ·) <$> do
      Body.checkInsertable instruction
      (body.mapPositions move moveEnd).checkPositions
      return { body.mapPositions move moveEnd with
        instructions := (body.instructions.map (·.mapPositions move)).insertIdx place instruction }) := by
  simp only [insertInPlace, check_bind, get_bind]
  cases Body.checkInsertable instruction with
  | error error => rfl
  | ok checked =>
      simp only
      cases indices : (body.mapPositions move moveEnd).checkPositions with
      | error error => rfl
      | ok fine => rfl

/-- An edit in place fails before it has written anything, or makes of the body what it is said to make of it. -/
theorem perform_eq_settle (edit : Edit) (body : Body) : edit.perform body = settle body (edit.outcome body) := by
  cases edit with
  | insert place instruction =>
      simp only [perform, outcome, Body.insert, get_bind]
      by_cases past : body.size < place
      · rw [if_pos past, if_pos past]
        rfl
      · rw [if_neg past, if_neg past]
        exact insertInPlace_eq body place instruction _ _
  | insertBefore place instruction =>
      simp only [perform, outcome, Body.insertBefore, get_bind]
      by_cases past : body.size ≤ place
      · rw [if_pos past, if_pos past]
        rfl
      · rw [if_neg past, if_neg past]
        exact insertInPlace_eq body place instruction _ _
  | replace place instruction =>
      simp only [perform, outcome, Body.replace, check_bind, get_bind]
      cases Body.checkInsertable instruction with
      | error error => rfl
      | ok checked =>
          simp only
          cases found : body.instructions[place]? with
          | none => rfl
          | some old => rfl
  | remove place =>
      simp only [perform, outcome, Body.remove, get_bind]
      cases found : body.instructions[place]? with
      | none =>
          have past : body.size ≤ place := List.getElem?_eq_none_iff.mp found
          rw [if_pos past]
          rfl
      | some old =>
          have inside : ¬ body.size ≤ place := Nat.not_le.mpr (List.getElem?_eq_some_iff.mp found).1
          rw [if_neg inside]
          by_cases missed : place + 1 = body.size ∧ body.instructions.any (·.jumpPositions.contains place) = true
          · simp only [if_pos missed]
            rfl
          · simp only [if_neg missed]
            by_cases emptied : body.clauses.any (body.emptiesClause place) = true
            · simp only [if_pos emptied]
              rfl
            · simp only [if_neg emptied]
              have movedOld : (body.instructions.map (·.mapPositions (Body.unshiftAfter place)))[place]? =
                  some (old.mapPositions (Body.unshiftAfter place)) := by
                rw [List.getElem?_map, found, Option.map_some]
              change (Except.ok (body.instructions.map (·.mapPositions (Body.unshiftAfter place)))[place]?, _) = _
              rw [movedOld]
              rfl

/-! ## Runs of edits -/

theorem validate_of_outcome {edit : Edit} {body changed : Body} {old : Option Instruction}
    (valid : body.validate = .ok ()) (succeeds : edit.outcome body = .ok (old, changed))
    (inside : ∀ target ∈ edit.targets, target < changed.size) : changed.validate = .ok () := by
  cases edit with
  | insert place instruction =>
      rcases Fallible.map_eq_ok_iff.mp succeeds with ⟨result, inserted, same⟩
      cases same
      exact Body.validate_of_insert valid inserted inside
  | insertBefore place instruction =>
      rcases Fallible.map_eq_ok_iff.mp succeeds with ⟨result, inserted, same⟩
      cases same
      exact Body.validate_of_insertBefore valid inserted inside
  | replace place instruction =>
      rcases Fallible.map_eq_ok_iff.mp succeeds with ⟨⟨replaced, result⟩, replaces, same⟩
      cases same
      exact Body.validate_of_replace valid replaces inside
  | remove place =>
      rcases Fallible.map_eq_ok_iff.mp succeeds with ⟨⟨removed, result⟩, removes, same⟩
      cases same
      exact Body.validate_of_remove valid removes

theorem perform_eq_ok {edit : Edit} {body after : Body} {old : Option Instruction}
    (performed : edit.perform body = (.ok old, after)) : edit.outcome body = .ok (old, after) := by
  rw [perform_eq_settle] at performed
  cases made : edit.outcome body with
  | error error =>
      rw [made] at performed
      cases performed
  | ok result =>
      rw [made] at performed
      cases performed
      rfl

theorem perform_eq_error {edit : Edit} {body after : Body} {error : Error}
    (performed : edit.perform body = (.error error, after)) : edit.outcome body = .error error ∧ after = body := by
  rw [perform_eq_settle] at performed
  cases made : edit.outcome body with
  | error error =>
      rw [made] at performed
      cases performed
      exact ⟨rfl, rfl⟩
  | ok result =>
      rw [made] at performed
      cases performed

/-- The body after edits in place one after the other, whichever of them fail. -/
def run : List Edit → Body → Body
  | [], body => body
  | edit :: edits, body => run edits (edit.perform body).2

/-- Whether what each edit of a run brings in has its targets inside the body that it is then part of. -/
def KeepInside : List Edit → Body → Prop
  | [], _ => True
  | edit :: edits, body =>
    ((edit.perform body).1.isOk = true → ∀ target ∈ edit.targets, target < (edit.perform body).2.size) ∧
      KeepInside edits (edit.perform body).2

theorem run_append (earlier later : List Edit) (body : Body) :
    run (earlier ++ later) body = run later (run earlier body) := by
  induction earlier generalizing body with
  | nil => rfl
  | cons edit earlier ih => exact ih _

/-- One step: an edit in place keeps a valid body valid, whether it fails or not. -/
theorem validate_perform {edit : Edit} {body : Body} (valid : body.validate = .ok ())
    (inside : (edit.perform body).1.isOk = true → ∀ target ∈ edit.targets, target < (edit.perform body).2.size) :
    (edit.perform body).2.validate = .ok () := by
  rcases performed : edit.perform body with ⟨outcome, after⟩
  rw [performed] at inside
  cases outcome with
  | error error =>
      rw [(perform_eq_error performed).2]
      exact valid
  | ok old => exact validate_of_outcome valid (perform_eq_ok performed) (inside rfl)

/-- Any number of steps. -/
theorem validate_run {edits : List Edit} {body : Body} (valid : body.validate = .ok ())
    (inside : KeepInside edits body) : (run edits body).validate = .ok () := by
  induction edits generalizing body with
  | nil => exact valid
  | cons edit edits ih => exact ih (validate_perform valid inside.1) inside.2

/-- After any run of edits on a valid body, an edit that fails leaves the body as it is, and one that succeeds leaves
a body that is valid, provided that the targets of what was brought in are inside. Either way, it is what the edit is
said to come to. -/
theorem edits_keep_valid (body : Body) (valid : body.validate = .ok ()) (earlier : List Edit) (edit : Edit) :
    (∀ error after, edit.perform (run earlier body) = (.error error, after) →
      edit.outcome (run earlier body) = .error error ∧ after = run earlier body) ∧
    ∀ old after, edit.perform (run earlier body) = (.ok old, after) →
      edit.outcome (run earlier body) = .ok (old, after) ∧
        (KeepInside (earlier ++ [edit]) body → after.validate = .ok ()) := by
  refine ⟨fun error after failed => perform_eq_error failed, ?_⟩
  intro old after succeeds
  refine ⟨perform_eq_ok succeeds, ?_⟩
  intro inside
  have final : run (earlier ++ [edit]) body = after := by
    rw [run_append, run, run, succeeds]
  rw [← final]
  exact validate_run valid inside

/-- Edits of the guarded body, the first of which is past its end and fails. -/
def guardedEdits : List Edit :=
  [.insert 7 (.unplaced .nop .none), .insertBefore 3 (.unplaced .dup .none), .remove 4]

/-- A branch to the end in the place of the guarded call's argument. -/
def guardedSkip : Edit := .replace 0 (.unplaced .brS (.target 5))

theorem edits_keep_valid_guardedBody :
    Body.guardedBody.validate = .ok () ∧ KeepInside (guardedEdits ++ [guardedSkip]) Body.guardedBody ∧
      (Edit.remove 5).perform (run guardedEdits Body.guardedBody) =
        (.error (.structural .lastIsTarget), run guardedEdits Body.guardedBody) ∧
      (guardedSkip.perform (run guardedEdits Body.guardedBody)).2.validate = .ok () ∧
      (run guardedEdits Body.guardedBody).clauses.map Clause.regions = [[(0, 3), (3, 5)]] := by
  have valid : Body.guardedBody.validate = .ok () := by decide +kernel
  have inside : KeepInside (guardedEdits ++ [guardedSkip]) Body.guardedBody := by
    simp only [guardedEdits, List.cons_append, List.nil_append, KeepInside]
    decide +kernel
  have removed : ((Edit.remove 5).perform (run guardedEdits Body.guardedBody)).1 =
      .error (.structural .lastIsTarget) := by
    decide +kernel
  have fails : (Edit.remove 5).perform (run guardedEdits Body.guardedBody) =
      (.error (.structural .lastIsTarget), _) := Prod.ext removed rfl
  have replaced : (guardedSkip.perform (run guardedEdits Body.guardedBody)).1 =
      .ok Body.guardedBody.instructions.head? := by
    decide +kernel
  have succeeds : guardedSkip.perform (run guardedEdits Body.guardedBody) =
      (.ok Body.guardedBody.instructions.head?, _) := Prod.ext replaced rfl
  have same := ((edits_keep_valid Body.guardedBody valid guardedEdits (.remove 5)).1 _ _ fails).2
  have kept := ((edits_keep_valid Body.guardedBody valid guardedEdits guardedSkip).2 _ _ succeeds).2 inside
  exact ⟨valid, inside, fails.trans (by rw [same]), kept, by decide +kernel⟩

end Edit

end CilRelink
