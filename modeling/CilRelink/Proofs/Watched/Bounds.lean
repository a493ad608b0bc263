import CilRelink.Proofs.Body.Edits
import CilRelink.Proofs.Watched.Layout

/-!
# Targets at the end of all indices

Bodies that were never validated may have targets anywhere. Layout and encoding compare a target with the number of
instructions by adding one to it, and insertion adds one to each position behind the place. So the last of all indices
is the one that they do not survive: any other target outside is told as a defect, and any other position is moved.

Sizes are added up before any target is looked at. A jump table of so many entries that its size is not a number of four
bytes makes layout and encoding overflow there, wherever its targets lead, unless the code in front of it is too large.
-/

namespace CilRelink

/-- Whether every position of the body has an index after it. -/
def Body.HasRoom (body : Body) : Prop := ∀ position ∈ body.positions, position + 1 < Code.indexLimit

instance (body : Body) : Decidable body.HasRoom :=
  inferInstanceAs (Decidable (∀ position ∈ body.positions, position + 1 < Code.indexLimit))

/-- A scope refuses nothing. -/
theorem Scope.not_refuses (error : Error) : ¬ Scope.emitter.Refuses error := by
  rintro ⟨operand, action, asked, before, after, refused⟩
  cases operand with
  | symbol reference => cases reference <;> cases asked <;> cases refused
  | _ => cases asked <;> cases refused

namespace Watched

variable {State α β : Type}

/-! ## Insertion -/

/-- The position after one, if it is moved. -/
def shifted (moves : Prop) [Decidable moves] (position : Nat) : Watched State Nat :=
  if moves then increment position else return position

/-- The instruction with its positions moved. -/
def remapTargets (move : Nat → Watched State Nat) (instruction : Instruction) : Watched State Instruction :=
  match instruction.operand with
  | .target position => do
    let moved ← move position
    return { instruction with operand := .target moved }
  | .targets positions => do
    let moved ← positions.mapM move
    return { instruction with operand := .targets moved }
  | _ => return instruction

/-- The clause with its positions moved. -/
def remap (moveStart moveEnd : Nat → Watched State Nat) (clause : Clause) : Watched State Clause := do
  let tryStart ← moveStart clause.tryStart
  let handlerStart ← moveStart clause.handlerStart
  let filterStart ← clause.filterStart.mapM moveStart
  let tryEnd ← moveEnd clause.tryEnd
  let handlerEnd ← moveEnd clause.handlerEnd
  return { clause with tryStart, tryEnd, handlerStart, handlerEnd, filterStart }

/-- The body with its positions moved and an instruction put in. -/
def shiftAround (moveStart moveEnd : Nat → Watched State Nat) (body : Body) (place : Nat) (instruction : Instruction) :
    Watched State Body := do
  let instructions ← body.instructions.mapM (remapTargets moveStart)
  let clauses ← body.clauses.mapM (remap moveStart moveEnd)
  return { body with instructions := instructions.insertIdx place instruction, clauses }

/-- Puts an instruction at `place`. -/
def insert (body : Body) (place : Nat) (instruction : Instruction) : Watched State Body :=
  if body.size < place then throw (.structural (.insertPastEnd place))
  else do
    ofExcept (Body.checkInsertable instruction)
    shiftAround (fun position => shifted (place ≤ position) position)
      (fun position => shifted (place < position) position) body place instruction

/-- Puts an instruction in front of the one at `place`. -/
def insertBefore (body : Body) (place : Nat) (instruction : Instruction) : Watched State Body :=
  if body.size ≤ place then throw (.structural (.nothingToInsertBefore place))
  else do
    ofExcept (Body.checkInsertable instruction)
    shiftAround (fun position => shifted (place < position) position)
      (fun position => shifted (place < position) position) body place instruction

/-- Comes to a value if a condition holds, and overflows if it does not. -/
def guarded (condition : Bool) (value : α) : Watched State α := do
  watch condition .cutNumber
  return value

theorem guarded_bind_guarded (condition : Bool) (value : α) (later : α → Bool) (next : α → β) :
    (guarded condition value >>= fun value => guarded (later value) (next value) : Watched State β) =
      guarded (condition && later value) (next value) := by
  cases condition <;> rfl

theorem guarded_bind_pure (condition : Bool) (value : α) (next : α → β) :
    (guarded condition value >>= fun value => pure (next value) : Watched State β) =
      guarded condition (next value) := by
  cases condition <;> rfl

theorem map_guarded (change : α → β) (condition : Bool) (value : α) :
    change <$> (guarded condition value : Watched State α) = guarded condition (change value) := by
  rw [← bind_pure_comp, guarded_bind_pure]

theorem guarded_eq_trapExcept (condition : Bool) (value : α) :
    (guarded condition value : Watched State α) =
      trapExcept (if condition then .ok value else .error .positionOverflow) := by
  cases condition <;> rfl

theorem mapM_eq_guarded {step : α → Watched State β} {fine : α → Bool} {change : α → β}
    (each : ∀ member, step member = guarded (fine member) (change member)) (list : List α) :
    list.mapM step = guarded (list.all fine) (list.map change) := by
  induction list with
  | nil => rfl
  | cons member list ih =>
      rw [List.mapM_cons, each, ih]
      simp only [guarded_bind_pure]
      rw [guarded_bind_guarded]
      rfl

/-- A position is moved if its new place is an index; it stays where it is only if it is one. -/
theorem shifted_eq_guarded {moves : Prop} [Decidable moves] {position : Nat}
    (still : ¬ moves → position < Code.indexLimit) :
    (shifted moves position : Watched State Nat) =
      guarded ((if moves then position + 1 else position) < Code.indexLimit)
        (if moves then position + 1 else position) := by
  unfold shifted
  split
  · rw [increment]
    by_cases below : position + 1 < Code.indexLimit <;> simp [guarded, watch, below]
  · rename_i stays
    simp [guarded, watch, still stays]

section Moves

variable {move moveEnd : Nat → Watched State Nat} {plain plainEnd : Nat → Nat}

theorem remapTargets_eq_guarded
    (each : ∀ position, move position = guarded (plain position < Code.indexLimit) (plain position))
    (instruction : Instruction) :
    remapTargets move instruction =
      guarded ((instruction.mapPositions plain).jumpPositions.all (· < Code.indexLimit))
        (instruction.mapPositions plain) := by
  rcases instruction with ⟨offset, opcode, operand⟩
  unfold remapTargets Instruction.mapPositions Instruction.jumpPositions
  cases operand with
  | target position =>
      simp only [each, guarded_bind_pure]
      simp [Operand.mapPositions, Operand.positions]
  | targets positions =>
      simp only [mapM_eq_guarded each, guarded_bind_pure]
      simp [Operand.mapPositions, Operand.positions, Function.comp_def]
  | _ => rfl

theorem remap_eq_guarded
    (each : ∀ position, move position = guarded (plain position < Code.indexLimit) (plain position))
    (eachEnd : ∀ position, moveEnd position = guarded (plainEnd position < Code.indexLimit) (plainEnd position))
    (clause : Clause) :
    remap move moveEnd clause =
      guarded ((clause.mapPositions plain plainEnd).positions.all (· < Code.indexLimit))
        (clause.mapPositions plain plainEnd) := by
  rcases clause with ⟨flags, tryStart, tryEnd, handlerStart, handlerEnd, catchType, filterStart⟩
  unfold remap Clause.mapPositions Clause.positions
  cases filterStart with
  | none =>
      simp only [each, eachEnd, Option.mapM_none, pure_bind, guarded_bind_pure, guarded_bind_guarded]
      congr 1
      simp only [Option.map_none, Option.toList_none, List.append_nil, List.all_cons, List.all_nil, Bool.and_true,
        Bool.and_left_comm]
  | some position =>
      simp only [each, eachEnd, Option.mapM_some, map_guarded, guarded_bind_pure, guarded_bind_guarded]
      congr 1
      simp only [Option.map_some, Option.toList_some, List.cons_append, List.nil_append, List.all_cons, List.all_nil,
        Bool.true_and, Bool.and_left_comm, Bool.and_comm]

/-- All positions are moved, or one of them overflows. -/
theorem shiftAround_eq_guarded
    (each : ∀ position, move position = guarded (plain position < Code.indexLimit) (plain position))
    (eachEnd : ∀ position, moveEnd position = guarded (plainEnd position < Code.indexLimit) (plainEnd position))
    (body : Body) (place : Nat) (instruction : Instruction) :
    shiftAround move moveEnd body place instruction =
      let moved := body.mapPositions plain plainEnd
      guarded (moved.positions.all (· < Code.indexLimit))
        { moved with instructions := moved.instructions.insertIdx place instruction } := by
  unfold shiftAround Body.mapPositions Body.positions
  rw [mapM_eq_guarded (remapTargets_eq_guarded each), mapM_eq_guarded (remap_eq_guarded each eachEnd)]
  simp only [guarded_bind_pure, guarded_bind_guarded]
  congr 1
  simp [List.all_flatMap, Function.comp_def]

end Moves

section Insertions

variable {body : Body} {place : Nat} {instruction : Instruction}

/-- What an insertion at a place inside comes to. -/
def putIn (body : Body) (place : Nat) (instruction : Instruction) (move moveEnd : Nat → Nat) : Except Error Body :=
  if instruction.isWellFormed then
    let moved := body.mapPositions move moveEnd
    if moved.positions.all (· < Code.indexLimit) then
      .ok { moved with instructions := moved.instructions.insertIdx place instruction }
    else .error .positionOverflow
  else .error (.structural (.notInsertable instruction))

theorem check_bind_pure (condition : Bool) (value : α) :
    ((if condition then .ok () else .error .positionOverflow : Except Error Unit) >>= fun _ => pure value) =
      if condition then .ok value else .error .positionOverflow := by
  cases condition <;> rfl

theorem insert_of_inside (inside : ¬ body.size < place) (instruction : Instruction) :
    body.insert place instruction = putIn body place instruction (Body.shiftFrom place) (Body.shiftAfter place) := by
  unfold Body.insert Body.checkInsertable Body.checkPositions putIn
  rw [if_neg inside]
  cases instruction.isWellFormed with
  | false => rfl
  | true =>
      exact check_bind_pure _ _

theorem insertBefore_of_inside (inside : ¬ body.size ≤ place) (instruction : Instruction) :
    body.insertBefore place instruction =
      putIn body place instruction (Body.shiftAfter place) (Body.shiftAfter place) := by
  unfold Body.insertBefore Body.checkInsertable Body.checkPositions putIn
  rw [if_neg inside]
  cases instruction.isWellFormed with
  | false => rfl
  | true =>
      exact check_bind_pure _ _

theorem check_shiftAround_eq_trapExcept {move moveEnd : Nat → Watched State Nat} {plain plainEnd : Nat → Nat}
    (each : ∀ position, move position = guarded (plain position < Code.indexLimit) (plain position))
    (eachEnd : ∀ position, moveEnd position = guarded (plainEnd position < Code.indexLimit) (plainEnd position))
    (body : Body) (place : Nat) (instruction : Instruction) :
    (ofExcept (Body.checkInsertable instruction) >>= fun _ => shiftAround move moveEnd body place instruction) =
      trapExcept (putIn body place instruction plain plainEnd) := by
  unfold Body.checkInsertable putIn
  cases instruction.isWellFormed with
  | false => rfl
  | true =>
      rw [shiftAround_eq_guarded each eachEnd]
      exact guarded_eq_trapExcept _ _

/-- As long as positions inside have indices after them, what is not moved is an index. -/
theorem insert_eq_trapExcept (room : body.size + 1 < Code.indexLimit) (place : Nat) (instruction : Instruction) :
    (insert body place instruction : Watched State Body) = trapExcept (body.insert place instruction) := by
  unfold insert
  by_cases past : body.size < place
  · rw [if_pos past, Body.insert, if_pos past]
    rfl
  · rw [if_neg past, insert_of_inside past]
    apply check_shiftAround_eq_trapExcept
    · exact fun position => shifted_eq_guarded fun still => by omega
    · exact fun position => shifted_eq_guarded fun still => by omega

theorem insertBefore_eq_trapExcept (room : body.size + 1 < Code.indexLimit) (place : Nat) (instruction : Instruction) :
    (insertBefore body place instruction : Watched State Body) = trapExcept (body.insertBefore place instruction) := by
  unfold insertBefore
  by_cases past : body.size ≤ place
  · rw [if_pos past, Body.insertBefore, if_pos past]
    rfl
  · rw [if_neg past, insertBefore_of_inside past]
    apply check_shiftAround_eq_trapExcept
    · exact fun position => shifted_eq_guarded fun still => by omega
    · exact fun position => shifted_eq_guarded fun still => by omega

/-- Positions without an index after them are behind every place, and so they are moved. -/
theorem all_positions_mapPositions {move moveEnd : Nat → Nat}
    (each : ∀ position, move position < Code.indexLimit ↔ position + 1 < Code.indexLimit)
    (eachEnd : ∀ position, moveEnd position < Code.indexLimit ↔ position + 1 < Code.indexLimit) (body : Body) :
    (body.mapPositions move moveEnd).positions.all (· < Code.indexLimit) = decide body.HasRoom := by
  have instructions (instruction : Instruction) :
      (∀ position ∈ (instruction.mapPositions move).jumpPositions, position < Code.indexLimit) ↔
        ∀ position ∈ instruction.jumpPositions, position + 1 < Code.indexLimit := by
    rw [Instruction.jumpPositions_mapPositions, List.forall_mem_map]
    exact forall₂_congr fun position _ => each position
  have clauses (clause : Clause) :
      (∀ position ∈ (clause.mapPositions move moveEnd).positions, position < Code.indexLimit) ↔
        ∀ position ∈ clause.positions, position + 1 < Code.indexLimit := by
    rcases clause with ⟨flags, tryStart, tryEnd, handlerStart, handlerEnd, catchType, filterStart⟩
    cases filterStart <;> simp [Clause.mapPositions, Clause.positions, each, eachEnd]
  rw [Bool.eq_iff_iff, List.all_eq_true, decide_eq_true_eq]
  simp only [decide_eq_true_eq, Body.HasRoom, Body.positions, Body.mapPositions, List.forall_mem_append,
    List.forall_mem_flatMap, List.forall_mem_map, instructions, clauses]

theorem putIn_of_wellFormed {move moveEnd : Nat → Nat} (wellFormed : instruction.isWellFormed = true)
    (each : ∀ position, move position < Code.indexLimit ↔ position + 1 < Code.indexLimit)
    (eachEnd : ∀ position, moveEnd position < Code.indexLimit ↔ position + 1 < Code.indexLimit) (body : Body)
    (place : Nat) :
    putIn body place instruction move moveEnd =
      if body.HasRoom then
        let moved := body.mapPositions move moveEnd
        .ok { moved with instructions := moved.instructions.insertIdx place instruction }
      else .error .positionOverflow := by
  unfold putIn
  simp only
  rw [if_pos wellFormed, all_positions_mapPositions each eachEnd]
  simp only [decide_eq_true_eq]

theorem shiftFrom_lt_indexLimit_iff (small : place + 1 < Code.indexLimit) (position : Nat) :
    Body.shiftFrom place position < Code.indexLimit ↔ position + 1 < Code.indexLimit := by
  unfold Body.shiftFrom
  split <;> omega

theorem shiftAfter_lt_indexLimit_iff (small : place + 1 < Code.indexLimit) (position : Nat) :
    Body.shiftAfter place position < Code.indexLimit ↔ position + 1 < Code.indexLimit := by
  unfold Body.shiftAfter
  split <;> omega

/-- An instruction that fits is put in at every place, unless a position has no index after it. -/
theorem insert_of_wellFormed (room : body.size + 1 < Code.indexLimit) (inside : place ≤ body.size)
    (wellFormed : instruction.isWellFormed = true) :
    body.insert place instruction =
      if body.HasRoom then
        let moved := body.mapPositions (Body.shiftFrom place) (Body.shiftAfter place)
        .ok { moved with instructions := moved.instructions.insertIdx place instruction }
      else .error .positionOverflow := by
  have small : place + 1 < Code.indexLimit := by omega
  rw [insert_of_inside (Nat.not_lt_of_le inside),
    putIn_of_wellFormed wellFormed (shiftFrom_lt_indexLimit_iff small) (shiftAfter_lt_indexLimit_iff small)]

theorem insertBefore_of_wellFormed (room : body.size + 1 < Code.indexLimit) (inside : place < body.size)
    (wellFormed : instruction.isWellFormed = true) :
    body.insertBefore place instruction =
      if body.HasRoom then
        let moved := body.mapPositions (Body.shiftAfter place) (Body.shiftAfter place)
        .ok { moved with instructions := moved.instructions.insertIdx place instruction }
      else .error .positionOverflow := by
  have small : place + 1 < Code.indexLimit := by omega
  rw [insertBefore_of_inside (Nat.not_le_of_lt inside),
    putIn_of_wellFormed wellFormed (shiftAfter_lt_indexLimit_iff small) (shiftAfter_lt_indexLimit_iff small)]

theorem exists_insert_eq_defect (refused : ¬ (place ≤ body.size ∧ instruction.isWellFormed = true)) :
    ∃ defect, body.insert place instruction = .error (.structural defect) := by
  by_cases past : body.size < place
  · rw [Body.insert, if_pos past]
    exact ⟨_, rfl⟩
  · rw [insert_of_inside past, putIn, if_neg fun wellFormed => refused ⟨Nat.le_of_not_lt past, wellFormed⟩]
    exact ⟨_, rfl⟩

theorem exists_insertBefore_eq_defect (refused : ¬ (place < body.size ∧ instruction.isWellFormed = true)) :
    ∃ defect, body.insertBefore place instruction = .error (.structural defect) := by
  by_cases past : body.size ≤ place
  · rw [Body.insertBefore, if_pos past]
    exact ⟨_, rfl⟩
  · rw [insertBefore_of_inside past, putIn, if_neg fun wellFormed => refused ⟨Nat.lt_of_not_le past, wellFormed⟩]
    exact ⟨_, rfl⟩

end Insertions

/-! ## The last of all indices -/

/-- Whether an outcome is that of putting an instruction in: a defect if it may not stand there, and otherwise the body
with all positions moved, if each of them has an index after it. -/
def PutsIn (outcome : Except Error Body) (mayStand : Prop) (body : Body) (place : Nat) (instruction : Instruction)
    (move moveEnd : Nat → Nat) : Prop :=
  (¬ mayStand → ∃ defect, outcome = .error (.structural defect)) ∧
    (mayStand → outcome =
      if body.HasRoom then
        let moved := body.mapPositions move moveEnd
        .ok { moved with instructions := moved.instructions.insertIdx place instruction }
      else .error .positionOverflow)

/-- Wherever the targets of code lead, no place is looked up that is not there, and nothing overflows but what tells
so: layout just at the first target that it misses, and encoding at most there, if there is no index after that target.
So if an operand that fits leads outside, both tell a defect, up to this overflow and to what an emitter refuses before.
This is so for code that meets no jump table of `2 ^ 30 - 1` entries or more; at the size of such a table both overflow.
Insertion moves all positions, unless one has no index after it. -/
theorem bounds_checked_unless_last_index (code : List Instruction) :
    ((MeetsOversized 0 code → layout code = .error .cutNumber) ∧
      (¬ MeetsOversized 0 code → layout code = trapped (Code.layout code)) ∧
      ((Code.layout code).1 = .error .positionOverflow ↔ Code.Overflows (Code.layoutMiss? code)) ∧
      (Code.LeadsOutside code.length code →
        ∃ error, (Code.layout code).1 = .error error ∧ Code.Answers (Code.layoutMiss? code) error)) ∧
    (∀ {State : Type} (emitter : Emitter State) (before : State), ¬ emitter.Refuses .positionOverflow →
      (MeetsOversized 0 code → encodeCode emitter code before = .error .cutNumber) ∧
        (¬ MeetsOversized 0 code → encodeCode emitter code before = trapped (Code.encode emitter code before)) ∧
        ((Code.encode emitter code before).1 = .error .positionOverflow → Code.Overflows (Code.encodeMiss? code)) ∧
        (Code.LeadsOutside code.length code → ∃ error, (Code.encode emitter code before).1 = .error error ∧
          (emitter.Refuses error ∨ Code.Answers (Code.encodeMiss? code) error))) ∧
    ((∀ branch ∈ code, branch.operand.tableLength < 2 ^ 30 - 1) → ¬ MeetsOversized 0 code) ∧
    ((∀ branch ∈ code, ∀ target ∈ branch.jumpPositions, target + 1 < 2 ^ 64) →
      ¬ Code.Overflows (Code.layoutMiss? code) ∧ ¬ Code.Overflows (Code.encodeMiss? code)) ∧
    ∀ (body : Body) (place : Nat) (instruction : Instruction), body.instructions = code → code.length + 1 < 2 ^ 64 →
      (∀ {State : Type} (before : State),
        insert body place instruction before = trapped (body.insert place instruction, before) ∧
          insertBefore body place instruction before = trapped (body.insertBefore place instruction, before)) ∧
        PutsIn (body.insert place instruction) (place ≤ body.size ∧ instruction.isWellFormed = true) body place
          instruction (Body.shiftFrom place) (Body.shiftAfter place) ∧
        PutsIn (body.insertBefore place instruction) (place < body.size ∧ instruction.isWellFormed = true) body place
          instruction (Body.shiftAfter place) (Body.shiftAfter place) := by
  refine ⟨⟨layout_of_meetsOversized, layout_eq_trapped, Code.layout_overflows_iff, fun outside => ?_⟩, ?_,
    not_meetsOversized_of_few, Code.not_overflows_miss, ?_⟩
  · rcases Code.layout_of_leadsOutside outside with ⟨error, result, failed, answers⟩
    exact ⟨error, congrArg Prod.fst failed, answers⟩
  · intro State emitter before honest
    refine ⟨fun meets => congrFun (encodeCode_of_meetsOversized emitter meets) before,
      fun kept => congrFun (encodeCode_eq_trap honest kept) before, fun overflows => ?_, fun outside => ?_⟩
    · rcases Code.answers_of_encode (Prod.ext overflows rfl) with refused | answers
      · exact absurd refused honest
      · exact answers.eq_positionOverflow_iff.mp rfl
    · rcases Code.encode_of_leadsOutside outside emitter before with ⟨error, after, failed, answers⟩
      exact ⟨error, congrArg Prod.fst failed, answers⟩
  · rintro body place instruction rfl room
    refine ⟨fun before => ⟨congrFun (insert_eq_trapExcept room place instruction) before,
      congrFun (insertBefore_eq_trapExcept room place instruction) before⟩, ?_, ?_⟩
    · exact ⟨exists_insert_eq_defect, fun may => insert_of_wellFormed room may.1 may.2⟩
    · exact ⟨exists_insertBefore_eq_defect, fun may => insertBefore_of_wellFormed room may.1 may.2⟩

theorem meetsOversized_table {targets : List Nat} (many : tableLimit ≤ targets.length) :
    MeetsOversized 0 [.unplaced .switch (.targets targets)] := by
  refine ⟨0, _, rfl, ?_, rfl, many⟩
  rw [List.take_zero, Code.size_nil]
  decide

/-- A jump table that leads to the last index but one. -/
def distantCode : List Instruction :=
  [.unplaced .switch (.targets [1, 2 ^ 64 - 2]), .unplaced .ret .none]

theorem bounds_checked_unless_last_index_distantCode :
    Code.LeadsOutside distantCode.length distantCode ∧ ¬ Scope.emitter.Refuses .positionOverflow ∧
      (∀ branch ∈ distantCode, ∀ target ∈ branch.jumpPositions, target + 1 < 2 ^ 64) ∧
      (∀ branch ∈ distantCode, branch.operand.tableLength < 2 ^ 30 - 1) ∧
      distantCode.length + 1 < 2 ^ 64 ∧ Code.layoutMiss? distantCode = some (2 ^ 64 - 2) ∧
      (∃ defect, layout distantCode = .ok (.error (.structural defect), Code.placeFrom 0 distantCode)) ∧
      (∃ defect, encodeCode Scope.emitter distantCode Scope.empty = .ok (.error (.structural defect), Scope.empty)) ∧
      (∃ body, insert (Body.ofInstructions distantCode) 1 (.unplaced .nop .none) () = .ok (.ok body, ()) ∧
        body.instructions.flatMap Instruction.jumpPositions = [2, 2 ^ 64 - 1]) ∧
      ∃ code, MeetsOversized 0 code ∧ layout code = .error .cutNumber ∧
        encodeCode Scope.emitter code Scope.empty = .error .cutNumber := by
  have outside : Code.LeadsOutside distantCode.length distantCode :=
    ⟨_, List.mem_cons_self, rfl, 2 ^ 64 - 2, by decide, by decide⟩
  have room : ∀ branch ∈ distantCode, ∀ target ∈ branch.jumpPositions, target + 1 < 2 ^ 64 := by decide
  have few : ∀ branch ∈ distantCode, branch.operand.tableLength < 2 ^ 30 - 1 := by decide
  have honest := Scope.not_refuses .positionOverflow
  rcases bounds_checked_unless_last_index distantCode with
    ⟨⟨_, sameLayout, _, layoutFails⟩, encoding, small, inBounds, insertion⟩
  rcases encoding Scope.emitter Scope.empty honest with ⟨_, sameEncoding, _, encodeFails⟩
  rcases insertion (Body.ofInstructions distantCode) 1 (.unplaced .nop .none) rfl (by decide) with
    ⟨sameInsertion, ⟨_, moves⟩, _⟩
  have hasRoom : (Body.ofInstructions distantCode).HasRoom := by decide
  have placed : (Code.layout distantCode).2 = Code.placeFrom 0 distantCode := by decide +kernel
  have untouched : (Code.encode Scope.emitter distantCode Scope.empty).2 = Scope.empty := by decide +kernel
  refine ⟨outside, honest, room, few, by decide, by decide +kernel, ?_, ?_, ?_, ?_⟩
  · rcases layoutFails outside with ⟨error, failed, ⟨overflows, _⟩ | ⟨_, defect, rfl⟩⟩
    · exact absurd overflows (inBounds room).1
    · have outcome : Code.layout distantCode = (.error (.structural defect), Code.placeFrom 0 distantCode) :=
        Prod.ext failed placed
      exact ⟨defect, by rw [sameLayout (small few), outcome]; rfl⟩
  · rcases encodeFails outside with ⟨error, failed, refuses | ⟨overflows, _⟩ | ⟨_, defect, rfl⟩⟩
    · exact absurd refuses (Scope.not_refuses error)
    · exact absurd overflows (inBounds room).2
    · have outcome : Code.encode Scope.emitter distantCode Scope.empty = (.error (.structural defect), Scope.empty) :=
        Prod.ext failed untouched
      exact ⟨defect, by rw [sameEncoding (small few), outcome]; rfl⟩
  · have outcome := moves ⟨by decide, by decide⟩
    rw [if_pos hasRoom] at outcome
    exact ⟨_, by rw [(sameInsertion ()).1, outcome]; rfl, by decide⟩
  · have large : tableLimit ≤ (List.replicate tableLimit 0).length := Nat.le_of_eq List.length_replicate.symm
    have meets := meetsOversized_table large
    rcases bounds_checked_unless_last_index _ with ⟨⟨laidOut, _⟩, encoding, _⟩
    exact ⟨_, meets, laidOut meets, (encoding Scope.emitter Scope.empty honest).1 meets⟩

/-- A branch to the last index. -/
def lastIndexCode : List Instruction := [.unplaced .br (.target (2 ^ 64 - 1))]

/-- A branch to the last index leads outside like any other, but neither layout nor encoding tells a defect, and no
instruction can be put in. -/
theorem last_index_overflows :
    Code.LeadsOutside lastIndexCode.length lastIndexCode ∧
      (∀ defect, (Code.layout lastIndexCode).1 ≠ .error (.structural defect)) ∧
      (∀ defect, (Code.encode Scope.emitter lastIndexCode Scope.empty).1 ≠ .error (.structural defect)) ∧
      layout lastIndexCode = .error .cutNumber ∧
      encodeCode Scope.emitter lastIndexCode Scope.empty = .error .cutNumber ∧
      insert (Body.ofInstructions lastIndexCode) 0 (.unplaced .nop .none) () = .error .cutNumber ∧
      insertBefore (Body.ofInstructions lastIndexCode) 0 (.unplaced .nop .none) () = .error .cutNumber := by
  have laidOut : (Code.layout lastIndexCode).1 = .error .positionOverflow := by decide +kernel
  have encoded : (Code.encode Scope.emitter lastIndexCode Scope.empty).1 = .error .positionOverflow := by decide +kernel
  refine ⟨⟨_, List.mem_cons_self, rfl, 2 ^ 64 - 1, by decide, by decide⟩, ?_, ?_, ?_, ?_, ?_, ?_⟩
  · simp [laidOut]
  · simp [encoded]
  · decide +kernel
  · decide +kernel
  · decide +kernel
  · decide +kernel

end Watched

end CilRelink
