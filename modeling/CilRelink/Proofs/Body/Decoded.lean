import CilRelink.Proofs.Body.Stability

/-!
# What decoding promises

Decoding looks regions up by the offsets of their ends, and takes each offset at which an instruction begins, and
the end of the code. So regions cannot leave the body or run backwards, but nothing keeps them from being empty, and
nothing keeps a filter from beginning where the code ends. Validation refuses both, and there is nothing else that
it can refuse in a decoded body.
-/

namespace CilRelink

namespace Clause

/-- Whether the regions of the clause do not run backwards and stay inside `count` instructions, the end included. -/
structure IsOrdered (count : Nat) (clause : Clause) : Prop where
  tryOrder : clause.tryStart ≤ clause.tryEnd
  tryInside : clause.tryEnd ≤ count
  handlerOrder : clause.handlerStart ≤ clause.handlerEnd
  handlerInside : clause.handlerEnd ≤ count
  filterInside : ∀ start ∈ clause.filterStart, start ≤ count

/-- Whether a region of the clause is empty or its filter begins behind the last of `count` instructions. -/
def isHollow (count : Nat) (clause : Clause) : Bool :=
  clause.tryStart = clause.tryEnd || clause.handlerStart = clause.handlerEnd || clause.filterStart = some count

theorem IsOrdered.isInside_eq {count : Nat} {clause : Clause} (ordered : clause.IsOrdered count) :
    clause.isInside count = !clause.isHollow count := by
  rcases ordered with ⟨tryOrder, tryInside, handlerOrder, handlerInside, filterInside⟩
  have filter : clause.filterStart.all (· < count) = !decide (clause.filterStart = some count) := by
    cases filterStart : clause.filterStart with
    | none => rfl
    | some start =>
        have inside := filterInside start filterStart
        simp only [Option.all_some, Option.some.injEq, ← decide_not, decide_eq_decide]
        omega
  have tryRegion : decide (clause.tryStart < clause.tryEnd) = !decide (clause.tryStart = clause.tryEnd) := by
    simp only [← decide_not, decide_eq_decide]
    omega
  have handlerRegion :
      decide (clause.handlerStart < clause.handlerEnd) = !decide (clause.handlerStart = clause.handlerEnd) := by
    simp only [← decide_not, decide_eq_decide]
    omega
  simp only [isInside, isHollow, tryRegion, handlerRegion, filter, tryInside, handlerInside, decide_true,
    Bool.and_true, Bool.not_or]

end Clause

/-! ## Looking offsets up -/

namespace Code

theorem le_of_size_take_le {code : List Instruction} {first last : Nat} (inside : first ≤ code.length)
    (order : size (code.take first) ≤ size (code.take last)) : first ≤ last := by
  by_contra backwards
  have less : size (code.take last) < size (code.take first) := size_take_lt_of_lt (by omega) (by omega)
  omega

end Code

namespace Section

variable {resolver : Resolver} {code : List Instruction}

theorem start_eq_ok (placed : Code.IsPlaced code) {offset position : Nat}
    (found : resolveClause.start code (Code.size code) offset = .ok position) :
    position ≤ code.length ∧ Code.size (code.take position) = offset := by
  unfold resolveClause.start at found
  split at found
  · rename_i position lookup
    cases found
    exact (Code.positionOf?_eq_some_iff placed).mp lookup
  · cases found

theorem stop_eq_ok (placed : Code.IsPlaced code) {offset length first last : Nat}
    (start : resolveClause.start code (Code.size code) offset = .ok first)
    (stop : resolveClause.stop code (Code.size code) offset length = .ok last) :
    first ≤ last ∧ last ≤ code.length := by
  unfold resolveClause.stop at stop
  split at stop
  · rcases start_eq_ok placed start with ⟨inside, firstSize⟩
    rcases start_eq_ok placed stop with ⟨lastInside, lastSize⟩
    exact ⟨Code.le_of_size_take_le inside (by omega), lastInside⟩
  · cases stop

theorem isOrdered_of_resolveClause (placed : Code.IsPlaced code) {bytes : ByteClause} {clause : Clause}
    (resolved : resolveClause resolver code (Code.size code) bytes = .ok clause) : clause.IsOrdered code.length := by
  rcases resolveClause_eq_ok resolved with
    ⟨_, _, filters, tryBegins, tryStops, handlerBegins, handlerStops⟩
  have tryRegion := stop_eq_ok placed tryBegins tryStops
  have handlerRegion := stop_eq_ok placed handlerBegins handlerStops
  refine ⟨tryRegion.1, tryRegion.2, handlerRegion.1, handlerRegion.2, ?_⟩
  intro start filterStartEq
  rw [Option.mem_def.mp filterStartEq] at filters
  split at filters
  · rcases Fallible.map_eq_ok_iff.mp filters with ⟨filter, found, same⟩
    cases same
    exact (start_eq_ok placed found).1
  · cases filters

theorem isOrdered_of_resolveClauses (placed : Code.IsPlaced code) {byteClauses : List ByteClause}
    {clauses : List Clause}
    (resolved : byteClauses.mapM (resolveClause resolver code (Code.size code)) = .ok clauses) :
    ∀ clause ∈ clauses, clause.IsOrdered code.length := by
  have each := Fallible.mapM_eq_ok_iff.mp resolved
  clear resolved
  induction each with
  | nil => simp
  | cons first rest ih => exact List.forall_mem_cons.mpr ⟨isOrdered_of_resolveClause placed first, ih⟩

end Section

/-! ## What validation may find -/

namespace Body

/-- The first clause that does not pass is the one that checking tells of. -/
theorem checkClauses_eq_error {count start : Nat} {clauses : List Clause} {error : Error}
    (failed : checkClauses count start clauses = .error error) :
    ∃ index clause, clauses[index]? = some clause ∧ checkClause count (start + index) clause = .error error := by
  induction clauses generalizing start with
  | nil => cases failed
  | cons clause clauses ih =>
      rw [checkClauses] at failed
      cases first : checkClause count start clause with
      | error defect =>
          rw [first] at failed
          cases failed
          exact ⟨0, clause, rfl, first⟩
      | ok done =>
          rw [first] at failed
          rcases ih failed with ⟨index, later, found, fails⟩
          exact ⟨index + 1, later, found, by rwa [Nat.add_right_comm] at fails⟩

/-- A decoded body has operands that fit and branches that stay inside, its regions are in order and stay inside, and
each clause has a filter if and only if its flags call for one. It is valid unless a region is empty or a filter
begins at the end, and that is all that validation can tell of it. -/
theorem validate_of_decode (resolver : Resolver) (data : List UInt8) (body : Body)
    (decoded : decode resolver data = .ok body) :
    (∀ instruction ∈ body.instructions,
      instruction.isWellFormed = true ∧ ∀ target ∈ instruction.jumpPositions, target < body.size) ∧
    (∀ clause ∈ body.clauses,
      clause.IsOrdered body.size ∧ clause.filterStart.isSome = clause.flags.isFilter) ∧
    (body.validate = .ok () ↔ ∀ clause ∈ body.clauses, clause.isHollow body.size = false) ∧
    ∀ error, body.validate = .error error → ∃ index clause, body.clauses[index]? = some clause ∧
      clause.isHollow body.size = true ∧ error = .structural (.invalidRegion index clause) := by
  rcases decode_eq_ok decoded with ⟨code, byteClauses, _, codeDecoded, _, resolved⟩
  rcases Code.settled_of_decode codeDecoded with ⟨settled, length, wellFormed⟩
  rw [← length] at resolved
  have ordered := Section.isOrdered_of_resolveClauses settled.placed resolved
  have canonical := Section.canonical_of_resolveClauses resolved
  have instructions : ∀ instruction ∈ body.instructions,
      instruction.isWellFormed = true ∧ ∀ target ∈ instruction.jumpPositions, target < body.size := by
    intro instruction instructionMem
    refine ⟨wellFormed instruction instructionMem, ?_⟩
    intro target targetMem
    exact (Code.reaches_of_decode codeDecoded instruction instructionMem target targetMem).1
  have clauses : ∀ clause ∈ body.clauses,
      clause.IsOrdered body.size ∧ clause.filterStart.isSome = clause.flags.isFilter := by
    intro clause clauseMem
    exact ⟨ordered clause clauseMem, (canonical clause clauseMem).1.filterStart⟩
  refine ⟨instructions, clauses, ?_, ?_⟩
  · rw [validate_eq_ok_iff, and_iff_right instructions]
    refine forall₂_congr fun clause clauseMem => ?_
    rcases clauses clause clauseMem with ⟨inOrder, filters⟩
    rw [inOrder.isInside_eq, Bool.not_eq_true', filters]
    exact and_iff_left id
  · intro error failed
    have passed : checkInstructions body.size 0 body.instructions = .ok () :=
      checkInstructions_eq_ok_iff.mpr instructions
    rw [validate, passed] at failed
    rcases checkClauses_eq_error failed with ⟨index, clause, found, fails⟩
    rcases clauses clause (List.mem_of_getElem? found) with ⟨inOrder, filters⟩
    refine ⟨index, clause, found, ?_⟩
    rw [checkClause, inOrder.isInside_eq, ← filters, Bool.not_not] at fails
    cases hollow : clause.isHollow body.size with
    | true =>
        rw [hollow, Nat.zero_add] at fails
        cases fails
        exact ⟨rfl, rfl⟩
    | false =>
        rw [hollow] at fails
        cases filterStart : clause.filterStart <;> simp [filterStart] at fails

theorem validate_of_decode_chainedBody :
    decode chainedScope.resolver chainedData = .ok chainedBody ∧ chainedBody.validate = .ok () := by
  have decoded : decode chainedScope.resolver chainedData = .ok chainedBody := by decide +kernel
  rcases validate_of_decode chainedScope.resolver chainedData chainedBody decoded with ⟨_, _, valid, _⟩
  exact ⟨decoded, valid.mpr (by decide +kernel)⟩

/-- A body that does nothing but return, with a `finally` clause that protects no instruction. -/
def idleData : List UInt8 :=
  [0x1B, 0x30, 0x08, 0x00, 0x01, 0x00, 0x00, 0x00, 0x00, 0x00, 0x00, 0x00,
    0x2A,
    0x00, 0x00, 0x00,
    0x01, 0x10, 0x00, 0x00,
    0x02, 0x00, 0x00, 0x00, 0x00, 0x00, 0x00, 0x01, 0x00, 0x00, 0x00, 0x00]

/-- The clause of the body: its `try` region is empty. -/
def idleClause : Clause := ⟨.finallyFlag, 0, 0, 0, 1, none, none⟩

/-- The body that is decoded from the bytes. -/
def idleBody : Body := ⟨8, Token.null, true, [.unplaced .ret .none], [idleClause]⟩

/-- An empty region is decoded, and refused by validation. -/
theorem decode_accepts_emptyRegion :
    decode Scope.empty.resolver idleData = .ok idleBody ∧
      idleBody.validate = .error (.structural (.invalidRegion 0 idleClause)) := by
  decide +kernel

end Body

end CilRelink
