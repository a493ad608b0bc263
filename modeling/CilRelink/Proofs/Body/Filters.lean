import CilRelink.Proofs.Body.Attachment

/-!
# Filter blocks

The block of a filter clause begins at its filter and ends where its handler begins, so it is empty once the two meet.
Insertions keep apart what was apart. A removal makes the two meet if it takes out the only instruction between them.
That is no reason for it to be refused, as it is for a region of a clause. What has met moves as one from then on, so a
block that is empty stays empty.
-/

namespace CilRelink

/-- Whether the clause has a filter in front of its handler. -/
def Clause.hasFilterBlock (clause : Clause) : Bool := clause.filterStart.any (· < clause.handlerStart)

theorem Clause.hasFilterBlock_iff {clause : Clause} :
    clause.hasFilterBlock = true ↔ ∃ start ∈ clause.filterStart, start < clause.handlerStart := by
  simp [hasFilterBlock, Option.any_eq_true]

namespace Body

/-- Whether each filter clause of the body has a filter in front of its handler. -/
def FiltersNonempty (body : Body) : Prop :=
  ∀ clause ∈ body.clauses, clause.flags.isFilter = true → clause.hasFilterBlock = true

/-- Whether the instruction at `place` is all of the filter block of a clause. -/
def IsWholeFilter (body : Body) (place : Nat) : Prop :=
  ∃ clause ∈ body.clauses, clause.flags.isFilter = true ∧ clause.filterStart = some place ∧
    clause.handlerStart = place + 1

variable {body result : Body} {place : Nat} {instruction removed : Instruction}

instance : Decidable body.FiltersNonempty :=
  inferInstanceAs (Decidable (∀ clause ∈ body.clauses, clause.flags.isFilter = true → clause.hasFilterBlock = true))

instance : Decidable (body.IsWholeFilter place) :=
  inferInstanceAs (Decidable (∃ clause ∈ body.clauses, clause.flags.isFilter = true ∧
    clause.filterStart = some place ∧ clause.handlerStart = place + 1))

/-! ## One edit -/

theorem strictMono_shiftAfter (place : Nat) : StrictMono (shiftAfter place) := by
  intro first second before
  unfold shiftAfter
  split <;> split <;> omega

/-- Two positions meet exactly if the first is where something is taken out and the second comes right after. -/
theorem unshiftAfter_lt_iff {first second : Nat} :
    unshiftAfter place first < unshiftAfter place second ↔
      first < second ∧ ¬ (first = place ∧ second = place + 1) := by
  unfold unshiftAfter
  split <;> split <;> omega

theorem hasFilterBlock_mapPositions {move moveEnd : Nat → Nat} {clause : Clause} :
    (clause.mapPositions move moveEnd).hasFilterBlock = true ↔
      ∃ start ∈ clause.filterStart, move start < move clause.handlerStart := by
  simp [Clause.hasFilterBlock_iff, Clause.mapPositions]

/-- Where starts keep their order, each clause has a filter block if it had one before. -/
theorem filtersNonempty_of_strictMono {move moveEnd : Nat → Nat} (mono : StrictMono move)
    (clauses : result.clauses = body.clauses.map (·.mapPositions move moveEnd)) :
    result.FiltersNonempty ↔ body.FiltersNonempty := by
  unfold FiltersNonempty
  rw [clauses, List.forall_mem_map]
  refine forall₂_congr fun clause _ => imp_congr_right fun _ => ?_
  rw [hasFilterBlock_mapPositions, Clause.hasFilterBlock_iff]
  simp only [mono.lt_iff_lt]

theorem filtersNonempty_of_insert (inserted : body.insert place instruction = .ok result) :
    result.FiltersNonempty ↔ body.FiltersNonempty := by
  rcases insert_eq_ok inserted with ⟨_, _, rfl⟩
  exact filtersNonempty_of_strictMono (strictMono_shiftFrom place) rfl

theorem filtersNonempty_of_insertBefore (inserted : body.insertBefore place instruction = .ok result) :
    result.FiltersNonempty ↔ body.FiltersNonempty := by
  rcases insertBefore_eq_ok inserted with ⟨_, rfl⟩
  exact filtersNonempty_of_strictMono (strictMono_shiftAfter place) rfl

theorem filtersNonempty_of_remove (removes : body.remove place = .ok (removed, result)) :
    result.FiltersNonempty ↔ body.FiltersNonempty ∧ ¬ body.IsWholeFilter place := by
  rcases remove_eq_ok removes with ⟨_, _, _, made⟩
  have clauses : result.clauses =
      body.clauses.map (·.mapPositions (unshiftAfter place) (unshiftAfter place)) := by
    rw [made]
    rfl
  unfold FiltersNonempty IsWholeFilter
  rw [clauses, List.forall_mem_map]
  simp only [hasFilterBlock_mapPositions, unshiftAfter_lt_iff]
  simp only [Clause.hasFilterBlock_iff]
  constructor
  · intro apart
    refine ⟨?_, ?_⟩
    · intro clause clauseMem isFilter
      rcases apart clause clauseMem isFilter with ⟨start, startMem, before, _⟩
      exact ⟨start, startMem, before⟩
    · rintro ⟨clause, clauseMem, isFilter, filterStart, handlerStart⟩
      rcases apart clause clauseMem isFilter with ⟨start, startMem, _, notWhole⟩
      rw [filterStart, Option.mem_some_iff] at startMem
      exact notWhole ⟨startMem.symm, handlerStart⟩
  · rintro ⟨before, notWhole⟩ clause clauseMem isFilter
    rcases before clause clauseMem isFilter with ⟨start, startMem, lower⟩
    refine ⟨start, startMem, lower, ?_⟩
    rintro ⟨rfl, handlerStart⟩
    exact notWhole ⟨clause, clauseMem, isFilter, startMem, handlerStart⟩

theorem exists_remove_iff :
    (∃ removed result, body.remove place = .ok (removed, result)) ↔
      place < body.size ∧
        (place + 1 = body.size → ∀ instruction ∈ body.instructions, place ∉ instruction.jumpPositions) ∧
        ∀ clause ∈ body.clauses, body.emptiesClause place clause = false := by
  constructor
  · rintro ⟨removed, result, removes⟩
    rcases remove_eq_ok removes with ⟨inside, unnamed, spared, _⟩
    exact ⟨inside, unnamed, spared⟩
  · rintro ⟨inside, unnamed, spared⟩
    have stands : body.instructions[place]? = some body.instructions[place] := List.getElem?_eq_getElem inside
    exact ⟨_, _, remove_of_spared stands unnamed spared⟩

/-- The only instruction of a filter block can be taken out of a valid body unless it is all of a region. -/
theorem exists_remove_of_isWholeFilter (valid : body.validate = .ok ()) (whole : body.IsWholeFilter place) :
    (∃ removed result, body.remove place = .ok (removed, result)) ↔
      ∀ clause ∈ body.clauses, (place, place + 1) ∉ clause.regions := by
  rcases whole with ⟨filtering, filteringMem, _, _, handlerStart⟩
  -- the handler comes behind the place, so the place is not the last one
  have inside : place + 1 < body.size := by
    have regions := (Clause.isInside_iff.mp ((validate_eq_ok_iff.mp valid).2 filtering filteringMem).1).1
    rcases regions (filtering.handlerStart, filtering.handlerEnd) (by simp [Clause.regions]) with ⟨order, bound⟩
    simp only at order bound
    omega
  have notLast : place + 1 ≠ body.size := Nat.ne_of_lt inside
  rw [exists_remove_iff]
  simp only [notLast, false_implies, true_and, and_iff_right (Nat.lt_of_succ_lt inside)]
  refine forall₂_congr fun clause _ => ?_
  simp [emptiesClause, Clause.regions, notLast, @eq_comm _ place, @eq_comm _ (place + 1)]

end Body

/-! ## Runs of edits -/

namespace Edit

/-- Whether the edit takes out all of the filter block of a clause. -/
def EmptiesFilter (body : Body) : Edit → Prop
  | remove place => ((remove place).perform body).1.isOk = true ∧ body.IsWholeFilter place
  | _ => False

/-- Whether no edit of a run takes out all of the filter block of a clause. -/
def SpareFilters : List Edit → Body → Prop
  | [], _ => True
  | edit :: edits, body => ¬ EmptiesFilter body edit ∧ SpareFilters edits (edit.perform body).2

theorem filtersNonempty_perform (edit : Edit) (body : Body) :
    (edit.perform body).2.FiltersNonempty ↔ body.FiltersNonempty ∧ ¬ EmptiesFilter body edit := by
  rcases performed : edit.perform body with ⟨outcome, after⟩
  cases outcome with
  | error error =>
      have spared : ¬ EmptiesFilter body edit := by
        cases edit with
        | remove place => simp [EmptiesFilter, performed, Except.isOk, Except.toBool]
        | _ => exact id
      simp [(perform_eq_error performed).2, spared]
  | ok old =>
      have made := perform_eq_ok performed
      cases edit with
      | insert place instruction =>
          rcases Fallible.map_eq_ok_iff.mp made with ⟨result, inserted, same⟩
          cases same
          simp [Body.filtersNonempty_of_insert inserted, EmptiesFilter]
      | insertBefore place instruction =>
          rcases Fallible.map_eq_ok_iff.mp made with ⟨result, inserted, same⟩
          cases same
          simp [Body.filtersNonempty_of_insertBefore inserted, EmptiesFilter]
      | replace place instruction =>
          rcases Fallible.map_eq_ok_iff.mp made with ⟨⟨replaced, result⟩, replaces, same⟩
          cases same
          rcases Body.replace_eq_ok replaces with ⟨_, rfl⟩
          simp [Body.FiltersNonempty, EmptiesFilter]
      | remove place =>
          rcases Fallible.map_eq_ok_iff.mp made with ⟨⟨removed, result⟩, removes, same⟩
          cases same
          have empties : EmptiesFilter body (.remove place) ↔ body.IsWholeFilter place := by
            simp [EmptiesFilter, performed, Except.isOk, Except.toBool]
          rw [Body.filtersNonempty_of_remove removes, empties]

theorem filtersNonempty_run (edits : List Edit) (body : Body) :
    (run edits body).FiltersNonempty ↔ body.FiltersNonempty ∧ SpareFilters edits body := by
  induction edits generalizing body with
  | nil => simp [run, SpareFilters]
  | cons edit edits ih => rw [run, ih, filtersNonempty_perform, SpareFilters, and_assoc]

end Edit

namespace Body

/-- In a valid body without empty filter blocks, insertions leave no block empty, and a removal leaves one empty exactly
if it takes out all of it. It is refused then only if the same instruction is all of a protected region or a handler.
After any run of edits, no filter block is empty exactly if none of them took out all of one. -/
theorem filters_kept_unless_taken_out {body : Body} (valid : body.validate = .ok ())
    (nonempty : body.FiltersNonempty) :
    (∀ place instruction result, body.insert place instruction = .ok result → result.FiltersNonempty) ∧
    (∀ place instruction result, body.insertBefore place instruction = .ok result → result.FiltersNonempty) ∧
    (∀ place removed result, body.remove place = .ok (removed, result) →
      (result.FiltersNonempty ↔ ¬ body.IsWholeFilter place)) ∧
    (∀ place, body.IsWholeFilter place →
      ((∃ removed result, body.remove place = .ok (removed, result)) ↔
        ∀ clause ∈ body.clauses, (place, place + 1) ∉ clause.regions)) ∧
    ∀ edits, (Edit.run edits body).FiltersNonempty ↔ Edit.SpareFilters edits body := by
  refine ⟨?_, ?_, ?_, fun place => exists_remove_of_isWholeFilter valid, ?_⟩
  · intro place instruction result inserted
    exact (filtersNonempty_of_insert inserted).mpr nonempty
  · intro place instruction result inserted
    exact (filtersNonempty_of_insertBefore inserted).mpr nonempty
  · intro place removed result removes
    rw [filtersNonempty_of_remove removes, and_iff_right nonempty]
  · intro edits
    rw [Edit.filtersNonempty_run, and_iff_right nonempty]

/-- A body whose filter is a single instruction. -/
def filteringBody : Body where
  maxStack := 8
  localSignature := Token.null
  initLocals := false
  instructions :=
    [.unplaced .leaveS (.target 3), .unplaced .endfilter .none, .unplaced .leaveS (.target 3), .unplaced .ret .none]
  clauses := [⟨.filterFlag, 0, 1, 2, 3, none, some 1⟩]

/-- Another instruction in front of the filter can be taken out again, and then the filter itself. -/
theorem filters_kept_unless_taken_out_filteringBody :
    let wider := (filteringBody.insertBefore 1 (.unplaced .nop .none)).toOption.getD filteringBody
    filteringBody.validate = .ok () ∧ filteringBody.FiltersNonempty ∧
      filteringBody.insertBefore 1 (.unplaced .nop .none) = .ok wider ∧ wider.FiltersNonempty ∧
      filteringBody.IsWholeFilter 1 ∧ (∃ removed result, filteringBody.remove 1 = .ok (removed, result)) ∧
      (Edit.run [.insertBefore 1 (.unplaced .nop .none), .remove 1] filteringBody).FiltersNonempty ∧
      ¬ (Edit.run [.remove 1, .insertBefore 1 (.unplaced .nop .none)] filteringBody).FiltersNonempty := by
  intro wider
  have valid : filteringBody.validate = .ok () := by decide +kernel
  have nonempty : filteringBody.FiltersNonempty := by decide +kernel
  have inserts : filteringBody.insertBefore 1 (.unplaced .nop .none) = .ok wider := by decide +kernel
  have whole : filteringBody.IsWholeFilter 1 := by decide +kernel
  rcases filters_kept_unless_taken_out valid nonempty with ⟨_, insertsBefore, _, removes, runs⟩
  refine ⟨valid, nonempty, inserts, insertsBefore _ _ _ inserts, whole, ?_, (runs _).mpr ?_, mt (runs _).mp ?_⟩
  · exact (removes 1 whole).mpr (by decide +kernel)
  · simp only [Edit.SpareFilters, Edit.EmptiesFilter]
    decide +kernel
  · simp only [Edit.SpareFilters, Edit.EmptiesFilter]
    decide +kernel

/-- The only instruction of a filter is taken out, and the filter starts where its handler does. -/
theorem filter_taken_out :
    filteringBody.validate = .ok () ∧ filteringBody.FiltersNonempty ∧
      ∃ result, filteringBody.remove 1 = .ok (.unplaced .endfilter .none, result) ∧
        result.clauses.map (fun clause => (clause.filterStart, clause.handlerStart)) = [(some 1, 1)] ∧
        ¬ result.FiltersNonempty := by
  have removes : filteringBody.remove 1 = .ok (.unplaced .endfilter .none,
      ((filteringBody.remove 1).toOption.map Prod.snd).getD filteringBody) := by
    decide +kernel
  exact ⟨by decide +kernel, by decide +kernel, _, removes, by decide +kernel, by decide +kernel⟩

end Body

end CilRelink
