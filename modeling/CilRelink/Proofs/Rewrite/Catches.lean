import CilRelink.Proofs.Body.Validity
import CilRelink.Proofs.Rewrite.Expansion

/-!
# Types that clauses handle

Rules are asked about instructions, and edits move the regions of clauses; neither looks at the types of the
exceptions that clauses handle. So these types come through a rewrite as they are, mapped or not, and nothing else
depends on them: bodies that differ in them alone are rewritten alike and reported on alike.
-/

namespace CilRelink

namespace Body

/-- What the clauses of the body handle, in their order. -/
def catchTypes (body : Body) : List (Option TypeRef) := body.clauses.map Clause.catchType

/-- The body with other types in its clauses, given by their indices. -/
def catching (types : Nat → Option TypeRef) (body : Body) : Body :=
  { body with clauses := body.clauses.mapIdx fun index clause => { clause with catchType := types index } }

section Catching

variable {types : Nat → Option TypeRef} {body changed : Body} {place : Nat}

@[simp]
theorem size_catching : (body.catching types).size = body.size := rfl

@[simp]
theorem instructions_catching : (body.catching types).instructions = body.instructions := rfl

@[simp]
theorem catchTypes_mapPositions (move moveEnd : Nat → Nat) :
    (body.mapPositions move moveEnd).catchTypes = body.catchTypes := by
  simp [catchTypes, mapPositions, Clause.mapPositions, Function.comp_def]

@[simp]
theorem mapPositions_catching (move moveEnd : Nat → Nat) :
    (body.catching types).mapPositions move moveEnd = (body.mapPositions move moveEnd).catching types := by
  simp only [mapPositions, catching, Body.mk.injEq, true_and]
  refine List.ext_getElem? fun index => ?_
  simp only [List.getElem?_map, List.getElem?_mapIdx, Option.map_map]
  rfl

theorem positions_catching : (body.catching types).positions = body.positions := by
  have clauses : ((body.catching types).clauses.map Clause.positions) = body.clauses.map Clause.positions := by
    refine List.ext_getElem? fun index => ?_
    simp only [catching, List.getElem?_map, List.getElem?_mapIdx, Option.map_map]
    rfl
  simp only [positions, List.flatMap_def, clauses, instructions_catching]

theorem validate_catching_eq_ok_iff : (body.catching types).validate = .ok () ↔ body.validate = .ok () := by
  have clauses : ∀ accepts : Clause → Prop,
      (∀ clause type, accepts { clause with catchType := type } ↔ accepts clause) →
      ((∀ clause ∈ (body.catching types).clauses, accepts clause) ↔ ∀ clause ∈ body.clauses, accepts clause) := by
    intro accepts indifferent
    simp only [catching, List.mem_mapIdx, forall_exists_index]
    constructor
    · intro each clause clauseMem
      rcases List.getElem_of_mem clauseMem with ⟨index, inside, rfl⟩
      exact (indifferent _ _).mp (each _ index inside rfl)
    · rintro each _ index inside rfl
      exact (indifferent _ _).mpr (each _ (List.getElem_mem inside))
  rw [validate_eq_ok_iff, validate_eq_ok_iff, size_catching, instructions_catching,
    clauses _ fun clause type => Iff.rfl]

/-! ## Edits -/

theorem insertBefore_catching (instruction : Instruction) :
    (body.catching types).insertBefore place instruction =
      (·.catching types) <$> body.insertBefore place instruction := by
  simp only [insertBefore, checkPositions, size_catching, mapPositions_catching, positions_catching]
  split
  · rfl
  · cases checkInsertable instruction with
    | error error => rfl
    | ok checked =>
        cases (body.mapPositions (shiftAfter place) (shiftAfter place)).positions.all (· < Code.indexLimit) <;> rfl

theorem insertAllBefore_catching (loads : List Instruction) :
    insertAllBefore place loads (body.catching types) = (·.catching types) <$> insertAllBefore place loads body := by
  induction loads generalizing place body with
  | nil => rfl
  | cons load loads ih =>
      simp only [insertAllBefore, insertBefore_catching]
      cases body.insertBefore place load with
      | error error => rfl
      | ok loaded => exact ih

theorem replace_catching (instruction : Instruction) :
    (body.catching types).replace place instruction =
      (fun (old, changed) => (old, changed.catching types)) <$> body.replace place instruction := by
  simp only [replace, instructions_catching]
  cases checkInsertable instruction with
  | error error => rfl
  | ok checked => cases body.instructions[place]? <;> rfl

theorem carryOut_catching (verdict : Verdict) :
    (body.catching types).carryOut place verdict = (·.catching types) <$> body.carryOut place verdict := by
  cases verdict with
  | incompatible breakage => rfl
  | rewritten loads replacement confidence =>
      simp only [carryOut, insertAllBefore_catching]
      cases insertAllBefore place loads body with
      | error error => rfl
      | ok loaded =>
          simp only [Functor.map, Except.map, bind, Except.bind, replace_catching]
          cases loaded.replace (place + loads.length) replacement <;> rfl

theorem catchTypes_of_insertAllBefore {loads : List Instruction}
    (inserted : insertAllBefore place loads body = .ok changed) : changed.catchTypes = body.catchTypes := by
  induction loads generalizing place body with
  | nil =>
      cases inserted
      rfl
  | cons load loads ih =>
      rcases Fallible.bind_eq_ok_iff.mp inserted with ⟨next, first, rest⟩
      rcases insertBefore_eq_ok first with ⟨_, rfl⟩
      rw [ih rest]
      exact catchTypes_mapPositions _ _

theorem catchTypes_of_carryOut {verdict : Verdict} (carried : body.carryOut place verdict = .ok changed) :
    changed.catchTypes = body.catchTypes := by
  cases verdict with
  | incompatible breakage =>
      cases carried
      rfl
  | rewritten loads replacement confidence =>
      rcases Fallible.bind_eq_ok_iff.mp carried with ⟨loaded, inserted, rest⟩
      rcases Fallible.bind_eq_ok_iff.mp rest with ⟨⟨old, rewritten⟩, replaced, made⟩
      rcases replace_eq_ok replaced with ⟨_, rfl⟩
      cases made
      have kept := catchTypes_of_insertAllBefore inserted
      exact kept

end Catching

end Body

/-- The same rewriting of a body with other types in its clauses. -/
def Rewriting.catching (types : Nat → Option TypeRef) (rewriting : Rewriting) : Rewriting :=
  { rewriting with body := rewriting.body.catching types }

namespace Rewriter

variable {types : Nat → Option TypeRef} {body : Body}

theorem carryOut_catching (findings : List Finding) :
    carryOut findings (body.catching types) =
      ((carryOut findings body).1, (carryOut findings body).2.1, (carryOut findings body).2.2.catching types) := by
  induction findings generalizing body with
  | nil => rfl
  | cons finding findings ih =>
      simp only [carryOut, Body.carryOut_catching]
      cases body.carryOut finding.place finding.verdict with
      | error error => rfl
      | ok changed =>
          simp only [Functor.map, Except.map, ih]

theorem finish_catching (name : String) (done : List Finding) :
    finish name done (body.catching types) = (finish name done body).catching types := by
  have laidOut : (body.catching types).layout = (body.layout.1, body.layout.2.catching types) := rfl
  simp only [finish, laidOut]
  split
  · rfl
  · rcases body.layout with ⟨outcome, placed⟩
    cases outcome <;> rfl

theorem catchTypes_carryOut (findings : List Finding) : (carryOut findings body).2.2.catchTypes = body.catchTypes := by
  induction findings generalizing body with
  | nil => rfl
  | cons finding findings ih =>
      simp only [carryOut]
      cases carried : body.carryOut finding.place finding.verdict with
      | error error => rfl
      | ok changed => exact ih.trans (Body.catchTypes_of_carryOut carried)

theorem catchTypes_finish (name : String) (done : List Finding) :
    (finish name done body).body.catchTypes = body.catchTypes := by
  have laidOut : body.layout.2.catchTypes = body.catchTypes := rfl
  simp only [finish]
  split
  · rfl
  · rcases finished : body.layout with ⟨outcome, placed⟩
    rw [finished] at laidOut
    cases outcome <;> exact laidOut

theorem rewriteBody_catching_of_checked {rewriter : Rewriter} (name : String)
    (checked : (if rewriter.context.settings.validateFirst then body.validate else .ok ()) = .ok ()) :
    rewriter.rewriteBody name (body.catching types) = (rewriter.rewriteBody name body).catching types := by
  have checkedToo :
      (if rewriter.context.settings.validateFirst then (body.catching types).validate else .ok ()) = .ok () := by
    split at checked
    · rename_i validates
      rw [if_pos validates, Body.validate_catching_eq_ok_iff.mpr checked]
    · rename_i skips
      rw [if_neg skips]
  simp only [rewriteBody, checked, checkedToo, Body.instructions_catching, carryOut_catching]
  rcases carryOut (rewriter.findingsFrom 0 body.instructions) body with ⟨done, failure, changed⟩
  cases failure with
  | none => exact finish_catching name done
  | some error => rfl

/-- Whether and how rewriting a body succeeds, what it reports and logs, and what it leaves of the body do not depend
on the types that clauses handle, and it leaves these types as they are, also where it fails. -/
theorem rewriteBody_ignores_catchTypes (rewriter : Rewriter) (name : String) (body : Body) :
    (rewriter.rewriteBody name body).body.catchTypes = body.catchTypes ∧
      ∀ types : Nat → Option TypeRef,
        (rewriter.rewriteBody name (body.catching types)).body = (rewriter.rewriteBody name body).body.catching types ∧
          (rewriter.rewriteBody name (body.catching types)).log = (rewriter.rewriteBody name body).log ∧
          ∀ report, (rewriter.rewriteBody name (body.catching types)).result = .ok report ↔
            (rewriter.rewriteBody name body).result = .ok report := by
  cases checked : (if rewriter.context.settings.validateFirst then body.validate else .ok ()) with
  | error error =>
      have refused : rewriter.rewriteBody name body = ⟨.error error, body, []⟩ := by
        rw [rewriteBody, checked]
      refine ⟨by rw [refused], ?_⟩
      intro types
      -- the error may quote a clause, so it need not be the same
      have refusedToo : ∃ other, rewriter.rewriteBody name (body.catching types) =
          ⟨.error other, body.catching types, []⟩ := by
        split at checked
        · rename_i validates
          cases checkedToo : (body.catching types).validate with
          | ok valid =>
              rw [Body.validate_catching_eq_ok_iff.mp checkedToo] at checked
              cases checked
          | error other => exact ⟨other, by rw [rewriteBody, if_pos validates, checkedToo]⟩
        · cases checked
      rcases refusedToo with ⟨other, refusedToo⟩
      simp [refused, refusedToo]
  | ok valid =>
      constructor
      · rw [rewriteBody, checked]
        have carried : (carryOut (rewriter.findingsFrom 0 body.instructions) body).2.2.catchTypes = body.catchTypes :=
          catchTypes_carryOut _
        rcases outcome : carryOut (rewriter.findingsFrom 0 body.instructions) body with ⟨done, failure, changed⟩
        rw [outcome] at carried
        cases failure with
        | none => exact (catchTypes_finish name done).trans carried
        | some error => exact carried
      · intro types
        rw [rewriteBody_catching_of_checked name checked]
        exact ⟨rfl, rfl, fun report => Iff.rfl⟩

/-- A type that is gone from the house of a door. -/
def gateType : TypeRef := .named ⟨"", "Gate", none, [], some "House"⟩

/-- The type of the door. -/
def doorType : TypeRef := .named ⟨"", "Door", none, [], some "House"⟩

/-- The stock rules, except that gates have become doors. -/
def gateRewriter : Rewriter :=
  ⟨[.redirect (Redirections.empty.mapType gateType doorType), .inlineLiterals ⟨[]⟩, .completeCalls, .reportBreakage],
    doorHost, .empty, .strict⟩

/-- A body that casts to a gate, and that handles gates. -/
def gateBody : Body :=
  { Body.ofInstructions
      [.unplaced .ldnull .none,
        .unplaced .castclass (.type gateType),
        .unplaced .throwObject .none,
        .unplaced .throwObject .none] with
    clauses := [⟨.typed, 0, 3, 3, 4, some gateType, none⟩] }

/-- The cast is redirected, the clause is not; the report is compatible all the same, and the type that the clause
handles is broken. -/
theorem rewriteBody_keeps_mapped_catchType :
    (gateRewriter.rewriteBody "enter" gateBody).result = .ok ⟨"enter", 1, 0, [], []⟩ ∧
      (gateRewriter.rewriteBody "enter" gateBody).body.instructions.map Instruction.operand =
        [.none, .type doorType, .none, .none] ∧
      (gateRewriter.rewriteBody "enter" gateBody).body.catchTypes = [some gateType] ∧
      Breakage.ofType doorHost gateType = some (.missingType gateType) := by
  decide +kernel

theorem rewriteBody_ignores_catchTypes_gateBody :
    (gateRewriter.rewriteBody "enter" gateBody).result = .ok ⟨"enter", 1, 0, [], []⟩ ∧
      (gateRewriter.rewriteBody "enter" (gateBody.catching fun _ => none)).result = .ok ⟨"enter", 1, 0, [], []⟩ := by
  have succeeds : (gateRewriter.rewriteBody "enter" gateBody).result = .ok ⟨"enter", 1, 0, [], []⟩ := by
    decide +kernel
  rcases rewriteBody_ignores_catchTypes gateRewriter "enter" gateBody with ⟨_, others⟩
  rcases others fun _ => none with ⟨_, _, alike⟩
  exact ⟨succeeds, (alike _).mpr succeeds⟩

end Rewriter

end CilRelink
