import CilRelink.Proofs.Body.Insertion
import CilRelink.Rewrite.Rewriter

/-!
# Scanning in place

A rewriter can also go through a body while it changes the body: it offers the instruction at a place to the rules,
carries out what the first of them decides at once, and goes on behind whatever then stands in the place. The body
grows on the way, but by no more than the step that follows, so that the scan comes to an end. It does the same as
judging all instructions first.
-/

namespace CilRelink

/-- What came of a scan. -/
structure Scan where
  /-- The instructions that were offered to the rules, with the places they were at. -/
  offered : List (Nat × Instruction)
  findings : List Finding
  failure : Option Error
  body : Body

namespace Scan

/-- The scan that offers an instruction and then goes on as the given one. -/
def following (place : Nat) (instruction : Instruction) (found : Option Finding) (scan : Scan) : Scan :=
  { scan with
    offered := (place, instruction) :: scan.offered
    findings := found.toList ++ scan.findings }

/-- What is made of the scan of the method `name`. -/
def conclude (name : String) (scan : Scan) : Rewriting :=
  match scan.failure with
  | some error => ⟨.error error, scan.body, scan.findings.map (Finding.record name)⟩
  | none => Rewriter.finish name scan.findings scan.body

end Scan

/-- How far it is to the next instruction to offer. -/
def Finding.step : Option Finding → Nat
  | none => 1
  | some finding => finding.verdict.span

namespace Rewriter

/-- Offers the instruction at `place` to rules in their order, up to the first that does not leave it alone. -/
def offer (context : RuleContext) (body : Body) (place : Nat) :
    List Rule → Except Error (Option Finding × Body)
  | [] => .ok (none, body)
  | rule :: rules =>
    match rule.apply context body place with
    | .error error => .error error
    | .ok (none, same) => offer context same place rules
    | .ok (some verdict, changed) => .ok (some ⟨place, rule, verdict⟩, changed)

/-- Rules are asked until one answers, and then its verdict is carried out. -/
theorem offer_eq {rewriter : Rewriter} {body : Body} {place : Nat} {instruction : Instruction}
    (stands : body.instructions[place]? = some instruction) :
    offer rewriter.context body place rewriter.rules =
      match rewriter.judge instruction with
      | none => .ok (none, body)
      | some (rule, verdict) => (some ⟨place, rule, verdict⟩, ·) <$> body.carryOut place verdict := by
  rcases rewriter with ⟨rules, context⟩
  induction rules with
  | nil => rfl
  | cons rule rules ih =>
      simp only [judge] at ih
      simp only [offer, judge, Rule.apply, stands, Option.bind_some, List.findSome?_cons]
      cases rule.judge context instruction with
      | none => exact ih
      | some verdict =>
          simp only [Option.map_some]
          cases body.carryOut place verdict with
          | error error => rfl
          | ok changed => rfl

theorem size_offer {rewriter : Rewriter} {body changed : Body} {place : Nat} {found : Option Finding}
    (inside : place < body.size)
    (offered : offer rewriter.context body place rewriter.rules = .ok (found, changed)) :
    changed.size + 1 = body.size + Finding.step found := by
  rw [offer_eq (List.getElem?_eq_getElem inside)] at offered
  split at offered
  · cases offered
    rfl
  · rcases Fallible.map_eq_ok_iff.mp offered with ⟨result, carried, same⟩
    cases same
    exact Body.size_carryOut carried

/-- Offers the instructions from `place` on. -/
def scanFrom (rewriter : Rewriter) (place : Nat) (body : Body) : Scan :=
  match _ : body.instructions[place]? with
  | none => ⟨[], [], none, body⟩
  | some instruction =>
    match _ : offer rewriter.context body place rewriter.rules with
    | .error error => ⟨[(place, instruction)], [], some error, body⟩
    | .ok (found, changed) =>
      (rewriter.scanFrom (place + Finding.step found) changed).following place instruction found
termination_by body.size - place
decreasing_by
  have inside : place < body.size := (List.getElem?_eq_some_iff.mp ‹_ = some instruction›).1
  have grown := size_offer inside ‹_ = Except.ok (found, changed)›
  omega

/-- The scan of a body from its front. -/
def scan (rewriter : Rewriter) (body : Body) : Scan := rewriter.scanFrom 0 body

section

variable {rewriter : Rewriter} {place : Nat} {body : Body}

theorem scanFrom_of_end (past : body.instructions[place]? = none) :
    rewriter.scanFrom place body = ⟨[], [], none, body⟩ := by
  rw [scanFrom]
  split
  · rfl
  · rename_i found
    rw [past] at found
    cases found

theorem scanFrom_of_offer {instruction : Instruction} (stands : body.instructions[place]? = some instruction) :
    rewriter.scanFrom place body =
      match offer rewriter.context body place rewriter.rules with
      | .error error => ⟨[(place, instruction)], [], some error, body⟩
      | .ok (found, changed) =>
        (rewriter.scanFrom (place + Finding.step found) changed).following place instruction found := by
  rw [scanFrom]
  split
  · rename_i past
    rw [stands] at past
    cases past
  · rename_i same
    rw [stands] at same
    cases same
    split <;> simp_all only

/-- One step of the scan, told by what the rules decide about the instruction. -/
theorem scanFrom_of_inside {instruction : Instruction} (stands : body.instructions[place]? = some instruction) :
    rewriter.scanFrom place body =
      match rewriter.judge instruction with
      | none => (rewriter.scanFrom (place + 1) body).following place instruction none
      | some (rule, verdict) =>
        match body.carryOut place verdict with
        | .error error => ⟨[(place, instruction)], [], some error, body⟩
        | .ok changed =>
          (rewriter.scanFrom (place + verdict.span) changed).following place instruction
            (some ⟨place, rule, verdict⟩) := by
  rw [scanFrom_of_offer stands, offer_eq stands]
  cases rewriter.judge instruction with
  | none => rfl
  | some claim =>
      rcases claim with ⟨rule, verdict⟩
      simp only
      cases body.carryOut place verdict with
      | error error => rfl
      | ok changed => rfl

end

theorem judge_eq_some {rewriter : Rewriter} {instruction : Instruction} {rule : Rule} {verdict : Verdict}
    (decided : rewriter.judge instruction = some (rule, verdict)) :
    rule ∈ rewriter.rules ∧ rule.judge rewriter.context instruction = some verdict := by
  rcases List.exists_of_findSome?_eq_some decided with ⟨other, otherMem, answered⟩
  rcases Option.map_eq_some_iff.mp answered with ⟨answer, judged, same⟩
  cases same
  exact ⟨otherMem, judged⟩

theorem judge_mapPositions (rewriter : Rewriter) (instruction : Instruction) (move : Nat → Nat) :
    rewriter.judge (instruction.mapPositions move) = rewriter.judge instruction := by
  simp only [judge, Rule.judge_mapPositions]

/-- Carrying out a verdict of a rule leaves what is ahead as it was, but for its positions. -/
theorem drop_carryOut {rewriter : Rewriter} {body changed : Body} {place : Nat} {instruction old : Instruction}
    {rule : Rule} {verdict : Verdict} {rest : List Instruction}
    (decided : rewriter.judge instruction = some (rule, verdict))
    (ahead : body.instructions.drop place = old :: rest) (carried : body.carryOut place verdict = .ok changed) :
    ∃ move, changed.instructions.drop (place + verdict.span) = rest.map (·.mapPositions move) := by
  cases verdict with
  | incompatible breakage =>
      cases carried
      refine ⟨id, ?_⟩
      have next := congrArg (List.drop 1) ahead
      simpa [Verdict.span, Instruction.mapPositions_id] using next
  | rewritten loads replacement confidence =>
      have rewrites := Rule.rewrites_of_judge (judge_eq_some decided).2
      have inside : place < body.size := by
        by_contra outside
        rw [List.drop_of_length_le (Nat.le_of_not_lt outside)] at ahead
        cases ahead
      have shape : body.instructions = body.instructions.take place ++ old :: rest := by
        rw [← ahead, List.take_append_drop]
      have front : (body.instructions.take place).length = place := List.length_take_of_le (Nat.le_of_lt inside)
      have result := Body.carryOut_rewritten_eq_ok shape rewrites.loads_nowhere (by rwa [front])
      refine ⟨Body.advance place loads.length, ?_⟩
      rw [result, front]
      refine List.drop_left' ?_
      simp only [List.length_append, List.length_map, List.length_singleton, front, Verdict.span]

/-- What is ahead of a scan is offered in order, so the scan finds what judging it all at once finds, and it changes
the body and fails in the same way. -/
theorem carryOut_findingsFrom {rewriter : Rewriter} {place : Nat} {body : Body} {rest : List Instruction}
    {move : Nat → Nat} (ahead : body.instructions.drop place = rest.map (·.mapPositions move)) :
    carryOut (rewriter.findingsFrom place rest) body =
      ((rewriter.scanFrom place body).findings, (rewriter.scanFrom place body).failure,
        (rewriter.scanFrom place body).body) := by
  induction rest generalizing place body move with
  | nil =>
      have past : body.instructions[place]? = none := by simpa using ahead
      rw [scanFrom_of_end past]
      rfl
  | cons instruction rest ih =>
      have stands : body.instructions[place]? = some (instruction.mapPositions move) := by
        rw [← List.head?_drop, ahead]
        rfl
      rw [scanFrom_of_inside stands, judge_mapPositions, findingsFrom]
      cases decided : rewriter.judge instruction with
      | none =>
          have next := congrArg (List.drop 1) ahead
          rw [List.drop_drop] at next
          exact ih next
      | some claim =>
          rcases claim with ⟨rule, verdict⟩
          simp only [carryOut]
          cases carried : body.carryOut place verdict with
          | error error => rfl
          | ok changed =>
              rcases drop_carryOut decided ahead carried with ⟨later, next⟩
              rw [List.map_map] at next
              simp only [Function.comp_def, Instruction.mapPositions_mapPositions] at next
              simp only [ih next]
              rfl

/-- Rewriting a body is scanning it in place. -/
theorem rewriteBody_eq_scan (rewriter : Rewriter) (name : String) (body : Body) :
    rewriter.rewriteBody name body =
      match if rewriter.context.settings.validateFirst then body.validate else .ok () with
      | .error error => ⟨.error error, body, []⟩
      | .ok () => (rewriter.scan body).conclude name := by
  have ahead : body.instructions.drop 0 = body.instructions.map (·.mapPositions id) := by
    simp [Instruction.mapPositions_id]
  unfold rewriteBody
  cases (if rewriter.context.settings.validateFirst then body.validate else .ok ()) with
  | error error => rfl
  | ok valid =>
      simp only [carryOut_findingsFrom ahead, scan, Scan.conclude]
      cases (rewriter.scanFrom 0 body).failure with
      | none => rfl
      | some error => rfl

end Rewriter

end CilRelink
