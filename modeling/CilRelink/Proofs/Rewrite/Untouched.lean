import CilRelink.Proofs.Rewrite.Expansion

/-!
# What no rule rewrites

The report counts the instructions that a rule has rewritten. If there are none, what the rules found is noted and
the body stays as it is: there is no edit, and no layout.
-/

namespace CilRelink

namespace Rewriter

variable {rewriter : Rewriter} {name : String} {body : Body} {instruction : Instruction}
variable {instructions : List Instruction}

/-- Whether a rule rewrites an instruction. -/
def rewrites (rewriter : Rewriter) (instruction : Instruction) : Bool :=
  match rewriter.judge instruction with
  | some (_, .rewritten ..) => true
  | _ => false

theorem keeps_iff : rewriter.Keeps instruction ↔ rewriter.rewrites instruction = false := by
  unfold Keeps rewrites
  cases rewriter.judge instruction with
  | none => simp
  | some claim =>
      rcases claim with ⟨rule, verdict⟩
      cases verdict <;> simp

theorem rewrites_eq_true_iff : rewriter.rewrites instruction = true ↔
    ∃ rule loads replacement confidence,
      rewriter.judge instruction = some (rule, .rewritten loads replacement confidence) := by
  unfold rewrites
  cases rewriter.judge instruction with
  | none => simp
  | some claim =>
      rcases claim with ⟨rule, verdict⟩
      cases verdict <;> simp

theorem countP_verdicts (rewriter : Rewriter) (instructions : List Instruction) :
    (rewriter.verdicts instructions).countP Finding.isRewrite = instructions.countP rewriter.rewrites := by
  have each : ∀ entry : Instruction × Nat,
      ((rewriter.findingAt instructions entry).map Finding.isRewrite).getD false = rewriter.rewrites entry.1 := by
    rintro ⟨instruction, position⟩
    simp only [findingAt, rewrites]
    cases rewriter.judge instruction with
    | none => rfl
    | some claim =>
        rcases claim with ⟨rule, verdict⟩
        cases verdict <;> rfl
  have plain : instructions.zipIdx.map Prod.fst = instructions := List.zipIdx_map_fst 0 instructions
  rw [verdicts, List.countP_filterMap]
  conv_rhs => rw [← plain, List.countP_map]
  refine List.countP_congr fun entry _ => ?_
  simp only [each, Function.comp_apply]

theorem kept_of_countP_eq_zero (none : instructions.countP rewriter.rewrites = 0) :
    ∀ instruction ∈ instructions, rewriter.Keeps instruction := by
  intro instruction instructionMem
  apply keeps_iff.mpr
  simpa using List.countP_eq_zero.mp none instruction instructionMem

/-- The report counts the instructions that rules rewrite. -/
theorem rewrites_of_rewriteBody {report : MethodReport}
    (succeeds : (rewriter.rewriteBody name body).result = .ok report) :
    report.rewrites = body.instructions.countP rewriter.rewrites := by
  rw [rewriteBody_eq_finish succeeds] at succeeds
  rw [(finish_eq_ok succeeds).1]
  exact countP_verdicts rewriter body.instructions

theorem carryOut_findingsFrom_of_kept (kept : ∀ instruction ∈ instructions, rewriter.Keeps instruction)
    (place : Nat) (body : Body) :
    carryOut (rewriter.findingsFrom place instructions) body = (rewriter.findingsFrom place instructions, none, body) ∧
      (rewriter.findingsFrom place instructions).countP Finding.isRewrite = 0 := by
  induction instructions generalizing place with
  | nil => exact ⟨rfl, rfl⟩
  | cons instruction instructions ih =>
      rw [List.forall_mem_cons] at kept
      rcases kept.1 with unjudged | ⟨rule, breakage, decided⟩
      · simp only [findingsFrom, unjudged]
        exact ih kept.2 (place + 1)
      · rcases ih kept.2 (place + Verdict.span (.incompatible breakage)) with ⟨rest, none⟩
        simp only [findingsFrom, decided, carryOut, Body.carryOut, rest, List.countP_cons, none]
        exact ⟨trivial, rfl⟩

/-- A body that passes, and in which no instruction is rewritten, is left as it is. -/
theorem rewriteBody_of_kept (name : String)
    (checked : (if rewriter.context.settings.validateFirst then body.validate else .ok ()) = .ok ())
    (kept : ∀ instruction ∈ body.instructions, rewriter.Keeps instruction) :
    (rewriter.rewriteBody name body).body = body ∧
      ∃ report, (rewriter.rewriteBody name body).result = .ok report ∧ report.rewrites = 0 := by
  rcases carryOut_findingsFrom_of_kept kept 0 body with ⟨carried, none⟩
  have unmodified :
      (MethodReport.ofFindings name (rewriter.findingsFrom 0 body.instructions) 0).isModified = false := by
    simp [MethodReport.isModified, MethodReport.ofFindings, none]
  simp only [rewriteBody, checked, carried, finish, unmodified, Bool.not_false, if_true]
  exact ⟨trivial, _, rfl, none⟩

theorem checked_of_rewriteBody {report : MethodReport}
    (succeeds : (rewriter.rewriteBody name body).result = .ok report) :
    (if rewriter.context.settings.validateFirst then body.validate else .ok ()) = .ok () := by
  unfold rewriteBody at succeeds
  split at succeeds
  · cases succeeds
  · assumption

/-- A body that is reported to have no rewrites is the body that there was. -/
theorem rewriteBody_of_rewrites_eq_zero {report : MethodReport}
    (succeeds : (rewriter.rewriteBody name body).result = .ok report) (none : report.rewrites = 0) :
    (rewriter.rewriteBody name body).body = body := by
  rw [rewrites_of_rewriteBody succeeds] at none
  exact (rewriteBody_of_kept name (checked_of_rewriteBody succeeds) (kept_of_countP_eq_zero none)).1

end Rewriter

end CilRelink
