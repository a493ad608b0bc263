import CilRelink.Game.Definitions
import CilRelink.Proofs.Code.Layout
import CilRelink.Proofs.Rewrite.Expansion
import CilRelink.Proofs.Rule.Breakage

/-!
# What a compatible report covers

A rule that reports breakage is asked about every reference that no rule before it takes up, so a report without
incompatibilities vouches for all of these. It does not vouch for the references that redirections and completed
calls put in: no rule is asked about them again. They may well be broken, since a map can lead anywhere, and since
the arguments of generic types and methods are carried over as they are. So a report can be compatible although a broken
reference remains, even if there is no map and all rules are there.
-/

namespace CilRelink

namespace Rewriter

/-- The places of the expanded body where a redirection or a completed call put a reference in, with what was put
there. -/
inductive Substituted (rewriter : Rewriter) (body : Body) : (place : Nat) → (replacement : Instruction) → Prop where
  | intro {position : Nat} {original replacement : Instruction} {rule : Rule} {loads : List Instruction}
      {confidence : Confidence} (stands : body.instructions[position]? = some original)
      (decided : rewriter.judge original = some (rule, .rewritten loads replacement confidence))
      (kind : (∃ redirections, rule = .redirect redirections) ∨ rule = .completeCalls) :
      Substituted rewriter body (rewriter.start body.instructions position + loads.length) replacement

section Sites

variable {rewriter : Rewriter} {move : Nat → Nat} {original instruction : Instruction}
  {instructions : List Instruction} {place position index : Nat}

theorem start_cons_succ (rewriter : Rewriter) (move : Nat → Nat) (first : Instruction)
    (instructions : List Instruction) (position : Nat) :
    rewriter.start (first :: instructions) (position + 1) =
      (rewriter.site move first).length + rewriter.start instructions position := by
  have split : (first :: instructions).take (position + 1) = [first] ++ instructions.take position := rfl
  simp only [start, split, injections_append, injections_singleton, length_site]
  omega

theorem exists_site_of_getElem? (stands : (instructions.flatMap (rewriter.site move))[place]? = some instruction) :
    ∃ (position index : Nat) (original : Instruction), instructions[position]? = some original ∧
      (rewriter.site move original)[index]? = some instruction ∧
      place = rewriter.start instructions position + index := by
  induction instructions generalizing place with
  | nil => simp at stands
  | cons first instructions ih =>
      rw [List.flatMap_cons, List.getElem?_append] at stands
      split at stands
      · exact ⟨0, place, first, rfl, stands, by simp [start]⟩
      · rename_i behind
        rcases ih stands with ⟨position, index, original, found, inSite, same⟩
        refine ⟨position + 1, index, original, found, inSite, ?_⟩
        rw [start_cons_succ rewriter move]
        omega

theorem getElem?_of_site (stands : instructions[position]? = some original)
    (inSite : (rewriter.site move original)[index]? = some instruction) :
    (instructions.flatMap (rewriter.site move))[rewriter.start instructions position + index]? = some instruction := by
  induction instructions generalizing position with
  | nil => simp at stands
  | cons first instructions ih =>
      rw [List.flatMap_cons]
      rcases position with _ | position
      · cases stands
        have inside := (List.getElem?_eq_some_iff.mp inSite).1
        simpa [start, List.getElem?_append_left inside] using inSite
      · rw [start_cons_succ rewriter move, Nat.add_assoc, List.getElem?_append_right (by omega),
          Nat.add_sub_cancel_left]
        exact ih stands

/-- An instruction that no rule takes up is not broken if one of them reports breakage. -/
theorem unbroken_of_judge_eq_none (watched : Rule.reportBreakage ∈ rewriter.rules)
    (unjudged : rewriter.judge instruction = none) :
    Breakage.ofOperand rewriter.context.host instruction.operand = none := by
  have silent := List.findSome?_eq_none_iff.mp unjudged _ watched
  simpa only [Option.map_eq_none_iff, Rule.judge, Breakage.judge] using silent

/-- Of a site without a reported reference, only the replacement by a redirection or a completed call can be
broken. -/
theorem unbroken_or_substituted (watched : Rule.reportBreakage ∈ rewriter.rules)
    (unreported : ∀ rule breakage, rewriter.judge original ≠ some (rule, .incompatible breakage))
    (inSite : (rewriter.site move original)[index]? = some instruction) :
    Breakage.ofOperand rewriter.context.host instruction.operand = none ∨
      ∃ rule loads replacement confidence,
        rewriter.judge original = some (rule, .rewritten loads replacement confidence) ∧
          ((∃ redirections, rule = .redirect redirections) ∨ rule = .completeCalls) ∧ index = loads.length := by
  cases decided : rewriter.judge original with
  | none =>
      left
      simp only [site, decided, List.getElem?_singleton] at inSite
      split at inSite
      · cases inSite
        rw [← judge_mapPositions rewriter original move] at decided
        exact unbroken_of_judge_eq_none watched decided
      · cases inSite
  | some claim =>
      rcases claim with ⟨rule, verdict⟩
      cases verdict with
      | incompatible breakage => exact absurd decided (unreported rule breakage)
      | rewritten loads replacement confidence =>
          have rewrites := Rule.rewrites_of_judge (judge_eq_some decided).2
          simp only [site, decided, List.getElem?_append] at inSite
          split at inSite
          · left
            exact Breakage.ofOperand_of_isLiteral (rewrites.loads_literal _ (List.mem_of_getElem? inSite)) _
          · rename_i behind
            rw [List.getElem?_singleton] at inSite
            split at inSite
            · cases inSite
              have atEnd : index = loads.length := by omega
              cases rewrites with
              | redirects redirections replacement reference =>
                  exact .inr ⟨_, _, _, _, rfl, .inl ⟨redirections, rfl⟩, atEnd⟩
              | inlines literals load literal =>
                  left
                  exact Breakage.ofOperand_of_isLiteral literal _
              | completes loads method literals => exact .inr ⟨_, _, _, _, rfl, .inr rfl, atEnd⟩
            · cases inSite

end Sites

section Reports

variable {rewriter : Rewriter} {body : Body} {name : String} {report : MethodReport}

theorem unreported_of_isCompatible {widened : Nat} {position : Nat} {original : Instruction}
    (compatible : (MethodReport.ofFindings name (rewriter.verdicts body.instructions) widened).isCompatible = true)
    (stands : body.instructions[position]? = some original) (rule : Rule) (breakage : Breakage) :
    rewriter.judge original ≠ some (rule, .incompatible breakage) := by
  intro decided
  have listed : (original, position) ∈ body.instructions.zipIdx := List.mem_zipIdx_iff_getElem?.mpr stands
  have found : (⟨rewriter.start body.instructions position, rule, .incompatible breakage⟩ : Finding) ∈
      rewriter.verdicts body.instructions := by
    refine List.mem_filterMap.mpr ⟨_, listed, ?_⟩
    simp [findingAt, decided]
  have silent := List.filterMap_eq_nil_iff.mp (List.isEmpty_iff.mp compatible) _ found
  cases silent

theorem map_operand_of_relaid {before after : List Instruction}
    (relaid : List.Forall₂ Instruction.Relaid before after) :
    after.map Instruction.operand = before.map Instruction.operand := by
  induction relaid with
  | nil => rfl
  | cons first rest ih => rw [List.map_cons, List.map_cons, first.operand, ih]

/-- The body that rewriting leaves behind is the expanded body, perhaps with some short branches widened. -/
theorem relaidAsNeeded_rewriteBody (succeeds : (rewriter.rewriteBody name body).result = .ok report) :
    List.Forall₂ Instruction.RelaidAsNeeded (rewriter.expand body).instructions
      (rewriter.rewriteBody name body).body.instructions := by
  have finished := rewriteBody_eq_finish succeeds
  rw [finished] at succeeds ⊢
  rw [(finish_eq_ok succeeds).2]
  split
  · exact Code.relaidAsNeeded_layoutFrom 0 0 _
  · exact List.forall₂_same.mpr fun instruction _ => .refl instruction

theorem relaid_rewriteBody (succeeds : (rewriter.rewriteBody name body).result = .ok report) :
    List.Forall₂ Instruction.Relaid (rewriter.expand body).instructions
      (rewriter.rewriteBody name body).body.instructions :=
  (relaidAsNeeded_rewriteBody succeeds).imp fun _ _ needed => needed.toRelaid

/-- So it has the operands of the expanded body. -/
theorem map_operand_rewriteBody (succeeds : (rewriter.rewriteBody name body).result = .ok report) :
    (rewriter.rewriteBody name body).body.instructions.map Instruction.operand =
      (rewriter.expand body).instructions.map Instruction.operand :=
  map_operand_of_relaid (relaid_rewriteBody succeeds)

/-- If the report on a body is compatible and one of the rules reports breakage, that rule leaves alone every place
of the rewritten body except those where a redirection or a completed call put a reference in. There it answers what
it answers about the reference that was put in. -/
theorem compatible_report_covers (rewriter : Rewriter) (watched : Rule.reportBreakage ∈ rewriter.rules)
    (name : String) (body : Body) {report : MethodReport}
    (succeeds : (rewriter.rewriteBody name body).result = .ok report) (compatible : report.isCompatible = true) :
    (∀ place, (∀ replacement, ¬ rewriter.Substituted body place replacement) →
      Rule.reportBreakage.apply rewriter.context (rewriter.rewriteBody name body).body place =
        .ok (none, (rewriter.rewriteBody name body).body)) ∧
    ∀ place replacement, rewriter.Substituted body place replacement →
      Rule.reportBreakage.apply rewriter.context (rewriter.rewriteBody name body).body place =
        .ok (Rule.reportBreakage.judge rewriter.context replacement, (rewriter.rewriteBody name body).body) := by
  have operands := map_operand_rewriteBody succeeds
  have unreported (position : Nat) (original : Instruction) (_ : body.instructions[position]? = some original) :
      ∀ rule breakage, rewriter.judge original ≠ some (rule, .incompatible breakage) := by
    have reported := (finish_eq_ok (by rwa [← rewriteBody_eq_finish succeeds])).1
    rw [reported] at compatible
    exact unreported_of_isCompatible compatible ‹_›
  constructor
  · intro place untouched
    rw [Breakage.apply_eq, operands, List.getElem?_map]
    cases found : (rewriter.expand body).instructions[place]? with
    | none => rfl
    | some instruction =>
        rcases exists_site_of_getElem? found with ⟨position, index, original, stands, inSite, rfl⟩
        rcases unbroken_or_substituted watched (unreported position original stands) inSite with
          unbroken | ⟨rule, loads, replacement, confidence, decided, kind, rfl⟩
        · simp only [Option.map_some, Option.bind_some, unbroken, Option.map_none]
        · exact absurd (.intro stands decided kind) (untouched replacement)
  · intro place replacement substituted
    cases substituted with
    | @intro position original replacement rule loads confidence stands decided kind =>
        have inSite : (rewriter.site (rewriter.start body.instructions) original)[loads.length]? =
            some { replacement with offset := original.offset } := by
          simp [site, decided]
        have found := getElem?_of_site stands inSite
        change (rewriter.expand body).instructions[_]? = _ at found
        rw [Breakage.apply_eq, operands, List.getElem?_map, found]
        rfl

/-- The stock rules for the game, with the shipped facades. -/
def gameRewriter : Rewriter := ⟨Rule.stock, Game.table, .shipped, .strict⟩

/-- A type of the game that its table does not have. -/
def lostType : TypeRef := (Game.coreType "Lost").reference

/-- A call that a facade takes over, and that has the lost type for a generic argument. -/
def seasonCall : Body :=
  .ofInstructions
    [.unplaced .callvirt (.method
        ⟨Game.worldDateType.reference, "get_Season", HostType.string.reference, [], true, [lostType]⟩),
      .unplaced .ret .none]

/-- A call that lacks an argument, and that has a lost type for a generic argument. -/
def wideDoorBody : Body :=
  .ofInstructions
    [.unplaced .callvirt (.method
        ⟨.named ⟨"", "Door", none, [], some "House"⟩, "swing", HostType.void.reference, [HostType.int32.reference],
          true, [.named ⟨"", "Hinge", none, [], some "House"⟩]⟩),
      .unplaced .ret .none]

/-- Neither what facades offer nor completed calls are checked: here the reports are compatible, and the references
that were put in are broken. -/
theorem compatible_report_leaves_breakage :
    (∃ report, (gameRewriter.rewriteBody "date" seasonCall).result = .ok report ∧ report.isCompatible = true ∧
      Rule.reportBreakage.apply gameRewriter.context (gameRewriter.rewriteBody "date" seasonCall).body 0 =
        .ok (some (.incompatible (.missingType lostType)), (gameRewriter.rewriteBody "date" seasonCall).body)) ∧
    let rewriter : Rewriter := ⟨Rule.stock, doorHost, .empty, .strict⟩
    ∃ report, (rewriter.rewriteBody "turn" wideDoorBody).result = .ok report ∧ report.isCompatible = true ∧
      Rule.reportBreakage.apply rewriter.context (rewriter.rewriteBody "turn" wideDoorBody).body 1 =
        .ok (some (.incompatible (.missingType (.named ⟨"", "Hinge", none, [], some "House"⟩))),
          (rewriter.rewriteBody "turn" wideDoorBody).body) := by
  refine ⟨⟨⟨"date", 1, 0, [], []⟩, ?_, ?_, ?_⟩, ⟨⟨"turn", 1, 0, [], []⟩, ?_, ?_, ?_⟩⟩
  all_goals decide +kernel

theorem compatible_report_covers_seasonCall :
    Rule.reportBreakage ∈ gameRewriter.rules ∧
      (gameRewriter.rewriteBody "date" seasonCall).result = .ok ⟨"date", 1, 0, [], []⟩ ∧
      Rule.reportBreakage.apply gameRewriter.context (gameRewriter.rewriteBody "date" seasonCall).body 1 =
        .ok (none, (gameRewriter.rewriteBody "date" seasonCall).body) := by
  have watched : Rule.reportBreakage ∈ gameRewriter.rules := by simp [gameRewriter, Rule.stock]
  have succeeds : (gameRewriter.rewriteBody "date" seasonCall).result = .ok ⟨"date", 1, 0, [], []⟩ := by
    decide +kernel
  rcases compatible_report_covers gameRewriter watched "date" seasonCall succeeds rfl with ⟨elsewhere, _⟩
  refine ⟨watched, succeeds, elsewhere 1 ?_⟩
  intro replacement substituted
  generalize same : 1 = place at substituted
  cases substituted with
  | @intro position original replacement rule loads confidence stands decided kind =>
      rcases position with _ | _ | position
      · have noLoads : (seasonCall.instructions.map fun call => (gameRewriter.loadsFor call).length)[0]? = some 0 := by
          decide +kernel
        rw [List.getElem?_map, stands, Option.map_some, Option.some.injEq] at noLoads
        simp only [loadsFor, decided] at noLoads
        simp [start, noLoads] at same
      · have unjudged : (seasonCall.instructions.map fun call => (gameRewriter.judge call).isNone)[1]? = some true := by
          decide +kernel
        rw [List.getElem?_map, stands] at unjudged
        simp [decided] at unjudged
      · simp [seasonCall, Body.ofInstructions] at stands

end Reports

end Rewriter

end CilRelink
