import CilRelink.Proofs.Body.Edits
import CilRelink.Proofs.Rewrite.Coverage
import CilRelink.Proofs.Rewrite.Untouched
import CilRelink.Proofs.Rule.Stock

/-!
# Rewriting again

Rules are asked once about what was there before. When a body that was rewritten is rewritten again, they are asked
about what was put in for the first time, and the second run rewrites just those replacements that a rule takes up.
So rewriting is idempotent on bodies of which no replacement is taken up, and with the stock rules these are all
bodies if the host settles.
-/

namespace CilRelink

namespace Body

variable {body changed : Body} {place : Nat}

theorem validate_of_insertAllBefore {loads : List Instruction} (valid : body.validate = .ok ())
    (nowhere : ∀ load ∈ loads, load.jumpPositions = [])
    (inserted : insertAllBefore place loads body = .ok changed) : changed.validate = .ok () := by
  induction loads generalizing place body with
  | nil =>
      cases inserted
      exact valid
  | cons load loads ih =>
      rw [List.forall_mem_cons] at nowhere
      rcases Fallible.bind_eq_ok_iff.mp inserted with ⟨next, first, rest⟩
      apply ih _ nowhere.2 rest
      apply validate_of_insertBefore valid first
      simp [nowhere.1]

/-- What rules decide does not make a valid body invalid. -/
theorem validate_of_carryOut {rule : Rule} {context : RuleContext} {instruction : Instruction} {verdict : Verdict}
    (valid : body.validate = .ok ()) (decided : rule.judge context instruction = some verdict)
    (carried : body.carryOut place verdict = .ok changed) : changed.validate = .ok () := by
  cases verdict with
  | incompatible breakage =>
      cases carried
      exact valid
  | rewritten loads replacement confidence =>
      have rewrites := Rule.rewrites_of_judge decided
      rcases Fallible.bind_eq_ok_iff.mp carried with ⟨loaded, inserted, rest⟩
      rcases Fallible.bind_eq_ok_iff.mp rest with ⟨⟨old, replaced⟩, replaces, same⟩
      cases same
      have loadedValid := validate_of_insertAllBefore valid rewrites.loads_nowhere inserted
      have replacedValid : replaced.validate = .ok () := by
        apply validate_of_replace loadedValid replaces
        simp [rewrites.replacement_nowhere]
      exact replacedValid

/-- Layout moves no position and keeps operands, so it does not matter to validity. -/
theorem validate_layout (valid : body.validate = .ok ()) : body.layout.2.validate = .ok () := by
  have relaid : List.Forall₂ Instruction.Relaid body.instructions body.layout.2.instructions :=
    Code.relaid_layoutFrom 0 0 _
  have sameSize : body.layout.2.size = body.size := relaid.length_eq.symm
  rcases validate_eq_ok_iff.mp valid with ⟨instructions, clauses⟩
  rw [validate_eq_ok_iff, sameSize]
  refine ⟨?_, clauses⟩
  have wellFormed := Code.wellFormed_of_relaid relaid fun instruction instructionMem =>
    (instructions instruction instructionMem).1
  have inside := Code.targetsInside_of_relaid relaid fun instruction instructionMem =>
    (instructions instruction instructionMem).2
  exact fun instruction instructionMem => ⟨wellFormed instruction instructionMem, inside instruction instructionMem⟩

end Body

namespace Rewriter

variable {rewriter : Rewriter} {name : String} {body : Body} {instruction : Instruction}
variable {instructions before after : List Instruction} {findings : List Finding}

theorem validate_carryOut
    (judged : ∀ finding ∈ findings, ∃ instruction,
      finding.rule.judge rewriter.context instruction = some finding.verdict)
    (valid : body.validate = .ok ()) : (carryOut findings body).2.2.validate = .ok () := by
  induction findings generalizing body with
  | nil => exact valid
  | cons finding findings ih =>
      rw [List.forall_mem_cons] at judged
      rcases judged with ⟨⟨instruction, decided⟩, others⟩
      simp only [carryOut]
      cases carried : body.carryOut finding.place finding.verdict with
      | error error => exact valid
      | ok changed => exact ih others (Body.validate_of_carryOut valid decided carried)

theorem judged_of_mem_findingsFrom {place : Nat} {finding : Finding}
    (found : finding ∈ rewriter.findingsFrom place instructions) :
    ∃ instruction, finding.rule.judge rewriter.context instruction = some finding.verdict := by
  induction instructions generalizing place with
  | nil => cases found
  | cons instruction instructions ih =>
      simp only [findingsFrom] at found
      split at found
      · exact ih found
      · rename_i rule verdict decided
        rcases List.mem_cons.mp found with rfl | later
        · exact ⟨instruction, (judge_eq_some decided).2⟩
        · exact ih later

/-- Rewriting leaves a valid body valid, also when it fails half-way. -/
theorem validate_rewriteBody (rewriter : Rewriter) (name : String) (valid : body.validate = .ok ()) :
    (rewriter.rewriteBody name body).body.validate = .ok () := by
  have carried : (carryOut (rewriter.findingsFrom 0 body.instructions) body).2.2.validate = .ok () :=
    validate_carryOut (fun _ found => judged_of_mem_findingsFrom found) valid
  unfold rewriteBody
  split
  · exact valid
  · split
    · rename_i same
      rwa [same] at carried
    · rename_i changed same
      rw [same] at carried
      have placed := Body.validate_layout carried
      unfold finish
      split
      · exact carried
      · split
        · rename_i failed
          rwa [failed] at placed
        · rename_i finished
          rwa [finished] at placed

/-! ## What is rewritten in the second run -/

/-- Whether a rule rewrites what a rule puts in place of an instruction. -/
def reclaims (rewriter : Rewriter) (instruction : Instruction) : Bool :=
  match rewriter.judge instruction with
  | some (_, .rewritten _ replacement _) => rewriter.rewrites replacement
  | _ => false

theorem rewrites_mapPositions (move : Nat → Nat) :
    rewriter.rewrites (instruction.mapPositions move) = rewriter.rewrites instruction := by
  simp only [rewrites, judge_mapPositions]

theorem rewrites_moved (offset : Nat) :
    rewriter.rewrites { instruction with offset := offset } = rewriter.rewrites instruction := by
  have same : ∀ rule : Rule, rule.judge rewriter.context { instruction with offset := offset } =
      rule.judge rewriter.context instruction := by
    intro rule
    cases rule <;> rfl
  simp only [rewrites, judge, same]

theorem rewrites_eq_false_of_isLiteral (literal : instruction.operand.IsLiteral) :
    rewriter.rewrites instruction = false := by
  have unjudged : rewriter.judge instruction = none := by
    apply List.findSome?_eq_none_iff.mpr
    intro rule _
    rw [Rule.judge_of_isLiteral rule rewriter.context literal, Option.map_none]
  simp only [rewrites, unjudged]

theorem rewrites_eq_false_of_branch
    (branch : instruction.opcode.operandKind = .shortBranch ∨ instruction.opcode.operandKind = .branch) :
    rewriter.rewrites instruction = false := by
  rw [← Bool.not_eq_true]
  intro rewritten
  rcases rewrites_eq_true_iff.mp rewritten with ⟨rule, loads, replacement, confidence, decided⟩
  rcases Rule.isWellFormed_of_judge (judge_eq_some decided).2 with ⟨wellFormed, reference⟩
  rcases instruction with ⟨offset, opcode, operand⟩
  simp only [Instruction.isWellFormed] at wellFormed branch
  -- no reference fits a branch
  cases operand with
  | type | field | method | symbol => rcases branch with kind | kind <;> simp [kind] at wellFormed
  | _ => cases reference

/-- Layout does not matter to rules: what it widens is rewritten neither before nor after. -/
theorem rewrites_of_relaid {before after : Instruction} (relaid : before.Relaid after) :
    rewriter.rewrites after = rewriter.rewrites before := by
  rcases relaid.opcode with same | widened
  · have moved : after = { before with offset := after.offset } := by
      rw [← same, ← relaid.operand]
    rw [moved, rewrites_moved]
  · have short := (Opcode.isSome_widened?_iff before.opcode).mp (by simp [widened])
    have long := Code.operandKind_of_widened? widened
    rw [rewrites_eq_false_of_branch (.inl short), rewrites_eq_false_of_branch (.inr long)]

theorem countP_of_relaid (relaid : List.Forall₂ Instruction.Relaid before after) :
    after.countP rewriter.rewrites = before.countP rewriter.rewrites := by
  induction relaid with
  | nil => rfl
  | cons first _ ih => simp only [List.countP_cons, ih, rewrites_of_relaid first]

/-- Of a site, nothing can be rewritten but the replacement. -/
theorem countP_site (move : Nat → Nat) :
    (rewriter.site move instruction).countP rewriter.rewrites = if rewriter.reclaims instruction then 1 else 0 := by
  cases decided : rewriter.judge instruction with
  | none =>
      have kept : rewriter.rewrites instruction = false := keeps_iff.mp (.inl decided)
      simp [site, reclaims, decided, rewrites_mapPositions, kept]
  | some claim =>
      rcases claim with ⟨rule, verdict⟩
      cases verdict with
      | incompatible breakage =>
          have kept : rewriter.rewrites instruction = false := keeps_iff.mp (.inr ⟨rule, breakage, decided⟩)
          simp [site, reclaims, decided, rewrites_mapPositions, kept]
      | rewritten loads replacement confidence =>
          have rewrites := Rule.rewrites_of_judge (judge_eq_some decided).2
          have loadsStay : loads.countP rewriter.rewrites = 0 := by
            rw [List.countP_eq_zero]
            intro load loadMem
            simp [rewrites_eq_false_of_isLiteral (rewrites.loads_literal load loadMem)]
          simp [site, reclaims, decided, List.countP_append, loadsStay, List.countP_cons, rewrites_moved]

theorem countP_flatMap_site (move : Nat → Nat) :
    (instructions.flatMap (rewriter.site move)).countP rewriter.rewrites = instructions.countP rewriter.reclaims := by
  induction instructions with
  | nil => rfl
  | cons instruction instructions ih =>
      rw [List.flatMap_cons, List.countP_append, countP_site, ih, List.countP_cons]
      omega

theorem countP_rewriteBody {report : MethodReport} (succeeds : (rewriter.rewriteBody name body).result = .ok report) :
    (rewriter.rewriteBody name body).body.instructions.countP rewriter.rewrites =
      body.instructions.countP rewriter.reclaims := by
  have finished := rewriteBody_eq_finish succeeds
  rw [finished] at succeeds ⊢
  rw [(finish_eq_ok succeeds).2]
  have expanded : (rewriter.expand body).instructions.countP rewriter.rewrites =
      body.instructions.countP rewriter.reclaims := countP_flatMap_site _
  split
  · exact (countP_of_relaid (Code.relaid_layoutFrom 0 0 _)).trans expanded
  · exact expanded

theorem checked_rewriteBody {report : MethodReport}
    (succeeds : (rewriter.rewriteBody name body).result = .ok report) :
    (if rewriter.context.settings.validateFirst then (rewriter.rewriteBody name body).body.validate else .ok ()) =
      .ok () := by
  have checked := checked_of_rewriteBody succeeds
  split
  · rename_i validates
    rw [if_pos validates] at checked
    exact validate_rewriteBody rewriter name checked
  · rfl

theorem rewrites_again {again : String} {report later : MethodReport}
    (succeeds : (rewriter.rewriteBody name body).result = .ok report)
    (secondly : (rewriter.rewriteBody again (rewriter.rewriteBody name body).body).result = .ok later) :
    later.rewrites = body.instructions.countP rewriter.reclaims := by
  rw [rewrites_of_rewriteBody secondly]
  exact countP_rewriteBody succeeds

theorem rewriteBody_again_of_unclaimed (again : String) {report : MethodReport}
    (succeeds : (rewriter.rewriteBody name body).result = .ok report)
    (unclaimed : ∀ instruction ∈ body.instructions, rewriter.reclaims instruction = false) :
    (rewriter.rewriteBody again (rewriter.rewriteBody name body).body).body = (rewriter.rewriteBody name body).body ∧
      ∃ later, (rewriter.rewriteBody again (rewriter.rewriteBody name body).body).result = .ok later ∧
        later.rewrites = 0 := by
  apply rewriteBody_of_kept again (checked_rewriteBody succeeds)
  apply kept_of_countP_eq_zero
  rw [countP_rewriteBody succeeds, List.countP_eq_zero]
  intro instruction instructionMem
  simp [unclaimed instruction instructionMem]

/-! ## The stock rules -/

/-- The rewriter with the stock rules and the shipped facades. -/
def stock (host : HostTable) (settings : Settings) : Rewriter := ⟨Rule.stock, host, .shipped, settings⟩

theorem reclaims_of_settles {host : HostTable} (settles : host.Settles) (settings : Settings)
    (instruction : Instruction) : (stock host settings).reclaims instruction = false := by
  unfold reclaims
  split
  · rename_i rule loads replacement confidence decided
    rcases judge_eq_some decided with ⟨ruleMem, judged⟩
    rw [← Bool.not_eq_true]
    intro rewritten
    rcases rewrites_eq_true_iff.mp rewritten with ⟨other, _, _, _, taken⟩
    rcases judge_eq_some taken with ⟨otherMem, takenUp⟩
    exact Rule.judge_substitute_of_settles settles rfl (Rule.substitute_of_stock ruleMem judged) otherMem takenUp
  · rfl

/-- Where rewriting with the stock rules succeeds, rewriting once more rewrites as many instructions as there were of
which the replacement is taken up by a rule. It changes nothing just if there were none, and if the host settles,
there are none in any body. -/
theorem stock_rewriteBody_again (host : HostTable) (settings : Settings) (name again : String) (body : Body)
    {report : MethodReport} {rewritten : Body} {log : List LogRecord}
    (once : (stock host settings).rewriteBody name body = ⟨.ok report, rewritten, log⟩) :
    (∀ later, ((stock host settings).rewriteBody again rewritten).result = .ok later →
      later.rewrites = body.instructions.countP (stock host settings).reclaims) ∧
    ((((stock host settings).rewriteBody again rewritten).body = rewritten ∧
        ∃ later, ((stock host settings).rewriteBody again rewritten).result = .ok later ∧ later.rewrites = 0) ↔
      ∀ instruction ∈ body.instructions, (stock host settings).reclaims instruction = false) ∧
    (host.Settles →
      ((stock host settings).rewriteBody again rewritten).body = rewritten ∧
        ∃ later, ((stock host settings).rewriteBody again rewritten).result = .ok later ∧ later.rewrites = 0) := by
  have succeeds : ((stock host settings).rewriteBody name body).result = .ok report := by rw [once]
  have left : ((stock host settings).rewriteBody name body).body = rewritten := by rw [once]
  have still := rewriteBody_again_of_unclaimed again succeeds
  rw [left] at still
  have counted (later : MethodReport)
      (secondly : ((stock host settings).rewriteBody again rewritten).result = .ok later) :
      later.rewrites = body.instructions.countP (stock host settings).reclaims := by
    rw [← left] at secondly
    exact rewrites_again succeeds secondly
  refine ⟨counted, ⟨?_, still⟩, ?_⟩
  · rintro ⟨_, later, secondly, none⟩ instruction instructionMem
    rw [counted later secondly, List.countP_eq_zero] at none
    simpa using none instruction instructionMem
  · intro settles
    exact still fun instruction _ => reclaims_of_settles settles settings instruction

/-- A host whose dates can be moved by a number of days, over the end of a season unless told otherwise. -/
def calendarHost : HostTable :=
  let advance :=
    ((HostMethod.plain "advance" .void).withParameter "days" .int32).withDefault "wrap" .boolean (.boolean true)
  (HostTable.empty.register ((HostDefinition.empty Game.worldDateType).withMethod advance)).table

/-- Reads the season of a date, which a facade serves, and advances the date without saying whether to wrap. -/
def calendarBody : Body :=
  .ofInstructions
    [.unplaced .callvirt (.method
        ⟨Game.worldDateType.reference, "get_Season", HostType.string.reference, [], true, []⟩),
      .unplaced .callvirt (.method
        ⟨Game.worldDateType.reference, "advance", TypeRef.void, [HostType.int32.reference], true, []⟩),
      .unplaced .ret .none]

theorem stock_rewriteBody_again_calendar :
    let first := (stock calendarHost .strict).rewriteBody "plan" calendarBody
    let second := (stock calendarHost .strict).rewriteBody "plan again" first.body
    first.result = .ok ⟨"plan", 2, 0, [], []⟩ ∧ calendarHost.Settles ∧ second.body = first.body ∧
      ∃ later, second.result = .ok later ∧ later.rewrites = 0 := by
  intro first second
  have succeeds : first.result = .ok ⟨"plan", 2, 0, [], []⟩ := by decide +kernel
  have once : first = ⟨.ok ⟨"plan", 2, 0, [], []⟩, first.body, first.log⟩ := by rw [← succeeds]
  have settles : calendarHost.Settles := by decide +kernel
  exact ⟨succeeds, settles,
    (stock_rewriteBody_again calendarHost .strict "plan" "plan again" calendarBody once).2.2 settles⟩

/-- A host whose dates have a constructor that a facade offers, and that may be called without the day. -/
def dayHost : HostTable :=
  let date := ((HostMethod.constructor.withParameter "year" .int32).withParameter "season" .string).withDefault
    "dayOfMonth" .int32 (.int32 1)
  (HostTable.empty.register ((HostDefinition.empty Game.worldDateType).withConstructor date)).table

/-- Constructs a date without the day. -/
def dayBody : Body :=
  .ofInstructions
    [.unplaced .newobj (.method
        (.constructor Game.worldDateType.reference [HostType.int32.reference, HostType.string.reference])),
      .unplaced .ret .none]

/-- A host that has the type of a facade, with a member that takes an argument more. -/
def facadeHost : HostTable :=
  let season := (HostMethod.plain "get_Season" .string).withDefault "short" .boolean (.boolean false)
  (HostTable.empty.register ((HostDefinition.empty Facade.worldDate.type).withMethod season)).table

/-- A host with a door whose key is inside an array of rings, and with one for a key that looks the same in
references. -/
def ringHost : HostTable :=
  let door := (HostType.simple "" "Door").inAssembly "House"
  let key := HostType.nested (.array (.simple "" "Ring") 1) "Key"
  let alike := HostType.nested (.simple "" "Ring[]") "Key"
  let turn := (HostMethod.plain "turn" .void).withDefault "key" key .null
  let turnTwice :=
    ((HostMethod.plain "turn" .void).withParameter "key" alike).withDefault "times" .int32 (.int32 2)
  (HostTable.empty.register (((HostDefinition.empty door).withMethod turn).withMethod turnTwice)).table

/-- Turns no key. -/
def ringBody : Body :=
  .ofInstructions
    [.unplaced .callvirt (.method
        ⟨.named ⟨"", "Door", none, [], some "House"⟩, "turn", TypeRef.void, [], true, []⟩),
      .unplaced .ret .none]

/-- Rewriting with the stock rules is not idempotent. The facade rule is not asked about the call that was completed
in the first run, nor is completion asked about what a facade offers, or about what it has completed itself. -/
theorem stock_rewriteBody_again_differs :
    let first (host : HostTable) (body : Body) := (stock host .strict).rewriteBody "day" body
    let second (host : HostTable) (body : Body) := (stock host .strict).rewriteBody "day" (first host body).body
    ∀ entry ∈ [(dayHost, dayBody), (facadeHost, calendarBody), (ringHost, ringBody)],
      (first entry.1 entry.2).result = .ok ⟨"day", 1, 0, [], []⟩ ∧
        (second entry.1 entry.2).result = .ok ⟨"day", 1, 0, [], []⟩ ∧
        (second entry.1 entry.2).body ≠ (first entry.1 entry.2).body := by
  decide +kernel

end Rewriter

end CilRelink
