import CilRelink.Proofs.Rewrite.Prefixes
import CilRelink.Proofs.Rule.Inheritance
import CilRelink.Proofs.Rule.Rewritable

/-!
# Members of other assemblies

A mod may have a type of the same name as one of the host. Only one of the stock rules looks at the assembly that a
reference resolves against, the one that reports what is broken. The others go by names, and rewrite a reference into
another assembly as they would rewrite the same reference into the host. What keeps such a reference from being
rewritten is that the host has no type of that name, or one that has the member.
-/

namespace CilRelink

section Stock

variable {rule : Rule} {context : RuleContext} {instruction replacement : Instruction} {loads : List Instruction}
variable {confidence : Confidence}

/-- No stock rule puts a reference back in place of itself. -/
theorem Rule.exists_first_of_stock (ruleMem : rule ∈ stock) (shipped : context.facades = .shipped)
    (decided : rule.judge context instruction = some (.rewritten loads replacement confidence)) :
    ∃ first rest, loads ++ [{ replacement with offset := instruction.offset }] = first :: rest ∧
      first.operand ≠ instruction.operand := by
  have rewrites := rewrites_of_judge decided
  simp only [stock, List.mem_cons, List.not_mem_nil, or_false] at ruleMem
  rcases ruleMem with rfl | rfl | rfl | rfl
  · rcases Redirections.judge_empty_eq_some_iff.mp decided with ⟨reference, method, names, _, offered, same⟩
    cases same
    refine ⟨_, [], rfl, ?_⟩
    rw [names]
    rintro ⟨⟩
    -- what a facade offers belongs to the facade, which no other stands in for
    rcases Redirections.facadeMethod_eq_some_iff.mp offered with ⟨facade, original, found, _, retargeted, again⟩
    rw [shipped] at found
    have ofFacade := Facade.declaringType_of_retarget? retargeted
    have declaringType : reference.declaringType = facade.type.reference :=
      (congrArg MethodRef.declaringType again).trans ofFacade
    have facadeMem := (FacadeRegistry.mem_of_forReplaced?_shipped found).1
    rw [declaringType, FacadeRegistry.forReplaced?_shipped_type facadeMem] at found
    cases found
  · rcases Literals.judge_eq_rewritten_iff.mp decided with ⟨reference, value, names, _, _, loaded, rfl, _⟩
    refine ⟨_, [], rfl, fun same => ?_⟩
    have literal := HostValue.isLiteral_of_load? loaded
    rw [show replacement.operand = .field reference from same.trans names] at literal
    exact literal
  · rcases Completion.judge_eq_rewritten_iff.mp decided with ⟨reference, _, _, invoked, _⟩
    rcases List.exists_cons_of_ne_nil (loads_ne_nil_of_completeCalls decided) with ⟨first, rest, rfl⟩
    refine ⟨first, rest ++ [_], rfl, fun same => ?_⟩
    have literal := rewrites.loads_literal first List.mem_cons_self
    rw [same, (Instruction.invokedMethod?_eq_some invoked).1] at literal
    exact literal
  · cases rewrites

end Stock

/-- Whether a type is looked up in an assembly that is not the host's. -/
def HostTable.IsForeign (host : HostTable) (type : TypeRef) : Prop :=
  ∃ assembly, type.assembly = some assembly ∧ host.ownsAssembly assembly = false

instance (host : HostTable) (type : TypeRef) : Decidable (host.IsForeign type) :=
  match isIn : type.assembly with
  | some assembly =>
    decidable_of_iff (host.ownsAssembly assembly = false) <| by
      simp [HostTable.IsForeign, isIn]
  | none =>
    .isFalse <| by
      simp [HostTable.IsForeign, isIn]

theorem HostTable.IsForeign.not_owned {host : HostTable} {type : TypeRef} (foreign : host.IsForeign type) :
    host.owns type = false := by
  rcases foreign with ⟨assembly, isIn, other⟩
  rw [owns, isIn]
  exact other

theorem Operand.positions_of_sought? {operand : Operand} {sought : Sought} (seeks : operand.sought? = some sought) :
    operand.positions = [] := by
  cases operand <;> first | rfl | cases seeks

/-- Only a type of the host can be found missing from a reference into another assembly. -/
theorem Breakage.missingType_of_foreign {host : HostTable} {operand : Operand} {sought : Sought} {breakage : Breakage}
    (seeks : operand.sought? = some sought) (foreign : host.IsForeign sought.declaringType)
    (broken : ofOperand host operand = some breakage) : ∃ gone, breakage = .missingType gone := by
  obtain ⟨missing, changed, same⟩ :
      ∃ missing changed, ofOperand host operand = sought.breakage host missing changed := exists_ofOperand_eq seeks
  rw [same, Sought.breakage] at broken
  split at broken
  · rename_i lost
    cases broken
    exact exists_of_ofTypes _ lost
  · simp [foreign.not_owned] at broken

/-- Where neither the host nor a facade has the name of a type, no member of the type is rewritten. -/
theorem Rule.not_rewritable_of_unnamed (context : RuleContext) {opcode : Opcode} {operand : Operand} {sought : Sought}
    (seeks : operand.sought? = some sought) (unknown : context.host.find? sought.declaringType = none)
    (unreplaced : context.facades.forReplaced? sought.declaringType = none) :
    ¬ Rewritable context opcode operand := by
  cases operand with
  | method reference =>
      cases seeks
      rintro (⟨_, facade, found, _⟩ | ⟨_, definition, method, loads, lacking, _⟩)
      · rw [MethodRef.sought, found] at unreplaced
        cases unreplaced
      · rw [MethodRef.sought, lacking.live] at unknown
        cases unknown
  | field reference =>
      cases seeks
      rintro ⟨_, value, load, constant, _⟩
      rcases Option.bind_eq_some_iff.mp constant with ⟨definition, found, _⟩
      rw [FieldRef.sought, found] at unknown
      cases unknown
  | _ => exact False.elim

namespace Rewriter

section Bodies

variable {rewriter : Rewriter} {name : String} {body : Body} {report : MethodReport} {position : Nat}
variable {original : Instruction}

/-- What is kept and leads nowhere stands in the rewritten body as it stood before, its offset apart. -/
theorem exists_kept (succeeds : (rewriter.rewriteBody name body).result = .ok report)
    (stands : body.instructions[position]? = some original) (keeps : rewriter.Keeps original)
    (nowhere : original.jumpPositions = []) :
    ∃ kept, (rewriter.rewriteBody name body).body.instructions[rewriter.start body.instructions position]? = some kept ∧
      kept.opcode = original.opcode ∧ kept.operand = original.operand := by
  have site : (rewriter.site (rewriter.start body.instructions) original)[0]? = some original := by
    rw [keeps.site_eq, Instruction.mapPositions_eq_self nowhere]
    rfl
  rcases Code.exists_of_forall₂ (relaidAsNeeded_rewriteBody succeeds) (getElem?_of_site stands site) with
    ⟨kept, there, needed⟩
  exact ⟨kept, there, needed.still nowhere, needed.operand⟩

end Bodies

/-- What the stock rules rewrite begins with another operand than before, and all else is kept. -/
theorem exists_kept_iff_of_stock {host : HostTable} {settings : Settings} {name : String} {body : Body}
    {report : MethodReport} (succeeds : ((stock host settings).rewriteBody name body).result = .ok report)
    {position : Nat} {original : Instruction} (stands : body.instructions[position]? = some original)
    (nowhere : original.jumpPositions = []) :
    (∃ kept, ((stock host settings).rewriteBody name body).body.instructions[
        (stock host settings).start body.instructions position]? = some kept ∧
      kept.opcode = original.opcode ∧ kept.operand = original.operand) ↔
      ¬ Rule.Rewritable ⟨host, .shipped, settings⟩ original.opcode original.operand := by
  constructor
  · rintro ⟨kept, there, _, sameOperand⟩ rewritable
    have rewritten : (stock host settings).rewrites original = true := rewrites_stock_iff.mpr rewritable
    rcases rewrites_eq_true_iff.mp rewritten with ⟨rule, loads, replacement, confidence, decided⟩
    rcases judge_eq_some decided with ⟨ruleMem, judged⟩
    rcases Rule.exists_first_of_stock ruleMem rfl judged with ⟨first, rest, site, other⟩
    have begins : ((stock host settings).site ((stock host settings).start body.instructions) original)[0]? =
        some first := by
      simp only [Rewriter.site, decided, site]
      rfl
    rcases exists_relaid_of_site succeeds stands begins with ⟨after, thereToo, relaid⟩
    rw [Nat.add_zero, there, Option.some.injEq] at thereToo
    subst thereToo
    exact other (relaid.operand.symm.trans sameOperand)
  · intro spared
    have keeps : (stock host settings).Keeps original := by
      rw [keeps_iff, ← Bool.not_eq_true]
      exact fun rewritten => spared (rewrites_stock_iff.mp rewritten)
    exact exists_kept succeeds stands keeps nowhere

/-- A member of an assembly that is not the host's is kept exactly if the stock rules do not take it for a member of
the host, or of a type that a facade stands in for. They go by names, so the same reference without assemblies, or into
the host, is taken for the same. None is rewritten of a type under whose name there is neither a live type nor a facade.
Only the rule that reports what is broken goes by assemblies: it never misses such a member, or finds it changed. -/
theorem foreign_member_kept_iff (host : HostTable) (settings : Settings) (name : String) (body : Body)
    {report : MethodReport} (succeeds : ((stock host settings).rewriteBody name body).result = .ok report)
    {position : Nat} {original : Instruction} {sought : Sought} (stands : body.instructions[position]? = some original)
    (seeks : original.operand.sought? = some sought) (foreign : host.IsForeign sought.declaringType) :
    let Rewritable := Rule.Rewritable ⟨host, .shipped, settings⟩ original.opcode
    ((∃ kept, ((stock host settings).rewriteBody name body).body.instructions[
          (stock host settings).start body.instructions position]? = some kept ∧
        kept.opcode = original.opcode ∧ kept.operand = original.operand) ↔ ¬ Rewritable original.operand) ∧
    (Rewritable original.operand.withoutAssemblies ↔ Rewritable original.operand) ∧
    (host.find? sought.declaringType = none → FacadeRegistry.shipped.forReplaced? sought.declaringType = none →
      ¬ Rewritable original.operand) ∧
    ∀ breakage, Breakage.ofOperand host original.operand = some breakage → ∃ gone, breakage = .missingType gone := by
  intro Rewritable
  exact ⟨exists_kept_iff_of_stock succeeds stands (Operand.positions_of_sought? seeks),
    Rule.rewritable_withoutAssemblies _ _, Rule.not_rewritable_of_unnamed ⟨host, .shipped, settings⟩ seeks,
    fun breakage => Breakage.missingType_of_foreign seeks foreign⟩

section Mods

/-- A type of a mod. -/
def modType (dotted name : String) : TypeRef := .named ⟨dotted, name, none, [], some "MyMod"⟩

/-- A mod deals with its own types. The host has doors, too, and a type of the same name as that of the dates. -/
def modBody : Body :=
  .ofInstructions
    [.unplaced .call (.method ⟨modType "" "Shed", "open", .void, [], false, []⟩),
      .unplaced .callvirt (.method ⟨modType "" "Door", "swing", .void, [HostType.int32.reference], true, []⟩),
      .unplaced .ldsfld (.field ⟨modType "" "Door", "width", HostType.int32.reference⟩),
      .unplaced .callvirt
        (.method ⟨modType "StardewValley" "WorldDate", "get_Season", HostType.string.reference, [], true, []⟩),
      .unplaced .ret .none]

theorem foreign_member_kept_iff_shed :
    let host := wideDoorRewriter.context.host
    let rewriting := (stock host .strict).rewriteBody "build" modBody
    rewriting.result = .ok ⟨"build", 3, 0, [], []⟩ ∧ host.IsForeign (modType "" "Shed") ∧
      ∃ kept, rewriting.body.instructions[0]? = some kept ∧ kept.opcode = .call ∧
        kept.operand = .method ⟨modType "" "Shed", "open", .void, [], false, []⟩ := by
  intro host rewriting
  have succeeds : rewriting.result = .ok ⟨"build", 3, 0, [], []⟩ := by decide +kernel
  have foreign : host.IsForeign (modType "" "Shed") := by decide +kernel
  have stands : modBody.instructions[0]? =
      some (.unplaced .call (.method ⟨modType "" "Shed", "open", .void, [], false, []⟩)) := rfl
  rcases foreign_member_kept_iff host .strict "build" modBody succeeds stands rfl foreign with ⟨kept, _, unnamed, _⟩
  exact ⟨succeeds, foreign, kept.mpr (unnamed (by decide +kernel) (by decide +kernel))⟩

/-- Members of other assemblies are rewritten where the host has a type of that name: a call is completed, a literal is
loaded for a field, and a facade takes over a method, though all belong to types of the mod. -/
theorem foreign_members_rewritten :
    let host := wideDoorRewriter.context.host
    let rewriting := (stock host .strict).rewriteBody "build" modBody
    (∀ sought ∈ modBody.instructions.filterMap (·.operand.sought?), host.IsForeign sought.declaringType) ∧
      modBody.instructions.map Instruction.opcode = [.call, .callvirt, .ldsfld, .callvirt, .ret] ∧
      rewriting.result = .ok ⟨"build", 3, 0, [], []⟩ ∧
      rewriting.body.instructions.map Instruction.opcode =
        [.call, .ldcI4_7, .callvirt, .ldcI4_2, .callvirt, .ret] ∧
      rewriting.body.instructions[4]?.map Instruction.operand =
        some (.method ⟨Facade.worldDate.type.reference, "get_Season", HostType.string.reference, [], true, []⟩) := by
  decide +kernel

end Mods

end Rewriter

end CilRelink
