import CilRelink.Proofs.Reference.Identity
import CilRelink.Proofs.Rule.Completion

/-!
# What the stock rules rewrite

Without maps, a rule rewrites what a facade offers a method for, what the host has a literal for, and what lacks
arguments that have defaults. None of that is about assemblies: types are found by their definition names, and denoted
by their names and those of the types around them. So the same reference without assemblies is rewritten or left alone
just as the reference is.
-/

namespace CilRelink

/-! ## References without assemblies -/

/-- The method without the assemblies that the types in it are looked up in. -/
def MethodRef.withoutAssemblies (method : MethodRef) : MethodRef :=
  { method with
    declaringType := method.declaringType.withoutAssemblies
    returnType := method.returnType.withoutAssemblies
    parameters := TypeRef.eachWithoutAssemblies method.parameters
    genericArguments := TypeRef.eachWithoutAssemblies method.genericArguments }

/-- The field without the assemblies that the types in it are looked up in. -/
def FieldRef.withoutAssemblies (field : FieldRef) : FieldRef :=
  { field with
    declaringType := field.declaringType.withoutAssemblies
    fieldType := field.fieldType.withoutAssemblies }

@[simp]
theorem MethodRef.declaringType_withoutAssemblies (method : MethodRef) :
    method.withoutAssemblies.declaringType = method.declaringType.withoutAssemblies := rfl

/-- The operand without the assemblies in the reference to a member. -/
def Operand.withoutAssemblies : Operand → Operand
  | .method reference => .method reference.withoutAssemblies
  | .field reference => .field reference.withoutAssemblies
  | other => other

@[simp]
theorem NamedType.definitionName_withoutAssemblies (type : NamedType) :
    type.withoutAssemblies.definitionName = type.definitionName := by
  fun_induction definitionName type with
  | case1 | case2 => simp_all [withoutAssemblies, definitionName]
  | case3 dotted name outer arguments assembly ih => rw [withoutAssemblies, definitionName, ih]

@[simp]
theorem TypeRef.definitionName_withoutAssemblies (type : TypeRef) :
    type.withoutAssemblies.definitionName = type.definitionName := by
  cases type <;> simp [withoutAssemblies, definitionName]

section Lookups

variable {reference : MethodRef}

@[simp]
theorem HostTable.find?_withoutAssemblies (host : HostTable) (type : TypeRef) :
    host.find? type.withoutAssemblies = host.find? type := by
  rw [find?, TypeRef.definitionName_withoutAssemblies, find?]

@[simp]
theorem FacadeRegistry.forReplaced?_withoutAssemblies (facades : FacadeRegistry) (type : TypeRef) :
    facades.forReplaced? type.withoutAssemblies = facades.forReplaced? type := by
  rw [forReplaced?, TypeRef.definitionName_withoutAssemblies, forReplaced?]

theorem HostMethod.hasSignature_withoutAssemblies :
    (fun method : HostMethod => method.hasSignature reference.withoutAssemblies) = (·.hasSignature reference) := by
  funext method
  rw [hasSignature, MethodRef.withoutAssemblies, HostType.areDenotedBy_withoutAssemblies, hasSignature]

theorem HostDefinition.declares_withoutAssemblies (definition : HostDefinition) :
    definition.declares reference.withoutAssemblies = definition.declares reference := by
  rw [declares, HostMethod.hasSignature_withoutAssemblies, declares, MethodRef.withoutAssemblies]

theorem Facade.retarget?_withoutAssemblies (facade : Facade) :
    facade.retarget? reference.withoutAssemblies = facade.retarget? reference := by
  have members : facade.findMember? reference.withoutAssemblies = facade.findMember? reference := by
    unfold findMember?
    congr 1
    funext member
    rw [congrFun HostMethod.hasSignature_withoutAssemblies, MethodRef.withoutAssemblies,
      HostType.isDenotedBy_withoutAssemblies]
  have constructors : facade.findConstructor? reference.withoutAssemblies = facade.findConstructor? reference := by
    rw [findConstructor?, HostMethod.hasSignature_withoutAssemblies, findConstructor?]
    rfl
  rw [retarget?, members, constructors, retarget?]
  rfl

theorem Completion.extendsCall_withoutAssemblies :
    (extendsCall · reference.withoutAssemblies) = (extendsCall · reference) := by
  funext method
  have count : (TypeRef.eachWithoutAssemblies reference.parameters).length = reference.parameters.length := by
    rw [TypeRef.eachWithoutAssemblies_eq_map, List.length_map]
  rw [extendsCall, MethodRef.withoutAssemblies, HostType.areDenotedBy_withoutAssemblies, count, extendsCall]

theorem Literals.hostValue?_withoutAssemblies (host : HostTable) (field : FieldRef) :
    hostValue? host field.withoutAssemblies = hostValue? host field := by
  simp only [hostValue?, FieldRef.withoutAssemblies, HostTable.find?_withoutAssemblies,
    HostType.isDenotedBy_withoutAssemblies]

end Lookups

/-- Whether a facade stands in for the declaring type and offers something in place of the method. -/
def MethodRef.IsReplaced (facades : FacadeRegistry) (reference : MethodRef) : Prop :=
  ∃ facade, facades.forReplaced? reference.declaringType = some facade ∧
    facade.replaces.isDenotedBy reference.declaringType = true ∧ (facade.retarget? reference).isSome = true

/-- Whether a call lacks arguments, and the defaults of all of them can be loaded. -/
def MethodRef.IsCompleted (host : HostTable) (reference : MethodRef) : Prop :=
  ∃ definition method loads, Completion.Lacking host reference definition method ∧
    List.Forall₂ Completion.LoadsDefault (Completion.missing method reference) loads

/-- Whether the host has a literal under the name of the field that can be loaded. -/
def FieldRef.IsInlined (host : HostTable) (reference : FieldRef) : Prop :=
  ∃ value load, Literals.hostValue? host reference = some value ∧ value.load? = some load

/-- What it takes for the stock rules to rewrite an instruction. -/
def Rule.Rewritable (context : RuleContext) (opcode : Opcode) : Operand → Prop
  | .method reference =>
    (opcode.operandKind = .method ∧ reference.IsReplaced context.facades) ∨
      ((opcode = .call ∨ opcode = .callvirt ∨ opcode = .newobj) ∧ reference.IsCompleted context.host)
  | .field reference => opcode = .ldsfld ∧ reference.IsInlined context.host
  | _ => False

section Conditions

variable {context : RuleContext} {host : HostTable} {facades : FacadeRegistry} {reference : MethodRef}
variable {definition : HostDefinition} {method : HostMethod} {field : FieldRef}

theorem MethodRef.isReplaced_withoutAssemblies :
    reference.withoutAssemblies.IsReplaced facades ↔ reference.IsReplaced facades := by
  simp only [IsReplaced, declaringType_withoutAssemblies, FacadeRegistry.forReplaced?_withoutAssemblies,
    HostType.isDenotedBy_withoutAssemblies, Facade.retarget?_withoutAssemblies]

theorem Completion.lacking_withoutAssemblies :
    Lacking host reference.withoutAssemblies definition method ↔ Lacking host reference definition method := by
  have live : host.find? reference.withoutAssemblies.declaringType = host.find? reference.declaringType :=
    host.find?_withoutAssemblies _
  have declares : definition.declares reference.withoutAssemblies = definition.declares reference :=
    definition.declares_withoutAssemblies
  have first : (definition.callables reference.withoutAssemblies.name).find?
      (extendsCall · reference.withoutAssemblies) =
        (definition.callables reference.name).find? (extendsCall · reference) := by
    rw [extendsCall_withoutAssemblies, MethodRef.withoutAssemblies]
  constructor
  · rintro ⟨isLive, undeclared, isFirst⟩
    exact ⟨live.symm.trans isLive, declares.symm.trans undeclared, first.symm.trans isFirst⟩
  · rintro ⟨isLive, undeclared, isFirst⟩
    exact ⟨live.trans isLive, declares.trans undeclared, first.trans isFirst⟩

theorem MethodRef.isCompleted_withoutAssemblies :
    reference.withoutAssemblies.IsCompleted host ↔ reference.IsCompleted host := by
  have missing (method : HostMethod) :
      Completion.missing method reference.withoutAssemblies = Completion.missing method reference := by
    rw [Completion.missing, withoutAssemblies, TypeRef.eachWithoutAssemblies_eq_map, List.length_map,
      Completion.missing]
  simp only [IsCompleted, Completion.lacking_withoutAssemblies, missing]

theorem FieldRef.isInlined_withoutAssemblies : field.withoutAssemblies.IsInlined host ↔ field.IsInlined host := by
  simp only [IsInlined, Literals.hostValue?_withoutAssemblies]

/-- Assemblies make no difference to whether the stock rules rewrite an instruction. -/
theorem Rule.rewritable_withoutAssemblies (opcode : Opcode) (operand : Operand) :
    Rewritable context opcode operand.withoutAssemblies ↔ Rewritable context opcode operand := by
  cases operand with
  | method reference =>
      simp only [Operand.withoutAssemblies, Rewritable, MethodRef.isReplaced_withoutAssemblies,
        MethodRef.isCompleted_withoutAssemblies]
  | field reference => simp only [Operand.withoutAssemblies, Rewritable, FieldRef.isInlined_withoutAssemblies]
  | _ => exact Iff.rfl

end Conditions

/-! ## What the stock rules rewrite -/

section Stock

variable {context : RuleContext} {instruction replacement : Instruction} {loads : List Instruction}
variable {confidence : Confidence}

theorem Instruction.opcode_eq_ldsfld (static : instruction.opcode.accessesStaticField = true)
    (reads : ¬ (instruction.accessedField?.isNone || instruction.opcode.storesField) = true) :
    instruction.opcode = .ldsfld := by
  rcases instruction with ⟨offset, opcode, operand⟩
  simp only [Opcode.accessesStaticField] at static
  split at static
  · rfl
  · simp [Opcode.storesField] at reads
  · simp [accessedField?] at reads
  · cases static

/-- A literal is loaded in place of a read of a static field that the host has a value for. -/
theorem Literals.judge_eq_rewritten_iff :
    judge ⟨[]⟩ context instruction = some (.rewritten loads replacement confidence) ↔
      ∃ reference value, instruction.operand = .field reference ∧ instruction.opcode = .ldsfld ∧
        hostValue? context.host reference = some value ∧ value.load? = some replacement ∧
        loads = [] ∧ confidence = .exact := by
  constructor
  · intro decided
    simp only [judge] at decided
    split at decided
    · rename_i reference names
      split at decided
      · cases decided
      · rename_i static
        rcases Option.map_eq_some_iff.mp decided with ⟨value, found, made⟩
        split at made
        · cases made
        · rename_i reads
          split at made
          · cases made
          · rename_i load loaded
            cases made
            have opcode := Instruction.opcode_eq_ldsfld (by simpa using static) reads
            exact ⟨reference, value, names, opcode, found, loaded, rfl, rfl⟩
    · cases decided
  · rintro ⟨reference, value, names, reads, found, loaded, rfl, rfl⟩
    rcases instruction with ⟨offset, opcode, operand⟩
    cases names
    cases reads
    have asked : value? ⟨[]⟩ context.host reference = some value := found
    simp [judge, asked, loaded, Opcode.accessesStaticField, Opcode.storesField, Instruction.accessedField?]

/-- A call is completed if it lacks arguments, and the defaults of all of them can be loaded. -/
theorem Completion.judge_eq_rewritten_iff :
    judge context instruction = some (.rewritten loads replacement confidence) ↔
      ∃ reference definition method, instruction.invokedMethod? = some reference ∧
        Lacking context.host reference definition method ∧
        List.Forall₂ LoadsDefault (missing method reference) loads ∧
        replacement = .unplaced instruction.opcode (.method (completed definition method reference)) ∧
        confidence = .exact := by
  rw [judge_eq_some_iff]
  refine exists_congr fun reference => exists_congr fun definition => exists_congr fun method => ?_
  constructor
  · rintro ⟨invoked, live, undeclared, first, made⟩
    exact ⟨invoked, ⟨live, undeclared, first⟩, complete_eq_rewritten made⟩
  · rintro ⟨invoked, lacking, inOrder, rfl, rfl⟩
    refine ⟨invoked, lacking.live, lacking.undeclared, lacking.first, ?_⟩
    rw [complete, loads_eq_ok_iff.mpr inOrder]

theorem Instruction.invokedMethod?_eq_some_iff {reference : MethodRef} :
    instruction.invokedMethod? = some reference ↔ instruction.operand = .method reference ∧
      (instruction.opcode = .call ∨ instruction.opcode = .callvirt ∨ instruction.opcode = .newobj) := by
  rcases instruction with ⟨offset, opcode, operand⟩
  constructor
  · intro invoked
    simp only [invokedMethod?] at invoked
    split at invoked
    · cases invoked
      exact ⟨rfl, .inl rfl⟩
    · cases invoked
      exact ⟨rfl, .inr (.inl rfl)⟩
    · cases invoked
      exact ⟨rfl, .inr (.inr rfl)⟩
    · cases invoked
  · rintro ⟨rfl, rfl | rfl | rfl⟩ <;> rfl

namespace Rule

/-- What it takes for the stock rules to rewrite an instruction is what it takes for one of them. -/
theorem rewritable_iff :
    Rewritable context instruction.opcode instruction.operand ↔
      ∃ rule ∈ stock, ∃ loads replacement confidence,
        rule.judge context instruction = some (.rewritten loads replacement confidence) := by
  constructor
  · intro rewritable
    cases names : instruction.operand with
    | method reference =>
        rw [names] at rewritable
        rcases rewritable with
          ⟨kind, facade, found, denoted, offers⟩ | ⟨calls, definition, method, loads, lacking, inOrder⟩
        · rcases Option.isSome_iff_exists.mp offers with ⟨offered, retargeted⟩
          have redirected := Redirections.facadeMethod_eq_some_iff.mpr
            ⟨facade, offered, found, denoted, retargeted, rfl⟩
          exact ⟨redirect .empty, by simp [stock], _, _, _,
            Redirections.judge_empty_eq_some_iff.mpr ⟨reference, _, names, kind, redirected, rfl⟩⟩
        · have invoked := Instruction.invokedMethod?_eq_some_iff.mpr ⟨names, calls⟩
          exact ⟨completeCalls, by simp [stock], _, _, _,
            Completion.judge_eq_rewritten_iff.mpr ⟨reference, definition, method, invoked, lacking, inOrder, rfl, rfl⟩⟩
    | field reference =>
        rw [names] at rewritable
        rcases rewritable with ⟨reads, value, load, constant, loaded⟩
        exact ⟨inlineLiterals ⟨[]⟩, by simp [stock], _, _, _,
          Literals.judge_eq_rewritten_iff.mpr ⟨reference, value, names, reads, constant, loaded, rfl, rfl⟩⟩
    | _ =>
        rw [names] at rewritable
        cases rewritable
  · rintro ⟨rule, ruleMem, loads, replacement, confidence, decided⟩
    simp only [stock, List.mem_cons, List.not_mem_nil, or_false] at ruleMem
    rcases ruleMem with rfl | rfl | rfl | rfl
    · rcases Redirections.judge_empty_eq_some_iff.mp decided with ⟨reference, method, names, kind, redirected, _⟩
      rcases Redirections.facadeMethod_eq_some_iff.mp redirected with ⟨facade, _, found, denoted, retargeted, _⟩
      rw [names]
      exact .inl ⟨kind, facade, found, denoted, Option.isSome_iff_exists.mpr ⟨_, retargeted⟩⟩
    · rcases Literals.judge_eq_rewritten_iff.mp decided with ⟨reference, value, names, reads, constant, loaded, _⟩
      rw [names]
      exact ⟨reads, value, replacement, constant, loaded⟩
    · rcases Completion.judge_eq_rewritten_iff.mp decided with
        ⟨reference, definition, method, invoked, lacking, inOrder, _⟩
      rcases Instruction.invokedMethod?_eq_some_iff.mp invoked with ⟨names, calls⟩
      rw [names]
      exact .inr ⟨calls, definition, method, loads, lacking, inOrder⟩
    · cases rewrites_of_judge decided

end Rule

namespace Rewriter

theorem rewrites_of_front {rewriter : Rewriter} {rule : Rule} (front : List Rule) {back : List Rule}
    (inOrder : rewriter.rules = front ++ rule :: back)
    (silent : ∀ other ∈ front, other.judge rewriter.context instruction = none)
    (decided : rule.judge rewriter.context instruction = some (.rewritten loads replacement confidence)) :
    rewriter.rewrites instruction = true := by
  refine rewrites_eq_true_iff.mpr ⟨rule, loads, replacement, confidence, ?_⟩
  rw [judge, inOrder, List.findSome?_append, List.findSome?_eq_none_iff.mpr, Option.none_or, List.findSome?_cons,
    decided]
  · rfl
  · intro other otherMem
    rw [silent other otherMem]
    rfl

/-- Of the stock rules, those that come before one that rewrites an instruction do not find it broken. -/
theorem rewrites_stock_iff :
    (⟨Rule.stock, context⟩ : Rewriter).rewrites instruction = true ↔
      Rule.Rewritable context instruction.opcode instruction.operand := by
  rw [Rule.rewritable_iff]
  constructor
  · intro rewritten
    rcases rewrites_eq_true_iff.mp rewritten with ⟨rule, loads, replacement, confidence, decided⟩
    rcases judge_eq_some decided with ⟨ruleMem, judged⟩
    exact ⟨rule, ruleMem, loads, replacement, confidence, judged⟩
  · rintro ⟨rule, ruleMem, loads, replacement, confidence, decided⟩
    cases redirected : (Rule.redirect .empty).judge context instruction with
    | some verdict =>
        rcases Redirections.judge_empty_eq_some_iff.mp redirected with ⟨_, _, _, _, _, rfl⟩
        exact rewrites_of_front [] rfl (by simp) redirected
    | none =>
        simp only [Rule.stock, List.mem_cons, List.not_mem_nil, or_false] at ruleMem
        rcases ruleMem with rfl | rfl | rfl | rfl
        · rw [redirected] at decided
          cases decided
        · exact rewrites_of_front [.redirect .empty] rfl (by simp [redirected]) decided
        · have inlined : (Rule.inlineLiterals ⟨[]⟩).judge context instruction = none := by
            rcases Completion.judge_eq_rewritten_iff.mp decided with ⟨reference, _, _, invoked, _⟩
            simp [Rule.judge, Literals.judge, (Instruction.invokedMethod?_eq_some invoked).1]
          exact rewrites_of_front [.redirect .empty, .inlineLiterals ⟨[]⟩] rfl (by simp [redirected, inlined]) decided
        · cases Rule.rewrites_of_judge decided

end Rewriter

end Stock

end CilRelink
