import CilRelink.Proofs.Facade.Registry
import CilRelink.Proofs.Rule.Rewrites
import CilRelink.Proofs.Scope

/-!
# What the stock rules say to what they put in

The stock rules have no maps and no values of their own, so what they redirect is what a facade offers. A literal
that they put in is nothing to any rule. A reference may be something to one of them, for rules are not asked in turn
about what another put in: the table of live types may have the type of a facade, a facade may offer what a call was
completed to, and a live type may have a reference that does not denote it. Where none of these is so, the stock rules
leave alone what they put in.
-/

namespace CilRelink

mutual

@[simp]
theorem TypeRef.redirect_empty : (type : TypeRef) → type.redirect .empty = none
  | .named ⟨dotted, name, enclosing, arguments, assembly⟩ => by
    simp [TypeRef.redirect, TypeRef.redirectEach_empty arguments]
  | .placeholder _ => rfl
  | .array element _ => by simp [TypeRef.redirect, TypeRef.redirect_empty element]
  | .byRef target => by simp [TypeRef.redirect, TypeRef.redirect_empty target]
  | .pointer target => by simp [TypeRef.redirect, TypeRef.redirect_empty target]

@[simp]
theorem TypeRef.redirectEach_empty : (types : List TypeRef) → TypeRef.redirectEach .empty types = none
  | [] => rfl
  | type :: types => by
    simp [TypeRef.redirectEach, TypeRef.redirect_empty type, TypeRef.redirectEach_empty types]

end

/-- The facades that come with a registry. -/
def Facade.shipped : List Facade := [.worldDate, .farmAnimal]

theorem Facade.declaringType_of_retarget? {facade : Facade} {reference offered : MethodRef}
    (retargeted : facade.retarget? reference = some offered) : offered.declaringType = facade.type.reference := by
  rcases Option.map_eq_some_iff.mp retargeted with ⟨method, _, rfl⟩
  rfl

namespace FacadeRegistry

variable {type : TypeRef} {facade : Facade}

/-- What stands in for a type was registered, and stands in for that type. -/
theorem mem_of_forReplaced?_shipped (found : shipped.forReplaced? type = some facade) :
    facade ∈ Facade.shipped ∧ type.definitionName = facade.replaces.definitionName := by
  have held : (holding Facade.shipped).forReplaced? type = some facade := found
  rcases mem_of_forReplaced?_holding held with ⟨facadeMem, named⟩
  exact ⟨List.mem_of_mem_filter facadeMem, named.symm⟩

/-- No facade stands in for the type of a facade. -/
theorem forReplaced?_shipped_type (facadeMem : facade ∈ Facade.shipped) :
    shipped.forReplaced? facade.type.reference = none := by
  have each : ∀ facade ∈ Facade.shipped, (shipped.forReplaced? facade.type.reference).isNone = true := by
    simp only [Facade.shipped, List.forall_mem_cons]
    decide +kernel
  exact Option.isNone_iff_eq_none.mp (each facade facadeMem)

end FacadeRegistry

namespace Redirections

variable {context : RuleContext} {instruction image : Instruction} {reference method : MethodRef}
variable {loads : List Instruction} {confidence : Confidence}

theorem facadeMethod_eq_some_iff :
    facadeMethod context reference = some method ↔
      ∃ facade offered, context.facades.forReplaced? reference.declaringType = some facade ∧
        facade.replaces.isDenotedBy reference.declaringType = true ∧ facade.retarget? reference = some offered ∧
        method = { offered with genericArguments := reference.genericArguments } := by
  simp only [facadeMethod, Option.bind_eq_bind, Option.bind_eq_some_iff]
  refine exists_congr fun facade => ?_
  cases denoted : facade.replaces.isDenotedBy reference.declaringType with
  | false => simp [failure]
  | true =>
      simp only [Bool.not_true, Bool.false_eq_true, if_false, Option.bind_eq_some_iff, pure, Option.some.injEq]
      grind

/-- Without maps, what a facade offers is all that is redirected to, and nothing is found broken. -/
theorem judge_empty_eq_some_iff {verdict : Verdict} :
    empty.judge context instruction = some verdict ↔
      ∃ reference method, instruction.operand = .method reference ∧ instruction.opcode.operandKind = .method ∧
        facadeMethod context reference = some method ∧
        verdict = .rewritten [] (.unplaced instruction.opcode (.method method)) .exact := by
  rcases instruction with ⟨offset, opcode, operand⟩
  cases operand with
  | method reference =>
      have offered : empty.redirectMethod context reference = (facadeMethod context reference).map (·, .exact) := by
        have unmapped : reference.redirectTypes .empty = none := by
          simp [MethodRef.redirectTypes]
        simp [redirectMethod, mappedMethod, empty, unmapped]
      cases found : facadeMethod context reference with
      | none => simp [judge, replacement, offered, found]
      | some method =>
          have made : (Instruction.checked opcode (.method method)).toOption =
              if opcode.operandKind = .method then some (.unplaced opcode (.method method)) else none := by
            simp only [Instruction.checked, Operand.fits_method_iff]
            split <;> rfl
          by_cases kind : opcode.operandKind = .method
          · simp [judge, replacement, offered, found, made, kind, @eq_comm _ verdict]
          · simp [judge, replacement, offered, found, made, kind]
  | field reference =>
      have unmapped : reference.redirectTypes .empty = none := by
        simp [FieldRef.redirectTypes]
      simp [judge, replacement, property?, redirectField, mappedField, empty, unmapped]
  | type reference => simp [judge, replacement, empty]
  | symbol reference =>
      have unmapped : empty.redirectSymbol context reference = none := by
        cases reference <;>
          simp [redirectSymbol, redirectField, mappedMethod, mappedField, empty, MethodRef.redirectTypes,
            FieldRef.redirectTypes]
      simp [judge, replacement, unmapped]
  | _ => simp [judge, replacement]

end Redirections

/-- Whether what the stock rules put in is nothing to any of them, as far as the table of live types tells. -/
structure HostTable.Settles (host : HostTable) : Prop where
  /-- The type of a facade is not taken for a live type. -/
  foreign : ∀ facade ∈ Facade.shipped, host.find? facade.type.reference = none
  /-- A method that calls may have to be completed to is not one that a facade offers. -/
  current : ∀ facade ∈ Facade.shipped, ∀ definition ∈ host.find? facade.replaces.reference,
    ∀ method ∈ definition.constructors ++ definition.methods, method.requiredCount < method.parameters.length →
      facade.retarget? (method.reference facade.replaces) = none
  /-- The references for the parameters of such a method denote them. -/
  denoted : ∀ entry ∈ host.definitions.entries, ∀ method ∈ entry.2.constructors ++ entry.2.methods,
    method.requiredCount < method.parameters.length →
      ∀ parameter ∈ method.parameters, parameter.type.isDenotedBy parameter.type.reference = true

instance (host : HostTable) : Decidable host.Settles :=
  decidable_of_iff (_ ∧ _ ∧ _)
    ⟨fun ⟨foreign, current, denoted⟩ => ⟨foreign, current, denoted⟩,
      fun settles => ⟨settles.foreign, settles.current, settles.denoted⟩⟩

example : Game.table.Settles := by decide +kernel

namespace Completion

variable {definition : HostDefinition} {method : HostMethod} {reference : MethodRef}

theorem extends_of_find? (found : (definition.callables reference.name).find? (extendsCall · reference) = some method) :
    method ∈ definition.constructors ++ definition.methods ∧ method.name = reference.name ∧
      method.requiredCount < method.parameters.length := by
  have extending := List.find?_some found
  simp only [extendsCall, Bool.and_eq_true, decide_eq_true_eq] at extending
  refine ⟨?_, extending.1.1.1, by omega⟩
  have listed := List.mem_of_find?_eq_some found
  unfold HostDefinition.callables at listed
  split at listed
  · exact List.mem_append_left _ listed
  · exact List.mem_append_right _ listed

theorem areDenotedBy_map_reference {types : List HostType}
    (denoted : ∀ type ∈ types, type.isDenotedBy type.reference = true) :
    HostType.areDenotedBy types (types.map HostType.reference) = true := by
  induction types with
  | nil => rfl
  | cons type types ih =>
      rw [List.forall_mem_cons] at denoted
      simp [HostType.areDenotedBy, denoted.1, ih denoted.2]

theorem declares_completed
    (found : (definition.callables reference.name).find? (extendsCall · reference) = some method)
    (denoted : ∀ parameter ∈ method.parameters, parameter.type.isDenotedBy parameter.type.reference = true) :
    definition.declares (completed definition method reference) = true := by
  have sameName : (completed definition method reference).name = reference.name := (extends_of_find? found).2.1
  rw [HostDefinition.declares, sameName, List.any_eq_true]
  refine ⟨method, List.mem_of_find?_eq_some found, ?_⟩
  have parameters : (completed definition method reference).parameters =
      (method.parameters.map HostParameter.type).map HostType.reference := by
    simp [completed, HostMethod.reference]
  simp only [HostMethod.hasSignature, parameters, Bool.and_eq_true, decide_eq_true_eq]
  refine ⟨rfl, areDenotedBy_map_reference ?_⟩
  simpa using denoted

end Completion

namespace Rule

/-- What the stock rules put in place of an instruction: a literal, what a facade offers, or a completed call. -/
inductive Substitute (context : RuleContext) : Operand → Prop where
  | literal {operand : Operand} (literal : operand.IsLiteral) : Substitute context operand
  | offered {reference method : MethodRef} (offered : Redirections.facadeMethod context reference = some method) :
      Substitute context (.method method)
  | completed {reference : MethodRef} {definition : HostDefinition} {method : HostMethod}
      (live : context.host.find? reference.declaringType = some definition)
      (extending : (definition.callables reference.name).find? (Completion.extendsCall · reference) = some method) :
      Substitute context (.method (Completion.completed definition method reference))

variable {rule : Rule} {context : RuleContext} {instruction replacement : Instruction} {reference : MethodRef}
variable {loads : List Instruction} {confidence : Confidence}

theorem substitute_of_stock (ruleMem : rule ∈ stock)
    (decided : rule.judge context instruction = some (.rewritten loads replacement confidence)) :
    Substitute context replacement.operand := by
  simp only [stock, List.mem_cons, List.not_mem_nil, or_false] at ruleMem
  rcases ruleMem with rfl | rfl | rfl | rfl
  · rcases Redirections.judge_empty_eq_some_iff.mp decided with ⟨reference, method, _, _, offered, same⟩
    cases same
    exact .offered offered
  · cases rewrites_of_judge decided with
    | inlines literals load literal => exact .literal literal
  · rcases Completion.judge_eq_some_iff.mp decided with ⟨reference, definition, method, _, live, _, extending, made⟩
    unfold Completion.complete at made
    split at made
    · cases made
    · cases made
      exact .completed live extending
  · cases rewrites_of_judge decided

/-- Whether a facade offers something in place of a method, or its type is live and does not declare the method. -/
def Claimed (context : RuleContext) (reference : MethodRef) : Prop :=
  (∃ method, Redirections.facadeMethod context reference = some method) ∨
    ∃ definition, context.host.find? reference.declaringType = some definition ∧ definition.declares reference = false

theorem claimed_of_stock (ruleMem : rule ∈ stock) (names : instruction.operand = .method reference)
    (decided : rule.judge context instruction = some (.rewritten loads replacement confidence)) :
    Claimed context reference := by
  simp only [stock, List.mem_cons, List.not_mem_nil, or_false] at ruleMem
  rcases ruleMem with rfl | rfl | rfl | rfl
  · rcases Redirections.judge_empty_eq_some_iff.mp decided with ⟨other, method, same, _, offered, _⟩
    rw [names, Operand.method.injEq] at same
    subst same
    exact .inl ⟨method, offered⟩
  · simp [judge, Literals.judge, names] at decided
  · rcases Completion.judge_eq_some_iff.mp decided with ⟨other, definition, method, invoked, live, undeclared, _⟩
    have same := (Instruction.invokedMethod?_eq_some invoked).1
    rw [names, Operand.method.injEq] at same
    subst same
    exact .inr ⟨definition, live, undeclared⟩
  · cases rewrites_of_judge decided

/-- What a facade offers belongs to the facade's own type, which is neither replaced nor live. -/
theorem not_claimed_of_offered {method : MethodRef} (settles : context.host.Settles)
    (shipped : context.facades = .shipped) (offered : Redirections.facadeMethod context reference = some method) :
    ¬ Claimed context method := by
  rcases Redirections.facadeMethod_eq_some_iff.mp offered with ⟨facade, other, found, _, retargeted, rfl⟩
  rw [shipped] at found
  have facadeMem := (FacadeRegistry.mem_of_forReplaced?_shipped found).1
  have ofFacade := Facade.declaringType_of_retarget? retargeted
  rintro (⟨_, again⟩ | ⟨definition, live, _⟩)
  · rcases Redirections.facadeMethod_eq_some_iff.mp again with ⟨_, _, replaced, _⟩
    rw [shipped, ofFacade, FacadeRegistry.forReplaced?_shipped_type facadeMem] at replaced
    cases replaced
  · rw [ofFacade, settles.foreign facade facadeMem] at live
    cases live

/-- A completed call is to a current method, under the type that the call was to before. -/
theorem not_claimed_of_completed {definition : HostDefinition} {method : HostMethod}
    (settles : context.host.Settles) (shipped : context.facades = .shipped)
    (live : context.host.find? reference.declaringType = some definition)
    (extending : (definition.callables reference.name).find? (Completion.extendsCall · reference) = some method) :
    ¬ Claimed context (Completion.completed definition method reference) := by
  rcases Completion.extends_of_find? extending with ⟨methodMem, _, optional⟩
  rintro (⟨_, again⟩ | ⟨other, liveToo, undeclared⟩)
  · rcases Redirections.facadeMethod_eq_some_iff.mp again with ⟨facade, offered, found, _, retargeted, _⟩
    rw [shipped] at found
    rcases FacadeRegistry.mem_of_forReplaced?_shipped found with ⟨facadeMem, named⟩
    have replaced : context.host.find? facade.replaces.reference = some definition := by
      rw [← live]
      exact congrArg (·.bind context.host.findByName?) named.symm
    have unoffered := settles.current facade facadeMem definition replaced method methodMem optional
    have sameOffer : facade.retarget? (Completion.completed definition method reference) =
        facade.retarget? (method.reference facade.replaces) := rfl
    rw [sameOffer, unoffered] at retargeted
    cases retargeted
  · have sameType : context.host.find? reference.declaringType = some other := liveToo
    rw [live, Option.some.injEq] at sameType
    subst sameType
    rcases Option.bind_eq_some_iff.mp live with ⟨name, _, held⟩
    have denoted := settles.denoted _ (Dictionary.mem_of_find?_eq_some held) method methodMem optional
    rw [Completion.declares_completed extending denoted] at undeclared
    cases undeclared

/-- Where the host settles, the stock rules do not rewrite what they put in. -/
theorem judge_substitute_of_settles (settles : context.host.Settles) (shipped : context.facades = .shipped)
    (substitute : Substitute context instruction.operand) (ruleMem : rule ∈ stock) :
    rule.judge context instruction ≠ some (.rewritten loads replacement confidence) := by
  intro decided
  generalize same : instruction.operand = operand at substitute
  cases substitute with
  | literal literal =>
      subst same
      rw [judge_of_isLiteral rule context literal] at decided
      cases decided
  | offered offered => exact not_claimed_of_offered settles shipped offered (claimed_of_stock ruleMem same decided)
  | completed live extending =>
      exact not_claimed_of_completed settles shipped live extending (claimed_of_stock ruleMem same decided)

end Rule

end CilRelink
