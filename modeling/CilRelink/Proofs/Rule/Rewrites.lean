import CilRelink.Proofs.Fallible
import CilRelink.Rule

/-!
# What rules put into the code

A rule that rewrites an instruction puts a load of a literal, a reference or a completed call in its place, and
nothing but loads of literals in front of it. None of these names a position. What is rewritten is a reference that
fits its opcode, so branches never are. Later facts about rewriting rest on this description of what the rules decide
and look into no rule again.
-/

namespace CilRelink

namespace Operand

/-- Whether the operand is what a load of a literal can have: it stands for itself. -/
def IsLiteral : Operand → Prop
  | .none | .immediate _ | .string _ => True
  | _ => False

/-- Whether the operand is a reference to a type or a member. -/
def IsReference : Operand → Prop
  | .type _ | .field _ | .method _ | .symbol _ => True
  | _ => False

theorem IsLiteral.positions_eq_nil {operand : Operand} (literal : operand.IsLiteral) : operand.positions = [] := by
  cases operand <;> first | rfl | cases literal

theorem IsReference.positions_eq_nil {operand : Operand} (reference : operand.IsReference) :
    operand.positions = [] := by
  cases operand <;> first | rfl | cases reference

theorem mapPositions_eq_self {operand : Operand} (nowhere : operand.positions = []) (move : Nat → Nat) :
    operand.mapPositions move = operand := by
  cases operand with
  | target position => cases nowhere
  | targets positions =>
      have empty : positions = [] := nowhere
      subst empty
      rfl
  | _ => rfl

theorem mapPositions_mapPositions (operand : Operand) (first second : Nat → Nat) :
    (operand.mapPositions first).mapPositions second = operand.mapPositions (second ∘ first) := by
  cases operand with
  | targets positions => simp [mapPositions]
  | _ => rfl

@[simp]
theorem fits_type_iff {kind : OperandKind} {type : TypeRef} : (Operand.type type).fits kind = true ↔ kind = .type := by
  cases kind <;> simp [fits]

@[simp]
theorem fits_field_iff {kind : OperandKind} {field : FieldRef} :
    (Operand.field field).fits kind = true ↔ kind = .field := by
  cases kind <;> simp [fits]

@[simp]
theorem fits_method_iff {kind : OperandKind} {method : MethodRef} :
    (Operand.method method).fits kind = true ↔ kind = .method := by
  cases kind <;> simp [fits]

@[simp]
theorem fits_symbol_iff {kind : OperandKind} {symbol : Symbol} :
    (Operand.symbol symbol).fits kind = true ↔ kind = .symbol := by
  cases kind <;> simp [fits]

end Operand

namespace Instruction

theorem mapPositions_eq_self {instruction : Instruction} (nowhere : instruction.jumpPositions = [])
    (move : Nat → Nat) : instruction.mapPositions move = instruction := by
  have sameOperand := Operand.mapPositions_eq_self nowhere move
  simp only [mapPositions, sameOperand]

theorem mapPositions_mapPositions (instruction : Instruction) (first second : Nat → Nat) :
    (instruction.mapPositions first).mapPositions second = instruction.mapPositions (second ∘ first) := by
  simp only [mapPositions, Operand.mapPositions_mapPositions]

theorem isLiteral_ite {condition : Prop} [Decidable condition] {first second : Instruction}
    (firstLiteral : first.operand.IsLiteral) (secondLiteral : second.operand.IsLiteral) :
    (if condition then first else second).operand.IsLiteral := by
  split
  · exact firstLiteral
  · exact secondLiteral

theorem isLiteral_loadInt32 (value : Int32) : (loadInt32 value).operand.IsLiteral := by
  unfold loadInt32
  -- ten values have a load of their own
  iterate 10
    apply isLiteral_ite
    · trivial
  apply isLiteral_ite
  · trivial
  · trivial

theorem invokedMethod?_eq_some {instruction : Instruction} {method : MethodRef}
    (invoked : instruction.invokedMethod? = some method) :
    instruction.operand = .method method ∧ instruction.opcode.operandKind = .method := by
  rcases instruction with ⟨offset, opcode, operand⟩
  simp only [invokedMethod?] at invoked
  split at invoked
  all_goals
    cases invoked
    try exact ⟨rfl, rfl⟩

theorem accessedField?_eq_some {instruction : Instruction} {field : FieldRef}
    (accessed : instruction.accessedField? = some field) :
    instruction.operand = .field field ∧ instruction.opcode.operandKind = .field := by
  rcases instruction with ⟨offset, opcode, operand⟩
  simp only [accessedField?] at accessed
  split at accessed
  all_goals
    cases accessed
    try exact ⟨rfl, rfl⟩

end Instruction

theorem HostValue.isLiteral_of_load? {value : HostValue} {load : Instruction} (loaded : value.load? = some load) :
    load.operand.IsLiteral := by
  cases value with
  | boolean value => cases value <;> cases loaded <;> trivial
  | int32 value =>
      cases loaded
      exact Instruction.isLiteral_loadInt32 value
  | null | int64 | float32 | float64 | string =>
      cases loaded
      trivial
  | _ => cases loaded

/-- The rewrites that rules can decide on: loads of literals, with what takes the place of the instruction behind
them. -/
inductive Rule.Rewrites (instruction : Instruction) : Rule → List Instruction → Instruction → Prop where
  | redirects (redirections : Redirections) (replacement : Instruction)
      (reference : replacement.operand.IsReference) :
      Rewrites instruction (.redirect redirections) [] replacement
  | inlines (literals : Literals) (load : Instruction) (literal : load.operand.IsLiteral) :
      Rewrites instruction (.inlineLiterals literals) [] load
  | completes (loads : List Instruction) (method : MethodRef)
      (literals : ∀ load ∈ loads, load.operand.IsLiteral) :
      Rewrites instruction .completeCalls loads (.unplaced instruction.opcode (.method method))

namespace Rule.Rewrites

variable {instruction replacement : Instruction} {rule : Rule} {loads : List Instruction}

theorem loads_literal (rewrites : rule.Rewrites instruction loads replacement) :
    ∀ load ∈ loads, load.operand.IsLiteral := by
  cases rewrites with
  | redirects => simp
  | inlines => simp
  | completes loads method literals => exact literals

theorem loads_nowhere (rewrites : rule.Rewrites instruction loads replacement) :
    ∀ load ∈ loads, load.jumpPositions = [] := by
  intro load loadMem
  exact (rewrites.loads_literal load loadMem).positions_eq_nil

theorem replacement_nowhere (rewrites : rule.Rewrites instruction loads replacement) :
    replacement.jumpPositions = [] := by
  cases rewrites with
  | redirects redirections replacement reference => exact reference.positions_eq_nil
  | inlines literals load literal => exact literal.positions_eq_nil
  | completes loads method literals => rfl

end Rule.Rewrites

namespace Redirections

theorem isReference_of_accessorCall {instruction call : Instruction} {reference : FieldRef}
    {getter setter : Option MethodRef} (made : accessorCall instruction reference getter setter = .ok call) :
    call.operand.IsReference := by
  simp only [accessorCall] at made
  split at made
  · cases made
  · split at made
    all_goals
      split at made
      · cases made
        trivial
      · cases made

theorem checked_eq_some {opcode : Opcode} {operand : Operand} {image : Instruction} {confidence weight : Confidence}
    (made : (Instruction.checked opcode operand).toOption.map (·, confidence) = some (image, weight)) :
    operand.fits opcode.operandKind = true ∧ image = .unplaced opcode operand ∧ confidence = weight := by
  unfold Instruction.checked at made
  split at made
  · cases made
    exact ⟨‹_›, rfl, rfl⟩
  · cases made

theorem isReference_of_checked {opcode : Opcode} {operand : Operand} {image : Instruction}
    {confidence weight : Confidence}
    (made : (Instruction.checked opcode operand).toOption.map (·, confidence) = some (image, weight))
    (reference : operand.IsReference) : image.operand.IsReference := by
  rw [(checked_eq_some made).2.1]
  exact reference

theorem isReference_of_replacement {redirections : Redirections} {context : RuleContext}
    {instruction image : Instruction} {confidence : Confidence}
    (decided : redirections.replacement context instruction = .ok (some (image, confidence))) :
    image.operand.IsReference := by
  unfold replacement at decided
  split at decided
  · simp only [Except.ok.injEq, Option.bind_eq_some_iff, Prod.exists] at decided
    rcases decided with ⟨method, weight, _, made⟩
    exact isReference_of_checked made trivial
  · split at decided
    · rcases Fallible.map_eq_ok_iff.mp decided with ⟨call, made, same⟩
      cases same
      exact isReference_of_accessorCall made
    · simp only [Except.ok.injEq, Option.bind_eq_some_iff, Prod.exists] at decided
      rcases decided with ⟨field, weight, _, made⟩
      exact isReference_of_checked made trivial
  · simp only [Except.ok.injEq, Option.bind_eq_some_iff] at decided
    rcases decided with ⟨type, _, made⟩
    exact isReference_of_checked made trivial
  · simp only [Except.ok.injEq, Option.bind_eq_some_iff, Prod.exists] at decided
    rcases decided with ⟨symbol, weight, _, made⟩
    exact isReference_of_checked made trivial
  · cases decided

theorem isWellFormed_of_accessorCall {instruction call : Instruction} {reference : FieldRef}
    {getter setter : Option MethodRef} (made : accessorCall instruction reference getter setter = .ok call) :
    instruction.isWellFormed = true := by
  simp only [accessorCall] at made
  split at made
  · cases made
  · rename_i accessed
    rw [Bool.not_eq_true, Option.isNone_eq_false_iff, Option.isSome_iff_exists] at accessed
    rcases accessed with ⟨field, accessed⟩
    rcases Instruction.accessedField?_eq_some accessed with ⟨names, kind⟩
    simp [Instruction.isWellFormed, names, kind]

theorem isWellFormed_of_replacement {redirections : Redirections} {context : RuleContext}
    {instruction image : Instruction} {confidence : Confidence}
    (decided : redirections.replacement context instruction = .ok (some (image, confidence))) :
    instruction.isWellFormed = true := by
  rcases instruction with ⟨offset, opcode, operand⟩
  cases operand with
  | method reference =>
      simp only [replacement, Except.ok.injEq, Option.bind_eq_some_iff, Prod.exists] at decided
      rcases decided with ⟨method, weight, _, made⟩
      simpa [Instruction.isWellFormed] using (checked_eq_some made).1
  | field reference =>
      simp only [replacement] at decided
      split at decided
      · rcases Fallible.map_eq_ok_iff.mp decided with ⟨call, made, _⟩
        exact isWellFormed_of_accessorCall made
      · simp only [Except.ok.injEq, Option.bind_eq_some_iff, Prod.exists] at decided
        rcases decided with ⟨field, weight, _, made⟩
        simpa [Instruction.isWellFormed] using (checked_eq_some made).1
  | type reference =>
      simp only [replacement, Except.ok.injEq, Option.bind_eq_some_iff] at decided
      rcases decided with ⟨type, _, made⟩
      simpa [Instruction.isWellFormed] using (checked_eq_some made).1
  | symbol reference =>
      simp only [replacement, Except.ok.injEq, Option.bind_eq_some_iff, Prod.exists] at decided
      rcases decided with ⟨symbol, weight, _, made⟩
      simpa [Instruction.isWellFormed] using (checked_eq_some made).1
  | _ => cases decided

end Redirections

namespace Completion

theorem isLiteral_of_loads {parameters : List HostParameter} {result : List Instruction}
    (loaded : loads parameters = .ok result) : ∀ load ∈ result, load.operand.IsLiteral := by
  induction parameters generalizing result with
  | nil =>
      cases loaded
      simp
  | cons parameter parameters ih =>
      rw [loads] at loaded
      cases first : parameter.default.bind HostValue.load? with
      | none => simp [first] at loaded
      | some load =>
          rcases Option.bind_eq_some_iff.mp first with ⟨value, _, loadOfValue⟩
          simp only [first] at loaded
          rcases Fallible.map_eq_ok_iff.mp loaded with ⟨others, rest, rfl⟩
          intro other otherMem
          rcases List.mem_cons.mp otherMem with rfl | otherMem
          · exact HostValue.isLiteral_of_load? loadOfValue
          · exact ih rest other otherMem

/-- A call is completed if its type is in the table without declaring what is called, and declares a method that
extends the call. -/
theorem judge_eq_some_iff {context : RuleContext} {instruction : Instruction} {verdict : Verdict} :
    judge context instruction = some verdict ↔
      ∃ reference definition method, instruction.invokedMethod? = some reference ∧
        context.host.find? reference.declaringType = some definition ∧ definition.declares reference = false ∧
        (definition.callables reference.name).find? (extendsCall · reference) = some method ∧
        complete instruction.opcode definition method reference = verdict := by
  simp only [judge, Option.bind_eq_bind, Option.bind_eq_some_iff]
  constructor
  · rintro ⟨reference, invoked, definition, found, decided⟩
    cases declared : definition.declares reference with
    | true => simp [declared, failure] at decided
    | false =>
        simp only [declared, Bool.false_eq_true, if_false, Option.bind_eq_some_iff] at decided
        rcases decided with ⟨method, extending, made⟩
        exact ⟨reference, definition, method, invoked, found, declared, extending, Option.some.inj made⟩
  · rintro ⟨reference, definition, method, invoked, found, declared, extending, rfl⟩
    refine ⟨reference, invoked, definition, found, ?_⟩
    simp only [declared, Bool.false_eq_true, if_false, extending, Option.bind_some]
    rfl

end Completion

namespace Breakage

theorem ofOperand_of_isLiteral {operand : Operand} (literal : operand.IsLiteral) (host : HostTable) :
    ofOperand host operand = none := by
  cases operand <;> first | rfl | cases literal

end Breakage

namespace Rule

/-- Rules rewrite in no other way than `Rewrites` tells, and the rule that reports breakage never does. -/
theorem rewrites_of_judge {rule : Rule} {context : RuleContext} {instruction replacement : Instruction}
    {loads : List Instruction} {confidence : Confidence}
    (decided : rule.judge context instruction = some (.rewritten loads replacement confidence)) :
    rule.Rewrites instruction loads replacement := by
  cases rule with
  | redirect redirections =>
      simp only [judge, Redirections.judge] at decided
      split at decided
      · cases decided
      · rename_i image found
        rcases Option.map_eq_some_iff.mp decided with ⟨⟨new, weight⟩, rfl, made⟩
        cases made
        exact .redirects redirections new (Redirections.isReference_of_replacement found)
  | inlineLiterals literals =>
      simp only [judge, Literals.judge] at decided
      split at decided
      · split at decided
        · cases decided
        · rcases Option.map_eq_some_iff.mp decided with ⟨value, _, made⟩
          split at made
          · cases made
          · split at made
            · cases made
            · rename_i loaded
              cases made
              exact .inlines literals _ (HostValue.isLiteral_of_load? loaded)
      · cases decided
  | completeCalls =>
      rcases Completion.judge_eq_some_iff.mp decided with ⟨reference, definition, method, _, _, _, _, made⟩
      unfold Completion.complete at made
      split at made
      · cases made
      · rename_i loaded
        cases made
        exact .completes _ _ (Completion.isLiteral_of_loads loaded)
  | reportBreakage =>
      simp only [judge, Breakage.judge] at decided
      rcases Option.map_eq_some_iff.mp decided with ⟨breakage, _, made⟩
      cases made

/-- No rule rewrites an instruction whose operand does not fit it, or is not a reference. -/
theorem isWellFormed_of_judge {rule : Rule} {context : RuleContext} {instruction replacement : Instruction}
    {loads : List Instruction} {confidence : Confidence}
    (decided : rule.judge context instruction = some (.rewritten loads replacement confidence)) :
    instruction.isWellFormed = true ∧ instruction.operand.IsReference := by
  cases rule with
  | redirect redirections =>
      simp only [judge, Redirections.judge] at decided
      split at decided
      · cases decided
      · rename_i image found
        rcases Option.map_eq_some_iff.mp decided with ⟨⟨new, weight⟩, rfl, made⟩
        refine ⟨Redirections.isWellFormed_of_replacement found, ?_⟩
        rcases instruction with ⟨offset, opcode, operand⟩
        cases operand <;> first | trivial | cases found
  | inlineLiterals literals =>
      simp only [judge, Literals.judge] at decided
      split at decided
      · rename_i field names
        split at decided
        · cases decided
        · rcases Option.map_eq_some_iff.mp decided with ⟨value, _, made⟩
          split at made
          · cases made
          · rename_i accessed
            simp only [Bool.or_eq_true, not_or, Bool.not_eq_true, Option.isNone_eq_false_iff,
              Option.isSome_iff_exists] at accessed
            rcases accessed with ⟨⟨other, accessed⟩, _⟩
            rcases Instruction.accessedField?_eq_some accessed with ⟨names, kind⟩
            rw [Instruction.isWellFormed, names, Operand.fits_field_iff]
            exact ⟨kind, trivial⟩
      · cases decided
  | completeCalls =>
      rcases Completion.judge_eq_some_iff.mp decided with ⟨reference, _, _, invoked, _⟩
      rcases Instruction.invokedMethod?_eq_some invoked with ⟨names, kind⟩
      rw [Instruction.isWellFormed, names, Operand.fits_method_iff]
      exact ⟨kind, trivial⟩
  | reportBreakage => cases rewrites_of_judge decided

/-- A literal is nothing to any rule. -/
theorem judge_of_isLiteral (rule : Rule) (context : RuleContext) {instruction : Instruction}
    (literal : instruction.operand.IsLiteral) : rule.judge context instruction = none := by
  cases rule with
  | redirect redirections =>
      rcases instruction with ⟨offset, opcode, operand⟩
      cases operand <;> first | rfl | cases literal
  | inlineLiterals literals =>
      rcases instruction with ⟨offset, opcode, operand⟩
      cases operand <;> first | rfl | cases literal
  | completeCalls =>
      cases invoked : instruction.invokedMethod? with
      | none => simp [judge, Completion.judge, invoked]
      | some method =>
          rw [(Instruction.invokedMethod?_eq_some invoked).1] at literal
          cases literal
  | reportBreakage => simp [judge, Breakage.judge, Breakage.ofOperand_of_isLiteral literal]

end Rule

end CilRelink
