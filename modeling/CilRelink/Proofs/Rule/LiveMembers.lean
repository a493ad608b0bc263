import CilRelink.Proofs.Host.Binding
import CilRelink.Proofs.Rule.Breakage

/-!
# Live members and the references to them

A reference that is not reported has a live member to bind to, as long as the table has all bases of its types: one of
the name, the parameter types and the type that the reference expects. Whether it is static is not looked at, on neither
side. The other way round, the reference that compiled code would use for a live method is not always left alone. Of the
methods with its name and parameter types the first is taken, and the reference is reported if that one returns
something else.
-/

namespace CilRelink

/-- Whether the table has the base of each of its types, if the base is a type of the host. -/
def HostTable.HasBases (table : HostTable) : Prop := ∀ definition ∈ table.known, table.lacksBase definition = false

instance (table : HostTable) : Decidable table.HasBases :=
  inferInstanceAs (Decidable (∀ definition ∈ table.known, _))

/-- Whether a method is what a reference expects, be it static or not. -/
structure HostMethod.Answers (method : HostMethod) (reference : MethodRef) : Prop where
  name : method.name = reference.name
  parameters : HostType.areDenotedBy (method.parameters.map HostParameter.type) reference.parameters = true
  returnType : method.returnType.isDenotedBy reference.returnType = true

/-- Whether a field is what a reference expects, be it static or not. -/
structure HostField.Answers (field : HostField) (reference : FieldRef) : Prop where
  name : field.name = reference.name
  fieldType : field.fieldType.isDenotedBy reference.fieldType = true

/-- The operand with a method taken to be called on an instance or not. -/
def Operand.calledOn (hasThis : Bool) : Operand → Operand
  | .method reference => .method { reference with hasThis }
  | .symbol (.method reference) => .symbol (.method { reference with hasThis })
  | other => other

namespace Sought

variable {sought : Sought} {host : HostTable} {definition : HostDefinition} {type : NamedType} {live : HostType}

/-- What is sought and not broken is declared by a type that may declare it, and is of the type expected. -/
theorem exists_declared (acyclic : host.Acyclic) (complete : host.HasBases)
    (typeMem : sought.declaringType ∈ sought.types) (named : sought.declaringType = .named type)
    (owned : host.owns sought.declaringType = true) (sound : ¬ sought.Broken host) :
    ∃ definition count candidate live, host.find? sought.declaringType = some definition ∧
      sought.candidate? host definition count = some candidate ∧ sought.declared? candidate = some live ∧
        live.isDenotedBy sought.memberType = true := by
  have known : ∃ definition, host.find? sought.declaringType = some definition := by
    refine Option.ne_none_iff_exists'.mp fun unknown => sound ?_
    rw [named] at typeMem owned unknown
    exact .lost typeMem .self owned unknown
  rcases known with ⟨definition, found⟩
  have held := HostTable.mem_known_of_find? found
  cases search : (sought.ancestry host definition).known.findSome? sought.declared? with
  | some live =>
      rw [findSome?_eq_some_iff_getElem?] at search
      simp only [getElem?_ancestry acyclic held] at search
      rcases search with ⟨count, candidate, reached, declared, first⟩
      refine ⟨definition, count, candidate, live, found, reached, declared, ?_⟩
      by_contra differs
      exact sound (.changed owned found reached declared first (Bool.eq_false_of_not_eq_true differs))
  | none =>
      rw [List.findSome?_eq_none_iff] at search
      have nowhere (count : Nat) (candidate : HostDefinition)
          (reached : sought.candidate? host definition count = some candidate) :
          sought.declared? candidate = none := by
        rw [← getElem?_ancestry acyclic held] at reached
        exact search candidate (List.mem_of_getElem? reached)
      -- with all bases in the table, the search does not end in the unknown
      have ended : (host.ancestry definition).continues = false := by
        refine Bool.eq_false_of_not_eq_true fun continues => ?_
        rcases (acyclic.continues_ancestry_iff held).mp continues with ⟨count, last, reached, lacks⟩
        rw [complete last (HostTable.mem_known_of_ancestor? held reached)] at lacks
        cases lacks
      exact absurd (.undeclared owned found nowhere fun _ => (acyclic.not_continues_ancestry_iff held).mp ended) sound

theorem ancestry_eq_cons (sought : Sought) (host : HostTable) (definition : HostDefinition) :
    ∃ rest, (sought.ancestry host definition).known = definition :: rest := by
  unfold ancestry
  cases sought.isInherited with
  | false => exact ⟨[], rfl⟩
  | true => exact host.exists_known_ancestryWithin host.size definition

/-- A member that the type declares itself is not looked for in its bases. -/
theorem breakage_of_declared {missing : Breakage} {changed : HostType → Breakage}
    (there : Breakage.ofTypes host sought.types = none) (owned : host.owns sought.declaringType = true)
    (found : host.find? sought.declaringType = some definition) (declared : sought.declared? definition = some live) :
    sought.breakage host missing changed =
      if live.isDenotedBy sought.memberType then none else some (changed live) := by
  rcases ancestry_eq_cons sought host definition with ⟨rest, first⟩
  simp only [breakage, Breakage.ofAncestry, there, owned, found, first, List.findSome?_cons, declared, Bool.not_true,
    Bool.false_eq_true, if_false]

end Sought

namespace Breakage

section Binding

variable {host : HostTable} {instruction : Instruction}

theorem exists_method_of_declared? {reference : MethodRef} {candidate : HostDefinition} {live : HostType}
    (declared : reference.sought.declared? candidate = some live)
    (denoted : live.isDenotedBy reference.returnType = true) :
    ∃ method ∈ candidate.callables reference.name, method.Answers reference := by
  rcases Option.map_eq_some_iff.mp declared with ⟨method, found, rfl⟩
  have signature := List.find?_some found
  rw [HostMethod.hasSignature, Bool.and_eq_true, decide_eq_true_eq] at signature
  exact ⟨method, List.mem_of_find?_eq_some found, signature.1, signature.2, denoted⟩

theorem exists_field_of_declared? {reference : FieldRef} {candidate : HostDefinition} {live : HostType}
    (declared : reference.sought.declared? candidate = some live)
    (denoted : live.isDenotedBy reference.fieldType = true) : ∃ field ∈ candidate.fields, field.Answers reference := by
  rcases Option.map_eq_some_iff.mp declared with ⟨field, found, rfl⟩
  exact ⟨field, List.mem_of_find?_eq_some found, by simpa using List.find?_some found, denoted⟩

theorem ofOperand_calledOn (acyclic : host.Acyclic) (hasThis : Bool) {operand : Operand}
    (sound : ofOperand host operand = none) : ofOperand host (operand.calledOn hasThis) = none := by
  unfold Operand.calledOn
  split
  · exact (ofOperand_eq_none_iff acyclic rfl).mpr ((ofOperand_eq_none_iff acyclic rfl).mp sound)
  · exact (ofOperand_eq_none_iff acyclic rfl).mpr ((ofOperand_eq_none_iff acyclic rfl).mp sound)
  · exact sound

/-- If the table has all bases of its types, a reference to a member of a named type of the host that is not reported
has a live member to bind to, declared by the type or, constructors apart, by one on its way up. It would not be
reported if it were taken for static, or not for static, nor as the operand of any other instruction. -/
theorem unreported_binds (context : RuleContext) (acyclic : context.host.Acyclic) (complete : context.host.HasBases)
    (body : Body) (place : Nat) (stands : body.instructions[place]? = some instruction)
    (unreported : Rule.reportBreakage.apply context body place = .ok (none, body)) :
    (∀ (reference : MethodRef) (type : NamedType), instruction.operand = .method reference →
      reference.declaringType = .named type → context.host.owns reference.declaringType = true →
      ∃ definition count candidate, context.host.find? reference.declaringType = some definition ∧
        context.host.ancestor? definition count = some candidate ∧ (reference.isConstructor = true → count = 0) ∧
          ∃ live ∈ candidate.callables reference.name, live.Answers reference) ∧
    (∀ (reference : FieldRef) (type : NamedType), instruction.operand = .field reference →
      reference.declaringType = .named type → context.host.owns reference.declaringType = true →
      ∃ definition count candidate, context.host.find? reference.declaringType = some definition ∧
        context.host.ancestor? definition count = some candidate ∧
          ∃ live ∈ candidate.fields, live.Answers reference) ∧
    ∀ opcode hasThis, Rule.reportBreakage.judge context
      { instruction with opcode, operand := instruction.operand.calledOn hasThis } = none := by
  rw [unreported_iff stands] at unreported
  refine ⟨?methods, ?fields, ?either⟩
  case methods =>
    intro reference type names named owned
    rw [names] at unreported
    have sound := (ofOperand_eq_none_iff acyclic rfl).mp unreported
    rcases Sought.exists_declared acyclic complete (by simp [MethodRef.sought]) named owned sound with
      ⟨definition, count, candidate, live, found, reached, declared, denoted⟩
    unfold Sought.candidate? at reached
    split at reached
    · rename_i inherited
      refine ⟨definition, count, candidate, found, reached, ?_, exists_method_of_declared? declared denoted⟩
      simp only [MethodRef.sought, Bool.or_eq_true, Bool.not_eq_true', decide_eq_true_eq] at inherited
      intro constructs
      exact inherited.resolve_left (by rw [constructs]; exact Bool.noConfusion)
    · cases reached
  case fields =>
    intro reference type names named owned
    rw [names] at unreported
    have sound := (ofOperand_eq_none_iff acyclic rfl).mp unreported
    rcases Sought.exists_declared acyclic complete (by simp [FieldRef.sought]) named owned sound with
      ⟨definition, count, candidate, live, found, reached, declared, denoted⟩
    exact ⟨definition, count, candidate, found, reached, exists_field_of_declared? declared denoted⟩
  case either =>
    intro opcode hasThis
    exact Option.map_eq_none_iff.mpr (ofOperand_calledOn acyclic hasThis unreported)

end Binding

section Lamps

/-- A lamp that is lit by a static method and has a glow of its own. -/
def lamp : HostDefinition :=
  (HostDefinition.empty ((HostType.simple "" "Lamp").inAssembly "House"))
    |>.withMethod { HostMethod.plain "light" .void with isStatic := true }
    |>.withField ⟨"glow", .int32, false, none⟩

/-- A host of lamps. -/
def lampHost : HostTable := (HostTable.empty.register lamp).table

/-- The method as one of a lamp at hand. -/
def lightCall : MethodRef := ⟨lamp.type.reference, "light", .void, [], true, []⟩

/-- Lights a lamp at hand and reads a glow that all lamps share. -/
def lampBody : Body :=
  .ofInstructions
    [.unplaced .callvirt (.method lightCall),
      .unplaced .ldsfld (.field ⟨lamp.type.reference, "glow", HostType.int32.reference⟩), .unplaced .ret .none]

/-- Neither reference is reported, and no live member is static, or not, as the reference expects. -/
theorem unreported_ignores_static :
    lampHost.Acyclic ∧ lampHost.HasBases ∧ lampHost.owns lamp.type.reference = true ∧
      Rule.reportBreakage.apply ⟨lampHost, .empty, .strict⟩ lampBody 0 = .ok (none, lampBody) ∧
      Rule.reportBreakage.apply ⟨lampHost, .empty, .strict⟩ lampBody 1 = .ok (none, lampBody) ∧
      ∀ definition ∈ lampHost.known,
        (∀ live ∈ definition.constructors ++ definition.methods, live.isStatic ≠ !lightCall.hasThis) ∧
          ∀ live ∈ definition.fields, live.isStatic ≠ Opcode.ldsfld.accessesStaticField := by
  decide +kernel

theorem unreported_binds_lampHost :
    lampHost.Acyclic ∧ lampHost.HasBases ∧
      Rule.reportBreakage.apply ⟨lampHost, .empty, .strict⟩ lampBody 0 = .ok (none, lampBody) ∧
      ∃ definition count candidate, lampHost.find? lightCall.declaringType = some definition ∧
        lampHost.ancestor? definition count = some candidate ∧ (lightCall.isConstructor = true → count = 0) ∧
          ∃ live ∈ candidate.callables lightCall.name, live.Answers lightCall := by
  have acyclic : lampHost.Acyclic := by decide +kernel
  have complete : lampHost.HasBases := by decide +kernel
  have unreported : Rule.reportBreakage.apply ⟨lampHost, .empty, .strict⟩ lampBody 0 = .ok (none, lampBody) := by
    decide +kernel
  have owned : lampHost.owns lightCall.declaringType = true := by decide +kernel
  have binds := (unreported_binds ⟨lampHost, .empty, .strict⟩ acyclic complete lampBody 0 rfl unreported).1
  exact ⟨acyclic, complete, unreported, binds lightCall _ rfl rfl owned⟩

end Lamps

/-! ## The reference to a live method -/

section Live

variable {context : RuleContext} {body : Body} {place : Nat} {instruction : Instruction}
variable {definition : HostDefinition} {method : HostMethod}

/-- A method of a type that the host does not own is not looked for. -/
theorem ofMethod_of_not_owned {host : HostTable} {reference : MethodRef}
    (there : ofTypes host reference.sought.types = none) (foreign : host.owns reference.declaringType = false) :
    ofMethod host reference = none := by
  have asSought : host.owns reference.sought.declaringType = false := foreign
  simp only [ofMethod_eq, Sought.breakage, there, asSought, Bool.not_false, if_true]

/-- The reference of a live method of a type in the table, where all types of the host that it mentions are in the
table, is left alone exactly if the first method with its name and parameter types returns what it expects, or its type
is not the host's. A method is among those with its own name and parameter types if only named types enclose what occurs
in these. -/
theorem live_method_unreported_iff (context : RuleContext) (body : Body) (place : Nat)
    (registered : context.host.find? definition.type.reference = some definition)
    (there : ∀ type ∈ (method.reference definition.type).sought.types, ∀ mentioned, type.Mentions mentioned →
      ¬ context.host.Misses mentioned)
    (stands : body.instructions[place]? = some instruction)
    (calls : instruction.operand = .method (method.reference definition.type)) :
    (∀ first, (definition.callables method.name).find? (·.hasSignature (method.reference definition.type)) = some first →
      (Rule.reportBreakage.apply context body place = .ok (none, body) ↔
        (context.host.owns definition.type.reference = true →
          first.returnType.isDenotedBy method.returnType.reference = true)) ∧
      (Rule.reportBreakage.apply context body place ≠ .ok (none, body) →
        Rule.reportBreakage.apply context body place =
          .ok (some (.incompatible (.otherReturnType (method.reference definition.type) first.returnType)), body))) ∧
    (method ∈ definition.callables method.name → (∀ parameter ∈ method.parameters, parameter.type.NamedEnclose) →
      ∃ first, (definition.callables method.name).find? (·.hasSignature (method.reference definition.type)) =
        some first) := by
  rw [← ofTypes_eq_none_iff] at there
  constructor
  · intro first found
    have declared : (method.reference definition.type).sought.declared? definition = some first.returnType :=
      Option.map_eq_some_iff.mpr ⟨first, found, rfl⟩
    rw [apply_of_stands stands, calls, ofOperand]
    cases owned : context.host.owns definition.type.reference with
    | false =>
        rw [ofMethod_of_not_owned there owned]
        simp
    | true =>
        rw [ofMethod_eq, Sought.breakage_of_declared there owned registered declared]
        have expected : (method.reference definition.type).sought.memberType = method.returnType.reference := rfl
        cases denoted : first.returnType.isDenotedBy method.returnType.reference <;> simp [expected, denoted]
  · intro methodMem enclose
    have own : method.hasSignature (method.reference definition.type) = true := by
      rw [HostMethod.forall_hasSignature_eq_iff.mpr enclose definition.type]
      simp only [MethodRef.sameSignature, decide_true, Bool.true_and, TypeRef.denoteSame_iff]
    exact Option.isSome_iff_exists.mp (List.find?_isSome.mpr ⟨method, methodMem, own⟩)

end Live

section Coins

/-- The type of coins. -/
def coinsType : HostType := (HostType.simple "" "Coins").inAssembly "Bank"

/-- A conversion of coins. -/
def conversion (target : HostType) : HostMethod :=
  { (HostMethod.plain "op_Explicit" target).withParameter "value" coinsType with isStatic := true }

/-- Coins can be converted to integers of either width. -/
def coins : HostDefinition :=
  (HostDefinition.empty coinsType).withMethod (conversion .int32) |>.withMethod (conversion .int64)

/-- A host of coins. -/
def coinsHost : HostTable := (HostTable.empty.register coins).table

/-- Converts coins in both ways. -/
def coinsBody : Body :=
  .ofInstructions
    [.unplaced .call (.method ((conversion .int32).reference coinsType)),
      .unplaced .call (.method ((conversion .int64).reference coinsType)), .unplaced .ret .none]

/-- The second conversion is live as well, and all types are in the table, but a reference to it is reported. -/
theorem live_conversion_reported :
    coinsHost.Acyclic ∧ coinsHost.find? coins.type.reference = some coins ∧ conversion .int64 ∈ coins.methods ∧
      (∀ type ∈ ((conversion .int64).reference coins.type).sought.types, ∀ mentioned, type.Mentions mentioned →
        ¬ coinsHost.Misses mentioned) ∧
      Rule.reportBreakage.apply ⟨coinsHost, .empty, .strict⟩ coinsBody 1 =
        .ok (some (.incompatible (.otherReturnType ((conversion .int64).reference coins.type) .int32)), coinsBody) := by
  rw [← ofTypes_eq_none_iff]
  decide +kernel

theorem live_method_unreported_iff_conversion :
    coinsHost.find? coins.type.reference = some coins ∧
      (∀ type ∈ ((conversion .int32).reference coins.type).sought.types, ∀ mentioned, type.Mentions mentioned →
        ¬ coinsHost.Misses mentioned) ∧
      Rule.reportBreakage.apply ⟨coinsHost, .empty, .strict⟩ coinsBody 0 = .ok (none, coinsBody) := by
  have registered : coinsHost.find? coins.type.reference = some coins := by decide +kernel
  have there : ∀ type ∈ ((conversion .int32).reference coins.type).sought.types, ∀ mentioned,
      type.Mentions mentioned → ¬ coinsHost.Misses mentioned := by
    rw [← ofTypes_eq_none_iff]
    decide +kernel
  have first : (coins.callables (conversion .int32).name).find?
      (·.hasSignature ((conversion .int32).reference coins.type)) = some (conversion .int32) := by decide +kernel
  have judged := (live_method_unreported_iff ⟨coinsHost, .empty, .strict⟩ coinsBody 0 registered there rfl rfl).1 _ first
  exact ⟨registered, there, judged.1.mpr fun _ => by decide +kernel⟩

end Coins

end Breakage

end CilRelink
