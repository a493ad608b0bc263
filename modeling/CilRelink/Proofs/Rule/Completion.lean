import CilRelink.Proofs.Rewrite.Site
import Mathlib.Data.List.TakeWhile

/-!
# The calls that completion builds

A call that lacks arguments gets the loads of their defaults in front of it, in the order of the parameters, and then
calls the method that has these parameters. Whatever led to the call leads to the first load, so control reaches the
call with all loads done, and nothing leads into the middle. Defaults are there for all parameters that the call
lacks, because none from the last parameter without one on is lacking; all that can go wrong is that one of them is of
a kind that has no load.
-/

namespace CilRelink

/-- A method requires no more than `count` arguments if all parameters behind the first `count` have defaults. -/
theorem HostMethod.requiredCount_le_iff {method : HostMethod} {count : Nat} :
    method.requiredCount ≤ count ↔ ∀ parameter ∈ method.parameters.drop count, parameter.default.isSome = true := by
  have optional : method.requiredCount =
      method.parameters.length - (method.parameters.reverse.takeWhile (·.default.isSome)).length := rfl
  constructor
  · intro enough parameter parameterMem
    -- the parameters behind the first `count`, read backwards, begin the list that the count is about
    have behind :
        (method.parameters.drop count).reverse <+: method.parameters.reverse.takeWhile (·.default.isSome) := by
      apply List.prefix_of_prefix_length_le (List.reverse_prefix.mpr (List.drop_suffix _ _)) (List.takeWhile_prefix _)
      simp only [List.length_reverse, List.length_drop]
      omega
    have given := List.mem_takeWhile_imp (behind.subset (List.mem_reverse.mpr parameterMem))
    exact given
  · intro defaults
    have backwards : method.parameters.reverse =
        (method.parameters.drop count).reverse ++ (method.parameters.take count).reverse := by
      rw [← List.reverse_append, List.take_append_drop]
    rw [optional, backwards, List.takeWhile_append_of_pos (by simpa using defaults)]
    simp only [List.length_append, List.length_reverse, List.length_drop]
    omega

theorem Rule.apply_eq_ok_some_iff {rule : Rule} {context : RuleContext} {body changed : Body} {place : Nat}
    {verdict : Verdict} :
    rule.apply context body place = .ok (some verdict, changed) ↔
      ∃ instruction, body.instructions[place]? = some instruction ∧ rule.judge context instruction = some verdict ∧
        body.carryOut place verdict = .ok changed := by
  rw [apply]
  constructor
  · intro answers
    split at answers
    · cases answers
    · rename_i decided
      rcases Option.bind_eq_some_iff.mp decided with ⟨instruction, stands, judged⟩
      rcases Fallible.map_eq_ok_iff.mp answers with ⟨_, carried, same⟩
      cases same
      exact ⟨instruction, stands, judged, carried⟩
  · rintro ⟨instruction, stands, judged, carried⟩
    simp only [stands, Option.bind_some, judged, carried]
    rfl

theorem Rule.apply_eq_ok_none_iff {rule : Rule} {context : RuleContext} {body : Body} {place : Nat}
    {instruction : Instruction} (stands : body.instructions[place]? = some instruction) :
    rule.apply context body place = .ok (none, body) ↔ rule.judge context instruction = none := by
  rw [apply, stands, Option.bind_some]
  cases rule.judge context instruction with
  | none => simp
  | some verdict =>
      simp only [reduceCtorEq, iff_false]
      intro answers
      rcases Fallible.map_eq_ok_iff.mp answers with ⟨_, _, same⟩
      cases same

theorem Instruction.isWellFormed_ite {condition : Prop} [Decidable condition] {first second : Instruction}
    (firstFits : first.isWellFormed = true) (secondFits : second.isWellFormed = true) :
    (if condition then first else second).isWellFormed = true := by
  split
  · exact firstFits
  · exact secondFits

theorem HostValue.isWellFormed_of_load? {value : HostValue} {load : Instruction} (loaded : value.load? = some load) :
    load.isWellFormed = true := by
  cases value with
  | boolean value => cases value <;> cases loaded <;> rfl
  | int32 value =>
      cases loaded
      unfold Instruction.loadInt32
      repeat
        apply Instruction.isWellFormed_ite
        · rfl
      rfl
  | null | int64 | float32 | float64 | string =>
      cases loaded
      rfl
  | _ => cases loaded

namespace Completion

variable {parameters : List HostParameter} {result : List Instruction} {parameter : HostParameter}

/-- Whether an instruction loads the default of a parameter. -/
def LoadsDefault (parameter : HostParameter) (load : Instruction) : Prop :=
  ∃ value, parameter.default = some value ∧ value.load? = some load

theorem loadsDefault_iff {load : Instruction} :
    LoadsDefault parameter load ↔ parameter.default.bind HostValue.load? = some load :=
  Option.bind_eq_some_iff.symm

theorem loads_eq_ok_iff : loads parameters = .ok result ↔ List.Forall₂ LoadsDefault parameters result := by
  induction parameters generalizing result with
  | nil => simp [loads, eq_comm]
  | cons parameter parameters ih =>
      rw [loads, List.forall₂_cons_left_iff]
      simp only [loadsDefault_iff]
      cases parameter.default.bind HostValue.load? with
      | none => simp
      | some load =>
          simp only [Fallible.map_eq_ok_iff, ih, Option.some.injEq]
          constructor
          · rintro ⟨others, rest, rfl⟩
            exact ⟨load, others, rfl, rest, rfl⟩
          · rintro ⟨_, others, rfl, rest, rfl⟩
            exact ⟨others, rest, rfl⟩

theorem isWellFormed_of_loadsDefault (inOrder : List.Forall₂ LoadsDefault parameters result) :
    ∀ load ∈ result, load.isWellFormed = true := by
  induction inOrder with
  | nil => simp
  | cons loadsFirst _ ih =>
      rcases loadsFirst with ⟨value, _, loaded⟩
      exact List.forall_mem_cons.mpr ⟨HostValue.isWellFormed_of_load? loaded, ih⟩

/-- The first default that has no load is the one that is found. -/
theorem loads_eq_error_iff :
    loads parameters = .error parameter ↔
      parameters.find? (fun parameter => (parameter.default.bind HostValue.load?).isNone) = some parameter := by
  induction parameters with
  | nil => simp [loads]
  | cons first parameters ih =>
      rw [loads, List.find?_cons]
      cases first.default.bind HostValue.load? with
      | none => simp
      | some load =>
          simp only [Option.isNone_some]
          rw [← ih]
          cases loads parameters <;> simp [Functor.map, Except.map]

/-- What makes a call lack arguments: its type is live and does not declare what is called, and `method` is the first
method that takes what the call gives and goes on with defaults. -/
structure Lacking (host : HostTable) (reference : MethodRef) (definition : HostDefinition) (method : HostMethod) :
    Prop where
  live : host.find? reference.declaringType = some definition
  undeclared : definition.declares reference = false
  first : (definition.callables reference.name).find? (extendsCall · reference) = some method

section Calls

variable {opcode : Opcode} {definition : HostDefinition} {method : HostMethod} {reference : MethodRef}

/-- A completed call names what the reference named, with the parameters of the method and what it returns. -/
theorem completed_eq (sameName : method.name = reference.name) :
    completed definition method reference =
      { reference with
        returnType := method.returnType.reference
        parameters := method.parameters.map (·.type.reference) } := by
  simp [completed, HostMethod.reference, sameName]

theorem complete_eq_rewritten {given : List Instruction} {replacement : Instruction} {confidence : Confidence}
    (made : complete opcode definition method reference = .rewritten given replacement confidence) :
    List.Forall₂ LoadsDefault (missing method reference) given ∧
      replacement = .unplaced opcode (.method (completed definition method reference)) ∧ confidence = .exact := by
  unfold complete at made
  split at made
  · cases made
  · rename_i loaded
    cases made
    exact ⟨loads_eq_ok_iff.mp loaded, rfl, rfl⟩

theorem length_of_loadsDefault {given : List Instruction}
    (inOrder : List.Forall₂ LoadsDefault (missing method reference) given) :
    given.length = method.parameters.length - reference.parameters.length := by
  rw [← inOrder.length_eq, missing, List.length_drop]

/-- If the method has defaults for all that the reference lacks, then one of them has no load. -/
theorem complete_eq_incompatible {breakage : Breakage}
    (defaults : ∀ parameter ∈ missing method reference, parameter.default.isSome = true)
    (made : complete opcode definition method reference = .incompatible breakage) :
    ∃ parameter ∈ missing method reference, breakage = .defaultKind reference parameter.name ∧
      ∃ value, parameter.default = some value ∧ value.load? = none := by
  unfold complete at made
  split at made
  · rename_i parameter lacking
    cases made
    rw [loads_eq_error_iff] at lacking
    have parameterMem := List.mem_of_find?_eq_some lacking
    rcases Option.isSome_iff_exists.mp (defaults parameter parameterMem) with ⟨value, isDefault⟩
    have unloadable := List.find?_some lacking
    simp only [isDefault, Option.bind_some, Option.isNone_iff_eq_none] at unloadable
    exact ⟨parameter, parameterMem, rfl, value, isDefault, unloadable⟩
  · cases made

end Calls

/-- What the rule decides about an instruction of a valid body is carried out as long as positions are left for it. -/
theorem exists_apply {context : RuleContext} {body : Body} {place : Nat} {call : Instruction} {reference : MethodRef}
    {definition : HostDefinition} {method : HostMethod} (valid : body.validate = .ok ())
    (stands : body.instructions[place]? = some call) (invokes : call.invokedMethod? = some reference)
    (lacking : Lacking context.host reference definition method)
    (room : body.size + (method.parameters.length - reference.parameters.length) < Code.indexLimit) :
    ∃ verdict changed, Rule.completeCalls.apply context body place = .ok (some verdict, changed) := by
  have decided := judge_eq_some_iff.mpr
    ⟨reference, definition, method, invokes, lacking.live, lacking.undeclared, lacking.first, rfl⟩
  suffices ∃ changed, body.carryOut place (complete call.opcode definition method reference) = .ok changed by
    rcases this with ⟨changed, carried⟩
    exact ⟨_, changed, Rule.apply_eq_ok_some_iff.mpr ⟨call, stands, decided, carried⟩⟩
  cases made : complete call.opcode definition method reference with
  | incompatible breakage => exact ⟨body, rfl⟩
  | rewritten given replacement confidence =>
      rcases complete_eq_rewritten made with ⟨inOrder, rfl, rfl⟩
      rw [made] at decided
      have rewrites : Rule.Rewrites call .completeCalls given _ := Rule.rewrites_of_judge decided
      have fits : (Operand.method (completed definition method reference)).fits call.opcode.operandKind = true :=
        Operand.fits_method_iff.mpr (Instruction.invokedMethod?_eq_some invokes).2
      have count := length_of_loadsDefault inOrder
      exact Body.exists_carryOut valid (List.getElem?_eq_some_iff.mp stands).1 (isWellFormed_of_loadsDefault inOrder)
        rewrites.loads_nowhere fits (by omega)

/-- The rule goes by the first current method that takes what a call gives and goes on with defaults. If it rewrites
the call, what it puts in is the loads of these defaults and the call of this method. If it finds the call broken, the
body is left alone, and one of the defaults has no load. One of both is the case for any call of a valid body that
lacks arguments, as long as positions are left. -/
theorem call_site_built (context : RuleContext) {body : Body} {place : Nat} {call : Instruction} {reference : MethodRef}
    (stands : body.instructions[place]? = some call) (calls : call.operand = .method reference) :
    (∀ verdict changed, Rule.completeCalls.apply context body place = .ok (some verdict, changed) →
      ∃ definition method, Lacking context.host reference definition method ∧ method.name = reference.name ∧
        reference.parameters.length < method.parameters.length ∧
        HostType.areDenotedBy ((method.parameters.take reference.parameters.length).map HostParameter.type)
          reference.parameters = true ∧
        (∀ loads replacement confidence, verdict = .rewritten loads replacement confidence →
          verdict.span = method.parameters.length - reference.parameters.length + 1 ∧ confidence = .exact ∧
            List.Forall₂ LoadsDefault (method.parameters.drop reference.parameters.length) loads ∧
            Body.MakesWay body changed place loads
              ⟨call.offset, call.opcode, .method
                { reference with
                  returnType := method.returnType.reference
                  parameters := method.parameters.map (·.type.reference) }⟩ ∧
            (body.validate = .ok () → changed.validate = .ok ())) ∧
        (∀ breakage, verdict = .incompatible breakage →
          changed = body ∧
            (∀ parameter ∈ method.parameters.drop reference.parameters.length, parameter.default.isSome = true) ∧
            ∃ parameter ∈ method.parameters.drop reference.parameters.length,
              breakage = .defaultKind reference parameter.name ∧
                ∃ value, parameter.default = some value ∧ value.load? = none)) ∧
    (∀ definition method, Lacking context.host reference definition method → call.invokedMethod? = some reference →
      body.validate = .ok () →
      body.size + (method.parameters.length - reference.parameters.length) < Code.indexLimit →
      ∃ verdict changed, Rule.completeCalls.apply context body place = .ok (some verdict, changed)) := by
  refine ⟨?_, fun definition method lacking invokes valid room => exists_apply valid stands invokes lacking room⟩
  intro verdict changed answers
  rcases Rule.apply_eq_ok_some_iff.mp answers with ⟨_, standsToo, decided, carried⟩
  rw [stands, Option.some.injEq] at standsToo
  subst standsToo
  rcases judge_eq_some_iff.mp decided with ⟨other, definition, method, invoked, live, undeclared, extending, made⟩
  have sameReference : other = reference := by
    simpa [(Instruction.invokedMethod?_eq_some invoked).1] using calls
  subst sameReference
  have extended := List.find?_some extending
  simp only [extendsCall, Bool.and_eq_true, decide_eq_true_eq] at extended
  rcases extended with ⟨⟨⟨sameName, longer⟩, enough⟩, front⟩
  have defaults := HostMethod.requiredCount_le_iff.mp enough
  refine ⟨definition, method, ⟨live, undeclared, extending⟩, sameName, longer, front, ?_, ?_⟩
  · rintro loads replacement confidence rfl
    rcases complete_eq_rewritten made with ⟨inOrder, rfl, rfl⟩
    have rewrites := Rule.rewrites_of_judge decided
    have leads : call.jumpPositions = [] := by
      rw [Instruction.jumpPositions, calls]
      rfl
    have makesWay := Body.makesWay_of_carryOut stands leads rewrites.loads_nowhere rewrites.replacement_nowhere carried
    rw [completed_eq sameName] at makesWay
    refine ⟨?_, rfl, inOrder, makesWay, fun valid => Body.validate_of_carryOut valid decided carried⟩
    rw [Verdict.span, length_of_loadsDefault inOrder]
  · rintro breakage rfl
    cases carried
    exact ⟨rfl, defaults, complete_eq_incompatible defaults made⟩

section Bell

/-- The type of a bell. -/
def bellType : HostType := (HostType.simple "" "Bell").inAssembly "House"

/-- A bell can be rung with a volume and a tone, which callers may leave out. -/
def ring : HostMethod :=
  (HostMethod.plain "ring" .void).withParameter "times" .int32 |>.withDefault "volume" .int32 (.int32 7)
    |>.withDefault "tone" .string (.string "low")

/-- A bell can be tolled with a mark, which is of a kind that has no load. -/
def toll : HostMethod :=
  (HostMethod.plain "toll" .void).withParameter "times" .int32 |>.withDefault "mark" .int32 (.char 'x')

/-- A host of bells. -/
def bellContext : RuleContext :=
  ⟨(HostTable.empty.register ((HostDefinition.empty bellType).withMethod ring |>.withMethod toll)).table, .empty,
    .strict⟩

/-- A call that only tells how often the bell is to sound. -/
def sound (name : String) : MethodRef :=
  ⟨bellType.reference, name, TypeRef.void, [HostType.int32.reference], true, []⟩

/-- Rings and tolls. A jump table and a region lead to the ring, and the toll is behind it. -/
def bellBody : Body :=
  { Body.ofInstructions
      [.unplaced .switch (.targets [1, 2]), .unplaced .callvirt (.method (sound "ring")),
        .unplaced .callvirt (.method (sound "toll")), .unplaced .ret .none] with
    clauses := [⟨.finallyFlag, 1, 2, 2, 3, none, none⟩] }

/-- A call that tells all about the ring. -/
def soundFully : MethodRef :=
  { sound "ring" with parameters := [HostType.int32.reference, HostType.int32.reference, HostType.string.reference] }

/-- The loads of a volume and a tone. -/
def ringLoads : List Instruction := [.unplaced .ldcI4_7 .none, .unplaced .ldstr (.string "low")]

/-- The body with the ring completed. -/
def rungBody : Body :=
  { Body.ofInstructions
      ([.unplaced .switch (.targets [1, 4])] ++ ringLoads ++ [.unplaced .callvirt (.method soundFully),
        .unplaced .callvirt (.method (sound "toll")), .unplaced .ret .none]) with
    maxStack := 10
    clauses := [⟨.finallyFlag, 1, 4, 4, 5, none, none⟩] }

theorem call_site_built_bell :
    bellBody.instructions[1]? = some (.unplaced .callvirt (.method (sound "ring"))) ∧
      (∃ call, Body.MakesWay bellBody rungBody 1 ringLoads call) ∧ rungBody.validate = .ok () ∧
      Rule.completeCalls.apply bellContext rungBody 4 =
        .ok (some (.incompatible (.defaultKind (sound "toll") "mark")), rungBody) ∧
      ∃ parameter : HostParameter, parameter.name = "mark" ∧
        ∃ value, parameter.default = some value ∧ value.load? = none := by
  have rings : Rule.completeCalls.apply bellContext bellBody 1 =
      .ok (some (.rewritten ringLoads (.unplaced .callvirt (.method soundFully)) .exact), rungBody) := by decide +kernel
  have tolls : Rule.completeCalls.apply bellContext rungBody 4 =
      .ok (some (.incompatible (.defaultKind (sound "toll") "mark")), rungBody) := by decide +kernel
  rcases (call_site_built bellContext rfl rfl).1 _ _ rings with ⟨_, _, _, _, _, _, rewritten, _⟩
  rcases (call_site_built bellContext rfl rfl).1 _ _ tolls with ⟨_, _, _, _, _, _, _, broken⟩
  rcases rewritten _ _ _ rfl with ⟨_, _, _, makesWay, valid⟩
  rcases broken _ rfl with ⟨_, _, parameter, _, same, unloadable⟩
  have named := (Breakage.defaultKind.inj same).2.symm
  exact ⟨rfl, ⟨_, makesWay⟩, valid (by decide +kernel), tolls, parameter, named, unloadable⟩

end Bell

end Completion

end CilRelink
