import CilRelink.Proofs.Reference.Identity
import CilRelink.Proofs.Rule.Completion

/-!
# What a completed call does to the stack

A site of loads and a completed call takes from the stack what the old call took, whatever the defaults are, for each
load puts there one of the arguments that the call takes more. What it leaves is what the method returns that the call
is completed to. The method is chosen by its name and parameters, and what the old reference expects to be returned is
not looked at. So the code behind the site finds what it found behind the call exactly if both return types are the
same, or if the site constructs an instance.
-/

namespace CilRelink

namespace MethodRef

/-- The number of values that a call of the method takes from the stack. The instance that is constructed is not among
them. -/
def takes (reference : MethodRef) (opcode : Opcode) : Nat :=
  reference.parameters.length + if reference.hasThis && opcode ≠ .newobj then 1 else 0

/-- The types of what a call of the method leaves on the stack. -/
def leaves (reference : MethodRef) (opcode : Opcode) : List TypeRef :=
  if opcode = .newobj then [reference.declaringType]
  else if reference.returnType.denotesSame .void then []
  else [reference.returnType]

/-- The method taken to return another type. -/
def returning (reference : MethodRef) (returnType : TypeRef) : MethodRef := { reference with returnType }

end MethodRef

/-- The type of what a load of a literal puts on the stack. Booleans are integers there. -/
def Opcode.literalType? : Opcode → Option TypeRef
  | .ldnull => some (.simple "System" "Object")
  | .ldcI4M1 | .ldcI4_0 | .ldcI4_1 | .ldcI4_2 | .ldcI4_3 | .ldcI4_4 | .ldcI4_5 | .ldcI4_6 | .ldcI4_7 | .ldcI4_8
  | .ldcI4S | .ldcI4 => some (.simple "System" "Int32")
  | .ldcI8 => some (.simple "System" "Int64")
  | .ldcR4 => some (.simple "System" "Single")
  | .ldcR8 => some (.simple "System" "Double")
  | .ldstr => some (.simple "System" "String")
  | _ => none

namespace Instruction

/-- What a call or a load of a literal makes of a stack of values of these types, the last one in front. A call that
wants more than there is does not run. -/
def onStack (stack : List TypeRef) (instruction : Instruction) : Option (List TypeRef) :=
  match instruction.invokedMethod? with
  | some reference =>
    if reference.takes instruction.opcode ≤ stack.length then
      some (reference.leaves instruction.opcode ++ stack.drop (reference.takes instruction.opcode))
    else none
  | none => instruction.opcode.literalType?.map (· :: stack)

/-- What instructions make of a stack, one after the other. -/
def allOnStack (instructions : List Instruction) (stack : List TypeRef) : Option (List TypeRef) :=
  instructions.foldlM onStack stack

/-- Whether instructions run on the same stacks as others and leave values of the same types there. -/
def LeaveSame (first second : List Instruction) : Prop :=
  ∀ stack, (allOnStack first stack).map TypeRef.eachWithoutAssemblies =
    (allOnStack second stack).map TypeRef.eachWithoutAssemblies

/-- The instruction with a method in the place of its operand. -/
def invoking (instruction : Instruction) (method : MethodRef) : Instruction :=
  { instruction with operand := .method method }

@[simp]
theorem opcode_invoking (instruction : Instruction) (method : MethodRef) :
    (instruction.invoking method).opcode = instruction.opcode := rfl

theorem invokedMethod?_invoking {instruction : Instruction} {reference : MethodRef}
    (invoked : instruction.invokedMethod? = some reference) (method : MethodRef) :
    (instruction.invoking method).invokedMethod? = some method := by
  rcases instruction with ⟨offset, opcode, operand⟩
  simp only [invokedMethod?] at invoked
  split at invoked
  all_goals
    cases invoked
    try rfl

@[simp]
theorem allOnStack_singleton (instruction : Instruction) (stack : List TypeRef) :
    allOnStack [instruction] stack = instruction.onStack stack := by
  simp [allOnStack]

theorem allOnStack_cons_of_onStack {first : Instruction} {rest : List Instruction} {before after : List TypeRef}
    (runs : first.onStack before = some after) : allOnStack (first :: rest) before = allOnStack rest after := by
  rw [allOnStack, List.foldlM_cons, runs]
  rfl

theorem onStack_loadInt32 (value : Int32) (stack : List TypeRef) :
    (loadInt32 value).onStack stack = some (.simple "System" "Int32" :: stack) := by
  unfold loadInt32
  -- whatever the opcode, an integer is loaded
  iterate 11
    refine iteInduction (motive := fun load => onStack stack load = _) (fun _ => rfl) fun _ => ?_
  rfl

end Instruction

theorem HostValue.exists_onStack_of_load? {value : HostValue} {load : Instruction} (loaded : value.load? = some load) :
    ∃ type, ∀ stack, load.onStack stack = some (type :: stack) := by
  cases value with
  | boolean value => cases value <;> cases loaded <;> exact ⟨_, fun _ => rfl⟩
  | int32 value =>
      cases loaded
      exact ⟨_, Instruction.onStack_loadInt32 value⟩
  | null | int64 | float32 | float64 | string =>
      cases loaded
      exact ⟨_, fun _ => rfl⟩
  | _ => cases loaded

theorem MethodRef.leaves_returning_iff {reference : MethodRef} {opcode : Opcode} (calls : opcode ≠ .newobj)
    (first second : TypeRef) :
    TypeRef.eachWithoutAssemblies ((reference.returning first).leaves opcode) =
        TypeRef.eachWithoutAssemblies ((reference.returning second).leaves opcode) ↔
      first.denotesSame second = true := by
  simp only [leaves, returning, if_neg calls, TypeRef.eachWithoutAssemblies_eq_map, TypeRef.denotesSame_iff]
  -- a call leaves nothing exactly if its return type is void, so types of which one is void are told apart
  by_cases firstVoid : first.withoutAssemblies = TypeRef.void.withoutAssemblies
  · by_cases secondVoid : second.withoutAssemblies = TypeRef.void.withoutAssemblies
    · simp [firstVoid, secondVoid]
    · simp [firstVoid, secondVoid, Ne.symm secondVoid]
  · by_cases secondVoid : second.withoutAssemblies = TypeRef.void.withoutAssemblies
    · simp [firstVoid, secondVoid]
    · simp [firstVoid, secondVoid]

namespace Instruction

/-- Calls that differ in what they are taken to return leave the same exactly if they do not return, but construct, or
if both return types are the same. -/
theorem leaveSame_returning_iff {call : Instruction} {reference : MethodRef}
    (invokes : call.invokedMethod? = some reference) (returnType : TypeRef) :
    LeaveSame [call.invoking (reference.returning returnType)] [call] ↔
      call.opcode = .newobj ∨ returnType.denotesSame reference.returnType = true := by
  have onStack_call (stack : List TypeRef) : call.onStack stack =
      if reference.takes call.opcode ≤ stack.length then
        some (reference.leaves call.opcode ++ stack.drop (reference.takes call.opcode))
      else none := by
    rw [onStack, invokes]
  have onStack_other (stack : List TypeRef) : (call.invoking (reference.returning returnType)).onStack stack =
      if reference.takes call.opcode ≤ stack.length then
        some ((reference.returning returnType).leaves call.opcode ++ stack.drop (reference.takes call.opcode))
      else none := by
    rw [onStack, invokedMethod?_invoking invokes]
    rfl
  have same : LeaveSame [call.invoking (reference.returning returnType)] [call] ↔
      TypeRef.eachWithoutAssemblies ((reference.returning returnType).leaves call.opcode) =
        TypeRef.eachWithoutAssemblies (reference.leaves call.opcode) := by
    simp only [LeaveSame, allOnStack_singleton, onStack_call, onStack_other]
    constructor
    · intro all
      -- a stack that holds just what is taken is left with nothing but what the calls leave
      have least := all (List.replicate (reference.takes call.opcode) .void)
      simpa using least
    · intro leaves stack
      split
      · rw [TypeRef.eachWithoutAssemblies_eq_map, TypeRef.eachWithoutAssemblies_eq_map] at leaves
        simp only [Option.map_some, TypeRef.eachWithoutAssemblies_eq_map, List.map_append, leaves]
      · rfl
  rw [same]
  by_cases constructs : call.opcode = .newobj
  · simp [constructs, MethodRef.leaves, MethodRef.returning]
  · rw [or_iff_right constructs]
    exact MethodRef.leaves_returning_iff constructs returnType reference.returnType

end Instruction

namespace Completion

theorem exists_allOnStack_of_loadsDefault {parameters : List HostParameter} {loads : List Instruction}
    (inOrder : List.Forall₂ LoadsDefault parameters loads) (rest : List Instruction) (stack : List TypeRef) :
    ∃ pushed, pushed.length = parameters.length ∧
      Instruction.allOnStack (loads ++ rest) stack = Instruction.allOnStack rest (pushed ++ stack) := by
  induction inOrder generalizing stack with
  | nil => exact ⟨[], rfl, rfl⟩
  | cons loadsFirst _ ih =>
      rcases loadsFirst with ⟨value, _, loaded⟩
      rcases HostValue.exists_onStack_of_load? loaded with ⟨type, pushes⟩
      rcases ih (type :: stack) with ⟨pushed, count, runs⟩
      refine ⟨pushed ++ [type], by simp [count], ?_⟩
      rw [List.cons_append, Instruction.allOnStack_cons_of_onStack (pushes stack), runs, List.append_assoc,
        List.singleton_append]

section Calls

variable {definition : HostDefinition} {method : HostMethod} {reference : MethodRef} {call : Instruction}

/-- Loads of what a reference leaves out and a call of a method that takes it do to a stack what a call of the reference
would do that returned what the method returns. -/
theorem allOnStack_site {loads : List Instruction} (definition : HostDefinition)
    (invokes : call.invokedMethod? = some reference) (sameName : method.name = reference.name)
    (shorter : reference.parameters.length ≤ method.parameters.length)
    (inOrder : List.Forall₂ LoadsDefault (missing method reference) loads) (stack : List TypeRef) :
    Instruction.allOnStack (loads ++ [call.invoking (completed definition method reference)]) stack =
      (call.invoking (reference.returning method.returnType.reference)).onStack stack := by
  have same : completed definition method reference = _ := completed_eq sameName
  rcases exists_allOnStack_of_loadsDefault inOrder [call.invoking (completed definition method reference)] stack with
    ⟨pushed, count, runs⟩
  rw [runs, Instruction.allOnStack_singleton, Instruction.onStack, Instruction.onStack,
    Instruction.invokedMethod?_invoking invokes, Instruction.invokedMethod?_invoking invokes]
  have takes : (completed definition method reference).takes call.opcode =
      pushed.length + (reference.returning method.returnType.reference).takes call.opcode := by
    rw [missing, List.length_drop] at count
    rw [same, MethodRef.takes, MethodRef.takes, MethodRef.returning, List.length_map]
    dsimp only
    omega
  have leaves : (completed definition method reference).leaves call.opcode =
      (reference.returning method.returnType.reference).leaves call.opcode := by
    rw [same]
    rfl
  simp only [Instruction.opcode_invoking, takes, leaves, List.drop_length_add_append]
  refine if_congr ?_ rfl rfl
  rw [List.length_append, Nat.add_le_add_iff_left]

theorem judge_invoking_returning {context : RuleContext} {loads : List Instruction} {replacement : Instruction}
    {confidence : Confidence} (invokes : call.invokedMethod? = some reference)
    (decided : judge context call = some (.rewritten loads replacement confidence)) (returnType : TypeRef) :
    judge context (call.invoking (reference.returning returnType)) =
      some (.rewritten loads replacement confidence) := by
  rcases judge_eq_some_iff.mp decided with ⟨other, definition, method, invoked, live, undeclared, extending, made⟩
  rw [invokes, Option.some.injEq] at invoked
  subst invoked
  refine judge_eq_some_iff.mpr ⟨reference.returning returnType, definition, method,
    Instruction.invokedMethod?_invoking invokes _, live, undeclared, extending, ?_⟩
  rcases complete_eq_rewritten made with ⟨inOrder, rfl, rfl⟩
  have loaded : Completion.loads (missing method (reference.returning returnType)) = .ok loads :=
    loads_eq_ok_iff.mpr inOrder
  rw [complete, loaded]
  rfl

/-- If the rule rewrites a call, then the site takes from any stack what the call took, and leaves what the method
returns that is the first to take what the call gives and to go on with defaults. So the same is left as by the call
exactly if the method returns what the reference expects, or if an instance is constructed. What the reference expects
to be returned plays no part in the choice of the method. -/
theorem completed_on_stack (context : RuleContext) {body changed : Body} {place : Nat} {loads : List Instruction}
    {replacement : Instruction} {confidence : Confidence} (stands : body.instructions[place]? = some call)
    (calls : call.operand = .method reference)
    (answers : Rule.completeCalls.apply context body place =
      .ok (some (.rewritten loads replacement confidence), changed)) :
    ∃ definition method, Lacking context.host reference definition method ∧
      (∀ stack, Instruction.allOnStack ((changed.instructions.drop place).take (loads.length + 1)) stack =
        (call.invoking (reference.returning method.returnType.reference)).onStack stack) ∧
      (Instruction.LeaveSame ((changed.instructions.drop place).take (loads.length + 1)) [call] ↔
        call.opcode = .newobj ∨ method.returnType.reference.denotesSame reference.returnType = true) ∧
      ∀ returnType, Rule.completeCalls.judge context (call.invoking (reference.returning returnType)) =
        some (.rewritten loads replacement confidence) := by
  rcases Rule.apply_eq_ok_some_iff.mp answers with ⟨_, standsToo, decided, carried⟩
  rw [stands, Option.some.injEq] at standsToo
  subst standsToo
  rcases judge_eq_some_iff.mp decided with ⟨other, definition, method, invokes, live, undeclared, extending, made⟩
  have sameReference : other = reference := by
    simpa [(Instruction.invokedMethod?_eq_some invokes).1] using calls
  subst sameReference
  have extended := List.find?_some extending
  simp only [extendsCall, Bool.and_eq_true, decide_eq_true_eq] at extended
  rcases extended with ⟨⟨⟨sameName, longer⟩, _⟩, _⟩
  have rewrites := Rule.rewrites_of_judge decided
  have independent := judge_invoking_returning invokes decided
  rcases complete_eq_rewritten made with ⟨inOrder, rfl, rfl⟩
  have leads : call.jumpPositions = [] := by
    rw [Instruction.jumpPositions, calls]
    rfl
  have makesWay := Body.makesWay_of_carryOut stands leads rewrites.loads_nowhere rewrites.replacement_nowhere carried
  have site : (changed.instructions.drop place).take (loads.length + 1) =
      loads ++ [call.invoking (completed definition method other)] :=
    makesWay.site (Nat.le_of_lt (List.getElem?_eq_some_iff.mp stands).1)
  have effect := allOnStack_site definition invokes sameName (Nat.le_of_lt longer) inOrder
  rw [site]
  refine ⟨definition, method, ⟨live, undeclared, extending⟩, effect, ?_, independent⟩
  rw [← Instruction.leaveSame_returning_iff invokes]
  simp only [Instruction.LeaveSame, effect, Instruction.allOnStack_singleton]

end Calls

section Bell

theorem completed_on_stack_ring :
    Rule.completeCalls.apply bellContext bellBody 1 =
        .ok (some (.rewritten ringLoads (.unplaced .callvirt (.method soundFully)) .exact), rungBody) ∧
      Instruction.LeaveSame ((rungBody.instructions.drop 1).take 3) [.unplaced .callvirt (.method (sound "ring"))] := by
  have rings : Rule.completeCalls.apply bellContext bellBody 1 =
      .ok (some (.rewritten ringLoads (.unplaced .callvirt (.method soundFully)) .exact), rungBody) := by decide +kernel
  rcases completed_on_stack bellContext rfl rfl rings with ⟨definition, method, lacking, _, same, _⟩
  have live : bellContext.host.find? (sound "ring").declaringType =
      some ((HostDefinition.empty bellType).withMethod ring |>.withMethod toll) := by decide +kernel
  cases Option.some.inj (live.symm.trans lacking.live)
  cases (lacking.first : some ring = some method)
  exact ⟨rings, same.mpr (.inr (by decide +kernel))⟩

/-- A bell can be struck with a volume, which callers may leave out, and tells how loud it was. -/
def strike : HostMethod :=
  (HostMethod.plain "strike" .int32).withParameter "times" .int32 |>.withDefault "volume" .int32 (.int32 7)

/-- A host of bells that tell how loud they were. -/
def loudContext : RuleContext :=
  ⟨(HostTable.empty.register ((HostDefinition.empty bellType).withMethod strike)).table, .empty, .strict⟩

/-- Strikes a bell without expecting to be told anything. -/
def struckBody : Body := .ofInstructions [.unplaced .callvirt (.method (sound "strike")), .unplaced .ret .none]

/-- A call that tells all about the strike. -/
def strikeFully : MethodRef :=
  { sound "strike" with
    returnType := HostType.int32.reference
    parameters := [HostType.int32.reference, HostType.int32.reference] }

/-- The call is completed to one that leaves a number on the stack, which the call did not. -/
theorem other_return_type_completed :
    ∃ loads replacement changed, Rule.completeCalls.apply loudContext struckBody 0 =
        .ok (some (.rewritten loads replacement .exact), changed) ∧
      strike.returnType.reference.denotesSame (sound "strike").returnType = false ∧
      replacement.invokedMethod?.map MethodRef.returnType = some strike.returnType.reference ∧
      ¬ Instruction.LeaveSame ((changed.instructions.drop 0).take (loads.length + 1))
        [.unplaced .callvirt (.method (sound "strike"))] := by
  refine ⟨[.unplaced .ldcI4_7 .none], .unplaced .callvirt (.method strikeFully),
    { Body.ofInstructions
        [.unplaced .ldcI4_7 .none, .unplaced .callvirt (.method strikeFully), .unplaced .ret .none] with
      maxStack := 9 },
    by decide +kernel, by decide +kernel, by decide +kernel, ?_⟩
  intro same
  have heard := same [HostType.int32.reference, bellType.reference]
  revert heard
  decide +kernel

end Bell

end Completion

end CilRelink
