import CilRelink.Proofs.Facade.Registry
import CilRelink.Proofs.Reference.Identity
import CilRelink.Proofs.Rule.Stock

/-!
# Calling what was redirected

A reference is redirected by the facade that stands in for its declaring type, to the first member or constructor of
the facade that it means. When the new reference is called, the facade is looked up once more, by its own type, and the
member by the new signature. The new signature is the old one, assemblies aside, and assemblies play no part in what a
reference means. So the call ends where the reference was redirected to, as long as no other facade has the type of
this one.
-/

namespace CilRelink

variable {facades : List Facade} {facade : Facade} {context : RuleContext}
variable {reference other redirected offered : MethodRef} {method : HostMethod} {declaring : HostType}

namespace MethodRef

/-- Whether two references have the same name and parameter types, assemblies aside. -/
def AgreesOnCall (left right : MethodRef) : Prop :=
  left.name = right.name ∧
    left.parameters.map TypeRef.withoutAssemblies = right.parameters.map TypeRef.withoutAssemblies

end MethodRef

namespace HostMethod

theorem hasSignature_congr (agree : reference.AgreesOnCall other) :
    method.hasSignature reference = method.hasSignature other := by
  have parameters := agree.2
  rw [← TypeRef.eachWithoutAssemblies_eq_map, ← TypeRef.eachWithoutAssemblies_eq_map] at parameters
  rw [hasSignature, hasSignature, agree.1, ← HostType.areDenotedBy_withoutAssemblies, parameters,
    HostType.areDenotedBy_withoutAssemblies]

theorem agreesOnCall_of_hasSignature (signature : method.hasSignature reference = true) :
    (method.reference declaring).AgreesOnCall reference := by
  simp only [hasSignature, Bool.and_eq_true, decide_eq_true_eq] at signature
  rcases signature with ⟨sameName, denoted⟩
  have parameters := HostType.eachWithoutAssemblies_eq_of_areDenotedBy _ _ denoted
  simp only [HostType.references_eq_map, TypeRef.eachWithoutAssemblies_eq_map, List.map_map] at parameters
  refine ⟨sameName, ?_⟩
  rw [← parameters]
  simp [HostMethod.reference]

end HostMethod

namespace Facade

theorem findMember?_congr (agree : reference.AgreesOnCall other)
    (returned : reference.returnType.withoutAssemblies = other.returnType.withoutAssemblies) :
    facade.findMember? reference = facade.findMember? other := by
  unfold findMember?
  congr 1
  funext member
  rw [HostMethod.hasSignature_congr agree, ← HostType.isDenotedBy_withoutAssemblies, returned,
    HostType.isDenotedBy_withoutAssemblies]

theorem findConstructor?_congr (agree : reference.AgreesOnCall other) :
    facade.findConstructor? reference = facade.findConstructor? other := by
  have predicate : (fun method : HostMethod => method.hasSignature reference) = (·.hasSignature other) :=
    funext fun _ => HostMethod.hasSignature_congr agree
  rw [findConstructor?, findConstructor?, MethodRef.isConstructor, MethodRef.isConstructor, agree.1, predicate]

theorem exists_member_of_retarget? (retargeted : facade.retarget? reference = some offered)
    (calls : reference.isConstructor = false) :
    ∃ member, facade.findMember? reference = some member ∧ offered = member.method.reference facade.type := by
  rcases Option.map_eq_some_iff.mp retargeted with ⟨method, found, rfl⟩
  rw [calls, if_neg Bool.false_ne_true] at found
  rcases Option.map_eq_some_iff.mp found with ⟨member, means, rfl⟩
  exact ⟨member, means, rfl⟩

theorem exists_constructor_of_retarget? (retargeted : facade.retarget? reference = some offered)
    (constructs : reference.isConstructor = true) :
    ∃ constructor, facade.findConstructor? reference = some constructor ∧
      offered = constructor.reference facade.type := by
  rcases Option.map_eq_some_iff.mp retargeted with ⟨constructor, means, rfl⟩
  rw [constructs, if_pos rfl] at means
  exact ⟨constructor, means, rfl⟩

theorem agreesOnCall_of_retarget? (retargeted : facade.retarget? reference = some offered) :
    offered.AgreesOnCall reference := by
  cases constructs : reference.isConstructor with
  | false =>
      rcases exists_member_of_retarget? retargeted constructs with ⟨member, found, rfl⟩
      have means := List.find?_some found
      rw [Bool.and_eq_true] at means
      exact HostMethod.agreesOnCall_of_hasSignature means.1
  | true =>
      rcases exists_constructor_of_retarget? retargeted constructs with ⟨constructor, found, rfl⟩
      rw [findConstructor?, if_pos constructs] at found
      have means := List.find?_some found
      exact HostMethod.agreesOnCall_of_hasSignature means

theorem returnType_of_findMember? {member : FacadeMember} (found : facade.findMember? reference = some member) :
    member.method.returnType.reference.withoutAssemblies = reference.returnType.withoutAssemblies := by
  have means := List.find?_some found
  rw [Bool.and_eq_true] at means
  exact HostType.withoutAssemblies_eq_of_isDenotedBy _ _ means.2

theorem invoke_of_findMember? {member : FacadeMember} {receiver : GameObject} {arguments : List HostValue}
    (found : facade.findMember? reference = some member) (count : arguments.length = member.method.parameters.length) :
    facade.invoke reference receiver arguments = member.invoke receiver arguments := by
  rw [invoke, found]
  simp [count]

theorem construct_of_findConstructor? {constructor : HostMethod}
    (found : facade.findConstructor? reference = some constructor) (arguments : List HostValue) :
    facade.construct reference arguments = facade.base.construct arguments >>= facade.wrap := by
  rw [construct, found]

end Facade

namespace FacadeRegistry

/-- If a facade offers a reference in place of another, and no two facades have the same type, then the facade is found
again under the declaring type of what it offers, and in it the member or constructor that the other reference meant,
which is what a call of the new reference runs. The name and the generic arguments are those of the other reference,
and so are the types in the signature, assemblies aside. Only a map of methods takes precedence over a facade. -/
theorem redirected_dispatches (distinct : (facades.filterMap (·.type.definitionName)).Nodup)
    (registered : context.facades = .holding facades)
    (offered : Redirections.facadeMethod context reference = some redirected) :
    ∃ facade ∈ facades,
      context.facades.forReplaced? reference.declaringType = some facade ∧
      context.facades.find? redirected.declaringType = some facade ∧
      (reference.isConstructor = false → ∃ member,
        facade.findMember? reference = some member ∧ facade.findMember? redirected = some member ∧
        redirected.returnType.withoutAssemblies = reference.returnType.withoutAssemblies ∧
        ∀ receiver arguments, arguments.length = member.method.parameters.length →
          context.facades.invoke redirected receiver arguments = member.invoke receiver arguments) ∧
      (reference.isConstructor = true → ∃ constructor,
        facade.findConstructor? reference = some constructor ∧ facade.findConstructor? redirected = some constructor ∧
        ∀ arguments,
          context.facades.construct redirected arguments = facade.base.construct arguments >>= facade.wrap) ∧
      redirected.name = reference.name ∧
      redirected.genericArguments = reference.genericArguments ∧
      redirected.parameters.map TypeRef.withoutAssemblies = reference.parameters.map TypeRef.withoutAssemblies ∧
      ∀ redirections : Redirections, redirections.mappedMethod context reference = none →
        redirections.redirectMethod context reference = some (redirected, .exact) := by
  rcases Redirections.facadeMethod_eq_some_iff.mp offered with ⟨facade, original, found, _, retargeted, sameCall⟩
  -- generic arguments play no part in what a reference means
  have agree : redirected.AgreesOnCall reference := by
    have originalAgrees := Facade.agreesOnCall_of_retarget? retargeted
    rw [sameCall]
    exact originalAgrees
  have facadeMem : facade ∈ facades.filter Facade.isKeyed := by
    rw [registered] at found
    exact (mem_of_forReplaced?_holding found).1
  have again : context.facades.find? redirected.declaringType = some facade := by
    have declaringType := Facade.declaringType_of_retarget? retargeted
    simp only [registered, sameCall, declaringType]
    exact find?_type_holding distinct facadeMem
  have declared : context.facades.declaring redirected = .ok facade := by
    rw [declaring, again]
  refine ⟨facade, List.mem_of_mem_filter facadeMem, found, again, ?_, ?_, agree.1, ?_, agree.2, ?_⟩
  · intro calls
    rcases Facade.exists_member_of_retarget? retargeted calls with ⟨member, means, same⟩
    have returned : redirected.returnType.withoutAssemblies = reference.returnType.withoutAssemblies := by
      rw [sameCall, same]
      exact Facade.returnType_of_findMember? means
    have meansAgain : facade.findMember? redirected = some member := by
      rw [Facade.findMember?_congr agree returned, means]
    refine ⟨member, means, meansAgain, returned, ?_⟩
    intro receiver arguments count
    rw [invoke, declared]
    exact Facade.invoke_of_findMember? meansAgain count
  · intro constructs
    rcases Facade.exists_constructor_of_retarget? retargeted constructs with ⟨constructor, means, _⟩
    have meansAgain : facade.findConstructor? redirected = some constructor := by
      rw [Facade.findConstructor?_congr agree, means]
    refine ⟨constructor, means, meansAgain, ?_⟩
    intro arguments
    rw [construct, declared]
    exact Facade.construct_of_findConstructor? meansAgain arguments
  · rw [sameCall]
  · intro redirections unmapped
    rw [Redirections.redirectMethod, unmapped, offered]
    rfl

theorem redirected_dispatches_getSeason :
    let context : RuleContext := ⟨Game.table, .shipped, .strict⟩
    let reference : MethodRef :=
      ⟨TypeRef.simple "StardewValley" "WorldDate", "get_Season", TypeRef.simple "System" "String", [], true, []⟩
    let redirected : MethodRef := { reference with declaringType := (Facade.typeNamed "WorldDateFacade").reference }
    (Facade.shipped.filterMap (·.type.definitionName)).Nodup ∧ context.facades = holding Facade.shipped ∧
      Redirections.facadeMethod context reference = some redirected ∧
      ∃ facade ∈ Facade.shipped, context.facades.find? redirected.declaringType = some facade ∧
        ∃ member, facade.findMember? redirected = some member ∧ ∀ receiver arguments,
          arguments.length = member.method.parameters.length →
            context.facades.invoke redirected receiver arguments = member.invoke receiver arguments := by
  intro context reference redirected
  have distinct : (Facade.shipped.filterMap (·.type.definitionName)).Nodup := by decide +kernel
  have offered : Redirections.facadeMethod context reference = some redirected := by decide +kernel
  have registered : context.facades = holding Facade.shipped := rfl
  rcases redirected_dispatches distinct registered offered with ⟨facade, facadeMem, _, again, calls, _⟩
  rcases calls (by decide +kernel) with ⟨member, _, means, _, invokes⟩
  exact ⟨distinct, registered, offered, facade, facadeMem, again, member, means, invokes⟩

end FacadeRegistry

end CilRelink
