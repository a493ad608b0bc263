import CilRelink.Host.Definition
import CilRelink.Reference.Identity

/-!
# Binding references to live members

A reference binds to a live type of the same shape, namespaces, names, enclosing types and arguments, and to a
method of the same name and parameter types. What the method returns plays no part in binding.
-/
namespace CilRelink

mutual

/-- Whether a reference denotes a live type. -/
def HostType.isDenotedBy : HostType → TypeRef → Bool
  | .named dotted name _ none arguments, .named ⟨refSpace, refName, none, refArguments, _⟩ =>
    dotted = refSpace && name = refName && HostType.areDenotedBy arguments refArguments
  | .named dotted name _ (some outer) arguments, .named ⟨refSpace, refName, some refOuter, refArguments, _⟩ =>
    dotted = refSpace && name = refName && HostType.isDenotedBy outer (.named refOuter) &&
      HostType.areDenotedBy arguments refArguments
  | .array element rank, .array refElement refRank => rank = refRank && HostType.isDenotedBy element refElement
  | .byRef target, .byRef refTarget => HostType.isDenotedBy target refTarget
  | .pointer target, .pointer refTarget => HostType.isDenotedBy target refTarget
  | _, _ => false

/-- Whether the references of a list denote the live types of another, one by one. -/
def HostType.areDenotedBy : List HostType → List TypeRef → Bool
  | [], [] => true
  | type :: types, reference :: references =>
    HostType.isDenotedBy type reference && HostType.areDenotedBy types references
  | _, _ => false

end

/-- Whether a method has the name and the parameter types of a reference. -/
def HostMethod.hasSignature (method : HostMethod) (reference : MethodRef) : Bool :=
  method.name = reference.name &&
    HostType.areDenotedBy (method.parameters.map HostParameter.type) reference.parameters

/-- Whether the type itself declares a member that the reference can bind to. -/
def HostDefinition.declares (definition : HostDefinition) (reference : MethodRef) : Bool :=
  (definition.callables reference.name).any (·.hasSignature reference)

/-- Whether a reference and a live type agree on namespace and simple name, a quick test that types with different
arguments pass. Nothing agrees only with nothing. -/
def HostType.sharesNameWith : Option HostType → Option TypeRef → Bool
  | none, none => true
  | some type, some reference =>
    reference.lookupNamespace = type.lookupNamespace && reference.simpleName = type.simpleName
  | _, _ => false

end CilRelink
