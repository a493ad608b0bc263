import CilRelink.Reference.Member

/-!
# Identity of references

Two references denote the same type if they have the same shape, namespaces, names, enclosing types and arguments;
the assemblies they are looked up in play no part. A placeholder is the same only as itself.
-/
namespace CilRelink

mutual

/-- Whether two references denote the same type. -/
def TypeRef.denotesSame : (left right : TypeRef) → Bool
  | .named left, .named right => NamedType.denotesSame left right
  | .placeholder left, .placeholder right => left = right
  | .array left leftRank, .array right rightRank => leftRank = rightRank && TypeRef.denotesSame left right
  | .byRef left, .byRef right => TypeRef.denotesSame left right
  | .pointer left, .pointer right => TypeRef.denotesSame left right
  | _, _ => false

/-- Whether two named references denote the same type. -/
def NamedType.denotesSame : (left right : NamedType) → Bool
  | ⟨leftSpace, leftName, none, leftArguments, _⟩, ⟨rightSpace, rightName, none, rightArguments, _⟩ =>
    leftSpace = rightSpace && leftName = rightName && TypeRef.denoteSame leftArguments rightArguments
  | ⟨leftSpace, leftName, some leftOuter, leftArguments, _⟩,
      ⟨rightSpace, rightName, some rightOuter, rightArguments, _⟩ =>
    leftSpace = rightSpace && leftName = rightName && NamedType.denotesSame leftOuter rightOuter &&
      TypeRef.denoteSame leftArguments rightArguments
  | _, _ => false

/-- Whether the references of two lists denote the same types, one by one. -/
def TypeRef.denoteSame : (left right : List TypeRef) → Bool
  | [], [] => true
  | left :: lefts, right :: rights => TypeRef.denotesSame left right && TypeRef.denoteSame lefts rights
  | _, _ => false

end

/-- Whether two references have the same name and parameter types; what they return is left open. -/
def MethodRef.sameSignature (left right : MethodRef) : Bool :=
  left.name = right.name && TypeRef.denoteSame left.parameters right.parameters

end CilRelink
