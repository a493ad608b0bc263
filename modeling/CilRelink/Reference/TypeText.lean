import CilRelink.Reference.Type
import CilRelink.Text.Outline

/-!
# Texts of type references

The full name of a type lists its definition name and its arguments; arrays, references and pointers decorate the
name of their element. The simple name decorates in the same way but leaves out namespace and arguments.
-/
namespace CilRelink

open Text (Outline)

/-- The declared name, or else the position behind one mark for a type's parameter and two for a method's. -/
def Placeholder.text : Placeholder → String
  | ⟨_, _, some name⟩ => name
  | ⟨.type, index, none⟩ => s!"!{index}"
  | ⟨.method, index, none⟩ => s!"!!{index}"

namespace TypeRef

/-- The brackets of an array: a comma between each two of its dimensions. -/
def arrayBrackets (rank : Nat) : String :=
  "[" ++ String.ofList (List.replicate (rank - 1) ',') ++ "]"

/-- The simple name, decorated. -/
def simpleName : TypeRef → String
  | .named type => type.name
  | .placeholder parameter => parameter.text
  | .array element rank => simpleName element ++ arrayBrackets rank
  | .byRef target => simpleName target ++ "&"
  | .pointer target => simpleName target ++ "*"

mutual

/-- The full name, decorated. -/
def text : TypeRef → String
  | .named ⟨dotted, name, enclosing, arguments, assembly⟩ =>
    NamedType.definitionName ⟨dotted, name, enclosing, arguments, assembly⟩ ++
      match arguments with
      | [] => ""
      | first :: rest => "<" ++ text first ++ textOfMore rest ++ ">"
  | .placeholder parameter => parameter.text
  | .array element rank => text element ++ arrayBrackets rank
  | .byRef target => text target ++ "&"
  | .pointer target => text target ++ "*"

/-- The full names of further arguments, each behind a comma. -/
def textOfMore : List TypeRef → String
  | [] => ""
  | type :: types => "," ++ text type ++ textOfMore types

end

/-- The full names of the types with commas between them. -/
def listText (types : List TypeRef) : String := ",".intercalate (types.map text)

end TypeRef

/-- The owner in outlines of values. -/
def PlaceholderOwner.outline : PlaceholderOwner → Outline
  | .type => .word "Type"
  | .method => .word "Method"

/-- The placeholder in outlines of values. -/
def Placeholder.outline (parameter : Placeholder) : Outline :=
  .fields "GenericParam"
    [("owner", parameter.owner.outline), ("index", .nat parameter.index),
      ("name", .optional .string parameter.name)]

mutual

/-- The reference in outlines of values. -/
def TypeRef.outline : TypeRef → Outline
  | .named type => .tagged "Named" [NamedType.outline type]
  | .placeholder parameter => .tagged "GenericParam" [parameter.outline]
  | .array element rank => .fields "Array" [("element", TypeRef.outline element), ("rank", .nat rank)]
  | .byRef target => .tagged "ByRef" [TypeRef.outline target]
  | .pointer target => .tagged "Pointer" [TypeRef.outline target]

/-- The named type in outlines of values. -/
def NamedType.outline : NamedType → Outline
  | ⟨dotted, name, none, arguments, assembly⟩ =>
    .fields "NamedType"
      [("namespace", .string dotted), ("name", .string name), ("declaring", .word "None"),
        ("generic_args", .items (TypeRef.outlines arguments)), ("scope", .optional .string assembly)]
  | ⟨dotted, name, some outer, arguments, assembly⟩ =>
    .fields "NamedType"
      [("namespace", .string dotted), ("name", .string name),
        ("declaring", .tagged "Some" [NamedType.outline outer]),
        ("generic_args", .items (TypeRef.outlines arguments)), ("scope", .optional .string assembly)]

/-- The references in outlines of values. -/
def TypeRef.outlines : List TypeRef → List Outline
  | [] => []
  | type :: types => TypeRef.outline type :: TypeRef.outlines types

end

end CilRelink
