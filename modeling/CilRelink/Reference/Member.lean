import CilRelink.Reference.TypeText

/-!
# Member references

Fields and methods as compiled code refers to them, and symbols, which are a type, a field or a method. The text of
a member puts its type first and two colons between the declaring type and the name.
-/
namespace CilRelink

open Text (Outline)

/-- A field as compiled code refers to it. -/
structure FieldRef where
  declaringType : TypeRef
  name : String
  fieldType : TypeRef
deriving DecidableEq, Inhabited

/-- A method as compiled code refers to it. The instance that `hasThis` announces is not among the parameters. -/
structure MethodRef where
  declaringType : TypeRef
  name : String
  returnType : TypeRef
  parameters : List TypeRef
  hasThis : Bool
  genericArguments : List TypeRef
deriving DecidableEq, Inhabited

/-- What a token may name, strings and signatures apart. -/
inductive Symbol where
  | type (type : TypeRef)
  | field (field : FieldRef)
  | method (method : MethodRef)
deriving DecidableEq, Inhabited

/-- Whether a method of this name constructs instances or initialises its type. -/
def isConstructorName (name : String) : Bool := name == ".ctor" || name == ".cctor"

namespace FieldRef

/-- The field in listings and messages. -/
def text (field : FieldRef) : String :=
  field.fieldType.text ++ " " ++ field.declaringType.text ++ "::" ++ field.name

/-- The field in outlines of values. -/
def outline (field : FieldRef) : Outline :=
  .fields "FieldRef"
    [("declaring_type", field.declaringType.outline), ("name", .string field.name),
      ("field_type", field.fieldType.outline)]

end FieldRef

namespace MethodRef

/-- The instance constructor of `type` that takes `parameters`. -/
def constructor (type : TypeRef) (parameters : List TypeRef) : MethodRef :=
  ⟨type, ".ctor", TypeRef.void, parameters, true, []⟩

/-- Whether the reference is to a constructor. -/
def isConstructor (method : MethodRef) : Bool := isConstructorName method.name

/-- The method in listings and messages. -/
def text (method : MethodRef) : String :=
  method.returnType.text ++ " " ++ method.declaringType.text ++ "::" ++ method.name ++
    (if method.genericArguments.isEmpty then "" else "<" ++ TypeRef.listText method.genericArguments ++ ">") ++
    "(" ++ TypeRef.listText method.parameters ++ ")"

/-- The method in outlines of values. -/
def outline (method : MethodRef) : Outline :=
  .fields "MethodRef"
    [("declaring_type", method.declaringType.outline), ("name", .string method.name),
      ("return_type", method.returnType.outline), ("parameters", .listOf TypeRef.outline method.parameters),
      ("has_this", .bool method.hasThis), ("generic_args", .listOf TypeRef.outline method.genericArguments)]

end MethodRef

namespace Symbol

/-- The word for the kind of symbol. -/
def kind : Symbol → String
  | .type _ => "type"
  | .field _ => "field"
  | .method _ => "method"

/-- The symbol in listings and messages. -/
def text : Symbol → String
  | .type reference => reference.text
  | .field reference => reference.text
  | .method reference => reference.text

/-- The symbol in outlines of values. -/
def outline : Symbol → Outline
  | .type reference => .tagged "Type" [reference.outline]
  | .field reference => .tagged "Field" [reference.outline]
  | .method reference => .tagged "Method" [reference.outline]

end Symbol

end CilRelink
