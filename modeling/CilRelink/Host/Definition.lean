import CilRelink.Host.Value

/-!
# Definitions of live types

What a live type offers to compiled code: its base, its constructors, methods, fields and properties. A property is
seen by compiled code only through its accessors, so adding one adds them to the methods.
-/
namespace CilRelink

open Text (Outline)

/-- A parameter of a host method; one with a default may be left out by callers written against its source. -/
structure HostParameter where
  name : String
  type : HostType
  default : Option HostValue
deriving DecidableEq

/-- A method or constructor of a live type. -/
structure HostMethod where
  name : String
  parameters : List HostParameter
  returnType : HostType
  isStatic : Bool
deriving DecidableEq

/-- A field of a live type; `constant` is the value of a literal field. -/
structure HostField where
  name : String
  fieldType : HostType
  isStatic : Bool
  constant : Option HostValue
deriving DecidableEq

/-- A property of a live type. -/
structure HostProperty where
  name : String
  propertyType : HostType
  canRead : Bool
  canWrite : Bool
  isStatic : Bool
deriving DecidableEq

/-- A live type and what it offers. -/
structure HostDefinition where
  type : HostType
  base : Option HostType
  constructors : List HostMethod
  methods : List HostMethod
  fields : List HostField
  properties : List HostProperty
deriving DecidableEq

/-- The parameter in outlines of values. -/
def HostParameter.outline (parameter : HostParameter) : Outline :=
  .fields "HostParameter"
    [("name", .string parameter.name), ("ty", parameter.type.outline),
      ("default", .optional HostValue.outline parameter.default)]

namespace HostMethod

/-- An instance method without parameters. -/
def plain (name : String) (returnType : HostType) : HostMethod := ⟨name, [], returnType, false⟩

/-- An instance constructor without parameters. -/
def constructor : HostMethod := plain ".ctor" .void

/-- Adds a required parameter at the end. -/
def withParameter (method : HostMethod) (name : String) (type : HostType) : HostMethod :=
  { method with parameters := method.parameters ++ [⟨name, type, none⟩] }

/-- Adds a parameter with a default at the end. -/
def withDefault (method : HostMethod) (name : String) (type : HostType) (value : HostValue) : HostMethod :=
  { method with parameters := method.parameters ++ [⟨name, type, some value⟩] }

/-- Whether the method is a constructor. -/
def isConstructor (method : HostMethod) : Bool := isConstructorName method.name

/-- How many arguments a call has to give: up to the last parameter without a default. -/
def requiredCount (method : HostMethod) : Nat :=
  method.parameters.length - (method.parameters.reverse.takeWhile (·.default.isSome)).length

/-- The reference that compiled code uses for the method when `declaring` declares it. -/
def reference (method : HostMethod) (declaring : HostType) : MethodRef :=
  { declaringType := declaring.reference
    name := method.name
    returnType := method.returnType.reference
    parameters := method.parameters.map (·.type.reference)
    hasThis := !method.isStatic
    genericArguments := [] }

/-- The method in outlines of values. -/
def outline (method : HostMethod) : Outline :=
  .fields "HostMethod"
    [("name", .string method.name), ("parameters", .listOf HostParameter.outline method.parameters),
      ("return_type", method.returnType.outline), ("is_static", .bool method.isStatic)]

end HostMethod

/-- The reference that compiled code uses for the field when `declaring` declares it. -/
def HostField.reference (field : HostField) (declaring : HostType) : FieldRef :=
  ⟨declaring.reference, field.name, field.fieldType.reference⟩

/-- The name of the method that reads the property. -/
def HostProperty.getterName (property : HostProperty) : String := "get_" ++ property.name

/-- The name of the method that writes the property. -/
def HostProperty.setterName (property : HostProperty) : String := "set_" ++ property.name

namespace HostDefinition

/-- A type that offers nothing. -/
def empty (type : HostType) : HostDefinition := ⟨type, none, [], [], [], []⟩

/-- Sets the base. -/
def withBase (definition : HostDefinition) (base : HostType) : HostDefinition :=
  { definition with base := some base }

/-- Adds a constructor. -/
def withConstructor (definition : HostDefinition) (constructor : HostMethod) : HostDefinition :=
  { definition with constructors := definition.constructors ++ [constructor] }

/-- Adds a method. -/
def withMethod (definition : HostDefinition) (method : HostMethod) : HostDefinition :=
  { definition with methods := definition.methods ++ [method] }

/-- Adds a field. -/
def withField (definition : HostDefinition) (field : HostField) : HostDefinition :=
  { definition with fields := definition.fields ++ [field] }

/-- Adds an instance property and its accessors, the getter first. -/
def withProperty (definition : HostDefinition) (name : String) (type : HostType) (canRead canWrite : Bool) :
    HostDefinition :=
  let property : HostProperty := ⟨name, type, canRead, canWrite, false⟩
  let getters := if canRead then [HostMethod.plain property.getterName type] else []
  let setters :=
    if canWrite then [(HostMethod.plain property.setterName .void).withParameter "value" type] else []
  { definition with
    methods := definition.methods ++ getters ++ setters
    properties := definition.properties ++ [property] }

/-- The methods declared under `name`, in order. -/
def methodsNamed (definition : HostDefinition) (name : String) : List HostMethod :=
  definition.methods.filter (·.name = name)

/-- The first field declared under `name`. -/
def field? (definition : HostDefinition) (name : String) : Option HostField :=
  definition.fields.find? (·.name = name)

/-- The first property declared under `name`. -/
def property? (definition : HostDefinition) (name : String) : Option HostProperty :=
  definition.properties.find? (·.name = name)

/-- The members that a reference to a method of this name may bind to: constructors are kept apart. -/
def callables (definition : HostDefinition) (name : String) : List HostMethod :=
  if isConstructorName name then definition.constructors else definition.methods

end HostDefinition

end CilRelink
