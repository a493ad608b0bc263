import CilRelink.Rule.Verdict

/-!
# Redirecting references

References to what was renamed, moved or reshaped are replaced by what took its place. Maps tell which types, methods
and fields became which, and which fields became properties; facades take over what was lost. A member is looked up
in the maps of members first, then a method among the facades, and last the types in it are mapped.
-/
namespace CilRelink

/-- What became of types, methods and fields. Types stand under their definition names. -/
structure Redirections where
  types : Dictionary String TypeRef
  methods : List (MethodRef × MethodRef)
  fields : List (FieldRef × FieldRef)
  /-- Fields that became properties, with the getter and the setter if there are such. -/
  properties : List (FieldRef × Option MethodRef × Option MethodRef)

namespace Redirections

/-- No redirections of one's own; facades still apply. -/
def empty : Redirections := ⟨.empty, [], [], []⟩

/-- Every mention of the type `old` becomes `new`; only named types can be mapped. -/
def mapType (redirections : Redirections) (old new : TypeRef) : Redirections :=
  match old.definitionName with
  | some key => { redirections with types := redirections.types.insert key new }
  | none => redirections

/-- References to the method `old` become `new`. -/
def mapMethod (redirections : Redirections) (old new : MethodRef) : Redirections :=
  { redirections with methods := redirections.methods ++ [(old, new)] }

/-- References to the field `old` become `new`. -/
def mapField (redirections : Redirections) (old new : FieldRef) : Redirections :=
  { redirections with fields := redirections.fields ++ [(old, new)] }

/-- Accesses to the field `old` become calls of accessors. -/
def mapToProperty (redirections : Redirections) (old : FieldRef) (getter setter : Option MethodRef) :
    Redirections :=
  { redirections with properties := redirections.properties ++ [(old, getter, setter)] }

end Redirections

/-- The type with other arguments, if it is a named type. -/
def TypeRef.withArguments (type : TypeRef) (arguments : List TypeRef) : TypeRef :=
  match type with
  | .named type => .named { type with arguments }
  | other => other

mutual

/-- The type with the types in it mapped, if any of them is: a named type that is a key becomes its image, which takes
over the arguments if there are any. -/
def TypeRef.redirect (types : Dictionary String TypeRef) : TypeRef → Option TypeRef
  | .named ⟨dotted, name, enclosing, arguments, assembly⟩ =>
    let type : NamedType := ⟨dotted, name, enclosing, arguments, assembly⟩
    match types.find? type.definitionName, TypeRef.redirectEach types arguments with
    | none, none => none
    | image, changed =>
      let result := image.getD (.named type)
      some (if arguments.isEmpty then result else result.withArguments (changed.getD arguments))
  | .placeholder _ => none
  | .array element rank => (TypeRef.redirect types element).map (.array · rank)
  | .byRef target => (TypeRef.redirect types target).map .byRef
  | .pointer target => (TypeRef.redirect types target).map .pointer

/-- The types with the types in them mapped, if any of them is. -/
def TypeRef.redirectEach (types : Dictionary String TypeRef) : List TypeRef → Option (List TypeRef)
  | [] => none
  | type :: rest =>
    match TypeRef.redirect types type, TypeRef.redirectEach types rest with
    | none, none => none
    | first, others => some (first.getD type :: others.getD rest)

end

/-- The method with the types in it mapped, if any of them is. -/
def MethodRef.redirectTypes (types : Dictionary String TypeRef) (method : MethodRef) : Option MethodRef :=
  let declaring := method.declaringType.redirect types
  let returned := method.returnType.redirect types
  let parameters := TypeRef.redirectEach types method.parameters
  let arguments := TypeRef.redirectEach types method.genericArguments
  if declaring.isSome || returned.isSome || parameters.isSome || arguments.isSome then
    some
      { method with
        declaringType := declaring.getD method.declaringType
        returnType := returned.getD method.returnType
        parameters := parameters.getD method.parameters
        genericArguments := arguments.getD method.genericArguments }
  else none

/-- The field with the types in it mapped, if any of them is. -/
def FieldRef.redirectTypes (types : Dictionary String TypeRef) (field : FieldRef) : Option FieldRef :=
  let declaring := field.declaringType.redirect types
  let fieldType := field.fieldType.redirect types
  if declaring.isSome || fieldType.isSome then
    some
      { field with
        declaringType := declaring.getD field.declaringType
        fieldType := fieldType.getD field.fieldType }
  else none

/-- How sure it is that two references mean the same method, what it returns included. -/
def MethodRef.compare (left right : MethodRef) : Option Confidence := do
  let declaring ← left.declaringType.compare right.declaringType
  let signature ← left.compareSignature right
  let returned ← left.returnType.compare right.returnType
  return (declaring.weaker signature).weaker returned

/-- How sure it is that two references mean the same field, its type included. -/
def FieldRef.compare (left right : FieldRef) : Option Confidence := do
  if left.name ≠ right.name then failure
  let declaring ← left.declaringType.compare right.declaringType
  let fieldType ← left.fieldType.compare right.fieldType
  return declaring.weaker fieldType

namespace Redirections

/-- The confidence, if a match of it may be acted on. -/
def accepted (context : RuleContext) (confidence : Option Confidence) : Option Confidence :=
  confidence.filter context.accepts

/-- The image of a method in the map of methods. The reference's generic arguments carry over unless the image has
some of its own. -/
def mappedMethod (redirections : Redirections) (context : RuleContext) (reference : MethodRef) :
    Option (MethodRef × Confidence) :=
  redirections.methods.findSome? fun (old, new) =>
    (accepted context (old.compare reference)).map fun confidence =>
      (if new.genericArguments.isEmpty then { new with genericArguments := reference.genericArguments } else new,
        confidence)

/-- The image of a field in the map of fields. -/
def mappedField (redirections : Redirections) (context : RuleContext) (reference : FieldRef) :
    Option (FieldRef × Confidence) :=
  redirections.fields.findSome? fun (old, new) =>
    (accepted context (old.compare reference)).map fun confidence => (new, confidence)

/-- What a facade offers in place of a method, with the method's generic arguments. -/
def facadeMethod (context : RuleContext) (reference : MethodRef) : Option MethodRef := do
  let facade ← context.facades.forReplaced? reference.declaringType
  if !facade.replaces.isDenotedBy reference.declaringType then failure
  let method ← facade.retarget? reference
  return { method with genericArguments := reference.genericArguments }

/-- What takes the place of a called method. -/
def redirectMethod (redirections : Redirections) (context : RuleContext) (reference : MethodRef) :
    Option (MethodRef × Confidence) :=
  redirections.mappedMethod context reference
    <|> (facadeMethod context reference).map (·, .exact)
    <|> (reference.redirectTypes redirections.types).map (·, .exact)

/-- What takes the place of a field that is still a field. -/
def redirectField (redirections : Redirections) (context : RuleContext) (reference : FieldRef) :
    Option (FieldRef × Confidence) :=
  redirections.mappedField context reference
    <|> (reference.redirectTypes redirections.types).map (·, .exact)

/-- What takes the place of a symbol that is merely named; facades play no part. -/
def redirectSymbol (redirections : Redirections) (context : RuleContext) :
    Symbol → Option (Symbol × Confidence)
  | .type reference => (reference.redirect redirections.types).map (.type ·, .exact)
  | .method reference =>
    let image :=
      redirections.mappedMethod context reference
        <|> (reference.redirectTypes redirections.types).map (·, Confidence.exact)
    image.map fun (method, confidence) => (.method method, confidence)
  | .field reference =>
    (redirections.redirectField context reference).map fun (field, confidence) => (.field field, confidence)

/-- The accessor call that takes the place of an access to a field that became a property. -/
def accessorCall (instruction : Instruction) (reference : FieldRef) (getter setter : Option MethodRef) :
    Except Breakage Instruction :=
  if instruction.accessedField?.isNone then .error (.propertyAddress reference)
  else
    let invocation : Opcode := if instruction.opcode.accessesStaticField then .call else .callvirt
    if instruction.opcode.storesField then
      match setter with
      | some method => .ok (.unplaced invocation (.method method))
      | none => .error (.propertyNotWritable reference)
    else
      match getter with
      | some method => .ok (.unplaced invocation (.method method))
      | none => .error (.propertyNotReadable reference)

/-- The property that a field became, with the confidence in that. -/
def property? (redirections : Redirections) (context : RuleContext) (reference : FieldRef) :
    Option ((Option MethodRef × Option MethodRef) × Confidence) :=
  redirections.properties.findSome? fun (old, accessors) =>
    (accepted context (old.compare reference)).map fun confidence => (accessors, confidence)

/-- What takes the place of an instruction, if anything does. -/
def replacement (redirections : Redirections) (context : RuleContext) (instruction : Instruction) :
    Except Breakage (Option (Instruction × Confidence)) :=
  let withOperand (operand : Operand) (confidence : Confidence) : Option (Instruction × Confidence) :=
    (Instruction.checked instruction.opcode operand).toOption.map (·, confidence)
  match instruction.operand with
  | .method reference =>
    .ok ((redirections.redirectMethod context reference).bind fun (method, confidence) =>
      withOperand (.method method) confidence)
  | .field reference =>
    match redirections.property? context reference with
    | some ((getter, setter), confidence) =>
      (fun call => some (call, confidence)) <$> accessorCall instruction reference getter setter
    | none =>
      .ok ((redirections.redirectField context reference).bind fun (field, confidence) =>
        withOperand (.field field) confidence)
  | .type reference =>
    .ok ((reference.redirect redirections.types).bind fun type => withOperand (.type type) .exact)
  | .symbol reference =>
    .ok ((redirections.redirectSymbol context reference).bind fun (symbol, confidence) =>
      withOperand (.symbol symbol) confidence)
  | _ => .ok none

/-- Has the reference of an instruction redirected. -/
def judge (redirections : Redirections) (context : RuleContext) (instruction : Instruction) : Option Verdict :=
  match redirections.replacement context instruction with
  | .error breakage => some (.incompatible breakage)
  | .ok image => image.map fun (new, confidence) => .rewritten [] new confidence

end Redirections

end CilRelink
