import CilRelink.Rule.Verdict

/-!
# Inlining literal fields

A static field that became a literal has no storage, so reading it fails at run time and the value is loaded
instead. Values can be given for fields that are gone. Writing such a field, or taking its address, cannot be
repaired.
-/
namespace CilRelink

/-- Values given for static fields, the first for a field counting. -/
structure Literals where
  values : List (FieldRef × HostValue)
deriving DecidableEq

/-- Whether two references mean the same field, its type included. -/
def FieldRef.denotesSame (left right : FieldRef) : Bool :=
  left.name = right.name && left.declaringType.denotesSame right.declaringType &&
    left.fieldType.denotesSame right.fieldType

namespace Literals

/-- The value of a literal field of the host of the same type. -/
def hostValue? (host : HostTable) (reference : FieldRef) : Option HostValue := do
  let definition ← host.find? reference.declaringType
  let field ← definition.field? reference.name
  if field.isStatic && field.fieldType.isDenotedBy reference.fieldType then field.constant else none

/-- The value of a field: the one given, or else that of the host. -/
def value? (literals : Literals) (host : HostTable) (reference : FieldRef) : Option HostValue :=
  match literals.values.find? (·.1.denotesSame reference) with
  | some (_, value) => some value
  | none => hostValue? host reference

/-- Has the access to a literal field replaced by a load. -/
def judge (literals : Literals) (context : RuleContext) (instruction : Instruction) : Option Verdict :=
  match instruction.operand with
  | .field reference =>
    if !instruction.opcode.accessesStaticField then none
    else
      (literals.value? context.host reference).map fun value =>
        if instruction.accessedField?.isNone || instruction.opcode.storesField then
          .incompatible (.constantNotStorage reference)
        else
          match value.load? with
          | none => .incompatible (.constantKind reference value)
          | some load => .rewritten [] load .exact
  | _ => none

end Literals

end CilRelink
