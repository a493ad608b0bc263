import CilRelink.Body.Edit
import CilRelink.Facade.Registry
import CilRelink.Instruction.Checked
import CilRelink.Instruction.ConstantLoad
import CilRelink.Rewrite.Settings

/-!
# Rules

A rule looks at one instruction and leaves it alone, has it rewritten, or finds that it refers to something that is
gone for good. Each kind of rule has a module of its own; here is what they go by and what can be broken.
-/
namespace CilRelink

/-- What rules go by. -/
structure RuleContext where
  host : HostTable
  facades : FacadeRegistry
  settings : Settings

/-- Whether a match of a given confidence may be acted on. -/
def RuleContext.accepts (context : RuleContext) (confidence : Confidence) : Bool :=
  confidence = .exact || context.settings.allowHeuristic

/-- Why a reference is broken for good. -/
inductive Breakage where
  | propertyAddress (field : FieldRef)
  | propertyNotWritable (field : FieldRef)
  | propertyNotReadable (field : FieldRef)
  | constantNotStorage (field : FieldRef)
  | constantKind (field : FieldRef) (value : HostValue)
  | defaultKind (method : MethodRef) (parameter : String)
  | missingType (type : TypeRef)
  | missingMethod (method : MethodRef)
  | otherReturnType (method : MethodRef) (live : HostType)
  | missingField (field : FieldRef)
  | otherFieldType (field : FieldRef) (live : HostType)
deriving DecidableEq

/-- Why it is broken, in words. -/
def Breakage.reason : Breakage → String
  | propertyAddress field => s!"{field.text} is now a property and has no address"
  | propertyNotWritable field => s!"{field.text} is now a property that cannot be written"
  | propertyNotReadable field => s!"{field.text} is now a property that cannot be read"
  | constantNotStorage field => s!"{field.text} is a constant and cannot be written or have its address taken"
  | constantKind field value => s!"{field.text} has a {value.kindName} value, which cannot be inlined"
  | defaultKind method parameter =>
    s!"{method.text} lacks parameter '{parameter}' whose default cannot be injected"
  | missingType type => "no type " ++ type.text ++ " in " ++ type.assembly.getD ""
  | missingMethod method => s!"no method matching {method.text}"
  | otherReturnType method live => s!"{method.text} now returns {live.text}"
  | missingField field => s!"no field {field.text}"
  | otherFieldType field live => s!"{field.text} is now of type {live.text}"

end CilRelink
