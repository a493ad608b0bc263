import CilRelink.Rule.Verdict

/-!
# Completing calls

A host method that gained optional parameters does not bind old calls any more, because calls name all parameters. If
a call matches no current method but the front part of one whose other parameters have defaults, the defaults are
loaded in front of the call, and the call is changed to that method. Branches to the call run through the loads.
-/
namespace CilRelink.Completion

/-- Whether a method takes what a reference gives and more, all of which has defaults. -/
def extendsCall (method : HostMethod) (reference : MethodRef) : Bool :=
  method.name = reference.name &&
    reference.parameters.length < method.parameters.length &&
    method.requiredCount ≤ reference.parameters.length &&
    HostType.areDenotedBy ((method.parameters.take reference.parameters.length).map HostParameter.type)
      reference.parameters

/-- The parameters that a reference leaves out. -/
def missing (method : HostMethod) (reference : MethodRef) : List HostParameter :=
  method.parameters.drop reference.parameters.length

/-- The loads of the defaults of parameters, or the first whose default cannot be loaded. -/
def loads : List HostParameter → Except HostParameter (List Instruction)
  | [] => .ok []
  | parameter :: parameters =>
    match parameter.default.bind HostValue.load? with
    | none => .error parameter
    | some load => (load :: ·) <$> loads parameters

/-- The reference to a method of `definition` in place of an old one, which keeps what belongs to the call. -/
def completed (definition : HostDefinition) (method : HostMethod) (reference : MethodRef) : MethodRef :=
  { method.reference definition.type with
    declaringType := reference.declaringType
    hasThis := reference.hasThis
    genericArguments := reference.genericArguments }

/-- Has the call of a method completed, or finds that a default cannot be loaded. -/
def complete (opcode : Opcode) (definition : HostDefinition) (method : HostMethod) (reference : MethodRef) : Verdict :=
  match loads (missing method reference) with
  | .error parameter => .incompatible (.defaultKind reference parameter.name)
  | .ok loads => .rewritten loads (.unplaced opcode (.method (completed definition method reference))) .exact

/-- Has a call completed that lacks arguments. -/
def judge (context : RuleContext) (instruction : Instruction) : Option Verdict := do
  let reference ← instruction.invokedMethod?
  let definition ← context.host.find? reference.declaringType
  if definition.declares reference then failure
  let method ← (definition.callables reference.name).find? (extendsCall · reference)
  return complete instruction.opcode definition method reference

end CilRelink.Completion
