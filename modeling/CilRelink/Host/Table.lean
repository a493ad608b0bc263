import CilRelink.Host.Binding
import CilRelink.Dictionary
import CilRelink.LogRecord

/-!
# The table of live types

Definitions stand under their definition names, so that a reference to any instance of a generic type finds the
definition of the generic type. The table also knows which assemblies belong to the host: those announced, and those
that declare a type in it.
-/
namespace CilRelink

/-- The live types and the assemblies of the host. -/
structure HostTable where
  definitions : Dictionary String HostDefinition
  assemblies : List String
deriving DecidableEq

/-- What became of a request to register something. -/
structure Registration (Table : Type) where
  accepted : Bool
  table : Table
  log : List LogRecord

namespace HostTable

/-- The table that knows nothing. -/
def empty : HostTable := ⟨.empty, []⟩

/-- Announces an assembly of the host. -/
def registerAssembly (table : HostTable) (name : String) : HostTable :=
  { table with assemblies := if name ∈ table.assemblies then table.assemblies else name :: table.assemblies }

/-- Enters a definition in place of any other of the same name and announces its assembly. A type without a
definition name is refused. -/
def register (table : HostTable) (definition : HostDefinition) : Registration HostTable :=
  match definition.type.definitionName with
  | none =>
    ⟨false, table,
      [⟨.warn, s!"host type {definition.type.text} has no definition name, not registered"⟩]⟩
  | some key =>
    let announced :=
      match definition.type.assembly with
      | none => table
      | some assembly => table.registerAssembly assembly
    ⟨true, { announced with definitions := announced.definitions.insert key definition }, []⟩

/-- Enters definitions one after the other. -/
def registerAll (table : HostTable) : List HostDefinition → List LogRecord × HostTable
  | [] => ([], table)
  | definition :: definitions =>
    let registration := table.register definition
    let (log, full) := registration.table.registerAll definitions
    (registration.log ++ log, full)

/-- Whether an assembly belongs to the host. -/
def ownsAssembly (table : HostTable) (name : String) : Bool := name ∈ table.assemblies

/-- Whether a reference points into an assembly of the host. -/
def owns (table : HostTable) (reference : TypeRef) : Bool :=
  match reference.assembly with
  | none => false
  | some assembly => table.ownsAssembly assembly

/-- The definition under a definition name. -/
def findByName? (table : HostTable) (name : String) : Option HostDefinition := table.definitions.find? name

/-- The definition that a reference names; only named types have one. -/
def find? (table : HostTable) (reference : TypeRef) : Option HostDefinition :=
  reference.definitionName.bind table.findByName?

/-- The number of definitions. -/
def size (table : HostTable) : Nat := table.definitions.size

end HostTable

end CilRelink
