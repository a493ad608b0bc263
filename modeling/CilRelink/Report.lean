import CilRelink.Reference.Resemblance

/-!
# Reports

What rewriting did to the methods of a binary, and which references it left broken.
-/
namespace CilRelink

/-- A reference that no rule could repair. -/
structure Incompatibility where
  method : String
  /-- The position of the instruction when it was looked at. -/
  position : Nat
  rule : String
  reason : String
deriving DecidableEq

/-- The incompatibility as a line. -/
def Incompatibility.text (incompatibility : Incompatibility) : String :=
  s!"{incompatibility.method} #{incompatibility.position} ({incompatibility.rule}): {incompatibility.reason}"

/-- A rewrite that rests on a resemblance. -/
structure HeuristicMatch where
  method : String
  /-- The position of the instruction when it was rewritten. -/
  position : Nat
  rule : String
deriving DecidableEq

/-- What rewriting did to one method. -/
structure MethodReport where
  method : String
  rewrites : Nat
  widened : Nat
  incompatibilities : List Incompatibility
  heuristicMatches : List HeuristicMatch
deriving DecidableEq

namespace MethodReport

/-- Whether an instruction was rewritten. -/
def isModified (report : MethodReport) : Bool := 0 < report.rewrites

/-- Whether no broken reference is left. -/
def isCompatible (report : MethodReport) : Bool := report.incompatibilities.isEmpty

end MethodReport

/-- What rewriting did to the methods of a binary, in their order. -/
structure Report where
  methods : List MethodReport
deriving DecidableEq

namespace Report

/-- The number of rewritten instructions. -/
def rewrites (report : Report) : Nat := (report.methods.map MethodReport.rewrites).sum

/-- The number of widened branches. -/
def widened (report : Report) : Nat := (report.methods.map MethodReport.widened).sum

/-- The number of methods with a rewritten instruction. -/
def modifiedMethods (report : Report) : Nat := report.methods.countP MethodReport.isModified

/-- All broken references. -/
def incompatibilities (report : Report) : List Incompatibility :=
  report.methods.flatMap MethodReport.incompatibilities

/-- All rewrites that rest on a resemblance. -/
def heuristicMatches (report : Report) : List HeuristicMatch :=
  report.methods.flatMap MethodReport.heuristicMatches

/-- Whether no broken reference is left. -/
def isCompatible (report : Report) : Bool := report.methods.all MethodReport.isCompatible

/-- The totals on one line, and a line for each broken reference. -/
def text (report : Report) : String :=
  s!"{report.rewrites} rewrites in {report.modifiedMethods} of {report.methods.length} methods, " ++
    s!"{report.widened} branches widened" ++
    String.join (report.incompatibilities.map fun incompatibility => "\n  " ++ incompatibility.text)

end Report

end CilRelink
