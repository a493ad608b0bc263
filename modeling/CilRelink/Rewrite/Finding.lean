import CilRelink.LogRecord
import CilRelink.Report
import CilRelink.Rule

/-!
# Findings

What the rules decided about the instructions of one method, in order, and what logs and reports make of that.
-/
namespace CilRelink

/-- A verdict of a rule on the instruction that is at `place` once all findings before it are carried out. -/
structure Finding where
  place : Nat
  rule : Rule
  verdict : Verdict

namespace Finding

/-- Whether the instruction is rewritten. -/
def isRewrite (finding : Finding) : Bool :=
  match finding.verdict with
  | .rewritten .. => true
  | .incompatible _ => false

/-- The incompatibility in the method of a given name that was found, if it is one. -/
def incompatibility? (method : String) (finding : Finding) : Option Incompatibility :=
  match finding.verdict with
  | .rewritten .. => none
  | .incompatible breakage => some ⟨method, finding.place, finding.rule.name, breakage.reason⟩

/-- The rewrite in the method of a given name, if it rests on a resemblance. -/
def heuristicMatch? (method : String) (finding : Finding) : Option HeuristicMatch :=
  match finding.verdict with
  | .rewritten _ _ .heuristic => some ⟨method, finding.place, finding.rule.name⟩
  | _ => none

/-- The finding in the log. -/
def record (method : String) (finding : Finding) : LogRecord :=
  match finding.verdict with
  | .rewritten .. => ⟨.debug, s!"{method}: {finding.rule.name} rewrote instruction {finding.place}"⟩
  | .incompatible breakage =>
    ⟨.warn, s!"{method}: {finding.rule.name} at instruction {finding.place}: {breakage.reason}"⟩

end Finding

/-- The report on the method of a given name in which `findings` were carried out and `widened` branches widened. -/
def MethodReport.ofFindings (method : String) (findings : List Finding) (widened : Nat) : MethodReport where
  method := method
  rewrites := findings.countP Finding.isRewrite
  widened := widened
  incompatibilities := findings.filterMap (Finding.incompatibility? method)
  heuristicMatches := findings.filterMap (Finding.heuristicMatch? method)

end CilRelink
