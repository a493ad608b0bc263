import CilRelink.Rule.Breakage
import CilRelink.Rule.Completion
import CilRelink.Rule.Literal
import CilRelink.Rule.Redirect

/-!
# The four kinds of rules

The stock rules redirect first, then inline literals, then complete calls, and last report what is left broken.
-/
namespace CilRelink

/-- A rule. -/
inductive Rule where
  | redirect (redirections : Redirections)
  | inlineLiterals (literals : Literals)
  | completeCalls
  | reportBreakage

namespace Rule

/-- The name in logs and reports. -/
def name : Rule → String
  | redirect _ => "replace-references"
  | inlineLiterals _ => "constant-fields"
  | completeCalls => "optional-parameters"
  | reportBreakage => "broken-references"

/-- What the rule decides about an instruction, unless it leaves it alone. -/
def judge (rule : Rule) (context : RuleContext) (instruction : Instruction) : Option Verdict :=
  match rule with
  | redirect redirections => redirections.judge context instruction
  | inlineLiterals literals => literals.judge context instruction
  | completeCalls => Completion.judge context instruction
  | reportBreakage => Breakage.judge context instruction

/-- Rules do not look at positions, so edits elsewhere in the body do not change what they decide. -/
theorem judge_mapPositions (rule : Rule) (context : RuleContext) (instruction : Instruction) (move : Nat → Nat) :
    rule.judge context (instruction.mapPositions move) = rule.judge context instruction := by
  cases rule with
  | completeCalls =>
    simp only [judge, Completion.judge, Instruction.invokedMethod?_mapPositions]
    rfl
  | _ =>
    rcases instruction with ⟨offset, opcode, operand⟩
    cases operand <;> rfl

/-- Applies the rule to the instruction at `place`, if there is one. -/
def apply (rule : Rule) (context : RuleContext) (body : Body) (place : Nat) :
    Except Error (Option Verdict × Body) :=
  match body.instructions[place]?.bind (rule.judge context) with
  | none => .ok (none, body)
  | some verdict => (some verdict, ·) <$> body.carryOut place verdict

/-- The stock rules. -/
def stock : List Rule := [redirect .empty, inlineLiterals ⟨[]⟩, completeCalls, reportBreakage]

end Rule

end CilRelink
