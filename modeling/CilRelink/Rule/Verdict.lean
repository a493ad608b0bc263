import CilRelink.Rule.Basic

/-!
# Verdicts

What a rule decides about an instruction is a verdict, and carrying one out is an edit of the body. The verdict says
what is to stand in the place of the instruction, so it does not need the body, and all rules edit in the same way.
-/
namespace CilRelink

/-- What a rule decides about an instruction that it does not leave alone. -/
inductive Verdict where
  /-- Another instruction takes its place, behind loads of constants. -/
  | rewritten (loads : List Instruction) (replacement : Instruction) (confidence : Confidence)
  /-- It refers to something that is gone. -/
  | incompatible (breakage : Breakage)
deriving DecidableEq

/-- The number of instructions that take the place of one. -/
def Verdict.span : Verdict → Nat
  | rewritten loads _ _ => loads.length + 1
  | incompatible _ => 1

/-- The depth of a stack that holds `count` values more, as far as a header can tell. -/
def deepen (maxStack : UInt16) (count : Nat) : UInt16 := UInt16.ofNat (min (maxStack.toNat + count) 65535)

namespace Body

/-- Puts instructions in front of the one at `place`, in their order. Branches to that one run through them. -/
def insertAllBefore : (place : Nat) → List Instruction → Body → Except Error Body
  | _, [], body => .ok body
  | place, instruction :: instructions, body => do
    insertAllBefore (place + 1) instructions (← body.insertBefore place instruction)

/-- Carries out a verdict on the instruction at `place`. Each load may need a place on the stack. -/
def carryOut (body : Body) (place : Nat) : Verdict → Except Error Body
  | .incompatible _ => .ok body
  | .rewritten loads replacement _ => do
    let loaded ← insertAllBefore place loads body
    let (_, rewritten) ← loaded.replace (place + loads.length) replacement
    return { rewritten with maxStack := deepen rewritten.maxStack loads.length }

end Body

end CilRelink
