import CilRelink.Error

/-!
# Offsets of instructions

Where each instruction begins follows from the sizes of those before it. Offsets are numbers of 32 bits and
positions are indices of 64 bits; both limits are checked here.
-/
namespace CilRelink.Code

/-- The offsets of the instructions when the first begins at `start`, and behind them the end of the last. -/
def offsetsFrom (start : Nat) : List Instruction → List Nat
  | [] => [start]
  | instruction :: instructions => start :: offsetsFrom (start + instruction.size) instructions

/-- The number of bytes of the instructions. -/
def size (instructions : List Instruction) : Nat := (instructions.map Instruction.size).sum

/-- The offsets of the instructions and the end of the code, unless it is too large for them. -/
def offsets (instructions : List Instruction) : Except Error (List Nat) :=
  if size instructions < 2 ^ 32 then .ok (offsetsFrom 0 instructions) else .error (.structural .codeTooLarge)

/-- The instructions with their offsets written into them, the first at `start`. -/
def placeFrom (start : Nat) : List Instruction → List Instruction
  | [] => []
  | instruction :: instructions =>
    { instruction with offset := start } :: placeFrom (start + instruction.size) instructions

/-- Indices are below this limit. -/
def indexLimit : Nat := 2 ^ 64

/-- How far a branch at `position`, after which the code goes on at `next`, is from the instruction at `target`.
The check that there is such an instruction looks at the index after it, which has to be an index too. -/
def displacement (offsets : Array Nat) (position next target : Nat) : Except Error Int :=
  if indexLimit ≤ target + 1 then .error .positionOverflow
  else if inside : target + 1 < offsets.size then .ok ((offsets[target] : Int) - next)
  else .error (.structural (.targetOutside position target (offsets.size - 1)))

/-- Whether a displacement fits one byte. -/
def fitsByte (displacement : Int) : Bool := -128 ≤ displacement && displacement ≤ 127

/-- Whether a displacement fits four bytes. -/
def fitsWord (displacement : Int) : Bool := -2 ^ 31 ≤ displacement && displacement < 2 ^ 31

/-- Halves a range of `count` positions that begins at `first` until one is left. The lower half is kept if the
instruction in the middle begins behind `offset`, and else the upper. -/
def bisect (instructions : Array Instruction) (offset first count : Nat) : Nat :=
  if 1 < count then
    let half := count / 2
    let middle := first + half
    if instructions[middle]?.any (offset < ·.offset) then bisect instructions offset first (count - half)
    else bisect instructions offset middle (count - half)
  else first
termination_by count

/-- The position of the instruction that begins at `offset`; the end of the code counts as the position after the
last instruction. Only among instructions in the order of their offsets is every one found. -/
def positionOf? (instructions : List Instruction) (offset codeSize : Nat) : Option Nat :=
  if offset = codeSize then some instructions.length
  else
    let position := bisect instructions.toArray offset 0 instructions.length
    if instructions[position]?.any (·.offset = offset) then some position else none

end CilRelink.Code
