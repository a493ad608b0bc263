import CilRelink.Instruction.Text

/-!
# Method bodies

A method body is a list of instructions with what its header says and with its exception clauses. Clauses cover
regions of the list, given by positions, so that they move with the instructions. The end of a region is the
position after its last instruction, and may be the length of the list.
-/
namespace CilRelink

open Text (Outline)

/-- The kind of an exception clause, as sixteen bits. Three of them have a meaning; a clause with no bit set handles
exceptions of a type. -/
structure ClauseFlags where
  bits : UInt16
deriving DecidableEq

namespace ClauseFlags

/-- The flags of a clause for exceptions of a type. -/
def typed : ClauseFlags := ⟨0x0000⟩

/-- The flag of a clause that asks a filter. -/
def filterFlag : ClauseFlags := ⟨0x0001⟩

/-- The flag of a clause that handles every way out. -/
def finallyFlag : ClauseFlags := ⟨0x0002⟩

/-- The flag of a clause that handles every exception. -/
def faultFlag : ClauseFlags := ⟨0x0004⟩

/-- The flags with a meaning, each with the word for it in outlines. -/
def words : List (ClauseFlags × String) :=
  [(filterFlag, "FILTER"), (finallyFlag, "FINALLY"), (faultFlag, "FAULT")]

/-- All bits with a meaning. -/
def definedBits : UInt16 := filterFlag.bits ||| finallyFlag.bits ||| faultFlag.bits

/-- Whether all bits of `flag` are set. -/
def contains (flags flag : ClauseFlags) : Bool := flags.bits &&& flag.bits = flag.bits

/-- Whether the clause asks a filter. -/
def isFilter (flags : ClauseFlags) : Bool := flags.contains filterFlag

/-- Whether the clause handles exceptions of a type. -/
def isTyped (flags : ClauseFlags) : Bool := flags = typed

/-- The flags without the bits that have no meaning. -/
def truncated (flags : ClauseFlags) : ClauseFlags := ⟨flags.bits &&& definedBits⟩

/-- The flags as a number. -/
def toNat (flags : ClauseFlags) : Nat := flags.bits.toNat

/-- The flags in the low bits of a number; bits without a meaning are dropped. -/
def ofNat (number : Nat) : ClauseFlags := truncated ⟨UInt16.ofNat number⟩

/-- The flags in outlines of values: words for the bits with a meaning, and the others as a number. -/
def outline (flags : ClauseFlags) : Outline :=
  let known := words.filterMap fun (flag, word) => if flags.contains flag then some word else none
  let others := flags.bits &&& ~~~definedBits
  let unknown := if others = 0 then [] else [Text.hexWithMark 1 others.toNat]
  .word ("ExceptionHandlerFlags(" ++ (if flags.isTyped then "0x0" else " | ".intercalate (known ++ unknown)) ++ ")")

end ClauseFlags

/-- An exception clause: a protected region and its handler. -/
structure Clause where
  flags : ClauseFlags
  tryStart : Nat
  tryEnd : Nat
  handlerStart : Nat
  handlerEnd : Nat
  /-- What a clause for exceptions of a type handles. -/
  catchType : Option TypeRef
  /-- Where the code that decides for a filter clause begins. -/
  filterStart : Option Nat
deriving DecidableEq

namespace Clause

/-- The clause with starts of regions sent through `moveStart` and ends through `moveEnd`. -/
def mapPositions (moveStart moveEnd : Nat → Nat) (clause : Clause) : Clause :=
  { clause with
    tryStart := moveStart clause.tryStart
    tryEnd := moveEnd clause.tryEnd
    handlerStart := moveStart clause.handlerStart
    handlerEnd := moveEnd clause.handlerEnd
    filterStart := clause.filterStart.map moveStart }

/-- The positions that the clause names. -/
def positions (clause : Clause) : List Nat :=
  [clause.tryStart, clause.tryEnd, clause.handlerStart, clause.handlerEnd] ++ clause.filterStart.toList

/-- The clause in outlines of values. -/
def outline (clause : Clause) : Outline :=
  .fields "ExceptionHandler"
    [("flags", clause.flags.outline), ("try_start", .nat clause.tryStart), ("try_end", .nat clause.tryEnd),
      ("handler_start", .nat clause.handlerStart), ("handler_end", .nat clause.handlerEnd),
      ("catch_type", .optional TypeRef.outline clause.catchType),
      ("filter_start", .optional .nat clause.filterStart)]

end Clause

/-- A method body. -/
structure Body where
  maxStack : UInt16
  localSignature : Token
  initLocals : Bool
  instructions : List Instruction
  clauses : List Clause
deriving DecidableEq

namespace Body

/-- The depth of the stack that a header of one byte stands for. -/
def defaultMaxStack : UInt16 := 8

/-- A body without local variables and clauses. -/
def ofInstructions (instructions : List Instruction) : Body :=
  ⟨defaultMaxStack, Token.null, false, instructions, []⟩

/-- The number of instructions. -/
def size (body : Body) : Nat := body.instructions.length

/-- The body with every position sent through `move`, ends of regions through `moveEnd`. -/
def mapPositions (move moveEnd : Nat → Nat) (body : Body) : Body :=
  { body with
    instructions := body.instructions.map (·.mapPositions move)
    clauses := body.clauses.map (·.mapPositions move moveEnd) }

/-- The positions that instructions and clauses name. -/
def positions (body : Body) : List Nat :=
  body.instructions.flatMap Instruction.jumpPositions ++ body.clauses.flatMap Clause.positions

end Body

end CilRelink
