import CilRelink.Body.Basic
import CilRelink.Host.Type
import CilRelink.Report

/-!
# Errors

Why an operation failed. Each error is a cause with the values that explain it; its wording is a function of the
cause and stands here alone. That a reference has no match is never an error.
-/
namespace CilRelink

open Text (hexWithMark)

/-- What is wrong with encoded bytes. -/
inductive Malformation where
  | invalidOpcode (first : UInt8) (second : Option UInt8) (offset : Nat)
  | tableTooLong (offset count remaining : Nat)
  | targetOffBoundary (offset : Nat) (target : Int)
  | shortHeader (size : Nat)
  | unknownHeader (first : UInt8)
  | regionOffBoundary (offset : Nat)
  | regionOverflow
deriving DecidableEq

/-- What is wrong with a list of instructions or a body. -/
inductive Defect where
  | operandMismatch (operand : Operand) (opcode : Opcode)
  | codeTooLarge
  | targetOutside (position target count : Nat)
  | displacementTooWide (position : Nat) (displacement : Int)
  | notWidenable (opcode : Opcode) (position : Nat)
  | illFormed (position : Nat) (opcode : Opcode)
  | outOfShortReach (opcode : Opcode) (position target : Nat) (displacement : Int)
  | branchTooFar (displacement : Int)
  | tableTargetTooFar (displacement : Int)
  | untypedCatch
  | tooManyClauses
  | illFormedOperand (position : Nat) (instruction : Instruction)
  | invalidTarget (position : Nat) (opcode : Opcode) (target count : Nat)
  | invalidRegion (index : Nat) (clause : Clause)
  | missingFilter (index : Nat)
  | notInsertable (instruction : Instruction)
  | insertPastEnd (position : Nat)
  | nothingToInsertBefore (position : Nat)
  | nothingToReplace (position : Nat)
  | nothingToRemove (position : Nat)
  | lastIsTarget
  | emptiesRegion (position : Nat)
deriving DecidableEq

/-- Why a facade does not do what it was asked. -/
inductive FacadeMismatch where
  | receiver (facade : String)
  | substitution (facade : String)
  | noMember (type : HostType) (reference : MethodRef)
  | argumentCount (reference : MethodRef) (expected given : Nat)
  | noConstructor (type : HostType) (reference : MethodRef)
  | notFacade (type : TypeRef)
  | baseArguments (base : String) (count : Nat)
  | stringArgument (member : String) (index : Nat)
deriving DecidableEq

/-- Why an operation failed. -/
inductive Error where
  | malformed (what : Malformation)
  | outOfBounds
  | empty
  | unresolvedToken (token : Token)
  | structural (what : Defect)
  | facadeConstructed (facade : String)
  | facade (what : FacadeMismatch)
  | incompatible (report : Report)
  /-- A position would not fit the 64 bits of an index any more. -/
  | positionOverflow
deriving DecidableEq

/-- The number in hexadecimal; a negative one as its complement in 64 bits. -/
def signedHex (number : Int) : String := hexWithMark 1 (number % 2 ^ 64).toNat

/-- What is wrong, in words. -/
def Malformation.message : Malformation → String
  | invalidOpcode first second offset =>
    "Invalid opcode " ++ hexWithMark 2 first.toNat ++
      (match second with
        | none => ""
        | some byte => " " ++ hexWithMark 2 byte.toNat) ++
      " at offset " ++ hexWithMark 1 offset
  | tableTooLong offset count remaining =>
    s!"Switch at offset {hexWithMark 1 offset} declares {count} targets but only {remaining} bytes remain"
  | targetOffBoundary offset target =>
    s!"Branch at offset {hexWithMark 1 offset} targets {signedHex target}, which is not an instruction boundary"
  | shortHeader size => s!"Fat header declares {size} bytes"
  | unknownHeader first => s!"MethodHeader is neither FAT nor TINY - {first.toNat}"
  | regionOffBoundary offset =>
    s!"Exception region boundary {hexWithMark 1 offset} is not an instruction boundary"
  | regionOverflow => "Exception region overflows"

/-- What is wrong, in words. -/
def Defect.message : Defect → String
  | operandMismatch operand opcode =>
    s!"operand {operand.outline.text} does not fit {opcode.mnemonic} (expects {opcode.operandKind.name})"
  | codeTooLarge => "method code exceeds 4 GiB"
  | targetOutside position target count =>
    s!"instruction {position} branches to #{target}, outside a body of {count} instructions"
  | displacementTooWide position displacement =>
    s!"branch displacement {displacement} at instruction {position} overflows 32 bits"
  | notWidenable opcode position => s!"{opcode.mnemonic} at instruction {position} cannot be widened"
  | illFormed position opcode => s!"instruction {position} ({opcode.mnemonic}) has an operand of the wrong kind"
  | outOfShortReach opcode position target displacement =>
    s!"{opcode.mnemonic} at instruction {position} cannot reach #{target} ({displacement} bytes)"
  | branchTooFar displacement => s!"branch displacement {displacement} overflows 32 bits"
  | tableTargetTooFar displacement => s!"switch displacement {displacement} overflows 32 bits"
  | untypedCatch => "typed exception clause without a catch type"
  | tooManyClauses => "too many exception clauses"
  | illFormedOperand position instruction =>
    s!"instruction {position} ({instruction.opcode.mnemonic}) has an operand of the wrong kind: " ++
      instruction.operand.outline.text
  | invalidTarget position opcode target count =>
    s!"instruction {position} ({opcode.mnemonic}) branches to #{target}, " ++
      s!"outside a body of {count} instructions"
  | invalidRegion index clause => s!"exception clause {index} has an invalid region: {clause.outline.text}"
  | missingFilter index => s!"filter clause {index} has no filter"
  | notInsertable instruction =>
    s!"cannot insert {instruction.opcode.mnemonic} with operand {instruction.operand.outline.text}"
  | insertPastEnd position => s!"insert at #{position} past the end of the body"
  | nothingToInsertBefore position => s!"no instruction at #{position} to insert before"
  | nothingToReplace position => s!"no instruction at #{position} to replace"
  | nothingToRemove position => s!"no instruction at #{position} to remove"
  | lastIsTarget => "cannot remove the last instruction while it is a branch target"
  | emptiesRegion position => s!"removing #{position} would empty an exception region"

/-- Why it does not, in words. -/
def FacadeMismatch.message : FacadeMismatch → String
  | receiver facade => s!"receiver is neither a {facade} nor its base type"
  | substitution facade => s!"{facade} can only substitute its own base type"
  | noMember type reference => s!"{type.text} has no member {reference.text}"
  | argumentCount reference expected given => s!"{reference.text} expects {expected} arguments, got {given}"
  | noConstructor type reference => s!"{type.text} inherits no constructor {reference.text}"
  | notFacade type => s!"{type.text} is not a facade type"
  | baseArguments base count => s!"no {base} constructor accepts {count} arguments of these kinds"
  | stringArgument member index => s!"{member} expects a string argument at position {index}"

/-- Why the operation failed, in words. -/
def Error.message : Error → String
  | malformed what => what.message
  | outOfBounds => "Out of Bound read would have occurred!"
  | empty => "Provided input was empty"
  | unresolvedToken token => s!"Failed to resolve token - {token.text}"
  | structural what => s!"Structural defect - {what.message}"
  | facadeConstructed name =>
    s!"The constructor of {name} is only intended for the rewriter and should never be called at runtime"
  | facade what => what.message
  | incompatible report => s!"Incompatible - {report.text}"
  | positionOverflow => "A position does not fit 64 bits"

end CilRelink
