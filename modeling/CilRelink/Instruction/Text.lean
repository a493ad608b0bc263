import CilRelink.Instruction.Basic
import CilRelink.Decimal.Numeral

/-!
# Listings of instructions

A line of a listing has the offset, the mnemonic and the operand, in which positions follow a mark.
-/
namespace CilRelink

open Text (Outline)
open Decimal (numeral NumeralStyle BinaryFormat)

/-- The number in listings. -/
def Immediate.text : Immediate → String
  | .int8 value => toString value.toInt
  | .uint8 value => toString value.toNat
  | .int32 value => toString value.toInt
  | .int64 value => toString value.toInt
  | .float32 bits => numeral .plain .single bits.toNat
  | .float64 bits => numeral .plain .double bits.toNat

/-- The number in outlines of values. -/
def Immediate.outline : Immediate → Outline
  | .int8 value => .tagged "Int8" [.word (toString value.toInt)]
  | .uint8 value => .tagged "UInt8" [.nat value.toNat]
  | .int32 value => .tagged "Int32" [.word (toString value.toInt)]
  | .int64 value => .tagged "Int64" [.word (toString value.toInt)]
  | .float32 bits => .tagged "Float32" [.word (numeral .outline .single bits.toNat)]
  | .float64 bits => .tagged "Float64" [.word (numeral .outline .double bits.toNat)]

namespace Operand

/-- A position in listings and messages. -/
def positionText (position : Nat) : String := s!"#{position}"

/-- The operand in listings. -/
def text : Operand → String
  | none => ""
  | immediate value => value.text
  | string value => Text.listedString value
  | target position => positionText position
  | targets positions => "(" ++ ", ".intercalate (positions.map positionText) ++ ")"
  | localVariable index => s!"V_{index.toNat}"
  | argument index => s!"A_{index.toNat}"
  | type reference => reference.text
  | field reference => reference.text
  | method reference => reference.text
  | symbol reference => reference.text
  | signature token => token.text

/-- The operand in outlines of values. -/
def outline : Operand → Outline
  | none => .word "None"
  | immediate value => .tagged "Immediate" [value.outline]
  | string value => .tagged "String" [.string value]
  | target position => .tagged "Target" [.nat position]
  | targets positions => .tagged "Switch" [.listOf .nat positions]
  | localVariable index => .tagged "Local" [.nat index.toNat]
  | argument index => .tagged "Argument" [.nat index.toNat]
  | type reference => .tagged "Type" [reference.outline]
  | field reference => .tagged "Field" [reference.outline]
  | method reference => .tagged "Method" [reference.outline]
  | symbol reference => .tagged "Symbol" [reference.outline]
  | signature token => .tagged "Signature" [token.outline]

end Operand

/-- The instruction as a line of a listing. -/
def Instruction.text (instruction : Instruction) : String :=
  s!"IL_{Text.hex 4 instruction.offset}: {instruction.opcode.mnemonic}" ++
    match instruction.operand with
    | .none => ""
    | operand => " " ++ operand.text

end CilRelink
