import CilRelink.Text.Outline

/-!
# Metadata tokens

Instruction operands name types, members, strings and signatures by tokens. The high byte of a token selects a
metadata table, or the heap of user strings, and the low three bytes a row of it.
-/
namespace CilRelink

/-- A metadata token. -/
structure Token where
  value : UInt32
deriving DecidableEq, Inhabited

/-- The tables that operands point into. -/
inductive TokenTable where
  | typeRef
  | typeDef
  | field
  | methodDef
  | memberRef
  | standAloneSig
  | typeSpec
  | methodSpec
  | userString
deriving DecidableEq

namespace TokenTable

/-- The high byte of the table's tokens. -/
def byte : TokenTable → Nat
  | typeRef => 0x01
  | typeDef => 0x02
  | field => 0x04
  | methodDef => 0x06
  | memberRef => 0x0A
  | standAloneSig => 0x11
  | typeSpec => 0x1B
  | methodSpec => 0x2B
  | userString => 0x70

/-- The name the standard gives the table. -/
def name : TokenTable → String
  | typeRef => "TypeRef"
  | typeDef => "TypeDef"
  | field => "Field"
  | methodDef => "MethodDef"
  | memberRef => "MemberRef"
  | standAloneSig => "StandAloneSig"
  | typeSpec => "TypeSpec"
  | methodSpec => "MethodSpec"
  | userString => "UserString"

/-- Every table. -/
def all : List TokenTable :=
  [typeRef, typeDef, field, methodDef, memberRef, standAloneSig, typeSpec, methodSpec, userString]

/-- The table whose tokens have the high byte `byte`. -/
def ofByte? (byte : Nat) : Option TokenTable := all.find? (·.byte = byte)

end TokenTable

namespace Token

/-- The number of rows a token can tell apart, row zero included. -/
def rowLimit : Nat := 2 ^ 24

/-- The token of no row of any table. -/
def null : Token := ⟨0⟩

/-- The token of `row` in `table`; a row past the limit loses its high bits. -/
def ofRow (table : TokenTable) (row : Nat) : Token :=
  ⟨UInt32.ofNat (table.byte * rowLimit + row % rowLimit)⟩

/-- The high byte. -/
def tableByte (token : Token) : Nat := token.value.toNat / rowLimit

/-- The table the token points into, if operands use it. -/
def table? (token : Token) : Option TokenTable := TokenTable.ofByte? token.tableByte

/-- The row the token points at. -/
def row (token : Token) : Nat := token.value.toNat % rowLimit

/-- Whether this is the null token. -/
def isNull (token : Token) : Bool := token.value = 0

/-- The token in listings and messages. -/
def text (token : Token) : String := Text.hexWithMark 8 token.value.toNat

/-- The token in outlines of values. -/
def outline (token : Token) : Text.Outline :=
  .word s!"Token({token.text}, table: {Text.hexWithMark 2 token.tableByte}, row: {token.row})"

end Token

end CilRelink
