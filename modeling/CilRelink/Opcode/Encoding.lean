import CilRelink.Opcode
import CilRelink.Text.Outline

/-!
# Encoding of opcodes

Codes below `0xFE00` are one byte. All others begin with `0xFE`, which is no opcode by itself. Both ways of reading
an opcode go through arrays that hold the opcode of every second byte.
-/
namespace CilRelink.Opcode

/-- The byte that opcodes of two bytes begin with. -/
def escapeByte : UInt8 := 0xFE

/-- Whether the opcode takes two bytes. -/
def isTwoByte (opcode : Opcode) : Bool := 0xFE00 ≤ opcode.code

/-- The number of bytes of the opcode. -/
def size (opcode : Opcode) : Nat := if opcode.isTwoByte then 2 else 1

/-- The bytes of the opcode. -/
def bytes (opcode : Opcode) : List UInt8 :=
  if opcode.isTwoByte then [escapeByte, UInt8.ofNat opcode.code] else [UInt8.ofNat opcode.code]

/-- The opcode with a given code. -/
def ofCode? (code : Nat) : Option Opcode := all.find? (·.code = code)

/-- The opcode with a given name. -/
def ofMnemonic? (name : String) : Option Opcode := all.find? (·.mnemonic = name)

/-- The opcodes of one byte, by that byte. -/
def oneByte : Array (Option Opcode) := Array.ofFn fun byte : Fin 256 => ofCode? byte

/-- The opcodes of two bytes, by the second. -/
def twoByte : Array (Option Opcode) := Array.ofFn fun byte : Fin 256 => ofCode? (0xFE00 + byte)

/-- The opcode that `first` begins, with `second` as its second byte if it has two. -/
def ofBytes? (first : UInt8) (second : Option UInt8) : Option Opcode :=
  if first = escapeByte then second.bind fun byte => twoByte[byte.toNat]?.join
  else oneByte[first.toNat]?.join

/-- The branch with a displacement of four bytes that does the same as one with a displacement of one byte. -/
def widened? : Opcode → Option Opcode
  | brS => some br
  | brfalseS => some brfalse
  | brtrueS => some brtrue
  | beqS => some beq
  | bgeS => some bge
  | bgtS => some bgt
  | bleS => some ble
  | bltS => some blt
  | bneUnS => some bneUn
  | bgeUnS => some bgeUn
  | bgtUnS => some bgtUn
  | bleUnS => some bleUn
  | bltUnS => some bltUn
  | leaveS => some leave
  | _ => none

/-- Whether the opcode writes a field. -/
def storesField : Opcode → Bool
  | stfld | stsfld => true
  | _ => false

/-- Whether the opcode reads, writes or takes the address of a static field. -/
def accessesStaticField : Opcode → Bool
  | ldsfld | stsfld | ldsflda => true
  | _ => false

/-- The opcode in outlines of values. -/
def outline (opcode : Opcode) : Text.Outline :=
  .word s!"OpCode({Text.hexWithMark 2 opcode.code}, {opcode.mnemonic})"

end CilRelink.Opcode
