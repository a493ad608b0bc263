import CilRelink.Arithmetic

/-!
# Hexadecimal text

Offsets, tokens and opcodes are shown in lower-case hexadecimal, some with a least number of digits. Bytes have two
digits each and can be read back.
-/
namespace CilRelink.Text

/-- The hexadecimal digits of `number`, with leading zeros up to `width` digits. -/
def hex (width number : Nat) : String :=
  let digits := Nat.toDigits 16 number
  String.ofList (List.replicate (width - digits.length) '0' ++ digits)

/-- The hexadecimal digits of `number` behind `0x`, with leading zeros up to `width` digits. -/
def hexWithMark (width number : Nat) : String := "0x" ++ hex width number

/-- The two digits of each of the bytes. -/
def hexBytes (bytes : List UInt8) : String := String.join (bytes.map fun byte => hex 2 byte.toNat)

/-- The value of a hexadecimal digit in either case. -/
def hexDigit? (digit : Char) : Option Nat :=
  if '0' ≤ digit ∧ digit ≤ '9' then some (digit.toNat - '0'.toNat)
  else if 'a' ≤ digit ∧ digit ≤ 'f' then some (digit.toNat - 'a'.toNat + 10)
  else if 'A' ≤ digit ∧ digit ≤ 'F' then some (digit.toNat - 'A'.toNat + 10)
  else none

/-- The number that hexadecimal digits stand for. -/
def hexNumber? (digits : List Char) : Option Nat :=
  digits.foldlM (fun number digit => (hexDigit? digit).map (number * 16 + ·)) 0

/-- The bytes that pairs of hexadecimal digits stand for. -/
def ofHexBytes? : List Char → Option (List UInt8)
  | [] => some []
  | high :: low :: rest =>
    match hexNumber? [high, low], ofHexBytes? rest with
    | some byte, some bytes => some (UInt8.ofNat byte :: bytes)
    | _, _ => none
  | [_] => none

end CilRelink.Text
