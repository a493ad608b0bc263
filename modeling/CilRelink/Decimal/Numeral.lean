import CilRelink.Decimal.Shortest

/-!
# Numerals

The text of a floating point number from its shortest decimal. A style fixes what the decimal leaves open.
-/
namespace CilRelink.Decimal

/-- How numerals are written. -/
structure NumeralStyle where
  /-- Whether a whole number ends in `.0`. -/
  marksWhole : Bool
  /-- Exponents of the leading digit from the first to below the second are written positionally, the others with
  an exponent; all are if there are no bounds. -/
  positional : Option (Int × Int)

/-- Numerals in listings and messages are positional and show a fraction only if there is one. -/
def NumeralStyle.plain : NumeralStyle := ⟨false, none⟩

/-- Numerals in outlines of values always tell that they are fractions, and have an exponent below `1e-4` and
from `1e16` on. -/
def NumeralStyle.outline : NumeralStyle := ⟨true, some (-4, 16)⟩

/-- The number with its point in place. -/
def Scaled.positionalText (number : Scaled) (marksWhole : Bool) : String :=
  let digits := Nat.toDigits 10 number.digits
  let point : Int := digits.length + number.exponent
  let zeros (count : Int) : List Char := List.replicate count.toNat '0'
  String.ofList <|
    if point ≤ 0 then '0' :: '.' :: (zeros (-point) ++ digits)
    else if (digits.length : Int) ≤ point then
      digits ++ zeros (point - digits.length) ++ (if marksWhole then ['.', '0'] else [])
    else digits.take point.toNat ++ '.' :: digits.drop point.toNat

/-- The number with one digit before the point and an exponent. -/
def Scaled.exponentText (number : Scaled) : String :=
  let digits := Nat.toDigits 10 number.digits
  let leading : Int := digits.length + number.exponent - 1
  String.ofList (digits.take 1 ++ (if digits.length = 1 then [] else '.' :: digits.drop 1)) ++ "e" ++ toString leading

/-- The text of a positive number. -/
def NumeralStyle.write (style : NumeralStyle) (number : Scaled) : String :=
  let leading : Int := (Nat.toDigits 10 number.digits).length + number.exponent - 1
  match style.positional with
  | none => number.positionalText style.marksWhole
  | some (first, past) =>
    if first ≤ leading ∧ leading < past then number.positionalText style.marksWhole
    else number.exponentText

/-- The text of a bit pattern of `format`. -/
def numeral (style : NumeralStyle) (format : BinaryFormat) (bits : Nat) : String :=
  let sign (negative : Bool) : String := if negative then "-" else ""
  match format.read bits with
  | .notANumber => "NaN"
  | .infinite negative => sign negative ++ "inf"
  | .zero negative => sign negative ++ (if style.marksWhole then "0.0" else "0")
  | .finite negative significand exponent evenGaps =>
    sign negative ++ style.write (shortest significand exponent evenGaps)

end CilRelink.Decimal
