import CilRelink.Arithmetic

/-!
# Shortest decimals

A binary floating point number stands for every real that rounds to it. Its shortest decimal is the one with the
fewest digits inside that interval, and of those the nearest to the number. All arithmetic is on natural numbers:
`shortest` looks at the two neighbours of the number on ever finer decimal grids and takes the first grid on
which one of them lies in the interval.
-/
namespace CilRelink.Decimal

/-- An interchange format of binary floating point numbers. -/
structure BinaryFormat where
  fractionBits : Nat
  exponentBits : Nat

/-- The format of 32 bits. -/
def BinaryFormat.single : BinaryFormat := ⟨23, 8⟩

/-- The format of 64 bits. -/
def BinaryFormat.double : BinaryFormat := ⟨52, 11⟩

/-- What a bit pattern stands for. -/
inductive Reading where
  | notANumber
  | infinite (negative : Bool)
  | zero (negative : Bool)
  /-- The number `significand * 2 ^ exponent`; `evenGaps` holds unless the gap to the next lower number is half
  of that to the next higher one. -/
  | finite (negative : Bool) (significand : Nat) (exponent : Int) (evenGaps : Bool)

/-- Reads a bit pattern. -/
def BinaryFormat.read (format : BinaryFormat) (bits : Nat) : Reading :=
  let fraction := bits % 2 ^ format.fractionBits
  let biased := bits / 2 ^ format.fractionBits % 2 ^ format.exponentBits
  let negative := bits / 2 ^ (format.fractionBits + format.exponentBits) % 2 = 1
  let lowest : Int := 2 - 2 ^ (format.exponentBits - 1) - format.fractionBits
  if biased = 2 ^ format.exponentBits - 1 then
    if fraction = 0 then .infinite negative else .notANumber
  else if biased = 0 then
    if fraction = 0 then .zero negative else .finite negative fraction lowest true
  else
    .finite negative (2 ^ format.fractionBits + fraction) (lowest + biased - 1) (fraction ≠ 0)

/-- The decimal number `digits * 10 ^ exponent`. -/
structure Scaled where
  digits : Nat
  exponent : Int

/-- Moves trailing zeros of the digits into the exponent; `limit` bounds their number. -/
def Scaled.trim (number : Scaled) : (limit : Nat) → Scaled
  | 0 => number
  | limit + 1 =>
    if number.digits % 10 = 0 ∧ number.digits ≠ 0 then
      trim ⟨number.digits / 10, number.exponent + 1⟩ limit
    else number

/-- The interval of reals that round to a number: the number is `value / scale`, its ends are `below` and `above`
away, in units of `1 / scale`, and belong to it if `closed`. -/
structure Interval where
  value : Nat
  scale : Nat
  below : Nat
  above : Nat
  closed : Bool

/-- The interval of `significand * 2 ^ exponent`, in quarters of the last binary place. -/
def Interval.ofBinary (significand : Nat) (exponent : Int) (evenGaps : Bool) : Interval :=
  let up := 2 ^ (exponent - 2).toNat
  let down := 2 ^ (2 - exponent).toNat
  { value := 4 * significand * up
    scale := down
    below := (if evenGaps then 2 else 1) * up
    above := 2 * up
    closed := significand % 2 = 0 }

/-- The exponent of the leading decimal digit of a positive number. -/
def Interval.leadingExponent (interval : Interval) : Int :=
  if interval.scale ≤ interval.value then
    ((Nat.toDigits 10 (interval.value / interval.scale)).length : Int) - 1
  else
    -((Nat.toDigits 10 (interval.scale / interval.value)).length : Int)

/-- Whether `distance` does not leave the interval on the side whose end is `reach` away. -/
def Interval.reaches (interval : Interval) (distance reach : Nat) : Bool :=
  distance < reach || (interval.closed && distance = reach)

/-- The better of the two neighbours of the number on the grid of multiples of `10 ^ exponent` that lie in the
interval; of two at the same distance the upper one. -/
def Interval.onGrid (interval : Interval) (exponent : Int) : Option Scaled :=
  let finer := 10 ^ (-exponent).toNat
  let unit := interval.scale * 10 ^ exponent.toNat
  let lower := interval.value * finer / unit
  let past := interval.value * finer % unit
  let lowerFits := interval.reaches past (interval.below * finer)
  let upperFits := interval.reaches (unit - past) (interval.above * finer)
  if upperFits && (!lowerFits || unit ≤ 2 * past) then some ⟨lower + 1, exponent⟩
  else if lowerFits then some ⟨lower, exponent⟩
  else none

/-- The shortest decimal of a positive number; no binary format in use needs more than seventeen digits. -/
def shortest (significand : Nat) (exponent : Int) (evenGaps : Bool) : Scaled :=
  let interval := Interval.ofBinary significand exponent evenGaps
  let leading := interval.leadingExponent
  let found := (List.range 17).findSome? fun (more : Nat) => interval.onGrid (leading - more)
  (found.getD ⟨0, 0⟩).trim 17

end CilRelink.Decimal
