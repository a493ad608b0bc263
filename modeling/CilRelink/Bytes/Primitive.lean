import CilRelink.Bytes.LittleEndian

/-!
# Primitive values in bytes

Integers of one to eight bytes, with and without sign, and floating point numbers as their bit patterns.
-/
namespace CilRelink.Bytes

/-- A kind of primitive value. -/
inductive PrimitiveKind where
  | uint8
  | int8
  | uint16
  | int16
  | uint32
  | int32
  | uint64
  | int64
  | float32
  | float64
deriving DecidableEq

/-- A primitive value. -/
inductive Primitive where
  | uint8 (value : UInt8)
  | int8 (value : Int8)
  | uint16 (value : UInt16)
  | int16 (value : Int16)
  | uint32 (value : UInt32)
  | int32 (value : Int32)
  | uint64 (value : UInt64)
  | int64 (value : Int64)
  | float32 (bits : UInt32)
  | float64 (bits : UInt64)
deriving DecidableEq

namespace PrimitiveKind

/-- The number of bytes of a value of the kind. -/
def width : PrimitiveKind → Nat
  | uint8 | int8 => 1
  | uint16 | int16 => 2
  | uint32 | int32 | float32 => 4
  | uint64 | int64 | float64 => 8

/-- The value of the kind whose bytes make up `bits`. -/
def value (kind : PrimitiveKind) (bits : Nat) : Primitive :=
  match kind with
  | uint8 => .uint8 (UInt8.ofNat bits)
  | int8 => .int8 (UInt8.ofNat bits).toInt8
  | uint16 => .uint16 (UInt16.ofNat bits)
  | int16 => .int16 (UInt16.ofNat bits).toInt16
  | uint32 => .uint32 (UInt32.ofNat bits)
  | int32 => .int32 (UInt32.ofNat bits).toInt32
  | uint64 => .uint64 (UInt64.ofNat bits)
  | int64 => .int64 (UInt64.ofNat bits).toInt64
  | float32 => .float32 (UInt32.ofNat bits)
  | float64 => .float64 (UInt64.ofNat bits)

end PrimitiveKind

namespace Primitive

/-- The kind of a value. -/
def kind : Primitive → PrimitiveKind
  | uint8 _ => .uint8
  | int8 _ => .int8
  | uint16 _ => .uint16
  | int16 _ => .int16
  | uint32 _ => .uint32
  | int32 _ => .int32
  | uint64 _ => .uint64
  | int64 _ => .int64
  | float32 _ => .float32
  | float64 _ => .float64

/-- The bits of a value as a number. -/
def bits : Primitive → Nat
  | uint8 value => value.toNat
  | int8 value => value.toUInt8.toNat
  | uint16 value => value.toNat
  | int16 value => value.toUInt16.toNat
  | uint32 value => value.toNat
  | int32 value => value.toUInt32.toNat
  | uint64 value => value.toNat
  | int64 value => value.toUInt64.toNat
  | float32 bits => bits.toNat
  | float64 bits => bits.toNat

/-- The bytes of a value. -/
def bytes (value : Primitive) : List UInt8 := encode value.kind.width value.bits

end Primitive

end CilRelink.Bytes
