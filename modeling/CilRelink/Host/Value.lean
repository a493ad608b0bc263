import CilRelink.Host.Type
import CilRelink.Decimal.Numeral

/-!
# Values of the host

Literal values, which defaults and constants are made of, and references to objects of a known type. Floating point
values are their bit patterns, so that no payload or sign is lost on the way.
-/
namespace CilRelink

open Text (Outline)
open Decimal (numeral NumeralStyle BinaryFormat)

/-- A value passed to or returned from a member of the host. -/
inductive HostValue where
  | null
  | boolean (value : Bool)
  | char (value : Char)
  | int8 (value : Int8)
  | uint8 (value : UInt8)
  | int16 (value : Int16)
  | uint16 (value : UInt16)
  | int32 (value : Int32)
  | uint32 (value : UInt32)
  | int64 (value : Int64)
  | uint64 (value : UInt64)
  | float32 (bits : UInt32)
  | float64 (bits : UInt64)
  | string (value : String)
  | object (type : HostType)
deriving DecidableEq

namespace HostValue

/-- The word for the kind of value. -/
def kindName : HostValue → String
  | null => "null"
  | boolean _ => "bool"
  | char _ => "char"
  | int8 _ => "sbyte"
  | uint8 _ => "byte"
  | int16 _ => "short"
  | uint16 _ => "ushort"
  | int32 _ => "int"
  | uint32 _ => "uint"
  | int64 _ => "long"
  | uint64 _ => "ulong"
  | float32 _ => "float"
  | float64 _ => "double"
  | string _ => "string"
  | object _ => "object"

/-- The string, if the value is one. -/
def asString : HostValue → Option String
  | string value => some value
  | _ => none

/-- The truth value, if the value is one. -/
def asBool : HostValue → Option Bool
  | boolean value => some value
  | _ => none

/-- Whether the value is the null reference. -/
def isNull : HostValue → Bool
  | null => true
  | _ => false

/-- The value in messages, with a suffix that tells long integers and floating point numbers apart. -/
def text : HostValue → String
  | null => "null"
  | boolean value => if value then "true" else "false"
  | char value => "'" ++ value.toString ++ "'"
  | int8 value => toString value.toInt
  | uint8 value => toString value.toNat
  | int16 value => toString value.toInt
  | uint16 value => toString value.toNat
  | int32 value => toString value.toInt
  | uint32 value => toString value.toNat
  | int64 value => toString value.toInt ++ "L"
  | uint64 value => toString value.toNat ++ "UL"
  | float32 bits => numeral .plain .single bits.toNat ++ "f"
  | float64 bits => numeral .plain .double bits.toNat ++ "d"
  | string value => "\"" ++ value ++ "\""
  | object type => "<" ++ type.text ++ ">"

/-- The value in outlines of values. -/
def outline : HostValue → Outline
  | null => .word "Null"
  | boolean value => .tagged "Boolean" [.bool value]
  | char value => .tagged "Char" [.word (Text.quotedChar value)]
  | int8 value => .tagged "Int8" [.word (toString value.toInt)]
  | uint8 value => .tagged "UInt8" [.nat value.toNat]
  | int16 value => .tagged "Int16" [.word (toString value.toInt)]
  | uint16 value => .tagged "UInt16" [.nat value.toNat]
  | int32 value => .tagged "Int32" [.word (toString value.toInt)]
  | uint32 value => .tagged "UInt32" [.nat value.toNat]
  | int64 value => .tagged "Int64" [.word (toString value.toInt)]
  | uint64 value => .tagged "UInt64" [.nat value.toNat]
  | float32 bits => .tagged "Float32" [.word (numeral .outline .single bits.toNat)]
  | float64 bits => .tagged "Float64" [.word (numeral .outline .double bits.toNat)]
  | string value => .tagged "String" [.string value]
  | object type => .tagged "Object" [type.outline]

end HostValue

end CilRelink
