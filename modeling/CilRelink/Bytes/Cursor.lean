import CilRelink.Bytes.Primitive
import CilRelink.Error

/-!
# Cursors

A cursor reads primitive values one after the other from bytes. It may stand at the end of the bytes but never
beyond, and what fails leaves it where it was.
-/
namespace CilRelink.Bytes

/-- A place in bytes. -/
structure Cursor where
  data : List UInt8
  position : Nat
  position_le : position ≤ data.length

namespace Cursor

/-- The cursor at the start of `data`. -/
def start (data : List UInt8) : Cursor := ⟨data, 0, Nat.zero_le _⟩

/-- The number of bytes after the cursor. -/
def remaining (cursor : Cursor) : Nat := cursor.data.length - cursor.position

/-- Whether there is a byte after the cursor. -/
def hasMore (cursor : Cursor) : Bool := cursor.position < cursor.data.length

/-- Moves the cursor to a place. -/
def seek (cursor : Cursor) (position : Nat) : Except Error Cursor :=
  if inside : position ≤ cursor.data.length then .ok ⟨cursor.data, position, inside⟩ else .error .outOfBounds

/-- Reads a value and moves the cursor behind it. -/
def read (cursor : Cursor) (kind : PrimitiveKind) : Except Error (Primitive × Cursor) :=
  if inside : cursor.position + kind.width ≤ cursor.data.length then
    let bits := decode ((cursor.data.drop cursor.position).take kind.width)
    .ok (kind.value bits, ⟨cursor.data, cursor.position + kind.width, inside⟩)
  else .error .outOfBounds

/-- What a cursor can be asked for. -/
inductive Request where
  | seek (position : Nat)
  | read (kind : PrimitiveKind)
deriving DecidableEq

/-- What a request comes to, which is a value only if one was to be read, and the cursor after it. -/
def step (cursor : Cursor) : Request → Except Error (Option Primitive) × Cursor
  | .seek position =>
    match cursor.seek position with
    | .ok moved => (.ok none, moved)
    | .error error => (.error error, cursor)
  | .read kind =>
    match cursor.read kind with
    | .ok (value, moved) => (.ok (some value), moved)
    | .error error => (.error error, cursor)

end Cursor

end CilRelink.Bytes
