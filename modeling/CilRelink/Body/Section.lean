import CilRelink.Bytes.LittleEndian
import CilRelink.Code.Decode
import CilRelink.Code.Encode
import CilRelink.Body.Basic

/-!
# Exception sections

Behind the code of a body there may be a chain of sections, each at a multiple of four bytes. A section begins with
a byte of flags and its size, and one that holds exception clauses goes on with them. Clauses have a small form, with
narrow offsets and lengths, and a fat form. Regions are given in bytes there and have to end at boundaries between
instructions.
-/
namespace CilRelink

open Bytes (read encode)

/-- An exception clause with its regions in bytes. -/
structure ByteClause where
  flags : ClauseFlags
  tryOffset : Nat
  tryLength : Nat
  handlerOffset : Nat
  handlerLength : Nat
  /-- The token of the type that is handled, or the offset of the filter. -/
  extra : Nat
deriving DecidableEq

/-- The clause that consists of six parts. -/
def ByteClause.ofParts? : List Nat → Option ByteClause
  | [flags, tryOffset, tryLength, handlerOffset, handlerLength, extra] =>
    some ⟨.ofNat flags, tryOffset, tryLength, handlerOffset, handlerLength, extra⟩
  | _ => none

/-- The parts of a clause, in the order in which they are written. -/
def ByteClause.parts (clause : ByteClause) : List Nat :=
  [clause.flags.toNat, clause.tryOffset, clause.tryLength, clause.handlerOffset, clause.handlerLength, clause.extra]

namespace Section

/-- The flag of sections that hold exception clauses. -/
def clauseFlag : Nat := 0x01

/-- The flag of sections in fat form. -/
def fatFlag : Nat := 0x40

/-- The flag of sections that are followed by another. -/
def moreFlag : Nat := 0x80

/-- The number of bytes of a small clause. -/
def smallClauseSize : Nat := 12

/-- The number of bytes of a fat clause. -/
def fatClauseSize : Nat := 24

/-- Whether `flags` has `flag`, which is a power of two. -/
def hasFlag (flags flag : Nat) : Bool := flags / flag % 2 = 1

/-- Reads numbers of the given widths one after the other. -/
def readWidths : (widths : List Nat) → List UInt8 → Option (List Nat × List UInt8)
  | [], bytes => some ([], bytes)
  | width :: widths, bytes =>
    match read width bytes with
    | none => none
    | some (number, rest) => (readWidths widths rest).map fun (numbers, rest) => (number :: numbers, rest)

/-- The widths of the parts of a small clause. -/
def smallWidths : List Nat := [2, 2, 1, 2, 1, 4]

/-- The widths of the parts of a fat clause. -/
def fatWidths : List Nat := [4, 4, 4, 4, 4, 4]

/-- Reads `count` clauses whose parts have the given widths. -/
def readClauses (widths : List Nat) : (count : Nat) → List UInt8 → Option (List ByteClause)
  | 0, _ => some []
  | count + 1, bytes =>
    match readWidths widths bytes with
    | none => none
    | some (parts, rest) =>
      match ByteClause.ofParts? parts, readClauses widths count rest with
      | some clause, some clauses => some (clause :: clauses)
      | _, _ => none

/-- The size of a section with the given flags, if its head is there. -/
def size? (flags : Nat) (bytes : List UInt8) : Option Nat :=
  if hasFlag flags fatFlag then
    match read 4 bytes with
    | none => none
    | some (head, _) => some (head / 256)
  else
    match read 1 (bytes.drop 1) with
    | none => none
    | some (size, _) => some size

/-- The clauses of a section of the given flags and size. -/
def clauses? (flags size : Nat) (bytes : List UInt8) : Option (List ByteClause) :=
  if hasFlag flags fatFlag then readClauses fatWidths ((size - 4) / fatClauseSize) (bytes.drop 4)
  else readClauses smallWidths ((size - 4) / smallClauseSize) (bytes.drop 4)

/-- The least multiple of four that is not below `number`. -/
def alignUp (number : Nat) : Nat := (number + 3) / 4 * 4

/-- The clauses of a chain of sections, up to the first that holds no clauses. -/
def readChain (bytes : List UInt8) : Except Error (List ByteClause) :=
  match bytes with
  | [] => .error .outOfBounds
  | head :: tail =>
    let flags := head.toNat
    if !hasFlag flags clauseFlag then .ok []
    else
      match size? flags (head :: tail) with
      | none => .error .outOfBounds
      | some size =>
        if size < 4 ∨ tail.length + 1 < size then .error .outOfBounds
        else
          match clauses? flags size (head :: tail) with
          | none => .error .outOfBounds
          | some clauses =>
            if hasFlag flags moreFlag then
              (clauses ++ ·) <$> readChain (tail.drop (alignUp size - 1))
            else .ok clauses
termination_by bytes.length
decreasing_by
  simp only [List.length_cons, List.length_drop]
  omega

/-- The clause with its regions as positions, and what it handles or where its filter is. -/
def resolveClause (resolver : Resolver) (instructions : List Instruction) (codeSize : Nat) (clause : ByteClause) :
    Except Error Clause := do
  let catchType ←
    if clause.flags.isTyped then some <$> resolver.type ⟨UInt32.ofNat clause.extra⟩ else pure none
  let filterStart ← if clause.flags.isFilter then some <$> start clause.extra else pure none
  let tryStart ← start clause.tryOffset
  let tryEnd ← stop clause.tryOffset clause.tryLength
  let handlerStart ← start clause.handlerOffset
  let handlerEnd ← stop clause.handlerOffset clause.handlerLength
  return ⟨clause.flags, tryStart, tryEnd, handlerStart, handlerEnd, catchType, filterStart⟩
where
  /-- The position that begins at an offset. -/
  start (offset : Nat) : Except Error Nat :=
    match Code.positionOf? instructions offset codeSize with
    | some position => .ok position
    | none => .error (.malformed (.regionOffBoundary offset))
  /-- The position after a region. -/
  stop (offset length : Nat) : Except Error Nat :=
    if offset + length < 2 ^ 32 then start (offset + length) else .error (.malformed .regionOverflow)

/-- What a clause says besides its regions: the token of the type that it handles, or the offset of its filter. -/
def extraOf (emitter : Emitter State) (offsets : Array Nat) (clause : Clause) : Emission State Nat :=
  if clause.flags.isFilter then
    return match clause.filterStart with
      | none => 0
      | some start => offsets.getD start 0
  else if clause.flags.isTyped then
    match clause.catchType with
    | some type => (·.value.toNat) <$> emitter.type type
    | none => throw (.structural .untypedCatch)
  else return 0

/-- The clause with its regions in bytes. -/
def toBytesOf (emitter : Emitter State) (offsets : Array Nat) (clause : Clause) : Emission State ByteClause := do
  let extra ← extraOf emitter offsets clause
  let place (position : Nat) : Nat := offsets.getD position 0
  return ⟨clause.flags, place clause.tryStart, place clause.tryEnd - place clause.tryStart,
    place clause.handlerStart, place clause.handlerEnd - place clause.handlerStart, extra⟩

/-- Whether a clause can take the small form. -/
def isNarrow (clause : ByteClause) : Bool :=
  clause.tryOffset < 2 ^ 16 && clause.tryLength < 2 ^ 8 && clause.handlerOffset < 2 ^ 16 &&
    clause.handlerLength < 2 ^ 8

/-- The bytes of a clause whose parts have the given widths. -/
def clauseBytes (widths : List Nat) (clause : ByteClause) : List UInt8 :=
  (List.zipWith encode widths clause.parts).flatten

/-- The section of the clauses, in small form if it and they can take it. -/
def sectionBytes (clauses : List ByteClause) : Except Error (List UInt8) :=
  let smallSize := 4 + clauses.length * smallClauseSize
  let fatSize := 4 + clauses.length * fatClauseSize
  if smallSize < 2 ^ 8 && clauses.all isNarrow then
    .ok (encode 1 clauseFlag ++ encode 1 smallSize ++ encode 2 0 ++ clauses.flatMap (clauseBytes smallWidths))
  else if fatSize < 2 ^ 24 then
    .ok (encode 1 (clauseFlag + fatFlag) ++ encode 3 fatSize ++ clauses.flatMap (clauseBytes fatWidths))
  else .error (.structural .tooManyClauses)

end Section

end CilRelink
