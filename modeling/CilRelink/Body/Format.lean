import CilRelink.Body.Section
import CilRelink.Body.Validity

/-!
# Format of bodies

A body is encoded as a header, the code, and a section of exception clauses if there are any. The tiny header is one
byte and is used whenever it can tell all there is to tell; decoding understands every header and chain of sections.
-/
namespace CilRelink.Body

open Bytes (read encode)

/-- The largest code that a tiny header can announce. -/
def tinyCodeLimit : Nat := 63

/-- The number of bytes of a fat header. -/
def fatHeaderSize : Nat := 12

/-- The flag of fat headers of bodies that are followed by sections. -/
def sectionsFlag : Nat := 0x8

/-- The flag of fat headers of bodies whose local variables begin as zero. -/
def initLocalsFlag : Nat := 0x10

/-- Decodes a body whose tiny header has announced code of `size` bytes. -/
def decodeTiny (resolver : Resolver) (size : Nat) (afterHeader : List UInt8) : Except Error Body :=
  if afterHeader.length < size then .error .outOfBounds
  else ofInstructions <$> Code.decode resolver (afterHeader.take size)

/-- The clauses in the sections at the start of `bytes`. -/
def decodeClauses (resolver : Resolver) (instructions : List Instruction) (codeSize : Nat) (bytes : List UInt8) :
    Except Error (List Clause) := do
  let clauses ← Section.readChain bytes
  clauses.mapM (Section.resolveClause resolver instructions codeSize)

/-- Decodes a body with a fat header, which is part of `bytes`. -/
def decodeFat (resolver : Resolver) (bytes : List UInt8) : Except Error Body :=
  match Section.readWidths [2, 2, 4, 4] bytes with
  | some ([head, maxStack, codeSize, signature], _) =>
    let headerSize := head / 2 ^ 12 * 4
    if headerSize < fatHeaderSize then .error (.malformed (.shortHeader headerSize))
    else if bytes.length < headerSize + codeSize then .error .outOfBounds
    else do
      let instructions ← Code.decode resolver ((bytes.drop headerSize).take codeSize)
      let clauses ←
        if Section.hasFlag head sectionsFlag then
          decodeClauses resolver instructions codeSize (bytes.drop (Section.alignUp (headerSize + codeSize)))
        else pure []
      return ⟨UInt16.ofNat maxStack, ⟨UInt32.ofNat signature⟩, Section.hasFlag head initLocalsFlag, instructions,
        clauses⟩
  | _ => .error .outOfBounds

/-- Decodes a body. The two low bits of the first byte tell the kind of header. -/
def decode (resolver : Resolver) (bytes : List UInt8) : Except Error Body :=
  match bytes with
  | [] => .error .empty
  | first :: rest =>
    if first.toNat % 4 = 2 then decodeTiny resolver (first.toNat / 4) rest
    else if first.toNat % 4 = 3 then decodeFat resolver bytes
    else .error (.malformed (.unknownHeader first))

/-- Whether a tiny header can tell all about the body, whose code takes `codeSize` bytes. -/
def fitsTiny (body : Body) (codeSize : Nat) : Bool :=
  codeSize ≤ tinyCodeLimit && body.maxStack ≤ defaultMaxStack && body.localSignature.isNull && !body.initLocals &&
    body.clauses.isEmpty

/-- The fat header of the body. -/
def fatHeader (body : Body) (codeSize : Nat) : List UInt8 :=
  let flags := 3 + (if body.initLocals then initLocalsFlag else 0) +
    (if body.clauses.isEmpty then 0 else sectionsFlag)
  encode 2 (3 * 2 ^ 12 + flags) ++ encode 2 body.maxStack.toNat ++ encode 4 codeSize ++ body.localSignature.bytes

/-- The bytes up to the next multiple of four. -/
def padding (size : Nat) : List UInt8 := List.replicate (Section.alignUp size - size) 0

/-- The section of the body's clauses. -/
def encodeClauses (emitter : Emitter State) (body : Body) : Emission State (List UInt8) := do
  let offsets ← Emission.ofExcept (Code.offsets body.instructions)
  let clauses ← body.clauses.mapM (Section.toBytesOf emitter offsets.toArray)
  Emission.ofExcept (Section.sectionBytes clauses)

/-- Encodes a body. Tokens are asked for in the order in which they stand in the bytes. -/
def encode (emitter : Emitter State) (body : Body) : Emission State (List UInt8) := do
  Emission.ofExcept body.validate
  let code ← Code.encode emitter body.instructions
  if body.fitsTiny code.length then
    return Bytes.encode 1 (code.length * 4 + 2) ++ code
  let start := body.fatHeader code.length ++ code
  if body.clauses.isEmpty then return start
  let clauses ← body.encodeClauses emitter
  return start ++ padding start.length ++ clauses

end CilRelink.Body
