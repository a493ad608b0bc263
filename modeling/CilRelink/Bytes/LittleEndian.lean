import CilRelink.Arithmetic

/-!
# Little-endian numbers

Numbers of a fixed number of bytes, the least significant byte first. `read (width) (encode width n ++ rest)`
gives back `n` modulo `256 ^ width` and `rest`, so code can be read in pieces without any positions.
-/
namespace CilRelink.Bytes

/-- The low `width` bytes of `number`. -/
def encode : (width number : Nat) → List UInt8
  | 0, _ => []
  | width + 1, number => UInt8.ofNat number :: encode width (number / 256)

/-- The number whose bytes are `bytes`. -/
def decode : List UInt8 → Nat
  | [] => 0
  | byte :: bytes => byte.toNat + 256 * decode bytes

/-- The number in the first `width` bytes and the bytes after it, unless there are too few. -/
def read : (width : Nat) → List UInt8 → Option (Nat × List UInt8)
  | 0, bytes => some (0, bytes)
  | _ + 1, [] => none
  | width + 1, byte :: bytes =>
    (read width bytes).map fun (number, rest) => (byte.toNat + 256 * number, rest)

/-- `count` numbers of `width` bytes each and the bytes after them, unless there are too few. -/
def readMany (width : Nat) : (count : Nat) → List UInt8 → Option (List Nat × List UInt8)
  | 0, bytes => some ([], bytes)
  | count + 1, bytes =>
    match read width bytes with
    | none => none
    | some (number, rest) => (readMany width count rest).map fun (numbers, rest) => (number :: numbers, rest)

@[simp]
theorem length_encode (width number : Nat) : (encode width number).length = width := by
  induction width generalizing number with
  | zero => rfl
  | succ width ih => simp [encode, ih]

theorem read_encode_append (width number : Nat) (rest : List UInt8) :
    read width (encode width number ++ rest) = some (number % 256 ^ width, rest) := by
  induction width generalizing number with
  | zero => simp [read, encode, Nat.mod_one]
  | succ width ih =>
    simp only [encode, List.cons_append, read, ih, Option.map_some, Option.some.injEq, Prod.mk.injEq, and_true]
    rw [Nat.pow_succ', Nat.mod_mul]
    simp

theorem length_of_read {width : Nat} {bytes rest : List UInt8} {number : Nat}
    (found : read width bytes = some (number, rest)) : bytes.length = width + rest.length := by
  induction width generalizing bytes number with
  | zero =>
    simp only [read, Option.some.injEq, Prod.mk.injEq] at found
    simp [found.2]
  | succ width ih =>
    cases bytes with
    | nil => simp [read] at found
    | cons byte bytes =>
      simp only [read, Option.map_eq_some_iff] at found
      obtain ⟨⟨low, tail⟩, step, same⟩ := found
      obtain ⟨-, rfl⟩ := Prod.mk.inj same
      simp only [List.length_cons, ih step]
      omega

theorem length_of_readMany {width count : Nat} {bytes rest : List UInt8} {numbers : List Nat}
    (found : readMany width count bytes = some (numbers, rest)) :
    bytes.length = count * width + rest.length := by
  induction count generalizing bytes numbers with
  | zero =>
    simp only [readMany, Option.some.injEq, Prod.mk.injEq] at found
    simp [found.2]
  | succ count ih =>
    unfold readMany at found
    split at found
    · simp at found
    · rename_i number tail first
      rw [Option.map_eq_some_iff] at found
      obtain ⟨⟨more, last⟩, step, same⟩ := found
      obtain ⟨-, rfl⟩ := Prod.mk.inj same
      rw [length_of_read first, ih step, Nat.succ_mul]
      omega

end CilRelink.Bytes
