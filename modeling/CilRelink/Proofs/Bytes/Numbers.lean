import Mathlib.Data.List.Basic
import CilRelink.Code.Decode
import CilRelink.Code.Encode

/-!
# Numbers read back

Numbers that fit their width are read back as they were written, whatever follows them. That is so for numbers with a
sign, and for rows of numbers of one width too. The other way round, what was read is what would be written, so that
no number has two forms.
-/

namespace CilRelink

namespace Bytes

theorem read_encode_of_lt {width number : Nat} (small : number < 256 ^ width) (rest : List UInt8) :
    read width (encode width number ++ rest) = some (number, rest) := by
  rw [read_encode_append, Nat.mod_eq_of_lt small]

theorem encode_one_append (number : Nat) (rest : List UInt8) :
    encode 1 number ++ rest = UInt8.ofNat number :: rest := rfl

theorem readMany_flatMap_encode (width : Nat) (numbers : List Nat) (rest : List UInt8) :
    readMany width numbers.length (numbers.flatMap (encode width) ++ rest) =
      some (numbers.map (· % 256 ^ width), rest) := by
  induction numbers with
  | nil => rfl
  | cons number numbers ih =>
      rw [List.flatMap_cons, List.append_assoc, List.length_cons, readMany, read_encode_append]
      simp only [ih, Option.map_some, List.map_cons]

/-- The bits of a number in two's complement. -/
def twosComplement (width : Nat) (number : Int) : Nat := (number % (256 ^ width : Nat)).toNat

theorem encodeSigned_eq (width : Nat) (number : Int) :
    encodeSigned width number = encode width (twosComplement width number) := rfl

theorem twosComplement_lt (width : Nat) (number : Int) : twosComplement width number < 256 ^ width := by
  have positive : (0 : Int) < (256 ^ width : Nat) := by exact_mod_cast Nat.pow_pos (by decide)
  have bound := Int.emod_lt_of_pos number positive
  have nonneg := Int.emod_nonneg number (Int.ne_of_gt positive)
  unfold twosComplement
  omega

theorem signed_twosComplement {width : Nat} {number : Int} (low : -(256 ^ width : Nat) ≤ number * 2)
    (high : number * 2 < (256 ^ width : Nat)) : Code.signed width (twosComplement width number) = number := by
  have positive : (0 : Int) < (256 ^ width : Nat) := by exact_mod_cast Nat.pow_pos (by decide)
  have nonneg := Int.emod_nonneg number (Int.ne_of_gt positive)
  unfold Code.signed twosComplement
  rw [Int.toNat_of_nonneg nonneg, Int.emod_bmod]
  exact Int.bmod_eq_of_le_mul_two low high

theorem signed_twosComplement_of_fitsByte {number : Int} (fits : Code.fitsByte number = true) :
    Code.signed 1 (twosComplement 1 number) = number := by
  simp only [Code.fitsByte, Bool.and_eq_true, decide_eq_true_eq] at fits
  apply signed_twosComplement <;> omega

theorem signed_twosComplement_of_fitsWord {number : Int} (fits : Code.fitsWord number = true) :
    Code.signed 4 (twosComplement 4 number) = number := by
  simp only [Code.fitsWord, Bool.and_eq_true, decide_eq_true_eq] at fits
  apply signed_twosComplement <;> omega

/-- Displacements of four bytes each are read back as a row. -/
theorem exists_readMany_encodeSigned {distances : List Int}
    (fits : ∀ distance ∈ distances, Code.fitsWord distance = true) (rest : List UInt8) :
    ∃ numbers, readMany 4 distances.length (distances.flatMap (encodeSigned 4) ++ rest) = some (numbers, rest) ∧
      numbers.map (Code.signed 4) = distances := by
  have row := readMany_flatMap_encode 4 (distances.map (twosComplement 4)) rest
  rw [List.length_map, List.flatMap_map] at row
  refine ⟨_, row, ?_⟩
  rw [List.map_map, List.map_map]
  refine (List.map_congr_left ?_).trans (List.map_id' distances)
  intro distance distanceMem
  rw [Function.comp_apply, Function.comp_apply, Nat.mod_eq_of_lt (twosComplement_lt 4 distance)]
  exact signed_twosComplement_of_fitsWord (fits distance distanceMem)

theorem length_flatMap_encodeSigned (width : Nat) (numbers : List Int) :
    (numbers.flatMap (encodeSigned width)).length = numbers.length * width := by
  induction numbers with
  | nil => simp
  | cons number numbers ih =>
      rw [List.flatMap_cons, List.length_append, ih, encodeSigned_eq, length_encode, List.length_cons, Nat.succ_mul,
        Nat.add_comm]

/-! ## What was read -/

theorem eq_encode_of_read {width number : Nat} {bytes rest : List UInt8}
    (found : read width bytes = some (number, rest)) :
    number < 256 ^ width ∧ bytes = encode width number ++ rest := by
  induction width generalizing bytes number with
  | zero =>
      simp only [read, Option.some.injEq, Prod.mk.injEq] at found
      rcases found with ⟨rfl, rfl⟩
      exact ⟨by decide, rfl⟩
  | succ width ih =>
      cases bytes with
      | nil => simp [read] at found
      | cons byte bytes =>
          simp only [read, Option.map_eq_some_iff] at found
          rcases found with ⟨⟨high, tail⟩, step, same⟩
          rcases Prod.mk.inj same with ⟨rfl, rfl⟩
          rcases ih step with ⟨small, made⟩
          have low := byte.toNat_lt
          have firstByte : UInt8.ofNat (byte.toNat + 256 * high) = byte := by
            apply UInt8.toNat.inj
            rw [UInt8.toNat_ofNat']
            omega
          have others : (byte.toNat + 256 * high) / 256 = high := by omega
          refine ⟨?_, by rw [encode, firstByte, others, List.cons_append, ← made]⟩
          rw [Nat.pow_succ]
          omega

theorem eq_flatMap_encode_of_readMany {width count : Nat} {bytes rest : List UInt8} {numbers : List Nat}
    (found : readMany width count bytes = some (numbers, rest)) :
    numbers.length = count ∧ (∀ number ∈ numbers, number < 256 ^ width) ∧
      bytes = numbers.flatMap (encode width) ++ rest := by
  induction count generalizing bytes numbers with
  | zero =>
      simp only [readMany, Option.some.injEq, Prod.mk.injEq] at found
      rcases found with ⟨rfl, rfl⟩
      simp
  | succ count ih =>
      unfold readMany at found
      split at found
      · cases found
      · rename_i number tail first
        rw [Option.map_eq_some_iff] at found
        rcases found with ⟨⟨more, last⟩, step, same⟩
        rcases Prod.mk.inj same with ⟨rfl, rfl⟩
        rcases eq_encode_of_read first with ⟨small, rfl⟩
        rcases ih step with ⟨counted, othersSmall, rfl⟩
        refine ⟨by rw [List.length_cons, counted], List.forall_mem_cons.mpr ⟨small, othersSmall⟩, ?_⟩
        rw [List.flatMap_cons, List.append_assoc]

theorem twosComplement_signed {width number : Nat} (small : number < 256 ^ width) :
    twosComplement width (Code.signed width number) = number := by
  unfold twosComplement Code.signed
  rw [Int.bmod_emod, Int.emod_eq_of_lt (Int.natCast_nonneg number) (by exact_mod_cast small), Int.toNat_natCast]

theorem signed_range (width number : Nat) :
    -(256 ^ width : Nat) ≤ Code.signed width number * 2 ∧ Code.signed width number * 2 < (256 ^ width : Nat) := by
  have positive : 0 < 256 ^ width := Nat.pow_pos (by decide)
  have low : -((256 ^ width : Nat) / 2 : Int) ≤ Int.bmod number (256 ^ width) := Int.le_bmod positive
  have high : Int.bmod number (256 ^ width) < ((256 ^ width : Nat) + 1 : Int) / 2 := Int.bmod_lt positive
  unfold Code.signed
  omega

theorem fitsByte_signed (number : Nat) : Code.fitsByte (Code.signed 1 number) = true := by
  have range := signed_range 1 number
  simp only [Code.fitsByte, Bool.and_eq_true, decide_eq_true_eq]
  omega

theorem fitsWord_signed (number : Nat) : Code.fitsWord (Code.signed 4 number) = true := by
  have range := signed_range 4 number
  simp only [Code.fitsWord, Bool.and_eq_true, decide_eq_true_eq]
  omega

/-- A row of displacements is written as it was read. -/
theorem flatMap_encodeSigned_signed {width : Nat} {numbers : List Nat}
    (small : ∀ number ∈ numbers, number < 256 ^ width) :
    (numbers.map (Code.signed width)).flatMap (encodeSigned width) = numbers.flatMap (encode width) := by
  rw [List.flatMap_map]
  refine List.flatMap_congr ?_
  intro number numberMem
  rw [encodeSigned_eq, twosComplement_signed (small number numberMem)]

/-! ## Numbers by their places -/

/-- A number can be read exactly if there are bytes enough. -/
theorem read_eq (width : Nat) (bytes : List UInt8) :
    read width bytes =
      if width ≤ bytes.length then some (decode (bytes.take width), bytes.drop width) else none := by
  induction width generalizing bytes with
  | zero => simp [read, decode]
  | succ width ih =>
      cases bytes with
      | nil => simp [read]
      | cons byte bytes =>
          rw [read, ih]
          by_cases enough : width ≤ bytes.length
          · rw [if_pos enough, if_pos (by simpa using enough)]
            rfl
          · rw [if_neg enough, if_neg (by simpa using enough)]
            rfl

/-- The number in the `width` bytes at `offset`. -/
def fieldAt (bytes : List UInt8) (offset width : Nat) : Nat := decode ((bytes.drop offset).take width)

theorem read_drop (width : Nat) (bytes : List UInt8) (offset : Nat) :
    read width (bytes.drop offset) =
      if width ≤ bytes.length - offset then some (fieldAt bytes offset width, bytes.drop (offset + width))
      else none := by
  rw [read_eq, List.length_drop, List.drop_drop, fieldAt]

theorem fieldAt_lt {bytes : List UInt8} {offset width : Nat} (inside : offset + width ≤ bytes.length) :
    fieldAt bytes offset width < 256 ^ width := by
  have found := read_drop width bytes offset
  rw [if_pos (by omega)] at found
  exact (eq_encode_of_read found).1

theorem fieldAt_append {bytes : List UInt8} {offset width : Nat} (inside : offset + width ≤ bytes.length)
    (rest : List UInt8) : fieldAt (bytes ++ rest) offset width = fieldAt bytes offset width := by
  unfold fieldAt
  rw [List.drop_append_of_le_length (by omega), List.take_append_of_le_length (by rw [List.length_drop]; omega)]

end Bytes

end CilRelink
