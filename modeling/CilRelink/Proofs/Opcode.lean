import Mathlib.Data.List.Chain
import Mathlib.Data.List.Nodup
import CilRelink.Opcode.Encoding

/-!
# Facts about the opcode table

What later proofs need to know about all opcodes is read off the table here, once: no two opcodes share a code, codes
of one byte leave out the byte that codes of two bytes begin with, and short branches are those that have a long
partner. After that, an opcode is known by its bytes alone.
-/

namespace CilRelink

namespace Opcode

/-! ## Bytes -/

theorem mem_all (opcode : Opcode) : opcode ∈ all := by
  apply List.mem_of_getElem? (i := opcode.ctorIdx)
  cases opcode <;> rfl

theorem code_injective : Function.Injective code := by
  have ascending : (all.map code).IsChain (· < ·) := by decide +kernel
  have distinct : (all.map code).Nodup := (List.isChain_iff_pairwise.mp ascending).imp Nat.ne_of_lt
  intro left right same
  exact List.inj_on_of_nodup_map distinct left.mem_all right.mem_all same

theorem ofCode?_code (opcode : Opcode) : ofCode? opcode.code = some opcode := by
  cases found : ofCode? opcode.code with
  | none =>
      have absent := List.find?_eq_none.mp found opcode opcode.mem_all
      simp at absent
  | some other =>
      have sameCode : other.code = opcode.code := by simpa using List.find?_some found
      rw [code_injective sameCode]

theorem code_range (opcode : Opcode) :
    if opcode.isTwoByte then 0xFE00 ≤ opcode.code ∧ opcode.code < 0xFF00 else opcode.code < 0xFE := by
  have inRange : ∀ opcode ∈ all,
      if opcode.isTwoByte then 0xFE00 ≤ opcode.code ∧ opcode.code < 0xFF00 else opcode.code < 0xFE := by
    decide +kernel
  exact inRange opcode opcode.mem_all

@[simp]
theorem length_bytes (opcode : Opcode) : opcode.bytes.length = opcode.size := by
  unfold bytes size
  split <;> rfl

theorem toNat_oneByte {opcode : Opcode} (oneByte : opcode.code < 0xFE) :
    (UInt8.ofNat opcode.code).toNat = opcode.code :=
  UInt8.toNat_ofNat_of_lt' (Nat.lt_trans oneByte (by decide))

theorem oneByte_ne_escapeByte {opcode : Opcode} (oneByte : opcode.code < 0xFE) :
    UInt8.ofNat opcode.code ≠ escapeByte := by
  intro same
  have number := congrArg UInt8.toNat same
  rw [toNat_oneByte oneByte] at number
  change opcode.code = 0xFE at number
  omega

theorem ofBytes?_oneByte {opcode : Opcode} (oneByte : opcode.code < 0xFE) :
    ofBytes? (UInt8.ofNat opcode.code) none = some opcode := by
  rw [ofBytes?, if_neg (oneByte_ne_escapeByte oneByte), toNat_oneByte oneByte]
  simp only [Opcode.oneByte, Array.getElem?_ofFn]
  rw [dif_pos (by omega), Option.join_some, ofCode?_code]

theorem ofBytes?_twoByte {opcode : Opcode} (low : 0xFE00 ≤ opcode.code) (high : opcode.code < 0xFF00) :
    ofBytes? escapeByte (some (UInt8.ofNat opcode.code)) = some opcode := by
  have second : (UInt8.ofNat opcode.code).toNat = opcode.code - 0xFE00 := by
    rw [UInt8.toNat_ofNat']
    omega
  rw [ofBytes?, if_pos rfl, Option.bind_some, second]
  simp only [Opcode.twoByte, Array.getElem?_ofFn]
  rw [dif_pos (by omega), Option.join_some]
  simp only [Nat.add_sub_of_le low, ofCode?_code]

theorem code_of_ofCode? {code : Nat} {opcode : Opcode} (found : ofCode? code = some opcode) : opcode.code = code := by
  simpa using List.find?_some found

theorem bytes_of_oneByte {first : UInt8} {second : Option UInt8} {opcode : Opcode} (different : first ≠ escapeByte)
    (known : ofBytes? first second = some opcode) : opcode.bytes = [first] := by
  rw [ofBytes?, if_neg different] at known
  simp only [oneByte, Array.getElem?_ofFn] at known
  rw [dif_pos first.toNat_lt, Option.join_some] at known
  have code := code_of_ofCode? known
  have small := first.toNat_lt
  have short : opcode.isTwoByte = false := by
    simp only [isTwoByte, decide_eq_false_iff_not, code]
    omega
  rw [bytes, short, if_neg (by decide), code, UInt8.ofNat_toNat]

theorem bytes_of_twoByte {second : UInt8} {opcode : Opcode}
    (known : ofBytes? escapeByte (some second) = some opcode) : opcode.bytes = [escapeByte, second] := by
  rw [ofBytes?, if_pos rfl, Option.bind_some] at known
  simp only [twoByte, Array.getElem?_ofFn] at known
  rw [dif_pos second.toNat_lt, Option.join_some] at known
  have code := code_of_ofCode? known
  have small := second.toNat_lt
  have long : opcode.isTwoByte = true := by
    simp only [isTwoByte, decide_eq_true_eq, code]
    omega
  have last : UInt8.ofNat opcode.code = second := by
    apply UInt8.toNat.inj
    rw [UInt8.toNat_ofNat', code]
    omega
  rw [bytes, long, if_pos rfl, last]

/-! ## Long partners -/

theorem isSome_widened?_iff (opcode : Opcode) :
    opcode.widened?.isSome = true ↔ opcode.operandKind = .shortBranch := by
  cases opcode <;> decide

theorem widened?_eq_none_of_branch {opcode : Opcode} (long : opcode.operandKind = .branch) :
    opcode.widened? = none := by
  have noPartner := mt (isSome_widened?_iff opcode).mp (by simp [long])
  simpa using noPartner

theorem size_of_widened? {opcode wide : Opcode} (pair : opcode.widened? = some wide) :
    wide.size = opcode.size := by
  cases opcode <;> simp only [widened?, reduceCtorEq, Option.some.injEq] at pair <;> subst pair <;> decide

end Opcode

end CilRelink
