import Xwr100.Lib.Bytes
import Mathlib.Data.List.Induction
import Mathlib.Logic.Equiv.Defs
import Mathlib.Algebra.GroupWithZero.Nat

/-! # Layouts of fixed size

How a value is laid out in a fixed number of bytes.  A layout carries the proofs that writing and
reading are inverse to each other, so a record put together from layouts needs none of its own.
-/

namespace Xwr100.Lib

structure Codec (α : Type*) where
  size : Nat
  encode : α → List UInt8
  decode : List UInt8 → α
  length_encode : ∀ a, (encode a).length = size
  decode_encode : ∀ a, decode (encode a) = a
  encode_decode : ∀ bytes, bytes.length = size → encode (decode bytes) = bytes

attribute [simp] Codec.length_encode Codec.decode_encode

namespace Codec

variable {α β : Type*}

/-! ## Bytes and words -/

theorem ofBigEndian_append_singleton (bytes : List UInt8) (b : UInt8) :
    ofBigEndian (bytes ++ [b]) = ofBigEndian bytes * 256 + b.toNat := by
  simp [ofBigEndian]

theorem ofBigEndian_lt (bytes : List UInt8) : ofBigEndian bytes < 2 ^ (8 * bytes.length) := by
  induction bytes using List.reverseRecOn with
  | nil => exact Nat.one_pos
  | append_singleton bytes b ih =>
      have hb := b.toNat_lt
      rw [ofBigEndian_append_singleton, List.length_append, List.length_singleton, Nat.mul_add,
        Nat.pow_add]
      omega

theorem bigEndian_ofBigEndian (bytes : List UInt8) :
    bigEndian bytes.length (ofBigEndian bytes) = bytes := by
  induction bytes using List.reverseRecOn with
  | nil => rfl
  | append_singleton bytes b ih =>
      have hb := b.toNat_lt
      have hhigh : (ofBigEndian bytes * 256 + b.toNat) >>> 8 = ofBigEndian bytes := by
        rw [Nat.shiftRight_eq_div_pow]
        omega
      have hlow : UInt8.ofNat (ofBigEndian bytes * 256 + b.toNat) = b := by
        rw [← UInt8.toNat_inj, UInt8.toNat_ofNat']
        omega
      rw [ofBigEndian_append_singleton, List.length_append, List.length_singleton, bigEndian,
        hhigh, hlow, ih]

/-- A machine word of some bytes, the most significant first. -/
def word {w : Nat} (count : Nat) (hw : w = 8 * count) : Codec (BitVec w) where
  size := count
  encode v := bigEndian count v.toNat
  decode bytes := BitVec.ofNat w (ofBigEndian bytes)
  length_encode v := length_bigEndian count v.toNat
  decode_encode v := ofNat_ofBigEndian hw v
  encode_decode bytes h := by
    subst hw h
    have hlt := ofBigEndian_lt bytes
    rw [BitVec.toNat_ofNat, Nat.mod_eq_of_lt hlt, bigEndian_ofBigEndian]

/-- Two fields of four bits in one byte, the upper one first. -/
def nibbles : Codec (BitVec 4 × BitVec 4) where
  size := 1
  encode v := [UInt8.ofNat (v.1.toNat * 16 + v.2.toNat)]
  decode bytes :=
    (BitVec.ofNat 4 ((bytes.headD 0).toNat / 16), BitVec.ofNat 4 (bytes.headD 0).toNat)
  length_encode _ := rfl
  decode_encode v := by
    obtain ⟨upper, lower⟩ := v
    have hupper := upper.isLt
    have hlower := lower.isLt
    have hbyte : (UInt8.ofNat (upper.toNat * 16 + lower.toNat)).toNat =
        upper.toNat * 16 + lower.toNat := by
      rw [UInt8.toNat_ofNat']
      omega
    rw [List.headD_cons, hbyte, Prod.mk.injEq, ← BitVec.toNat_inj, ← BitVec.toNat_inj,
      BitVec.toNat_ofNat, BitVec.toNat_ofNat]
    omega
  encode_decode bytes h := by
    obtain ⟨b, rfl⟩ := List.length_eq_one_iff.mp h
    have hb := b.toNat_lt
    rw [List.headD_cons, List.cons.injEq, ← UInt8.toNat_inj, UInt8.toNat_ofNat',
      BitVec.toNat_ofNat, BitVec.toNat_ofNat]
    exact ⟨by omega, rfl⟩

/-- Bytes as they are; what is missing reads as zero. -/
def raw (count : Nat) : Codec { bytes : List UInt8 // bytes.length = count } where
  size := count
  encode := Subtype.val
  decode bytes := ⟨(bytes ++ List.replicate count 0).take count, by simp⟩
  length_encode v := v.property
  decode_encode v := Subtype.ext (List.take_left' v.property)
  encode_decode _ h := List.take_left' h

/-! ## Records -/

def seq (first : Codec α) (second : Codec β) : Codec (α × β) where
  size := first.size + second.size
  encode v := first.encode v.1 ++ second.encode v.2
  decode bytes := (first.decode (bytes.take first.size), second.decode (bytes.drop first.size))
  length_encode v := by simp
  decode_encode v := by
    have hlength := first.length_encode v.1
    rw [List.take_left' hlength, List.drop_left' hlength, first.decode_encode,
      second.decode_encode]
  encode_decode bytes h := by
    rw [first.encode_decode, second.encode_decode, List.take_append_drop]
    · rw [List.length_drop]
      omega
    · rw [List.length_take]
      omega

def congr (layout : Codec α) (e : α ≃ β) : Codec β where
  size := layout.size
  encode b := layout.encode (e.symm b)
  decode bytes := e (layout.decode bytes)
  length_encode b := layout.length_encode (e.symm b)
  decode_encode b := by rw [layout.decode_encode, e.apply_symm_apply]
  encode_decode bytes h := by rw [e.symm_apply_apply, layout.encode_decode bytes h]

end Codec

end Xwr100.Lib
