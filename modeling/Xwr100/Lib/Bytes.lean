import Mathlib.Tactic.Common

/-! # Numbers as bytes

Big-endian byte strings of a fixed length, as the target stores its integers.
-/

namespace Xwr100.Lib

/-- The `count` low bytes of a number, the most significant first. -/
def bigEndian : Nat → Nat → List UInt8
  | 0, _ => []
  | count + 1, v => bigEndian count (v >>> 8) ++ [UInt8.ofNat v]

def ofBigEndian (bytes : List UInt8) : Nat := bytes.foldl (fun v b => v * 256 + b.toNat) 0

@[simp] theorem length_bigEndian (count v : Nat) : (bigEndian count v).length = count := by
  induction count generalizing v with
  | zero => rfl
  | succ count ih => simp [bigEndian, ih]

theorem ofBigEndian_bigEndian {count v : Nat} (h : v >>> (8 * count) = 0) :
    ofBigEndian (bigEndian count v) = v := by
  induction count generalizing v with
  | zero => simpa [bigEndian, ofBigEndian] using h.symm
  | succ count ih =>
      have hhigh : (v >>> 8) >>> (8 * count) = 0 := by
        rw [← Nat.shiftRight_add, Nat.add_comm]
        exact h
      have hbyte : (UInt8.ofNat v).toNat = v % 256 := UInt8.toNat_ofNat'
      have hdiv : v >>> 8 = v / 256 := Nat.shiftRight_eq_div_pow v 8
      unfold ofBigEndian at ih ⊢
      rw [bigEndian, List.foldl_append, ih hhigh, List.foldl_cons, List.foldl_nil, hbyte, hdiv]
      omega

theorem ofNat_ofBigEndian {w count : Nat} (hw : w = 8 * count) (x : BitVec w) :
    BitVec.ofNat w (ofBigEndian (bigEndian count x.toNat)) = x := by
  have hfits : x.toNat >>> (8 * count) = 0 := by
    rw [← hw]
    exact Nat.shiftRight_eq_zero _ _ x.isLt
  rw [ofBigEndian_bigEndian hfits, BitVec.ofNat_toNat, BitVec.setWidth_eq]

end Xwr100.Lib
