import Xwr100.Lib.Bytes
import Xwr100.Lib.OnesComplement
import Xwr100.Netfilter.Ipt404

/-! # Two internet checksums

`in_cksum` of the IGMP proxy and `checksum` of the DHCP server.  Both add up the 16-bit words of a
buffer in an `int`; the first adds in the carries once, the second until none is left.  The CPU is
big-endian.  A sum that does not fit an `int` ends the model's run with nothing.
-/

namespace Xwr100.Net

open Lib

abbrev Bytes := List UInt8

/-! ## The functions -/

def addInt (sum word : Nat) : Option Nat := if sum + word < 2 ^ 31 then some (sum + word) else none

/-- The loop over the words; a byte that is left over is the first of a word whose other is zero. -/
def addWords : Bytes → Nat → Option Nat
  | [], sum => some sum
  | [a], sum => addInt sum (a.toNat * 256)
  | a :: b :: rest, sum => (addInt sum (a.toNat * 256 + b.toNat)).bind (addWords rest)

/-- The low half of `~sum`. -/
def complement (sum : Nat) : Nat := 0xffff - sum % 0x10000

def inCksum (addr : Bytes) : Option Nat :=
  (addWords addr 0).map fun sum => complement ((sum >>> 16) + sum % 0x10000)

/-- The loop at the end of `checksum`. -/
def foldCarries (sum : Nat) : Nat :=
  if sum >>> 16 = 0 then sum else foldCarries (sum % 0x10000 + (sum >>> 16))
termination_by sum
decreasing_by
  rw [Nat.shiftRight_eq_div_pow] at *
  omega

def checksum (addr : Bytes) : Option Nat :=
  (addWords addr 0).map fun sum => complement (foldCarries sum)

/-! ## The checksum of RFC 1071 -/

/-- Adjacent octets paired to words; an odd octet is padded with zero on the right. -/
def words : Bytes → List Nat
  | [] => []
  | [a] => [a.toNat * 256]
  | a :: b :: rest => (a.toNat * 256 + b.toNat) :: words rest

def rfc1071 (addr : Bytes) : Nat := 0xffff - onesSum 0x10000 (words addr)

/-- A message that its checksum is put into, where it held zero, sums up to zero. -/
def Verifies (sum : Bytes → Option Nat) (addr : Bytes) : Prop :=
  ∀ front back c, front.length % 2 = 0 → addr = front ++ ([0, 0] ++ back) → sum addr = some c →
    sum (front ++ (bigEndian 2 c ++ back)) = some 0

structure ChecksumsRight (addr : Bytes) : Prop where
  inCksum : inCksum addr = some (rfc1071 addr)
  checksum : checksum addr = some (rfc1071 addr)
  agree : Net.inCksum addr = Net.checksum addr
  inCksumVerifies : Verifies Net.inCksum addr
  checksumVerifies : Verifies Net.checksum addr

/-! ## The sum of the words -/

theorem words_lt {addr : Bytes} : ∀ w ∈ words addr, w < 0x10000 := by
  induction addr using words.induct with
  | case1 => simp [words]
  | case2 a =>
      have ha := a.toNat_lt
      simp [words]
      omega
  | case3 a b rest ih =>
      have ha := a.toNat_lt
      have hb := b.toNat_lt
      rw [words, List.forall_mem_cons]
      exact ⟨by omega, ih⟩

theorem sum_words_le (addr : Bytes) : 2 * (words addr).sum ≤ 0xffff * (addr.length + 1) := by
  induction addr using words.induct with
  | case1 => simp [words]
  | case2 a =>
      have ha := a.toNat_lt
      simp [words]
      omega
  | case3 a b rest ih =>
      have ha := a.toNat_lt
      have hb := b.toNat_lt
      rw [words, List.sum_cons, List.length_cons, List.length_cons]
      omega

theorem addWords_eq {addr : Bytes} {sum : Nat} (h : sum + (words addr).sum < 2 ^ 31) :
    addWords addr sum = some (sum + (words addr).sum) := by
  induction addr using words.induct generalizing sum with
  | case1 => rfl
  | case2 a =>
      simp only [words, List.sum_cons, List.sum_nil, Nat.add_zero] at h ⊢
      exact if_pos h
  | case3 a b rest ih =>
      rw [words, List.sum_cons, ← Nat.add_assoc] at h ⊢
      have hstep : addInt sum (a.toNat * 256 + b.toNat) = some (sum + (a.toNat * 256 + b.toNat)) :=
        if_pos (Nat.lt_of_le_of_lt (Nat.le_add_right _ _) h)
      rw [addWords, hstep, Option.bind_some, ih h]

theorem addWords_of_length {addr : Bytes} (h : addr.length ≤ 65535) :
    addWords addr 0 = some (words addr).sum := by
  have hsum := sum_words_le addr
  rw [addWords_eq (by omega), Nat.zero_add]

/-! ## The folds -/

theorem foldCarries_eq (sum : Nat) : foldCarries sum = wordOf 0x10000 sum := by
  induction sum using foldCarries.induct with
  | case1 sum h =>
      rw [Nat.shiftRight_eq_div_pow] at h
      rw [foldCarries, if_pos (by rw [Nat.shiftRight_eq_div_pow]; exact h),
        wordOf_of_lt (by omega)]
  | case2 sum h ih =>
      have hsplit : sum = sum % 0x10000 + (sum >>> 16) + (sum >>> 16) * (0x10000 - 1) := by
        rw [Nat.shiftRight_eq_div_pow]
        omega
      rw [foldCarries, if_neg h, ih]
      conv_rhs => rw [hsplit]
      exact (wordOf_add_mul (by rw [Nat.shiftRight_eq_div_pow]; omega) _).symm

/-- Adding in the carries once leaves none. -/
def OneFold (addr : Bytes) : Prop :=
  (words addr).sum / 0x10000 + (words addr).sum % 0x10000 < 0x10000

instance (addr : Bytes) : Decidable (OneFold addr) := inferInstanceAs (Decidable (_ < _))

theorem rfc1071_eq (addr : Bytes) : rfc1071 addr = 0xffff - wordOf 0x10000 (words addr).sum := by
  rw [rfc1071, onesSum_eq (by decide) words_lt]

theorem complement_of_lt {n : Nat} (h : n < 0x10000) : complement n = 0xffff - n := by
  rw [complement, Nat.mod_eq_of_lt h]

theorem checksum_eq_rfc1071 {addr : Bytes} (h : addr.length ≤ 65535) :
    checksum addr = some (rfc1071 addr) := by
  rw [checksum, addWords_of_length h, Option.map_some, foldCarries_eq, rfc1071_eq,
    complement_of_lt (wordOf_lt (by decide) _)]

theorem inCksum_eq {addr : Bytes} (h : addr.length ≤ 65535) : inCksum addr =
    some (complement ((words addr).sum / 0x10000 + (words addr).sum % 0x10000)) := by
  rw [inCksum, addWords_of_length h, Option.map_some, Nat.shiftRight_eq_div_pow]

theorem complement_fold_iff {total : Nat} (h : total < 2 ^ 31) :
    complement (total / 0x10000 + total % 0x10000) = 0xffff - wordOf 0x10000 total ↔
      total / 0x10000 + total % 0x10000 < 0x10000 := by
  by_cases hzero : total = 0
  · rw [hzero]
    decide
  · have hsplit : total =
        total / 0x10000 + total % 0x10000 + total / 0x10000 * (0x10000 - 1) := by omega
    have hword : wordOf 0x10000 total =
        wordOf 0x10000 (total / 0x10000 + total % 0x10000) := by
      conv_lhs => rw [hsplit]
      exact wordOf_add_mul (by omega) _
    rw [hword]
    by_cases hlt : total / 0x10000 + total % 0x10000 < 0x10000
    · rw [complement_of_lt hlt, wordOf_of_lt hlt]
      exact iff_of_true rfl hlt
    · have hcarry : total / 0x10000 + total % 0x10000 =
          total / 0x10000 + total % 0x10000 - 0xffff + 1 * (0x10000 - 1) := by omega
      have hrest : wordOf 0x10000 (total / 0x10000 + total % 0x10000) =
          total / 0x10000 + total % 0x10000 - 0xffff := by
        conv_lhs => rw [hcarry]
        rw [wordOf_add_mul (by omega), wordOf_of_lt (by omega)]
      rw [hrest, complement]
      exact iff_of_false (by omega) hlt

theorem inCksum_eq_rfc1071 {addr : Bytes} (h : addr.length ≤ 65535) :
    inCksum addr = some (rfc1071 addr) ↔ OneFold addr := by
  have hsum := sum_words_le addr
  rw [inCksum_eq h, rfc1071_eq, Option.some.injEq, complement_fold_iff (by omega)]
  rfl

/-! ## A message with its checksum -/

theorem words_append {front : Bytes} (h : front.length % 2 = 0) (back : Bytes) :
    words (front ++ back) = words front ++ words back := by
  induction front using words.induct with
  | case1 => rfl
  | case2 a => cases h
  | case3 a b rest ih =>
      rw [List.length_cons, List.length_cons] at h
      rw [List.cons_append, List.cons_append, words, words, ih (by omega), List.cons_append]

theorem sum_words_insert {front back : Bytes} (h : front.length % 2 = 0) {c : Nat}
    (hc : c < 0x10000) : (words (front ++ (bigEndian 2 c ++ back))).sum =
      (words (front ++ ([0, 0] ++ back))).sum + c := by
  have hbytes : bigEndian 2 c = [UInt8.ofNat (c >>> 8), UInt8.ofNat c] := rfl
  have hhigh : (UInt8.ofNat (c >>> 8)).toNat = c / 256 := by
    rw [UInt8.toNat_ofNat', Nat.shiftRight_eq_div_pow]
    omega
  have hlow : (UInt8.ofNat c).toNat = c % 256 := UInt8.toNat_ofNat'
  rw [words_append h, words_append h, List.sum_append, List.sum_append, hbytes]
  simp only [List.cons_append, List.nil_append, words, List.sum_cons, hhigh, hlow]
  change _ = _ + (0 * 256 + 0 + _) + _
  omega

theorem length_insert (front back : Bytes) (c : Nat) :
    (front ++ (bigEndian 2 c ++ back)).length = (front ++ ([0, 0] ++ back)).length := by
  rw [List.length_append, List.length_append, List.length_append, List.length_append,
    length_bigEndian]
  rfl

theorem checksum_verifies {addr : Bytes} (h : addr.length ≤ 65535) : Verifies checksum addr := by
  rintro front back c heven rfl hc
  rw [checksum_eq_rfc1071 h, Option.some.injEq, rfc1071_eq] at hc
  have hlt : c < 0x10000 := by omega
  rw [checksum_eq_rfc1071 (by rw [length_insert]; exact h), rfc1071_eq, sum_words_insert heven hlt,
    ← hc, wordOf_add_complement (by decide)]

/-- With its own complement added, a sum that needs one fold still needs one. -/
theorem complement_fold_add {total c : Nat} (htotal : total < 2 ^ 31)
    (hc : total / 0x10000 + total % 0x10000 + c = 0xffff) :
    complement ((total + c) / 0x10000 + (total + c) % 0x10000) = 0 := by
  have hhigh : (total + c) / 0x10000 = total / 0x10000 := by omega
  have hlow : (total + c) % 0x10000 = 0xffff - total / 0x10000 := by omega
  have hsum : total / 0x10000 + (0xffff - total / 0x10000) = 0xffff := by omega
  rw [hhigh, hlow, hsum]
  rfl

/-- So it does for the function that folds once, if once is enough. -/
theorem inCksum_verifies {addr : Bytes} (h : addr.length ≤ 65535) (hfold : OneFold addr) :
    Verifies inCksum addr := by
  rintro front back c heven rfl hc
  rw [inCksum_eq h, Option.some.injEq, complement_of_lt hfold] at hc
  have hsum := sum_words_le (front ++ ([0, 0] ++ back))
  unfold OneFold at hfold
  rw [inCksum_eq (by rw [length_insert]; exact h), sum_words_insert heven (by omega),
    complement_fold_add (by omega) (by omega)]

/-- The two functions are right about a buffer exactly if the sum of its words needs one fold. -/
theorem checksums_right_iff {addr : Bytes} (h : addr.length ≤ 65535) :
    ChecksumsRight addr ↔ OneFold addr := by
  constructor
  · intro hright
    exact (inCksum_eq_rfc1071 h).mp hright.inCksum
  · intro hfold
    have hin := (inCksum_eq_rfc1071 h).mpr hfold
    have hcheck := checksum_eq_rfc1071 h
    exact {
      inCksum := hin
      checksum := hcheck
      agree := hin.trans hcheck.symm
      inCksumVerifies := inCksum_verifies h hfold
      checksumVerifies := checksum_verifies h }

/-- A general query. -/
theorem checksums_right_query : ChecksumsRight [0x11, 0x64, 0, 0, 0, 0, 0, 0] :=
  (checksums_right_iff (by decide)).mpr (by decide)

/-- A query for the group 238.156.255.255: adding in the carry of its words makes another one. -/
theorem checksums_wrong : ¬ChecksumsRight [0x11, 0x64, 0, 0, 238, 156, 255, 255] := by
  intro hright
  have hin := hright.inCksum
  revert hin
  decide

/-! ## The sums of the 404 target -/

theorem csumPartial_eq (addr : Bytes) : Ipt404.csumPartial addr = (words addr).sum := by
  induction addr using words.induct with
  | case1 => rfl
  | case2 a => simp [Ipt404.csumPartial, words]
  | case3 a b rest ih => rw [Ipt404.csumPartial, ih, words, List.sum_cons]

/-- The kernel's functions compute what `checksum` does. -/
theorem checksum_eq_csumFold {addr : Bytes} (h : addr.length ≤ 65535) :
    checksum addr = some (Ipt404.csumFold (Ipt404.csumPartial addr)) := by
  rw [checksum_eq_rfc1071 h, rfc1071_eq, csumPartial_eq, Ipt404.csumFold, wordOf]

end Xwr100.Net
