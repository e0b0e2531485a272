import Xwr100.Lib.Bits
import Xwr100.Www.FieldChecks

/-! # Netmask checks

`CheckSubnetRule` of `wan.js` goes over the four octets of a mask; `IsLegalSubnet` and
`_IsLegalSubnet` of `nsutil.js` write the mask as a text of binary digits and scan that.
-/

namespace Xwr100.Www.Netmask

open Lib EditList FieldChecks

/-! ## The checks -/

/-- The octets that end in zeros and are not 255. -/
def partialOctets : List Int := [254, 252, 248, 240, 224, 192, 128, 0]

/-- The loop of `CheckSubnetRule`; an octet that is no number is unequal to all. -/
def checkOctets : Bool → List (Option Int) → Bool
  | _, [] => true
  | zeroflag, d :: rest =>
      if zeroflag && d != some 0 then false
      else if d != some 255 then
        if partialOctets.all fun octet => d != some octet then false else checkOctets true rest
      else checkOctets zeroflag rest

def checkSubnetRule (subnet : Text) : Bool :=
  let subnetarray := subnet.splitOn '.'
  checkOctets false ((List.range 4).map fun i => subnetarray[i]?.bind parseInt)

/-- The loop of `ToBinary`: the binary digits, the last one first. -/
def binaryDigits (item : Nat) : Text :=
  if item = 0 then [] else Nat.digitChar (item % 2) :: binaryDigits (item / 2)
termination_by item

def padZeros (length : Nat) (t : Text) : Text := t ++ List.replicate (length - t.length) '0'

/-- `ToBinary` of a number. -/
def toBinary (item : Nat) : Text := (padZeros 8 (binaryDigits item)).reverse

/-- The binary digits of the parts of a mask; none when a part is no row of digits. -/
def binarySubnet (subnet : Text) : Option Text :=
  ((subnet.splitOn '.').mapM wholeNumber).map fun arr => arr.flatMap toBinary

/-- Where the first loop over the digits stops. -/
def firstNotOne : Text → Nat
  | [] => 0
  | c :: t => if c ≠ '1' then 0 else firstNotOne t + 1

/-- What the second loop looks for, from the position behind. -/
def laterOne (t : Text) : Bool := (t.drop (firstNotOne t + 1)).any fun c => c == '1'

def isLegalSubnet (subnet : Text) : Option Bool :=
  (binarySubnet subnet).map fun binary_subnet => !laterOne binary_subnet

/-- The end of `_IsLegalSubnet`: the bits of the host, or -1. -/
def hostIDBits (bits : Int) (binary_subnet : Text) : Int :=
  let networkID_bits := 32 - bits
  let subnet_hostID_bits : Int := if laterOne binary_subnet then -1 else firstNotOne binary_subnet
  if subnet_hostID_bits ≠ -1 then
    if networkID_bits > subnet_hostID_bits then -1
    else bits - (subnet_hostID_bits - networkID_bits)
  else subnet_hostID_bits

/-- `_IsLegalSubnet` -/
def isLegalSubnetBits (subnet : Text) (bits : Int) : Option Int :=
  (binarySubnet subnet).map (hostIDBits bits)

/-! ## Masks -/

def DottedQuad (subnet : Text) (octets : List Nat) : Prop :=
  (subnet.splitOn '.').map wholeNumber = octets.map some ∧ octets.length = 4 ∧
    ∀ octet ∈ octets, octet ≤ 255

def address (octets : List Nat) : Nat := octets.foldl (fun v octet => v * 2 ^ 8 + octet) 0

/-- The checks agree about a mask, and the number of bits for hosts is the one that the mask
leaves. -/
structure MaskRight (subnet : Text) (octets : List Nat) : Prop where
  checkSubnetRule : checkSubnetRule subnet = true ↔ IsMask (bits 32 (address octets))
  isLegalSubnet : ∃ legal, isLegalSubnet subnet = some legal ∧
    (legal = true ↔ IsMask (bits 32 (address octets)))
  isLegalSubnetBits : ∃ n, isLegalSubnetBits subnet 32 = some n ∧
    (0 ≤ n ↔ IsMask (bits 32 (address octets)))
  hostBits : ∀ ones, OnesThenZeros (bits 32 (address octets)) ones → ∀ bits : Int,
    32 - bits ≤ ones → Netmask.isLegalSubnetBits subnet bits = some (32 - (ones : Int))

/-! ## Octets as bits -/

def bitChar (b : Bool) : Char := if b then '1' else '0'

theorem padZeros_binaryDigits {width v : Nat} (h : v < 2 ^ width) :
    (padZeros width (binaryDigits v)).reverse = (bits width v).map bitChar := by
  induction width generalizing v with
  | zero =>
      obtain rfl : v = 0 := by simpa using h
      simp [padZeros, binaryDigits, bits]
  | succ width ih =>
      rw [Nat.pow_succ] at h
      rw [bits, List.map_append, ← ih (by omega)]
      by_cases hv : v = 0
      · simp [hv, padZeros, binaryDigits, bitChar, List.replicate_succ]
      · have hdigit : Nat.digitChar (v % 2) = bitChar (v % 2 == 1) := by
          rcases Nat.mod_two_eq_zero_or_one v with hmod | hmod <;> rw [hmod] <;> rfl
        have hlength : width + 1 - ((binaryDigits (v / 2)).length + 1) =
            width - (binaryDigits (v / 2)).length := by omega
        rw [binaryDigits, if_neg hv, padZeros, List.length_cons, List.cons_append, hlength,
          List.reverse_cons, hdigit]
        rfl

theorem flatMap_toBinary {octets : List Nat} (h : ∀ octet ∈ octets, octet ≤ 255) :
    octets.flatMap toBinary = (octets.flatMap (bits 8)).map bitChar := by
  induction octets with
  | nil => rfl
  | cons octet rest ih =>
      have hoctet : octet < 2 ^ 8 := Nat.lt_succ_of_le (h octet List.mem_cons_self)
      have hbinary : toBinary octet = (bits 8 octet).map bitChar := padZeros_binaryDigits hoctet
      rw [List.flatMap_cons, List.flatMap_cons, List.map_append, hbinary,
        ih fun o ho => h o (List.mem_cons_of_mem octet ho)]

theorem bits_foldl {octets : List Nat} (h : ∀ octet ∈ octets, octet ≤ 255) (width v : Nat) :
    bits (width + 8 * octets.length) (octets.foldl (fun v octet => v * 2 ^ 8 + octet) v) =
      bits width v ++ octets.flatMap (bits 8) := by
  induction octets generalizing width v with
  | nil => simp
  | cons octet rest ih =>
      have hoctet : octet < 2 ^ 8 := Nat.lt_succ_of_le (h octet List.mem_cons_self)
      have hwidth : width + 8 * (rest.length + 1) = width + 8 + 8 * rest.length := by omega
      rw [List.length_cons, hwidth, List.foldl_cons,
        ih fun o ho => h o (List.mem_cons_of_mem octet ho), bits_mul_add width 8 v hoctet,
        List.flatMap_cons, List.append_assoc]

theorem bits_address {subnet : Text} {octets : List Nat} (h : DottedQuad subnet octets) :
    bits 32 (address octets) = octets.flatMap (bits 8) := by
  have hbits := bits_foldl h.2.2 0 0
  rw [h.2.1] at hbits
  exact hbits

/-! ## The whitelist -/

theorem zeros_iff : ∀ octet ≤ 255, true ∉ bits 8 octet ↔ octet = 0 := by decide +kernel

theorem ones_iff : ∀ octet ≤ 255, false ∉ bits 8 octet ↔ octet = 255 := by decide +kernel

theorem isMask_octet : ∀ octet ≤ 255,
    IsMask (bits 8 octet) ↔ octet = 255 ∨ (octet : Int) ∈ partialOctets := by decide +kernel

/-- Behind an octet that is not 255 there may only be zeros. -/
theorem checkOctets_true {octets : List Nat} (h : ∀ octet ∈ octets, octet ≤ 255) :
    checkOctets true (octets.map fun octet : Nat => some (octet : Int)) = true ↔
      true ∉ octets.flatMap (bits 8) := by
  induction octets with
  | nil => simp [checkOctets]
  | cons octet rest ih =>
      have hrest := ih fun o ho => h o (List.mem_cons_of_mem octet ho)
      have hzeros := zeros_iff octet (h octet List.mem_cons_self)
      rw [List.map_cons, checkOctets, List.flatMap_cons, List.mem_append, not_or, hzeros, ← hrest]
      by_cases hzero : octet = 0
      · simp [hzero, partialOctets]
      · simp [hzero]

theorem checkOctets_false {octets : List Nat} (h : ∀ octet ∈ octets, octet ≤ 255) :
    checkOctets false (octets.map fun octet : Nat => some (octet : Int)) = true ↔
      IsMask (octets.flatMap (bits 8)) := by
  induction octets with
  | nil => simp [checkOctets, isMask_iff]
  | cons octet rest ih =>
      have hle := h octet List.mem_cons_self
      have hall : ∀ o ∈ rest, o ≤ 255 := fun o ho => h o (List.mem_cons_of_mem octet ho)
      rw [List.map_cons, checkOctets, List.flatMap_cons, isMask_append, ones_iff octet hle,
        isMask_octet octet hle, ← ih hall, ← checkOctets_true hall]
      by_cases hones : octet = 255
      · -- zeros behind an octet of ones are a mask too
        have hzeros : checkOctets true (rest.map fun octet : Nat => some (octet : Int)) = true →
            checkOctets false (rest.map fun octet : Nat => some (octet : Int)) = true := by
          rw [checkOctets_true hall, ih hall]
          exact isMask_of_zeros
        simp [hones]
        exact hzeros
      · have hcast : (octet : Int) ≠ 255 := by omega
        by_cases hpartial : (octet : Int) ∈ partialOctets
        · simp [hones, hcast, hpartial]
        · simp [hones, hcast, hpartial]

/-! ## The scans -/

theorem firstNotOne_bits (l : List Bool) : firstNotOne (l.map bitChar) = leadingOnes l := by
  induction l with
  | nil => rfl
  | cons b l ih =>
      cases b with
      | false => rfl
      | true => simp [firstNotOne, leadingOnes, bitChar, ← ih]

/-- The position that the second loop leaves out holds no one. -/
theorem laterOne_bits (l : List Bool) : laterOne (l.map bitChar) = true ↔ ¬IsMask l := by
  have hone : ((fun c : Char => c == '1') ∘ bitChar) = fun b => b := by
    funext b
    cases b <;> rfl
  rw [laterOne, firstNotOne_bits, ← List.map_drop, List.any_map, hone, isMask_iff, not_not]
  simp

theorem laterOne_of_isMask {l : List Bool} (h : IsMask l) : laterOne (l.map bitChar) = false := by
  rw [← Bool.not_eq_true, laterOne_bits, not_not]
  exact h

/-- What `_IsLegalSubnet` returns for a mask. -/
theorem hostIDBits_mask {l : List Bool} {ones : Nat} (h : OnesThenZeros l ones) {bits : Int}
    (hbits : 32 - bits ≤ ones) : hostIDBits bits (l.map bitChar) = 32 - ones := by
  have hones : leadingOnes l = ones := (onesThenZeros_iff.mp h).1
  rw [hostIDBits, laterOne_of_isMask ⟨ones, h⟩, firstNotOne_bits, hones]
  simp only [Bool.false_eq_true, if_false]
  rw [if_pos (by omega), if_neg (by omega)]
  omega

theorem hostIDBits_other {l : List Bool} (h : ¬IsMask l) (bits : Int) :
    hostIDBits bits (l.map bitChar) = -1 := by
  rw [hostIDBits, (laterOne_bits l).mpr h]
  rfl

/-! ## The checks of a dotted quad -/

theorem mapM_wholeNumber {parts : List Text} {octets : List Nat}
    (h : parts.map wholeNumber = octets.map some) : parts.mapM wholeNumber = some octets := by
  induction parts generalizing octets with
  | nil =>
      cases octets with
      | nil => rfl
      | cons octet octets => cases h
  | cons part parts ih =>
      cases octets with
      | nil => cases h
      | cons octet octets =>
          rw [List.map_cons, List.map_cons, List.cons.injEq] at h
          simp [h.1, ih h.2]

theorem DottedQuad.binarySubnet_eq {subnet : Text} {octets : List Nat}
    (h : DottedQuad subnet octets) :
    binarySubnet subnet = some ((bits 32 (address octets)).map bitChar) := by
  rw [binarySubnet, mapM_wholeNumber h.1, bits_address h, ← flatMap_toBinary h.2.2]
  rfl

theorem map_parseInt {parts : List Text} {octets : List Nat}
    (h : parts.map wholeNumber = octets.map some) :
    parts.map parseInt = octets.map fun octet : Nat => some (octet : Int) := by
  have hpart : ∀ part ∈ parts,
      parseInt part = (wholeNumber part).map fun n : Nat => (n : Int) := by
    intro part hmem
    have hwhole : wholeNumber part ∈ octets.map some := h ▸ List.mem_map_of_mem hmem
    obtain ⟨octet, -, hoctet⟩ := List.mem_map.mp hwhole
    obtain ⟨hdigits, hvalue⟩ := isDigits_of_wholeNumber hoctet.symm
    rw [parseInt_of_digits hdigits, hvalue, ← hoctet]
    rfl
  calc parts.map parseInt
      = parts.map fun part => (wholeNumber part).map fun n : Nat => (n : Int) :=
        List.map_congr_left hpart
    _ = (parts.map wholeNumber).map (Option.map fun n : Nat => (n : Int)) := by simp
    _ = octets.map fun octet : Nat => some (octet : Int) := by
        rw [h, List.map_map]
        rfl

theorem DottedQuad.checkSubnetRule_eq {subnet : Text} {octets : List Nat}
    (h : DottedQuad subnet octets) : checkSubnetRule subnet =
      checkOctets false (octets.map fun octet : Nat => some (octet : Int)) := by
  have hlength : (subnet.splitOn '.').length = 4 := by
    have hsame := congrArg List.length h.1
    rw [List.length_map, List.length_map, h.2.1] at hsame
    exact hsame
  have hparts : (List.range 4).map (fun i => (subnet.splitOn '.')[i]?.bind parseInt) =
      (subnet.splitOn '.').map parseInt := by
    apply List.ext_getElem
    · simp [hlength]
    · intro i hi hi'
      have hlt : i < (subnet.splitOn '.').length := by simpa using hi'
      simp [List.getElem?_eq_getElem hlt]
  rw [checkSubnetRule, hparts, map_parseInt h.1]

/-- All three checks accept exactly the masks of ones followed by zeros. -/
theorem netmask_checks_agree {subnet : Text} {octets : List Nat} (h : DottedQuad subnet octets) :
    MaskRight subnet octets where
  checkSubnetRule := by
    rw [h.checkSubnetRule_eq, bits_address h]
    exact checkOctets_false h.2.2
  isLegalSubnet := by
    refine ⟨_, congrArg _ h.binarySubnet_eq, ?_⟩
    rw [Bool.not_eq_true', ← Bool.not_eq_true, laterOne_bits, not_not]
  isLegalSubnetBits := by
    refine ⟨_, congrArg _ h.binarySubnet_eq, ?_⟩
    by_cases hmask : IsMask (bits 32 (address octets))
    · obtain ⟨ones, hones⟩ := hmask
      have hle : ones ≤ 32 := by simpa using hones.1
      rw [hostIDBits_mask hones (by omega)]
      exact iff_of_true (by omega) ⟨ones, hones⟩
    · rw [hostIDBits_other hmask]
      exact iff_of_false (by decide) hmask
  hostBits ones hones bits hbits := by
    rw [Netmask.isLegalSubnetBits, h.binarySubnet_eq]
    exact congrArg some (hostIDBits_mask hones hbits)

/-- 255.255.254.0 -/
theorem netmask_checks_agree_23 : DottedQuad ['2', '5', '5', '.', '2', '5', '5', '.', '2', '5', '4',
      '.', '0'] [255, 255, 254, 0] ∧
    MaskRight ['2', '5', '5', '.', '2', '5', '5', '.', '2', '5', '4', '.', '0']
      [255, 255, 254, 0] := by
  have hquad : DottedQuad ['2', '5', '5', '.', '2', '5', '5', '.', '2', '5', '4', '.', '0']
      [255, 255, 254, 0] := by
    unfold DottedQuad
    decide +kernel
  exact ⟨hquad, netmask_checks_agree hquad⟩

end Xwr100.Www.Netmask
