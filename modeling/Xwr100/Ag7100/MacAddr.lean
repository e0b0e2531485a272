import Mathlib.Algebra.GroupWithZero.Nat
import Xwr100.Lib.Bytes

/-!
# The default MAC addresses

`MACplusplus` and `ag7100_get_default_macaddr` of the Ethernet driver.  The address of an
interface is the stored one of its unit, or a default when the stored prefix is no
manufacturer's, plus one.  `unsigned long`, `long` and `int` have 32 bits.
-/

namespace Xwr100.Ag7100

open Lib

/-- The six bytes of an address, the first one sent first. -/
structure MacAddr where
  b0 : UInt8
  b1 : UInt8
  b2 : UInt8
  b3 : UInt8
  b4 : UInt8
  b5 : UInt8
  deriving DecidableEq, Repr

namespace MacAddr

def bytes (mac : MacAddr) : List UInt8 := [mac.b0, mac.b1, mac.b2, mac.b3, mac.b4, mac.b5]

def value (mac : MacAddr) : Nat := ofBigEndian mac.bytes

/-- The number the last four bytes spell. -/
def lowValue (mac : MacAddr) : Nat :=
  ((mac.b2.toNat * 256 + mac.b3.toNat) * 256 + mac.b4.toNat) * 256 + mac.b5.toNat

/-- The number the first two bytes spell. -/
def headValue (mac : MacAddr) : Nat := mac.b0.toNat * 256 + mac.b1.toNat

theorem value_eq (mac : MacAddr) : mac.value = mac.headValue * 2 ^ 32 + mac.lowValue := by
  simp only [value, bytes, ofBigEndian, List.foldl_cons, List.foldl_nil, headValue, lowValue]
  omega

theorem lowValue_lt (mac : MacAddr) : mac.lowValue < 2 ^ 32 := by
  have h2 := mac.b2.toNat_lt
  have h3 := mac.b3.toNat_lt
  have h4 := mac.b4.toNat_lt
  have h5 := mac.b5.toNat_lt
  unfold lowValue
  omega

theorem headValue_lt (mac : MacAddr) : mac.headValue < 2 ^ 16 := by
  have h0 := mac.b0.toNat_lt
  have h1 := mac.b1.toNat_lt
  unfold headValue
  omega

theorem value_lt (mac : MacAddr) : mac.value < 2 ^ 48 := by
  have hlow := mac.lowValue_lt
  have hhead := mac.headValue_lt
  rw [value_eq]
  omega

theorem value_injective {mac mac' : MacAddr} (h : mac.value = mac'.value) : mac = mac' := by
  obtain ⟨a0, a1, a2, a3, a4, a5⟩ := mac
  obtain ⟨b0, b1, b2, b3, b4, b5⟩ := mac'
  simp only [value, bytes, ofBigEndian, List.foldl_cons, List.foldl_nil] at h
  have ha0 := a0.toNat_lt; have ha1 := a1.toNat_lt; have ha2 := a2.toNat_lt
  have ha3 := a3.toNat_lt; have ha4 := a4.toNat_lt; have ha5 := a5.toNat_lt
  have hb0 := b0.toNat_lt; have hb1 := b1.toNat_lt; have hb2 := b2.toNat_lt
  have hb3 := b3.toNat_lt; have hb4 := b4.toNat_lt; have hb5 := b5.toNat_lt
  simp only [mk.injEq, ← UInt8.toNat_inj]
  omega

/-! ## The increment -/

/-- A byte as the `int` C computes with. -/
def promote (b : UInt8) : BitVec 32 := BitVec.ofNat 32 b.toNat

/-- `x & 0xFF` in an `unsigned char`. -/
def octet (x : BitVec 32) : UInt8 := UInt8.ofNat (x &&& 0xFF).toNat

def oriMac (mac : MacAddr) : BitVec 32 :=
  promote mac.b2 * 256 * 256 * 256 + promote mac.b3 * 256 * 256 + promote mac.b4 * 256 +
    promote mac.b5

def macHead (mac : MacAddr) : BitVec 32 := promote mac.b0 * 256 + promote mac.b1

/-- `MACplusplus`; `>>` on the signed head keeps the sign. -/
def macplusplus (mac : MacAddr) : MacAddr :=
  if mac.oriMac ≠ 0xFFFFFFFF then
    let newMac := mac.oriMac + 1
    { mac with
      b2 := octet (newMac >>> 24)
      b3 := octet (newMac >>> 16)
      b4 := octet (newMac >>> 8)
      b5 := octet newMac }
  else
    let head := mac.macHead + 1
    { b0 := octet (head.sshiftRight 8), b1 := octet head, b2 := 0, b3 := 0, b4 := 0, b5 := 0 }

theorem promote_toNat (b : UInt8) : (promote b).toNat = b.toNat := by
  have hb := b.toNat_lt
  simp only [promote, BitVec.toNat_ofNat]
  omega

theorem octet_toNat (x : BitVec 32) : (octet x).toNat = x.toNat % 256 := by
  have hmask : (x &&& 0xFF).toNat = x.toNat % 256 := by
    rw [BitVec.toNat_and]
    exact Nat.and_two_pow_sub_one_eq_mod x.toNat 8
  rw [octet, hmask, UInt8.toNat_ofNat']
  omega

theorem oriMac_toNat (mac : MacAddr) : mac.oriMac.toNat = mac.lowValue := by
  have h2 := mac.b2.toNat_lt
  have h3 := mac.b3.toNat_lt
  have h4 := mac.b4.toNat_lt
  have h5 := mac.b5.toNat_lt
  have h256 : (256 : BitVec 32).toNat = 256 := rfl
  simp only [oriMac, lowValue, BitVec.toNat_add, BitVec.toNat_mul, promote_toNat, h256]
  omega

theorem macHead_toNat (mac : MacAddr) : mac.macHead.toNat = mac.headValue := by
  have h0 := mac.b0.toNat_lt
  have h1 := mac.b1.toNat_lt
  have h256 : (256 : BitVec 32).toNat = 256 := rfl
  simp only [macHead, headValue, BitVec.toNat_add, BitVec.toNat_mul, promote_toNat, h256]
  omega

theorem lowValue_octets (x : BitVec 32) (b0 b1 : UInt8) :
    lowValue ⟨b0, b1, octet (x >>> 24), octet (x >>> 16), octet (x >>> 8), octet x⟩ = x.toNat := by
  have hx := x.isLt
  simp only [lowValue, octet_toNat, BitVec.toNat_ushiftRight, Nat.shiftRight_eq_div_pow]
  omega

theorem headValue_octets {x : BitVec 32} (hx : x.toNat ≤ 2 ^ 16) (b2 b3 b4 b5 : UInt8) :
    headValue ⟨octet (x.sshiftRight 8), octet x, b2, b3, b4, b5⟩ = x.toNat % 2 ^ 16 := by
  have hpos : x.msb = false := by
    rw [BitVec.msb_eq_decide, decide_eq_false_iff_not]
    omega
  simp only [headValue, octet_toNat, BitVec.sshiftRight_eq_of_msb_false hpos,
    BitVec.toNat_ushiftRight, Nat.shiftRight_eq_div_pow]
  omega

theorem toNat_succ (x : BitVec 32) : (x + 1).toNat = (x.toNat + 1) % 2 ^ 32 :=
  BitVec.toNat_add x 1

/-- Below the carry only the last four bytes change. -/
theorem macplusplus_of_ne {mac : MacAddr} (h : mac.oriMac ≠ 0xFFFFFFFF) :
    mac.macplusplus.headValue = mac.headValue ∧
      mac.macplusplus.lowValue = (mac.oriMac + 1).toNat := by
  rw [macplusplus, if_pos h]
  exact ⟨rfl, lowValue_octets _ _ _⟩

/-- The carry goes into the first two bytes. -/
theorem macplusplus_of_eq {mac : MacAddr} (h : mac.oriMac = 0xFFFFFFFF) :
    mac.macplusplus.headValue = (mac.headValue + 1) % 2 ^ 16 ∧ mac.macplusplus.lowValue = 0 := by
  have hhead := mac.headValue_lt
  have hnext : (mac.macHead + 1).toNat = mac.headValue + 1 := by
    rw [toNat_succ, macHead_toNat]
    omega
  rw [macplusplus, if_neg (not_not_intro h)]
  constructor
  · rw [headValue_octets (by omega), hnext]
  · simp [lowValue]

theorem macplusplus_value (mac : MacAddr) : mac.macplusplus.value = (mac.value + 1) % 2 ^ 48 := by
  have hlow := mac.lowValue_lt
  have hhead := mac.headValue_lt
  have hori := mac.oriMac_toNat
  rw [value_eq mac.macplusplus, value_eq mac]
  by_cases hmax : mac.oriMac = 0xFFFFFFFF
  · have hlowMax : mac.lowValue = 0xFFFFFFFF := by
      rw [← hori, hmax]
      rfl
    obtain ⟨hnewHead, hnewLow⟩ := macplusplus_of_eq hmax
    rw [hnewHead, hnewLow, hlowMax]
    omega
  · have hne : mac.lowValue ≠ 0xFFFFFFFF := by
      intro heq
      exact hmax (BitVec.eq_of_toNat_eq (hori.trans heq))
    obtain ⟨hnewHead, hnewLow⟩ := macplusplus_of_ne hmax
    rw [hnewHead, hnewLow, toNat_succ, hori]
    omega

theorem macplusplus_injective {mac mac' : MacAddr} (h : mac.macplusplus = mac'.macplusplus) :
    mac = mac' := by
  have hv := congrArg value h
  have hlt := mac.value_lt
  have hlt' := mac'.value_lt
  rw [macplusplus_value, macplusplus_value] at hv
  exact value_injective (by omega)

/-! ## Kinds of addresses -/

def Unicast (mac : MacAddr) : Prop := mac.b0.toNat % 2 = 0

/-- Neither all-zero, nor broadcast, nor multicast. -/
structure Usable (mac : MacAddr) : Prop where
  nonzero : mac.value ≠ 0
  notBroadcast : mac.value ≠ 2 ^ 48 - 1
  notMulticast : mac.Unicast

instance (mac : MacAddr) : Decidable mac.Unicast := inferInstanceAs (Decidable (_ = _))

instance (mac : MacAddr) : Decidable mac.Usable :=
  decidable_of_iff (mac.value ≠ 0 ∧ mac.value ≠ 2 ^ 48 - 1 ∧ mac.Unicast)
    ⟨fun h => ⟨h.1, h.2.1, h.2.2⟩, fun h => ⟨h.1, h.2, h.3⟩⟩

/-- The five last bytes are all ones. -/
def TailFull (mac : MacAddr) : Prop := mac.value % 2 ^ 40 = 2 ^ 40 - 1

instance (mac : MacAddr) : Decidable mac.TailFull := inferInstanceAs (Decidable (_ = _))

theorem unicast_iff (mac : MacAddr) : mac.Unicast ↔ mac.value / 2 ^ 40 % 2 = 0 := by
  have h1 := mac.b1.toNat_lt
  have hlow := mac.lowValue_lt
  unfold Unicast
  rw [value_eq, headValue]
  omega

/-- The successor of a unicast address is one a station can have, unless it carries into the
first byte. -/
theorem macplusplus_usable_iff {mac : MacAddr} (h : mac.Unicast) :
    mac.macplusplus.Usable ↔ ¬ mac.TailFull := by
  have hlt := mac.value_lt
  rw [unicast_iff] at h
  constructor
  · rintro ⟨-, -, heven⟩ hfull
    rw [unicast_iff, macplusplus_value] at heven
    unfold TailFull at hfull
    omega
  · intro hfull
    unfold TailFull at hfull
    refine ⟨?_, ?_, ?_⟩
    · rw [macplusplus_value]
      omega
    · rw [macplusplus_value]
      omega
    · rw [unicast_iff, macplusplus_value]
      omega

end MacAddr

/-! ## The two interfaces -/

/-- `AR7100_EEPROM_GE0_MAC_ADDR` and `AR7100_EEPROM_GE1_MAC_ADDR`. -/
def ar7100EepromGe0MacAddr : Nat := 0xbfff1000
def ar7100EepromGe1MacAddr : Nat := 0xbfff1006

/-- Where the address of a unit is stored, with `CONFIG_AG7100_MAC_LOCATION` or without it. -/
def eepMacAddr (location : Option Nat) (unit : Nat) : Nat :=
  match location with
  | some base => base + unit * 6
  | none => if unit ≠ 0 then ar7100EepromGe1MacAddr else ar7100EepromGe0MacAddr

variable (location : Option Nat) (eeprom : Nat → UInt8)

def storedMac (unit : Nat) : MacAddr :=
  let a := eepMacAddr location unit
  ⟨eeprom a, eeprom (a + 1), eeprom (a + 2), eeprom (a + 3), eeprom (a + 4), eeprom (a + 5)⟩

/-- The prefix is all zeros or all ones, which is no manufacturer's. -/
def MacAddr.InvalidPrefix (mac : MacAddr) : Prop :=
  (mac.b0 = 0x00 ∧ mac.b1 = 0x00 ∧ mac.b2 = 0x00) ∨
    (mac.b0 = 0xFF ∧ mac.b1 = 0xFF ∧ mac.b2 = 0xFF)

instance (mac : MacAddr) : Decidable mac.InvalidPrefix := inferInstanceAs (Decidable (_ ∨ _))

def fallbackMac : MacAddr := ⟨0x00, 0x23, 0x69, 0x00, 0x00, 0x01⟩

/-- `mac_addr` before the increment. -/
def MacAddr.checked (mac : MacAddr) : MacAddr :=
  if mac.InvalidPrefix then fallbackMac else mac

def ag7100GetDefaultMacaddr (unit : Nat) : MacAddr :=
  (storedMac location eeprom unit).checked.macplusplus

def MacsRight : Prop :=
  storedMac location eeprom 0 ≠ storedMac location eeprom 1 →
    ag7100GetDefaultMacaddr location eeprom 0 ≠ ag7100GetDefaultMacaddr location eeprom 1 ∧
    ((storedMac location eeprom 0).Unicast → (storedMac location eeprom 1).Unicast →
      (ag7100GetDefaultMacaddr location eeprom 0).Usable ∧
      (ag7100GetDefaultMacaddr location eeprom 1).Usable)

/-- Two stored addresses of which at most one falls back, not onto the other one, and neither of
which carries into its first byte if both are unicast. -/
def StoredApart (mac mac' : MacAddr) : Prop :=
  ¬ (mac.InvalidPrefix ∧ mac'.InvalidPrefix) ∧
  ¬ (mac.InvalidPrefix ∧ mac' = fallbackMac) ∧
  ¬ (mac'.InvalidPrefix ∧ mac = fallbackMac) ∧
  (mac.Unicast → mac'.Unicast → ¬ mac.TailFull ∧ ¬ mac'.TailFull)

instance : Decidable (MacsRight location eeprom) := inferInstanceAs (Decidable (_ → _))

/-- Two addresses stay apart unless one of them falls back onto the other. -/
theorem checked_ne_iff {mac mac' : MacAddr} (h : mac ≠ mac') :
    mac.checked ≠ mac'.checked ↔ ¬ (mac.InvalidPrefix ∧ mac'.InvalidPrefix) ∧
      ¬ (mac.InvalidPrefix ∧ mac' = fallbackMac) ∧
      ¬ (mac'.InvalidPrefix ∧ mac = fallbackMac) := by
  by_cases hi : mac.InvalidPrefix <;> by_cases hi' : mac'.InvalidPrefix <;>
    simp [MacAddr.checked, hi, hi', h, eq_comm]

/-- An invalid prefix holds no carry: the first three bytes are not a unicast byte and two full
ones. -/
theorem checked_tailFull_iff {mac : MacAddr} (h : mac.Unicast) :
    mac.checked.TailFull ↔ mac.TailFull := by
  by_cases hi : mac.InvalidPrefix
  · have hdefault : ¬ fallbackMac.TailFull := by decide
    have hshort : ¬ mac.TailFull := by
      rcases hi with ⟨-, h1, -⟩ | ⟨h0, -, -⟩
      · have hlow := mac.lowValue_lt
        have hbyte : mac.b1.toNat = 0 := by rw [h1]; rfl
        unfold MacAddr.TailFull
        rw [MacAddr.value_eq, MacAddr.headValue]
        omega
      · rw [MacAddr.Unicast, h0] at h
        exact absurd h (by decide)
    simp [MacAddr.checked, hi, hdefault, hshort]
  · simp [MacAddr.checked, hi]

theorem checked_unicast {mac : MacAddr} (h : mac.Unicast) : mac.checked.Unicast := by
  unfold MacAddr.checked
  split
  · decide
  · exact h

/-- A unicast address gives a usable one exactly when it does not carry into its first byte. -/
theorem usable_of_unicast_iff {mac : MacAddr} (h : mac.Unicast) :
    mac.checked.macplusplus.Usable ↔ ¬ mac.TailFull := by
  rw [MacAddr.macplusplus_usable_iff (checked_unicast h), checked_tailFull_iff h]

theorem macplusplus_ne_iff (mac mac' : MacAddr) :
    mac.macplusplus ≠ mac'.macplusplus ↔ mac ≠ mac' :=
  not_congr ⟨MacAddr.macplusplus_injective, congrArg _⟩

theorem macsRight_iff : MacsRight location eeprom ↔
    (storedMac location eeprom 0 ≠ storedMac location eeprom 1 →
      StoredApart (storedMac location eeprom 0) (storedMac location eeprom 1)) := by
  unfold MacsRight ag7100GetDefaultMacaddr StoredApart
  generalize storedMac location eeprom 0 = mac
  generalize storedMac location eeprom 1 = mac'
  refine imp_congr_right fun hne => ?_
  rw [macplusplus_ne_iff, checked_ne_iff hne, and_assoc, and_assoc]
  refine and_congr_right fun _ => and_congr_right fun _ => and_congr_right fun _ => ?_
  refine imp_congr_right fun hu => imp_congr_right fun hu' => ?_
  rw [usable_of_unicast_iff hu, usable_of_unicast_iff hu']

/-- The increment is one modulo 2^48 for every address, and the two interfaces are given what they
should exactly when different stored addresses do not fall back onto each other or carry into the
first byte. -/
theorem default_macaddr_iff (mac : MacAddr) (location : Option Nat) (eeprom : Nat → UInt8) :
    mac.macplusplus.value = (mac.value + 1) % 2 ^ 48 ∧
    (MacsRight location eeprom ↔
      (storedMac location eeprom 0 ≠ storedMac location eeprom 1 →
        StoredApart (storedMac location eeprom 0) (storedMac location eeprom 1))) :=
  ⟨mac.macplusplus_value, macsRight_iff location eeprom⟩

/-- An area of flash that holds the given bytes from the address of the first unit on. -/
def eepromOf (bytes : List UInt8) (addr : Nat) : UInt8 :=
  bytes.getD (addr - ar7100EepromGe0MacAddr) 0xFF

/-- Units 00:00:00:00:00:01 and 00:00:00:00:00:02 both become 00:23:69:00:00:02, and
00:ff:ff:ff:ff:ff becomes the multicast address 01:00:00:00:00:00. -/
theorem default_macaddr_collides :
    ¬ MacsRight none (eepromOf [0, 0, 0, 0, 0, 1, 0, 0, 0, 0, 0, 2]) ∧
    ¬ MacsRight none
      (eepromOf [0, 0xFF, 0xFF, 0xFF, 0xFF, 0xFF, 0, 0x23, 0x69, 0x12, 0x34, 0x56]) := by
  decide

end Xwr100.Ag7100
