import Xwr100.Lib.LastWrite

/-! # The switch registers over MDIO

`athrs26_phy.c` reads and writes a 32-bit register of the switch as two 16-bit cells behind a
page.  The bus is the switch as it shows itself there, with the accesses made so far.
-/

namespace Xwr100.Athrs26

open Lib

/-- Where a cell is: the page, the low bits of the phy address, and the register. -/
abbrev Cell := BitVec 16 × BitVec 32 × BitVec 8

structure Access where
  phyAddr : BitVec 32
  phyReg : BitVec 8
  data : Option (BitVec 16)
  deriving DecidableEq

structure Bus where
  page : BitVec 16
  cells : Cell → BitVec 16
  accesses : List Access

/-- The phy addresses behind which the cells are. -/
def isCellPhy (phyAddr : BitVec 32) : Bool := 0x10#32 ≤ phyAddr && phyAddr ≤ 0x17#32

/-- `phy_reg_write`: register 0 of phy 0x18 is the page. -/
def phyRegWrite (b : Bus) (phyAddr : BitVec 32) (phyReg : BitVec 8) (data : BitVec 16) : Bus :=
  let accesses := b.accesses ++ [⟨phyAddr, phyReg, some data⟩]
  if phyAddr = 0x18#32 ∧ phyReg = 0#8 then { b with page := data, accesses := accesses }
  else if isCellPhy phyAddr then
    { b with
      cells := Function.update b.cells (b.page, phyAddr &&& 7#32, phyReg) data
      accesses := accesses }
  else { b with accesses := accesses }

def phyRegRead (b : Bus) (phyAddr : BitVec 32) (phyReg : BitVec 8) : Bus × BitVec 16 :=
  ({ b with accesses := b.accesses ++ [⟨phyAddr, phyReg, none⟩] },
    if isCellPhy phyAddr then b.cells (b.page, phyAddr &&& 7#32, phyReg)
    else if phyAddr = 0x18#32 ∧ phyReg = 0#8 then b.page
    else 0#16)

/-- The 16-bit word address, 32-bit aligned. -/
def regWordAddr (regAddr : BitVec 32) : BitVec 32 := (regAddr &&& 0xfffffffc#32) >>> 1

/-- Bits 16 to 8 of the word address. -/
def pageOf (word : BitVec 32) : BitVec 16 := ((word >>> 8) &&& 0x1ff#32).setWidth 16

/-- Bits 7 to 5. -/
def phyAddrOf (word : BitVec 32) : BitVec 32 := 0x10#32 ||| ((word >>> 5) &&& 0x7#32)

/-- Bits 4 to 0. -/
def phyRegOf (word : BitVec 32) : BitVec 8 := (word &&& 0x1f#32).setWidth 8

/-- `athrs26_reg_read`: the lower half first. -/
def athrs26RegRead (b : Bus) (regAddr : BitVec 32) : Bus × BitVec 32 :=
  let word := regWordAddr regAddr
  let paged := phyRegWrite b 0x18#32 0#8 (pageOf word)
  let lower := phyRegRead paged (phyAddrOf word) (phyRegOf word)
  let upper := phyRegRead lower.1 (phyAddrOf (word + 1)) (phyRegOf (word + 1))
  (upper.1, lower.2.setWidth 32 ||| (upper.2.setWidth 32 <<< 16))

/-- `athrs26_reg_write`: the upper half first. -/
def athrs26RegWrite (b : Bus) (regAddr regVal : BitVec 32) : Bus :=
  let word := regWordAddr regAddr
  let paged := phyRegWrite b 0x18#32 0#8 (pageOf word)
  let upper := phyRegWrite paged (phyAddrOf (word + 1)) (phyRegOf (word + 1))
    (((regVal >>> 16) &&& 0xffff#32).setWidth 16)
  phyRegWrite upper (phyAddrOf (word + 1 - 1)) (phyRegOf (word + 1 - 1))
    ((regVal &&& 0xffff#32).setWidth 16)

/-- An address of a register: 18 bits. -/
structure RegAddr where
  value : BitVec 32
  value_lt : value < 0x40000#32

/-- The 4-byte-aligned address. -/
def RegAddr.aligned (a : RegAddr) : BitVec 32 := a.value &&& 0xfffffffc#32

inductive Op
  | read (a : RegAddr)
  | write (a : RegAddr) (v : BitVec 32)

def step (b : Bus) : Op → Bus
  | .read a => (athrs26RegRead b a.value).1
  | .write a v => athrs26RegWrite b a.value v

/-! ## The three fields of an address -/

theorem and_aligned (a : BitVec 32) : a &&& 0xfffffffc#32 = (a >>> 2) <<< 2 := by
  have hmask : ∀ i < 32, (0xfffffffc#32).getLsbD i = decide (2 ≤ i) := by decide
  apply BitVec.eq_of_getLsbD_eq
  intro i hi
  rw [BitVec.getLsbD_and, hmask i hi]
  simp only [BitVec.getLsbD_shiftLeft, BitVec.getLsbD_ushiftRight, hi]
  by_cases h : 2 ≤ i
  · have hsum : 2 + (i - 2) = i := by omega
    simp [h, hsum, Nat.not_lt.mpr h]
  · simp [h, Nat.not_le.mp h]

theorem toNat_aligned (a : BitVec 32) : (a &&& 0xfffffffc#32).toNat = a.toNat / 4 * 4 := by
  have hlt := a.isLt
  rw [and_aligned, BitVec.toNat_shiftLeft, BitVec.toNat_ushiftRight, Nat.shiftRight_eq_div_pow,
    Nat.shiftLeft_eq]
  omega

theorem toNat_regWordAddr (a : BitVec 32) : (regWordAddr a).toNat = a.toNat / 4 * 2 := by
  rw [regWordAddr, BitVec.toNat_ushiftRight, toNat_aligned, Nat.shiftRight_eq_div_pow]
  omega

theorem toNat_pageOf (w : BitVec 32) : (pageOf w).toNat = w.toNat / 256 % 512 := by
  rw [pageOf, BitVec.toNat_setWidth, BitVec.toNat_and, BitVec.toNat_ushiftRight,
    show (0x1ff#32).toNat = 2 ^ 9 - 1 by rfl, Nat.and_two_pow_sub_one_eq_mod,
    Nat.shiftRight_eq_div_pow]
  omega

theorem phyAddrOf_and (w : BitVec 32) : phyAddrOf w &&& 7#32 = (w >>> 5) &&& 7#32 := by
  have hzero : 0x10#32 &&& 7#32 = 0#32 := by decide
  rw [phyAddrOf, BitVec.and_or_distrib_right, hzero, BitVec.zero_or, BitVec.and_assoc,
    BitVec.and_self]

theorem toNat_phyAddrOf_and (w : BitVec 32) :
    (phyAddrOf w &&& 7#32).toNat = w.toNat / 32 % 8 := by
  rw [phyAddrOf_and, BitVec.toNat_and, BitVec.toNat_ushiftRight,
    show (7#32).toNat = 2 ^ 3 - 1 by rfl, Nat.and_two_pow_sub_one_eq_mod,
    Nat.shiftRight_eq_div_pow]

theorem toNat_phyRegOf (w : BitVec 32) : (phyRegOf w).toNat = w.toNat % 32 := by
  rw [phyRegOf, BitVec.toNat_setWidth, BitVec.toNat_and, show (0x1f#32).toNat = 2 ^ 5 - 1 by rfl,
    Nat.and_two_pow_sub_one_eq_mod]
  omega

/-- Every word is behind one of the eight phy addresses for cells, which the page is not. -/
theorem isCellPhy_phyAddrOf (w : BitVec 32) : isCellPhy (phyAddrOf w) = true := by
  have height : ∀ n < 8, isCellPhy (0x10#32 ||| BitVec.ofNat 32 n) = true := by decide
  have hlt : ((w >>> 5) &&& 7#32).toNat < 8 := by
    rw [← phyAddrOf_and, toNat_phyAddrOf_and]
    omega
  have hcell := height _ hlt
  rwa [BitVec.ofNat_toNat, BitVec.setWidth_eq] at hcell

theorem phyAddrOf_ne_page (w : BitVec 32) : phyAddrOf w ≠ 0x18#32 := by
  intro heq
  have hcell := isCellPhy_phyAddrOf w
  rw [heq] at hcell
  contradiction

def cellOf (w : BitVec 32) : Cell := (pageOf w, phyAddrOf w &&& 7#32, phyRegOf w)

/-- The fields tell the words of 17 bits apart. -/
theorem cellOf_inj {v w : BitVec 32} (hv : v.toNat < 131072) (hw : w.toNat < 131072)
    (h : cellOf v = cellOf w) : v = w := by
  obtain ⟨hpage, hrest⟩ := Prod.mk.inj h
  obtain ⟨hphy, hreg⟩ := Prod.mk.inj hrest
  have hpage := congrArg BitVec.toNat hpage
  have hphy := congrArg BitVec.toNat hphy
  have hreg := congrArg BitVec.toNat hreg
  rw [toNat_pageOf, toNat_pageOf] at hpage
  rw [toNat_phyAddrOf_and, toNat_phyAddrOf_and] at hphy
  rw [toNat_phyRegOf, toNat_phyRegOf] at hreg
  apply BitVec.eq_of_toNat_eq
  omega

theorem toNat_succ (a : BitVec 32) :
    (regWordAddr a + 1).toNat = (regWordAddr a).toNat + 1 := by
  have hword := toNat_regWordAddr a
  have hlt := a.isLt
  rw [BitVec.toNat_add, show (1 : BitVec 32).toNat = 1 by rfl]
  omega

/-- Going to the upper half does not carry into the page. -/
theorem pageOf_succ (a : BitVec 32) : pageOf (regWordAddr a + 1) = pageOf (regWordAddr a) := by
  apply BitVec.eq_of_toNat_eq
  rw [toNat_pageOf, toNat_pageOf, toNat_succ, toNat_regWordAddr]
  omega

/-! ## One call -/

def register (cells : Cell → BitVec 16) (a : BitVec 32) : BitVec 32 :=
  (cells (cellOf (regWordAddr a))).setWidth 32 |||
    ((cells (cellOf (regWordAddr a + 1))).setWidth 32 <<< 16)

theorem phyRegWrite_page (b : Bus) (data : BitVec 16) :
    phyRegWrite b 0x18#32 0#8 data =
      { b with page := data, accesses := b.accesses ++ [⟨0x18#32, 0#8, some data⟩] } := rfl

theorem phyRegWrite_cell (b : Bus) (w : BitVec 32) (phyReg : BitVec 8) (data : BitVec 16) :
    phyRegWrite b (phyAddrOf w) phyReg data =
      { b with
        cells := Function.update b.cells (b.page, phyAddrOf w &&& 7#32, phyReg) data
        accesses := b.accesses ++ [⟨phyAddrOf w, phyReg, some data⟩] } := by
  rw [phyRegWrite, if_neg fun h => phyAddrOf_ne_page w h.1, if_pos (isCellPhy_phyAddrOf w)]

theorem phyRegRead_cell (b : Bus) (w : BitVec 32) (phyReg : BitVec 8) :
    phyRegRead b (phyAddrOf w) phyReg =
      ({ b with accesses := b.accesses ++ [⟨phyAddrOf w, phyReg, none⟩] },
        b.cells (b.page, phyAddrOf w &&& 7#32, phyReg)) := by
  rw [phyRegRead, if_pos (isCellPhy_phyAddrOf w)]

theorem athrs26RegRead_eq (b : Bus) (a : BitVec 32) :
    (athrs26RegRead b a).1.cells = b.cells ∧ (athrs26RegRead b a).2 = register b.cells a ∧
    (athrs26RegRead b a).1.accesses = b.accesses ++
      [⟨0x18#32, 0#8, some (pageOf (regWordAddr a))⟩,
        ⟨phyAddrOf (regWordAddr a), phyRegOf (regWordAddr a), none⟩,
        ⟨phyAddrOf (regWordAddr a + 1), phyRegOf (regWordAddr a + 1), none⟩] := by
  simp only [athrs26RegRead, phyRegWrite_page, phyRegRead_cell]
  refine ⟨trivial, ?_, by simp⟩
  rw [register, cellOf, cellOf, pageOf_succ]

theorem athrs26RegWrite_eq (b : Bus) (a v : BitVec 32) :
    (athrs26RegWrite b a v).cells =
      Function.update
        (Function.update b.cells (cellOf (regWordAddr a + 1))
          (((v >>> 16) &&& 0xffff#32).setWidth 16))
        (cellOf (regWordAddr a)) ((v &&& 0xffff#32).setWidth 16) ∧
    (athrs26RegWrite b a v).accesses = b.accesses ++
      [⟨0x18#32, 0#8, some (pageOf (regWordAddr a))⟩,
        ⟨phyAddrOf (regWordAddr a + 1), phyRegOf (regWordAddr a + 1),
          some (((v >>> 16) &&& 0xffff#32).setWidth 16)⟩,
        ⟨phyAddrOf (regWordAddr a), phyRegOf (regWordAddr a),
          some ((v &&& 0xffff#32).setWidth 16)⟩] := by
  simp only [athrs26RegWrite, phyRegWrite_page, phyRegWrite_cell, BitVec.add_sub_cancel]
  refine ⟨?_, by simp⟩
  rw [cellOf, cellOf, pageOf_succ]

/-- The halves of a value put together again. -/
theorem halves (v : BitVec 32) :
    ((v &&& 0xffff#32).setWidth 16).setWidth 32 |||
      ((((v >>> 16) &&& 0xffff#32).setWidth 16).setWidth 32 <<< 16) = v := by
  have hmask : ∀ i < 32, (0xffff#32).getLsbD i = decide (i < 16) := by decide
  apply BitVec.eq_of_getLsbD_eq
  intro i hi
  simp only [BitVec.getLsbD_or, BitVec.getLsbD_shiftLeft, BitVec.getLsbD_setWidth,
    BitVec.getLsbD_and, BitVec.getLsbD_ushiftRight, hi, hmask i hi]
  by_cases h : i < 16
  · simp [h]
  · have hlow : i - 16 < 16 := by omega
    have hsum : 16 + (i - 16) = i := by omega
    have hmask' := hmask (i - 16) (by omega)
    simp [h, hlow, hsum, hmask', show i - 16 < 32 by omega]

theorem RegAddr.toNat_word_lt (a : RegAddr) : (regWordAddr a.value).toNat + 1 < 131072 := by
  have hlt : a.value.toNat < 262144 := a.value_lt
  rw [toNat_regWordAddr]
  omega

/-- The cells of two registers: the same words, or four different cells. -/
theorem word_eq_iff (a b : RegAddr) :
    regWordAddr a.value = regWordAddr b.value ↔ a.aligned = b.aligned := by
  constructor
  · intro h
    have hnat := congrArg BitVec.toNat h
    rw [toNat_regWordAddr, toNat_regWordAddr] at hnat
    apply BitVec.eq_of_toNat_eq
    rw [RegAddr.aligned, RegAddr.aligned, toNat_aligned, toNat_aligned]
    omega
  · intro h
    rw [RegAddr.aligned, RegAddr.aligned] at h
    rw [regWordAddr, regWordAddr, h]

theorem cellOf_succ_ne (a b : RegAddr) :
    cellOf (regWordAddr a.value) ≠ cellOf (regWordAddr b.value + 1) := by
  intro h
  have ha := a.toNat_word_lt
  have hb := b.toNat_word_lt
  have hsucc := toNat_succ b.value
  have hwords := congrArg BitVec.toNat (cellOf_inj (by omega) (by omega) h)
  rw [hsucc, toNat_regWordAddr, toNat_regWordAddr] at hwords
  omega

theorem cellOf_ne {a b : RegAddr} (hne : a.aligned ≠ b.aligned) :
    cellOf (regWordAddr a.value) ≠ cellOf (regWordAddr b.value) ∧
      cellOf (regWordAddr a.value + 1) ≠ cellOf (regWordAddr b.value + 1) := by
  have ha := a.toNat_word_lt
  have hb := b.toNat_word_lt
  have hsa := toNat_succ a.value
  have hsb := toNat_succ b.value
  have hword : regWordAddr a.value ≠ regWordAddr b.value := fun h => hne ((word_eq_iff a b).mp h)
  constructor
  · intro h
    exact hword (cellOf_inj (by omega) (by omega) h)
  · intro h
    have hsucc := congrArg BitVec.toNat (cellOf_inj (by omega) (by omega) h)
    apply hword
    apply BitVec.eq_of_toNat_eq
    omega

theorem register_athrs26RegWrite (bus : Bus) (a b : RegAddr) (v : BitVec 32) :
    register (athrs26RegWrite bus a.value v).cells b.value =
      if a.aligned = b.aligned then v else register bus.cells b.value := by
  rw [(athrs26RegWrite_eq bus a.value v).1, register]
  by_cases h : a.aligned = b.aligned
  · rw [if_pos h, ← (word_eq_iff a b).mpr h, Function.update_self,
      Function.update_of_ne (cellOf_succ_ne a a).symm, Function.update_self, halves]
  · obtain ⟨hlower, hupper⟩ := cellOf_ne h
    rw [if_neg h, Function.update_of_ne hlower.symm, Function.update_of_ne (cellOf_succ_ne b a),
      Function.update_of_ne (cellOf_succ_ne a b).symm, Function.update_of_ne hupper.symm, register]

/-! ## Runs -/

/-- The register file that the calls should implement: what an operation writes, by aligned
address. -/
def Op.writes : Op → RegAddr → Option (BitVec 32)
  | .read _, _ => none
  | .write a v, b => if a.aligned = b.aligned then some v else none

def Op.addr : Op → RegAddr
  | .read a => a
  | .write a _ => a

def registers (bus : Bus) (b : RegAddr) : BitVec 32 := register bus.cells b.value

theorem registers_step (bus : Bus) (op : Op) (b : RegAddr) :
    registers (step bus op) b = (op.writes b).getD (registers bus b) := by
  cases op with
  | read a =>
      rw [step, registers, (athrs26RegRead_eq bus a.value).1]
      rfl
  | write a v =>
      rw [step, registers, register_athrs26RegWrite, Op.writes]
      by_cases h : a.aligned = b.aligned
      · rw [if_pos h, if_pos h]
        rfl
      · rw [if_neg h, if_neg h]
        rfl

/-- An operation sets the page to that of its address, once, and then goes to two cells. -/
def PagedAccesses (before after : Bus) (op : Op) : Prop :=
  ∃ x y : Access, after.accesses = before.accesses ++
    [⟨0x18#32, 0#8, some (pageOf (regWordAddr op.addr.value))⟩, x, y] ∧
    isCellPhy x.phyAddr = true ∧ isCellPhy y.phyAddr = true

theorem step_pagedAccesses (bus : Bus) (op : Op) : PagedAccesses bus (step bus op) op := by
  cases op with
  | read a =>
      exact ⟨_, _, (athrs26RegRead_eq bus a.value).2.2, isCellPhy_phyAddrOf _,
        isCellPhy_phyAddrOf _⟩
  | write a v =>
      exact ⟨_, _, (athrs26RegWrite_eq bus a.value v).2, isCellPhy_phyAddrOf _,
        isCellPhy_phyAddrOf _⟩

/-- After any sequence of operations: a read returns what was last written to its aligned
address, or what it would have returned before; a write changes no other aligned address; and
nothing but the page selection of an operation goes to the page. -/
theorem switch_registers (bus : Bus) (ops : List Op) (a : RegAddr) :
    (athrs26RegRead (exec step bus ops) a.value).2 =
      (lastWrite Op.writes a ops).getD (athrs26RegRead bus a.value).2 ∧
    (∀ (b : RegAddr) (v : BitVec 32), b.aligned ≠ a.aligned →
      (athrs26RegRead (athrs26RegWrite (exec step bus ops) b.value v) a.value).2 =
        (athrs26RegRead (exec step bus ops) a.value).2) ∧
    ∀ op, PagedAccesses (exec step bus ops) (step (exec step bus ops) op) op := by
  have hread : ∀ bus, (athrs26RegRead bus a.value).2 = registers bus a := fun bus =>
    (athrs26RegRead_eq bus a.value).2.1
  refine ⟨?_, ?_, fun op => step_pagedAccesses _ op⟩
  · rw [hread, hread bus]
    exact view_exec registers_step bus ops a
  · intro b v hne
    rw [hread, hread (exec step bus ops), registers, register_athrs26RegWrite, if_neg hne]
    rfl

end Xwr100.Athrs26
