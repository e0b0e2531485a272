import Xwr100.Udhcpd.Dhcpd
import Xwr100.Lib.Keyed

/-!
# What the table operations do to a slot

One lemma per operation of `leases.c`, in terms of single slots, and the uniqueness
invariant of the table with the condition under which `add_lease` keeps it.
-/

namespace Xwr100.Udhcpd

open Lib

variable {env : Env} {s : Server}

/-! ## The scan for an expired slot -/

namespace Server

/-- What the scan over the first `n` slots has found: nothing below its start value, or the
first of the slots with the smallest expiry. -/
private def ScanFound (leases : Nat → DhcpOfferedAddr) (bound n : Nat)
    (best : Nat × Option Nat) : Prop :=
  (best = (bound, none) ∧ ∀ j < n, bound ≤ (leases j).expires) ∨
  ∃ i < n, best = ((leases i).expires, some i) ∧ (leases i).expires < bound ∧
    ∀ j < n, (leases i).expires ≤ (leases j).expires ∧
      (j < i → (leases i).expires < (leases j).expires)

private theorem oldestStep_scan (leases : Nat → DhcpOfferedAddr) (bound n : Nat) :
    ScanFound leases bound n ((List.range n).foldl (oldestStep leases) (bound, none)) := by
  induction n with
  | zero => exact Or.inl ⟨rfl, by simp⟩
  | succ n ih =>
      rw [List.range_succ, List.foldl_append, List.foldl_cons, List.foldl_nil]
      rcases ih with ⟨hbest, hall⟩ | ⟨i, hi, hbest, hlt, hall⟩
      · rw [hbest]
        by_cases h : (leases n).expires < bound
        · right
          refine ⟨n, by omega, by simp [oldestStep, h], h, ?_⟩
          intro j hj
          by_cases hjn : j = n
          · subst hjn
            omega
          · have hle := hall j (by omega)
            omega
        · left
          refine ⟨by simp [oldestStep, h], ?_⟩
          intro j hj
          by_cases hjn : j = n
          · subst hjn
            omega
          · exact hall j (by omega)
      · rw [hbest]
        right
        by_cases h : (leases n).expires < (leases i).expires
        · refine ⟨n, by omega, by simp [oldestStep, h], by omega, ?_⟩
          intro j hj
          by_cases hjn : j = n
          · subst hjn
            omega
          · have hle := (hall j (by omega)).1
            omega
        · refine ⟨i, by omega, by simp [oldestStep, h], hlt, ?_⟩
          intro j hj
          by_cases hjn : j = n
          · subst hjn
            omega
          · exact hall j (by omega)

/-- The slot found is the first among those with the smallest expiry, and expired. -/
theorem oldestExpiredLease_first {i : Nat} (h : s.oldestExpiredLease env = some i) :
    i < s.config.maxLeases ∧ (s.leases i).expires < env.sysTime ∧
    ∀ j < s.config.maxLeases, (s.leases i).expires ≤ (s.leases j).expires ∧
      (j < i → (s.leases i).expires < (s.leases j).expires) := by
  unfold oldestExpiredLease at h
  rcases oldestStep_scan s.leases env.sysTime s.config.maxLeases with
    ⟨hbest, -⟩ | ⟨k, hk, hbest, hlt, hall⟩
  · rw [hbest] at h
    cases h
  · rw [hbest] at h
    cases h
    exact ⟨hk, hlt, hall⟩

theorem oldestExpiredLease_some {i : Nat} (h : s.oldestExpiredLease env = some i) :
    i < s.config.maxLeases ∧ (s.leases i).expires < env.sysTime :=
  ⟨(oldestExpiredLease_first h).1, (oldestExpiredLease_first h).2.1⟩

theorem oldestExpiredLease_none (h : s.oldestExpiredLease env = none) :
    ∀ i < s.config.maxLeases, env.sysTime ≤ (s.leases i).expires := by
  unfold oldestExpiredLease at h
  rcases oldestStep_scan s.leases env.sysTime s.config.maxLeases with
    ⟨-, hall⟩ | ⟨k, -, hbest, -, -⟩
  · exact hall
  · rw [hbest] at h
    cases h

/-- An expired slot is found if every slot before it expires later and none after it
earlier. -/
theorem oldestExpiredLease_eq {i : Nat} (hi : i < s.config.maxLeases)
    (hexp : (s.leases i).expires < env.sysTime)
    (hall : ∀ j < s.config.maxLeases, (s.leases i).expires ≤ (s.leases j).expires ∧
      (j < i → (s.leases i).expires < (s.leases j).expires)) :
    s.oldestExpiredLease env = some i := by
  cases h : s.oldestExpiredLease env with
  | none =>
      have hle := oldestExpiredLease_none h i hi
      omega
  | some k =>
      obtain ⟨hk, -, hfirst⟩ := oldestExpiredLease_first h
      have hik := hfirst i hi
      have hki := hall k hk
      congr 1
      omega

def emptied (s : Server) (config : ServerConfig) (lanIpaddr : Option Addr)
    (lanNetmask : Addr) : Server :=
  { s with
    config := config
    lanIpaddr := lanIpaddr
    lanNetmask := lanNetmask
    leases := fun i => if i < config.maxLeases then emptySlot else s.leases i }

@[simp] theorem emptied_config (config : ServerConfig) (lanIpaddr : Option Addr)
    (lanNetmask : Addr) : (s.emptied config lanIpaddr lanNetmask).config = config := rfl

@[simp] theorem emptied_leases {config : ServerConfig} {lanIpaddr : Option Addr}
    {lanNetmask : Addr} {i : Nat} (h : i < config.maxLeases) :
    (s.emptied config lanIpaddr lanNetmask).leases i = emptySlot := if_pos h

/-! ## `add_lease` -/

section AddLease

variable (chaddr : Chaddr) (yiaddr : Addr) (lease : Nat)

/-- `add_lease` touches the table, the command log and the global `vizio_device` only. -/
theorem addLease_frame :
    (s.addLease env chaddr yiaddr lease).1 =
      { s with
        leases := (s.addLease env chaddr yiaddr lease).1.leases
        commands := (s.addLease env chaddr yiaddr lease).1.commands
        vizioDevice := (s.addLease env chaddr yiaddr lease).1.vizioDevice } := by
  unfold addLease
  split
  · rfl
  · dsimp only
    split <;> rfl

@[simp] theorem addLease_config :
    (s.addLease env chaddr yiaddr lease).1.config = s.config := by
  rw [addLease_frame]

@[simp] theorem addLease_lanIpaddr :
    (s.addLease env chaddr yiaddr lease).1.lanIpaddr = s.lanIpaddr := by
  rw [addLease_frame]

@[simp] theorem addLease_lanNetmask :
    (s.addLease env chaddr yiaddr lease).1.lanNetmask = s.lanNetmask := by
  rw [addLease_frame]

@[simp] theorem addLease_replies :
    (s.addLease env chaddr yiaddr lease).1.replies = s.replies := by
  rw [addLease_frame]

/-- The slot `add_lease` returns was expired or has just been cleared, and holds the
new record. -/
theorem addLease_some {j : Nat} (h : (s.addLease env chaddr yiaddr lease).2 = some j) :
    yiaddr ≠ 0#32 ∧ j < s.config.maxLeases ∧
    ((s.addLease env chaddr yiaddr lease).1.leases j).chaddr = chaddr ∧
    ((s.addLease env chaddr yiaddr lease).1.leases j).yiaddr = yiaddr ∧
    ((s.addLease env chaddr yiaddr lease).1.leases j).expires =
      (env.sysTime + lease) % UInt32.size ∧
    (clearMatches chaddr yiaddr (s.leases j) = true ∨
      (s.leases j).expires < env.sysTime) := by
  unfold addLease at h ⊢
  by_cases hy : yiaddr = 0#32
  · simp [hy] at h
  · simp only [hy, if_false] at h ⊢
    cases hold : (s.clearLease chaddr yiaddr).oldestExpiredLease env with
    | none => simp [hold] at h
    | some i =>
        simp only [hold, Option.some.injEq] at h ⊢
        subst h
        obtain ⟨hlt, hexp⟩ := oldestExpiredLease_some hold
        refine ⟨hy, hlt, ?_, ?_, ?_, ?_⟩
        · simp [recordAt, setSlot, announce]
        · simp [recordAt, setSlot, announce]
        · simp [recordAt, setSlot, announce]
        · by_cases hm : clearMatches chaddr yiaddr (s.leases i) = true
          · exact Or.inl hm
          · right
            simpa [clearLease, hm] using hexp

/-- Every slot other than the returned one is cleared if it matches and kept if not. -/
theorem addLease_other (hy : yiaddr ≠ 0#32) {k : Nat}
    (hk : (s.addLease env chaddr yiaddr lease).2 ≠ some k) :
    (s.addLease env chaddr yiaddr lease).1.leases k =
      if k < s.config.maxLeases ∧ clearMatches chaddr yiaddr (s.leases k) then emptySlot
      else s.leases k := by
  unfold addLease at hk ⊢
  simp only [hy, if_false] at hk ⊢
  cases hold : (s.clearLease chaddr yiaddr).oldestExpiredLease env with
  | none => simp [announce, clearLease]
  | some i =>
      simp only [hold, ne_eq, Option.some.injEq] at hk ⊢
      simp [recordAt, setSlot, announce, clearLease, Function.update_of_ne (Ne.symm hk)]

/-- So such a slot is empty, or as it was and without a match. -/
theorem addLease_other_cases (hy : yiaddr ≠ 0#32) {k : Nat} (hlt : k < s.config.maxLeases)
    (hk : (s.addLease env chaddr yiaddr lease).2 ≠ some k) :
    (s.addLease env chaddr yiaddr lease).1.leases k = emptySlot ∨
    ((s.addLease env chaddr yiaddr lease).1.leases k = s.leases k ∧
      clearMatches chaddr yiaddr (s.leases k) = false) := by
  rw [addLease_other chaddr yiaddr lease hy hk]
  by_cases hm : clearMatches chaddr yiaddr (s.leases k) = true
  · simp [hlt, hm]
  · simp [hm]

theorem addLease_zero : s.addLease env chaddr 0#32 lease = (s, none) := by
  simp [addLease]

/-- `add_lease` finds a slot once one of the slots it clears is in the table. -/
theorem addLease_ne_none (hy : yiaddr ≠ 0#32) {k : Nat}
    (hk : k < s.config.maxLeases) (hm : clearMatches chaddr yiaddr (s.leases k) = true) :
    (s.addLease env chaddr yiaddr lease).2 ≠ none := by
  unfold addLease
  simp only [hy, if_false]
  cases hold : (s.clearLease chaddr yiaddr).oldestExpiredLease env with
  | some i => simp
  | none =>
      have hle := oldestExpiredLease_none hold k hk
      have hpos := env.sysTime_pos
      simp [clearLease, hk, hm, emptySlot] at hle
      omega

/-- What may have become of slot `k`. -/
theorem addLease_slot (k : Nat) :
    (s.addLease env chaddr yiaddr lease).1.leases k = s.leases k ∨
    (s.addLease env chaddr yiaddr lease).1.leases k = emptySlot ∨
    (((s.addLease env chaddr yiaddr lease).1.leases k).chaddr = chaddr ∧
      ((s.addLease env chaddr yiaddr lease).1.leases k).yiaddr = yiaddr) := by
  by_cases hy : yiaddr = 0#32
  · subst hy
    simp [addLease_zero]
  · by_cases hk : (s.addLease env chaddr yiaddr lease).2 = some k
    · obtain ⟨-, -, hc, ha, -, -⟩ := addLease_some chaddr yiaddr lease hk
      exact Or.inr (Or.inr ⟨hc, ha⟩)
    · rw [addLease_other chaddr yiaddr lease hy hk]
      split
      · exact Or.inr (Or.inl rfl)
      · exact Or.inl rfl

end AddLease

/-! ## Lookups -/

theorem findLeaseByYiaddr_some {yiaddr : Addr} {i : Nat}
    (h : s.findLeaseByYiaddr yiaddr = some i) :
    i < s.config.maxLeases ∧ (s.leases i).yiaddr = yiaddr := by
  have hmem := List.mem_of_find?_eq_some h
  have hprop := List.find?_some h
  exact ⟨List.mem_range.mp hmem, by simpa using hprop⟩

theorem findLeaseByYiaddr_none {yiaddr : Addr} (h : s.findLeaseByYiaddr yiaddr = none) :
    ∀ i < s.config.maxLeases, (s.leases i).yiaddr ≠ yiaddr := by
  intro i hi
  have hnone := List.find?_eq_none.mp h i (List.mem_range.mpr hi)
  simpa using hnone

theorem findMac_some {mac : BitVec 48} {i : Nat} (h : s.findMac mac = some i) :
    i < s.config.maxLeases ∧ (s.leases i).chaddr.mac = mac := by
  have hmem := List.mem_of_find?_eq_some h
  have hprop := List.find?_some h
  exact ⟨List.mem_range.mp hmem, by simpa using hprop⟩

theorem findMac_none {mac : BitVec 48} (h : s.findMac mac = none) :
    ∀ i < s.config.maxLeases, (s.leases i).chaddr.mac ≠ mac := by
  intro i hi
  have hnone := List.find?_eq_none.mp h i (List.mem_range.mpr hi)
  simpa using hnone

end Server

/-! ## The uniqueness invariant -/

/-- A slot's address, if it has one. -/
def addrKey (slot : DhcpOfferedAddr) : Option Addr :=
  if slot.yiaddr = 0#32 then none else some slot.yiaddr

def macKey (slot : DhcpOfferedAddr) : Option (BitVec 48) :=
  if slot.chaddr = blankChaddr then none else some slot.chaddr.mac

@[simp] theorem addrKey_emptySlot : addrKey emptySlot = none := rfl

@[simp] theorem macKey_emptySlot : macKey emptySlot = none := rfl

theorem addrKey_eq_some {slot : DhcpOfferedAddr} {a : Addr} :
    addrKey slot = some a ↔ slot.yiaddr = a ∧ a ≠ 0#32 := by
  unfold addrKey
  split
  · rename_i hzero
    constructor
    · intro h
      cases h
    · rintro ⟨rfl, hne⟩
      exact absurd hzero hne
  · rename_i hne
    constructor
    · intro h
      cases h
      exact ⟨rfl, hne⟩
    · rintro ⟨rfl, -⟩
      rfl

theorem macKey_eq_some {slot : DhcpOfferedAddr} {mac : BitVec 48} :
    macKey slot = some mac ↔ slot.chaddr ≠ blankChaddr ∧ slot.chaddr.mac = mac := by
  unfold macKey
  split
  · rename_i hblank
    simp [hblank]
  · rename_i hblank
    simp [hblank]

theorem Chaddr.ne_blank_of_mac_ne {c : Chaddr} (h : c.mac ≠ 0#48) : c ≠ blankChaddr := by
  rintro rfl
  exact h rfl

/-- No two slots share a nonzero address or the six bytes of a nonblank `chaddr`. -/
structure SlotsApart (s : Server) : Prop where
  addr : KeysDistinct addrKey s.config.maxLeases s.leases
  mac : KeysDistinct macKey s.config.maxLeases s.leases

theorem SlotsApart.yiaddr_inj (h : SlotsApart s) {i j : Nat} (hi : i < s.config.maxLeases)
    (hj : j < s.config.maxLeases) (heq : (s.leases i).yiaddr = (s.leases j).yiaddr)
    (hne : (s.leases i).yiaddr ≠ 0#32) : i = j :=
  h.addr i hi j hj _ (addrKey_eq_some.mpr ⟨rfl, hne⟩) (addrKey_eq_some.mpr ⟨heq.symm, hne⟩)

structure TableOk (s : Server) : Prop where
  addr : KeysDistinct addrKey s.config.maxLeases s.leases
  mac : KeysDistinct macKey s.config.maxLeases s.leases
  used : ∀ i < s.config.maxLeases,
    (s.leases i).chaddr ≠ blankChaddr → (s.leases i).yiaddr ≠ 0#32

namespace TableOk

theorem apart (h : TableOk s) : SlotsApart s := ⟨h.addr, h.mac⟩

theorem yiaddr_inj (h : TableOk s) {i j : Nat} (hi : i < s.config.maxLeases)
    (hj : j < s.config.maxLeases) (heq : (s.leases i).yiaddr = (s.leases j).yiaddr)
    (hne : (s.leases i).yiaddr ≠ 0#32) : i = j :=
  h.apart.yiaddr_inj hi hj heq hne

theorem mac_inj (h : TableOk s) {i j : Nat} (hi : i < s.config.maxLeases)
    (hj : j < s.config.maxLeases) {mac : BitVec 48} (hmac : mac ≠ 0#48)
    (hmi : (s.leases i).chaddr.mac = mac) (hmj : (s.leases j).chaddr.mac = mac) : i = j := by
  subst hmi
  have hbi := Chaddr.ne_blank_of_mac_ne hmac
  have hbj : (s.leases j).chaddr ≠ blankChaddr := by
    rw [← hmj] at hmac
    exact Chaddr.ne_blank_of_mac_ne hmac
  exact h.mac i hi j hj _ (macKey_eq_some.mpr ⟨hbi, rfl⟩) (macKey_eq_some.mpr ⟨hbj, hmj⟩)

theorem yiaddr_ne (h : TableOk s) {i : Nat} (hi : i < s.config.maxLeases)
    (hmac : (s.leases i).chaddr.mac ≠ 0#48) : (s.leases i).yiaddr ≠ 0#32 :=
  h.used i hi (Chaddr.ne_blank_of_mac_ne hmac)

/-- The invariant depends on the table only. -/
theorem of_eq {s' : Server} (h : TableOk s) (hconfig : s'.config = s.config)
    (hleases : s'.leases = s.leases) : TableOk s' := by
  constructor
  · rw [hconfig, hleases]
    exact h.addr
  · rw [hconfig, hleases]
    exact h.mac
  · rw [hconfig, hleases]
    exact h.used

/-- Slots may keep their address and either keep or lose their `chaddr`. -/
theorem of_slots {s' : Server} (h : TableOk s) (hconfig : s'.config = s.config)
    (haddr : ∀ i, (s'.leases i).yiaddr = (s.leases i).yiaddr)
    (hchaddr : ∀ i, (s'.leases i).chaddr = blankChaddr ∨
      (s'.leases i).chaddr = (s.leases i).chaddr) : TableOk s' := by
  constructor
  · rw [hconfig]
    refine h.addr.drop fun i _ => Or.inr ?_
    simp [addrKey, haddr i]
  · rw [hconfig]
    refine h.mac.drop fun i _ => ?_
    rcases hchaddr i with hblank | hsame
    · exact Or.inl (by simp [macKey, hblank])
    · exact Or.inr (by simp [macKey, hsame])
  · intro i hi hb
    rw [hconfig] at hi
    rw [haddr i]
    rcases hchaddr i with hblank | hsame
    · exact absurd hblank hb
    · rw [hsame] at hb
      exact h.used i hi hb

/-- `add_lease` keeps the invariant when every slot with the new record's six bytes is
one that it clears. -/
theorem addLease (h : TableOk s) (chaddr : Chaddr) (yiaddr : Addr) (lease : Nat)
    (hmac : ∀ k < s.config.maxLeases, macKey (s.leases k) = some chaddr.mac →
      chaddr ≠ blankChaddr → clearMatches chaddr yiaddr (s.leases k) = true) :
    TableOk (s.addLease env chaddr yiaddr lease).1 := by
  by_cases hy : yiaddr = 0#32
  · subst hy
    rw [Server.addLease_zero]
    exact h
  have hused : ∀ k < s.config.maxLeases,
      ((s.addLease env chaddr yiaddr lease).1.leases k).chaddr ≠ blankChaddr →
      ((s.addLease env chaddr yiaddr lease).1.leases k).yiaddr ≠ 0#32 := by
    intro k hk hb
    by_cases hr : (s.addLease env chaddr yiaddr lease).2 = some k
    · rw [(Server.addLease_some chaddr yiaddr lease hr).2.2.2.1]
      exact hy
    · rcases Server.addLease_other_cases chaddr yiaddr lease hy hk hr with hempty | ⟨hkept, -⟩
      · rw [hempty] at hb
        exact absurd rfl hb
      · rw [hkept] at hb ⊢
        exact h.used k hk hb
  cases hres : (s.addLease env chaddr yiaddr lease).2 with
  | none =>
      have hslots : ∀ k < s.config.maxLeases,
          (s.addLease env chaddr yiaddr lease).1.leases k = emptySlot ∨
          (s.addLease env chaddr yiaddr lease).1.leases k = s.leases k := by
        intro k hk
        exact (Server.addLease_other_cases chaddr yiaddr lease hy hk (by simp [hres])).imp_right
          And.left
      constructor
      · rw [Server.addLease_config]
        exact h.addr.drop fun k hk => (hslots k hk).imp (by simp +contextual) (by simp +contextual)
      · rw [Server.addLease_config]
        exact h.mac.drop fun k hk => (hslots k hk).imp (by simp +contextual) (by simp +contextual)
      · rw [Server.addLease_config]
        exact hused
  | some r =>
      obtain ⟨-, -, hc, ha, -, -⟩ := Server.addLease_some chaddr yiaddr lease hres
      constructor
      · rw [Server.addLease_config]
        refine h.addr.replace r fun k hk hkr => ?_
        have hne : (s.addLease env chaddr yiaddr lease).2 ≠ some k := by
          rw [hres]
          simpa using Ne.symm hkr
        rcases Server.addLease_other_cases chaddr yiaddr lease hy hk hne with
          hempty | ⟨hkept, hno⟩
        · exact Or.inl (by simp [hempty])
        · rw [hkept]
          refine Or.inr ⟨rfl, fun heq => ?_⟩
          rw [show addrKey ((s.addLease env chaddr yiaddr lease).1.leases r) = some yiaddr from
            addrKey_eq_some.mpr ⟨ha, hy⟩, addrKey_eq_some] at heq
          simp [clearMatches, heq.1, hy] at hno
      · rw [Server.addLease_config]
        refine h.mac.replace r fun k hk hkr => ?_
        have hne : (s.addLease env chaddr yiaddr lease).2 ≠ some k := by
          rw [hres]
          simpa using Ne.symm hkr
        rcases Server.addLease_other_cases chaddr yiaddr lease hy hk hne with
          hempty | ⟨hkept, hno⟩
        · exact Or.inl (by simp [hempty])
        · rw [hkept]
          cases hkey : macKey (s.leases k) with
          | none => exact Or.inl rfl
          | some mac =>
              refine Or.inr ⟨rfl, fun heq => ?_⟩
              obtain ⟨hblank, hmaceq⟩ := macKey_eq_some.mp heq.symm
              rw [hc] at hblank hmaceq
              rw [hmac k hk (hkey.trans (by rw [hmaceq])) hblank] at hno
              cases hno
      · rw [Server.addLease_config]
        exact hused

end TableOk

end Xwr100.Udhcpd
