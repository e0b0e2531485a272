import Xwr100.Udhcpd.Uniqueness

/-!
# `add_lease` as an insertion

The function erases before it searches, so it must find a slot whenever it has erased one: an
erased slot counts as expired.  It fails only if there was nothing to erase, and then the
table is as before.
-/

namespace Xwr100.Udhcpd

open Server

variable {env : Env} {s : Server} {chaddr : Chaddr} {yiaddr : Addr} {lease : Nat}

/-- The slot can take the record: it is one of those that are cleared, or has expired. -/
def Takes (env : Env) (chaddr : Chaddr) (yiaddr : Addr) (slot : DhcpOfferedAddr) : Prop :=
  clearMatches chaddr yiaddr slot = true ∨ slot.expires < env.sysTime

/-- No slot can take the record. -/
def Unplaceable (env : Env) (s : Server) (chaddr : Chaddr) (yiaddr : Addr) : Prop :=
  ∀ i < s.config.maxLeases, ¬Takes env chaddr yiaddr (s.leases i)

/-- The record is in slot `j`, which could take it; the other slots of the table that match are
zero, and all others are as before. -/
structure Inserted (env : Env) (s s' : Server) (chaddr : Chaddr) (yiaddr : Addr)
    (lease j : Nat) : Prop where
  lt : j < s.config.maxLeases
  takes : Takes env chaddr yiaddr (s.leases j)
  client : (s'.leases j).chaddr = chaddr
  address : (s'.leases j).yiaddr = yiaddr
  expires : (s'.leases j).expires = (env.sysTime + lease) % UInt32.size
  cleared : ∀ i < s.config.maxLeases, i ≠ j →
    clearMatches chaddr yiaddr (s.leases i) = true → s'.leases i = emptySlot
  kept : ∀ i, i ≠ j → (i < s.config.maxLeases → clearMatches chaddr yiaddr (s.leases i) = false) →
    s'.leases i = s.leases i

/-- The slots that `oldest_expired_lease` may choose from once the old records are gone. -/
theorem clearLease_expired_iff {i : Nat} (hi : i < s.config.maxLeases) :
    ((s.clearLease chaddr yiaddr).leases i).expires < env.sysTime ↔
      Takes env chaddr yiaddr (s.leases i) := by
  have hpos := env.sysTime_pos
  dsimp only [clearLease]
  by_cases hmatch : clearMatches chaddr yiaddr (s.leases i) = true
  · rw [if_pos ⟨hi, hmatch⟩]
    exact iff_of_true hpos (Or.inl hmatch)
  · rw [if_neg fun h => hmatch h.2]
    exact ⟨Or.inr, fun h => h.resolve_left hmatch⟩

theorem addLease_eq_none_iff (hy : yiaddr ≠ 0#32) :
    (s.addLease env chaddr yiaddr lease).2 = none ↔ Unplaceable env s chaddr yiaddr := by
  rw [Server.addLease, if_neg hy]
  dsimp only
  cases hold : (s.clearLease chaddr yiaddr).oldestExpiredLease env with
  | none =>
      apply iff_of_true rfl
      intro i hi htakes
      have hlate := oldestExpiredLease_none hold i hi
      have hearly := (clearLease_expired_iff hi).mpr htakes
      omega
  | some j =>
      obtain ⟨hj, hexp⟩ := oldestExpiredLease_some hold
      apply iff_of_false
      · intro h
        cases h
      · intro h
        exact h j hj ((clearLease_expired_iff (s := s) hj).mp hexp)

theorem addLease_leases_of_none (h : (s.addLease env chaddr yiaddr lease).2 = none) :
    (s.addLease env chaddr yiaddr lease).1.leases = s.leases := by
  by_cases hy : yiaddr = 0#32
  · rw [hy, addLease_zero]
  · funext i
    have hnone := (addLease_eq_none_iff hy).mp h
    rw [addLease_other chaddr yiaddr lease hy (by simp [h])]
    apply if_neg
    intro hmatch
    exact hnone i hmatch.1 (Or.inl hmatch.2)

theorem addLease_inserted {j : Nat} (h : (s.addLease env chaddr yiaddr lease).2 = some j) :
    Inserted env s (s.addLease env chaddr yiaddr lease).1 chaddr yiaddr lease j := by
  obtain ⟨hy, hlt, hchaddr, hyiaddr, hexpires, htakes⟩ := addLease_some chaddr yiaddr lease h
  have hother : ∀ i, i ≠ j → (s.addLease env chaddr yiaddr lease).1.leases i =
      if i < s.config.maxLeases ∧ clearMatches chaddr yiaddr (s.leases i) then emptySlot
      else s.leases i := by
    intro i hij
    apply addLease_other chaddr yiaddr lease hy
    rw [h]
    exact fun heq => hij (Option.some.inj heq).symm
  refine ⟨hlt, htakes, hchaddr, hyiaddr, hexpires, ?_, ?_⟩
  · intro i hi hij hmatch
    rw [hother i hij, if_pos ⟨hi, hmatch⟩]
  · intro i hij hno
    rw [hother i hij]
    apply if_neg
    intro hmatch
    rw [hno hmatch.1] at hmatch
    exact Bool.false_ne_true hmatch.2

theorem clearMatches_of_yiaddr {slot : DhcpOfferedAddr} (hy : yiaddr ≠ 0#32)
    (h : slot.yiaddr = yiaddr) : clearMatches chaddr yiaddr slot = true := by
  simp [clearMatches, h, hy]

/-- The new record is the only one of its address. -/
theorem Inserted.slot_eq {s' : Server} {i j : Nat} (h : Inserted env s s' chaddr yiaddr lease j)
    (hy : yiaddr ≠ 0#32) (hi : i < s.config.maxLeases) (haddr : (s'.leases i).yiaddr = yiaddr) :
    i = j := by
  by_contra hij
  cases hmatch : clearMatches chaddr yiaddr (s.leases i) with
  | true =>
      rw [h.cleared i hi hij hmatch] at haddr
      exact hy haddr.symm
  | false =>
      rw [h.kept i hij fun _ => hmatch] at haddr
      rw [clearMatches_of_yiaddr hy haddr] at hmatch
      cases hmatch

/-! ## Which slot takes the record -/

/-- The slot counts as never used once the old records are gone. -/
def Unused (chaddr : Chaddr) (yiaddr : Addr) (slot : DhcpOfferedAddr) : Prop :=
  clearMatches chaddr yiaddr slot = true ∨ slot.expires = 0

theorem clearLease_expires_zero_iff {i : Nat} (hi : i < s.config.maxLeases) :
    ((s.clearLease chaddr yiaddr).leases i).expires = 0 ↔
      Unused chaddr yiaddr (s.leases i) := by
  dsimp only [clearLease]
  by_cases hmatch : clearMatches chaddr yiaddr (s.leases i) = true
  · rw [if_pos ⟨hi, hmatch⟩]
    exact iff_of_true rfl (Or.inl hmatch)
  · rw [if_neg fun h => hmatch h.2]
    exact ⟨Or.inr, fun h => h.resolve_left hmatch⟩

theorem addLease_oldest {j : Nat} (h : (s.addLease env chaddr yiaddr lease).2 = some j) :
    (s.clearLease chaddr yiaddr).oldestExpiredLease env = some j := by
  unfold addLease at h
  by_cases hy : yiaddr = 0#32
  · rw [if_pos hy] at h
    cases h
  · rw [if_neg hy] at h
    dsimp only at h
    cases hold : (s.clearLease chaddr yiaddr).oldestExpiredLease env with
    | none =>
        rw [hold] at h
        cases h
    | some i =>
        rw [hold] at h
        exact h

/-- No slot before the one that takes the record counts as never used. -/
theorem addLease_before {j k : Nat} (h : (s.addLease env chaddr yiaddr lease).2 = some j)
    (hk : k < j) : ¬Unused chaddr yiaddr (s.leases k) := by
  obtain ⟨hj, -, hfirst⟩ := oldestExpiredLease_first (addLease_oldest h)
  have hlt : k < s.config.maxLeases := Nat.lt_trans hk hj
  have hlater := (hfirst k hlt).2 hk
  rw [← clearLease_expires_zero_iff hlt]
  omega

/-- If some slot counts as never used, the first of them takes the record. -/
theorem addLease_unused {i j : Nat} (h : (s.addLease env chaddr yiaddr lease).2 = some j)
    (hi : i < s.config.maxLeases) (hunused : Unused chaddr yiaddr (s.leases i)) :
    j ≤ i ∧ Unused chaddr yiaddr (s.leases j) := by
  constructor
  · by_contra hij
    exact addLease_before h (Nat.lt_of_not_le hij) hunused
  · obtain ⟨hj, -, hfirst⟩ := oldestExpiredLease_first (addLease_oldest h)
    have hearliest := (hfirst i hi).1
    have hzero := (clearLease_expires_zero_iff hi).mpr hunused
    apply (clearLease_expires_zero_iff (s := s) hj).mp
    omega

def nameLeft (chaddr : Chaddr) (yiaddr : Addr) (slot : DhcpOfferedAddr) : List UInt8 :=
  if clearMatches chaddr yiaddr slot then [] else slot.hostname

theorem addLease_hostname {j : Nat} (h : (s.addLease env chaddr yiaddr lease).2 = some j) :
    ((s.addLease env chaddr yiaddr lease).1.leases j).hostname =
      nameLeft chaddr yiaddr (s.leases j) := by
  have hy := (addLease_some chaddr yiaddr lease h).1
  have hj := (addLease_some chaddr yiaddr lease h).2.1
  have hold := addLease_oldest h
  rw [Server.addLease, if_neg hy, nameLeft]
  dsimp only
  rw [hold]
  dsimp only [announce, recordAt, setSlot, clearLease]
  rw [Function.update_self]
  by_cases hmatch : clearMatches chaddr yiaddr (s.leases j) = true
  · rw [if_pos ⟨hj, hmatch⟩, if_pos hmatch]
    rfl
  · rw [if_neg fun h => hmatch h.2, if_neg hmatch]

/-- For every table and every record of an address: `add_lease` fails exactly if no slot matches
and none has expired, and leaves the table as it is then; otherwise it inserts the record. -/
theorem addLease_total (env : Env) (s : Server) (chaddr : Chaddr) (yiaddr : Addr) (lease : Nat)
    (hy : yiaddr ≠ 0#32) :
    ((s.addLease env chaddr yiaddr lease).2 = none ↔
      ∀ i < s.config.maxLeases, clearMatches chaddr yiaddr (s.leases i) = false ∧
        env.sysTime ≤ (s.leases i).expires) ∧
    ((s.addLease env chaddr yiaddr lease).2 = none →
      (s.addLease env chaddr yiaddr lease).1.leases = s.leases) ∧
    ∀ j, (s.addLease env chaddr yiaddr lease).2 = some j →
      Inserted env s (s.addLease env chaddr yiaddr lease).1 chaddr yiaddr lease j := by
  refine ⟨(addLease_eq_none_iff hy).trans ?_, addLease_leases_of_none, fun j => addLease_inserted⟩
  apply forall₂_congr
  intro i _
  rw [Takes, not_or, Bool.not_eq_true, Nat.not_lt]

/-- A second client in a table with one record. -/
theorem addLease_total_second_client :
    ∃ j, Inserted calm
      ((Server.init wideConfig none 0#32).addLease calm ⟨2#48, 0#80⟩ 0xC0A80105#32 60).1
      (((Server.init wideConfig none 0#32).addLease calm ⟨2#48, 0#80⟩ 0xC0A80105#32 60).1.addLease
        calm ⟨3#48, 0#80⟩ 0xC0A80106#32 60).1 ⟨3#48, 0#80⟩ 0xC0A80106#32 60 j := by
  have htotal := addLease_total calm
    ((Server.init wideConfig none 0#32).addLease calm ⟨2#48, 0#80⟩ 0xC0A80105#32 60).1
    ⟨3#48, 0#80⟩ 0xC0A80106#32 60 (by decide)
  have hsome : ∃ j, (((Server.init wideConfig none 0#32).addLease calm ⟨2#48, 0#80⟩
      0xC0A80105#32 60).1.addLease calm ⟨3#48, 0#80⟩ 0xC0A80106#32 60).2 = some j := by
    apply Option.ne_none_iff_exists'.mp
    decide +kernel
  obtain ⟨j, hj⟩ := hsome
  exact ⟨j, htotal.2.2 j hj⟩

end Xwr100.Udhcpd
