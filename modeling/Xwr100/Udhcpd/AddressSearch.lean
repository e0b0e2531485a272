import Xwr100.Udhcpd.AddressTurns
import Mathlib.Order.WellFounded

/-!
# What the address search finds

`find_address` goes through the pool from below and takes the first address that nobody has.
It looks at each address once it gets there, and on its way there it has recorded the router's
address and those that answered a probe.  `add_lease` writes such a record over the oldest
expired one, which may be that of an address still ahead: then the search finds another table
than the one it was called on.
-/

namespace Xwr100.Udhcpd

open Lib Server

variable {env : Env} {checkExpired : Bool} {s t : Server} {a b y : Addr}

/-! ## What the search should find -/

/-- The address can be assigned: it is one of the pool, has no lease (or, if they are looked
at, an expired one) when the search is called, and nobody answers for it. -/
structure Available (env : Env) (checkExpired : Bool) (s : Server) (a : Addr) : Prop where
  pool : InPool s.config s.lanIpaddr a
  free : s.leaseTaken env checkExpired a = false
  silent : env.arpping (s.before env checkExpired a).probes a = false

/-- The tables differ by reservations, each of the router's address or of one that answered
the probe of its turn. -/
def OnlyReserves (env : Env) (checkExpired : Bool) (s t : Server) : Prop :=
  ∃ turns : List Nat,
    t.leases = ((turns.map s.addrAt).foldl (Server.reserve env) s).leases ∧
    ∀ k ∈ turns, s.lanIpaddr = some (s.addrAt k) ∨
      env.arpping (s.reached env checkExpired k).probes (s.addrAt k) = true

/-- The search returns, with the smallest address that can be assigned or with 0 if there is
none, and changes the table by reservations only. -/
def SearchRight (env : Env) (checkExpired : Bool) (s : Server) : Prop :=
  ∃ t a, Searches env checkExpired s t a ∧
    ((Available env checkExpired s a ∧ ∀ b, Available env checkExpired s b → a ≤ b) ∨
      (a = 0#32 ∧ ∀ b, ¬ Available env checkExpired s b)) ∧
    OnlyReserves env checkExpired s t

/-- No reservation on the way to an address changes whether it is taken, as far as the search
has to go and nobody answers there. -/
def Undisturbed (env : Env) (checkExpired : Bool) (s : Server) : Prop :=
  ∀ a, InPool s.config s.lanIpaddr a → env.arpping (s.before env checkExpired a).probes a = false →
    (∀ b, Available env checkExpired s b → a ≤ b) →
    (s.before env checkExpired a).leaseTaken env checkExpired a = s.leaseTaken env checkExpired a

/-! ## The table changes -/

theorem foldl_reserve_config (ys : List Addr) :
    (ys.foldl (Server.reserve env) s).config = s.config := by
  induction ys generalizing s with
  | nil => rfl
  | cons y ys ih => rw [List.foldl_cons, ih, reserve_config]

theorem onlyReserves_reached (env : Env) (checkExpired : Bool) (s : Server) (k : Nat) :
    OnlyReserves env checkExpired s (s.reached env checkExpired k) := by
  induction k with
  | zero => exact ⟨[], rfl, fun k hk => absurd hk List.not_mem_nil⟩
  | succ k ih =>
      obtain ⟨turns, hleases, hall⟩ := ih
      obtain ⟨hconfig, hlan⟩ := reached_frame env checkExpired s k
      rcases pass_leases env checkExpired (s.reached env checkExpired k) (s.addrAt k) with
        hkept | ⟨hreserved, -, hwhy⟩
      · exact ⟨turns, hkept.trans hleases, hall⟩
      · refine ⟨turns ++ [k], ?_, fun j hj => ?_⟩
        · rw [reached, hreserved, List.map_append, List.foldl_append]
          apply reserve_leases_congr
          · rw [hconfig, foldl_reserve_config]
          · exact hleases
        · rcases List.mem_append.mp hj with hold | hnew
          · exact hall j hold
          · rw [List.mem_singleton.mp hnew]
            rw [hlan] at hwhy
            exact hwhy.imp_right And.right

theorem Searches.onlyReserves (h : Searches env checkExpired s t a) :
    OnlyReserves env checkExpired s t := by
  obtain ⟨k, -, hend⟩ := searches_iff.mp h
  rcases hend with ⟨-, -, ht, -⟩ | ⟨-, ht, -⟩
  · rw [ht]
    exact onlyReserves_reached env checkExpired s (k + 1)
  · rw [ht]
    exact onlyReserves_reached env checkExpired s k

/-! ## Where nothing is disturbed -/

/-- Up to the first address that can be assigned, a turn takes its address just if it can be
assigned. -/
theorem Undisturbed.available (h : Undisturbed env checkExpired s) {k : Nat}
    (hpos : (s.addrAt k).toNat = s.config.start.toNat + k) (hle : s.addrAt k ≤ s.config.end_)
    (hleast : ∀ b, Available env checkExpired s b → s.addrAt k ≤ b)
    (hacc : Accepts env checkExpired (s.reached env checkExpired k) (s.addrAt k)) :
    Available env checkExpired s (s.addrAt k) := by
  have hpool := hacc.inPool hpos hle
  obtain ⟨-, -, hfree, hsilent⟩ := hacc
  rw [← before_addrAt hpos] at hfree hsilent
  refine ⟨hpool, ?_, hsilent⟩
  rw [← h _ hpool hsilent hleast]
  exact hfree

theorem Undisturbed.searches_least (h : Undisturbed env checkExpired s)
    (ha : Available env checkExpired s a)
    (hleast : ∀ b, Available env checkExpired s b → a ≤ b) :
    ∃ t, Searches env checkExpired s t a := by
  have hstart : s.config.start ≤ a := ha.pool.1
  have hturn := addrAt_turn hstart
  refine ⟨_, searches_iff.mpr ⟨a.toNat - s.config.start.toNat, fun j hj => ?_,
    Or.inl ⟨?_, ?_, rfl, hturn.symm⟩⟩⟩
  · have hpos := toNat_addrAt hstart (Nat.le_of_lt hj)
    have hlt : (s.addrAt j).toNat < a.toNat := by
      rw [hpos]
      omega
    have hle : s.addrAt j ≤ s.config.end_ := by
      have hend : a.toNat ≤ s.config.end_.toNat := ha.pool.2.1
      rw [BitVec.le_def]
      omega
    refine ⟨hle, fun hacc => ?_⟩
    have hbelow : ∀ b, Available env checkExpired s b → s.addrAt j ≤ b := fun b hb =>
      Nat.le_trans (Nat.le_of_lt hlt) (hleast b hb)
    have hge : a.toNat ≤ (s.addrAt j).toNat := hleast _ (h.available hpos hle hbelow hacc)
    omega
  · rw [hturn]
    exact ha.pool.2.1
  · rw [hturn]
    have hsame := h a ha.pool ha.silent hleast
    exact (accepts_before_iff ha.pool).mpr ⟨hsame.trans ha.free, ha.silent⟩

/-- The search goes past a pool without such an address, if the pool has an end. -/
theorem Undisturbed.searches_none (h : Undisturbed env checkExpired s)
    (hend : s.config.end_ ≠ 0xffffffff#32) (hnone : ∀ b, ¬ Available env checkExpired s b) :
    ∃ t, Searches env checkExpired s t 0#32 := by
  have hlast : s.config.end_.toNat < 2 ^ 32 - 1 := by
    have hlt := s.config.end_.isLt
    have hne : s.config.end_.toNat ≠ 2 ^ 32 - 1 := fun heq => hend (BitVec.eq_of_toNat_eq heq)
    omega
  have hpos : ∀ k ≤ s.config.end_.toNat + 1 - s.config.start.toNat,
      (s.addrAt k).toNat = s.config.start.toNat + k := by
    intro k hk
    have hlt := s.config.start.isLt
    simp only [addrAt, BitVec.toNat_add, BitVec.toNat_ofNat]
    omega
  refine ⟨_, searches_iff.mpr ⟨s.config.end_.toNat + 1 - s.config.start.toNat, fun j hj => ?_,
    Or.inr ⟨?_, rfl, rfl⟩⟩⟩
  · have hposj := hpos j (Nat.le_of_lt hj)
    have hle : s.addrAt j ≤ s.config.end_ := by
      rw [BitVec.le_def, hposj]
      omega
    exact ⟨hle, fun hacc =>
      hnone _ (h.available hposj hle (fun b hb => absurd hb (hnone b)) hacc)⟩
  · rw [BitVec.le_def, hpos _ (Nat.le_refl _)]
    omega

theorem exists_least_available (h : ∃ b, Available env checkExpired s b) :
    ∃ a, Available env checkExpired s a ∧ ∀ b, Available env checkExpired s b → a ≤ b := by
  obtain ⟨a, ha, hmin⟩ := (measure BitVec.toNat).wf.has_min {b | Available env checkExpired s b} h
  exact ⟨a, ha, fun b hb => Nat.le_of_not_lt (hmin b hb)⟩

theorem Undisturbed.searchRight (h : Undisturbed env checkExpired s)
    (hends : s.config.end_ ≠ 0xffffffff#32 ∨ ∃ b, Available env checkExpired s b) :
    SearchRight env checkExpired s := by
  by_cases hsome : ∃ b, Available env checkExpired s b
  · obtain ⟨a, ha, hleast⟩ := exists_least_available hsome
    obtain ⟨t, hsearch⟩ := h.searches_least ha hleast
    exact ⟨t, a, hsearch, Or.inl ⟨ha, hleast⟩, hsearch.onlyReserves⟩
  · have hnone := not_exists.mp hsome
    obtain ⟨t, hsearch⟩ := h.searches_none (hends.resolve_right hsome) hnone
    exact ⟨t, 0#32, hsearch, Or.inr ⟨rfl, hnone⟩, hsearch.onlyReserves⟩

/-! ## Where something is disturbed -/

/-- A property of the table that the reservation of any other address keeps. -/
structure KeptBeside (env : Env) (a : Addr) (Inv : Server → Prop) : Prop where
  congr : ∀ s s', s'.config = s.config → s'.leases = s.leases → Inv s → Inv s'
  reserve : ∀ s y, y ≠ a → y ≠ 0#32 → Inv s → Inv (s.reserve env y)

theorem KeptBeside.pass {Inv : Server → Prop} (h : KeptBeside env a Inv) (hy : y ≠ a)
    (hs : Inv s) : Inv (s.pass env checkExpired y) := by
  have hconfig := (pass_frame env checkExpired s y).1
  rcases pass_leases env checkExpired s y with hkept | ⟨hreserved, hhost, -⟩
  · exact h.congr _ _ hconfig hkept hs
  · exact h.congr _ _ (hconfig.trans reserve_config.symm) hreserved
      (h.reserve s y hy hhost.ne_zero hs)

/-- The addresses below `a` are other addresses. -/
theorem KeptBeside.before {Inv : Server → Prop} (h : KeptBeside env a Inv)
    (hstart : s.config.start ≤ a) (hs : Inv s) : Inv (s.before env checkExpired a) := by
  have hreached : ∀ k ≤ a.toNat - s.config.start.toNat, Inv (s.reached env checkExpired k) := by
    intro k hk
    induction k with
    | zero => exact hs
    | succ k ih =>
        have hpos := toNat_addrAt hstart (Nat.le_of_lt hk)
        have hy : s.addrAt k ≠ a := by
          intro heq
          rw [heq] at hpos
          omega
        exact h.pass hy (ih (Nat.le_of_lt hk))
  exact hreached _ (Nat.le_refl _)

theorem keptBeside_free (ha : a ≠ 0#32) :
    KeptBeside env a fun s => s.leaseTaken env false a = false where
  congr _ _ hconfig hleases h := (leaseTaken_congr hconfig hleases a).trans h
  reserve _ _ hy _ h := reserve_free hy ha h

theorem keptBeside_taken (ha : a ≠ 0#32) :
    KeptBeside env a fun s => s.leaseTaken env true a = true where
  congr _ _ hconfig hleases h := (leaseTaken_congr hconfig hleases a).trans h
  reserve _ _ hy hzero h := reserve_taken hy hzero ha h

/-- A turn at the address itself keeps its running lease, too: it does not probe. -/
theorem pass_taken (hhost : HostAddr a) (hlan : s.lanIpaddr ≠ some a)
    (h : s.leaseTaken env true a = true) : (s.pass env true y).leaseTaken env true a = true := by
  by_cases hy : y = a
  · have hsame : s.pass env true y = s := by
      rw [hy, Server.pass, if_neg (not_not.mpr hhost), if_neg hlan, if_pos h]
    rw [hsame]
    exact h
  · exact (keptBeside_taken hhost.ne_zero).pass hy h

theorem reached_taken (hhost : HostAddr a) (hlan : s.lanIpaddr ≠ some a) {i k : Nat}
    (hik : i ≤ k) (h : (s.reached env true i).leaseTaken env true a = true) :
    (s.reached env true k).leaseTaken env true a = true := by
  induction hik with
  | refl => exact h
  | @step k _ ih =>
      rw [reached]
      apply pass_taken hhost _ ih
      rw [(reached_frame env true s k).2]
      exact hlan

/-- An address that was free when the search was called, but is taken at its turn, stays taken
at every later one. -/
theorem taken_of_disturbed (hpool : InPool s.config s.lanIpaddr a)
    (hfree : s.leaseTaken env checkExpired a = false)
    (htaken : (s.before env checkExpired a).leaseTaken env checkExpired a = true) {k : Nat}
    (hk : a.toNat - s.config.start.toNat ≤ k) :
    (s.reached env checkExpired k).leaseTaken env checkExpired a = true := by
  obtain ⟨hstart, -, hlan, hzero, hff⟩ := hpool
  have hhost : HostAddr a := ⟨hzero, hff⟩
  cases checkExpired with
  | true => exact reached_taken hhost hlan hk htaken
  | false =>
      have hstill : (s.before env false a).leaseTaken env false a = false :=
        (keptBeside_free hhost.ne_zero).before hstart hfree
      rw [hstill] at htaken
      cases htaken

/-- A search that ends does so no earlier than at an address of the pool with nothing that can
be assigned below it, if what it returns is right. -/
theorem turn_le {k : Nat} (hpool : InPool s.config s.lanIpaddr b)
    (hbelow : ∀ c, Available env checkExpired s c → b ≤ c)
    (hend : (Available env checkExpired s a ∧ a = s.addrAt k) ∨ ¬ s.addrAt k ≤ s.config.end_) :
    b.toNat - s.config.start.toNat ≤ k := by
  by_contra hlt
  have hpos := toNat_addrAt hpool.1 (Nat.le_of_lt (Nat.lt_of_not_le hlt))
  have hle : b.toNat ≤ s.config.end_.toNat := hpool.2.1
  rcases hend with ⟨ha, heq⟩ | hpast
  · have hba : b.toNat ≤ a.toNat := hbelow a ha
    rw [heq] at hba
    omega
  · rw [BitVec.le_def] at hpast
    omega

theorem le_last (a : Addr) : a ≤ 0xffffffff#32 := by
  rw [BitVec.le_def]
  exact Nat.le_of_lt_succ a.isLt

/-- A pool that ends at 255.255.255.255 has no address behind it. -/
theorem Searches.found_of_last (h : Searches env checkExpired s t a)
    (hlast : s.config.end_ = 0xffffffff#32) :
    ∃ k, Accepts env checkExpired (s.reached env checkExpired k) a := by
  obtain ⟨k, -, hend⟩ := searches_iff.mp h
  rcases hend with ⟨-, hacc, -, ha⟩ | ⟨hpast, -, -⟩
  · rw [← ha] at hacc
    exact ⟨k, hacc⟩
  · rw [hlast] at hpast
    exact absurd (le_last _) hpast

/-- If somebody answers for every address, such a search never ends. -/
theorem not_searches_of_answered (hlast : s.config.end_ = 0xffffffff#32)
    (hall : ∀ n y, env.arpping n y = true) : ¬ Searches env checkExpired s t a := by
  intro h
  obtain ⟨k, -, -, -, hsilent⟩ := h.found_of_last hlast
  rw [hall] at hsilent
  cases hsilent

theorem SearchRight.ends (h : SearchRight env checkExpired s) :
    s.config.end_ ≠ 0xffffffff#32 ∨ ∃ b, Available env checkExpired s b := by
  obtain ⟨t, a, hsearch, hres, -⟩ := h
  rcases hres with ⟨ha, -⟩ | ⟨hzero, -⟩
  · exact Or.inr ⟨a, ha⟩
  · left
    intro hlast
    obtain ⟨k, hacc⟩ := hsearch.found_of_last hlast
    exact hacc.1.ne_zero hzero

theorem SearchRight.undisturbed (h : SearchRight env checkExpired s) :
    Undisturbed env checkExpired s := by
  obtain ⟨t, a, hsearch, hres, -⟩ := h
  obtain ⟨k, hpast, hend⟩ := searches_iff.mp hsearch
  intro b hpool hsilent hbelow
  have hturn := addrAt_turn hpool.1
  have hk : b.toNat - s.config.start.toNat ≤ k := by
    apply turn_le hpool hbelow
    rcases hend with ⟨-, hacc, -, ha⟩ | ⟨hbehind, -, -⟩
    · rcases hres with ⟨havail, -⟩ | ⟨hzero, -⟩
      · exact Or.inl ⟨havail, ha⟩
      · exact absurd (ha.symm.trans hzero) hacc.1.ne_zero
    · exact Or.inr hbehind
  cases hnow : (s.before env checkExpired b).leaseTaken env checkExpired b with
  | false =>
      -- The turn of `b` takes it, so `b` is what the search returns.
      have hacc := (accepts_before_iff hpool).mpr ⟨hnow, hsilent⟩
      have hlast : b.toNat - s.config.start.toNat = k := by
        apply Nat.le_antisymm hk
        by_contra hlt
        have hgo := (hpast _ (Nat.lt_of_not_le hlt)).2
        rw [hturn] at hgo
        exact hgo hacc
      rcases hend with ⟨-, -, -, ha⟩ | ⟨hbehind, -, -⟩
      · rw [← hlast, hturn] at ha
        rcases hres with ⟨havail, -⟩ | ⟨hzero, -⟩
        · rw [ha] at havail
          exact havail.free.symm
        · exact absurd (ha.symm.trans hzero) hacc.1.ne_zero
      · rw [← hlast, hturn] at hbehind
        exact absurd hpool.2.1 hbehind
  | true =>
      -- If `b` were free, it would be the address to find; but it is taken from its turn on.
      by_contra hne
      have hfree : s.leaseTaken env checkExpired b = false :=
        Bool.eq_false_iff.mpr fun htaken => hne htaken.symm
      have havail : Available env checkExpired s b := ⟨hpool, hfree, hsilent⟩
      rcases hres with ⟨ha, hleast⟩ | ⟨-, hnone⟩
      · have hab : a = b := BitVec.le_antisymm (hleast b havail) (hbelow a ha)
        rcases hend with ⟨-, hacc, -, heq⟩ | ⟨-, -, hzero⟩
        · have htaken := taken_of_disturbed hpool hfree hnow hk
          rw [← heq, hab] at hacc
          rw [hacc.2.2.1] at htaken
          cases htaken
        · exact absurd hzero (HostAddr.ne_zero ha.pool.2.2.2)
      · exact hnone b havail

/-- The search does what it should exactly if no reservation on the way to an address disturbs
it, and the pool has an end or an address that can be assigned. -/
theorem searchRight_iff :
    SearchRight env checkExpired s ↔
      (s.config.end_ ≠ 0xffffffff#32 ∨ ∃ b, Available env checkExpired s b) ∧
        Undisturbed env checkExpired s := by
  constructor
  · intro h
    exact ⟨h.ends, h.undisturbed⟩
  · intro h
    exact h.2.searchRight h.1

/-! ## When nothing can be disturbed -/

theorem keptBeside_vacant (ha : a ≠ 0#32) : KeptBeside env a fun s => Vacant env s a where
  congr s s' hconfig hleases h := by
    unfold Vacant
    rw [hconfig, hleases]
    exact h
  reserve s y hy _ h := by
    intro i hi hai
    rw [reserve_config] at hi
    rcases reserve_slot env _ hy ha i with hkept | hne
    · rw [hkept] at hai ⊢
      exact h i hi hai
    · exact absurd hai hne

/-- A table that holds no address twice is not disturbed when expired leases are looked at: a
reservation can only take the place of one that has expired. -/
theorem undisturbed_of_tableOk (hok : TableOk s) : Undisturbed env true s := by
  intro a hpool _ _
  obtain ⟨hstart, -, hlan, hzero, hff⟩ := hpool
  have hhost : HostAddr a := ⟨hzero, hff⟩
  cases hcall : s.leaseTaken env true a with
  | true => exact (keptBeside_taken hhost.ne_zero).before hstart hcall
  | false =>
      have hvacant : Vacant env (s.before env true a) a :=
        (keptBeside_vacant hhost.ne_zero).before hstart
          (leaseTaken_false hok hhost.ne_zero hcall)
      rw [Bool.eq_false_iff, ne_eq, leaseTaken_true_iff]
      intro htaken
      obtain ⟨i, hi, hai, hrunning, -⟩ := htaken
      exact Nat.not_lt.mpr hrunning (hvacant i hi hai)

/-- With such a table, that search fails only to come to an end. -/
theorem searchRight_of_tableOk (hok : TableOk s) :
    SearchRight env true s ↔
      s.config.end_ ≠ 0xffffffff#32 ∨ ∃ b, Available env true s b := by
  rw [searchRight_iff, and_iff_left (undisturbed_of_tableOk hok)]

theorem keptBeside_running :
    KeptBeside env a fun s => ∃ i < s.config.maxLeases, (s.leases i).yiaddr = a ∧
      env.sysTime ≤ (s.leases i).expires where
  congr s s' hconfig hleases h := by
    rw [hconfig, hleases]
    exact h
  reserve s y hy hzero h := by
    obtain ⟨i, hi, hai, hrunning⟩ := h
    refine ⟨i, ?_, ?_⟩
    · rw [reserve_config]
      exact hi
    · rw [reserve_running hy hzero hai hrunning]
      exact ⟨hai, hrunning⟩

/-- A table in which every address of the pool has a running lease or none is not disturbed
when expired leases are not looked at. -/
theorem undisturbed_of_running (hrun : ∀ i < s.config.maxLeases,
      InPool s.config s.lanIpaddr (s.leases i).yiaddr → env.sysTime ≤ (s.leases i).expires) :
    Undisturbed env false s := by
  intro a hpool _ _
  have ha : a ≠ 0#32 := HostAddr.ne_zero hpool.2.2.2
  cases hcall : s.leaseTaken env false a with
  | false => exact (keptBeside_free ha).before hpool.1 hcall
  | true =>
      have hslot : ∃ i < s.config.maxLeases, (s.leases i).yiaddr = a ∧
          env.sysTime ≤ (s.leases i).expires := by
        by_contra hno
        have hfree : s.leaseTaken env false a = false := by
          rw [leaseTaken_false_iff]
          intro i hi hai
          exact hno ⟨i, hi, hai, hrun i hi (by rw [hai]; exact hpool)⟩
        rw [hcall] at hfree
        cases hfree
      cases hnow : (s.before env false a).leaseTaken env false a with
      | true => rfl
      | false =>
          obtain ⟨i, hi, hai, -⟩ := keptBeside_running.before hpool.1 hslot
          exact absurd hai (leaseTaken_false_iff.mp hnow i hi)

/-! ## A recycled record -/

def pairConfig : ServerConfig := { wideConfig with end_ := 0xc0a80103#32, maxLeases := 1 }

/-- 192.168.1.3 is leased to a client for ten minutes. -/
def threeLeased : Server :=
  Server.boot calm pairConfig (some 0xc0a80101#32) 0xffffff00#32
    [⟨⟨0x020000000001#48, 0#80⟩, 0xc0a80103#32, 600, []⟩]

/-- An hour later somebody uses 192.168.1.2 without a lease. -/
def twoInUse : Env :=
  { anHourLater with arpping := fun _ y => y = 0xc0a80102#32 }

/-- A pool at the end of the address space, on a network where somebody answers for every
address. -/
def topPool : Server :=
  Server.boot calm { wideConfig with start := 0xffffff01#32, end_ := 0xffffffff#32 }
    (some 0xc0a80101#32) 0xffffff00#32 []

def allAnswered : Env := { calm with arpping := fun _ _ => true }

/-- The reservation of 192.168.1.2 takes the place of the only record, and its address is
returned, though the search was not to look at expired leases and no other address is left.
The search of the second pool goes around the address space for ever. -/
theorem recycled_record_returned :
    ((threeLeased.findAddress twoInUse false).2 = 0xc0a80103#32 ∧
      threeLeased.leaseTaken twoInUse false 0xc0a80103#32 = true ∧
      ¬ SearchRight twoInUse false threeLeased) ∧
    (∀ t a, ¬ Searches allAnswered false topPool t a) ∧
    ¬ SearchRight allAnswered false topPool := by
  have hfound : (threeLeased.findAddress twoInUse false).2 = 0xc0a80103#32 := by decide +kernel
  have htaken : threeLeased.leaseTaken twoInUse false 0xc0a80103#32 = true := by decide +kernel
  have hwrong : ¬ SearchRight twoInUse false threeLeased := by
    intro h
    obtain ⟨t, a, hsearch, hres, -⟩ := h
    have hcall : Searches twoInUse false threeLeased _ _ :=
      searches_findAddress (by decide +kernel)
    have ha : a = 0xc0a80103#32 := (Prod.mk.inj (hsearch.unique hcall)).2.trans hfound
    rcases hres with ⟨havail, -⟩ | ⟨hzero, -⟩
    · have hfree := havail.free
      rw [ha, htaken] at hfree
      cases hfree
    · rw [ha] at hzero
      exact absurd hzero (by decide)
  have hendless : ∀ t a, ¬ Searches allAnswered false topPool t a := fun t a =>
    not_searches_of_answered (by decide +kernel) fun _ _ => rfl
  refine ⟨⟨hfound, htaken, hwrong⟩, hendless, fun h => ?_⟩
  obtain ⟨t, a, hsearch, -⟩ := h
  exact hendless t a hsearch

end Xwr100.Udhcpd
