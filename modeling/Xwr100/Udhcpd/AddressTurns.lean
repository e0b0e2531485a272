import Xwr100.Lib.Loop
import Xwr100.Udhcpd.Offers
import Xwr100.Udhcpd.Pool

/-!
# The turns of the address search

The loop of `find_address` without a bound on its turns, what one turn does to the server, and
the server at the start of each turn.  A turn that goes past its address changes the table only
by reserving that address.
-/

namespace Xwr100.Udhcpd

open Lib Server

variable {env : Env} {checkExpired : Bool} {s s' t : Server} {a b y : Addr}

/-! ## The loop without a bound on its turns -/

namespace Server

/-- One turn of the loop of `find_address`: it goes on with the next address, or returns. -/
def searchTurn (env : Env) (checkExpired : Bool) (p : Server × Addr) :
    (Server × Addr) ⊕ (Server × Addr) :=
  if p.2 ≤ p.1.config.end_ then
    match p.1.tryAddress env checkExpired p.2 with
    | (s', true) => .inr (s', p.2)
    | (s', false) => .inl (s', p.2 + 1)
  else .inr (p.1, 0#32)

end Server

/-- `find_address`, called on `s`, returns `a` and leaves the server `t`. -/
def Searches (env : Env) (checkExpired : Bool) (s t : Server) (a : Addr) : Prop :=
  Ends (searchTurn env checkExpired) (s, s.config.start) (t, a)

theorem findAddressLoop_succ (fuel : Nat) :
    findAddressLoop env checkExpired (fuel + 1) s y =
      match searchTurn env checkExpired (s, y) with
      | .inr r => r
      | .inl p => findAddressLoop env checkExpired fuel p.1 p.2 := by
  rw [findAddressLoop, searchTurn]
  by_cases hle : y ≤ s.config.end_
  · rw [if_pos hle, if_pos hle]
    cases htry : s.tryAddress env checkExpired y with
    | mk s' found =>
        cases found with
        | true => rfl
        | false => rfl
  · rw [if_neg hle, if_neg hle]

theorem findAddressLoop_of_ends {p r : Server × Addr}
    (h : Ends (searchTurn env checkExpired) p r) :
    ∃ n, ∀ m, findAddressLoop env checkExpired (n + m) p.1 p.2 = r := by
  induction h with
  | last hturn =>
      refine ⟨1, fun m => ?_⟩
      rw [Nat.add_comm, findAddressLoop_succ, hturn]
  | next hturn _ ih =>
      obtain ⟨n, hn⟩ := ih
      refine ⟨n + 1, fun m => ?_⟩
      rw [Nat.add_right_comm, findAddressLoop_succ, hturn]
      exact hn m

/-- A loop that has not run out of fuel has ended. -/
theorem ends_of_findAddressLoop {fuel : Nat}
    (h : (findAddressLoop env checkExpired fuel s y).1.hung = false) :
    Ends (searchTurn env checkExpired) (s, y) (findAddressLoop env checkExpired fuel s y) := by
  induction fuel generalizing s y with
  | zero => cases h
  | succ fuel ih =>
      rw [findAddressLoop_succ] at h ⊢
      cases hturn : searchTurn env checkExpired (s, y) with
      | inr r => exact .last hturn
      | inl p =>
          rw [hturn] at h
          exact .next hturn (ih h)

/-- So `find_address` with its bound agrees with the search without one. -/
theorem searches_findAddress (h : (s.findAddress env checkExpired).1.hung = false) :
    Searches env checkExpired s (s.findAddress env checkExpired).1
      (s.findAddress env checkExpired).2 :=
  ends_of_findAddressLoop h

/-! ## What one turn does -/

def Server.reserve (env : Env) (s : Server) (y : Addr) : Server :=
  (s.addLease env blankChaddr y s.config.conflictTime).1

/-- The address is that of a host: it ends neither in .0 nor in .255. -/
def HostAddr (y : Addr) : Prop := y &&& 0xff#32 ≠ 0#32 ∧ y &&& 0xff#32 ≠ 0xff#32

instance (y : Addr) : Decidable (HostAddr y) := inferInstanceAs (Decidable (_ ∧ _))

/-- The server when the search has gone past `y`. -/
def Server.pass (env : Env) (checkExpired : Bool) (s : Server) (y : Addr) : Server :=
  if ¬ HostAddr y then s
  else if s.lanIpaddr = some y then s.reserve env y
  else if s.leaseTaken env checkExpired y then s
  else if env.arpping s.probes y then { s with probes := s.probes + 1 }.reserve env y
  else { s with probes := s.probes + 1 }

/-- The search takes `y`. -/
def Accepts (env : Env) (checkExpired : Bool) (s : Server) (y : Addr) : Prop :=
  HostAddr y ∧ s.lanIpaddr ≠ some y ∧ s.leaseTaken env checkExpired y = false ∧
    env.arpping s.probes y = false

instance : Decidable (Accepts env checkExpired s y) := inferInstanceAs (Decidable (_ ∧ _))

theorem HostAddr.ne_zero (h : HostAddr y) : y ≠ 0#32 := by
  intro hzero
  rw [hzero] at h
  exact h.1 (BitVec.zero_and)

theorem tryAddress_eq :
    s.tryAddress env checkExpired y =
      (s.pass env checkExpired y, decide (Accepts env checkExpired s y)) := by
  unfold Server.tryAddress Server.pass
  by_cases hzero : y &&& 0xff#32 = 0#32
  · have hhost : ¬ HostAddr y := fun h => h.1 hzero
    have hno : ¬ Accepts env checkExpired s y := fun h => hhost h.1
    rw [if_pos hzero, if_pos hhost, decide_eq_false hno]
  · rw [if_neg hzero]
    by_cases hff : y &&& 0xff#32 = 0xff#32
    · have hhost : ¬ HostAddr y := fun h => h.2 hff
      have hno : ¬ Accepts env checkExpired s y := fun h => hhost h.1
      rw [if_pos hff, if_pos hhost, decide_eq_false hno]
    · have hhost : HostAddr y := ⟨hzero, hff⟩
      rw [if_neg hff, if_neg (not_not.mpr hhost), isLanIPAddr]
      by_cases hlan : s.lanIpaddr = some y
      · have hno : ¬ Accepts env checkExpired s y := fun h => h.2.1 hlan
        rw [if_pos hlan, if_pos hlan, decide_eq_false hno]
        rfl
      · rw [if_neg hlan, if_neg hlan]
        dsimp only
        by_cases htaken : s.leaseTaken env checkExpired y = true
        · have hno : ¬ Accepts env checkExpired s y := fun h =>
            Bool.eq_false_iff.mp h.2.2.1 htaken
          rw [if_pos htaken, if_pos htaken, decide_eq_false hno]
        · rw [if_neg htaken, if_neg htaken, checkIp, isLanIPAddr, if_neg hlan]
          dsimp only
          by_cases hanswer : env.arpping s.probes y = true
          · have hno : ¬ Accepts env checkExpired s y := fun h =>
              Bool.eq_false_iff.mp h.2.2.2 hanswer
            rw [if_pos hanswer, if_pos hanswer, decide_eq_false hno]
            rfl
          · have hyes : Accepts env checkExpired s y :=
              ⟨hhost, hlan, Bool.eq_false_iff.mpr htaken, Bool.eq_false_iff.mpr hanswer⟩
            rw [if_neg hanswer, if_neg hanswer, decide_eq_true hyes]
            rfl

/-! ## Reservations -/

/-- The table `add_lease` leaves depends on the table and the configuration alone. -/
theorem reserve_leases_congr (hconfig : s'.config = s.config) (hleases : s'.leases = s.leases)
    (y : Addr) : (s'.reserve env y).leases = (s.reserve env y).leases := by
  have hcleared : (s'.clearLease blankChaddr y).leases = (s.clearLease blankChaddr y).leases := by
    unfold clearLease
    rw [hconfig, hleases]
  have holdest : (s'.clearLease blankChaddr y).oldestExpiredLease env =
      (s.clearLease blankChaddr y).oldestExpiredLease env := by
    unfold oldestExpiredLease
    rw [hcleared, show (s'.clearLease blankChaddr y).config = s'.config from rfl, hconfig]
    rfl
  unfold reserve addLease
  by_cases hzero : y = 0#32
  · rw [if_pos hzero, if_pos hzero, hleases]
  · rw [if_neg hzero, if_neg hzero]
    dsimp only
    rw [holdest]
    cases (s.clearLease blankChaddr y).oldestExpiredLease env with
    | none => exact hcleared
    | some i =>
        dsimp only [recordAt, setSlot, announce]
        rw [hcleared, hconfig]

@[simp] theorem reserve_config : (s.reserve env y).config = s.config :=
  addLease_config _ _ _

@[simp] theorem reserve_lanIpaddr : (s.reserve env y).lanIpaddr = s.lanIpaddr :=
  addLease_lanIpaddr _ _ _

/-- Going past an address leaves the table alone or reserves that address. -/
theorem pass_leases (env : Env) (checkExpired : Bool) (s : Server) (y : Addr) :
    (s.pass env checkExpired y).leases = s.leases ∨
    ((s.pass env checkExpired y).leases = (s.reserve env y).leases ∧ HostAddr y ∧
      (s.lanIpaddr = some y ∨
        (s.leaseTaken env checkExpired y = false ∧ env.arpping s.probes y = true))) := by
  unfold Server.pass
  by_cases hhost : HostAddr y
  · rw [if_neg (not_not.mpr hhost)]
    by_cases hlan : s.lanIpaddr = some y
    · rw [if_pos hlan]
      exact Or.inr ⟨rfl, hhost, Or.inl hlan⟩
    · rw [if_neg hlan]
      by_cases htaken : s.leaseTaken env checkExpired y = true
      · rw [if_pos htaken]
        exact Or.inl rfl
      · rw [if_neg htaken]
        by_cases hanswer : env.arpping s.probes y = true
        · rw [if_pos hanswer]
          have hsame : ({ s with probes := s.probes + 1 }.reserve env y).leases =
              (s.reserve env y).leases := by
            apply reserve_leases_congr
            · rfl
            · rfl
          exact Or.inr ⟨hsame, hhost, Or.inr ⟨Bool.eq_false_iff.mpr htaken, hanswer⟩⟩
        · rw [if_neg hanswer]
          exact Or.inl rfl
  · rw [if_pos hhost]
    exact Or.inl rfl

theorem pass_frame (env : Env) (checkExpired : Bool) (s : Server) (y : Addr) :
    (s.pass env checkExpired y).config = s.config ∧
      (s.pass env checkExpired y).lanIpaddr = s.lanIpaddr := by
  unfold Server.pass
  split_ifs <;> simp

/-- What only depends on the table and the configuration. -/
theorem leaseTaken_congr (hconfig : s'.config = s.config) (hleases : s'.leases = s.leases)
    (y : Addr) : s'.leaseTaken env checkExpired y = s.leaseTaken env checkExpired y := by
  unfold leaseTaken findLeaseByYiaddr leaseExpired
  rw [hconfig, hleases]

/-- Without a look at expired leases, an address is free if no slot has it. -/
theorem leaseTaken_false_iff :
    s.leaseTaken env false a = false ↔ ∀ i < s.config.maxLeases, (s.leases i).yiaddr ≠ a := by
  unfold leaseTaken
  cases hfind : s.findLeaseByYiaddr a with
  | none => exact iff_of_true rfl (findLeaseByYiaddr_none hfind)
  | some i =>
      obtain ⟨hi, ha⟩ := findLeaseByYiaddr_some hfind
      exact iff_of_false Bool.false_ne_true.symm fun hnone => hnone i hi ha

/-- With it, an address is taken if the lease in its first slot is running. -/
theorem leaseTaken_true_iff :
    s.leaseTaken env true a = true ↔
      ∃ i < s.config.maxLeases, (s.leases i).yiaddr = a ∧ env.sysTime ≤ (s.leases i).expires ∧
        ∀ k < i, (s.leases k).yiaddr ≠ a := by
  unfold leaseTaken
  cases hfind : s.findLeaseByYiaddr a with
  | none =>
      apply iff_of_false Bool.false_ne_true
      intro h
      obtain ⟨i, hi, ha, -⟩ := h
      exact findLeaseByYiaddr_none hfind i hi ha
  | some i =>
      obtain ⟨hi, ha, hfirst⟩ := findLeaseByYiaddr_eq_some_iff.mp hfind
      simp only [Bool.true_and, leaseExpired, Bool.not_eq_true', decide_eq_false_iff_not,
        Nat.not_lt]
      constructor
      · intro hrunning
        exact ⟨i, hi, ha, hrunning, hfirst⟩
      · intro h
        obtain ⟨j, hj, haj, hrunning, hfirstj⟩ := h
        have hij : i = j := by
          by_contra hne
          rcases Nat.lt_or_gt_of_ne hne with hlt | hlt
          · exact hfirstj i hlt ha
          · exact hfirst j hlt haj
        rw [hij]
        exact hrunning

/-- A slot keeps its contents or is given those of another address. -/
theorem reserve_slot (env : Env) (s : Server) (hy : y ≠ a) (ha : a ≠ 0#32) (k : Nat) :
    (s.reserve env y).leases k = s.leases k ∨ ((s.reserve env y).leases k).yiaddr ≠ a := by
  unfold reserve
  rcases addLease_slot blankChaddr y s.config.conflictTime k with hkept | hempty | ⟨-, haddr⟩
  · exact Or.inl hkept
  · right
    rw [hempty]
    exact ha.symm
  · right
    rw [haddr]
    exact hy

theorem reserve_running (hy : y ≠ a) (hzero : y ≠ 0#32) {i : Nat} (ha : (s.leases i).yiaddr = a)
    (hrunning : env.sysTime ≤ (s.leases i).expires) :
    (s.reserve env y).leases i = s.leases i := by
  have hno : clearMatches blankChaddr y (s.leases i) = false := by
    simp [clearMatches, ha, hy.symm]
  have hother : (s.addLease env blankChaddr y s.config.conflictTime).2 ≠ some i := by
    intro hsome
    obtain ⟨-, -, -, -, -, hwas⟩ := addLease_some _ _ _ hsome
    rcases hwas with hmatch | hexpired
    · rw [hno] at hmatch
      cases hmatch
    · omega
  rw [reserve, addLease_other _ _ _ hzero hother, if_neg]
  intro hcleared
  rw [hno] at hcleared
  cases hcleared.2

/-- A reservation of another address records no address that had no record. -/
theorem reserve_free (hy : y ≠ a) (ha : a ≠ 0#32) (h : s.leaseTaken env false a = false) :
    (s.reserve env y).leaseTaken env false a = false := by
  rw [leaseTaken_false_iff] at h ⊢
  rw [reserve_config]
  intro i hi
  rcases reserve_slot env s hy ha i with hkept | hne
  · rw [hkept]
    exact h i hi
  · exact hne

/-- It does not take the place of a running lease either. -/
theorem reserve_taken (hy : y ≠ a) (hzero : y ≠ 0#32) (ha : a ≠ 0#32)
    (h : s.leaseTaken env true a = true) : (s.reserve env y).leaseTaken env true a = true := by
  rw [leaseTaken_true_iff] at h ⊢
  obtain ⟨i, hi, hai, hrunning, hfirst⟩ := h
  have hkept : (s.reserve env y).leases i = s.leases i := reserve_running hy hzero hai hrunning
  refine ⟨i, ?_, ?_, ?_, fun k hk => ?_⟩
  · rw [reserve_config]
    exact hi
  · rw [hkept]
    exact hai
  · rw [hkept]
    exact hrunning
  · rcases reserve_slot env s hy ha k with hsame | hne
    · rw [hsame]
      exact hfirst k hk
    · exact hne

/-! ## The way through the pool -/

namespace Server

/-- The address of turn `k`. -/
def addrAt (s : Server) (k : Nat) : Addr := s.config.start + BitVec.ofNat 32 k

/-- The server at the start of turn `k`, should every turn before it have gone past its
address. -/
def reached (env : Env) (checkExpired : Bool) (s : Server) : Nat → Server
  | 0 => s
  | k + 1 => (s.reached env checkExpired k).pass env checkExpired (s.addrAt k)

/-- The server as the addresses below `a` leave it. -/
def before (env : Env) (checkExpired : Bool) (s : Server) (a : Addr) : Server :=
  s.reached env checkExpired (a.toNat - s.config.start.toNat)

end Server

theorem reached_frame (env : Env) (checkExpired : Bool) (s : Server) (k : Nat) :
    (s.reached env checkExpired k).config = s.config ∧
      (s.reached env checkExpired k).lanIpaddr = s.lanIpaddr := by
  induction k with
  | zero => exact ⟨rfl, rfl⟩
  | succ k ih =>
      obtain ⟨hconfig, hlan⟩ :=
        pass_frame env checkExpired (s.reached env checkExpired k) (s.addrAt k)
      rw [reached, hconfig, hlan]
      exact ih

theorem addrAt_succ (k : Nat) : s.addrAt (k + 1) = s.addrAt k + 1 := by
  rw [addrAt, addrAt, BitVec.ofNat_add, BitVec.add_assoc]
  rfl

theorem searchTurn_reached (k : Nat) :
    searchTurn env checkExpired (s.reached env checkExpired k, s.addrAt k) =
      if s.addrAt k ≤ s.config.end_ then
        if Accepts env checkExpired (s.reached env checkExpired k) (s.addrAt k) then
          .inr (s.reached env checkExpired (k + 1), s.addrAt k)
        else .inl (s.reached env checkExpired (k + 1), s.addrAt (k + 1))
      else .inr (s.reached env checkExpired k, 0#32) := by
  unfold searchTurn
  rw [(reached_frame env checkExpired s k).1]
  by_cases hle : s.addrAt k ≤ s.config.end_
  · rw [if_pos hle, if_pos hle, tryAddress_eq, addrAt_succ]
    by_cases hacc : Accepts env checkExpired (s.reached env checkExpired k) (s.addrAt k)
    · rw [if_pos hacc, decide_eq_true hacc]
      rfl
    · rw [if_neg hacc, decide_eq_false hacc]
      rfl
  · rw [if_neg hle, if_neg hle]

/-- Turn `k` goes past its address. -/
def GoesPast (env : Env) (checkExpired : Bool) (s : Server) (k : Nat) : Prop :=
  s.addrAt k ≤ s.config.end_ ∧
    ¬ Accepts env checkExpired (s.reached env checkExpired k) (s.addrAt k)

theorem follows_reached (env : Env) (checkExpired : Bool) (s : Server) :
    Follows (searchTurn env checkExpired)
      fun k => (s.reached env checkExpired k, s.addrAt k) := by
  intro k p h
  rw [searchTurn_reached] at h
  split_ifs at h
  exact Sum.inl.inj h

theorem goesPast_iff (k : Nat) :
    (∃ p, searchTurn env checkExpired (s.reached env checkExpired k, s.addrAt k) = .inl p) ↔
      GoesPast env checkExpired s k := by
  rw [searchTurn_reached, GoesPast]
  by_cases hle : s.addrAt k ≤ s.config.end_
  · rw [if_pos hle, and_iff_right hle]
    by_cases hacc : Accepts env checkExpired (s.reached env checkExpired k) (s.addrAt k)
    · simp [hacc]
    · simp [hacc]
  · simp [hle]

/-- The search ends with the first address it takes, or behind the pool. -/
theorem searches_iff :
    Searches env checkExpired s t a ↔
      ∃ k, (∀ j < k, GoesPast env checkExpired s j) ∧
        ((s.addrAt k ≤ s.config.end_ ∧
            Accepts env checkExpired (s.reached env checkExpired k) (s.addrAt k) ∧
            t = s.reached env checkExpired (k + 1) ∧ a = s.addrAt k) ∨
          (¬ s.addrAt k ≤ s.config.end_ ∧ t = s.reached env checkExpired k ∧ a = 0#32)) := by
  have hstart : (s, s.config.start) = (s.reached env checkExpired 0, s.addrAt 0) := by
    rw [addrAt, BitVec.add_zero]
    rfl
  rw [Searches, hstart, (follows_reached env checkExpired s).ends_iff]
  apply exists_congr
  intro k
  apply and_congr
  · exact forall₂_congr fun j _ => goesPast_iff j
  · rw [searchTurn_reached]
    by_cases hle : s.addrAt k ≤ s.config.end_
    · by_cases hacc : Accepts env checkExpired (s.reached env checkExpired k) (s.addrAt k)
      · simp [hle, hacc, @eq_comm _ t, @eq_comm _ a]
      · simp [hle, hacc]
    · simp [hle, @eq_comm _ t, @eq_comm _ a]

/-! ## Addresses and turns -/

/-- Up to the turn of `a`, the addresses of the turns go up from the start of the pool. -/
theorem toNat_addrAt (h : s.config.start ≤ a) {k : Nat}
    (hk : k ≤ a.toNat - s.config.start.toNat) :
    (s.addrAt k).toNat = s.config.start.toNat + k := by
  have hle : s.config.start.toNat ≤ a.toNat := h
  have hlt := a.isLt
  simp only [addrAt, BitVec.toNat_add, BitVec.toNat_ofNat]
  omega

theorem addrAt_turn (h : s.config.start ≤ a) :
    s.addrAt (a.toNat - s.config.start.toNat) = a := by
  have hle : s.config.start.toNat ≤ a.toNat := h
  apply BitVec.eq_of_toNat_eq
  rw [toNat_addrAt h (Nat.le_refl _)]
  omega

theorem before_addrAt {k : Nat} (h : (s.addrAt k).toNat = s.config.start.toNat + k) :
    s.before env checkExpired (s.addrAt k) = s.reached env checkExpired k := by
  rw [before, h, Nat.add_sub_cancel_left]

/-- An address of the pool is taken at its turn if it has no lease then and does not answer. -/
theorem accepts_before_iff (h : InPool s.config s.lanIpaddr a) :
    Accepts env checkExpired (s.before env checkExpired a) a ↔
      (s.before env checkExpired a).leaseTaken env checkExpired a = false ∧
        env.arpping (s.before env checkExpired a).probes a = false := by
  obtain ⟨-, -, hlan, hzero, hff⟩ := h
  have hframe : (s.before env checkExpired a).lanIpaddr = s.lanIpaddr :=
    (reached_frame env checkExpired s _).2
  rw [Accepts, hframe, and_iff_right ⟨hzero, hff⟩, and_iff_right hlan]

theorem Accepts.inPool {k : Nat}
    (h : Accepts env checkExpired (s.reached env checkExpired k) (s.addrAt k))
    (hpos : (s.addrAt k).toNat = s.config.start.toNat + k)
    (hle : s.addrAt k ≤ s.config.end_) : InPool s.config s.lanIpaddr (s.addrAt k) := by
  obtain ⟨⟨hzero, hff⟩, hlan, -⟩ := h
  rw [(reached_frame env checkExpired s k).2] at hlan
  refine ⟨?_, hle, hlan, hzero, hff⟩
  rw [BitVec.le_def, hpos]
  exact Nat.le_add_right _ _

end Xwr100.Udhcpd
