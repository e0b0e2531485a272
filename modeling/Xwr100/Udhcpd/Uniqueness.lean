import Xwr100.Udhcpd.Dispatch

/-!
# The lease table holds no address and no client twice

Packets keep the keys of the table distinct as long as clients have six nonzero bytes.
The lease file and the move to a new LAN network are the other ways into the table:
the file is loaded through `add_lease`, which compares sixteen bytes where the table is
searched by six, and the move rewrites addresses without looking for collisions.
-/

namespace Xwr100.Udhcpd

open Lib Relation

variable {env : Env} {s : Server}

/-! ## Loading the lease file -/

def FileOk (file : List DhcpOfferedAddr) : Prop :=
  ∀ r ∈ file, ∀ r' ∈ file, r.chaddr ≠ blankChaddr → r'.chaddr ≠ blankChaddr →
    r.chaddr.mac = r'.chaddr.mac → r.chaddr = r'.chaddr

instance (file : List DhcpOfferedAddr) : Decidable (FileOk file) :=
  inferInstanceAs (Decidable (∀ r ∈ file, ∀ r' ∈ file, _))

/-- While the file is loaded every slot is empty or holds one of its records. -/
structure Loaded (file : List DhcpOfferedAddr) (s : Server) : Prop where
  tableOk : TableOk s
  slots : ∀ i < s.config.maxLeases,
    ((s.leases i).chaddr = blankChaddr ∧ (s.leases i).yiaddr = 0#32) ∨
    ∃ r ∈ file, (s.leases i).chaddr = r.chaddr ∧ (s.leases i).yiaddr = r.yiaddr

theorem Loaded.addLease {file : List DhcpOfferedAddr} (h : Loaded file s) (hfile : FileOk file)
    {r : DhcpOfferedAddr} (hr : r ∈ file) (lease : Nat) :
    Loaded file (s.addLease env r.chaddr r.yiaddr lease).1 := by
  constructor
  · refine h.tableOk.addLease _ _ _ fun k hk hkey hblank => ?_
    obtain ⟨hkb, hkm⟩ := macKey_eq_some.mp hkey
    rcases h.slots k hk with ⟨hkblank, -⟩ | ⟨r', hr', hc, -⟩
    · exact absurd hkblank hkb
    · have heq : r'.chaddr = r.chaddr :=
        hfile r' hr' r hr (by rw [← hc]; exact hkb) hblank (by rw [← hc]; exact hkm)
      simp [clearMatches, hblank, hc, heq]
  · intro i hi
    rw [Server.addLease_config] at hi
    rcases Server.addLease_slot r.chaddr r.yiaddr lease i with hkept | hempty | ⟨hc, ha⟩
    · rw [hkept]
      exact h.slots i hi
    · rw [hempty]
      exact Or.inl ⟨rfl, rfl⟩
    · exact Or.inr ⟨r, hr, hc, ha⟩

theorem Loaded.setHostname {file : List DhcpOfferedAddr} (h : Loaded file s) (i : Nat)
    (name : List UInt8) : Loaded file (s.setSlot i { s.leases i with hostname := name }) := by
  constructor
  · exact h.tableOk.setSlot rfl (Or.inr rfl)
  · intro k hk
    by_cases hki : k = i
    · subst hki
      simpa [Server.setSlot] using h.slots k hk
    · simpa [Server.setSlot, Function.update_of_ne hki] using h.slots k hk

theorem Server.loadLease_loaded {file : List DhcpOfferedAddr} (h : Loaded file s)
    (hfile : FileOk file) {r : DhcpOfferedAddr} (hr : r ∈ file) :
    Loaded file (s.loadLease env r).1 := by
  unfold Server.loadLease
  dsimp only
  split
  · exact (h.addLease hfile hr _).setHostname _ _
  · exact h.addLease hfile hr _

theorem Server.readLeasesLoop_loaded {file : List DhcpOfferedAddr} (hfile : FileOk file)
    (records : List DhcpOfferedAddr) (hsub : ∀ r ∈ records, r ∈ file) (s : Server)
    (h : Loaded file s) : Loaded file (Server.readLeasesLoop env records s) := by
  induction records generalizing s with
  | nil => exact h
  | cons r rest ih =>
      have hload : Loaded file (s.loadLease env r).1 :=
        Server.loadLease_loaded h hfile (hsub r (by simp))
      unfold Server.readLeasesLoop
      dsimp only
      split
      · exact ih (fun r' hr' => hsub r' (by simp [hr'])) _ hload
      · exact hload

/-- A table of empty slots, and after it whatever the file holds. -/
theorem Server.readLeases_loaded {file : List DhcpOfferedAddr} (hfile : FileOk file)
    (hempty : ∀ i < s.config.maxLeases, s.leases i = emptySlot) :
    Loaded file (s.readLeases env file) := by
  refine Server.readLeasesLoop_loaded hfile _ (fun r hr => List.mem_of_mem_take hr) s ?_
  constructor
  · constructor
    · exact KeysDistinct.of_none fun i hi => by rw [hempty i hi]; rfl
    · exact KeysDistinct.of_none fun i hi => by rw [hempty i hi]; rfl
    · intro i hi hb
      rw [hempty i hi] at hb
      exact absurd rfl hb
  · intro i hi
    rw [hempty i hi]
    exact Or.inl ⟨rfl, rfl⟩

private theorem Server.readLeasesLoop_frame (records : List DhcpOfferedAddr) (s : Server) :
    (Server.readLeasesLoop env records s).config = s.config ∧
    (Server.readLeasesLoop env records s).lanIpaddr = s.lanIpaddr ∧
    (Server.readLeasesLoop env records s).lanNetmask = s.lanNetmask := by
  induction records generalizing s with
  | nil => exact ⟨rfl, rfl, rfl⟩
  | cons r rest ih =>
      have hload : (s.loadLease env r).1.config = s.config ∧
          (s.loadLease env r).1.lanIpaddr = s.lanIpaddr ∧
          (s.loadLease env r).1.lanNetmask = s.lanNetmask := by
        unfold Server.loadLease
        dsimp only
        split <;> simp [Server.setSlot]
      unfold Server.readLeasesLoop
      dsimp only
      split
      · obtain ⟨hc, hl, hm⟩ := ih (s.loadLease env r).1
        rw [hc, hl, hm]
        exact hload
      · exact hload

@[simp] theorem Server.readLeases_config (file : List DhcpOfferedAddr) :
    (s.readLeases env file).config = s.config :=
  (Server.readLeasesLoop_frame _ s).1

@[simp] theorem Server.readLeases_lanIpaddr (file : List DhcpOfferedAddr) :
    (s.readLeases env file).lanIpaddr = s.lanIpaddr :=
  (Server.readLeasesLoop_frame _ s).2.1

@[simp] theorem Server.readLeases_lanNetmask (file : List DhcpOfferedAddr) :
    (s.readLeases env file).lanNetmask = s.lanNetmask :=
  (Server.readLeasesLoop_frame _ s).2.2

/-! ## Moving to a new network -/

/-- What `update_lease_by_new_ip` makes of an address. -/
def newYiaddr (server mask y : Addr) : Addr := (server &&& mask) ||| (y &&& ~~~ mask)

/-- The move tells the file's addresses apart and makes none of them zero. -/
def MoveOk (server mask : Addr) (file : List DhcpOfferedAddr) : Prop :=
  ∀ r ∈ file, r.yiaddr ≠ 0#32 → newYiaddr server mask r.yiaddr ≠ 0#32 ∧
    ∀ r' ∈ file, r'.yiaddr ≠ 0#32 →
      newYiaddr server mask r.yiaddr = newYiaddr server mask r'.yiaddr → r.yiaddr = r'.yiaddr

instance (server mask : Addr) (file : List DhcpOfferedAddr) :
    Decidable (MoveOk server mask file) :=
  inferInstanceAs (Decidable (∀ r ∈ file, _ → _))

theorem Server.updateLeaseByNewIp_yiaddr {i : Nat} (hi : i < s.config.maxLeases) :
    (s.updateLeaseByNewIp.leases i).yiaddr =
      if (s.leases i).yiaddr = 0#32 then 0#32
      else newYiaddr s.config.server s.lanNetmask (s.leases i).yiaddr := by
  by_cases hz : (s.leases i).yiaddr = 0#32
  · simp [Server.updateLeaseByNewIp, hz]
  · simp [Server.updateLeaseByNewIp, hi, hz, newYiaddr]

theorem Server.updateLeaseByNewIp_chaddr (i : Nat) :
    (s.updateLeaseByNewIp.leases i).chaddr = (s.leases i).chaddr := by
  unfold Server.updateLeaseByNewIp
  dsimp only
  split <;> rfl

theorem Loaded.updateLeaseByNewIp {file : List DhcpOfferedAddr} (h : Loaded file s)
    (hmove : MoveOk s.config.server s.lanNetmask file) : TableOk s.updateLeaseByNewIp := by
  have hslot : ∀ i < s.config.maxLeases, ∀ a, addrKey (s.leases i) = some a →
      a ≠ 0#32 ∧ ∃ r ∈ file, r.yiaddr = a := by
    intro i hi a ha
    obtain ⟨hy, hne⟩ := addrKey_eq_some.mp ha
    refine ⟨hne, ?_⟩
    rcases h.slots i hi with ⟨-, hz⟩ | ⟨r, hr, -, hry⟩
    · exact absurd (hy.symm.trans hz) hne
    · exact ⟨r, hr, hry.symm.trans hy⟩
  constructor
  · refine h.tableOk.addr.rename (f := newYiaddr s.config.server s.lanNetmask) ?_ ?_
    · intro i hi
      have hnew := Server.updateLeaseByNewIp_yiaddr (s := s) hi
      cases hkey : addrKey (s.leases i) with
      | none =>
          have hz : (s.leases i).yiaddr = 0#32 := by
            by_contra hne
            rw [addrKey_eq_some.mpr ⟨rfl, hne⟩] at hkey
            cases hkey
          simp [addrKey, hnew, hz]
      | some a =>
          obtain ⟨hne, r, hr, hra⟩ := hslot i hi a hkey
          obtain ⟨hy, -⟩ := addrKey_eq_some.mp hkey
          subst hra
          rw [hy, if_neg hne] at hnew
          exact addrKey_eq_some.mpr ⟨hnew, (hmove r hr hne).1⟩
    · intro i hi j hj a b ha hb heq
      obtain ⟨hane, r, hr, rfl⟩ := hslot i hi a ha
      obtain ⟨hbne, r', hr', rfl⟩ := hslot j hj b hb
      exact (hmove r hr hane).2 r' hr' hbne heq
  · refine h.tableOk.mac.drop fun i _ => Or.inr ?_
    simp [macKey, Server.updateLeaseByNewIp_chaddr]
  · intro i hi hb
    rw [Server.updateLeaseByNewIp_chaddr] at hb
    have hne := h.tableOk.used i hi hb
    obtain ⟨-, r, hr, hry⟩ := hslot i hi _ (addrKey_eq_some.mpr ⟨rfl, hne⟩)
    rw [Server.updateLeaseByNewIp_yiaddr (s := s) hi, if_neg hne, ← hry]
    rw [← hry] at hne
    exact (hmove r hr hne).1

/-! ## Runs -/

/-- No two slots have the same nonzero address. -/
def AddrsDistinct (s : Server) : Prop :=
  ∀ i < s.config.maxLeases, ∀ j < s.config.maxLeases,
    (s.leases i).yiaddr = (s.leases j).yiaddr → (s.leases i).yiaddr ≠ 0#32 → i = j

/-- No two nonblank slots agree on the six bytes clients are found by. -/
def ClientsDistinct (s : Server) : Prop :=
  ∀ i < s.config.maxLeases, ∀ j < s.config.maxLeases,
    (s.leases i).chaddr ≠ blankChaddr → (s.leases j).chaddr ≠ blankChaddr →
    (s.leases i).chaddr.mac = (s.leases j).chaddr.mac → i = j

instance (s : Server) : Decidable (AddrsDistinct s) :=
  inferInstanceAs (Decidable (∀ i < s.config.maxLeases, _))

theorem TableOk.distinct (h : TableOk s) : AddrsDistinct s ∧ ClientsDistinct s := by
  refine ⟨fun i hi j hj heq hne => h.yiaddr_inj hi hj heq hne, ?_⟩
  intro i hi j hj hbi hbj heq
  exact h.mac i hi j hj _ (macKey_eq_some.mpr ⟨hbi, rfl⟩) (macKey_eq_some.mpr ⟨hbj, heq.symm⟩)

def KeepsKeys (_ : Server) : Event → Prop
  | .packet _ m => m.chaddr.mac ≠ 0#48
  | .writeLeases => True
  | .reload _ config _ mask file => FileOk file ∧ MoveOk config.server mask file

theorem boot_tableOk (env : Env) (config : ServerConfig) (lanIpaddr : Option Addr)
    (lanNetmask : Addr) {file : List DhcpOfferedAddr} (hfile : FileOk file) :
    TableOk (Server.boot env config lanIpaddr lanNetmask file) :=
  (Server.readLeases_loaded hfile fun _ _ => rfl).tableOk

theorem step_tableOk (s : Server) (e : Event) (hok : TableOk s) (he : KeepsKeys s e) :
    TableOk (step s e) := by
  have hidle : TableOk { s with probes := 0, replies := [] } := hok.of_eq rfl rfl
  unfold step
  dsimp only
  split
  · exact hidle
  · cases e with
    | packet env m => exact (Server.dispatch_acts hidle he).tableOk he hidle
    | writeLeases => exact hidle
    | reload env config lanIpaddr lanNetmask file =>
        obtain ⟨hfile, hmove⟩ := he
        dsimp only
        unfold Server.reload
        dsimp only
        refine Loaded.updateLeaseByNewIp (Server.readLeases_loaded hfile ?_) ?_
        · intro i hi
          simp only at hi
          simp [hi]
        · rw [Server.readLeases_config, Server.readLeases_lanNetmask]
          exact hmove

/-- Along every run whose lease files and moves keep addresses and clients apart and whose
clients have six nonzero bytes, no address and no client is in the table twice. -/
theorem run_distinct (env : Env) (config : ServerConfig) (lanIpaddr : Option Addr)
    (lanNetmask : Addr) (file : List DhcpOfferedAddr) (events : List Event)
    (hfile : FileOk file)
    (h : Along step KeepsKeys (Server.boot env config lanIpaddr lanNetmask file) events) :
    AddrsDistinct (exec step (Server.boot env config lanIpaddr lanNetmask file) events) ∧
    ClientsDistinct (exec step (Server.boot env config lanIpaddr lanNetmask file) events) :=
  (h.invariant step_tableOk (boot_tableOk env config lanIpaddr lanNetmask hfile)).distinct

/-- A pool that spans two class C networks: five slots, leases of a day, records kept as
remaining times. -/
def wideConfig : ServerConfig where
  server := 0xc0a80101#32
  start := 0xc0a80102#32
  end_ := 0xc0a802fe#32
  lease := 86400
  maxLeases := 5
  remaining := true
  declineTime := 3600
  conflictTime := 3600
  offerTime := 60
  minLease := 60

def calm : Env where
  sysTime := 3600
  sysTime_pos := by decide
  arpping := fun _ _ => false
  sendOk := fun _ => true
  fuel := 8

/-- Two clients with addresses that differ in the network part only. -/
def twoNetworks : List DhcpOfferedAddr :=
  [⟨⟨0x020000000001#48, 0#80⟩, 0xc0a80105#32, 600, []⟩,
    ⟨⟨0x020000000002#48, 0#80⟩, 0xc0a80205#32, 600, []⟩]

/-- Reloading with the mask 255.255.255.0 moves 192.168.1.5 and 192.168.2.5 to one address. -/
theorem reload_collides :
    ¬ AddrsDistinct (exec step (Server.boot calm wideConfig (some 0xc0a80101#32)
      0xffff0000#32 twoNetworks)
      [.writeLeases,
        .reload calm wideConfig (some 0xc0a80101#32) 0xffffff00#32 twoNetworks]) := by
  decide

/-- The run with the old mask kept, and a client's DISCOVER after it. -/
theorem run_distinct_two_networks :
    AddrsDistinct (exec step (Server.boot calm wideConfig (some 0xc0a80101#32)
      0xffff0000#32 twoNetworks)
      [.writeLeases, .reload calm wideConfig (some 0xc0a80101#32) 0xffff0000#32 twoNetworks,
        .packet calm (DhcpMessage.ofOptions 0x020000000003#48 0#32 [0x35, 1, 1, 0xff])]) ∧
    ClientsDistinct (exec step (Server.boot calm wideConfig (some 0xc0a80101#32)
      0xffff0000#32 twoNetworks)
      [.writeLeases, .reload calm wideConfig (some 0xc0a80101#32) 0xffff0000#32 twoNetworks,
        .packet calm (DhcpMessage.ofOptions 0x020000000003#48 0#32 [0x35, 1, 1, 0xff])]) := by
  refine run_distinct calm wideConfig (some 0xc0a80101#32) 0xffff0000#32 twoNetworks _
    (by decide) ?_
  refine ⟨trivial, ⟨by decide, by decide⟩, ?_, trivial⟩
  exact (by decide : (DhcpMessage.ofOptions 0x020000000003#48 0#32
    [0x35, 1, 1, 0xff]).chaddr.mac ≠ 0#48)

end Xwr100.Udhcpd
