import Xwr100.Udhcpd.Calls
import Xwr100.Udhcpd.Exclusivity
import Mathlib.Data.Multiset.UnionInter

/-!
# The `LAN_FLOOD` chain and the lease table

`add_lease` puts a udp and a tcp rule for its address at the end of the chain and takes
out the copies an earlier call left.  Nothing takes out the rules of an address that
leaves the table: the rules `clear_lease` deletes name an output interface and are never
added.  So the chain holds the rules of every address ever recorded, and it agrees with
the table exactly as long as no address is lost.
-/

namespace Xwr100.Udhcpd

open Lib

variable {env : Env} {s s' : Server}

/-! ## The chain -/

/-- The chain after a command: `-A` appends a rule, `-D` takes out one with the identical
specification. -/
def applyCommand (chain : Multiset FloodRule) : Command → Multiset FloodRule
  | .deleteRule rule => chain.erase rule
  | .appendRule rule => rule ::ₘ chain
  | .addVizioDevice _ => chain
  | .addDevice _ _ => chain

def Server.floodChain (s : Server) : Multiset FloodRule := s.commands.foldl applyCommand 0

def Server.addresses (s : Server) : Set Addr :=
  { y | y ≠ 0#32 ∧ ∃ i < s.config.maxLeases, (s.leases i).yiaddr = y }

/-- Each nonzero address of the table has one udp and one tcp rule, and every rule is for
an address of the table. -/
structure FloodTracks (s : Server) : Prop where
  udp : ∀ i < s.config.maxLeases, (s.leases i).yiaddr ≠ 0#32 →
    s.floodChain.countP (fun r => r.source = (s.leases i).yiaddr ∧ r.flood = .udp) = 1
  tcp : ∀ i < s.config.maxLeases, (s.leases i).yiaddr ≠ 0#32 →
    s.floodChain.countP (fun r => r.source = (s.leases i).yiaddr ∧ r.flood ≠ .udp) = 1
  only : ∀ r ∈ s.floodChain, r.source ∈ s.addresses

/-- The chain holds the two rules of each address in `known`, as `add_lease` spells them,
once each, and no other rule. -/
structure ChainOf (chain : Multiset FloodRule) (known : Set Addr) : Prop where
  nodup : chain.Nodup
  mem_iff : ∀ r, r ∈ chain ↔ r.outVlan2 = false ∧ r.flood ≠ .tcpSyn ∧ r.source ∈ known

namespace ChainOf

variable {chain : Multiset FloodRule} {known : Set Addr}

theorem empty : ChainOf 0 ∅ := ⟨Multiset.nodup_zero, by simp⟩

/-- The six iptables calls of `add_lease` make `y` known. -/
theorem announce (h : ChainOf chain known) (y : Addr) (device : Command)
    (hdevice : ∀ chain', applyCommand chain' device = chain') :
    ChainOf
      ([.deleteRule ⟨true, y, .udp⟩, .deleteRule ⟨true, y, .tcpSyn⟩,
        .deleteRule ⟨false, y, .udp⟩, .deleteRule ⟨false, y, .tcpSynNot80⟩,
        .appendRule ⟨false, y, .udp⟩, .appendRule ⟨false, y, .tcpSynNot80⟩, device].foldl
          applyCommand chain) (insert y known) := by
  -- no rule with an output interface is in the chain, so the first two deletions miss
  have hmiss : ∀ flood, (⟨true, y, flood⟩ : FloodRule) ∉ chain := by
    intro flood hmem
    have hout := ((h.mem_iff _).mp hmem).1
    cases hout
  have hudp : (chain.erase ⟨false, y, .udp⟩).Nodup := h.nodup.erase _
  have htcp : ((chain.erase ⟨false, y, .udp⟩).erase ⟨false, y, .tcpSynNot80⟩).Nodup :=
    hudp.erase _
  simp only [List.foldl_cons, List.foldl_nil, hdevice]
  simp only [applyCommand, Multiset.erase_of_notMem (hmiss _)]
  constructor
  · simp [htcp, hudp.mem_erase_iff, h.nodup.mem_erase_iff]
  · intro r
    obtain ⟨out, source, flood⟩ := r
    simp only [Multiset.mem_cons, hudp.mem_erase_iff, h.nodup.mem_erase_iff, h.mem_iff,
      FloodRule.mk.injEq, Set.mem_insert_iff, ne_eq]
    cases out <;> cases flood <;> simp <;> tauto

theorem countP_eq_one (h : ChainOf chain known) {y : Addr} (hy : y ∈ known)
    (flood : FloodMatch) (hflood : flood ≠ .tcpSyn) (p : FloodMatch → Prop) [DecidablePred p]
    (hp : ∀ flood', flood' ≠ .tcpSyn → (p flood' ↔ flood' = flood)) :
    chain.countP (fun r => r.source = y ∧ p r.flood) = 1 := by
  have hone : chain.filter (fun r => r.source = y ∧ p r.flood) = {⟨false, y, flood⟩} := by
    rw [(h.nodup.filter _).ext (Multiset.nodup_singleton _)]
    intro r
    rw [Multiset.mem_filter, Multiset.mem_singleton, h.mem_iff]
    constructor
    · rintro ⟨⟨hout, htcp, -⟩, hsource, hkind⟩
      obtain ⟨out, source, flood'⟩ := r
      rw [FloodRule.mk.injEq]
      exact ⟨hout, hsource, (hp flood' htcp).mp hkind⟩
    · rintro rfl
      exact ⟨⟨rfl, hflood, hy⟩, rfl, (hp flood hflood).mpr rfl⟩
  rw [Multiset.countP_eq_card_filter, hone, Multiset.card_singleton]

/-- The chain agrees with the table if and only if the known addresses are the table's. -/
theorem floodTracks_iff (h : ChainOf s.floodChain known) :
    FloodTracks s ↔ s.addresses = known := by
  constructor
  · intro ht
    apply Set.Subset.antisymm
    · rintro y ⟨hy, i, hi, rfl⟩
      have hcount := ht.udp i hi hy
      obtain ⟨r, hr, hsource, -⟩ := Multiset.countP_pos.mp (hcount ▸ Nat.one_pos)
      rw [← hsource]
      exact ((h.mem_iff r).mp hr).2.2
    · intro y hy
      have hmem : (⟨false, y, .udp⟩ : FloodRule) ∈ s.floodChain :=
        (h.mem_iff _).mpr ⟨rfl, by simp, hy⟩
      exact ht.only _ hmem
  · rintro rfl
    constructor
    · intro i hi hy
      exact h.countP_eq_one ⟨hy, i, hi, rfl⟩ .udp (by decide) (· = .udp) fun _ _ => Iff.rfl
    · intro i hi hy
      refine h.countP_eq_one ⟨hy, i, hi, rfl⟩ .tcpSynNot80 (by decide) (· ≠ .udp) ?_
      intro flood hne
      cases flood <;> simp_all
    · intro r hr
      exact ((h.mem_iff r).mp hr).2.2

end ChainOf

/-! ## One `add_lease` -/

/-- The slot loses no address but `y` when it is overwritten. -/
def FreeFor (y : Addr) (slot : DhcpOfferedAddr) : Prop := slot.yiaddr = 0#32 ∨ slot.yiaddr = y

instance (y : Addr) (slot : DhcpOfferedAddr) : Decidable (FreeFor y slot) :=
  inferInstanceAs (Decidable (_ ∨ _))

/-- The expiry of a slot once `clear_lease` has run. -/
def clearedExpiry (chaddr : Chaddr) (y : Addr) (slot : DhcpOfferedAddr) : Nat :=
  if clearMatches chaddr y slot then 0 else slot.expires

/-- The call loses no address: the client has no record of another one, and an expired slot
without another address comes before all slots with one. -/
structure AddKeeps (env : Env) (s : Server) (chaddr : Chaddr) (y : Addr) : Prop where
  owner : ∀ k < s.config.maxLeases, clearMatches chaddr y (s.leases k) = true →
    FreeFor y (s.leases k)
  room : ∃ i < s.config.maxLeases, FreeFor y (s.leases i) ∧
    clearedExpiry chaddr y (s.leases i) < env.sysTime ∧
    ∀ j < s.config.maxLeases, ¬ FreeFor y (s.leases j) →
      clearedExpiry chaddr y (s.leases i) < (s.leases j).expires ∨
      (clearedExpiry chaddr y (s.leases i) = (s.leases j).expires ∧ i < j)

section AddLease

variable (chaddr : Chaddr) (y : Addr) (lease : Nat)

theorem ChainOf.addLease {known : Set Addr} (h : ChainOf s.floodChain known) (hy : y ≠ 0#32) :
    ChainOf (s.addLease env chaddr y lease).1.floodChain (insert y known) := by
  have hcommands : ∃ device, (∀ chain, applyCommand chain device = chain) ∧
      (s.addLease env chaddr y lease).1.commands = s.commands ++
        [.deleteRule ⟨true, y, .udp⟩, .deleteRule ⟨true, y, .tcpSyn⟩,
          .deleteRule ⟨false, y, .udp⟩, .deleteRule ⟨false, y, .tcpSynNot80⟩,
          .appendRule ⟨false, y, .udp⟩, .appendRule ⟨false, y, .tcpSynNot80⟩, device] := by
    refine ⟨if s.vizioDevice then .addVizioDevice y else .addDevice chaddr.mac y, ?_, ?_⟩
    · intro chain
      split <;> rfl
    · unfold Server.addLease
      simp only [hy, if_false]
      split <;> exact List.append_assoc s.commands _ _
  obtain ⟨device, hdevice, hlog⟩ := hcommands
  unfold Server.floodChain
  rw [hlog, List.foldl_append]
  exact h.announce y device hdevice

theorem clearLease_expires (k : Nat) (hk : k < s.config.maxLeases) :
    ((s.clearLease chaddr y).leases k).expires = clearedExpiry chaddr y (s.leases k) := by
  unfold Server.clearLease clearedExpiry
  by_cases hm : clearMatches chaddr y (s.leases k) = true <;> simp [hk, hm, emptySlot]

/-- What the call makes of the table's addresses: it may lose some, and adds `y` if it finds
a slot. -/
theorem addLease_addresses_subset (hy : y ≠ 0#32) :
    (s.addLease env chaddr y lease).1.addresses ⊆ insert y s.addresses := by
  rintro z ⟨hz, k, hk, rfl⟩
  rw [Server.addLease_config] at hk
  by_cases hr : (s.addLease env chaddr y lease).2 = some k
  · left
    exact (Server.addLease_some chaddr y lease hr).2.2.2.1
  · rcases Server.addLease_other_cases chaddr y lease hy hk hr with hempty | ⟨hkept, -⟩
    · rw [hempty] at hz
      exact absurd rfl hz
    · rw [hkept] at hz ⊢
      exact Or.inr ⟨hz, k, hk, rfl⟩

/-- The slot the call takes, if the call loses no address. -/
theorem AddKeeps.slot (h : AddKeeps env s chaddr y) (hy : y ≠ 0#32) :
    ∃ r < s.config.maxLeases, (s.addLease env chaddr y lease).2 = some r ∧
      FreeFor y (s.leases r) := by
  obtain ⟨i, hi, -, hexp, hfirst⟩ := h.room
  cases hold : (s.clearLease chaddr y).oldestExpiredLease env with
  | none =>
      have hle := Server.oldestExpiredLease_none hold i hi
      rw [clearLease_expires chaddr y i hi] at hle
      omega
  | some r =>
      obtain ⟨(hr : r < s.config.maxLeases), -, hmin⟩ := Server.oldestExpiredLease_first hold
      refine ⟨r, hr, by simp [Server.addLease, hy, hold], ?_⟩
      by_contra hnot
      have hunmatched : clearMatches chaddr y (s.leases r) ≠ true := by
        intro hm
        exact hnot (h.owner r hr hm)
      have hri := hmin i hi
      rw [clearLease_expires chaddr y r hr, clearLease_expires chaddr y i hi] at hri
      have hage : clearedExpiry chaddr y (s.leases r) = (s.leases r).expires := by
        simp [clearedExpiry, hunmatched]
      rcases hfirst r hr hnot with hlt | ⟨heq, hir⟩
      · omega
      · have hstrict := hri.2 hir
        omega

theorem AddKeeps.addresses (h : AddKeeps env s chaddr y) (hy : y ≠ 0#32) :
    (s.addLease env chaddr y lease).1.addresses = insert y s.addresses := by
  obtain ⟨r, hr, hres, hfree⟩ := h.slot chaddr y lease hy
  have hnew := (Server.addLease_some chaddr y lease hres).2.2.2.1
  apply Set.Subset.antisymm (addLease_addresses_subset chaddr y lease hy)
  intro z hz
  by_cases hzy : z = y
  · subst hzy
    exact ⟨hy, r, by simpa using hr, hnew⟩
  · obtain ⟨hz0, k, hk, rfl⟩ := hz.resolve_left hzy
    have hnotfree : ¬ FreeFor y (s.leases k) := fun hf => hf.elim hz0 hzy
    have hkr : (s.addLease env chaddr y lease).2 ≠ some k := by
      rw [hres]
      rintro ⟨⟩
      exact hnotfree hfree
    have hunmatched : clearMatches chaddr y (s.leases k) ≠ true := by
      intro hm
      exact hnotfree (h.owner k hk hm)
    refine ⟨hz0, k, by simpa using hk, ?_⟩
    rw [Server.addLease_other chaddr y lease hy hkr]
    simp [hunmatched]

/-- Exactly then: with each address in one slot, a call that keeps all of them and records
`y` is one that meets the condition. -/
theorem addLease_addresses_iff (hd : KeysDistinct addrKey s.config.maxLeases s.leases)
    (hy : y ≠ 0#32) :
    (s.addLease env chaddr y lease).1.addresses = insert y s.addresses ↔
      AddKeeps env s chaddr y := by
  refine ⟨fun heq => ?_, fun h => h.addresses chaddr y lease hy⟩
  -- a slot with another address is neither cleared nor overwritten
  have hkept : ∀ k < s.config.maxLeases, ¬ FreeFor y (s.leases k) →
      clearMatches chaddr y (s.leases k) ≠ true ∧
      (s.addLease env chaddr y lease).2 ≠ some k := by
    intro k hk hnot
    have hz0 : (s.leases k).yiaddr ≠ 0#32 := fun h0 => hnot (Or.inl h0)
    have hzy : (s.leases k).yiaddr ≠ y := fun h0 => hnot (Or.inr h0)
    have hmem : (s.leases k).yiaddr ∈ (s.addLease env chaddr y lease).1.addresses := by
      rw [heq]
      exact Or.inr ⟨hz0, k, hk, rfl⟩
    obtain ⟨-, j, hj, hjk⟩ := hmem
    rw [Server.addLease_config] at hj
    have hjr : (s.addLease env chaddr y lease).2 ≠ some j := by
      intro hres
      rw [(Server.addLease_some chaddr y lease hres).2.2.2.1] at hjk
      exact hzy hjk.symm
    rcases Server.addLease_other_cases chaddr y lease hy hj hjr with hempty | ⟨hsame, hno⟩
    · rw [hempty] at hjk
      exact absurd hjk.symm hz0
    · rw [hsame] at hjk
      have hjk' : j = k := hd j hj k hk _ (addrKey_eq_some.mpr ⟨hjk, hz0⟩)
        (addrKey_eq_some.mpr ⟨rfl, hz0⟩)
      rw [← hjk']
      exact ⟨by simp [hno], hjr⟩
  constructor
  · intro k hk hm
    by_contra hnot
    exact (hkept k hk hnot).1 hm
  · have hmem : y ∈ (s.addLease env chaddr y lease).1.addresses := by
      rw [heq]
      exact Set.mem_insert y _
    cases hold : (s.clearLease chaddr y).oldestExpiredLease env with
    | none =>
        have hres : (s.addLease env chaddr y lease).2 = none := by
          simp [Server.addLease, hy, hold]
        obtain ⟨-, j, hj, hjy⟩ := hmem
        rw [Server.addLease_config] at hj
        have hjr : (s.addLease env chaddr y lease).2 ≠ some j := by rw [hres]; simp
        rcases Server.addLease_other_cases chaddr y lease hy hj hjr with
          hempty | ⟨hsame, hno⟩
        · rw [hempty] at hjy
          exact absurd hjy.symm hy
        · rw [hsame] at hjy
          simp [clearMatches, hjy, hy] at hno
    | some r =>
        obtain ⟨(hr : r < s.config.maxLeases), hexp, hmin⟩ :=
          Server.oldestExpiredLease_first hold
        rw [clearLease_expires chaddr y r hr] at hexp
        have hres : (s.addLease env chaddr y lease).2 = some r := by
          simp [Server.addLease, hy, hold]
        refine ⟨r, hr, ?_, hexp, ?_⟩
        · by_contra hnot
          exact (hkept r hr hnot).2 hres
        · intro j hj hnot
          have hrj := hmin j hj
          have hage : clearedExpiry chaddr y (s.leases j) = (s.leases j).expires := by
            simp [clearedExpiry, (hkept j hj hnot).1]
          rw [clearLease_expires chaddr y r hr, clearLease_expires chaddr y j hj, hage] at hrj
          have hne : j ≠ r := by
            rintro rfl
            exact (hkept j hj hnot).2 hres
          omega

end AddLease

/-! ## A reload -/

/-- The records a load goes through: it ends at a record of 0.0.0.0, which `add_lease`
refuses. -/
def listed (records : List DhcpOfferedAddr) : List DhcpOfferedAddr :=
  records.takeWhile fun record => record.yiaddr ≠ 0#32

def listedAddresses (records : List DhcpOfferedAddr) : Set Addr :=
  { y | ∃ record ∈ listed records, record.yiaddr = y }

/-- Every record a load adds is added without losing an address. -/
def LoadsKeep (env : Env) : List DhcpOfferedAddr → Server → Prop
  | [], _ => True
  | record :: rest, s =>
      record.yiaddr = 0#32 ∨
        (AddKeeps env s record.chaddr record.yiaddr ∧ LoadsKeep env rest (s.loadLease env record).1)

/-- The reload loses no address: the file lists every recorded one, the records are loaded
without loss, and none of them is moved to another network. -/
structure ReloadKeeps (env : Env) (s : Server) (config : ServerConfig)
    (lanIpaddr : Option Addr) (lanNetmask : Addr) (file : List DhcpOfferedAddr) : Prop where
  listed : ∀ i < s.config.maxLeases, (s.leases i).yiaddr ≠ 0#32 →
    ∃ record ∈ listed (file.take config.maxLeases), record.yiaddr = (s.leases i).yiaddr
  loads : LoadsKeep env (file.take config.maxLeases) (s.emptied config lanIpaddr lanNetmask)
  unmoved : ∀ record ∈ Udhcpd.listed (file.take config.maxLeases),
    newYiaddr config.server lanNetmask record.yiaddr = record.yiaddr

theorem setSlot_addresses {i : Nat} {slot : DhcpOfferedAddr}
    (hslot : slot.yiaddr = (s.leases i).yiaddr) : (s.setSlot i slot).addresses = s.addresses := by
  have haddr : ∀ k, ((s.setSlot i slot).leases k).yiaddr = (s.leases k).yiaddr := by
    intro k
    unfold Server.setSlot
    by_cases hk : k = i
    · subst hk
      simp [hslot]
    · simp [Function.update_of_ne hk]
  unfold Server.addresses
  simp only [haddr]
  rfl

/-- Loading one record: the rules and the address of an `add_lease`. -/
theorem loadLease_keeps {record : DhcpOfferedAddr} {known : Set Addr}
    (hchain : ChainOf s.floodChain known) (hy : record.yiaddr ≠ 0#32)
    (h : AddKeeps env s record.chaddr record.yiaddr) :
    ChainOf (s.loadLease env record).1.floodChain (insert record.yiaddr known) ∧
    (s.loadLease env record).1.addresses = insert record.yiaddr s.addresses ∧
    (s.loadLease env record).2 = true := by
  unfold Server.loadLease
  dsimp only
  generalize (if s.config.remaining = true then record.expires
    else (record.expires + UInt32.size - env.sysTime % UInt32.size) % UInt32.size) = lease
  obtain ⟨r, -, hres, -⟩ := h.slot record.chaddr record.yiaddr lease hy
  rw [hres]
  dsimp only
  refine ⟨hchain.addLease record.chaddr record.yiaddr lease hy, ?_, rfl⟩
  rw [← h.addresses record.chaddr record.yiaddr lease hy]
  apply setSlot_addresses
  rfl

@[simp] theorem listedAddresses_nil : listedAddresses [] = ∅ := by
  ext y
  simp [listedAddresses, listed]

theorem listedAddresses_zero {record : DhcpOfferedAddr} (rest : List DhcpOfferedAddr)
    (hy : record.yiaddr = 0#32) : listedAddresses (record :: rest) = ∅ := by
  ext y
  simp [listedAddresses, listed, hy]

theorem listedAddresses_cons {record : DhcpOfferedAddr} (rest : List DhcpOfferedAddr)
    (hy : record.yiaddr ≠ 0#32) :
    listedAddresses (record :: rest) = insert record.yiaddr (listedAddresses rest) := by
  ext y
  have hcons : listed (record :: rest) = record :: listed rest := by simp [listed, hy]
  simp [listedAddresses, hcons, @eq_comm _ y]

/-- A load keeps what is known and recorded, and adds every address it goes through. -/
theorem readLeasesLoop_keeps {records : List DhcpOfferedAddr} {known : Set Addr}
    (hchain : ChainOf s.floodChain known) (h : LoadsKeep env records s) :
    ChainOf (Server.readLeasesLoop env records s).floodChain (known ∪ listedAddresses records) ∧
    (Server.readLeasesLoop env records s).addresses =
      s.addresses ∪ listedAddresses records := by
  induction records generalizing s known with
  | nil => simpa [Server.readLeasesLoop] using hchain
  | cons record rest ih =>
      by_cases hy : record.yiaddr = 0#32
      · have hstop : Server.readLeasesLoop env (record :: rest) s = s := by
          simp [Server.readLeasesLoop, Server.loadLease, hy, Server.addLease_zero]
        rw [hstop, listedAddresses_zero rest hy, Set.union_empty, Set.union_empty]
        exact ⟨hchain, rfl⟩
      · obtain ⟨hadd, hrest⟩ := h.resolve_left hy
        obtain ⟨hchain', haddr, hok⟩ := loadLease_keeps hchain hy hadd
        obtain ⟨hchain'', haddr'⟩ := ih hchain' hrest
        rw [haddr, Set.insert_union, ← Set.union_insert] at haddr'
        rw [Set.insert_union, ← Set.union_insert] at hchain''
        rw [listedAddresses_cons rest hy]
        simp only [Server.readLeasesLoop, hok, if_true]
        exact ⟨hchain'', haddr'⟩

/-- The move into the new network leaves a table alone whose addresses are in it. -/
theorem updateLeaseByNewIp_eq
    (h : ∀ y ∈ s.addresses, newYiaddr s.config.server s.lanNetmask y = y) :
    s.updateLeaseByNewIp = s := by
  have hleases : s.updateLeaseByNewIp.leases = s.leases := by
    funext i
    unfold Server.updateLeaseByNewIp
    dsimp only
    split
    · rename_i hi
      rw [← newYiaddr, h _ ⟨hi.2, i, hi.1, rfl⟩]
    · rfl
  calc
    s.updateLeaseByNewIp = { s with leases := s.updateLeaseByNewIp.leases } := rfl
    _ = s := by rw [hleases]

theorem ReloadKeeps.tracks {config : ServerConfig} {lanIpaddr : Option Addr} {lanNetmask : Addr}
    {file : List DhcpOfferedAddr} (h : ReloadKeeps env s config lanIpaddr lanNetmask file)
    (hchain : ChainOf s.floodChain s.addresses) :
    ChainOf (s.reload env config lanIpaddr lanNetmask file).floodChain
      (s.reload env config lanIpaddr lanNetmask file).addresses := by
  have hempty : (s.emptied config lanIpaddr lanNetmask).addresses = ∅ := by
    apply Set.eq_empty_of_forall_notMem
    rintro y ⟨hy, i, (hi : i < config.maxLeases), rfl⟩
    rw [Server.emptied_leases hi] at hy
    exact hy rfl
  have hchain₀ : ChainOf (s.emptied config lanIpaddr lanNetmask).floodChain s.addresses := hchain
  obtain ⟨hchain', haddr⟩ := readLeasesLoop_keeps hchain₀ h.loads
  rw [hempty, Set.empty_union] at haddr
  change ((s.emptied config lanIpaddr lanNetmask).readLeases env file).addresses = _ at haddr
  have hold : s.addresses ⊆ listedAddresses (file.take config.maxLeases) := by
    rintro y ⟨hy, i, hi, rfl⟩
    exact h.listed i hi hy
  have hstay : s.reload env config lanIpaddr lanNetmask file =
      (s.emptied config lanIpaddr lanNetmask).readLeases env file := by
    rw [Server.reload, ← Server.emptied]
    apply updateLeaseByNewIp_eq
    intro y hy
    rw [haddr] at hy
    obtain ⟨record, hmem, rfl⟩ := hy
    rw [Server.readLeases_config, Server.readLeases_lanNetmask]
    exact h.unmoved record hmem
  rw [hstay, haddr]
  rwa [Set.union_eq_self_of_subset_left hold] at hchain'

/-! ## Runs -/

/-- The call loses no address of the table. -/
def Call.Keeps (s : Server) : Call → Prop
  | .addLease env chaddr yiaddr _ => yiaddr = 0#32 ∨ AddKeeps env s chaddr yiaddr
  | .write _ _ _ _ => True
  | .reload env config lanIpaddr lanNetmask file =>
      ReloadKeeps env s config lanIpaddr lanNetmask file
  | .note _ _ _ _ => True

def ChainAgrees (s : Server) : Prop := ChainOf s.floodChain s.addresses

theorem ChainAgrees.floodTracks (h : ChainAgrees s) : FloodTracks s :=
  (ChainOf.floodTracks_iff h).mpr rfl

/-- A call that loses no address keeps the chain that of the table. -/
theorem perform_keeps (s : Server) (c : Call) (hchain : ChainAgrees s) (h : c.Keeps s) :
    ChainAgrees (perform s c) := by
  unfold ChainAgrees at hchain ⊢
  cases c with
  | addLease env chaddr y lease =>
      rcases h with rfl | hkeeps
      · rw [perform, Server.addLease_zero]
        exact hchain
      · by_cases hy : y = 0#32
        · subst hy
          rw [perform, Server.addLease_zero]
          exact hchain
        · rw [perform, hkeeps.addresses chaddr y lease hy]
          exact hchain.addLease chaddr y lease hy
  | write i chaddr expires hostname =>
      have hsame : (perform s (.write i chaddr expires hostname)).addresses = s.addresses :=
        setSlot_addresses rfl
      rw [hsame]
      exact hchain
  | reload env config lanIpaddr lanNetmask file => exact ReloadKeeps.tracks h hchain
  | note vizioDevice probes replies hung => exact hchain

theorem ChainAgrees.init (config : ServerConfig) (lanIpaddr : Option Addr) (lanNetmask : Addr) :
    ChainAgrees (Server.init config lanIpaddr lanNetmask) := by
  have hnone : (Server.init config lanIpaddr lanNetmask).addresses = ∅ := by
    apply Set.eq_empty_of_forall_notMem
    rintro y ⟨hy, i, -, rfl⟩
    exact hy rfl
  unfold ChainAgrees
  rw [hnone]
  exact ChainOf.empty

/-- The calls the server makes lead to the server every run comes to; as long as none of them loses
an address of the table, the chain agrees with the table after each. -/
theorem run_floodTracks (env : Env) (config : ServerConfig) (lanIpaddr : Option Addr)
    (lanNetmask : Addr) (file : List DhcpOfferedAddr) (events : List Event) :
    exec perform (Server.init config lanIpaddr lanNetmask)
        (runCalls env config lanIpaddr lanNetmask file events) =
      exec step (Server.boot env config lanIpaddr lanNetmask file) events ∧
    (Along perform (fun s c => c.Keeps s) (Server.init config lanIpaddr lanNetmask)
        (runCalls env config lanIpaddr lanNetmask file events) →
      Along perform (fun s c => FloodTracks (perform s c))
        (Server.init config lanIpaddr lanNetmask)
        (runCalls env config lanIpaddr lanNetmask file events) ∧
      FloodTracks (exec step (Server.boot env config lanIpaddr lanNetmask file) events)) := by
  have hrun := run_makes env config lanIpaddr lanNetmask file events
  have hinit := ChainAgrees.init config lanIpaddr lanNetmask
  refine ⟨hrun, fun hkeeps => ⟨?_, ?_⟩⟩
  · refine hkeeps.observe (fun s c hchain hc => ?_) hinit
    have hchain' := perform_keeps s c hchain hc
    exact ⟨hchain', hchain'.floodTracks⟩
  · rw [← hrun]
    exact (hkeeps.invariant perform_keeps hinit).floodTracks

/-- The LAN moves from 192.168.1.0 to 10.0.0.0 while a client holds 192.168.1.10: the record
moves along, the rules stay. -/
theorem reload_leaves_rules :
    ¬ FloodTracks (exec step
      (Server.boot calm wideConfig (some 0xc0a80101#32) 0xffffff00#32 [])
      [.packet calm (reboot 0x020000000001#48 10),
        .reload calm { wideConfig with server := 0x0a000001#32 } (some 0x0a000001#32) 0xffffff00#32
          [⟨⟨0x020000000001#48, 0#80⟩, 0xc0a8010a#32, 3600, []⟩]]) := by
  intro h
  exact absurd (h.udp 0 (by decide) (by decide)) (by decide)

set_option maxRecDepth 8000 in
/-- A client without a record is granted 192.168.1.10: `add_lease` runs for the offer time,
then, with the acknowledgement sent, for the lease. -/
theorem run_floodTracks_grant :
    FloodTracks (exec step
      (Server.boot calm wideConfig (some 0xc0a80101#32) 0xffffff00#32 [])
      [.packet calm (reboot 0x020000000001#48 10)]) := by
  have hcalls : runCalls calm wideConfig (some 0xc0a80101#32) 0xffffff00#32 []
      [.packet calm (reboot 0x020000000001#48 10)] =
      [.note false 0 [] false, .note false 0 [] false, .note false 0 [] false,
        .note false 0 [] false, .note false 0 [] false,
        .addLease calm ⟨0x020000000001#48, 0#80⟩ 0xc0a8010a#32 60, .note false 0 [] false,
        .note false 0 [⟨.ack, ⟨0x020000000001#48, 0#80⟩, 0xc0a8010a#32, some 86400, true⟩] false,
        .addLease calm ⟨0x020000000001#48, 0#80⟩ 0xc0a8010a#32 86400,
        .write 0 ⟨0x020000000001#48, 0#80⟩ 90000 []] := rfl
  refine ((run_floodTracks calm wideConfig (some 0xc0a80101#32) 0xffffff00#32 []
    [.packet calm (reboot 0x020000000001#48 10)]).2 ?_).2
  rw [hcalls]
  exact ⟨trivial, trivial, trivial, trivial, trivial, Or.inr ⟨by decide, 0, by decide⟩, trivial,
    trivial, Or.inr ⟨by decide, 0, by decide⟩, trivial, trivial⟩

end Xwr100.Udhcpd
