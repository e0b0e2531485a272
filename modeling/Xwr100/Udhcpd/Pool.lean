import Xwr100.Udhcpd.Uniqueness

/-!
# Addresses stay in the pool

`find_address` checks the range, the last byte and the router's own address; the
requested-IP offer and the branches for clients without a record check the range
only, and the lease file is not checked at all.  An address that enters the table
is offered and acknowledged from then on, so what reaches the table decides.
-/

namespace Xwr100.Udhcpd

open Lib Relation

variable {env : Env} {m : DhcpMessage} {s₀ s s' : Server}

/-- An address the server may hand out: in the range, not the router's, and not ending in
.0 or .255. -/
def InPool (config : ServerConfig) (lanIpaddr : Option Addr) (y : Addr) : Prop :=
  config.start ≤ y ∧ y ≤ config.end_ ∧ lanIpaddr ≠ some y ∧
    y &&& 0xff#32 ≠ 0#32 ∧ y &&& 0xff#32 ≠ 0xff#32

instance (config : ServerConfig) (lanIpaddr : Option Addr) (y : Addr) :
    Decidable (InPool config lanIpaddr y) :=
  inferInstanceAs (Decidable (_ ∧ _))

/-- An address the table may hold: one of the pool, or the reserved one of the router. -/
def Storable (config : ServerConfig) (lanIpaddr : Option Addr) (y : Addr) : Prop :=
  y = 0#32 ∨ InPool config lanIpaddr y ∨ lanIpaddr = some y

/-- Every offer and acknowledgement that answers a discover or a request carries an address
of the pool. -/
def AnswersInPool (s : Server) : Event → Prop
  | .packet env m =>
      m.type = some .discover ∨ m.type = some .request →
        ∀ r ∈ (step s (.packet env m)).replies, r.type ≠ .nak →
          InPool s.config s.lanIpaddr r.yiaddr
  | _ => True

/-- The events that bring no other address into the table: clients have six nonzero bytes,
the pool does not end at 255.255.255.255, a discover without a record that asks for an address
in range asks for one of the pool, a request without a record does not ask for one in range
that ends in .0 or .255, and reloaded records are moved into the pool. -/
def KeepsPool (s : Server) : Event → Prop
  | .packet _ m =>
      m.chaddr.mac ≠ 0#48 ∧
      s.config.end_ ≠ 0xffffffff#32 ∧
      (m.type = some .discover → ¬ Recorded s m.chaddr.mac →
        ∀ y, m.requested = some y → s.inRange y = true → InPool s.config s.lanIpaddr y) ∧
      (m.type = some .request → ¬ Recorded s m.chaddr.mac →
        ∀ y, requestTarget s m = some y → s.inRange y = true →
          y &&& 0xff#32 ≠ 0#32 ∧ y &&& 0xff#32 ≠ 0xff#32)
  | .writeLeases => True
  | .reload _ config lanIpaddr mask file =>
      FileOk file ∧ MoveOk config.server mask file ∧
      ∀ r ∈ file, r.yiaddr ≠ 0#32 →
        Storable config lanIpaddr (newYiaddr config.server mask r.yiaddr)

/-! ## Acts -/

/-- The table holds storable addresses only. -/
def PoolSlots (s : Server) : Prop :=
  ∀ i < s.config.maxLeases, Storable s.config s.lanIpaddr (s.leases i).yiaddr

theorem PoolSlots.of_slots (h : PoolSlots s) (hconfig : s'.config = s.config)
    (hlan : s'.lanIpaddr = s.lanIpaddr)
    (hyiaddr : ∀ i, (s'.leases i).yiaddr = (s.leases i).yiaddr) : PoolSlots s' := by
  unfold PoolSlots
  rw [hconfig, hlan]
  intro i hi
  rw [hyiaddr i]
  exact h i hi

theorem PoolSlots.addLease (h : PoolSlots s) {c : Chaddr} {y : Addr} (lease : Nat)
    (hy : Storable s.config s.lanIpaddr y) : PoolSlots (s.addLease env c y lease).1 := by
  unfold PoolSlots
  rw [Server.addLease_config, Server.addLease_lanIpaddr]
  intro i hi
  rcases Server.addLease_slot c y lease i with hkept | hempty | ⟨-, ha⟩
  · rw [hkept]
    exact h i hi
  · rw [hempty]
    exact Or.inl rfl
  · rw [ha]
    exact hy

theorem Owns.inPool {i : Nat} {mac : BitVec 48} {y : Addr} (hown : Owns s mac i y)
    (hok : TableOk s) (hmac : mac ≠ 0#48) (h : PoolSlots s) :
    InPool s.config s.lanIpaddr y := by
  have hslot := h i hown.lt
  rw [hown.yiaddr] at hslot
  rcases hslot with hzero | hpool | hlan
  · exact absurd hzero (hown.yiaddr_ne hok hmac)
  · exact hpool
  · exact absurd hlan hown.lan

theorem Assignable.inPool {y : Addr} (h : Assignable s y)
    (hend : s.config.end_ ≠ 0xffffffff#32) : InPool s.config s.lanIpaddr y :=
  ⟨h.start_le hend, h.le_end, h.lan, h.low_ne_zero, h.low_ne_ff⟩

structure Pooled (m : DhcpMessage) (s : Server) : Prop where
  slots : PoolSlots s
  replies : m.type ≠ some .inform → ∀ r ∈ s.replies, r.type ≠ .nak →
    InPool s.config s.lanIpaddr r.yiaddr

theorem Pooled.reply {r : Reply} (h : Pooled m s)
    (hr : m.type = some .inform ∨ r.type = .nak ∨ InPool s.config s.lanIpaddr r.yiaddr) :
    Pooled m { s with replies := s.replies ++ [r] } := by
  refine ⟨h.slots, fun hinform r' hr' hnak => ?_⟩
  rcases List.mem_append.mp hr' with hold | hnew
  · exact h.replies hinform r' hold hnak
  · rw [List.mem_singleton.mp hnew] at hnak ⊢
    rcases hr with htype | hrn | hpool
    · exact absurd htype hinform
    · exact absurd hrn hnak
    · exact hpool

theorem Pooled.addLease {c : Chaddr} {y : Addr} (h : Pooled m s) (lease : Nat)
    (hy : Storable s.config s.lanIpaddr y) : Pooled m (s.addLease env c y lease).1 := by
  refine ⟨h.slots.addLease lease hy, ?_⟩
  rw [Server.addLease_config, Server.addLease_lanIpaddr, Server.addLease_replies]
  exact h.replies

theorem Pooled.of_slots (h : Pooled m s) (hconfig : s'.config = s.config)
    (hlan : s'.lanIpaddr = s.lanIpaddr) (hreplies : s'.replies = s.replies)
    (hyiaddr : ∀ i, (s'.leases i).yiaddr = (s.leases i).yiaddr) : Pooled m s' := by
  refine ⟨h.slots.of_slots hconfig hlan hyiaddr, ?_⟩
  rw [hconfig, hlan, hreplies]
  exact h.replies

theorem Pooled.setSlot {i : Nat} {slot : DhcpOfferedAddr} (h : Pooled m s)
    (hy : slot.yiaddr = (s.leases i).yiaddr) : Pooled m (s.setSlot i slot) := by
  refine h.of_slots rfl rfl rfl fun k => ?_
  by_cases hk : k = i
  · subst hk
    simpa [Server.setSlot] using hy
  · simp [Server.setSlot, Function.update_of_ne hk]

theorem Offerable.inPool {y : Addr} (hy : Offerable env m s₀ s y) (hok : TableOk s)
    (hnz : m.chaddr.mac ≠ 0#48) (hend : s.config.end_ ≠ 0xffffffff#32)
    (hrequested : ¬ Recorded s₀ m.chaddr.mac → ∀ y, m.requested = some y →
      s.inRange y = true → InPool s.config s.lanIpaddr y)
    (h : PoolSlots s) : InPool s.config s.lanIpaddr y := by
  rcases hy with ⟨i, hown⟩ | ⟨-, -, hassign | ⟨hno, hreq, hrange⟩⟩
  · exact hown.inPool hok hnz h
  · exact hassign.inPool hend
  · exact hrequested hno y hreq hrange

theorem Act.pooled (h : Act env m s₀ s s') (hok : TableOk s) (hnz : m.chaddr.mac ≠ 0#48)
    (hend : s.config.end_ ≠ 0xffffffff#32)
    (hdiscover : m.type = some .discover → ¬ Recorded s₀ m.chaddr.mac →
      ∀ y, m.requested = some y → s.inRange y = true → InPool s.config s.lanIpaddr y)
    (hrequest : m.type = some .request → ¬ Recorded s₀ m.chaddr.mac →
      ∀ y, requestTarget s m = some y → s.inRange y = true →
        y &&& 0xff#32 ≠ 0#32 ∧ y &&& 0xff#32 ≠ 0xff#32)
    (hp : Pooled m s) : Pooled m s' := by
  cases h with
  | prep hprepare =>
      cases hprepare with
      | quiet hq =>
          refine hp.of_slots hq.config hq.lanIpaddr hq.replies fun i => ?_
          rw [hq.leases]
      | reserve y hy =>
          refine hp.addLease _ ?_
          rcases hy with hlan | ⟨hassign, -⟩
          · exact Or.inr (Or.inr hlan)
          · exact Or.inr (Or.inl (hassign.inPool hend))
  | offer y j time sent htype hy hadd hquiet =>
      have hpool := hy.inPool hok hnz hend (hdiscover htype) hp.slots
      have hadded : Pooled m (s.addLease env m.chaddr y s.config.offerTime).1 :=
        hp.addLease _ (Or.inr (Or.inl hpool))
      refine (hadded.of_slots hquiet.config hquiet.lanIpaddr hquiet.replies fun i => ?_).reply
        (Or.inr (Or.inr ?_))
      · rw [hquiet.leases]
      · rw [hquiet.config, hquiet.lanIpaddr, Server.addLease_config, Server.addLease_lanIpaddr]
        exact hpool
  | offerFull y htype hy =>
      have hpool := hy.inPool hok hnz hend (hdiscover htype) hp.slots
      exact hp.addLease _ (Or.inr (Or.inl hpool))
  | record y htype hno hno₀ htarget hrange =>
      obtain ⟨hz, hf⟩ := hrequest htype hno₀ y htarget hrange
      refine hp.addLease _ (Or.inr ?_)
      by_cases hlan : s.lanIpaddr = some y
      · exact Or.inr hlan
      · simp only [Server.inRange, Bool.and_eq_true, decide_eq_true_eq] at hrange
        exact Or.inl ⟨hrange.1, hrange.2, hlan, hz, hf⟩
  | ack i y time htype hown htime =>
      have hpool := hown.inPool hok hnz hp.slots
      have hsent := hp.reply (r := ⟨.ack, m.chaddr, y, some time, true⟩) (Or.inr (Or.inr hpool))
      exact hsent.addLease _ (Or.inr (Or.inl hpool))
  | ackLost i y time htype hown =>
      exact hp.reply (Or.inr (Or.inr (hown.inPool hok hnz hp.slots)))
  | nak sent htype => exact hp.reply (Or.inr (Or.inl rfl))
  | inform sent htype => exact hp.reply (Or.inl htype)
  | hostname i name htype => exact hp.setSlot rfl
  | decline i y expires htype hown => exact hp.setSlot rfl
  | release i y htype hown => exact hp.setSlot rfl

theorem Acts.pooled (h : Acts env m s₀ s₀ s) (hok : TableOk s₀) (hnz : m.chaddr.mac ≠ 0#48)
    (hend : s₀.config.end_ ≠ 0xffffffff#32)
    (hdiscover : m.type = some .discover → ¬ Recorded s₀ m.chaddr.mac →
      ∀ y, m.requested = some y → s₀.inRange y = true → InPool s₀.config s₀.lanIpaddr y)
    (hrequest : m.type = some .request → ¬ Recorded s₀ m.chaddr.mac →
      ∀ y, requestTarget s₀ m = some y → s₀.inRange y = true →
        y &&& 0xff#32 ≠ 0#32 ∧ y &&& 0xff#32 ≠ 0xff#32)
    (hp : Pooled m s₀) :
    s.config = s₀.config ∧ s.lanIpaddr = s₀.lanIpaddr ∧ TableOk s ∧ Pooled m s := by
  induction h with
  | refl => exact ⟨rfl, rfl, hok, hp⟩
  | tail _ ha ih =>
      obtain ⟨hconfig, hlan, hok', hp'⟩ := ih
      refine ⟨ha.frame.1.trans hconfig, ha.frame.2.trans hlan, ha.tableOk hnz hok', ?_⟩
      refine ha.pooled hok' hnz (by rw [hconfig]; exact hend) ?_ ?_ hp'
      · intro htype hno y hreq hrange
        rw [inRange_congr hconfig] at hrange
        rw [hconfig, hlan]
        exact hdiscover htype hno y hreq hrange
      · intro htype hno y htarget hrange
        rw [inRange_congr hconfig] at hrange
        rw [requestTarget_congr hconfig] at htarget
        exact hrequest htype hno y htarget hrange

/-! ## Runs -/

theorem Loaded.poolSlots {file : List DhcpOfferedAddr} (h : Loaded file s)
    (hfile : ∀ r ∈ file, r.yiaddr ≠ 0#32 → Storable s.config s.lanIpaddr r.yiaddr) :
    PoolSlots s := by
  intro i hi
  rcases h.slots i hi with ⟨-, hzero⟩ | ⟨r, hr, -, hy⟩
  · rw [hzero]
    exact Or.inl rfl
  · rw [hy]
    by_cases hz : r.yiaddr = 0#32
    · exact Or.inl hz
    · exact hfile r hr hz

theorem Loaded.poolSlots_moved {file : List DhcpOfferedAddr} (h : Loaded file s)
    (hfile : ∀ r ∈ file, r.yiaddr ≠ 0#32 →
      Storable s.config s.lanIpaddr (newYiaddr s.config.server s.lanNetmask r.yiaddr)) :
    PoolSlots s.updateLeaseByNewIp := by
  intro i hi
  rw [Server.updateLeaseByNewIp_yiaddr (s := s) hi]
  split
  · exact Or.inl rfl
  · rename_i hne
    rcases h.slots i hi with ⟨-, hzero⟩ | ⟨r, hr, -, hy⟩
    · exact absurd hzero hne
    · rw [hy] at hne ⊢
      exact hfile r hr hne

/-- The invariant of a server that hands out pool addresses only. -/
def PoolInv (s : Server) : Prop := TableOk s ∧ PoolSlots s

theorem boot_poolInv (env : Env) (config : ServerConfig) (lanIpaddr : Option Addr)
    (lanNetmask : Addr) {file : List DhcpOfferedAddr} (hfile : FileOk file)
    (hpool : ∀ r ∈ file, r.yiaddr ≠ 0#32 → Storable config lanIpaddr r.yiaddr) :
    PoolInv (Server.boot env config lanIpaddr lanNetmask file) := by
  have hloaded : Loaded file (Server.boot env config lanIpaddr lanNetmask file) :=
    Server.readLeases_loaded hfile fun _ _ => rfl
  refine ⟨hloaded.tableOk, hloaded.poolSlots ?_⟩
  unfold Server.boot
  rw [Server.readLeases_config, Server.readLeases_lanIpaddr]
  exact hpool

theorem step_pooled (s : Server) (env : Env) (m : DhcpMessage) (hinv : PoolInv s)
    (he : KeepsPool s (.packet env m)) :
    (step s (.packet env m)).config = s.config ∧
    (step s (.packet env m)).lanIpaddr = s.lanIpaddr ∧
    TableOk (step s (.packet env m)) ∧ Pooled m (step s (.packet env m)) := by
  obtain ⟨hok, hslots⟩ := hinv
  obtain ⟨hnz, hend, hdiscover, hrequest⟩ := he
  have hok' : TableOk { s with probes := 0, replies := [] } := hok.of_eq rfl rfl
  have hidle : Pooled m { s with probes := 0, replies := [] } :=
    ⟨hslots.of_slots rfl rfl fun _ => rfl, by simp⟩
  unfold step
  dsimp only
  split
  · exact ⟨rfl, rfl, hok', hidle⟩
  · refine (Server.dispatch_acts hok' hnz).pooled hok' hnz hend ?_ ?_ hidle
    · intro htype hno
      exact hdiscover htype fun h => hno (h.of_eq rfl rfl rfl)
    · intro htype hno
      exact hrequest htype fun h => hno (h.of_eq rfl rfl rfl)

theorem step_poolInv (s : Server) (e : Event) (hinv : PoolInv s) (he : KeepsPool s e) :
    PoolInv (step s e) := by
  cases e with
  | packet env m =>
      obtain ⟨-, -, hok, hp⟩ := step_pooled s env m hinv he
      exact ⟨hok, hp.slots⟩
  | writeLeases =>
      have hidle : PoolInv { s with probes := 0, replies := [] } :=
        ⟨hinv.1.of_eq rfl rfl, hinv.2.of_slots rfl rfl fun _ => rfl⟩
      unfold step
      dsimp only
      split <;> exact hidle
  | reload env config lanIpaddr lanNetmask file =>
      obtain ⟨hfile, hmove, hpool⟩ := he
      have hok := step_tableOk s (.reload env config lanIpaddr lanNetmask file) hinv.1
        ⟨hfile, hmove⟩
      refine ⟨hok, ?_⟩
      unfold step
      dsimp only
      split
      · exact hinv.2.of_slots rfl rfl fun _ => rfl
      · unfold Server.reload
        dsimp only
        refine Loaded.poolSlots_moved (Server.readLeases_loaded hfile ?_) ?_
        · intro i hi
          simp only at hi
          simp [hi]
        · rw [Server.readLeases_config, Server.readLeases_lanIpaddr,
            Server.readLeases_lanNetmask]
          exact hpool

/-- Along every run in which only pool addresses are brought into the table, every offer and
acknowledgement carries one. -/
theorem run_answersInPool (env : Env) (config : ServerConfig) (lanIpaddr : Option Addr)
    (lanNetmask : Addr) (file : List DhcpOfferedAddr) (events : List Event)
    (hfile : FileOk file)
    (hpool : ∀ r ∈ file, r.yiaddr ≠ 0#32 → Storable config lanIpaddr r.yiaddr)
    (h : Along step KeepsPool (Server.boot env config lanIpaddr lanNetmask file) events) :
    Along step AnswersInPool (Server.boot env config lanIpaddr lanNetmask file) events := by
  refine h.observe (fun s e hinv he => ⟨step_poolInv s e hinv he, ?_⟩)
    (boot_poolInv env config lanIpaddr lanNetmask hfile hpool)
  cases e with
  | packet env m =>
      intro htype r hr hnak
      obtain ⟨hconfig, hlan, -, hp⟩ := step_pooled s env m hinv he
      rw [← hconfig, ← hlan]
      refine hp.replies ?_ r hr hnak
      rcases htype with htype | htype <;> rw [htype] <;> simp
  | writeLeases => trivial
  | reload env config lanIpaddr lanNetmask file => trivial

/-- A discover that asks for 192.168.1.`host`. -/
def discoverFor (mac : BitVec 48) (host : UInt8) : DhcpMessage :=
  DhcpMessage.ofOptions mac 0#32 [0x35, 1, 1, 0x32, 4, 192, 168, 1, host, 0xff]

/-- A client without a record that asks for 192.168.1.255 is offered it. -/
theorem discover_offers_broadcast :
    ¬ Along step AnswersInPool
      (Server.boot calm wideConfig (some 0xc0a80101#32) 0xffff0000#32 [])
      [.packet calm (discoverFor 0x020000000001#48 255)] := by
  intro h
  exact absurd (h.1 (Or.inl (by decide))) (by decide)

/-- A client asks for an address of the pool, is offered it and requests it. -/
theorem run_answersInPool_one_client :
    Along step AnswersInPool
      (Server.boot calm wideConfig (some 0xc0a80101#32) 0xffff0000#32 twoNetworks)
      [.packet calm (discoverFor 0x020000000003#48 10),
        .packet calm (DhcpMessage.ofOptions 0x020000000003#48 0#32
          [0x35, 1, 3, 0x32, 4, 192, 168, 1, 10, 0xff])] := by
  refine run_answersInPool calm wideConfig (some 0xc0a80101#32) 0xffff0000#32 twoNetworks _
    (by decide) ?_ ?_
  · intro r hr _
    refine Or.inr (Or.inl ?_)
    revert r
    decide
  · refine ⟨⟨by decide, by decide, ?_, ?_⟩, ⟨by decide, by decide, ?_, ?_⟩, trivial⟩
    · intro _ _ y hy _
      rw [show (discoverFor 0x020000000003#48 10).requested = some 0xc0a8010a#32 by decide] at hy
      cases hy
      decide
    · intro htype
      exact absurd htype (by decide)
    · intro htype
      exact absurd htype (by decide)
    · intro _ _ y hy _
      rw [show requestTarget _ (DhcpMessage.ofOptions 0x020000000003#48 0#32
        [0x35, 1, 3, 0x32, 4, 192, 168, 1, 10, 0xff]) = some 0xc0a8010a#32 by decide] at hy
      cases hy
      decide

end Xwr100.Udhcpd
