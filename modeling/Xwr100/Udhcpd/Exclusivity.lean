import Xwr100.Udhcpd.Uniqueness

/-!
# A granted lease is exclusive

A monitor runs beside the server: for one client and one address it remembers until
when the address is the client's, from the acknowledgement on and until the client
gives the lease up, is refused, or lets it expire.  While it is, packets of other
clients neither get the address nor touch the client's slot, provided no client
without a record requests an address that is recorded for another.
-/

namespace Xwr100.Udhcpd

open Lib Relation

variable {env : Env} {m : DhcpMessage} {s₀ s s' : Server}

/-! ## The monitor -/

/-- What a reply to the client means for its lease of `addr`. -/
def grantOf (addr : Addr) (now : Nat) (grant : Option Nat) (r : Reply) : Option Nat :=
  match r.type, r.leaseTime with
  | .nak, _ => none
  | .ack, some time => if r.yiaddr = addr ∧ r.sent then some (now + time) else grant
  | _, _ => grant

/-- The time until which `addr` is leased to `client`, after a packet and the server's
replies to it. -/
def watch (client : BitVec 48) (addr : Addr) (grant : Option Nat) (env : Env) (m : DhcpMessage)
    (replies : List Reply) : Option Nat :=
  let current := grant.filter fun expiry => env.sysTime ≤ expiry
  if m.chaddr.mac ≠ client then current
  else
    match m.type with
    | some .discover => none
    | some .decline => none
    | some .release => none
    | _ => replies.foldl (grantOf addr env.sysTime) current

def watchStep (client : BitVec 48) (addr : Addr) (p : Server × Option Nat)
    (i : Env × DhcpMessage) : Server × Option Nat :=
  let s' := step p.1 (.packet i.1 i.2)
  (s', watch client addr p.2 i.1 i.2 s'.replies)

/-- While the lease of `addr` lasts, a packet of another client is answered with neither an
offer nor an acknowledgement of it, and the client's slot keeps owner, address and expiry. -/
def Exclusive (client : BitVec 48) (addr : Addr) (p : Server × Option Nat)
    (i : Env × DhcpMessage) : Prop :=
  ∀ expiry, p.2 = some expiry → i.1.sysTime ≤ expiry → i.2.chaddr.mac ≠ client →
    (∀ r ∈ (step p.1 (.packet i.1 i.2)).replies, r.type ≠ .nak → r.yiaddr ≠ addr) ∧
    ∃ k < p.1.config.maxLeases,
      (p.1.leases k).chaddr.mac = client ∧ (p.1.leases k).yiaddr = addr ∧
      (p.1.leases k).expires = expiry ∧
      ((step p.1 (.packet i.1 i.2)).leases k).chaddr = (p.1.leases k).chaddr ∧
      ((step p.1 (.packet i.1 i.2)).leases k).yiaddr = addr ∧
      ((step p.1 (.packet i.1 i.2)).leases k).expires = expiry

/-- The packets that leave other clients' leases alone: they come from six nonzero bytes, the
uptime leaves room for a lease, and a request without a record does not ask for an address
recorded, unexpired, for another client. -/
def KeepsGrants (p : Server × Option Nat) (i : Env × DhcpMessage) : Prop :=
  i.2.chaddr.mac ≠ 0#48 ∧ i.1.sysTime + p.1.config.lease < UInt32.size ∧
  (i.2.type = some .request → ¬ Recorded p.1 i.2.chaddr.mac →
    ∀ y, requestTarget p.1 i.2 = some y → p.1.inRange y = true →
      ∀ k < p.1.config.maxLeases, (p.1.leases k).yiaddr = y →
        (p.1.leases k).chaddr.mac = 0#48 ∨ (p.1.leases k).chaddr.mac = i.2.chaddr.mac ∨
        (p.1.leases k).expires < i.1.sysTime)

/-! ## Acts of other clients -/

/-- Slot `k` holds the client's lease of `addr` until `expiry`. -/
structure Held (s : Server) (client : BitVec 48) (addr : Addr) (k expiry : Nat) : Prop where
  owns : Owns s client k addr
  expires : (s.leases k).expires = expiry

/-- `add_lease` leaves an unexpired slot of another client and another address alone. -/
theorem Server.addLease_kept {k : Nat} {c : Chaddr} {y : Addr} (lease : Nat)
    (hexp : env.sysTime ≤ (s.leases k).expires)
    (hmac : (s.leases k).chaddr.mac ≠ c.mac) (hy : (s.leases k).yiaddr ≠ y) :
    (s.addLease env c y lease).1.leases k = s.leases k := by
  have hno : clearMatches c y (s.leases k) = false := by
    have hc : (s.leases k).chaddr ≠ c := by
      intro h
      exact hmac (by rw [h])
    simp [clearMatches, hc, hy]
  by_cases hz : y = 0#32
  · subst hz
    rw [Server.addLease_zero]
  · by_cases hret : (s.addLease env c y lease).2 = some k
    · rcases (Server.addLease_some _ _ _ hret).2.2.2.2.2 with hm | hlt
      · rw [hno] at hm
        cases hm
      · omega
    · rw [Server.addLease_other _ _ _ hz hret]
      simp [hno]

theorem Held.addLease {client : BitVec 48} {addr : Addr} {k expiry : Nat}
    (h : Held s client addr k expiry) (hnow : env.sysTime ≤ expiry) {c : Chaddr} {y : Addr}
    (lease : Nat) (hmac : client ≠ c.mac) (hy : y ≠ addr) :
    Held (s.addLease env c y lease).1 client addr k expiry ∧
    (s.addLease env c y lease).1.leases k = s.leases k := by
  have hslot : (s.addLease env c y lease).1.leases k = s.leases k := by
    refine Server.addLease_kept lease ?_ ?_ ?_
    · rw [h.expires]
      exact hnow
    · rw [h.owns.mac]
      exact hmac
    · rw [h.owns.yiaddr]
      exact hy.symm
  refine ⟨⟨⟨?_, ?_, ?_, ?_⟩, ?_⟩, hslot⟩
  · rw [Server.addLease_config]
    exact h.owns.lt
  · rw [hslot]
    exact h.owns.mac
  · rw [hslot]
    exact h.owns.yiaddr
  · rw [Server.addLease_lanIpaddr]
    exact h.owns.lan
  · rw [hslot]
    exact h.expires

theorem Held.of_eq {client : BitVec 48} {addr : Addr} {k expiry : Nat}
    (h : Held s client addr k expiry) (hconfig : s'.config = s.config)
    (hlan : s'.lanIpaddr = s.lanIpaddr)
    (hchaddr : (s'.leases k).chaddr = (s.leases k).chaddr)
    (hyiaddr : (s'.leases k).yiaddr = (s.leases k).yiaddr)
    (hexpires : (s'.leases k).expires = (s.leases k).expires) :
    Held s' client addr k expiry := by
  refine ⟨⟨?_, ?_, ?_, ?_⟩, ?_⟩
  · rw [hconfig]
    exact h.owns.lt
  · rw [hchaddr]
    exact h.owns.mac
  · rw [hyiaddr]
    exact h.owns.yiaddr
  · rw [hlan]
    exact h.owns.lan
  · rw [hexpires]
    exact h.expires

/-- An address whose records have all expired is not a lease held now. -/
theorem Held.ne_of_vacant {client : BitVec 48} {addr : Addr} {k expiry : Nat}
    (h : Held s client addr k expiry) (hnow : env.sysTime ≤ expiry) {y : Addr}
    (hv : Vacant env s y) : y ≠ addr := by
  rintro rfl
  have hlt := hv k h.owns.lt h.owns.yiaddr
  rw [h.expires] at hlt
  omega

/-- The address of another client's slot is not one held here. -/
theorem Held.ne_of_owns {client mac : BitVec 48} {addr y : Addr} {k i expiry : Nat}
    (h : Held s client addr k expiry) (hok : TableOk s) (hclient : client ≠ 0#48)
    (hmac : mac ≠ client) (hown : Owns s mac i y) : y ≠ addr := by
  rintro rfl
  have hik : i = k := by
    refine hok.yiaddr_inj hown.lt h.owns.lt (hown.yiaddr.trans h.owns.yiaddr.symm) ?_
    rw [hown.yiaddr]
    exact h.owns.yiaddr_ne hok hclient
  have hmaci := hown.mac
  rw [hik, h.owns.mac] at hmaci
  exact hmac hmaci.symm

theorem Held.ne_of_offerable {client : BitVec 48} {addr y : Addr} {k expiry : Nat}
    (h : Held s client addr k expiry) (hnow : env.sysTime ≤ expiry) (hok : TableOk s)
    (hclient : client ≠ 0#48) (hmac : m.chaddr.mac ≠ client)
    (hy : Offerable env m s₀ s y) : y ≠ addr := by
  rcases hy with ⟨i, hown⟩ | ⟨-, hvac, -⟩
  · exact h.ne_of_owns hok hclient hmac hown
  · exact h.ne_of_vacant hnow hvac

/-- What holds between the acts of another client: the slot as the packet found it, and no
reply with the address so far. -/
structure Spared (s₁ s : Server) (client : BitVec 48) (addr : Addr) (k expiry : Nat) : Prop where
  held : Held s client addr k expiry
  chaddr : (s.leases k).chaddr = (s₁.leases k).chaddr
  replies : ∀ r ∈ s.replies, r.type ≠ .nak → r.yiaddr ≠ addr

theorem Spared.of_leases {s₁ : Server} {client : BitVec 48} {addr : Addr} {k expiry : Nat}
    (h : Spared s₁ s client addr k expiry) (hconfig : s'.config = s.config)
    (hlan : s'.lanIpaddr = s.lanIpaddr) (hslot : s'.leases k = s.leases k)
    (hreplies : ∀ r ∈ s'.replies, r ∈ s.replies ∨ r.type = .nak ∨ r.yiaddr ≠ addr) :
    Spared s₁ s' client addr k expiry := by
  refine ⟨h.held.of_eq hconfig hlan (by rw [hslot]) (by rw [hslot]) (by rw [hslot]), ?_, ?_⟩
  · rw [hslot]
    exact h.chaddr
  · intro r hr hne
    rcases hreplies r hr with hold | hnak | hnew
    · exact h.replies r hold hne
    · exact absurd hnak hne
    · exact hnew

theorem Spared.addLease {s₁ : Server} {client : BitVec 48} {addr : Addr} {k expiry : Nat}
    (h : Spared s₁ s client addr k expiry) (hnow : env.sysTime ≤ expiry) {c : Chaddr} {y : Addr}
    (lease : Nat) (hmac : client ≠ c.mac) (hy : y ≠ addr) :
    Spared s₁ (s.addLease env c y lease).1 client addr k expiry := by
  refine h.of_leases (by simp) (by simp) (h.held.addLease hnow lease hmac hy).2 ?_
  intro r hr
  rw [Server.addLease_replies] at hr
  exact Or.inl hr

theorem Spared.reply {s₁ : Server} {client : BitVec 48} {addr : Addr} {k expiry : Nat}
    (h : Spared s₁ s client addr k expiry) {r : Reply} (hr : r.type = .nak ∨ r.yiaddr ≠ addr) :
    Spared s₁ { s with replies := s.replies ++ [r] } client addr k expiry := by
  refine h.of_leases rfl rfl rfl fun r' hr' => ?_
  rcases List.mem_append.mp hr' with hold | hnew
  · exact Or.inl hold
  · rw [List.mem_singleton.mp hnew]
    exact Or.inr hr

theorem Spared.setSlot {s₁ : Server} {client : BitVec 48} {addr : Addr} {k expiry : Nat}
    (h : Spared s₁ s client addr k expiry) {mac : BitVec 48} {i : Nat} {y : Addr}
    (hmac : mac ≠ client) (hown : Owns s mac i y) (slot : DhcpOfferedAddr) :
    Spared s₁ (s.setSlot i slot) client addr k expiry := by
  have hk : k ≠ i := by
    rintro rfl
    exact hmac (hown.mac.symm.trans h.held.owns.mac)
  refine h.of_leases rfl rfl ?_ fun r hr => Or.inl hr
  simp [Server.setSlot, Function.update_of_ne hk]

theorem Act.spared {s₁ : Server} {client : BitVec 48} {addr : Addr} {k expiry : Nat}
    (h : Act env m s₀ s s') (hok : TableOk s) (hclient : client ≠ 0#48)
    (hmac : m.chaddr.mac ≠ client) (hnow : env.sysTime ≤ expiry)
    (hrec : ∀ y, m.type = some .request → ¬ Recorded s₀ m.chaddr.mac →
      requestTarget s m = some y → s.inRange y = true → y ≠ addr)
    (hsp : Spared s₁ s client addr k expiry) : Spared s₁ s' client addr k expiry := by
  have hblank : client ≠ blankChaddr.mac := hclient
  cases h with
  | prep hp =>
      cases hp with
      | quiet hq =>
          refine hsp.of_leases hq.config hq.lanIpaddr (by rw [hq.leases]) ?_
          rw [hq.replies]
          exact fun r hr => Or.inl hr
      | reserve y hy =>
          refine hsp.addLease hnow _ hblank ?_
          rcases hy with hlan | ⟨-, hvac⟩
          · rintro rfl
            exact hsp.held.owns.lan hlan
          · exact hsp.held.ne_of_vacant hnow hvac
  | offer y j time sent htype hy hadd hquiet =>
      have hne := hsp.held.ne_of_offerable hnow hok hclient hmac hy
      have hadded := hsp.addLease hnow (c := m.chaddr) s.config.offerTime hmac.symm hne
      refine hadded.of_leases hquiet.config hquiet.lanIpaddr (by rw [hquiet.leases]) ?_
      intro r hr
      rw [hquiet.replies, List.mem_append, List.mem_singleton] at hr
      rcases hr with hold | rfl
      · exact Or.inl hold
      · exact Or.inr (Or.inr hne)
  | offerFull y htype hy =>
      exact hsp.addLease hnow _ hmac.symm (hsp.held.ne_of_offerable hnow hok hclient hmac hy)
  | record y htype hno hno₀ htarget hrange =>
      exact hsp.addLease hnow _ hmac.symm (hrec y htype hno₀ htarget hrange)
  | ack i y time htype hown htime =>
      have hne := hsp.held.ne_of_owns hok hclient hmac hown
      exact (hsp.reply (Or.inr hne)).addLease hnow _ hmac.symm hne
  | ackLost i y time htype hown =>
      exact hsp.reply (Or.inr (hsp.held.ne_of_owns hok hclient hmac hown))
  | nak sent htype => exact hsp.reply (Or.inl rfl)
  | inform sent htype =>
      exact hsp.reply (Or.inr (hsp.held.owns.yiaddr_ne hok hclient).symm)
  | hostname i name htype =>
      refine ⟨hsp.held.of_eq rfl rfl ?_ ?_ ?_, ?_, hsp.replies⟩
      all_goals
        by_cases hk : k = i
        · subst hk
          simp [Server.setSlot, hsp.chaddr]
        · simp [Server.setSlot, Function.update_of_ne hk, hsp.chaddr]
  | decline i y expires htype hown => exact hsp.setSlot hmac hown _
  | release i y htype hown => exact hsp.setSlot hmac hown _

theorem Acts.spared {client : BitVec 48} {addr : Addr} {k expiry : Nat}
    (h : Acts env m s₀ s₀ s) (hok : TableOk s₀) (hclient : client ≠ 0#48)
    (hnz : m.chaddr.mac ≠ 0#48) (hmac : m.chaddr.mac ≠ client) (hnow : env.sysTime ≤ expiry)
    (hrec : ∀ y, m.type = some .request → ¬ Recorded s₀ m.chaddr.mac →
      requestTarget s₀ m = some y → s₀.inRange y = true → y ≠ addr)
    (hheld : Held s₀ client addr k expiry) (hreplies : s₀.replies = []) :
    Spared s₀ s client addr k expiry := by
  have hboth : s.config = s₀.config ∧ TableOk s ∧ Spared s₀ s client addr k expiry := by
    induction h with
    | refl =>
        refine ⟨rfl, hok, hheld, rfl, ?_⟩
        rw [hreplies]
        intro r hr
        cases hr
    | tail _ ha ih =>
        obtain ⟨hconfig, hok', hsp⟩ := ih
        refine ⟨ha.frame.1.trans hconfig, ha.tableOk hnz hok', ?_⟩
        refine ha.spared hok' hclient hmac hnow ?_ hsp
        intro y htype hno htarget hrange
        rw [requestTarget_congr hconfig] at htarget
        rw [inRange_congr hconfig] at hrange
        exact hrec y htype hno htarget hrange
  exact hboth.2.2

/-! ## Acts of the client itself -/

def Backed (env : Env) (client : BitVec 48) (addr : Addr) (grant : Option Nat) (s : Server) :
    Prop :=
  ∀ expiry, s.replies.foldl (grantOf addr env.sysTime) grant = some expiry →
    env.sysTime ≤ expiry ∧ ∃ k, Held s client addr k expiry

theorem Backed.of_leases {client : BitVec 48} {addr : Addr} {grant : Option Nat}
    (h : Backed env client addr grant s) (hconfig : s'.config = s.config)
    (hlan : s'.lanIpaddr = s.lanIpaddr)
    (hslot : ∀ k, (s'.leases k).chaddr = (s.leases k).chaddr ∧
      (s'.leases k).yiaddr = (s.leases k).yiaddr ∧ (s'.leases k).expires = (s.leases k).expires)
    (hreplies : ∀ expiry, s'.replies.foldl (grantOf addr env.sysTime) grant = some expiry →
      s.replies.foldl (grantOf addr env.sysTime) grant = some expiry) :
    Backed env client addr grant s' := by
  intro expiry hfold
  obtain ⟨hnow, k, hheld⟩ := h expiry (hreplies expiry hfold)
  obtain ⟨hc, hy, he⟩ := hslot k
  exact ⟨hnow, k, hheld.of_eq hconfig hlan hc hy he⟩

/-- One act of the client's own request; its other messages end the lease. -/
theorem Act.backed {addr : Addr} {grant : Option Nat} (h : Act env m s₀ s s')
    (hok : TableOk s) (hnz : m.chaddr.mac ≠ 0#48)
    (hroom : env.sysTime + s.config.lease < UInt32.size)
    (hdiscover : m.type ≠ some .discover) (hdecline : m.type ≠ some .decline)
    (hrelease : m.type ≠ some .release)
    (hb : Backed env m.chaddr.mac addr grant s) : Backed env m.chaddr.mac addr grant s' := by
  cases h with
  | prep hp =>
      cases hp with
      | quiet hq =>
          refine hb.of_leases hq.config hq.lanIpaddr (fun k => ?_) (fun expiry hfold => ?_)
          · rw [hq.leases]
            exact ⟨rfl, rfl, rfl⟩
          · rwa [hq.replies] at hfold
      | reserve y hy =>
          intro expiry hfold
          rw [Server.addLease_replies] at hfold
          obtain ⟨hnow, k, hheld⟩ := hb expiry hfold
          have hne : y ≠ addr := by
            rcases hy with hlan | ⟨-, hvac⟩
            · rintro rfl
              exact hheld.owns.lan hlan
            · exact hheld.ne_of_vacant hnow hvac
          exact ⟨hnow, k, (hheld.addLease hnow _ (c := blankChaddr) hnz hne).1⟩
  | offer y j time sent htype hy hadd hquiet => exact absurd htype hdiscover
  | offerFull y htype hy => exact absurd htype hdiscover
  | record y htype hno hno₀ htarget hrange =>
      -- the client has no record, so the monitor has nothing to lose
      intro expiry hfold
      rw [Server.addLease_replies] at hfold
      obtain ⟨-, k, hheld⟩ := hb expiry hfold
      exact absurd hheld.owns.mac (hno k hheld.owns.lt)
  | ack i y time htype hown htime =>
      have hy := hown.yiaddr_ne hok hnz
      intro expiry hfold
      rw [Server.addLease_replies, List.foldl_append] at hfold
      by_cases hya : y = addr
      · subst hya
        simp only [List.foldl_cons, List.foldl_nil, grantOf, and_self, if_true,
          Option.some.injEq] at hfold
        have hmatch := hown.clears hok hnz i hown.lt
          (macKey_eq_some.mpr
            ⟨Chaddr.ne_blank_of_mac_ne (by rw [hown.mac]; exact hnz), hown.mac⟩)
          (Chaddr.ne_blank_of_mac_ne hnz)
        cases hadd : (({ s with replies := s.replies ++
            [⟨.ack, m.chaddr, y, some time, true⟩] } : Server).addLease env m.chaddr y time).2 with
        | none => exact absurd hadd (Server.addLease_ne_none _ _ _ hy hown.lt hmatch)
        | some j =>
            obtain ⟨-, hlt, hc, ha, he, -⟩ := Server.addLease_some _ _ _ hadd
            refine ⟨by omega, j, ⟨by simpa using hlt, by rw [hc], ha, ?_⟩, ?_⟩
            · simpa using hown.lan
            · rw [he, ← hfold]
              exact Nat.mod_eq_of_lt (by omega)
      · simp only [List.foldl_cons, List.foldl_nil, grantOf, hya, false_and, if_false] at hfold
        obtain ⟨-, k, hheld⟩ := hb expiry hfold
        have hik : i = k := hok.mac_inj hown.lt hheld.owns.lt hnz hown.mac hheld.owns.mac
        have hyk := hheld.owns.yiaddr
        rw [← hik, hown.yiaddr] at hyk
        exact absurd hyk hya
  | ackLost i y time htype hown =>
      refine hb.of_leases rfl rfl (fun k => ⟨rfl, rfl, rfl⟩) (fun expiry hfold => ?_)
      simpa [List.foldl_append, grantOf] using hfold
  | nak sent htype =>
      refine hb.of_leases rfl rfl (fun k => ⟨rfl, rfl, rfl⟩) (fun expiry hfold => ?_)
      simp [List.foldl_append, grantOf] at hfold
  | inform sent htype =>
      refine hb.of_leases rfl rfl (fun k => ⟨rfl, rfl, rfl⟩) (fun expiry hfold => ?_)
      simpa [List.foldl_append, grantOf] using hfold
  | hostname i name htype =>
      refine hb.of_leases rfl rfl (fun k => ?_) (fun expiry hfold => hfold)
      by_cases hk : k = i
      · subst hk
        simp [Server.setSlot]
      · simp [Server.setSlot, Function.update_of_ne hk]
  | decline i y expires htype hown => exact absurd htype hdecline
  | release i y htype hown => exact absurd htype hrelease

theorem Acts.backed {addr : Addr} {grant : Option Nat} (h : Acts env m s₀ s₀ s)
    (hok : TableOk s₀) (hnz : m.chaddr.mac ≠ 0#48)
    (hroom : env.sysTime + s₀.config.lease < UInt32.size)
    (hdiscover : m.type ≠ some .discover) (hdecline : m.type ≠ some .decline)
    (hrelease : m.type ≠ some .release)
    (hb : Backed env m.chaddr.mac addr grant s₀) : Backed env m.chaddr.mac addr grant s := by
  have hboth : s.config = s₀.config ∧ TableOk s ∧ Backed env m.chaddr.mac addr grant s := by
    induction h with
    | refl => exact ⟨rfl, hok, hb⟩
    | tail _ ha ih =>
        obtain ⟨hconfig, hok', hb'⟩ := ih
        refine ⟨ha.frame.1.trans hconfig, ha.tableOk hnz hok', ?_⟩
        refine ha.backed hok' hnz ?_ hdiscover hdecline hrelease hb'
        rw [hconfig]
        exact hroom
  exact hboth.2.2

/-! ## Runs -/

/-- The monitor never stands for a lease that is not in the table. -/
def Watched (client : BitVec 48) (addr : Addr) (p : Server × Option Nat) : Prop :=
  TableOk p.1 ∧ ∀ expiry, p.2 = some expiry →
    client ≠ 0#48 ∧ ∃ k, Held p.1 client addr k expiry

theorem filter_eq_some {now expiry : Nat} {grant : Option Nat}
    (h : grant.filter (fun e => decide (now ≤ e)) = some expiry) :
    grant = some expiry ∧ now ≤ expiry := by
  obtain ⟨hsome, hle⟩ := Option.filter_eq_some_iff.mp h
  exact ⟨hsome, by simpa using hle⟩

/-- One packet of a client that is not the watched one. -/
theorem step_spared {client : BitVec 48} {addr : Addr} {k expiry : Nat}
    (hok : TableOk s) (hclient : client ≠ 0#48) (hmac : m.chaddr.mac ≠ client)
    (hnow : env.sysTime ≤ expiry) (hheld : Held s client addr k expiry)
    {grant : Option Nat} (hkeep : KeepsGrants (s, grant) (env, m)) :
    Spared s (step s (.packet env m)) client addr k expiry := by
  obtain ⟨hnz, -, hrec⟩ := hkeep
  have hidle : Held { s with probes := 0, replies := [] } client addr k expiry :=
    hheld.of_eq rfl rfl rfl rfl rfl
  unfold step
  dsimp only
  split
  · exact ⟨hidle, rfl, by simp⟩
  · have hok' : TableOk { s with probes := 0, replies := [] } := hok.of_eq rfl rfl
    have hacts : Acts env m { s with probes := 0, replies := [] }
        { s with probes := 0, replies := [] }
        (Server.dispatch env { s with probes := 0, replies := [] } m) :=
      Server.dispatch_acts hok' hnz
    have hsp := hacts.spared hok' hclient hnz hmac hnow ?_ hidle rfl
    · exact ⟨hsp.held, hsp.chaddr, hsp.replies⟩
    · rintro y htype hno htarget hrange rfl
      have hslot := hrec htype (fun h => hno (h.of_eq rfl rfl rfl)) y htarget hrange k
        hheld.owns.lt hheld.owns.yiaddr
      simp only at hslot
      rw [hheld.owns.mac, hheld.expires] at hslot
      rcases hslot with hzero | hsame | hexp
      · exact hclient hzero
      · exact hmac hsame.symm
      · omega

theorem step_backed {addr : Addr} {grant : Option Nat} (hok : TableOk s)
    (hkeep : KeepsGrants (s, grant) (env, m))
    (hdiscover : m.type ≠ some .discover) (hdecline : m.type ≠ some .decline)
    (hrelease : m.type ≠ some .release)
    (hheld : ∀ expiry, grant = some expiry →
      env.sysTime ≤ expiry ∧ ∃ k, Held s m.chaddr.mac addr k expiry) :
    Backed env m.chaddr.mac addr grant (step s (.packet env m)) := by
  obtain ⟨hnz, hroom, -⟩ := hkeep
  have hidle : Backed env m.chaddr.mac addr grant { s with probes := 0, replies := [] } := by
    intro expiry hfold
    obtain ⟨hnow, k, hk⟩ := hheld expiry hfold
    exact ⟨hnow, k, hk.of_eq rfl rfl rfl rfl rfl⟩
  unfold step
  dsimp only
  split
  · exact hidle
  · have hok' : TableOk { s with probes := 0, replies := [] } := hok.of_eq rfl rfl
    exact Acts.backed (Server.dispatch_acts hok' hnz) hok' hnz hroom hdiscover hdecline
      hrelease hidle

theorem watchStep_watched (client : BitVec 48) (addr : Addr) (p : Server × Option Nat)
    (i : Env × DhcpMessage) (hinv : Watched client addr p) (hkeep : KeepsGrants p i) :
    Watched client addr (watchStep client addr p i) := by
  obtain ⟨s, grant⟩ := p
  obtain ⟨env, m⟩ := i
  obtain ⟨hok, hheld⟩ := hinv
  refine ⟨step_tableOk s (.packet env m) hok hkeep.1, fun expiry hsome => ?_⟩
  simp only [watchStep, watch] at hsome
  by_cases hmac : m.chaddr.mac = client
  · subst hmac
    simp only [ne_eq, not_true_eq_false, if_false] at hsome
    have hcurrent : ∀ e, grant.filter (fun e => decide (env.sysTime ≤ e)) = some e →
        env.sysTime ≤ e ∧ ∃ k, Held s m.chaddr.mac addr k e := by
      intro e he
      obtain ⟨hg, hnow⟩ := filter_eq_some he
      exact ⟨hnow, (hheld e hg).2⟩
    split at hsome
    · cases hsome
    · cases hsome
    · cases hsome
    · rename_i hdiscover hdecline hrelease
      obtain ⟨-, k, hk⟩ :=
        @step_backed env m s addr (grant.filter fun e => decide (env.sysTime ≤ e)) hok hkeep
          hdiscover hdecline hrelease hcurrent expiry hsome
      exact ⟨hkeep.1, k, hk⟩
  · simp only [ne_eq, hmac, not_false_eq_true, if_true] at hsome
    obtain ⟨hg, hnow⟩ := filter_eq_some hsome
    obtain ⟨hclient, k, hk⟩ := hheld expiry hg
    exact ⟨hclient, k, (step_spared hok hclient hmac hnow hk hkeep).held⟩

theorem watchStep_exclusive (client : BitVec 48) (addr : Addr) (p : Server × Option Nat)
    (i : Env × DhcpMessage) (hinv : Watched client addr p) (hkeep : KeepsGrants p i) :
    Exclusive client addr p i := by
  intro expiry hsome hnow hmac
  obtain ⟨hok, hheld⟩ := hinv
  obtain ⟨hclient, k, hk⟩ := hheld expiry hsome
  have hsp := step_spared hok hclient hmac hnow hk hkeep
  exact ⟨hsp.replies, k, hk.owns.lt, hk.owns.mac, hk.owns.yiaddr, hk.expires, hsp.chaddr,
    hsp.held.owns.yiaddr, hsp.held.expires⟩

/-- Along every run of packets that leave recorded addresses alone, every granted lease is
exclusive for its whole time. -/
theorem run_exclusive (client : BitVec 48) (addr : Addr) (env : Env) (config : ServerConfig)
    (lanIpaddr : Option Addr) (lanNetmask : Addr) (file : List DhcpOfferedAddr)
    (packets : List (Env × DhcpMessage)) (hfile : FileOk file)
    (h : Along (watchStep client addr) KeepsGrants
      (Server.boot env config lanIpaddr lanNetmask file, none) packets) :
    Along (watchStep client addr) (Exclusive client addr)
      (Server.boot env config lanIpaddr lanNetmask file, none) packets := by
  have hboot : Watched client addr (Server.boot env config lanIpaddr lanNetmask file, none) :=
    ⟨boot_tableOk env config lanIpaddr lanNetmask hfile, by simp⟩
  refine h.observe (fun p i hinv hkeep => ?_) hboot
  exact ⟨watchStep_watched client addr p i hinv hkeep,
    watchStep_exclusive client addr p i hinv hkeep⟩

/-- A request in INIT-REBOOT state for 192.168.1.`host`. -/
def reboot (mac : BitVec 48) (host : UInt8) : DhcpMessage :=
  DhcpMessage.ofOptions mac 0#32 [0x35, 1, 3, 0x32, 4, 192, 168, 1, host, 0xff]

/-- A second client without a record requests the first one's address and gets it. -/
theorem reboot_takes_lease :
    ¬ Along (watchStep 0x020000000001#48 0xc0a8010a#32)
      (Exclusive 0x020000000001#48 0xc0a8010a#32)
      (Server.boot calm wideConfig (some 0xc0a80101#32) 0xffff0000#32 [], none)
      [(calm, reboot 0x020000000001#48 10), (calm, reboot 0x020000000002#48 10)] := by
  intro h
  obtain ⟨hreplies, -⟩ := h.2.1 90000 (by decide) (by decide) (by decide)
  exact absurd hreplies (by decide)

/-- Two clients that request different addresses, the first one twice. -/
theorem run_exclusive_two_clients :
    Along (watchStep 0x020000000001#48 0xc0a8010a#32)
      (Exclusive 0x020000000001#48 0xc0a8010a#32)
      (Server.boot calm wideConfig (some 0xc0a80101#32) 0xffff0000#32 [], none)
      [(calm, reboot 0x020000000001#48 10), (calm, reboot 0x020000000002#48 11),
        (calm, reboot 0x020000000001#48 10)] := by
  refine run_exclusive _ _ calm wideConfig (some 0xc0a80101#32) 0xffff0000#32 [] _ (by decide) ?_
  refine ⟨⟨by decide, by decide, ?_⟩, ⟨by decide, by decide, ?_⟩, ⟨by decide, by decide, ?_⟩,
    trivial⟩
  · intro _ _ y hy _
    rw [show requestTarget _ (reboot 0x020000000001#48 10) = some 0xc0a8010a#32 by decide] at hy
    cases hy
    decide
  · intro _ _ y hy _
    rw [show requestTarget _ (reboot 0x020000000002#48 11) = some 0xc0a8010b#32 by decide] at hy
    cases hy
    decide
  · intro _ _ y hy _
    rw [show requestTarget _ (reboot 0x020000000001#48 10) = some 0xc0a8010a#32 by decide] at hy
    cases hy
    decide

end Xwr100.Udhcpd
