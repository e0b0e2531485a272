import Xwr100.Udhcpd.Dispatch

/-!
# What an address search keeps

A lookup or a search changes the server only by reserving addresses for nobody: the router's
own, and those that answer a probe.  What survives such a reservation survives the search,
on any table.
-/

namespace Xwr100.Udhcpd

open Server

variable {env : Env} {m : DhcpMessage} {s : Server} {checkExpired : Bool}
  {Inv : Server → Prop}

/-- The search may use a property of servers that does not depend on its own variables and
survives its reservations. -/
structure SearchKeeps (env : Env) (checkExpired : Bool) (Inv : Server → Prop) : Prop where
  note : ∀ s vizioDevice probes hung, Inv s →
    Inv { s with vizioDevice := vizioDevice, probes := probes, hung := hung }
  reserve : ∀ s y, Inv s →
    (s.lanIpaddr = some y ∨ s.leaseTaken env checkExpired y = false) →
    Inv (s.addLease env blankChaddr y s.config.conflictTime).1

/-- The address was not taken, nor the router's, at some point of the search. -/
def FoundFree (env : Env) (checkExpired : Bool) (Inv : Server → Prop) (y : Addr) : Prop :=
  ∃ s, Inv s ∧ s.lanIpaddr ≠ some y ∧ s.leaseTaken env checkExpired y = false

namespace SearchKeeps

theorem isLanIPAddr (h : SearchKeeps env checkExpired Inv) (hs : Inv s) (y : Addr) :
    Inv (s.isLanIPAddr env y).1 := by
  unfold Server.isLanIPAddr
  by_cases hlan : s.lanIpaddr = some y
  · rw [if_pos hlan]
    exact h.reserve s y hs (Or.inl hlan)
  · rw [if_neg hlan]
    exact hs

theorem checkIp (h : SearchKeeps env checkExpired Inv) (hs : Inv s) {y : Addr}
    (hlan : s.lanIpaddr ≠ some y) (hfree : s.leaseTaken env checkExpired y = false) :
    Inv (s.checkIp env y).1 := by
  have hprobed := h.note s s.vizioDevice (s.probes + 1) s.hung hs
  unfold Server.checkIp Server.isLanIPAddr
  rw [if_neg hlan]
  dsimp only
  by_cases hprobe : env.arpping s.probes y = true
  · rw [if_pos hprobe]
    exact h.reserve _ y hprobed (Or.inr hfree)
  · rw [if_neg hprobe]
    exact hprobed

theorem tryAddress (h : SearchKeeps env checkExpired Inv) (hs : Inv s) (y : Addr) :
    Inv (s.tryAddress env checkExpired y).1 ∧
    ((s.tryAddress env checkExpired y).2 = true → FoundFree env checkExpired Inv y) := by
  have hrefused : ∀ {s' : Server}, Inv s' →
      Inv s' ∧ (false = true → FoundFree env checkExpired Inv y) := fun hinv =>
    ⟨hinv, fun hfalse => absurd hfalse Bool.false_ne_true⟩
  unfold Server.tryAddress
  by_cases hzero : y &&& 0xff#32 = 0#32
  · rw [if_pos hzero]
    exact hrefused hs
  · rw [if_neg hzero]
    by_cases hff : y &&& 0xff#32 = 0xff#32
    · rw [if_pos hff]
      exact hrefused hs
    · rw [if_neg hff]
      have hlan := h.isLanIPAddr hs y
      cases hcall : s.isLanIPAddr env y with
      | mk s₁ isLan =>
          rw [hcall] at hlan
          cases isLan with
          | true => exact hrefused hlan
          | false =>
              obtain ⟨hsame, hne⟩ := isLanIPAddr_false (s := s) (y := y) (by rw [hcall])
              rw [hcall] at hsame
              dsimp only at hsame
              subst hsame
              dsimp only
              by_cases htaken : s₁.leaseTaken env checkExpired y = true
              · rw [if_pos htaken]
                exact hrefused hlan
              · rw [if_neg htaken]
                have hfree := Bool.eq_false_iff.mpr htaken
                exact ⟨h.checkIp hlan hne hfree, fun _ => ⟨s₁, hlan, hne, hfree⟩⟩

theorem findAddressLoop (h : SearchKeeps env checkExpired Inv) (fuel : Nat) (hs : Inv s)
    (y : Addr) :
    Inv (Server.findAddressLoop env checkExpired fuel s y).1 ∧
    ((Server.findAddressLoop env checkExpired fuel s y).2 ≠ 0#32 →
      FoundFree env checkExpired Inv (Server.findAddressLoop env checkExpired fuel s y).2) := by
  induction fuel generalizing s y with
  | zero => exact ⟨h.note s s.vizioDevice s.probes true hs, fun hne => absurd rfl hne⟩
  | succ fuel ih =>
      unfold Server.findAddressLoop
      by_cases hle : y ≤ s.config.end_
      · rw [if_pos hle]
        obtain ⟨hinv, hfound⟩ := h.tryAddress hs y
        cases hcall : s.tryAddress env checkExpired y with
        | mk s₁ found =>
            rw [hcall] at hinv hfound
            cases found with
            | true => exact ⟨hinv, fun _ => hfound rfl⟩
            | false => exact ih hinv (y + 1)
      · rw [if_neg hle]
        exact ⟨hs, fun hne => absurd rfl hne⟩

theorem findAddress (h : SearchKeeps env checkExpired Inv) (hs : Inv s) :
    Inv (s.findAddress env checkExpired).1 ∧
    ((s.findAddress env checkExpired).2 ≠ 0#32 →
      FoundFree env checkExpired Inv (s.findAddress env checkExpired).2) :=
  h.findAddressLoop env.fuel hs s.config.start

theorem findLeaseByChaddr (h : SearchKeeps env checkExpired Inv) (hs : Inv s) (c : Chaddr) :
    Inv (s.findLeaseByChaddr env c).1 := by
  unfold Server.findLeaseByChaddr
  cases s.findMac c.mac with
  | none => exact hs
  | some i =>
      have hlan := h.isLanIPAddr hs (s.leases i).yiaddr
      dsimp only
      cases hcall : s.isLanIPAddr env (s.leases i).yiaddr with
      | mk s₁ isLan =>
          rw [hcall] at hlan
          cases isLan with
          | true => exact hlan
          | false => exact hlan

theorem offerFree (hfree : SearchKeeps env false Inv) (hexpired : SearchKeeps env true Inv)
    (hs : Inv s) :
    Inv (s.offerFree env).1 ∧
    ((s.offerFree env).2 ≠ 0#32 →
      FoundFree env false Inv (s.offerFree env).2 ∨
        FoundFree env true Inv (s.offerFree env).2) := by
  obtain ⟨hinv, hfound⟩ := hfree.findAddress hs
  unfold Server.offerFree
  dsimp only
  by_cases hhung : (s.findAddress env false).1.hung = true
  · rw [if_pos hhung]
    exact ⟨hinv, fun hne => Or.inl (hfound hne)⟩
  · rw [if_neg hhung]
    by_cases hzero : (s.findAddress env false).2 = 0#32
    · rw [if_pos hzero]
      obtain ⟨hinv', hfound'⟩ := hexpired.findAddress hinv
      exact ⟨hinv', fun hne => Or.inr (hfound' hne)⟩
    · rw [if_neg hzero]
      exact ⟨hinv, fun hne => Or.inl (hfound hne)⟩

end SearchKeeps

/-! ## What is no business of a search -/

/-- The replies sent so far, the configuration and the router's address. -/
structure SameFrame (s s' : Server) : Prop where
  config : s'.config = s.config
  lanIpaddr : s'.lanIpaddr = s.lanIpaddr
  replies : s'.replies = s.replies

theorem SameFrame.refl (s : Server) : SameFrame s s := ⟨rfl, rfl, rfl⟩

theorem sameFrame_searchKeeps (s : Server) : SearchKeeps env checkExpired (SameFrame s) where
  note s' _ _ _ h := ⟨h.config, h.lanIpaddr, h.replies⟩
  reserve s' y h _ := by
    constructor
    · rw [addLease_config, h.config]
    · rw [addLease_lanIpaddr, h.lanIpaddr]
    · rw [addLease_replies, h.replies]

/-- Any property that the searches keep is kept by choosing an address for a client without a
record; and the address is the requested one or was found. -/
theorem offerNew_keeps (hfree : SearchKeeps env false Inv) (hexpired : SearchKeeps env true Inv)
    (hs : Inv s) :
    Inv (s.offerNew env m).1 ∧
    ((s.offerNew env m).2 ≠ 0#32 →
      (∃ y, m.requested = some y ∧ s.requestedFree env y = true ∧ (s.offerNew env m).2 = y) ∨
        FoundFree env false Inv (s.offerNew env m).2 ∨
          FoundFree env true Inv (s.offerNew env m).2) := by
  have hquiet : Inv (s.option m dhcpRequestedIp).1 := hfree.note s _ s.probes s.hung hs
  unfold offerNew
  dsimp only
  rw [option_snd]
  cases hreq : m.findOption dhcpRequestedIp with
  | none =>
      obtain ⟨hinv, hfound⟩ := SearchKeeps.offerFree hfree hexpired hquiet
      exact ⟨hinv, fun hne => Or.inr (hfound hne)⟩
  | some pos =>
      dsimp only
      by_cases hok : (s.option m dhcpRequestedIp).1.requestedFree env (m.readAddr pos) = true
      · rw [if_pos hok]
        have hrequested : m.requested = some (m.readAddr pos) := by
          rw [DhcpMessage.requested, hreq]
          rfl
        unfold offerRequested
        cases hfind : (s.option m dhcpRequestedIp).1.findLeaseByYiaddr (m.readAddr pos) with
        | none => exact ⟨hquiet, fun _ => Or.inl ⟨_, hrequested, hok, rfl⟩⟩
        | some i =>
            dsimp only
            by_cases hown : ((s.option m dhcpRequestedIp).1.leases i).chaddr = m.chaddr
            · rw [if_pos hown]
              obtain ⟨hinv, hfound⟩ := hfree.findAddress hquiet
              exact ⟨hinv, fun hne => Or.inr (Or.inl (hfound hne))⟩
            · rw [if_neg hown]
              exact ⟨hquiet, fun _ => Or.inl ⟨_, hrequested, hok, rfl⟩⟩
      · rw [if_neg hok]
        obtain ⟨hinv, hfound⟩ := SearchKeeps.offerFree hfree hexpired hquiet
        exact ⟨hinv, fun hne => Or.inr (hfound hne)⟩

theorem offerAddress_frame : SameFrame s (s.offerAddress env m).1 := by
  have hkeeps : SearchKeeps env false (SameFrame s) := sameFrame_searchKeeps s
  have hfound := hkeeps.findLeaseByChaddr (SameFrame.refl s) m.chaddr
  unfold offerAddress
  dsimp only
  cases (s.findLeaseByChaddr env m.chaddr).2 with
  | some i => exact hfound
  | none => exact (offerNew_keeps hkeeps (sameFrame_searchKeeps s) hfound).1

end Xwr100.Udhcpd
