import Xwr100.Udhcpd.Slots

/-!
# The slot bound

Between two reloads every index the server uses is below the `max_leases` of the configuration
in force.  The table keeps the size it was allocated with, so the indices stay inside it as long
as no configuration asks for more slots than that.
-/

namespace Xwr100.Udhcpd

open Lib

variable {s s' s'' : Server}

/-! ## Within one configuration -/

/-- From `s` to `s'` the configuration stays, and the slots used are below its `max_leases`. -/
structure Uses (s s' : Server) (slots : List Nat) : Prop where
  config : s'.config = s.config
  below : ∀ i ∈ slots, i < s.config.maxLeases

namespace Uses

variable {slots slots' : List Nat}

theorem refl (s : Server) : Uses s s [] := ⟨rfl, fun _ h => absurd h List.not_mem_nil⟩

/-- A step that leaves the configuration alone and uses no slot. -/
theorem none (h : s'.config = s.config) : Uses s s' [] := ⟨h, fun _ h => absurd h List.not_mem_nil⟩

theorem trans (h : Uses s s' slots) (h' : Uses s' s'' slots') : Uses s s'' (slots ++ slots') := by
  refine ⟨h'.config.trans h.config, fun i hi => ?_⟩
  rcases List.mem_append.mp hi with hi | hi
  · exact h.below i hi
  · rw [← h.config]
    exact h'.below i hi

/-- A step without slots in front. -/
theorem after (h' : Uses s' s'' slots) (h : s'.config = s.config) : Uses s s'' slots :=
  (none h).trans h'

/-- A step without slots behind. -/
theorem before (h : Uses s s' slots) (h' : s''.config = s'.config) : Uses s s'' slots :=
  ⟨h'.trans h.config, h.below⟩

theorem slot {i : Nat} (h : s'.config = s.config) (hi : i < s.config.maxLeases) : Uses s s' [i] := by
  refine ⟨h, fun j hj => ?_⟩
  rwa [List.mem_singleton.mp hj]

end Uses

namespace Server

variable (env : Env) (m : DhcpMessage)

theorem allSlots_uses (s : Server) : Uses s s s.allSlots :=
  ⟨rfl, fun _ hi => List.mem_range.mp hi⟩

theorem searchSlots_uses {found : Option Nat} (h : ∀ i, found = some i → i < s.config.maxLeases) :
    Uses s s (s.searchSlots found) := by
  cases found with
  | none => exact allSlots_uses s
  | some i =>
      have hlt := h i rfl
      refine ⟨rfl, fun j hj => ?_⟩
      have hj := List.mem_range.mp hj
      omega

theorem addLease_uses (s : Server) (chaddr : Chaddr) (yiaddr : Addr) (lease : Nat) :
    Uses s (s.addLease env chaddr yiaddr lease).1 (s.addLeaseSlots env chaddr yiaddr) := by
  have hconfig : (s.addLease env chaddr yiaddr lease).1.config = s.config :=
    addLease_config chaddr yiaddr lease
  unfold addLeaseSlots
  split
  · exact Uses.none hconfig
  · apply (allSlots_uses s).trans
    apply (allSlots_uses s).trans
    refine ⟨hconfig, fun i hi => ?_⟩
    have hfound := Option.mem_toList.mp hi
    exact (oldestExpiredLease_some hfound).1

theorem isLanIPAddr_uses (s : Server) (addr : Addr) :
    Uses s (s.isLanIPAddr env addr).1 (s.isLanIPAddrSlots env addr) := by
  unfold isLanIPAddr isLanIPAddrSlots
  split
  · apply addLease_uses
  · apply Uses.refl

theorem findLeaseByYiaddr_uses (s : Server) (yiaddr : Addr) :
    Uses s s (s.findLeaseByYiaddrSlots yiaddr) :=
  searchSlots_uses fun _ h => (findLeaseByYiaddr_some h).1

theorem findLeaseByChaddr_uses (s : Server) (chaddr : Chaddr) :
    Uses s (s.findLeaseByChaddr env chaddr).1 (s.findLeaseByChaddrSlots env chaddr) := by
  have hsearch : Uses s s (s.searchSlots (s.findMac chaddr.mac)) :=
    searchSlots_uses fun _ h => (findMac_some h).1
  unfold findLeaseByChaddr findLeaseByChaddrSlots
  apply hsearch.trans
  cases s.findMac chaddr.mac with
  | none => exact Uses.refl s
  | some i =>
      have hlan := isLanIPAddr_uses env s (s.leases i).yiaddr
      cases hcall : s.isLanIPAddr env (s.leases i).yiaddr with
      | mk s₁ isLan =>
          rw [hcall] at hlan
          cases isLan <;> simpa only [hcall] using hlan

/-- The slot it returns is in the table, and the server is as before. -/
theorem findLeaseByChaddr_lt {chaddr : Chaddr} {i : Nat}
    (h : (s.findLeaseByChaddr env chaddr).2 = some i) :
    i < (s.findLeaseByChaddr env chaddr).1.config.maxLeases := by
  obtain ⟨hsame, howns⟩ := findLeaseByChaddr_some h
  rw [hsame]
  exact howns.lt

/-! ## The address search -/

theorem checkIp_uses (s : Server) (addr : Addr) :
    Uses s (s.checkIp env addr).1 (s.checkIpSlots env addr) := by
  have hlan := isLanIPAddr_uses env s addr
  unfold checkIp checkIpSlots
  cases hcall : s.isLanIPAddr env addr with
  | mk s₁ isLan =>
      rw [hcall] at hlan
      apply hlan.trans
      cases isLan with
      | true => apply addLease_uses
      | false =>
          dsimp only
          split
          · exact (addLease_uses env { s₁ with probes := s₁.probes + 1 } _ _ _).after rfl
          · exact Uses.none rfl

theorem tryAddress_uses (s : Server) (checkExpired : Bool) (addr : Addr) :
    Uses s (s.tryAddress env checkExpired addr).1 (s.tryAddressSlots env checkExpired addr) := by
  unfold tryAddress tryAddressSlots
  split
  · apply Uses.refl
  · split
    · apply Uses.refl
    · have hlan := isLanIPAddr_uses env s addr
      cases hcall : s.isLanIPAddr env addr with
      | mk s₁ isLan =>
          rw [hcall] at hlan
          apply hlan.trans
          cases isLan with
          | true => exact Uses.refl s₁
          | false =>
              dsimp only
              apply (findLeaseByYiaddr_uses s₁ addr).trans
              split
              · exact Uses.refl s₁
              · exact checkIp_uses env s₁ addr

theorem findAddressLoop_uses (checkExpired : Bool) (fuel : Nat) (s : Server) (addr : Addr) :
    Uses s (findAddressLoop env checkExpired fuel s addr).1
      (findAddressLoopSlots env checkExpired fuel s addr) := by
  induction fuel generalizing s addr with
  | zero => exact Uses.none rfl
  | succ fuel ih =>
      unfold findAddressLoop findAddressLoopSlots
      split
      · have htry := tryAddress_uses env s checkExpired addr
        cases hcall : s.tryAddress env checkExpired addr with
        | mk s₁ found =>
            rw [hcall] at htry
            apply htry.trans
            cases found with
            | true => exact Uses.refl s₁
            | false => exact ih s₁ (addr + 1)
      · apply Uses.refl

theorem findAddress_uses (s : Server) (checkExpired : Bool) :
    Uses s (s.findAddress env checkExpired).1 (s.findAddressSlots env checkExpired) :=
  findAddressLoop_uses env checkExpired env.fuel s s.config.start

/-! ## Replies -/

theorem offerRequested_uses (s : Server) (addr : Addr) :
    Uses s (s.offerRequested env m addr).1 (s.offerRequestedSlots env m addr) := by
  unfold offerRequested offerRequestedSlots
  apply (findLeaseByYiaddr_uses s addr).trans
  cases s.findLeaseByYiaddr addr with
  | none => exact Uses.refl s
  | some i =>
      dsimp only
      split
      · apply findAddress_uses
      · apply Uses.refl

theorem offerFree_uses (s : Server) : Uses s (s.offerFree env).1 (s.offerFreeSlots env) := by
  unfold offerFree offerFreeSlots
  apply (findAddress_uses env s false).trans
  dsimp only
  split
  · apply Uses.refl
  · split
    · apply findAddress_uses
    · apply Uses.refl

theorem offerNew_uses (s : Server) : Uses s (s.offerNew env m).1 (s.offerNewSlots env m) := by
  have hoption : (s.option m dhcpRequestedIp).1.config = s.config := rfl
  unfold offerNew offerNewSlots
  dsimp only
  refine Uses.after ?_ hoption
  cases (s.option m dhcpRequestedIp).2 with
  | none => apply offerFree_uses
  | some pos =>
      have hsearch : Uses (s.option m dhcpRequestedIp).1 (s.option m dhcpRequestedIp).1
          (if (s.option m dhcpRequestedIp).1.inRange (m.readAddr pos) then
            (s.option m dhcpRequestedIp).1.findLeaseByYiaddrSlots (m.readAddr pos) else []) := by
        split
        · apply findLeaseByYiaddr_uses
        · apply Uses.refl
      dsimp only
      apply hsearch.trans
      split
      · apply offerRequested_uses
      · apply offerFree_uses

theorem offerAddress_uses (s : Server) :
    Uses s (s.offerAddress env m).1 (s.offerAddressSlots env m) := by
  unfold offerAddress offerAddressSlots
  dsimp only
  apply (findLeaseByChaddr_uses env s m.chaddr).trans
  cases hfound : (s.findLeaseByChaddr env m.chaddr).2 with
  | some i => exact Uses.slot rfl (findLeaseByChaddr_lt env hfound)
  | none => apply offerNew_uses

theorem sendOffer_uses (s : Server) :
    Uses s (s.sendOffer env m).1 (s.sendOfferSlots env m) := by
  unfold sendOffer sendOfferSlots
  dsimp only
  apply (offerAddress_uses env m s).trans
  split
  · apply Uses.refl
  · split
    · apply Uses.refl
    · have hadd := addLease_uses env (s.offerAddress env m).1 m.chaddr (s.offerAddress env m).2.1
        (s.offerAddress env m).1.config.offerTime
      split
      · exact hadd
      · exact hadd.before rfl

theorem ackLeaseTime_config (s : Server) : (s.ackLeaseTime m).1.config = s.config := by
  unfold ackLeaseTime
  dsimp only
  split <;> rfl

theorem sendACK_uses (s : Server) (yiaddr : Addr) :
    Uses s (s.sendACK env m yiaddr) (s.sendACKSlots env m yiaddr) := by
  refine Uses.after ?_ (ackLeaseTime_config m s)
  unfold sendACK sendACKSlots
  dsimp only
  split
  · refine Uses.after (addLease_uses env _ m.chaddr yiaddr _) ?_
    rfl
  · exact Uses.none rfl

/-! ## The messages -/

theorem answerRecorded_uses {i : Nat} (hi : i < s.config.maxLeases)
    (requested serverId : Option Nat) :
    Uses s (s.answerRecorded env m requested serverId i)
      (s.answerRecordedSlots env m requested serverId i) := by
  unfold answerRecorded answerRecordedSlots
  dsimp only
  apply (Uses.slot rfl hi).trans
  cases serverId with
  | some pos =>
      dsimp only
      split
      · apply sendACK_uses
      · split
        · apply Uses.refl
        · exact Uses.none rfl
  | none =>
      cases requested with
      | some r =>
          dsimp only
          split
          · apply sendACK_uses
          · exact Uses.none rfl
      | none =>
          dsimp only
          split
          · apply sendACK_uses
          · exact Uses.none rfl

theorem grantUnrecorded_uses (s : Server) (hostname : Option Nat) (yiaddr : Addr)
    (acked : Server → Nat → Addr) :
    Uses s (s.grantUnrecorded env m hostname yiaddr acked)
      (s.grantUnrecordedSlots env m yiaddr acked) := by
  unfold grantUnrecorded grantUnrecordedSlots
  split
  · exact Uses.none rfl
  · dsimp only
    apply (addLease_uses env s m.chaddr yiaddr s.config.offerTime).trans
    cases (s.addLease env m.chaddr yiaddr s.config.offerTime).2 with
    | none => exact Uses.none rfl
    | some _ =>
        dsimp only
        apply (findLeaseByChaddr_uses env _ m.chaddr).trans
        cases hfound : ((s.addLease env m.chaddr yiaddr s.config.offerTime).1.findLeaseByChaddr env
            m.chaddr).2 with
        | none => exact Uses.none rfl
        | some i =>
            dsimp only
            refine Uses.trans (sendACK_uses env m _ _) (Uses.slot rfl ?_)
            rw [(sendACK_uses env m _ _).config]
            exact findLeaseByChaddr_lt env hfound

theorem answerUnrecorded_uses (s : Server) (requested serverId hostname : Option Nat) :
    Uses s (s.answerUnrecorded env m requested serverId hostname)
      (s.answerUnrecordedSlots env m requested serverId) := by
  unfold answerUnrecorded answerUnrecordedSlots
  cases serverId with
  | some pos =>
      dsimp only
      split
      · apply Uses.refl
      · cases requested with
        | some r => apply grantUnrecorded_uses
        | none => exact Uses.none rfl
  | none =>
      cases requested with
      | some r => apply grantUnrecorded_uses
      | none =>
          dsimp only
          split
          · apply grantUnrecorded_uses
          · apply Uses.refl

theorem handleRequest_uses {lease : Option Nat}
    (hlease : ∀ i, lease = some i → i < s.config.maxLeases) :
    Uses s (s.handleRequest env m lease) (s.handleRequestSlots env m lease) := by
  have hoptions : (s.requestOptions m).1.config = s.config := rfl
  unfold handleRequest handleRequestSlots
  dsimp only
  refine Uses.after ?_ hoptions
  cases lease with
  | some i =>
      have hi : i < (s.requestOptions m).1.config.maxLeases := by
        rw [hoptions]
        exact hlease i rfl
      have hanswer := answerRecorded_uses env m hi (s.requestOptions m).2.1
        (s.requestOptions m).2.2.1
      refine hanswer.trans (Uses.slot rfl ?_)
      rw [hanswer.config]
      exact hi
  | none => apply answerUnrecorded_uses

theorem handle_uses {lease : Option Nat} (hlease : ∀ i, lease = some i → i < s.config.maxLeases)
    (type : MessageType) : Uses s (s.handle env m lease type) (s.handleSlots env m lease type) := by
  cases type with
  | discover =>
      unfold handle handleDiscover handleSlots handleDiscoverSlots
      dsimp only
      apply (sendOffer_uses env m s).trans
      split
      · apply Uses.refl
      · split
        · apply Uses.refl
        · apply sendOffer_uses
  | request => exact handleRequest_uses env m hlease
  | decline =>
      cases lease with
      | none => exact Uses.refl s
      | some i => exact Uses.slot rfl (hlease i rfl)
  | release =>
      cases lease with
      | none => exact Uses.refl s
      | some i => exact Uses.slot rfl (hlease i rfl)
  | inform => exact Uses.none rfl
  | unsupported => exact Uses.refl s

theorem dispatch_uses (s : Server) : Uses s (s.dispatch env m) (s.dispatchSlots env m) := by
  have hoption : (s.option m dhcpMessageType).1.config = s.config := rfl
  unfold dispatch dispatchSlots
  split
  · apply Uses.refl
  · dsimp only
    refine Uses.after ?_ hoption
    cases (s.option m dhcpMessageType).2 with
    | none => apply Uses.refl
    | some pos =>
        dsimp only
        apply (findLeaseByChaddr_uses env _ m.chaddr).trans
        apply handle_uses
        intro i hi
        exact findLeaseByChaddr_lt env hi

/-! ## The lease file -/

theorem loadLease_uses (s : Server) (record : DhcpOfferedAddr) :
    Uses s (s.loadLease env record).1 (s.loadLeaseSlots env record) := by
  unfold loadLease loadLeaseSlots
  dsimp only
  generalize (if s.config.remaining = true then record.expires
    else (record.expires + UInt32.size - env.sysTime % UInt32.size) % UInt32.size) = lease
  have hadd := addLease_uses env s record.chaddr record.yiaddr lease
  apply hadd.trans
  cases hslot : (s.addLease env record.chaddr record.yiaddr lease).2 with
  | none => exact Uses.refl _
  | some i =>
      refine Uses.slot rfl ?_
      rw [hadd.config]
      exact (addLease_some _ _ _ hslot).2.1

theorem readLeasesLoop_uses (records : List DhcpOfferedAddr) (s : Server) :
    Uses s (readLeasesLoop env records s) (readLeasesLoopSlots env records s) := by
  induction records generalizing s with
  | nil => exact Uses.refl s
  | cons record rest ih =>
      unfold readLeasesLoop readLeasesLoopSlots
      dsimp only
      apply (loadLease_uses env s record).trans
      split
      · apply ih
      · apply Uses.refl

theorem readLeases_uses (s : Server) (file : List DhcpOfferedAddr) :
    Uses s (s.readLeases env file) (s.readLeasesSlots env file) :=
  readLeasesLoop_uses env (file.take s.config.maxLeases) s

end Server

/-! ## Across reloads -/

/-- A configuration that asks for at most the slots there are is cleared within them. -/
theorem memsetSlots_lt {config config₀ : ServerConfig}
    (h : config.maxLeases ≤ slotsAllocated config₀) :
    ∀ i ∈ memsetSlots config, i < slotsAllocated config₀ := by
  intro i hi
  have hi' := List.mem_range.mp hi
  have hsize : tableBytes config₀ < UInt32.size := Nat.mod_lt _ (by decide)
  unfold slotsAllocated at h ⊢
  have hbytes : tableBytes config = slotSize * config.maxLeases := by
    apply Nat.mod_eq_of_lt
    unfold slotSize at h ⊢
    omega
  rw [hbytes] at hi'
  unfold slotSize at h hi' ⊢
  omega

/-- Every slot the event uses is below `n`. -/
def StaysBelow (n : Nat) (s : Server) (e : Event) : Prop := ∀ i ∈ eventSlots s e, i < n

/-- A reload the server gets to asks for at most `n` slots. -/
def Event.AsksAtMost (n : Nat) (s : Server) : Event → Prop
  | .reload _ config _ _ _ => s.hung = false → config.maxLeases ≤ n
  | _ => True

/-- The configuration in force asks for at most `n` slots. -/
def InForce (n : Nat) (s : Server) : Prop := s.config.maxLeases ≤ n

/-- A reload uses every slot its configuration asks for: `update_lease_by_new_ip` does. -/
theorem mem_reloadSlots (env : Env) (config : ServerConfig) (lanIpaddr : Option Addr)
    (lanNetmask : Addr) (file : List DhcpOfferedAddr) {i : Nat} (hi : i < config.maxLeases) :
    i ∈ s.reloadSlots env config lanIpaddr lanNetmask file := by
  apply List.mem_append_right
  apply List.mem_append_right
  rw [Server.allSlots, (Server.readLeases_uses env _ file).config]
  exact List.mem_range.mpr hi

/-- And none that a fitting configuration does not have. -/
theorem reloadSlots_lt (env : Env) {config config₀ : ServerConfig} (lanIpaddr : Option Addr)
    (lanNetmask : Addr) (file : List DhcpOfferedAddr)
    (hfits : config.maxLeases ≤ slotsAllocated config₀) :
    ∀ i ∈ s.reloadSlots env config lanIpaddr lanNetmask file, i < slotsAllocated config₀ := by
  have huses := (Server.readLeases_uses env (s.emptied config lanIpaddr lanNetmask) file).trans
    (Server.allSlots_uses _)
  intro i hi
  rcases List.mem_append.mp hi with hmem | hmem
  · exact memsetSlots_lt hfits i hmem
  · exact Nat.lt_of_lt_of_le (huses.below i hmem) hfits

theorem step_inForce {n : Nat} {e : Event} (hs : InForce n s) (he : e.AsksAtMost n s) :
    InForce n (step s e) := by
  unfold InForce step
  dsimp only
  split
  · exact hs
  · rename_i hhung
    cases e with
    | packet env m =>
        rw [(Server.dispatch_uses env m _).config]
        exact hs
    | writeLeases => exact hs
    | reload env config lanIpaddr lanNetmask file =>
        dsimp only [Server.reload, Server.updateLeaseByNewIp]
        rw [(Server.readLeases_uses env _ file).config]
        exact he (by simpa using hhung)

/-- One event, from a configuration that fits: its slots are in the table exactly when the
configuration it brings fits too. -/
theorem staysBelow_iff {config₀ : ServerConfig} {e : Event}
    (hs : InForce (slotsAllocated config₀) s) :
    StaysBelow (slotsAllocated config₀) s e ↔ e.AsksAtMost (slotsAllocated config₀) s := by
  unfold StaysBelow eventSlots
  cases hhung : s.hung with
  | true =>
      cases e <;> simp [Event.AsksAtMost, hhung]
  | false =>
      simp only [Bool.false_eq_true, if_false]
      cases e with
      | packet env m =>
          refine ⟨fun _ => trivial, fun _ i hi => ?_⟩
          exact Nat.lt_of_lt_of_le ((Server.dispatch_uses env m _).below i hi) hs
      | writeLeases =>
          refine ⟨fun _ => trivial, fun _ i hi => ?_⟩
          exact Nat.lt_of_lt_of_le ((Server.allSlots_uses _).below i hi) hs
      | reload env config lanIpaddr lanNetmask file =>
          constructor
          · intro hbelow _
            apply Nat.le_of_not_lt
            intro hmore
            exact Nat.lt_irrefl _
              (hbelow _ (mem_reloadSlots env config lanIpaddr lanNetmask file hmore))
          · intro hasks
            exact reloadSlots_lt env lanIpaddr lanNetmask file (hasks hhung)

/-- For a table whose size does not overflow: the server stays inside it, from its start and
through every event, exactly when no reload asks for more slots than there are. -/
theorem run_staysBelow_iff (env : Env) (config : ServerConfig) (lanIpaddr : Option Addr)
    (lanNetmask : Addr) (file : List DhcpOfferedAddr) (events : List Event)
    (hsize : config.maxLeases ≤ slotsAllocated config) :
    ((∀ i ∈ Server.bootSlots env config lanIpaddr lanNetmask file, i < slotsAllocated config) ∧
      Along step (StaysBelow (slotsAllocated config))
        (Server.boot env config lanIpaddr lanNetmask file) events) ↔
    Along step (fun s e => e.AsksAtMost (slotsAllocated config) s)
      (Server.boot env config lanIpaddr lanNetmask file) events := by
  have hread := Server.readLeases_uses env (Server.init config lanIpaddr lanNetmask) file
  have hboot : InForce (slotsAllocated config)
      (Server.boot env config lanIpaddr lanNetmask file) := by
    unfold InForce Server.boot
    rw [hread.config]
    exact hsize
  have hstart : ∀ i ∈ Server.bootSlots env config lanIpaddr lanNetmask file,
      i < slotsAllocated config := by
    intro i hi
    rcases List.mem_append.mp hi with hmem | hmem
    · exact memsetSlots_lt hsize i hmem
    · exact Nat.lt_of_lt_of_le (hread.below i hmem) hsize
  have hkeep : ∀ s e, InForce (slotsAllocated config) s →
      e.AsksAtMost (slotsAllocated config) s → InForce (slotsAllocated config) (step s e) :=
    fun _ _ hs he => step_inForce hs he
  have hiff : ∀ s e, InForce (slotsAllocated config) s →
      (StaysBelow (slotsAllocated config) s e ↔ e.AsksAtMost (slotsAllocated config) s) :=
    fun _ _ hs => staysBelow_iff hs
  rw [and_iff_right hstart]
  exact along_congr hiff hkeep hboot

/-- A table of one slot, and a reload that asks for two. -/
theorem reload_outgrows_table :
    ∃ (env : Env) (config config' : ServerConfig),
      config.maxLeases ≤ slotsAllocated config ∧
      ¬ Along step (StaysBelow (slotsAllocated config)) (Server.boot env config none 0#32 [])
        [.reload env config' none 0#32 []] := by
  refine ⟨⟨1, Nat.one_pos, fun _ _ => false, fun _ => true, 0⟩,
    ⟨0#32, 0#32, 0#32, 0, 1, false, 0, 0, 0, 0⟩, ⟨0#32, 0#32, 0#32, 0, 2, false, 0, 0, 0, 0⟩,
    by decide, ?_⟩
  intro hrun
  have hslot := hrun.1 1 (mem_reloadSlots _ _ _ _ _ (by decide))
  exact absurd hslot (by decide)

/-- A reload of the same configuration stays inside. -/
theorem run_staysBelow_one :
    ∃ (env : Env) (config : ServerConfig),
      config.maxLeases ≤ slotsAllocated config ∧
      Along step (StaysBelow (slotsAllocated config)) (Server.boot env config none 0#32 [])
        [.reload env config none 0#32 [], .writeLeases] := by
  refine ⟨⟨1, Nat.one_pos, fun _ _ => false, fun _ => true, 0⟩,
    ⟨0#32, 0#32, 0#32, 0, 1, false, 0, 0, 0, 0⟩, by decide, ?_⟩
  apply ((run_staysBelow_iff _ _ none 0#32 [] _ (by decide)).mpr _).2
  exact ⟨fun _ => by decide, trivial, trivial⟩

end Xwr100.Udhcpd
