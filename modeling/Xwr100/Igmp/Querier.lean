import Xwr100.Igmp.Membership
import Xwr100.Lib.Election

/-!
# Who asks on a network

A downstream interface queries its hosts unless it has heard, not long ago, a query from a lower
address.  Reports, leaves and group timers have no part in it: what an interface has of the querier
goes its own way in every run, and it is the way of a station that leads until it is overruled.
-/

namespace Xwr100.Igmp

open Lib Router

variable {ifs ifs' : List Interface} {r : Router}

/-! ## Queries -/

/-- A query as `sendto` gets it, on the socket of an interface. -/
structure Query where
  index : Nat
  src : Addr
  dst : Addr
  message : Message
deriving DecidableEq, Repr

/-- `igmprt_membership_query`, for interfaces of version 2: `version` is 22 for all of them.  The
code is `IGMP_DEF_QRI`. -/
def igmprtMembershipQuery (ifp : Interface) (group : Addr) : Query where
  index := ifp.index
  src := ifp.addr
  dst := if group = 0 then 0xE0000001#32 else group
  message := ⟨0x11#8, 10#8, group, 8⟩

/-- The query `igmprt_timer` sends from an interface, if it does. -/
def generalQuery (ifp : Interface) : Option Query :=
  if ifp.type = .downstream ∧ ifp.isquerier = true ∧ ifp.tiQi - 1 ≤ 0 then
    some (igmprtMembershipQuery ifp 0)
  else none

/-- The queries `igmprt_timer` sends. -/
def Router.queries (r : Router) : List Query := r.interfaces.filterMap generalQuery

/-- The message is a query that `igmprt_input` lets through: `IGMP_MINLEN` is 8. -/
def Router.Message.asks (m : Message) : Bool :=
  8 ≤ m.len ∧ m.type = 0x11#8 ∧ (m.code = 0#8 ∨ m.len = 8)

theorem igmprtMembershipQuery_asks (ifp : Interface) (group : Addr) :
    (igmprtMembershipQuery ifp group).message.asks = true := by
  simp [igmprtMembershipQuery, Message.asks]

/-! ## What an interface has of the querier -/

structure Duty where
  index : Nat
  addr : Addr
  type : IfType
  isquerier : Bool
  tiQi : Int
  oqp : Int
deriving DecidableEq, Repr

def Interface.duty (ifp : Interface) : Duty :=
  ⟨ifp.index, ifp.addr, ifp.type, ifp.isquerier, ifp.tiQi, ifp.oqp⟩

def overrules (index : Nat) (addr : Addr) : Input → Bool
  | .packet ifIndex src m => ifIndex = index ∧ m.asks ∧ src < addr
  | .tick => false

namespace Duty

def step (d : Duty) (x : Input) : Duty :=
  if d.type = .downstream then
    if overrules d.index d.addr x then { d with oqp := 255, isquerier := false }
    else if x = .tick then
      if d.isquerier then { d with tiQi := if d.tiQi - 1 ≤ 0 then 125 else d.tiQi - 1 }
      else
        let oqp := if 0 < d.oqp then d.oqp - 1 else d.oqp
        { d with oqp := oqp, isquerier := decide (oqp = 0) }
    else d
  else d

theorem step_other {d : Duty} {x : Input}
    (hover : d.type = .downstream → overrules d.index d.addr x = false) (htick : x ≠ .tick) :
    d.step x = d := by
  unfold step
  split
  · rename_i hdown
    rw [hover hdown, if_neg Bool.false_ne_true]
  · rfl

theorem step_same (d : Duty) (x : Input) :
    (d.step x).index = d.index ∧ (d.step x).addr = d.addr ∧ (d.step x).type = d.type := by
  unfold step
  split
  · split
    · exact ⟨rfl, rfl, rfl⟩
    · split
      · split <;> exact ⟨rfl, rfl, rfl⟩
      · exact ⟨rfl, rfl, rfl⟩
  · exact ⟨rfl, rfl, rfl⟩

end Duty

def SameDuties (ifs ifs' : List Interface) : Prop :=
  ifs'.map Interface.duty = ifs.map Interface.duty

theorem SameDuties.trans {ifs'' : List Interface} (h : SameDuties ifs ifs')
    (h' : SameDuties ifs' ifs'') : SameDuties ifs ifs'' := Eq.trans h' h

theorem SameDuties.map {f : Interface → Interface} (h : ∀ ifp, (f ifp).duty = ifp.duty) :
    SameDuties ifs (ifs.map f) := by
  rw [SameDuties, List.map_map]
  exact List.map_congr_left fun ifp _ => h ifp

theorem SameDuties.updateInterface {f : Interface → Interface} (ifaddr : Addr)
    (h : ∀ ifp, (f ifp).duty = ifp.duty) : SameDuties ifs (updateInterface ifs ifaddr f) := by
  apply SameDuties.map
  intro ifp
  split
  · exact h ifp
  · rfl

theorem SameDuties.report (r : Router) (ifp : Interface) (src group : Addr) :
    SameDuties r.interfaces (r.membershipReportV12 ifp src group).interfaces := by
  have hadd : SameDuties r.interfaces (r.groupAdd ifp group).interfaces := by
    unfold groupAdd
    split
    · rfl
    · exact .updateInterface _ fun _ => rfl
  unfold membershipReportV12
  split
  · exact hadd.trans (.updateInterface _ fun _ => rfl)
  · rfl

theorem SameDuties.leave (r : Router) (src group : Addr) :
    SameDuties r.interfaces (r.membershipLeaveV2 src group).interfaces := by
  unfold membershipLeaveV2
  split
  · rw [leave_eq]
    apply SameDuties.map
    intro ifp
    unfold cleared
    split <;> rfl
  · rfl

theorem SameDuties.message (r : Router) (ifp : Interface) (src : Addr) {m : Message}
    (hlen : 8 ≤ m.len) (hno : m.asks = false) :
    SameDuties r.interfaces (r.handleMessage ifp src m).interfaces := by
  unfold handleMessage
  by_cases hquery : m.type = 0x11#8
  · have hcode : ¬(m.code = 0#8 ∨ m.len = 8) := by
      intro hcode
      simp [Message.asks, hlen, hquery, hcode] at hno
    rw [if_pos hquery, if_neg hcode]
    rfl
  · rw [if_neg hquery]
    split
    · split
      · rfl
      · exact .report r ifp src m.group
    · split
      · split
        · rfl
        · exact .leave r src m.group
      · rfl

/-! ## One input -/

structure Apart (duties : List Duty) : Prop where
  index_nodup : (duties.map Duty.index).Nodup
  addr_nodup : (duties.map Duty.addr).Nodup

theorem Apart.step {duties : List Duty} (h : Apart duties) (x : Input) :
    Apart (duties.map fun d => d.step x) := by
  obtain ⟨hindex, haddr⟩ := h
  refine ⟨?_, ?_⟩
  · rw [List.map_map]
    exact (List.map_congr_left fun d _ => (Duty.step_same d x).1) ▸ hindex
  · rw [List.map_map]
    exact (List.map_congr_left fun d _ => (Duty.step_same d x).2.1) ▸ haddr

section Input

variable (h : Apart (r.interfaces.map Interface.duty))

/-- An input that no interface takes for a query. -/
theorem SameDuties.step {x : Input} (hsame : SameDuties r.interfaces ifs') (htick : x ≠ .tick)
    (hover : ∀ d ∈ r.interfaces, d.type = .downstream → overrules d.index d.addr x = false) :
    ifs'.map Interface.duty = r.interfaces.map fun d => d.duty.step x := by
  rw [hsame]
  apply List.map_congr_left
  intro d hd
  exact (Duty.step_other (hover d hd) htick).symm

include h

theorem Apart.same_index {d d' : Interface} (hd : d ∈ r.interfaces) (hd' : d' ∈ r.interfaces)
    (heq : d.index = d'.index) : d = d' := by
  have hindex := h.index_nodup
  rw [List.map_map] at hindex
  exact List.inj_on_of_nodup_map hindex hd hd' heq

theorem Apart.same_addr {d d' : Interface} (hd : d ∈ r.interfaces) (hd' : d' ∈ r.interfaces)
    (heq : d.addr = d'.addr) : d = d' := by
  have haddr := h.addr_nodup
  rw [List.map_map] at haddr
  exact List.inj_on_of_nodup_map haddr hd hd' heq

theorem duties_query {ifp : Interface} (hifp : ifp ∈ r.interfaces) (hdown : ifp.type = .downstream)
    (src : Addr) {m : Message} (hasks : m.asks = true) :
    (r.receiveMembershipQuery ifp src).interfaces.map Interface.duty =
      r.interfaces.map fun d => d.duty.step (.packet ifp.index src m) := by
  unfold receiveMembershipQuery
  split
  · rename_i hlow
    rw [updateInterface, List.map_map]
    apply List.map_congr_left
    intro d hd
    by_cases heq : d.addr = ifp.addr
    · obtain rfl := h.same_addr hd hifp heq
      simp [Interface.duty, Duty.step, overrules, hasks, hlow, hdown]
    · have hother : ifp.index ≠ d.index := by
        intro hsame
        exact heq (h.same_index hd hifp hsame.symm ▸ rfl)
      simp [Interface.duty, Duty.step, overrules, heq, hother]
  · rename_i hnot
    refine SameDuties.step rfl (by simp) fun d hd _ => ?_
    by_cases hsame : ifp.index = d.index
    · rw [h.same_index hd hifp hsame.symm]
      simp [overrules, hnot]
    · simp [overrules, hsame]

theorem duties_packet (ifIndex : Nat) (src : Addr) (m : Message) :
    (r.igmprtInput ifIndex src m).interfaces.map Interface.duty =
      r.interfaces.map fun d => d.duty.step (.packet ifIndex src m) := by
  unfold igmprtInput
  by_cases hlen : m.len < 8
  · rw [if_pos hlen]
    refine SameDuties.step rfl (by simp) fun d _ _ => ?_
    simp [overrules, Message.asks, Nat.not_le.mpr hlen]
  rw [if_neg hlen]
  cases hfind : interfaceLookupIndex r.interfaces ifIndex with
  | none =>
      refine SameDuties.step rfl (by simp) fun d hd _ => ?_
      have hne := List.find?_eq_none.mp hfind d hd
      have hother : ifIndex ≠ d.index := fun heq => hne (by simp [heq])
      simp [overrules, hother]
  | some ifp =>
      have hifp : ifp ∈ r.interfaces := List.mem_of_find?_eq_some hfind
      have hindex : ifp.index = ifIndex := by simpa using List.find?_some hfind
      dsimp only
      by_cases hdown : ifp.type = .downstream
      · rw [if_pos hdown]
        cases hasks : m.asks with
        | false =>
            refine (SameDuties.message r ifp src (Nat.not_lt.mp hlen) hasks).step (by simp) ?_
            intro d _ _
            simp [overrules, hasks]
        | true =>
            have hquery : r.handleMessage ifp src m = r.receiveMembershipQuery ifp src := by
              simp only [Message.asks, decide_eq_true_iff] at hasks
              rw [handleMessage, if_pos hasks.2.1, if_pos hasks.2.2]
            rw [hquery, ← hindex]
            exact duties_query h hifp hdown src hasks
      · -- nothing is read from the socket of an interface that is not downstream
        rw [if_neg hdown]
        refine SameDuties.step rfl (by simp) fun d hd hdown' => ?_
        have hother : ifIndex ≠ d.index := by
          rintro rfl
          exact hdown (h.same_index hifp hd hindex ▸ hdown')
        simp [overrules, hother]

omit h in
theorem duties_tick (r : Router) :
    r.igmprtTimer.interfaces.map Interface.duty = r.interfaces.map fun d => d.duty.step .tick := by
  rw [igmprtTimer, timer_eq, List.map_map]
  apply List.map_congr_left
  intro d _
  by_cases hdown : d.type = .downstream
  · cases hquerier : d.isquerier <;>
      simp [cleared, hdown, Interface.duty, Duty.step, timerQuerier, overrules, hquerier]
  · simp [cleared, hdown, Interface.duty, Duty.step]

theorem duties_step (x : Input) :
    (r.step x).interfaces.map Interface.duty = r.interfaces.map fun d => d.duty.step x := by
  cases x with
  | packet ifIndex src m => exact duties_packet h ifIndex src m
  | tick => exact duties_tick r

end Input

/-! ## Runs -/

theorem duties_exec (h : Apart (r.interfaces.map Interface.duty)) (inputs : List Input) :
    (exec Router.step r inputs).interfaces.map Interface.duty =
      r.interfaces.map fun d => exec Duty.step d.duty inputs := by
  induction inputs generalizing r with
  | nil => rfl
  | cons x inputs ih =>
      have hstep := duties_step h x
      have hapart : Apart ((r.step x).interfaces.map Interface.duty) := by
        rw [hstep]
        have := h.step x
        rwa [List.map_map] at this
      have hrun := ih hapart
      rw [exec, List.foldl_cons]
      refine hrun.trans ?_
      have := congrArg (List.map fun d => exec Duty.step d inputs) hstep
      rwa [List.map_map, List.map_map] at this

theorem Apart.start (up : Nat → String) (ifl : Devices) :
    Apart ((start up ifl).interfaces.map Interface.duty) := by
  constructor
  · rw [List.map_map]
    exact start_index_nodup up ifl
  · rw [List.map_map]
    exact (Shape.start up ifl).addr_nodup

/-! ## Stations -/

namespace Duty

def station (d : Duty) : Station := ⟨d.isquerier, d.tiQi.toNat, d.oqp.toNat⟩

/-- `IGMP_DEF_QI` is 125, `IGMP_OQPI` is 255. -/
def rules (index : Nat) (addr : Addr) : Rules Input where
  hears := overrules index addr
  tick := isTick
  interval := 125
  patience := 255
  interval_pos := by decide
  patience_pos := by decide

variable {d : Duty}

theorem step_oqp (h : 0 ≤ d.oqp) (x : Input) : 0 ≤ (d.step x).oqp := by
  unfold step
  split
  · split
    · exact Int.natCast_nonneg 255
    · split
      · split
        · exact h
        · dsimp only
          split <;> omega
      · exact h
  · exact h

theorem toNat_tiQi (tiQi : Int) :
    (if tiQi - 1 ≤ 0 then (125 : Int) else tiQi - 1).toNat =
      if tiQi.toNat ≤ 1 then 125 else tiQi.toNat - 1 := by
  split <;> split <;> omega

/-- Whatever arrives at a downstream interface, it acts as the station does. -/
theorem step_station (hdown : d.type = .downstream) (h : 0 ≤ d.oqp) (x : Input) :
    (d.step x).station = (rules d.index d.addr).step d.station x := by
  cases hover : overrules d.index d.addr x with
  | true =>
      have hstep : d.step x = { d with oqp := 255, isquerier := false } := by
        rw [step, if_pos hdown, if_pos hover]
      rw [hstep, Rules.step_of_hears (by exact hover)]
      rfl
  | false =>
      by_cases htick : x = .tick
      · subst htick
        rw [Rules.step_of_tick (by exact hover) (by rfl)]
        cases hquerier : d.isquerier with
        | true =>
            rw [Station.count_of_leads hquerier]
            simp only [step, hdown, hover, hquerier, station, toNat_tiQi, rules, if_true,
              Bool.false_eq_true, if_false]
        | false =>
            rw [Station.count_of_waits hquerier]
            have hwait : (if 0 < d.oqp then d.oqp - 1 else d.oqp) =
                ((d.oqp.toNat - 1 : Nat) : Int) := by
              split <;> omega
            simp [step, hdown, hover, hquerier, station, hwait]
      · rw [Duty.step_other (fun _ => hover) htick,
          Rules.step_of_neither (by exact hover) (by simpa [rules, isTick] using htick)]

theorem exec_station (hdown : d.type = .downstream) (h : 0 ≤ d.oqp) (inputs : List Input) :
    (exec step d inputs).station = exec (rules d.index d.addr).step d.station inputs := by
  induction inputs generalizing d with
  | nil => rfl
  | cons x inputs ih =>
      obtain ⟨hindex, haddr, htype⟩ := d.step_same x
      have hrun := ih (htype.trans hdown) (step_oqp h x)
      rw [hindex, haddr, step_station hdown h x] at hrun
      exact hrun

theorem exec_same (d : Duty) (inputs : List Input) :
    (exec step d inputs).index = d.index ∧ (exec step d inputs).addr = d.addr ∧
      (exec step d inputs).type = d.type := by
  induction inputs generalizing d with
  | nil => exact ⟨rfl, rfl, rfl⟩
  | cons x inputs ih =>
      obtain ⟨hindex, haddr, htype⟩ := d.step_same x
      obtain ⟨hindex', haddr', htype'⟩ := ih (d.step x)
      exact ⟨hindex'.trans hindex, haddr'.trans haddr, htype'.trans htype⟩

end Duty

theorem Apart.run (up : Nat → String) (ifl : Devices) (inputs : List Input) :
    Apart ((exec Router.step (Router.start up ifl) inputs).interfaces.map Interface.duty) := by
  obtain ⟨hindex, haddr⟩ := Apart.start up ifl
  rw [duties_exec (Apart.start up ifl)]
  constructor
  · rw [List.map_map] at hindex ⊢
    exact (List.map_congr_left fun d _ => (Duty.exec_same (Interface.duty d) inputs).1) ▸ hindex
  · rw [List.map_map] at haddr ⊢
    exact (List.map_congr_left fun d _ => (Duty.exec_same (Interface.duty d) inputs).2.1) ▸ haddr

theorem start_created (up : Nat → String) (ifl : Devices) :
    ∀ d ∈ (start up ifl).interfaces, ∃ device, d = igmpInterfaceCreate device := by
  have hfold : ∀ (devices : List Device) (ifs : List Interface),
      (∀ d ∈ ifs, ∃ device, d = igmpInterfaceCreate device) →
        ∀ d ∈ devices.foldl igmprtInterfaceAdd ifs, ∃ device, d = igmpInterfaceCreate device := by
    intro devices
    induction devices with
    | nil => exact fun _ h => h
    | cons device devices ih =>
        intro ifs h
        apply ih
        unfold igmprtInterfaceAdd
        split
        · exact h
        · rintro d (_ | ⟨_, hd⟩)
          · exact ⟨device, rfl⟩
          · exact h d hd
  exact hfold ifl.list [] fun _ hd => absurd hd List.not_mem_nil

section Run

variable {up : Nat → String} {ifl : Devices} {inputs : List Input} {d : Interface}
  (hd : d ∈ (exec Router.step (start up ifl) inputs).interfaces)

include hd

theorem duty_run :
    ∃ device, d.duty = exec Duty.step (igmpInterfaceCreate device).duty inputs := by
  have hmem : d.duty ∈ (start up ifl).interfaces.map fun d => exec Duty.step d.duty inputs := by
    rw [← duties_exec (Apart.start up ifl)]
    exact List.mem_map_of_mem hd
  obtain ⟨d₀, hd₀, hduty⟩ := List.mem_map.mp hmem
  obtain ⟨device, rfl⟩ := start_created up ifl d₀ hd₀
  exact ⟨device, hduty.symm⟩

variable (hdown : d.type = .downstream)

include hdown

theorem station_run :
    d.duty.station = exec (Duty.rules d.index d.addr).step ⟨true, 0, 0⟩ inputs := by
  obtain ⟨device, hduty⟩ := duty_run hd
  obtain ⟨hindex, haddr, htype⟩ := Duty.exec_same (igmpInterfaceCreate device).duty inputs
  rw [← hduty] at hindex haddr htype
  rw [hduty, Duty.exec_station (htype.symm.trans hdown) (Int.le_refl 0), ← hindex, ← haddr]
  rfl

end Run

/-- In every run, a downstream interface is the querier of its network if and only if no query from
a lower address has ever arrived there, or none in the last 255 seconds. -/
theorem querier_iff (up : Nat → String) (ifl : Devices) (inputs : List Input) :
    ∀ d ∈ (exec Router.step (start up ifl) inputs).interfaces, d.type = .downstream →
      (d.isquerier = true ↔
        (∀ x ∈ inputs, overrules d.index d.addr x = false) ∨
          255 ≤ quietFor (overrules d.index d.addr) isTick inputs) := by
  intro d hd hdown
  have hleads : (⟨true, 0, 0⟩ : Station).leads = true := rfl
  have hafter : (Duty.rules d.index d.addr).After inputs _ := .run hleads inputs
  rw [← station_run hd hdown] at hafter
  exact hafter.leads_iff

/-- A query from 10.0.0.1 silences the second bridge. -/
theorem querier_iff_overruled :
    ∃ d ∈ (exec Router.step (start uplink twoBridges)
        [.packet 4 0x0A000001#32 ⟨0x11#8, 10#8, 0#32, 8⟩, .tick]).interfaces,
      d.index = 4 ∧ ¬d.isquerier = true := by
  have hbridge : ∃ d ∈ (exec Router.step (start uplink twoBridges)
        [.packet 4 0x0A000001#32 ⟨0x11#8, 10#8, 0#32, 8⟩, .tick]).interfaces,
      d.type = .downstream ∧ d.index = 4 ∧ 0x0A000001#32 < d.addr := by decide +kernel
  obtain ⟨d, hd, hdown, hindex, hlow⟩ := hbridge
  refine ⟨d, hd, hindex, ?_⟩
  rw [querier_iff uplink twoBridges _ d hd hdown, hindex]
  generalize d.addr = addr at hlow ⊢
  simp [overrules, Message.asks, hlow, quietFor, isTick]

end Xwr100.Igmp
