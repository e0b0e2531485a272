import Xwr100.Igmp.Upstream

/-!
# When the mirror is kept

A step at a time: which reports, leaves and seconds keep memberships and rules equal to the
downstream tables, and from that which runs do.
-/

namespace Xwr100.Igmp

open Lib Router

variable {r r' : Router} {C C' : Prop}

/-- The last member `src` of the group leaves it on some downstream interface. -/
def LastLeave (ifs : List Interface) (src group : Addr) : Prop :=
  ∃ d ∈ ifs, d.type = .downstream ∧
    ∃ gp ∈ d.groups, gp.addr = group ∧ gp.members.erase src = []

/-- A proxied group has no more than this second left on some downstream interface. -/
def Expires (ifs : List Interface) : Prop :=
  ∃ d ∈ ifs, d.type = .downstream ∧ ∃ gp ∈ d.groups, Proxied gp.addr ∧ gp.timer ≤ 1

/-- A report brings a proxied group into a downstream table only while no downstream table has
it, unless there is no upstream interface; and a proxied group leaves a table, by its last
member or by its timer, only while every upstream interface is the first configured one. -/
def Mirrorable (r : Router) : Input → Prop
  | .packet ifIndex src m =>
      8 ≤ m.len → ∀ ifp, interfaceLookupIndex r.interfaces ifIndex = some ifp →
      ifp.type = .downstream → Proxied m.group →
      (m.type = 0x12#8 ∨ m.type = 0x16#8 → m.group ∉ ifp.groupAddrs →
        (∃ u ∈ r.interfaces, u.type = .upstream) → ¬Present r.interfaces m.group) ∧
      (m.type = 0x17#8 → LastLeave r.interfaces src m.group → Covered r)
  | .tick => Expires r.interfaces → Covered r

/-! ## States and steps -/

structure Sound (r : Router) : Prop where
  shape : Shape r.interfaces
  unshared : Unshared r.interfaces
  mirrors : Mirrors r

/-- A step to `r'` keeps the mirror exactly if `C` holds, and the invariant then. -/
structure Outcome (C : Prop) (r' : Router) : Prop where
  mirrors_iff : Mirrors r' ↔ C
  shape : C → Shape r'.interfaces
  unshared : C → Unshared r'.interfaces

theorem Outcome.sound (h : Outcome C r') (hc : C) : Sound r' :=
  ⟨h.shape hc, h.unshared hc, h.mirrors_iff.mpr hc⟩

theorem Outcome.congr (h : Outcome C r') (hc : C ↔ C') : Outcome C' r' :=
  ⟨h.mirrors_iff.trans hc, fun hc' => h.shape (hc.mpr hc'), fun hc' => h.unshared (hc.mpr hc')⟩

theorem Sound.unchanged (h : Sound r) (hc : C) : Outcome C r :=
  ⟨iff_of_true h.mirrors hc, fun _ => h.shape, fun _ => h.unshared⟩

/-- No table has a group at the start. -/
theorem absent_start (up : Nat → String) (ifl : Devices) (group : Addr) :
    ¬Present (Router.start up ifl).interfaces group := by
  rintro ⟨d, hd, -, hg⟩
  rw [Interface.groupAddrs, start_groups up ifl d hd] at hg
  cases hg

theorem Sound.start (up : Nat → String) (ifl : Devices) : Sound (start up ifl) := by
  refine ⟨Shape.start up ifl, ?_, ?_⟩
  · intro u _ _ group _ d hd htype hg
    exact absurd ⟨d, hd, htype, hg⟩ (absent_start up ifl group)
  · intro group _ u _ _
    rw [if_neg (absent_start up ifl group)]
    exact ⟨iff_of_false (Finset.notMem_empty _) (absent_start up ifl group),
      Multiset.count_zero _⟩

/-! ## Steps that leave the tables alone -/

theorem MirrorsIn.of_same {ifs ifs' : List Interface} {k : Kernel} (hs : SamePorts ifs ifs')
    (h : MirrorsIn ifs k) : MirrorsIn ifs' k := by
  intro group hgroup u' hu' htype'
  obtain ⟨u, hu, haddr, hname, htype, -⟩ := hs.mem hu'
  simp only [hs.present group, ← haddr, ← hname]
  exact h group hgroup u hu (htype.trans htype')

theorem Unshared.of_same {ifs ifs' : List Interface} (hs : SamePorts ifs ifs')
    (h : Unshared ifs) : Unshared ifs' := by
  intro u hu hutype group hgroup d hd hdtype hdg d' hd' hdtype' hdg'
  obtain ⟨v, hv, -, -, hvtype, -⟩ := hs.mem hu
  obtain ⟨e, he, headdr, -, hetype, heg⟩ := hs.mem hd
  obtain ⟨e', he', headdr', -, hetype', heg'⟩ := hs.mem hd'
  rw [← headdr, ← headdr']
  exact h v hv (hvtype.trans hutype) group hgroup e he (hetype.trans hdtype) (heg ▸ hdg)
    e' he' (hetype'.trans hdtype') (heg' ▸ hdg')

theorem Outcome.of_same (h : Outcome C r) (hs : SamePorts r.interfaces r'.interfaces)
    (hk : r'.kernel = r.kernel) : Outcome C r' := by
  refine ⟨?_, fun hc => (h.shape hc).of_same hs, fun hc => (h.unshared hc).of_same hs⟩
  rw [← h.mirrors_iff, Mirrors, Mirrors, hk]
  exact ⟨MirrorsIn.of_same hs.symm, MirrorsIn.of_same hs⟩

theorem refresh_port (src group : Addr) (ifp : Interface) :
    (ifp.updateGroup group (refresh src)).port = ifp.port := by
  have haddr : ∀ gp : Group, (if gp.addr = group then refresh src gp else gp).addr = gp.addr := by
    intro gp
    split <;> rfl
  simp [Interface.port, Interface.updateGroup, Interface.groupAddrs, Function.comp_def, haddr]

theorem Outcome.query (h : Sound r) {ifp : Interface} (hifp : ifp ∈ r.interfaces) (src : Addr)
    (hc : C) : Outcome C (r.receiveMembershipQuery ifp src) := by
  unfold receiveMembershipQuery
  split
  · exact (h.unchanged hc).of_same (SamePorts.updateInterface h.shape hifp rfl) rfl
  · exact h.unchanged hc

/-! ## Reports -/

theorem Outcome.groupAdd (h : Sound r) {ifp : Interface} (hifp : ifp ∈ r.interfaces)
    (hdown : ifp.type = .downstream) (group : Addr) :
    Outcome (group ∉ ifp.groupAddrs → (∃ u ∈ r.interfaces, u.type = .upstream) → Proxied group →
      ¬Present r.interfaces group) (r.groupAdd ifp group) := by
  unfold Router.groupAdd
  cases hlookup : ifp.groupLookup group with
  | some gp =>
      refine h.unchanged fun hnew => ?_
      rw [groupLookup_eq_none.mpr hnew] at hlookup
      cases hlookup
  | none =>
      have hnew := groupLookup_eq_none.mp hlookup
      have hmirrors := linkGroup_mirrors_iff h.shape hifp hdown h.mirrors hnew rfl
      refine ⟨hmirrors.trans (by simp [hnew]), ?_, ?_⟩
      · exact fun _ => h.shape.linkGroup hifp hdown hnew
      · exact fun hfree => Unshared.linkGroup h.shape hifp hdown h.unshared (hfree hnew)

theorem groupAdd_shape_mem (h : Shape r.interfaces) {ifp : Interface}
    (hifp : ifp ∈ r.interfaces) (hdown : ifp.type = .downstream) (group : Addr) :
    Shape (r.groupAdd ifp group).interfaces ∧
      ∃ ifp' ∈ (r.groupAdd ifp group).interfaces, ifp'.addr = ifp.addr := by
  unfold Router.groupAdd
  cases hlookup : ifp.groupLookup group with
  | some gp => exact ⟨h, ifp, hifp, rfl⟩
  | none =>
      refine ⟨h.linkGroup hifp hdown (groupLookup_eq_none.mp hlookup), ?_⟩
      exact ⟨ifp.linkGroup group, (mem_updateInterface h hifp).mpr (.inl rfl), rfl⟩

theorem Outcome.report (h : Sound r) {ifp : Interface} (hifp : ifp ∈ r.interfaces)
    (hdown : ifp.type = .downstream) (src group : Addr) :
    Outcome (Proxied group → group ∉ ifp.groupAddrs → (∃ u ∈ r.interfaces, u.type = .upstream) →
      ¬Present r.interfaces group) (r.membershipReportV12 ifp src group) := by
  unfold membershipReportV12
  split
  · obtain ⟨hshape, ifp', hifp', haddr⟩ := groupAdd_shape_mem h.shape hifp hdown group
    refine ((Outcome.groupAdd h hifp hdown group).congr ?_).of_same ?_ rfl
    · exact ⟨fun hc hp hnew hup => hc hnew hup hp, fun hc hnew hup hp => hc hp hnew hup⟩
    · rw [← haddr]
      exact SamePorts.updateInterface hshape hifp' (refresh_port src group ifp')
  · rename_i hmulti
    exact h.unchanged fun hp => absurd hp.1 hmulti

/-! ## Leaves and seconds -/

theorem Outcome.removal {act : Group → Option Group} {visit : Interface → Interface}
    (hk : Keeps act visit) (h : Sound r)
    (hifs : r'.interfaces = r.interfaces.map (cleared act visit))
    (hw : Withdrawn (r.upstreamInterface 0) r.interfaces
      ((givenUp act r.interfaces).map Group.addr) r.kernel r'.kernel) :
    Outcome ((∃ d ∈ r.interfaces, d.type = .downstream ∧
      ∃ gp ∈ d.groups, Proxied gp.addr ∧ act gp = none) → Covered r) r' := by
  have hmirrors := cleared_mirrors_iff hk h.shape h.unshared h.mirrors hw
  rw [← hifs] at hmirrors
  refine ⟨hmirrors.trans ?_, fun _ => hifs ▸ h.shape.cleared hk,
    fun _ => hifs ▸ h.unshared.cleared hk⟩
  constructor
  · rintro hcov ⟨d, hd, htype, gp, hgp, hproxied, hnone⟩
    exact hcov gp.addr hproxied (mem_givenUp.mpr ⟨d, hd, htype, gp, hgp, rfl, hnone⟩)
  · intro hcov group hproxied hgone
    obtain ⟨d, hd, htype, gp, hgp, rfl, hnone⟩ := mem_givenUp.mp hgone
    exact hcov ⟨d, hd, htype, gp, hgp, hproxied, hnone⟩

theorem leaveGroup_eq_none {src group : Addr} {gp : Group} :
    leaveGroup src group gp = none ↔ gp.addr = group ∧ gp.members.erase src = [] := by
  unfold leaveGroup
  split
  · rename_i haddr
    split
    · rename_i hlen
      exact iff_of_true rfl ⟨haddr, List.length_eq_zero_iff.mp hlen⟩
    · rename_i hlen
      exact iff_of_false (by simp) fun h => hlen (List.length_eq_zero_iff.mpr h.2)
  · rename_i haddr
    exact iff_of_false (by simp) fun h => haddr h.1

theorem keeps_leaveGroup (src group : Addr) : Keeps (leaveGroup src group) id := by
  refine ⟨?_, fun _ => rfl, fun _ => rfl, fun _ => rfl⟩
  intro gp gp' h
  unfold leaveGroup at h
  split at h
  · split at h
    · cases h
    · cases h
      rfl
  · cases h
    rfl

theorem timerGroup_eq_none {gp : Group} :
    timerGroup gp = none ↔ gp.addr ≠ igmpAllRouters ∧ gp.timer ≤ 1 := by
  unfold timerGroup
  split
  · rename_i haddr
    exact iff_of_false (by simp) fun h => h.1 haddr
  · rename_i haddr
    split
    · exact iff_of_true rfl ⟨haddr, by omega⟩
    · exact iff_of_false (by simp) fun h => by omega

theorem keeps_timerGroup : Keeps timerGroup timerQuerier := by
  refine ⟨?_, ?_, ?_, ?_⟩
  · intro gp gp' h
    unfold timerGroup at h
    split at h
    · cases h
      rfl
    · split at h
      · cases h
      · cases h
        rfl
  all_goals
    intro ifp
    unfold timerQuerier
    split <;> rfl

theorem cleared_upstream {act : Group → Option Group} {visit : Interface → Interface}
    (hk : Keeps act visit) (ifs : List Interface) (a : Addr) :
    (∃ u ∈ ifs.map (cleared act visit), u.type = .upstream ∧ u.addr = a) ↔
      ∃ u ∈ ifs, u.type = .upstream ∧ u.addr = a := by
  simp [cleared_type hk, cleared_addr hk]

/-- What the walk of a leave unlinks and what it leaves of the interfaces. -/
theorem leave_eq (r : Router) (src group : Addr) (k : Kernel × Bool) :
    visitDownstream (r.leaveInterface src group) k r.interfaces =
      ((givenUp (leaveGroup src group) r.interfaces).foldl
        (fun k gp => (r.groupCleanup k.1 gp.addr, true)) k,
        r.interfaces.map (cleared (leaveGroup src group) id)) := by
  refine visitDownstream_eq _ _ id ?_ k r.interfaces
  intro k ifp hdown
  rw [leaveInterface, walkGroups_eq, cleared, if_pos hdown]
  rfl

/-- What the walk of a second unlinks and what it leaves of the interfaces. -/
theorem timer_eq (r : Router) (k : Kernel) :
    visitDownstream r.timerInterface k r.interfaces =
      ((givenUp timerGroup r.interfaces).foldl
        (fun k gp => dropUpstream r.interfaces gp.addr (r.groupCleanup k gp.addr)) k,
        r.interfaces.map (cleared timerGroup timerQuerier)) := by
  refine visitDownstream_eq _ _ timerQuerier ?_ k r.interfaces
  intro k ifp hdown
  rw [timerInterface, walkGroups_eq, cleared, if_pos hdown]

theorem Outcome.leave (h : Sound r) (src group : Addr) :
    Outcome (Proxied group → LastLeave r.interfaces src group → Covered r)
      (r.membershipLeaveV2 src group) := by
  unfold membershipLeaveV2
  split
  · have hwalk := leave_eq r src group (r.kernel, false)
    have hk := keeps_leaveGroup src group
    refine (Outcome.removal hk h ?_ ?_).congr ?_
    · rw [hwalk]
    · refine Withdrawn.leave r ?_ ?_ (by rw [hwalk])
      · intro gp hgp
        obtain ⟨d, hd, htype, gp', hgp', haddr, hnone⟩ :=
          mem_givenUp.mp (List.mem_map_of_mem hgp)
        rw [← haddr]
        exact (leaveGroup_eq_none.mp hnone).1
      · intro a
        rw [hwalk]
        exact cleared_upstream hk r.interfaces a
    · simp only [leaveGroup_eq_none, LastLeave]
      grind
  · rename_i hmulti
    exact h.unchanged fun hp => absurd hp.1 hmulti

theorem proxied_ne_allRouters {group : Addr} (h : Proxied group) : group ≠ igmpAllRouters := by
  rintro rfl
  exact absurd h (by decide)

theorem Outcome.timer (h : Sound r) :
    Outcome (Expires r.interfaces → Covered r) r.igmprtTimer := by
  have hwalk := timer_eq r r.kernel
  unfold igmprtTimer
  refine (Outcome.removal keeps_timerGroup h ?_ ?_).congr ?_
  · rw [hwalk]
  · rw [hwalk]
    exact Withdrawn.timer r _ r.kernel
  · have hexpires : ∀ gp : Group, Proxied gp.addr ∧ timerGroup gp = none ↔
        Proxied gp.addr ∧ gp.timer ≤ 1 := by
      intro gp
      rw [timerGroup_eq_none]
      exact ⟨fun h => ⟨h.1, h.2.2⟩, fun h => ⟨h.1, proxied_ne_allRouters h.1, h.2⟩⟩
    simp only [hexpires, Expires]

/-! ## Runs -/

theorem Outcome.message (h : Sound r) {ifp : Interface} (hifp : ifp ∈ r.interfaces)
    (hdown : ifp.type = .downstream) (src : Addr) (m : Message) :
    Outcome (Proxied m.group →
      (m.type = 0x12#8 ∨ m.type = 0x16#8 → m.group ∉ ifp.groupAddrs →
        (∃ u ∈ r.interfaces, u.type = .upstream) → ¬Present r.interfaces m.group) ∧
      (m.type = 0x17#8 → LastLeave r.interfaces src m.group → Covered r))
      (r.handleMessage ifp src m) := by
  unfold handleMessage
  have hnot : ¬ifp.type = .upstream := by simp [hdown]
  by_cases hquery : m.type = 0x11#8
  · rw [if_pos hquery]
    split
    · exact Outcome.query h hifp src (by simp [hquery])
    · exact h.unchanged (by simp [hquery])
  rw [if_neg hquery]
  by_cases hreport : m.type = 0x12#8 ∨ m.type = 0x16#8
  · rw [if_pos hreport, if_neg hnot]
    have hleave : m.type ≠ 0x17#8 := by
      rcases hreport with htype | htype <;> simp [htype]
    exact (Outcome.report h hifp hdown src m.group).congr (by simp [hreport, hleave])
  rw [if_neg hreport]
  by_cases hleave : m.type = 0x17#8
  · rw [if_pos hleave, if_neg hnot]
    exact (Outcome.leave h src m.group).congr (by simp [hleave])
  · rw [if_neg hleave]
    exact h.unchanged fun _ => ⟨fun hr => absurd hr hreport, fun hl => absurd hl hleave⟩

theorem Outcome.packet (h : Sound r) (ifIndex : Nat) (src : Addr) (m : Message) :
    Outcome (Mirrorable r (.packet ifIndex src m)) (r.igmprtInput ifIndex src m) := by
  unfold igmprtInput
  by_cases hlen : m.len < 8
  · rw [if_pos hlen]
    exact h.unchanged fun hlong => absurd hlen (Nat.not_lt.mpr hlong)
  rw [if_neg hlen]
  cases hfind : interfaceLookupIndex r.interfaces ifIndex with
  | none => exact h.unchanged (by simp [Mirrorable, hfind])
  | some ifp =>
      have hifp : ifp ∈ r.interfaces := List.mem_of_find?_eq_some hfind
      by_cases hdown : ifp.type = .downstream
      · simp only [if_pos hdown]
        refine (Outcome.message h hifp hdown src m).congr ?_
        simp [Mirrorable, hfind, Nat.not_lt.mp hlen, hdown]
      · simp only [if_neg hdown]
        exact h.unchanged (by simp [Mirrorable, hfind, hdown])

theorem Outcome.step (h : Sound r) (i : Input) : Outcome (Mirrorable r i) (r.step i) := by
  cases i with
  | packet ifIndex src m => exact Outcome.packet h ifIndex src m
  | tick => exact Outcome.timer h

/-- A run keeps the mirror after every step exactly if each of its steps can. -/
theorem run_mirrors_iff (up : Nat → String) (ifl : Devices) (inputs : List Input) :
    Along Router.step (fun r i => Mirrors (r.step i)) (Router.start up ifl) inputs ↔
      Along Router.step Mirrorable (Router.start up ifl) inputs :=
  along_congr (fun _ i h => (Outcome.step h i).mirrors_iff)
    (fun _ i h hc => (Outcome.step h i).sound hc) (Sound.start up ifl)

/-! ## Two bridges behind one uplink -/

/-- `igmp eth0`. -/
def uplink : Nat → String := fun i => if i = 0 then "eth0" else ""

def twoBridges : Devices where
  list := [⟨2, "eth0", 0x0A000002#32⟩, ⟨3, "br0", 0xC0A80001#32⟩, ⟨4, "br1", 0xC0A80101#32⟩]
  index_nodup := by decide
  name_nodup := by decide

def report (group : Addr) : Message := ⟨0x16#8, 0#8, group, 8⟩

def leave (group : Addr) : Message := ⟨0x17#8, 0#8, group, 8⟩

/-- A host behind each bridge reports 239.1.1.1 and one leaves: the group is still in the
other table, and no membership is left. -/
theorem leave_drops_other_bridge :
    ¬Along Router.step (fun r i => Mirrors (r.step i)) (Router.main uplink twoBridges)
      [.packet 3 0xC0A8000A#32 (report 0xEF010101#32),
       .packet 4 0xC0A8010A#32 (report 0xEF010101#32),
       .packet 3 0xC0A8000A#32 (leave 0xEF010101#32)] := by
  rintro ⟨-, -, hmirrors, -⟩
  have hup := hmirrors 0xEF010101#32 (by decide)
    (igmpInterfaceCreate ⟨2, "eth0", 0x0A000002#32⟩) (by decide) (by decide)
  exact absurd (hup.1.mpr (by decide)) (by decide)

end Xwr100.Igmp
