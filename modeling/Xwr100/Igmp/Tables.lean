import Xwr100.Igmp.Igmprt

/-!
# The group tables

What reports, leaves and timers do to the tables of the interfaces, and the shape the tables
keep: one interface for an address, one entry for a group, nothing on the upstream side.
-/

namespace Xwr100.Igmp

open Lib Router

variable {ifs ifs' : List Interface} {r : Router}

def Interface.groupAddrs (ifp : Interface) : List Addr := ifp.groups.map Group.addr

def Present (ifs : List Interface) (group : Addr) : Prop :=
  ∃ d ∈ ifs, d.type = .downstream ∧ group ∈ d.groupAddrs

instance (ifs : List Interface) (group : Addr) : Decidable (Present ifs group) :=
  inferInstanceAs (Decidable (∃ d ∈ ifs, d.type = .downstream ∧ group ∈ d.groupAddrs))

theorem groupLookup_eq_none {ifp : Interface} {group : Addr} :
    ifp.groupLookup group = none ↔ group ∉ ifp.groupAddrs := by
  simp [Interface.groupLookup, Interface.groupAddrs]

theorem interfaceLookup_self (h : (ifs.map Interface.addr).Nodup) {ifp : Interface}
    (hmem : ifp ∈ ifs) : interfaceLookup ifs ifp.addr = some ifp := by
  cases hfind : interfaceLookup ifs ifp.addr with
  | none =>
      have hne := List.find?_eq_none.mp hfind ifp hmem
      simp at hne
  | some found =>
      have haddr : found.addr = ifp.addr := by simpa using List.find?_some hfind
      rw [List.inj_on_of_nodup_map h (List.mem_of_find?_eq_some hfind) hmem haddr]

/-! ## What the upstream side sees of an interface -/

/-- An interface without what its timers and hosts make of it. -/
structure Port where
  addr : Addr
  name : String
  type : IfType
  groups : List Addr

def Interface.port (ifp : Interface) : Port := ⟨ifp.addr, ifp.name, ifp.type, ifp.groupAddrs⟩

def SamePorts (ifs ifs' : List Interface) : Prop :=
  ifs'.map Interface.port = ifs.map Interface.port

theorem SamePorts.map {f : Interface → Interface} (h : ∀ ifp ∈ ifs, (f ifp).port = ifp.port) :
    SamePorts ifs (ifs.map f) := by
  rw [SamePorts, List.map_map]
  exact List.map_congr_left h

theorem SamePorts.symm (h : SamePorts ifs ifs') : SamePorts ifs' ifs := Eq.symm h

theorem SamePorts.mem (h : SamePorts ifs ifs') {ifp' : Interface} (hmem : ifp' ∈ ifs') :
    ∃ ifp ∈ ifs, ifp.addr = ifp'.addr ∧ ifp.name = ifp'.name ∧ ifp.type = ifp'.type ∧
      ifp.groupAddrs = ifp'.groupAddrs := by
  have hport : ifp'.port ∈ ifs.map Interface.port := by
    rw [← h]
    exact List.mem_map_of_mem hmem
  obtain ⟨ifp, hifp, heq⟩ := List.mem_map.mp hport
  simp only [Interface.port, Port.mk.injEq] at heq
  exact ⟨ifp, hifp, heq⟩

theorem SamePorts.addrs (h : SamePorts ifs ifs') :
    ifs'.map Interface.addr = ifs.map Interface.addr := by
  have hmap := congrArg (List.map Port.addr) h
  rwa [List.map_map, List.map_map] at hmap

theorem SamePorts.names (h : SamePorts ifs ifs') :
    ifs'.map Interface.name = ifs.map Interface.name := by
  have hmap := congrArg (List.map Port.name) h
  rwa [List.map_map, List.map_map] at hmap

theorem SamePorts.present (h : SamePorts ifs ifs') (group : Addr) :
    Present ifs' group ↔ Present ifs group := by
  constructor
  · rintro ⟨d, hd, htype, hgroup⟩
    obtain ⟨d', hd', -, -, htype', hgroup'⟩ := h.mem hd
    exact ⟨d', hd', htype'.trans htype, hgroup' ▸ hgroup⟩
  · rintro ⟨d, hd, htype, hgroup⟩
    obtain ⟨d', hd', -, -, htype', hgroup'⟩ := h.symm.mem hd
    exact ⟨d', hd', htype'.trans htype, hgroup' ▸ hgroup⟩

/-! ## The shape of the tables -/

structure Shape (ifs : List Interface) : Prop where
  addr_nodup : (ifs.map Interface.addr).Nodup
  name_nodup : (ifs.map Interface.name).Nodup
  upstream_empty : ∀ u ∈ ifs, u.type = .upstream → u.groups = []
  groups_nodup : ∀ d ∈ ifs, d.groupAddrs.Nodup

theorem Shape.of_same (h : Shape ifs) (hs : SamePorts ifs ifs') : Shape ifs' := by
  refine ⟨hs.addrs ▸ h.addr_nodup, hs.names ▸ h.name_nodup, ?_, ?_⟩
  · intro u hu htype
    obtain ⟨u', hu', -, -, htype', hgroups⟩ := hs.mem hu
    have hempty := h.upstream_empty u' hu' (htype'.trans htype)
    rw [Interface.groupAddrs, hempty, List.map_nil] at hgroups
    exact List.map_eq_nil_iff.mp hgroups.symm
  · intro d hd
    obtain ⟨d', hd', -, -, -, hgroups⟩ := hs.mem hd
    rw [← hgroups]
    exact h.groups_nodup d' hd'

/-- A label that tells the devices apart tells the interfaces apart. -/
theorem igmprtInterfaceAdd_labels {β : Type} {label : Device → β} {label' : Interface → β}
    (hlabel : ∀ d, label' (igmpInterfaceCreate d) = label d) (ds : List Device)
    (h : (ifs.map label').Nodup) (hnew : (ds.map label).Nodup)
    (hfresh : ∀ d ∈ ds, label d ∉ ifs.map label') :
    ((ds.foldl igmprtInterfaceAdd ifs).map label').Nodup := by
  induction ds generalizing ifs with
  | nil => exact h
  | cons d rest ih =>
      rw [List.map_cons, List.nodup_cons] at hnew
      rw [List.foldl_cons]
      cases hfind : interfaceLookup ifs d.addr with
      | some ifp =>
          rw [igmprtInterfaceAdd, hfind]
          exact ih h hnew.2 fun d' hd' => hfresh d' (List.mem_cons_of_mem _ hd')
      | none =>
          rw [igmprtInterfaceAdd, hfind]
          refine ih ?_ hnew.2 ?_
          · rw [List.map_cons, hlabel, List.nodup_cons]
            exact ⟨hfresh d List.mem_cons_self, h⟩
          · intro d' hd'
            rw [List.map_cons, hlabel, List.mem_cons, not_or]
            refine ⟨fun heq => hnew.1 (List.mem_map.mpr ⟨d', hd', heq⟩), ?_⟩
            exact hfresh d' (List.mem_cons_of_mem _ hd')

theorem igmprtInterfaceAdd_addrs (ds : List Device) (h : (ifs.map Interface.addr).Nodup) :
    ((ds.foldl igmprtInterfaceAdd ifs).map Interface.addr).Nodup := by
  induction ds generalizing ifs with
  | nil => exact h
  | cons d rest ih =>
      rw [List.foldl_cons]
      apply ih
      cases hfind : interfaceLookup ifs d.addr with
      | some ifp =>
          rw [igmprtInterfaceAdd, hfind]
          exact h
      | none =>
          rw [igmprtInterfaceAdd, hfind, List.map_cons, List.nodup_cons]
          refine ⟨?_, h⟩
          intro haddr
          obtain ⟨ifp, hifp, heq⟩ := List.mem_map.mp haddr
          have hne := List.find?_eq_none.mp hfind ifp hifp
          exact hne (by simpa [igmpInterfaceCreate] using heq)

theorem igmprtInterfaceAdd_groups (ds : List Device) (h : ∀ i ∈ ifs, i.groups = []) :
    ∀ i ∈ ds.foldl igmprtInterfaceAdd ifs, i.groups = [] := by
  induction ds generalizing ifs with
  | nil => exact h
  | cons d rest ih =>
      apply ih
      intro i hi
      unfold igmprtInterfaceAdd at hi
      split at hi
      · exact h i hi
      · rcases List.mem_cons.mp hi with rfl | hi
        · rfl
        · exact h i hi

theorem start_groups (up : Nat → String) (ifl : Devices) :
    ∀ i ∈ (start up ifl).interfaces, i.groups = [] :=
  igmprtInterfaceAdd_groups ifl.list fun _ hi => (by cases hi)

theorem start_index_nodup (up : Nat → String) (ifl : Devices) :
    ((start up ifl).interfaces.map Interface.index).Nodup :=
  igmprtInterfaceAdd_labels (fun _ => rfl) ifl.list List.nodup_nil ifl.index_nodup
    fun _ _ h => (by cases h)

theorem Shape.start (up : Nat → String) (ifl : Devices) : Shape (start up ifl).interfaces := by
  refine ⟨igmprtInterfaceAdd_addrs ifl.list List.nodup_nil, ?_, ?_, ?_⟩
  · exact igmprtInterfaceAdd_labels (fun _ => rfl) ifl.list List.nodup_nil ifl.name_nodup
      fun _ _ h => (by cases h)
  · intro u hu _
    exact start_groups up ifl u hu
  · intro d hd
    rw [Interface.groupAddrs, start_groups up ifl d hd]
    exact List.nodup_nil

/-! ## Adding a group -/

theorem updateInterface_map {β : Type} {label : Interface → β} {f : Interface → Interface}
    (hf : ∀ i, label (f i) = label i) (ifs : List Interface) (ifaddr : Addr) :
    (updateInterface ifs ifaddr f).map label = ifs.map label := by
  rw [updateInterface, List.map_map]
  refine List.map_congr_left fun i _ => ?_
  simp only [Function.comp_apply]
  split
  · exact hf i
  · rfl

section Addition

variable {ifp : Interface} {group : Addr} (hshape : Shape ifs) (hifp : ifp ∈ ifs)
include hshape hifp

theorem mem_updateInterface {f : Interface → Interface} {i' : Interface} :
    i' ∈ updateInterface ifs ifp.addr f ↔ i' = f ifp ∨ (i' ∈ ifs ∧ i' ≠ ifp) := by
  constructor
  · intro h
    obtain ⟨i, hi, rfl⟩ := List.mem_map.mp h
    by_cases haddr : i.addr = ifp.addr
    · obtain rfl := List.inj_on_of_nodup_map hshape.addr_nodup hi hifp haddr
      exact .inl (if_pos rfl)
    · rw [if_neg haddr]
      exact .inr ⟨hi, fun heq => haddr (heq ▸ rfl)⟩
  · rintro (rfl | ⟨hi, hne⟩)
    · exact List.mem_map.mpr ⟨ifp, hifp, if_pos rfl⟩
    · refine List.mem_map.mpr ⟨i', hi, if_neg fun haddr => hne ?_⟩
      exact List.inj_on_of_nodup_map hshape.addr_nodup hi hifp haddr

theorem SamePorts.updateInterface {f : Interface → Interface} (hf : (f ifp).port = ifp.port) :
    SamePorts ifs (updateInterface ifs ifp.addr f) := by
  refine SamePorts.map ?_
  intro i hi
  split
  · rename_i haddr
    obtain rfl := List.inj_on_of_nodup_map hshape.addr_nodup hi hifp haddr
    exact hf
  · rfl

variable (hdown : ifp.type = .downstream)
include hdown

theorem mem_linkGroup_upstream {u : Interface} (htype : u.type = .upstream) :
    u ∈ updateInterface ifs ifp.addr (Interface.linkGroup group) ↔ u ∈ ifs := by
  have hne : ∀ {i : Interface}, i.type = .downstream → u ≠ i := by
    rintro i hi rfl
    rw [htype] at hi
    cases hi
  rw [mem_updateInterface hshape hifp]
  constructor
  · rintro (heq | ⟨hu, -⟩)
    · exact absurd heq (hne hdown)
    · exact hu
  · exact fun hu => .inr ⟨hu, hne hdown⟩

theorem present_linkGroup {g : Addr} :
    Present (updateInterface ifs ifp.addr (Interface.linkGroup group)) g ↔
      Present ifs g ∨ g = group := by
  constructor
  · rintro ⟨d, hd, htype, hg⟩
    rcases (mem_updateInterface hshape hifp).mp hd with rfl | ⟨hmem, -⟩
    · rcases List.mem_cons.mp hg with rfl | hg
      · exact .inr rfl
      · exact .inl ⟨ifp, hifp, hdown, hg⟩
    · exact .inl ⟨d, hmem, htype, hg⟩
  · rintro (⟨d, hd, htype, hg⟩ | rfl)
    · by_cases heq : d = ifp
      · subst heq
        exact ⟨d.linkGroup group, (mem_updateInterface hshape hd).mpr (.inl rfl), hdown,
          List.mem_cons_of_mem _ hg⟩
      · exact ⟨d, (mem_updateInterface hshape hifp).mpr (.inr ⟨hd, heq⟩), htype, hg⟩
    · exact ⟨ifp.linkGroup g, (mem_updateInterface hshape hifp).mpr (.inl rfl), hdown,
        List.mem_cons_self⟩

theorem Shape.linkGroup (hnew : group ∉ ifp.groupAddrs) :
    Shape (updateInterface ifs ifp.addr (Interface.linkGroup group)) := by
  refine ⟨?_, ?_, ?_, ?_⟩
  · rw [updateInterface_map]
    · exact hshape.addr_nodup
    · exact fun _ => rfl
  · rw [updateInterface_map]
    · exact hshape.name_nodup
    · exact fun _ => rfl
  · intro u hu htype
    exact hshape.upstream_empty u ((mem_linkGroup_upstream hshape hifp hdown htype).mp hu) htype
  · intro d hd
    rcases (mem_updateInterface hshape hifp).mp hd with rfl | ⟨hmem, -⟩
    · exact List.nodup_cons.mpr ⟨hnew, hshape.groups_nodup ifp hifp⟩
    · exact hshape.groups_nodup d hmem

end Addition

/-! ## Giving up groups -/

section Removal

variable {κ : Type} (act : Group → Option Group) (gone : κ → Group → κ)
  (visit : Interface → Interface)

def givenUp (ifs : List Interface) : List Group :=
  ifs.flatMap fun ifp =>
    if ifp.type = .downstream then ifp.groups.filter fun gp => (act gp).isNone else []

def cleared (ifp : Interface) : Interface :=
  if ifp.type = .downstream then { visit ifp with groups := ifp.groups.filterMap act } else ifp

theorem walkGroups_eq (k : κ) (l : List Group) :
    walkGroups act gone k l =
      ((l.filter fun gp => (act gp).isNone).foldl gone k, l.filterMap act) := by
  induction l generalizing k with
  | nil => rfl
  | cons gp rest ih =>
      cases hact : act gp with
      | some gp' => simp [walkGroups, hact, ih]
      | none => simp [walkGroups, hact, ih]

theorem visitDownstream_eq {body : κ → Interface → κ × Interface}
    (hbody : ∀ k ifp, ifp.type = .downstream →
      body k ifp = ((ifp.groups.filter fun gp => (act gp).isNone).foldl gone k,
        cleared act visit ifp))
    (k : κ) (ifs : List Interface) :
    visitDownstream body k ifs =
      ((givenUp act ifs).foldl gone k, ifs.map (cleared act visit)) := by
  induction ifs generalizing k with
  | nil => rfl
  | cons ifp rest ih =>
      by_cases hdown : ifp.type = .downstream
      · simp only [visitDownstream, if_pos hdown, hbody k ifp hdown, ih, givenUp,
          List.flatMap_cons, List.foldl_append, List.map_cons]
      · simp [visitDownstream, hdown, ih, givenUp, cleared]

/-- A walk changes neither the address of a group nor the identity of an interface. -/
structure Keeps : Prop where
  group : ∀ {gp gp'}, act gp = some gp' → gp'.addr = gp.addr
  addr : ∀ ifp, (visit ifp).addr = ifp.addr
  name : ∀ ifp, (visit ifp).name = ifp.name
  type : ∀ ifp, (visit ifp).type = ifp.type

variable {act visit} (hk : Keeps act visit)
include hk

theorem filterMap_addrs (l : List Group) :
    (l.filterMap act).map Group.addr = (l.filter fun gp => (act gp).isSome).map Group.addr := by
  induction l with
  | nil => rfl
  | cons gp rest ih =>
      cases hact : act gp with
      | some gp' => simp [hact, ih, hk.group hact]
      | none => simp [hact, ih]

theorem cleared_addr (ifp : Interface) : (cleared act visit ifp).addr = ifp.addr := by
  unfold cleared
  split
  · exact hk.addr ifp
  · rfl

theorem cleared_name (ifp : Interface) : (cleared act visit ifp).name = ifp.name := by
  unfold cleared
  split
  · exact hk.name ifp
  · rfl

theorem cleared_type (ifp : Interface) : (cleared act visit ifp).type = ifp.type := by
  unfold cleared
  split
  · exact hk.type ifp
  · rfl

theorem cleared_groupAddrs {ifp : Interface} (h : ifp.type = .downstream) :
    (cleared act visit ifp).groupAddrs =
      (ifp.groups.filter fun gp => (act gp).isSome).map Group.addr := by
  rw [cleared, if_pos h, Interface.groupAddrs]
  exact filterMap_addrs hk ifp.groups

theorem mem_cleared {ifp : Interface} (h : ifp.type = .downstream) {group : Addr} :
    group ∈ (cleared act visit ifp).groupAddrs ↔
      ∃ gp ∈ ifp.groups, gp.addr = group ∧ act gp ≠ none := by
  rw [cleared_groupAddrs hk h, List.mem_map]
  constructor
  · rintro ⟨gp, hgp, haddr⟩
    obtain ⟨hmem, hsome⟩ := List.mem_filter.mp hgp
    exact ⟨gp, hmem, haddr, Option.isSome_iff_ne_none.mp hsome⟩
  · rintro ⟨gp, hmem, haddr, hsome⟩
    exact ⟨gp, List.mem_filter.mpr ⟨hmem, Option.isSome_iff_ne_none.mpr hsome⟩, haddr⟩

theorem cleared_subset {ifp : Interface} {group : Addr}
    (h : group ∈ (cleared act visit ifp).groupAddrs) : group ∈ ifp.groupAddrs := by
  by_cases hdown : ifp.type = .downstream
  · obtain ⟨gp, hmem, haddr, -⟩ := (mem_cleared hk hdown).mp h
    exact List.mem_map.mpr ⟨gp, hmem, haddr⟩
  · rwa [cleared, if_neg hdown] at h

theorem Shape.cleared (h : Shape ifs) : Shape (ifs.map (cleared act visit)) := by
  refine ⟨?_, ?_, ?_, ?_⟩
  · rw [List.map_map]
    exact (List.map_congr_left fun ifp _ => cleared_addr hk ifp) ▸ h.addr_nodup
  · rw [List.map_map]
    exact (List.map_congr_left fun ifp _ => cleared_name hk ifp) ▸ h.name_nodup
  · intro u hu htype
    obtain ⟨ifp, hifp, rfl⟩ := List.mem_map.mp hu
    rw [cleared_type hk] at htype
    rw [Igmp.cleared, if_neg (by simp [htype])]
    exact h.upstream_empty ifp hifp htype
  · intro d hd
    obtain ⟨ifp, hifp, rfl⟩ := List.mem_map.mp hd
    by_cases hdown : ifp.type = .downstream
    · rw [cleared_groupAddrs hk hdown]
      exact (h.groups_nodup ifp hifp).sublist (List.filter_sublist.map Group.addr)
    · rw [Igmp.cleared, if_neg hdown]
      exact h.groups_nodup ifp hifp

omit hk in
theorem mem_givenUp {group : Addr} :
    group ∈ (givenUp act ifs).map Group.addr ↔
      ∃ d ∈ ifs, d.type = .downstream ∧ ∃ gp ∈ d.groups, gp.addr = group ∧ act gp = none := by
  constructor
  · intro h
    obtain ⟨gp, hgp, haddr⟩ := List.mem_map.mp h
    obtain ⟨d, hd, hmem⟩ := List.mem_flatMap.mp hgp
    by_cases hdown : d.type = .downstream
    · rw [if_pos hdown, List.mem_filter] at hmem
      exact ⟨d, hd, hdown, gp, hmem.1, haddr, Option.isNone_iff_eq_none.mp hmem.2⟩
    · rw [if_neg hdown] at hmem
      cases hmem
  · rintro ⟨d, hd, hdown, gp, hgp, haddr, hnone⟩
    refine List.mem_map.mpr ⟨gp, List.mem_flatMap.mpr ⟨d, hd, ?_⟩, haddr⟩
    rw [if_pos hdown, List.mem_filter]
    exact ⟨hgp, Option.isNone_iff_eq_none.mpr hnone⟩

end Removal

end Xwr100.Igmp
