import Xwr100.Igmp.Tables

/-!
# The upstream side mirrors the downstream tables

A group that is new in some downstream table is joined on every upstream interface, with a
rule for each.  A group that leaves some downstream table is dropped on every upstream
interface, but only the rule for the first configured one is deleted.  The two match as long
as no two downstream tables share a group and no group leaves a table while there is another
upstream interface.
-/

namespace Xwr100.Igmp

open Lib Router

variable {ifs : List Interface} {r : Router} {k k' : Kernel}

def Proxied (group : Addr) : Prop := inMulticast group = true ∧ validAddr group = true

instance (group : Addr) : Decidable (Proxied group) := inferInstanceAs (Decidable (_ ∧ _))

/-- For every proxied group and upstream interface: the membership is held iff some downstream
table has the group, and there is one rule in that case and none otherwise. -/
def MirrorsIn (ifs : List Interface) (k : Kernel) : Prop :=
  ∀ group, Proxied group → ∀ u ∈ ifs, u.type = .upstream →
    ((group, u.addr) ∈ k.memberships ↔ Present ifs group) ∧
    k.forward.count (u.name, group) = if Present ifs group then 1 else 0

def Mirrors (r : Router) : Prop := MirrorsIn r.interfaces r.kernel

/-- Every upstream interface is the first configured one. -/
def Covered (r : Router) : Prop :=
  ∀ u ∈ r.interfaces, u.type = .upstream → u.name = r.upstreamInterface 0

/-- No two downstream tables share a proxied group, if there is an upstream interface. -/
def Unshared (ifs : List Interface) : Prop :=
  ∀ u ∈ ifs, u.type = .upstream → ∀ group, Proxied group →
    ∀ d ∈ ifs, d.type = .downstream → group ∈ d.groupAddrs →
    ∀ d' ∈ ifs, d'.type = .downstream → group ∈ d'.groupAddrs → d.addr = d'.addr

/-! ## Joining upstream -/

/-- The kernel state after joining `group` on the upstream interfaces of a list. -/
structure Joined (group : Addr) (ifs : List Interface) (k k' : Kernel) : Prop where
  memberships : ∀ g a, (g, a) ∈ k'.memberships ↔
    (g, a) ∈ k.memberships ∨ (g = group ∧ ∃ u ∈ ifs, u.type = .upstream ∧ u.addr = a)
  forward : k'.forward =
    ((ifs.filter fun u => u.type = .upstream).map fun u => (u.name, group) : List _) + k.forward

theorem Joined.nil (group : Addr) : Joined group [] k k := ⟨by simp, by simp⟩

theorem joinUpstream_downstream {group : Addr} {ifp : Interface} (h : ifp.type = .downstream) :
    joinUpstream ifs group k ifp = k := by
  simp [joinUpstream, h]

theorem joinUpstream_invalid {group : Addr} (h : validAddr group = false) (ifp : Interface) :
    joinUpstream ifs group k ifp = k := by
  simp [joinUpstream, h]

/-- The check of the upstream interface's own table always lets the join through. -/
theorem joinUpstream_upstream {group : Addr} (hshape : Shape ifs) (hvalid : validAddr group = true)
    {u : Interface} (hu : u ∈ ifs) (htype : u.type = .upstream) :
    joinUpstream ifs group k u = (k.addMembership group u.addr).insertRule u.name group := by
  have hempty : u.groupLookup group = none := by
    rw [groupLookup_eq_none, Interface.groupAddrs, hshape.upstream_empty u hu htype]
    exact List.not_mem_nil
  simp [joinUpstream, htype, hvalid, interfaceLookup_self hshape.addr_nodup hu, hempty]

theorem Joined.foldl {group : Addr} (hshape : Shape ifs) (hvalid : validAddr group = true)
    (l : List Interface) (hl : ∀ ifp ∈ l, ifp ∈ ifs) (k : Kernel) :
    Joined group l k (l.foldl (joinUpstream ifs group) k) := by
  induction l generalizing k with
  | nil => exact Joined.nil group
  | cons ifp rest ih =>
      have hrest := ih (fun i hi => hl i (List.mem_cons_of_mem _ hi))
      rw [List.foldl_cons]
      cases htype : ifp.type with
      | downstream =>
          rw [joinUpstream_downstream htype]
          refine ⟨?_, ?_⟩
          · intro g a
            rw [(hrest k).memberships]
            simp [htype]
          · rw [(hrest k).forward]
            simp [htype]
      | upstream =>
          rw [joinUpstream_upstream hshape hvalid (hl ifp List.mem_cons_self) htype]
          refine ⟨?_, ?_⟩
          · intro g a
            rw [(hrest _).memberships]
            simp only [Kernel.insertRule, Kernel.addMembership, Finset.mem_insert, Prod.mk.injEq,
              List.mem_cons, exists_eq_or_imp, htype, true_and]
            grind
          · rw [(hrest _).forward]
            simp [Kernel.insertRule, Kernel.addMembership, htype, ← Multiset.cons_coe]

/-- One rule for each upstream interface, since no two have the same name. -/
theorem Joined.count {group : Addr} (h : Joined group ifs k k') (hshape : Shape ifs)
    {u : Interface} (hu : u ∈ ifs) (htype : u.type = .upstream) (g : Addr) :
    k'.forward.count (u.name, g) = k.forward.count (u.name, g) + if g = group then 1 else 0 := by
  rw [h.forward, Multiset.count_add, Nat.add_comm]
  congr 1
  have hnames : ((ifs.filter fun u => u.type = .upstream).map Interface.name).Nodup :=
    hshape.name_nodup.sublist (List.filter_sublist.map _)
  by_cases hg : g = group
  · subst hg
    rw [if_pos rfl]
    refine Multiset.count_eq_one_of_mem (Multiset.coe_nodup.mpr ?_) (Multiset.mem_coe.mpr ?_)
    · have hpairs : (((ifs.filter fun u => u.type = .upstream).map Interface.name).map
          fun n => (n, g)).Nodup :=
        hnames.map fun a b hab => congrArg Prod.fst hab
      rwa [List.map_map] at hpairs
    · exact List.mem_map.mpr ⟨u, List.mem_filter.mpr ⟨hu, by simp [htype]⟩, rfl⟩
  · rw [if_neg hg, Multiset.count_eq_zero]
    intro hmem
    obtain ⟨v, -, heq⟩ := List.mem_map.mp (Multiset.mem_coe.mp hmem)
    exact hg (congrArg Prod.snd heq).symm

/-! ## A group enters a table -/

section Addition

variable {ifp : Interface} {group : Addr} (hshape : Shape ifs) (hifp : ifp ∈ ifs)
  (hdown : ifp.type = .downstream)
include hshape hifp hdown

theorem Unshared.linkGroup (h : Unshared ifs) (hfree : (∃ u ∈ ifs, u.type = .upstream) →
      Proxied group → ¬Present ifs group) :
    Unshared (updateInterface ifs ifp.addr (Interface.linkGroup group)) := by
  intro u hu hutype g hg d hd hdtype hdg d' hd' hdtype' hdg'
  rw [mem_linkGroup_upstream hshape hifp hdown hutype] at hu
  -- a table of another interface that has the group would have had it before
  have hother : ∀ e ∈ ifs, e.type = .downstream → g ∈ e.groupAddrs →
      g ∈ (ifp.linkGroup group).groupAddrs → ifp.addr = e.addr := by
    intro e he hetype heg hnew
    rcases List.mem_cons.mp hnew with rfl | hold
    · exact absurd ⟨e, he, hetype, heg⟩ (hfree ⟨u, hu, hutype⟩ hg)
    · exact h u hu hutype g hg ifp hifp hdown hold e he hetype heg
  rcases (mem_updateInterface hshape hifp).mp hd with rfl | ⟨hmem, -⟩
  · rcases (mem_updateInterface hshape hifp).mp hd' with rfl | ⟨hmem', -⟩
    · rfl
    · exact hother d' hmem' hdtype' hdg' hdg
  · rcases (mem_updateInterface hshape hifp).mp hd' with rfl | ⟨hmem', -⟩
    · exact (hother d hmem hdtype hdg hdg').symm
    · exact h u hu hutype g hg d hmem hdtype hdg d' hmem' hdtype' hdg'

/-- A new entry keeps the mirror exactly if no other table has the group: the memberships
are there already then, but each rule is inserted once more. -/
theorem linkGroup_mirrors_iff (hmir : MirrorsIn ifs k) (hnew : group ∉ ifp.groupAddrs)
    {ifs' : List Interface}
    (hifs : ifs' = updateInterface ifs ifp.addr (Interface.linkGroup group)) :
    MirrorsIn ifs' (ifs'.foldl (joinUpstream ifs' group) k) ↔
      ((∃ u ∈ ifs, u.type = .upstream) → Proxied group → ¬Present ifs group) := by
  have hshape' : Shape ifs' := hifs ▸ hshape.linkGroup hifp hdown hnew
  have hup : ∀ {u : Interface}, u.type = .upstream → (u ∈ ifs' ↔ u ∈ ifs) := fun htype =>
    hifs ▸ mem_linkGroup_upstream hshape hifp hdown htype
  have hpresent : ∀ {g}, Present ifs' g ↔ Present ifs g ∨ g = group :=
    hifs ▸ present_linkGroup hshape hifp hdown
  constructor
  · rintro h ⟨u, hu, htype⟩ hgroup hold
    have hjoin := Joined.foldl hshape' hgroup.2 ifs' (fun _ hi => hi) k
    have hcount := (h group hgroup u ((hup htype).mpr hu) htype).2
    rw [hjoin.count hshape' ((hup htype).mpr hu) htype, (hmir group hgroup u hu htype).2,
      if_pos hold, if_pos rfl, if_pos (hpresent.mpr (.inr rfl))] at hcount
    exact absurd hcount (by decide)
  · intro hfree g hg u hu' htype
    have hu := (hup htype).mp hu'
    obtain ⟨hmem, hcount⟩ := hmir g hg u hu htype
    by_cases hvalid : validAddr group = true
    · have hjoin := Joined.foldl hshape' hvalid ifs' (fun _ hi => hi) k
      rw [hjoin.memberships, hjoin.count hshape' hu' htype, hmem, hcount]
      by_cases heq : g = group
      · subst heq
        have habsent := hfree ⟨u, hu, htype⟩ hg
        rw [if_neg habsent, if_pos rfl, if_pos (hpresent.mpr (.inr rfl))]
        exact ⟨iff_of_true (.inr ⟨rfl, u, hu', htype, rfl⟩) (hpresent.mpr (.inr rfl)), rfl⟩
      · have hsame : Present ifs' g ↔ Present ifs g := hpresent.trans (or_iff_left heq)
        simp only [hsame, if_neg heq, Nat.add_zero, and_true]
        exact or_iff_left fun hg => heq hg.1
    · have hkept : ifs'.foldl (joinUpstream ifs' group) k = k :=
        List.foldl_fixed' (joinUpstream_invalid (Bool.eq_false_iff.mpr hvalid)) ifs'
      have heq : g ≠ group := fun heq => hvalid (heq ▸ hg.2)
      have hsame : Present ifs' g ↔ Present ifs g := hpresent.trans (or_iff_left heq)
      simp only [hkept, hsame]
      exact ⟨hmem, hcount⟩

end Addition

/-! ## Dropping upstream -/

/-- The kernel state after the groups in the list were cleaned up and dropped upstream. -/
structure Withdrawn (up : String) (ifs : List Interface) (groups : List Addr) (k k' : Kernel) :
    Prop where
  memberships : ∀ g a, (g, a) ∈ k'.memberships ↔ (g, a) ∈ k.memberships ∧
    ¬(g ∈ groups ∧ validAddr g = true ∧ ∃ u ∈ ifs, u.type = .upstream ∧ u.addr = a)
  forward : ∀ n g, k'.forward.count (n, g) =
    k.forward.count (n, g) - if n = up then groups.count g else 0

theorem dropUpstream_forward (ifs : List Interface) (group : Addr) (k : Kernel) :
    (dropUpstream ifs group k).forward = k.forward := by
  unfold dropUpstream
  induction ifs generalizing k with
  | nil => rfl
  | cons ifp rest ih =>
      rw [List.foldl_cons, ih]
      split
      · rfl
      · rfl

theorem dropUpstream_memberships (ifs : List Interface) (group : Addr) (k : Kernel) (g a : Addr) :
    (g, a) ∈ (dropUpstream ifs group k).memberships ↔ (g, a) ∈ k.memberships ∧
      ¬(g = group ∧ validAddr g = true ∧ ∃ u ∈ ifs, u.type = .upstream ∧ u.addr = a) := by
  unfold dropUpstream
  induction ifs generalizing k with
  | nil => simp
  | cons ifp rest ih =>
      rw [List.foldl_cons, ih]
      split
      · simp only [Kernel.dropMembership, Finset.mem_erase, ne_eq, Prod.mk.injEq, List.mem_cons,
          exists_eq_or_imp]
        grind
      · simp only [List.mem_cons, exists_eq_or_imp]
        grind

theorem deleteRule_count (up : String) (group : Addr) (k : Kernel) (n : String) (g : Addr) :
    (k.deleteRule up group).forward.count (n, g) =
      k.forward.count (n, g) - if n = up ∧ g = group then 1 else 0 := by
  by_cases h : n = up ∧ g = group
  · obtain ⟨rfl, rfl⟩ := h
    simp [Kernel.deleteRule, Multiset.count_erase_self]
  · have hne : (n, g) ≠ (up, group) := by simpa using h
    simp [Kernel.deleteRule, Multiset.count_erase_of_ne hne, h]

theorem Withdrawn.timer (r : Router) (l : List Group) (k : Kernel) :
    Withdrawn (r.upstreamInterface 0) r.interfaces (l.map Group.addr) k
      (l.foldl (fun k gp => dropUpstream r.interfaces gp.addr (r.groupCleanup k gp.addr)) k) := by
  induction l generalizing k with
  | nil => exact ⟨by simp, by simp⟩
  | cons gp rest ih =>
      rw [List.foldl_cons]
      refine ⟨?_, ?_⟩
      · intro g a
        rw [(ih _).memberships, dropUpstream_memberships, List.map_cons, List.mem_cons]
        simp only [groupCleanup, Kernel.deleteRule]
        grind
      · intro n g
        rw [(ih _).forward, dropUpstream_forward, groupCleanup, deleteRule_count, List.map_cons,
          List.count_cons]
        grind

/-- A leave cleans up in each table and drops the group once, after the walk. -/
theorem leave_walk (r : Router) (l : List Group) {b : Bool} {v : Kernel × Bool}
    (hv : v = l.foldl (fun k gp => (r.groupCleanup k.1 gp.addr, true)) (k, b)) :
    v.2 = (b || !l.isEmpty) ∧ v.1.memberships = k.memberships ∧
    ∀ n g, v.1.forward.count (n, g) = k.forward.count (n, g) -
      if n = r.upstreamInterface 0 then (l.map Group.addr).count g else 0 := by
  induction l generalizing k b with
  | nil => simp [hv]
  | cons gp rest ih =>
      rw [List.foldl_cons] at hv
      obtain ⟨hflag, hmem, hcount⟩ := ih hv
      refine ⟨by simp [hflag], by rw [hmem]; rfl, ?_⟩
      intro n g
      rw [hcount, groupCleanup, deleteRule_count, List.map_cons, List.count_cons]
      grind

theorem Withdrawn.leave {ifs' : List Interface} {group : Addr} (r : Router) {l : List Group}
    (hl : ∀ gp ∈ l, gp.addr = group)
    (hup : ∀ a, (∃ u ∈ ifs', u.type = .upstream ∧ u.addr = a) ↔
      ∃ u ∈ r.interfaces, u.type = .upstream ∧ u.addr = a)
    {v : Kernel × Bool}
    (hv : v = l.foldl (fun k gp => (r.groupCleanup k.1 gp.addr, true)) (k, false)) :
    Withdrawn (r.upstreamInterface 0) r.interfaces (l.map Group.addr) k
      (if v.2 then dropUpstream ifs' group v.1 else v.1) := by
  obtain ⟨hflag, hmem, hcount⟩ := leave_walk r l hv
  cases l with
  | nil =>
      simp only [List.isEmpty_nil, Bool.not_true, Bool.or_self] at hflag
      rw [hflag, if_neg Bool.false_ne_true]
      exact ⟨by simp [hmem], hcount⟩
  | cons gp rest =>
      simp only [List.isEmpty_cons, Bool.not_false, Bool.or_true] at hflag
      rw [hflag, if_pos rfl]
      have hall : ∀ g, g ∈ (gp :: rest).map Group.addr ↔ g = group := by
        intro g
        constructor
        · intro hg
          obtain ⟨gp', hgp', rfl⟩ := List.mem_map.mp hg
          exact hl gp' hgp'
        · rintro rfl
          exact List.mem_map.mpr ⟨gp, List.mem_cons_self, hl gp List.mem_cons_self⟩
      refine ⟨?_, ?_⟩
      · intro g a
        rw [dropUpstream_memberships, hmem, hall, hup]
      · intro n g
        rw [dropUpstream_forward]
        exact hcount n g

/-! ## A group leaves a table -/

section Removal

variable {act : Group → Option Group} {visit : Interface → Interface} {up : String}
  (hk : Keeps act visit)
include hk

theorem Unshared.cleared (h : Unshared ifs) : Unshared (ifs.map (cleared act visit)) := by
  intro u hu hutype group hgroup d hd hdtype hdgroup d' hd' hdtype' hdgroup'
  obtain ⟨v, hv, rfl⟩ := List.mem_map.mp hu
  obtain ⟨e, he, rfl⟩ := List.mem_map.mp hd
  obtain ⟨e', he', rfl⟩ := List.mem_map.mp hd'
  rw [cleared_type hk] at hutype hdtype hdtype'
  rw [cleared_addr hk, cleared_addr hk]
  exact h v hv hutype group hgroup e he hdtype (cleared_subset hk hdgroup) e' he' hdtype'
    (cleared_subset hk hdgroup')

/-- With no other table to hold it, a group that leaves a table is gone. -/
theorem present_cleared (hshape : Shape ifs) (hun : Unshared ifs) {u : Interface} (hu : u ∈ ifs)
    (hutype : u.type = .upstream) {group : Addr} (hgroup : Proxied group) :
    Present (ifs.map (cleared act visit)) group ↔
      Present ifs group ∧ group ∉ (givenUp act ifs).map Group.addr := by
  constructor
  · rintro ⟨d', hd', hdtype, hdgroup⟩
    obtain ⟨d, hd, rfl⟩ := List.mem_map.mp hd'
    rw [cleared_type hk] at hdtype
    have hmem := cleared_subset hk hdgroup
    refine ⟨⟨d, hd, hdtype, hmem⟩, ?_⟩
    intro hgone
    obtain ⟨e, he, hetype, gp, hgp, haddr, hnone⟩ := mem_givenUp.mp hgone
    have hsame := hun u hu hutype group hgroup d hd hdtype hmem e he hetype
      (List.mem_map.mpr ⟨gp, hgp, haddr⟩)
    obtain rfl := List.inj_on_of_nodup_map hshape.addr_nodup hd he hsame
    obtain ⟨gp', hgp', haddr', hsome⟩ := (mem_cleared hk hdtype).mp hdgroup
    obtain rfl := List.inj_on_of_nodup_map (hshape.groups_nodup d hd) hgp hgp'
      (haddr.trans haddr'.symm)
    exact hsome hnone
  · rintro ⟨⟨d, hd, hdtype, hdgroup⟩, hgone⟩
    obtain ⟨gp, hgp, haddr⟩ := List.mem_map.mp hdgroup
    refine ⟨cleared act visit d, List.mem_map_of_mem hd, (cleared_type hk d).trans hdtype, ?_⟩
    refine (mem_cleared hk hdtype).mpr ⟨gp, hgp, haddr, ?_⟩
    intro hnone
    exact hgone (mem_givenUp.mpr ⟨d, hd, hdtype, gp, hgp, haddr, hnone⟩)

/-- A removal keeps the mirror exactly if the one rule it deletes is the only one there is. -/
theorem cleared_mirrors_iff (hshape : Shape ifs) (hun : Unshared ifs) (hmir : MirrorsIn ifs k)
    (hw : Withdrawn up ifs ((givenUp act ifs).map Group.addr) k k') :
    MirrorsIn (ifs.map (cleared act visit)) k' ↔
      ∀ group, Proxied group → group ∈ (givenUp act ifs).map Group.addr →
        ∀ u ∈ ifs, u.type = .upstream → u.name = up := by
  constructor
  · intro h group hgroup hgone u hu hutype
    have hpresent : Present ifs group := by
      obtain ⟨d, hd, hdtype, gp, hgp, haddr, -⟩ := mem_givenUp.mp hgone
      exact ⟨d, hd, hdtype, List.mem_map.mpr ⟨gp, hgp, haddr⟩⟩
    have hcount := (h group hgroup (cleared act visit u) (List.mem_map_of_mem hu)
      ((cleared_type hk u).trans hutype)).2
    rw [cleared_name hk, hw.forward, (hmir group hgroup u hu hutype).2, if_pos hpresent,
      if_neg fun hp => ((present_cleared hk hshape hun hu hutype hgroup).mp hp).2 hgone] at hcount
    by_contra hne
    rw [if_neg hne] at hcount
    exact absurd hcount Nat.one_ne_zero
  · intro h group hgroup v hv hvtype
    obtain ⟨u, hu, rfl⟩ := List.mem_map.mp hv
    rw [cleared_type hk] at hvtype
    rw [cleared_addr hk, cleared_name hk, hw.memberships, hw.forward,
      (hmir group hgroup u hu hvtype).1, (hmir group hgroup u hu hvtype).2]
    have hiff := present_cleared hk hshape hun hu hvtype hgroup
    by_cases hgone : group ∈ (givenUp act ifs).map Group.addr
    · have habsent : ¬Present (ifs.map (cleared act visit)) group := fun hp => (hiff.mp hp).2 hgone
      have hpos := List.count_pos_iff.mpr hgone
      rw [if_pos (h group hgroup hgone u hu hvtype), if_neg habsent]
      refine ⟨?_, ?_⟩
      · exact iff_of_false (fun hm => hm.2 ⟨hgone, hgroup.2, u, hu, hvtype, rfl⟩) habsent
      · split <;> omega
    · have hsame : Present (ifs.map (cleared act visit)) group ↔ Present ifs group :=
        hiff.trans (and_iff_left hgone)
      rw [List.count_eq_zero.mpr hgone, ite_self, Nat.sub_zero]
      simp only [hsame]
      exact ⟨and_iff_left fun hm => hgone hm.1, trivial⟩

end Removal

end Xwr100.Igmp
