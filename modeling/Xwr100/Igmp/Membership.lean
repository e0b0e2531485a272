import Xwr100.Igmp.Mirror
import Xwr100.Lib.Gaps

/-!
# Who keeps a group in a table

A group is in the table of a downstream interface as long as some host that reported it there
has not left it, and reports of it, by whatever host, have come in time ever since.  Seen from
one table, reports, leaves and seconds act on the one entry of the group; what the entry holds
is read off the history.
-/

namespace Xwr100.Igmp

open Lib Router

variable {ifs ifs' : List Interface} {index : Nat} {group host : Addr} {inputs : List Input}
  {r : Router}

/-! ## Histories -/

/-- The host whose report of the group, of version 1 or 2, arrives at the interface with the
index. -/
def reportOf (index : Nat) (group : Addr) : Input → Option Addr
  | .packet ifIndex src m =>
      if ifIndex = index ∧ 8 ≤ m.len ∧ (m.type = 0x12#8 ∨ m.type = 0x16#8) ∧ m.group = group ∧
          inMulticast group then some src
      else none
  | .tick => none

/-- The host whose leave of the group arrives at some downstream interface. -/
def leaveOf (ifs : List Interface) (group : Addr) : Input → Option Addr
  | .packet ifIndex src m =>
      if (∃ ifp ∈ ifs, ifp.index = ifIndex ∧ ifp.type = .downstream) ∧ 8 ≤ m.len ∧
          m.type = 0x17#8 ∧ m.group = group ∧ inMulticast group then some src
      else none
  | .tick => none

def isReport (index : Nat) (group : Addr) (x : Input) : Bool := (reportOf index group x).isSome

def isTick (x : Input) : Bool := x = .tick

/-- The host reported the group at the interface and has not left it since; and, unless the
group is that of all routers, at no time since then had 260 ticks passed without a report of
it there. -/
def Subscribed (ifs : List Interface) (index : Nat) (group host : Addr) (inputs : List Input) :
    Prop :=
  ∃ before x after, inputs = before ++ x :: after ∧ reportOf index group x = some host ∧
    (∀ y ∈ after, leaveOf ifs group y ≠ some host) ∧
    (group ≠ igmpAllRouters → NeverQuiet (isReport index group) isTick 260 after)

theorem not_subscribed_nil : ¬ Subscribed ifs index group host [] := by
  rintro ⟨before, x, after, heq, -⟩
  simp at heq

/-- A subscription begins with a report and lasts until the host leaves or the reports stop. -/
theorem subscribed_append {x : Input} :
    Subscribed ifs index group host (inputs ++ [x]) ↔
      reportOf index group x = some host ∨
      (Subscribed ifs index group host inputs ∧ leaveOf ifs group x ≠ some host ∧
        (group ≠ igmpAllRouters →
          quietFor (isReport index group) isTick (inputs ++ [x]) < 260)) := by
  constructor
  · rintro ⟨before, y, after, heq, hreport, hstay, hquiet⟩
    have hmark : isReport index group y = true := by simp [isReport, hreport]
    rcases List.eq_nil_or_concat after with rfl | ⟨after, z, rfl⟩
    · have hxy : [x] = [y] := (List.append_inj' heq rfl).2
      rw [List.singleton_inj] at hxy
      exact Or.inl (hxy ▸ hreport)
    · rw [List.concat_eq_append] at heq hstay hquiet
      have hcut : inputs ++ [x] = (before ++ y :: after) ++ [z] := by simpa using heq
      obtain ⟨hin, hxz⟩ := List.append_inj' hcut rfl
      rw [List.singleton_inj] at hxz
      subst hxz
      refine Or.inr ⟨⟨before, y, after, hin, hreport, ?_, ?_⟩, hstay x (by simp), ?_⟩
      · intro w hw
        exact hstay w (by simp [hw])
      · intro hgroup
        exact (neverQuiet_append.mp (hquiet hgroup)).1
      · intro hgroup
        rw [heq, quietFor_after_mark hmark]
        exact (neverQuiet_append.mp (hquiet hgroup)).2
  · rintro (hreport | ⟨⟨before, y, after, rfl, hreport, hstay, hquiet⟩, hleave, hlate⟩)
    · exact ⟨inputs, x, [], rfl, hreport, by simp, fun _ => neverQuiet_nil (by omega)⟩
    · have hmark : isReport index group y = true := by simp [isReport, hreport]
      refine ⟨before, y, after ++ [x], by simp, hreport, ?_, ?_⟩
      · intro w hw
        rcases List.mem_append.mp hw with hw | hw
        · exact hstay w hw
        · rw [List.mem_singleton.mp hw]
          exact hleave
      · intro hgroup
        have hlt := hlate hgroup
        rw [List.append_assoc, List.cons_append, quietFor_after_mark hmark] at hlt
        exact neverQuiet_append.mpr ⟨hquiet hgroup, hlt⟩

/-! ## One entry of a table -/

/-- What an input makes of the entry of the group in the table of the interface. -/
def entryStep (ifs : List Interface) (index : Nat) (group : Addr) (e : Option Group) (x : Input) :
    Option Group :=
  match reportOf index group x with
  | some host => some (refresh host (e.getD ⟨group, 0, []⟩))
  | none =>
      match leaveOf ifs group x with
      | some host => e.bind (leaveGroup host group)
      | none => if x = .tick then e.bind timerGroup else e

/-- An entry as a history leaves it: its members are the subscribers, and its timer is what is
left of 260 ticks since the last report. -/
structure KeptBy (ifs : List Interface) (index : Nat) (group : Addr) (inputs : List Input)
    (gp : Group) : Prop where
  addr : gp.addr = group
  nodup : gp.members.Nodup
  ne_nil : gp.members ≠ []
  mem_iff : ∀ host, host ∈ gp.members ↔ Subscribed ifs index group host inputs
  timer : group ≠ igmpAllRouters →
    1 ≤ gp.timer ∧ gp.timer + quietFor (isReport index group) isTick inputs = 260

/-- There is no entry without a subscriber. -/
def EntryOf (ifs : List Interface) (index : Nat) (group : Addr) (inputs : List Input) :
    Option Group → Prop
  | none => ∀ host, ¬ Subscribed ifs index group host inputs
  | some gp => KeptBy ifs index group inputs gp

theorem leaveOf_eq_none_of_report {x : Input} (h : reportOf index group x = some host) :
    leaveOf ifs group x = none := by
  cases x with
  | tick => rfl
  | packet ifIndex src m =>
      have hcond : ifIndex = index ∧ 8 ≤ m.len ∧ (m.type = 0x12#8 ∨ m.type = 0x16#8) ∧
          m.group = group ∧ inMulticast group := by
        by_contra hnot
        rw [reportOf, if_neg hnot] at h
        cases h
      have htype : m.type ≠ 0x17#8 := by
        rcases hcond.2.2.1 with heq | heq <;> simp [heq]
      rw [leaveOf, if_neg]
      rintro ⟨-, -, hleave, -⟩
      exact htype hleave

theorem EntryOf.report {e : Option Group} {x : Input} (h : EntryOf ifs index group inputs e)
    (hx : reportOf index group x = some host) :
    KeptBy ifs index group (inputs ++ [x]) (refresh host (e.getD ⟨group, 0, []⟩)) := by
  have hquiet : quietFor (isReport index group) isTick (inputs ++ [x]) = 0 :=
    quietFor_append_mark (by simp [isReport, hx]) inputs
  have hsub : ∀ h', Subscribed ifs index group h' (inputs ++ [x]) ↔
      h' = host ∨ Subscribed ifs index group h' inputs := by
    intro h'
    rw [subscribed_append, hx, leaveOf_eq_none_of_report hx, hquiet]
    simp [eq_comm]
  cases e with
  | none =>
      refine ⟨rfl, by simp [refresh], by simp [refresh], ?_, fun _ => by simp [refresh, hquiet]⟩
      intro h'
      rw [hsub]
      simp [refresh, h h']
  | some gp =>
      refine ⟨h.addr, ?_, ?_, ?_, fun _ => by simp [refresh, hquiet]⟩
      · rw [Option.getD_some, refresh]
        dsimp only
        split
        · exact h.nodup
        · rename_i hnew
          exact List.nodup_cons.mpr ⟨hnew, h.nodup⟩
      · rw [Option.getD_some, refresh]
        dsimp only
        split
        · exact h.ne_nil
        · exact List.cons_ne_nil host gp.members
      · intro h'
        rw [hsub, ← h.mem_iff, Option.getD_some, refresh]
        dsimp only
        split
        · rename_i hin
          exact (or_iff_right_of_imp fun heq => heq ▸ hin).symm
        · exact List.mem_cons

/-- A leave takes its host out, and the entry with the last member. -/
theorem EntryOf.leave {e : Option Group} {x : Input} (h : EntryOf ifs index group inputs e)
    (hreport : reportOf index group x = none) (hx : leaveOf ifs group x = some host) :
    EntryOf ifs index group (inputs ++ [x]) (e.bind (leaveGroup host group)) := by
  have htick : isTick x = false := by
    cases x with
    | tick => cases hx
    | packet ifIndex src m => simp [isTick]
  have hquiet : quietFor (isReport index group) isTick (inputs ++ [x]) =
      quietFor (isReport index group) isTick inputs := by
    rw [quietFor_append (by simp [isReport, hreport])]
    simp [htick]
  cases e with
  | none =>
      intro h'
      rw [subscribed_append, hreport]
      simp [h h']
  | some gp =>
      have hsub : ∀ h', h' ∈ gp.members.erase host ↔
          Subscribed ifs index group h' (inputs ++ [x]) := by
        intro h'
        rw [subscribed_append, hreport, hx, hquiet, h.nodup.mem_erase_iff, h.mem_iff]
        constructor
        · rintro ⟨hne, hs⟩
          refine Or.inr ⟨hs, fun heq => hne (Option.some.inj heq).symm, fun hgroup => ?_⟩
          have htimer := h.timer hgroup
          omega
        · rintro (hbad | ⟨hs, hne, -⟩)
          · cases hbad
          · exact ⟨fun heq => hne (by rw [heq]), hs⟩
      by_cases hlast : gp.members.erase host = []
      · have hgone : leaveGroup host group gp = none := leaveGroup_eq_none.mpr ⟨h.addr, hlast⟩
        rw [Option.bind_some, hgone]
        intro h'
        rw [← hsub, hlast]
        simp
      · have hstay : leaveGroup host group gp =
            some { gp with members := gp.members.erase host } := by
          rw [leaveGroup, if_pos h.addr, if_neg]
          exact fun hlen => hlast (List.length_eq_zero_iff.mp hlen)
        rw [Option.bind_some, hstay]
        exact ⟨h.addr, h.nodup.erase host, hlast, hsub, fun hgroup => hquiet ▸ h.timer hgroup⟩

/-- A second runs the timer down, except that of the group of all routers. -/
theorem EntryOf.tick {e : Option Group} (h : EntryOf ifs index group inputs e) :
    EntryOf ifs index group (inputs ++ [.tick]) (e.bind timerGroup) := by
  have hquiet : quietFor (isReport index group) isTick (inputs ++ [.tick]) =
      quietFor (isReport index group) isTick inputs + 1 := quietFor_append rfl inputs
  have hsub : ∀ h', Subscribed ifs index group h' (inputs ++ [.tick]) ↔
      Subscribed ifs index group h' inputs ∧ (group ≠ igmpAllRouters →
        quietFor (isReport index group) isTick inputs + 1 < 260) := by
    intro h'
    rw [subscribed_append, hquiet]
    simp [reportOf, leaveOf]
  cases e with
  | none =>
      intro h'
      rw [hsub]
      simp [h h']
  | some gp =>
      rw [Option.bind_some]
      by_cases hall : group = igmpAllRouters
      · have hkeep : timerGroup gp = some gp := by
          rw [timerGroup, if_pos (h.addr.trans hall)]
        rw [hkeep]
        refine ⟨h.addr, h.nodup, h.ne_nil, fun h' => ?_, fun hgroup => absurd hall hgroup⟩
        rw [h.mem_iff, hsub]
        simp [hall]
      · obtain ⟨hpos, hsum⟩ := h.timer hall
        have haddr : gp.addr ≠ igmpAllRouters := fun heq => hall (h.addr.symm.trans heq)
        by_cases hout : gp.timer ≤ 1
        · have hgone : timerGroup gp = none := timerGroup_eq_none.mpr ⟨haddr, hout⟩
          rw [hgone]
          intro h'
          rw [hsub]
          rintro ⟨-, hlt⟩
          have hlt' := hlt hall
          omega
        · have hkeep : timerGroup gp = some { gp with timer := gp.timer - 1 } := by
            rw [timerGroup, if_neg haddr, if_neg (by omega)]
          rw [hkeep]
          refine ⟨h.addr, h.nodup, h.ne_nil, fun h' => ?_, fun _ => ?_⟩
          · rw [hsub, ← h.mem_iff]
            exact ⟨fun hm => ⟨hm, fun _ => by omega⟩, And.left⟩
          · rw [hquiet]
            dsimp only
            omega

theorem EntryOf.other {e : Option Group} {x : Input} (h : EntryOf ifs index group inputs e)
    (hreport : reportOf index group x = none) (hleave : leaveOf ifs group x = none)
    (htick : x ≠ .tick) : EntryOf ifs index group (inputs ++ [x]) e := by
  have hquiet : quietFor (isReport index group) isTick (inputs ++ [x]) =
      quietFor (isReport index group) isTick inputs := by
    rw [quietFor_append (by simp [isReport, hreport])]
    simp [isTick, htick]
  have hsub : ∀ h', Subscribed ifs index group h' (inputs ++ [x]) ↔
      Subscribed ifs index group h' inputs ∧ (group ≠ igmpAllRouters →
        quietFor (isReport index group) isTick inputs < 260) := by
    intro h'
    rw [subscribed_append, hquiet, hreport, hleave]
    simp
  cases e with
  | none =>
      intro h'
      rw [hsub]
      simp [h h']
  | some gp =>
      refine ⟨h.addr, h.nodup, h.ne_nil, fun h' => ?_, fun hgroup => hquiet ▸ h.timer hgroup⟩
      rw [hsub, ← h.mem_iff]
      refine ⟨fun hm => ⟨hm, fun hgroup => ?_⟩, And.left⟩
      have htimer := h.timer hgroup
      omega

theorem EntryOf.step {e : Option Group} (h : EntryOf ifs index group inputs e) (x : Input) :
    EntryOf ifs index group (inputs ++ [x]) (entryStep ifs index group e x) := by
  unfold entryStep
  cases hreport : reportOf index group x with
  | some host => exact h.report hreport
  | none =>
      cases hleave : leaveOf ifs group x with
      | some host => exact h.leave hreport hleave
      | none =>
          by_cases htick : x = .tick
          · subst htick
            exact h.tick
          · simp only [if_neg htick]
            exact h.other hreport hleave htick

/-! ## Entries in the tables -/

theorem groupLookup_mem {ifp : Interface} (h : ifp.groupAddrs.Nodup) {gp : Group}
    (hgp : gp ∈ ifp.groups) : ifp.groupLookup gp.addr = some gp := by
  cases hfind : ifp.groupLookup gp.addr with
  | none =>
      have hne := List.find?_eq_none.mp hfind gp hgp
      simp at hne
  | some found =>
      have haddr : found.addr = gp.addr := by simpa using List.find?_some hfind
      rw [List.inj_on_of_nodup_map h (List.mem_of_find?_eq_some hfind) hgp haddr]

theorem groupLookup_addr {ifp : Interface} {gp : Group} (h : ifp.groupLookup group = some gp) :
    gp.addr = group := by
  simpa using List.find?_some h

theorem groupLookup_linkGroup (ifp : Interface) (added : Addr) :
    (ifp.linkGroup added).groupLookup group =
      if added = group then some ⟨added, 0, []⟩ else ifp.groupLookup group := by
  unfold Interface.groupLookup Interface.linkGroup
  rw [List.find?_cons]
  by_cases h : added = group <;> simp [h]

theorem groupLookup_updateGroup {f : Group → Group} (hf : ∀ gp, (f gp).addr = gp.addr)
    (ifp : Interface) (changed : Addr) :
    (ifp.updateGroup changed f).groupLookup group =
      if changed = group then (ifp.groupLookup group).map f else ifp.groupLookup group := by
  unfold Interface.groupLookup Interface.updateGroup
  dsimp only
  induction ifp.groups with
  | nil => simp
  | cons gp rest ih =>
      rw [List.map_cons, List.find?_cons, List.find?_cons]
      by_cases hgp : gp.addr = group
      · by_cases hch : changed = group
        · simp [hgp, hch, hf]
        · simp [hgp, hch, Ne.symm hch]
      · have hkeep : (if gp.addr = changed then f gp else gp).addr ≠ group := by
          split
          · rw [hf]
            exact hgp
          · exact hgp
        simp only [hgp, hkeep, decide_false]
        exact ih

theorem refresh_addr (src : Addr) (gp : Group) : (refresh src gp).addr = gp.addr := rfl

theorem groupLookup_cleared {act : Group → Option Group} {visit : Interface → Interface}
    (hk : Keeps act visit) {ifp : Interface} (hdown : ifp.type = .downstream)
    (hnodup : ifp.groupAddrs.Nodup) :
    (cleared act visit ifp).groupLookup group = (ifp.groupLookup group).bind act := by
  rw [cleared, if_pos hdown]
  unfold Interface.groupAddrs at hnodup
  unfold Interface.groupLookup
  dsimp only
  generalize ifp.groups = groups at hnodup ⊢
  induction groups with
  | nil => rfl
  | cons gp rest ih =>
      rw [List.map_cons, List.nodup_cons] at hnodup
      rw [List.find?_cons]
      by_cases hgp : gp.addr = group
      · have hrest : (rest.filterMap act).find? (fun g => g.addr = group) = none := by
          rw [List.find?_eq_none]
          intro g hg
          obtain ⟨g₀, hg₀, hact⟩ := List.mem_filterMap.mp hg
          simp only [decide_eq_true_eq]
          intro heq
          refine hnodup.1 (List.mem_map.mpr ⟨g₀, hg₀, ?_⟩)
          rw [hgp, ← heq, hk.group hact]
        cases hact : act gp with
        | none => simp [hact, hgp, hrest]
        | some gp' => simp [hact, hgp, hk.group hact]
      · simp only [hgp, decide_false]
        rw [← ih hnodup.2]
        cases hact : act gp with
        | none => rw [List.filterMap_cons_none hact]
        | some gp' =>
            rw [List.filterMap_cons_some hact, List.find?_cons]
            simp [hk.group hact, hgp]

structure Moves (ifs : List Interface) (x : Input) (ifs' : List Interface) : Prop where
  shape : Shape ifs'
  entries : ∃ f : Interface → Interface, ifs' = ifs.map f ∧ ∀ d ∈ ifs,
    (f d).index = d.index ∧ (f d).type = d.type ∧
    (d.type = .downstream → ∀ group,
      (f d).groupLookup group = entryStep ifs d.index group (d.groupLookup group) x)

theorem entryStep_other {e : Option Group} {x : Input} (htick : x ≠ .tick)
    (hreport : reportOf index group x = none) (hleave : leaveOf ifs group x = none) :
    entryStep ifs index group e x = e := by
  simp [entryStep, hreport, hleave, htick]

/-- An input that no downstream table takes note of. -/
theorem Moves.unchanged {x : Input} (h : Shape ifs) (htick : x ≠ .tick)
    (hreport : ∀ d ∈ ifs, d.type = .downstream → ∀ group, reportOf d.index group x = none)
    (hleave : ∀ group, leaveOf ifs group x = none) : Moves ifs x ifs := by
  refine ⟨h, id, by simp, fun d hd => ⟨rfl, rfl, fun hdown group => ?_⟩⟩
  exact (entryStep_other htick (hreport d hd hdown group) (hleave group)).symm

theorem reportOf_eq_none_of_type {ifIndex : Nat} {src : Addr} {m : Message}
    (h : ¬ (m.type = 0x12#8 ∨ m.type = 0x16#8)) :
    reportOf index group (.packet ifIndex src m) = none :=
  if_neg fun hc => h hc.2.2.1

theorem leaveOf_eq_none_of_type {ifIndex : Nat} {src : Addr} {m : Message}
    (h : m.type ≠ 0x17#8) : leaveOf ifs group (.packet ifIndex src m) = none :=
  if_neg fun hc => h hc.2.2.1

theorem report_interfaces (r : Router) (ifp : Interface) (src : Addr) (m : Message)
    (hmulti : inMulticast m.group = true) :
    (r.membershipReportV12 ifp src m.group).interfaces =
      updateInterface r.interfaces ifp.addr fun i =>
        (if ifp.groupLookup m.group = none then i.linkGroup m.group else i).updateGroup m.group
          (refresh src) := by
  rw [membershipReportV12, if_pos hmulti, groupAdd]
  cases hlookup : ifp.groupLookup m.group with
  | some gp => simp
  | none =>
      simp only [updateInterface, List.map_map, if_true]
      apply List.map_congr_left
      intro i _
      by_cases haddr : i.addr = ifp.addr
      · simp [haddr, Interface.linkGroup]
      · simp [haddr]

section Packets

variable (h : Shape r.interfaces) (hindex : (r.interfaces.map Interface.index).Nodup)
  {ifp : Interface} (hifp : ifp ∈ r.interfaces) (hdown : ifp.type = .downstream) (src : Addr)
  (m : Message)
include h hifp

theorem Moves.query (ifIndex : Nat) (htype : m.type = 0x11#8) :
    Moves r.interfaces (.packet ifIndex src m) (r.receiveMembershipQuery ifp src).interfaces := by
  have hreport : ¬ (m.type = 0x12#8 ∨ m.type = 0x16#8) := by simp [htype]
  have hleave : m.type ≠ 0x17#8 := by simp [htype]
  unfold receiveMembershipQuery
  split
  · refine ⟨h.of_same (SamePorts.updateInterface h hifp rfl), _, rfl, fun d _ => ?_⟩
    refine ⟨by split <;> rfl, by split <;> rfl, fun _ group => ?_⟩
    rw [entryStep_other (by simp) (reportOf_eq_none_of_type hreport)
      (leaveOf_eq_none_of_type hleave)]
    split <;> rfl
  · exact Moves.unchanged h (by simp) (fun _ _ _ _ => reportOf_eq_none_of_type hreport)
      fun _ => leaveOf_eq_none_of_type hleave

include hdown

theorem Moves.leave (hlen : 8 ≤ m.len) (htype : m.type = 0x17#8) :
    Moves r.interfaces (.packet ifp.index src m)
      (r.membershipLeaveV2 src m.group).interfaces := by
  have hreport : ∀ index group, reportOf index group (.packet ifp.index src m) = none := by
    intro index group
    apply reportOf_eq_none_of_type
    simp [htype]
  by_cases hmulti : inMulticast m.group = true
  · have hifs : (r.membershipLeaveV2 src m.group).interfaces =
        r.interfaces.map (cleared (leaveGroup src m.group) id) := by
      rw [membershipLeaveV2, if_pos hmulti, leave_eq]
    have hk := keeps_leaveGroup src m.group
    rw [hifs]
    refine ⟨h.cleared hk, _, rfl, fun d hd => ⟨?_, cleared_type hk d, fun hd' group => ?_⟩⟩
    · unfold cleared
      split <;> rfl
    · rw [groupLookup_cleared hk hd' (h.groups_nodup d hd)]
      by_cases hgroup : m.group = group
      · subst hgroup
        have hx : leaveOf r.interfaces m.group (.packet ifp.index src m) = some src :=
          if_pos ⟨⟨ifp, hifp, rfl, hdown⟩, hlen, htype, rfl, hmulti⟩
        simp only [entryStep, hreport, hx]
      · have hx : leaveOf r.interfaces group (.packet ifp.index src m) = none :=
          if_neg fun hc => hgroup hc.2.2.2.1
        rw [entryStep_other (by simp) (hreport _ _) hx]
        cases hlookup : d.groupLookup group with
        | none => rfl
        | some gp =>
            have haddr : gp.addr ≠ m.group := by
              rw [groupLookup_addr hlookup]
              exact Ne.symm hgroup
            rw [Option.bind_some, leaveGroup, if_neg haddr]
  · rw [membershipLeaveV2, if_neg hmulti]
    refine Moves.unchanged h (by simp) (fun _ _ _ _ => hreport _ _) fun group => ?_
    apply if_neg
    rintro ⟨-, -, -, rfl, hmulti'⟩
    exact hmulti hmulti'

include hindex

theorem Moves.report (hlen : 8 ≤ m.len) (htype : m.type = 0x12#8 ∨ m.type = 0x16#8) :
    Moves r.interfaces (.packet ifp.index src m)
      (r.membershipReportV12 ifp src m.group).interfaces := by
  have hleave : ∀ group, leaveOf r.interfaces group (.packet ifp.index src m) = none := by
    intro group
    apply leaveOf_eq_none_of_type
    rcases htype with heq | heq <;> simp [heq]
  by_cases hmulti : inMulticast m.group = true
  · have hshape : Shape (r.membershipReportV12 ifp src m.group).interfaces := by
      obtain ⟨hshape', ifp', hifp', haddr⟩ := groupAdd_shape_mem h hifp hdown m.group
      rw [membershipReportV12, if_pos hmulti, ← haddr]
      exact hshape'.of_same (SamePorts.updateInterface hshape' hifp' (refresh_port src _ ifp'))
    refine ⟨hshape, _, report_interfaces r ifp src m hmulti, fun d hd => ?_⟩
    by_cases haddr : d.addr = ifp.addr
    · obtain rfl := List.inj_on_of_nodup_map h.addr_nodup hd hifp haddr
      rw [if_pos rfl]
      refine ⟨by split <;> rfl, by split <;> rfl, fun _ group => ?_⟩
      dsimp only
      rw [groupLookup_updateGroup (refresh_addr src)]
      by_cases hgroup : m.group = group
      · subst hgroup
        have hx : reportOf d.index m.group (.packet d.index src m) = some src :=
          if_pos ⟨rfl, hlen, htype, rfl, hmulti⟩
        rw [if_pos rfl, entryStep, hx]
        cases hlookup : d.groupLookup m.group with
        | none => simp [groupLookup_linkGroup]
        | some gp => simp [hlookup]
      · have hx : reportOf d.index group (.packet d.index src m) = none :=
          if_neg fun hc => hgroup hc.2.2.2.1
        rw [if_neg hgroup, entryStep_other (by simp) hx (hleave group)]
        split
        · rw [groupLookup_linkGroup, if_neg hgroup]
        · rfl
    · have hother : d.index ≠ ifp.index := by
        intro heq
        exact haddr (List.inj_on_of_nodup_map hindex hd hifp heq ▸ rfl)
      rw [if_neg haddr]
      refine ⟨rfl, rfl, fun _ group => ?_⟩
      have hx : reportOf d.index group (.packet ifp.index src m) = none :=
        if_neg fun hc => hother hc.1.symm
      rw [entryStep_other (by simp) hx (hleave group)]
  · rw [membershipReportV12, if_neg hmulti]
    refine Moves.unchanged h (by simp) (fun d _ _ group => ?_) hleave
    apply if_neg
    rintro ⟨-, -, -, rfl, hmulti'⟩
    exact hmulti hmulti'

theorem Moves.message (hlen : 8 ≤ m.len) :
    Moves r.interfaces (.packet ifp.index src m) (r.handleMessage ifp src m).interfaces := by
  have hnot : ¬ ifp.type = .upstream := by simp [hdown]
  unfold handleMessage
  by_cases hquery : m.type = 0x11#8
  · rw [if_pos hquery]
    split
    · exact Moves.query h hifp src m ifp.index hquery
    · refine Moves.unchanged h (by simp) (fun _ _ _ _ => ?_) fun _ => ?_
      · exact reportOf_eq_none_of_type (by simp [hquery])
      · exact leaveOf_eq_none_of_type (by simp [hquery])
  rw [if_neg hquery]
  by_cases hreport : m.type = 0x12#8 ∨ m.type = 0x16#8
  · rw [if_pos hreport, if_neg hnot]
    exact Moves.report h hindex hifp hdown src m hlen hreport
  rw [if_neg hreport]
  by_cases hleave : m.type = 0x17#8
  · rw [if_pos hleave, if_neg hnot]
    exact Moves.leave h hifp hdown src m hlen hleave
  · rw [if_neg hleave]
    exact Moves.unchanged h (by simp) (fun _ _ _ _ => reportOf_eq_none_of_type hreport)
      fun _ => leaveOf_eq_none_of_type hleave

end Packets

theorem Moves.packet (h : Shape r.interfaces)
    (hindex : (r.interfaces.map Interface.index).Nodup) (ifIndex : Nat) (src : Addr)
    (m : Message) :
    Moves r.interfaces (.packet ifIndex src m) (r.igmprtInput ifIndex src m).interfaces := by
  unfold igmprtInput
  by_cases hlen : m.len < 8
  · rw [if_pos hlen]
    exact Moves.unchanged h (by simp) (fun _ _ _ _ => if_neg fun hc => by omega)
      fun _ => if_neg fun hc => by omega
  rw [if_neg hlen]
  -- the packets of an interface that is not downstream reach no table
  have hdeaf : (∀ d ∈ r.interfaces, d.index = ifIndex → d.type ≠ .downstream) →
      Moves r.interfaces (.packet ifIndex src m) r.interfaces := by
    intro hnone
    refine Moves.unchanged h (by simp) (fun d hd hdown _ => ?_) fun _ => ?_
    · exact if_neg fun hc => hnone d hd hc.1.symm hdown
    · apply if_neg
      rintro ⟨⟨d, hd, heq, hdown⟩, -⟩
      exact hnone d hd heq hdown
  cases hfind : interfaceLookupIndex r.interfaces ifIndex with
  | none =>
      apply hdeaf
      intro d hd heq
      have hne := List.find?_eq_none.mp hfind d hd
      simp [heq] at hne
  | some ifp =>
      have hifp : ifp ∈ r.interfaces := List.mem_of_find?_eq_some hfind
      have heq : ifp.index = ifIndex := by simpa using List.find?_some hfind
      by_cases hdown : ifp.type = .downstream
      · simp only [if_pos hdown]
        rw [← heq]
        exact Moves.message h hindex hifp hdown src m (Nat.not_lt.mp hlen)
      · simp only [if_neg hdown]
        apply hdeaf
        intro d hd hd'
        rw [List.inj_on_of_nodup_map hindex hd hifp (hd'.trans heq.symm)]
        exact hdown

theorem Moves.tick (h : Shape r.interfaces) :
    Moves r.interfaces .tick r.igmprtTimer.interfaces := by
  have hifs : r.igmprtTimer.interfaces = r.interfaces.map (cleared timerGroup timerQuerier) := by
    rw [igmprtTimer, timer_eq]
  have hk := keeps_timerGroup
  rw [hifs]
  refine ⟨h.cleared hk, _, rfl, fun d hd => ⟨?_, cleared_type hk d, fun hdown group => ?_⟩⟩
  · unfold cleared timerQuerier
    split
    · dsimp only
      split <;> rfl
    · rfl
  · rw [groupLookup_cleared hk hdown (h.groups_nodup d hd)]
    rfl

theorem Moves.step (h : Shape r.interfaces)
    (hindex : (r.interfaces.map Interface.index).Nodup) (x : Input) :
    Moves r.interfaces x (r.step x).interfaces := by
  cases x with
  | packet ifIndex src m => exact Moves.packet h hindex ifIndex src m
  | tick => exact Moves.tick h

/-! ## Runs -/

/-- The tables after a history that started with the interfaces `ifs`. -/
structure TablesOf (ifs : List Interface) (inputs : List Input) (r : Router) : Prop where
  shape : Shape r.interfaces
  same : r.interfaces.map (fun i => (i.index, i.type)) = ifs.map fun i => (i.index, i.type)
  entries : ∀ d ∈ r.interfaces, d.type = .downstream → ∀ group,
    EntryOf ifs d.index group inputs (d.groupLookup group)

theorem leaveOf_congr
    (h : ifs'.map (fun i => (i.index, i.type)) = ifs.map fun i => (i.index, i.type))
    (group : Addr) (x : Input) : leaveOf ifs' group x = leaveOf ifs group x := by
  cases x with
  | tick => rfl
  | packet ifIndex src m =>
      have hmem : ∀ l : List Interface,
          (∃ ifp ∈ l, ifp.index = ifIndex ∧ ifp.type = .downstream) ↔
            (ifIndex, IfType.downstream) ∈ l.map fun i => (i.index, i.type) := by
        intro l
        simp
      simp only [leaveOf, hmem, h]

theorem entryStep_congr
    (h : ifs'.map (fun i => (i.index, i.type)) = ifs.map fun i => (i.index, i.type))
    (e : Option Group) (x : Input) :
    entryStep ifs' index group e x = entryStep ifs index group e x := by
  simp only [entryStep, leaveOf_congr h]

theorem TablesOf.step (hindex : (ifs.map Interface.index).Nodup) (h : TablesOf ifs inputs r)
    (x : Input) : TablesOf ifs (inputs ++ [x]) (r.step x) := by
  have hindex' : (r.interfaces.map Interface.index).Nodup := by
    have hfst := congrArg (List.map Prod.fst) h.same
    rw [List.map_map, List.map_map] at hfst
    exact (show r.interfaces.map Interface.index = ifs.map Interface.index from hfst) ▸ hindex
  obtain ⟨hshape, f, hmap, hf⟩ := Moves.step h.shape hindex' x
  refine ⟨hshape, ?_, ?_⟩
  · rw [hmap, List.map_map, ← h.same]
    apply List.map_congr_left
    intro d hd
    simp [(hf d hd).1, (hf d hd).2.1]
  · intro d' hd' hdown group
    rw [hmap] at hd'
    obtain ⟨d, hd, rfl⟩ := List.mem_map.mp hd'
    obtain ⟨hidx, htype, hlookup⟩ := hf d hd
    rw [htype] at hdown
    rw [hidx, hlookup hdown, entryStep_congr h.same]
    exact (h.entries d hd hdown group).step x

theorem TablesOf.start (up : Nat → String) (ifl : Devices) :
    TablesOf (start up ifl).interfaces [] (start up ifl) := by
  refine ⟨Shape.start up ifl, rfl, fun d hd hdown group => ?_⟩
  have hnone : d.groupLookup group = none := by
    rw [groupLookup_eq_none]
    intro hmem
    exact absent_start up ifl group ⟨d, hd, hdown, hmem⟩
  rw [hnone]
  exact fun _ => not_subscribed_nil

theorem TablesOf.run (up : Nat → String) (ifl : Devices) (inputs : List Input) :
    TablesOf (Router.start up ifl).interfaces inputs
      (exec Router.step (Router.start up ifl) inputs) := by
  induction inputs using List.reverseRecOn with
  | nil => exact TablesOf.start up ifl
  | append_singleton inputs x ih =>
      rw [exec, List.foldl_append, List.foldl_cons, List.foldl_nil]
      exact ih.step (start_index_nodup up ifl) x

/-- After every run the tables of the downstream interfaces are well formed, and a group is in
one of them if and only if a host subscribes to it there. -/
theorem run_tables (up : Nat → String) (ifl : Devices) (inputs : List Input) :
    ∀ d ∈ (exec Router.step (start up ifl) inputs).interfaces, d.type = .downstream →
      d.groupAddrs.Nodup ∧
      (∀ gp ∈ d.groups, gp.members ≠ [] ∧ gp.members.Nodup ∧
        (gp.addr ≠ igmpAllRouters → 1 ≤ gp.timer ∧ gp.timer ≤ 260)) ∧
      ∀ group, group ∈ d.groupAddrs ↔
        ∃ host, Subscribed (start up ifl).interfaces d.index group host inputs := by
  intro d hd hdown
  have h := TablesOf.run up ifl inputs
  have hnodup := h.shape.groups_nodup d hd
  refine ⟨hnodup, ?_, ?_⟩
  · intro gp hgp
    have hentry := h.entries d hd hdown gp.addr
    rw [groupLookup_mem hnodup hgp] at hentry
    refine ⟨hentry.ne_nil, hentry.nodup, fun haddr => ?_⟩
    have htimer := hentry.timer haddr
    omega
  · intro group
    have hentry := h.entries d hd hdown group
    cases hlookup : d.groupLookup group with
    | none =>
        rw [hlookup] at hentry
        refine iff_of_false (groupLookup_eq_none.mp hlookup) ?_
        rintro ⟨host, hsub⟩
        exact hentry host hsub
    | some gp =>
        rw [hlookup] at hentry
        have hpresent : group ∈ d.groupAddrs := by
          by_contra habsent
          rw [groupLookup_eq_none.mpr habsent] at hlookup
          cases hlookup
        obtain ⟨host, hmem⟩ := List.exists_mem_of_ne_nil _ hentry.ne_nil
        exact iff_of_true hpresent ⟨host, (hentry.mem_iff host).mp hmem⟩

/-- One report, and its group is in the table of the bridge. -/
theorem run_tables_one_report :
    ∃ host, Subscribed (start uplink twoBridges).interfaces 3 0xEF010101#32 host
      [.packet 3 0xC0A8000B#32 (report 0xEF010101#32)] := by
  have hbridge : ∃ d ∈ (exec Router.step (start uplink twoBridges)
      [.packet 3 0xC0A8000B#32 (report 0xEF010101#32)]).interfaces,
      d.type = .downstream ∧ d.index = 3 ∧ 0xEF010101#32 ∈ d.groupAddrs := by decide +kernel
  obtain ⟨d, hd, hdown, hindex, hpresent⟩ := hbridge
  have hiff := (run_tables uplink twoBridges _ d hd hdown).2.2 0xEF010101#32
  rw [hindex] at hiff
  exact hiff.mp hpresent

/-- Some host reported the group at the interface within the last 260 ticks, and not every
host that reported it there has left it since. -/
def RecentlyReported (ifs : List Interface) (index : Nat) (group : Addr) (inputs : List Input) :
    Prop :=
  (∃ before x after, inputs = before ++ x :: after ∧ isReport index group x = true ∧
    after.countP isTick < 260) ∧
  ¬ ∀ host, (∃ x ∈ inputs, reportOf index group x = some host) →
    ∃ before y after, inputs = before ++ y :: after ∧ leaveOf ifs group y = some host ∧
      ∀ x ∈ after, reportOf index group x ≠ some host

def PresentOn (ifs : List Interface) (index : Nat) (group : Addr) : Prop :=
  ∃ d ∈ ifs, d.index = index ∧ d.type = .downstream ∧ group ∈ d.groupAddrs

instance (ifs : List Interface) (index : Nat) (group : Addr) :
    Decidable (PresentOn ifs index group) :=
  inferInstanceAs (Decidable (∃ d ∈ ifs, d.index = index ∧ d.type = .downstream ∧
    group ∈ d.groupAddrs))

def routersReported : List Input :=
  .packet 3 0xC0A8000A#32 (report 0xE0000002#32) :: List.replicate 300 .tick

/-- A host reports 239.1.1.1 and falls silent; another one reports it later and leaves. -/
def reportedTwice : List Input :=
  .packet 3 0xC0A8000A#32 (report 0xEF010101#32) :: (List.replicate 300 .tick ++
    [.packet 3 0xC0A8000B#32 (report 0xEF010101#32),
      .packet 3 0xC0A8000B#32 (leave 0xEF010101#32)])

/-- The group of all routers stays for good; and a host whose report has run out does not keep
in the table what another one reports later and leaves. -/
theorem recentlyReported_not_present :
    ¬ (PresentOn (exec Router.step (Router.main uplink twoBridges) routersReported).interfaces
        3 0xE0000002#32 ↔
      RecentlyReported (Router.main uplink twoBridges).interfaces 3 0xE0000002#32
        routersReported) ∧
    ¬ (PresentOn (exec Router.step (Router.main uplink twoBridges) reportedTwice).interfaces
        3 0xEF010101#32 ↔
      RecentlyReported (Router.main uplink twoBridges).interfaces 3 0xEF010101#32
        reportedTwice) := by
  constructor
  · intro hiff
    obtain ⟨⟨before, x, after, heq, hreport, hcount⟩, -⟩ := hiff.mp (by decide +kernel)
    cases before with
    | nil =>
        obtain ⟨-, rfl⟩ := List.cons.inj heq
        exact absurd hcount (by decide +kernel)
    | cons b before =>
        have hx : x ∈ List.replicate 300 Input.tick := by
          rw [(List.cons.inj heq).2]
          simp
        rw [List.eq_of_mem_replicate hx] at hreport
        cases hreport
  · intro hiff
    have hstay : ∀ y ∈ reportedTwice, leaveOf (Router.main uplink twoBridges).interfaces
        0xEF010101#32 y ≠ some 0xC0A8000A#32 := by decide +kernel
    refine absurd (hiff.mpr ⟨?_, fun hleft => ?_⟩) (by decide +kernel)
    · exact ⟨.packet 3 0xC0A8000A#32 (report 0xEF010101#32) :: List.replicate 300 .tick,
        .packet 3 0xC0A8000B#32 (report 0xEF010101#32),
        [.packet 3 0xC0A8000B#32 (leave 0xEF010101#32)], rfl, by decide, by decide⟩
    · obtain ⟨before, y, after, heq, hleave, -⟩ := hleft 0xC0A8000A#32
        ⟨.packet 3 0xC0A8000A#32 (report 0xEF010101#32), List.mem_cons_self, by decide⟩
      exact hstay y (by simp [heq]) hleave

end Xwr100.Igmp
