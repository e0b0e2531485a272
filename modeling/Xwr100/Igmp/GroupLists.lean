import Xwr100.Igmp.Tables
import Xwr100.Lib.Linked

/-!
# The group lists in memory

The loops of `igmprt_timer_group` and `igmp_interface_membership_leave_v2` over the linked groups
of an interface.  Both read `igmpg_next` of the node that `igmp_group_cleanup` may have freed.
The last section relates them to the group tables of the router.
-/

namespace Xwr100.Igmp

open Lib Lib.Linked

/-- `igmp_group_t` as it lies in memory: the timer is an `int`. -/
structure GroupNode where
  addr : Addr
  timer : Int
  members : List Addr
  deriving DecidableEq, Repr

/-! ## The loops -/

/-- A second of a group's timer in `igmprt_timer_group`: none if the group is cleaned up. -/
def timerNode (gp : GroupNode) : Option GroupNode :=
  if gp.addr = igmpAllRouters then some gp
  else
    let timer := if 0 < gp.timer then gp.timer - 1 else gp.timer
    if timer = 0 then none else some { gp with timer := timer }

/-- What a leave does to a group: none if it is cleaned up. -/
def leaveNode (src group : Addr) (gp : GroupNode) : Option GroupNode :=
  if gp.addr = group then
    if (gp.members.erase src).length = 0 then none
    else some { gp with members := gp.members.erase src }
  else some gp

structure GroupList where
  heap : Heap GroupNode
  head : Option Nat
  nodes : List (Nat × GroupNode)
  linked : IsList heap head nodes

variable (r : Router) (keep : Bool) (fuel : Nat)

def expireGroup (k : Kernel) (gp : GroupNode) : Kernel :=
  Router.dropUpstream r.interfaces gp.addr (r.groupCleanup k gp.addr)

def igmprtTimerGroup (w : Walk GroupNode Kernel) : Option (Outcome (Walk GroupNode Kernel)) :=
  walk keep timerNode (expireGroup r) fuel fuel w w.head

structure IfGroups where
  type : IfType
  head : Option Nat

/-- The variables of the loops of a leave: the interfaces done, the heap, the groups visited, the
kernel and `needdrop`. -/
structure Leave where
  interfaces : List IfGroups
  heap : Heap GroupNode
  visited : List Nat
  acc : Kernel × Bool

def leaveLoop (src group : Addr) : List IfGroups → Leave → Option (Outcome Leave)
  | [], s => some (.returns s)
  | ifi :: rest, s =>
      if ifi.type = .downstream then
        match walk keep (leaveNode src group)
          (fun k gp => (r.groupCleanup k.1 gp.addr, true)) fuel fuel
          ⟨s.heap, ifi.head, s.visited, s.acc⟩ ifi.head with
        | some (.returns w) =>
            leaveLoop src group rest
              ⟨s.interfaces ++ [{ ifi with head := w.head }], w.heap, w.visited, w.acc⟩
        | some .faults => some .faults
        | none => none
      else leaveLoop src group rest { s with interfaces := s.interfaces ++ [ifi] }

/-- The lists of all interfaces, which share no node. -/
structure GroupLists where
  heap : Heap GroupNode
  interfaces : List (IfGroups × List (Nat × GroupNode))
  linked : ∀ x ∈ interfaces, IsList heap x.1.head x.2
  apart : interfaces.Pairwise fun x y => ∀ p ∈ addresses x.2, p ∉ addresses y.2

def igmpInterfaceMembershipLeaveV2 (src group : Addr) (interfaces : List IfGroups)
    (heap : Heap GroupNode) (k : Kernel) : Option (Outcome Leave) :=
  if inMulticast group then
    match leaveLoop r keep fuel src group interfaces ⟨[], heap, [], (k, false)⟩ with
    | some (.returns s) =>
        some (.returns
          (if s.acc.2 then { s with acc := (Router.dropUpstream r.interfaces group s.acc.1, true) }
          else s))
    | some .faults => some .faults
    | none => none
  else some (.returns ⟨interfaces, heap, [], (k, false)⟩)

/-! ## What the loops should do -/

/-- A group other than 224.0.0.2 loses a second, and goes when none is left. -/
def tick (gp : GroupNode) : Option GroupNode :=
  if gp.addr = igmpAllRouters then some gp
  else if gp.timer = 0 ∨ gp.timer = 1 then none
  else some { gp with timer := gp.timer - 1 }

/-- The walk of a tick ends without reading freed memory, visits every node and leaves those whose
timer has not run out. -/
def TimerRight (k : Kernel) (t : GroupList) : Prop :=
  ∃ w, (∀ fuel, t.nodes.length < fuel →
      igmprtTimerGroup r false fuel ⟨t.heap, t.head, [], k⟩ = some (.returns w)) ∧
    w.visited = addresses t.nodes ∧ IsList w.heap w.head (after tick t.nodes)

def walked (x : IfGroups × List (Nat × GroupNode)) : List (Nat × GroupNode) :=
  if x.1.type = .downstream then x.2 else []

def remaining (src group : Addr) (x : IfGroups × List (Nat × GroupNode)) :
    List (Nat × GroupNode) :=
  if x.1.type = .downstream then after (leaveNode src group) x.2 else x.2

/-- A leave of a multicast group ends without reading freed memory, visits every downstream node
and takes out the groups it leaves without members. -/
def LeaveRight (src group : Addr) (k : Kernel) (t : GroupLists) : Prop :=
  inMulticast group = true → ∃ s, (∀ fuel, (∀ x ∈ t.interfaces, x.2.length < fuel) →
      igmpInterfaceMembershipLeaveV2 r false fuel src group (t.interfaces.map Prod.fst) t.heap k =
        some (.returns s)) ∧
    s.visited = t.interfaces.flatMap (fun x => addresses (walked x)) ∧
    List.Forall₂ (fun x ifi => ifi.type = x.1.type ∧ IsList s.heap ifi.head (remaining src group x))
      t.interfaces s.interfaces

/-! ## The timers -/

theorem timerNode_eq_none_iff (gp : GroupNode) :
    timerNode gp = none ↔ gp.addr ≠ igmpAllRouters ∧ (gp.timer = 0 ∨ gp.timer = 1) := by
  unfold timerNode
  by_cases haddr : gp.addr = igmpAllRouters
  · simp [haddr]
  · simp only [haddr, if_false, ne_eq, not_false_eq_true, true_and, ite_eq_left_iff,
      reduceCtorEq, imp_false, not_not]
    split <;> omega

/-- The loop and the clock agree on a timer that is not negative. -/
theorem timerNode_eq_tick_iff {gp : GroupNode} (hstay : timerNode gp ≠ none) :
    timerNode gp = tick gp ↔ gp.addr = igmpAllRouters ∨ 2 ≤ gp.timer := by
  rw [ne_eq, timerNode_eq_none_iff] at hstay
  unfold timerNode tick
  by_cases haddr : gp.addr = igmpAllRouters
  · simp [haddr]
  · have hlive : ¬ (gp.timer = 0 ∨ gp.timer = 1) := fun h => hstay ⟨haddr, h⟩
    by_cases hpos : 0 < gp.timer
    · have hne : gp.timer - 1 ≠ 0 := by omega
      simp only [haddr, hpos, hne, hlive, if_true, if_false, false_or, true_iff]
      omega
    · have hne : gp.timer ≠ 0 := by omega
      constructor
      · intro heq
        rw [if_neg hlive] at heq
        simp only [haddr, hpos, hne, if_false, Option.some.injEq] at heq
        have htimer : gp.timer = gp.timer - 1 := congrArg GroupNode.timer heq
        omega
      · rintro (hrouters | hge)
        · exact absurd hrouters haddr
        · omega

theorem length_after {α : Type} {f : α → Option α} {l : List (Nat × α)}
    (hf : ∀ x ∈ l, f x.2 ≠ none) : (after f l).length = l.length := by
  induction l with
  | nil => rfl
  | cons x l ih =>
      obtain ⟨a, ha⟩ := Option.ne_none_iff_exists'.mp (hf x List.mem_cons_self)
      rw [after_cons_some ha, List.length_cons, List.length_cons,
        ih fun y hy => hf y (List.mem_cons_of_mem _ hy)]

/-- A function that lets every node stay leaves the same list as another one only if they agree
on it. -/
theorem after_eq_iff {α : Type} {f g : α → Option α} {l : List (Nat × α)}
    (hf : ∀ x ∈ l, f x.2 ≠ none) : after f l = after g l ↔ ∀ x ∈ l, f x.2 = g x.2 := by
  induction l with
  | nil => simp [after]
  | cons x l ih =>
      have hrest := ih fun y hy => hf y (List.mem_cons_of_mem _ hy)
      obtain ⟨a, ha⟩ := Option.ne_none_iff_exists'.mp (hf x List.mem_cons_self)
      rw [List.forall_mem_cons, ← hrest, after_cons_some ha, ha]
      cases hg : g x.2 with
      | some b => simp [after_cons_some hg]
      | none =>
          have hlen := length_after (l := l) fun y hy => hf y (List.mem_cons_of_mem _ hy)
          have hle : (after g l).length ≤ l.length := List.length_filterMap_le _ _
          rw [after_cons_none hg]
          constructor
          · intro heq
            have hsame := congrArg List.length heq
            rw [List.length_cons] at hsame
            omega
          · rintro ⟨hnone, -⟩
            cases hnone

theorem timerRight_iff (k : Kernel) (t : GroupList) :
    TimerRight r k t ↔ ∀ x ∈ t.nodes, x.2.addr ≠ igmpAllRouters → 2 ≤ x.2.timer := by
  have hfaults : (∃ x ∈ t.nodes, timerNode x.2 = none) → ∀ fuel, t.nodes.length < fuel →
      igmprtTimerGroup r false fuel ⟨t.heap, t.head, [], k⟩ = some .faults :=
    fun hgone fuel hfuel => walk_faults (expireGroup r) t.linked hgone hfuel
  have hstays : (∀ x ∈ t.nodes, timerNode x.2 ≠ none) → ∃ h',
      (∀ fuel, t.nodes.length < fuel →
        igmprtTimerGroup r false fuel ⟨t.heap, t.head, [], k⟩ =
          some (.returns ⟨h', t.head, addresses t.nodes, k⟩)) ∧
      IsList h' t.head (after timerNode t.nodes) := by
    intro hstay
    obtain ⟨h', hwalk, hlist, -⟩ := walk_stays (expireGroup r) false
      (w := ⟨t.heap, t.head, [], k⟩) t.linked hstay
    exact ⟨h', fun fuel hfuel => hwalk fuel fuel hfuel, hlist⟩
  constructor
  · rintro ⟨w, hrun, -, hlist⟩
    have hstay : ∀ x ∈ t.nodes, timerNode x.2 ≠ none := by
      intro x hx hnone
      have hfault := hfaults ⟨x, hx, hnone⟩ _ (Nat.lt_succ_self _)
      rw [hrun _ (Nat.lt_succ_self _)] at hfault
      cases hfault
    obtain ⟨h', hwalk, hlist'⟩ := hstays hstay
    have hsame := hwalk _ (Nat.lt_succ_self _)
    rw [hrun _ (Nat.lt_succ_self _)] at hsame
    cases hsame
    have hagree := (after_eq_iff hstay).mp (hlist'.unique hlist)
    intro x hx haddr
    exact ((timerNode_eq_tick_iff (hstay x hx)).mp (hagree x hx)).resolve_left haddr
  · intro hall
    have hstay : ∀ x ∈ t.nodes, timerNode x.2 ≠ none := by
      intro x hx hnone
      obtain ⟨haddr, htimer⟩ := (timerNode_eq_none_iff x.2).mp hnone
      have hge := hall x hx haddr
      omega
    obtain ⟨h', hwalk, hlist⟩ := hstays hstay
    have hagree : after timerNode t.nodes = after tick t.nodes :=
      (after_eq_iff hstay).mpr fun x hx =>
        (timerNode_eq_tick_iff (hstay x hx)).mpr (or_iff_not_imp_left.mpr (hall x hx))
    exact ⟨_, hwalk, rfl, hagree ▸ hlist⟩

/-! ## The leaves -/

theorem leaveNode_eq_none_iff (src group : Addr) (gp : GroupNode) :
    leaveNode src group gp = none ↔ gp.addr = group ∧ gp.members.erase src = [] := by
  unfold leaveNode
  by_cases haddr : gp.addr = group
  · by_cases hempty : gp.members.erase src = [] <;> simp [haddr, hempty]
  · simp [haddr]

def dropGroup (k : Kernel × Bool) (gp : GroupNode) : Kernel × Bool :=
  (r.groupCleanup k.1 gp.addr, true)

section

variable {r} {src group : Addr} {x : IfGroups × List (Nat × GroupNode)}
  {rest : List (IfGroups × List (Nat × GroupNode))} {s : Leave}

theorem addresses_remaining {p : Nat} (hp : p ∈ addresses (remaining src group x)) :
    p ∈ addresses x.2 := by
  unfold remaining at hp
  split at hp
  · exact addresses_after hp
  · exact hp

/-- The lists of the other interfaces are still there when one has been walked. -/
theorem linked_frame {h h' : Heap GroupNode} (hlinked : ∀ y ∈ x :: rest, IsList h y.1.head y.2)
    (hapart : (x :: rest).Pairwise fun y z => ∀ p ∈ addresses y.2, p ∉ addresses z.2)
    (hframe : ∀ p ∉ addresses x.2, h' p = h p) : ∀ y ∈ rest, IsList h' y.1.head y.2 := by
  intro y hy
  apply Seg.congr (hlinked y (List.mem_cons_of_mem x hy))
  intro p hp
  exact hframe p fun hpx => (List.pairwise_cons.mp hapart).1 y hy p hpx hp

theorem leaveLoop_cons_stays (hdown : x.1.type = .downstream) (hlinked : IsList s.heap x.1.head x.2)
    (hstay : ∀ n ∈ x.2, leaveNode src group n.2 ≠ none) :
    ∃ h', (∀ fuel, x.2.length < fuel → ∀ ifs,
        leaveLoop r false fuel src group (x.1 :: ifs) s =
          leaveLoop r false fuel src group ifs
            ⟨s.interfaces ++ [x.1], h', s.visited ++ addresses x.2, s.acc⟩) ∧
      IsList h' x.1.head (after (leaveNode src group) x.2) ∧
      ∀ p ∉ addresses x.2, h' p = s.heap p := by
  obtain ⟨h', hwalk, hlist, hframe⟩ := walk_stays (dropGroup r) false
    (w := ⟨s.heap, x.1.head, s.visited, s.acc⟩) hlinked hstay
  refine ⟨h', ?_, hlist, hframe⟩
  intro fuel hfuel ifs
  have hrun := hwalk fuel fuel hfuel
  unfold dropGroup at hrun
  rw [leaveLoop, if_pos hdown, hrun]

/-- A leave that frees a group reads it again. -/
theorem leaveLoop_faults (hlinked : ∀ x ∈ rest, IsList s.heap x.1.head x.2)
    (hapart : rest.Pairwise fun x y => ∀ p ∈ addresses x.2, p ∉ addresses y.2)
    (hgone : ∃ x ∈ rest, x.1.type = .downstream ∧ ∃ n ∈ x.2, leaveNode src group n.2 = none)
    {fuel : Nat} (hfuel : ∀ x ∈ rest, x.2.length < fuel) :
    leaveLoop r false fuel src group (rest.map Prod.fst) s = some .faults := by
  induction rest generalizing s with
  | nil => simp at hgone
  | cons x rest ih =>
      have hapart' := (List.pairwise_cons.mp hapart).2
      have hfuel' : ∀ y ∈ rest, y.2.length < fuel := fun y hy => hfuel y (List.mem_cons_of_mem x hy)
      rw [List.map_cons]
      by_cases hhere : x.1.type = .downstream ∧ ∃ n ∈ x.2, leaveNode src group n.2 = none
      · have hfault : walk false (leaveNode src group) (dropGroup r) fuel fuel
            ⟨s.heap, x.1.head, s.visited, s.acc⟩ x.1.head = some .faults :=
          walk_faults (dropGroup r) (hlinked x List.mem_cons_self) hhere.2
            (hfuel x List.mem_cons_self)
        unfold dropGroup at hfault
        rw [leaveLoop, if_pos hhere.1, hfault]
      · obtain ⟨y, hy, hbad⟩ := hgone
        have hmem : y ∈ rest := by
          rcases List.mem_cons.mp hy with rfl | hmem
          · exact absurd hbad hhere
          · exact hmem
        by_cases hdown : x.1.type = .downstream
        · have hstay : ∀ n ∈ x.2, leaveNode src group n.2 ≠ none :=
            fun n hn hnone => hhere ⟨hdown, n, hn, hnone⟩
          obtain ⟨h', hrun, -, hframe⟩ :=
            leaveLoop_cons_stays (r := r) hdown (hlinked x List.mem_cons_self) hstay
          rw [hrun fuel (hfuel x List.mem_cons_self)]
          exact ih (linked_frame hlinked hapart hframe) hapart' ⟨y, hmem, hbad⟩ hfuel'
        · rw [leaveLoop, if_neg hdown]
          exact ih (fun z hz => hlinked z (List.mem_cons_of_mem x hz)) hapart' ⟨y, hmem, hbad⟩
            hfuel'

/-- A leave that frees none visits the downstream nodes and changes their members. -/
theorem leaveLoop_stays (hlinked : ∀ x ∈ rest, IsList s.heap x.1.head x.2)
    (hapart : rest.Pairwise fun x y => ∀ p ∈ addresses x.2, p ∉ addresses y.2)
    (hstay : ∀ x ∈ rest, x.1.type = .downstream → ∀ n ∈ x.2, leaveNode src group n.2 ≠ none) :
    ∃ h', (∀ fuel, (∀ x ∈ rest, x.2.length < fuel) →
        leaveLoop r false fuel src group (rest.map Prod.fst) s = some (.returns
          ⟨s.interfaces ++ rest.map Prod.fst, h',
            s.visited ++ rest.flatMap fun x => addresses (walked x), s.acc⟩)) ∧
      (∀ x ∈ rest, IsList h' x.1.head (remaining src group x)) ∧
      ∀ p, (∀ x ∈ rest, p ∉ addresses x.2) → h' p = s.heap p := by
  induction rest generalizing s with
  | nil => exact ⟨s.heap, by simp [leaveLoop], by simp, fun _ _ => rfl⟩
  | cons x rest ih =>
      obtain ⟨hfirst, hapart'⟩ := List.pairwise_cons.mp hapart
      have hstay' := fun y hy => hstay y (List.mem_cons_of_mem x hy)
      -- the heap and the visited nodes once the first interface is done
      obtain ⟨h₁, hrun, hlist, hframe⟩ : ∃ h₁, (∀ fuel, x.2.length < fuel → ∀ ifs,
          leaveLoop r false fuel src group (x.1 :: ifs) s =
            leaveLoop r false fuel src group ifs
              ⟨s.interfaces ++ [x.1], h₁, s.visited ++ addresses (walked x), s.acc⟩) ∧
          IsList h₁ x.1.head (remaining src group x) ∧
          ∀ p ∉ addresses x.2, h₁ p = s.heap p := by
        by_cases hdown : x.1.type = .downstream
        · rw [walked, remaining, if_pos hdown, if_pos hdown]
          exact leaveLoop_cons_stays hdown (hlinked x List.mem_cons_self)
            (hstay x List.mem_cons_self hdown)
        · refine ⟨s.heap, ?_, ?_, fun _ _ => rfl⟩
          · intro fuel _ ifs
            rw [leaveLoop, if_neg hdown, walked, if_neg hdown, addresses_nil, List.append_nil]
          · rw [remaining, if_neg hdown]
            exact hlinked x List.mem_cons_self
      obtain ⟨h', hrest, hlists, hframe'⟩ :=
        ih (s := ⟨s.interfaces ++ [x.1], h₁, s.visited ++ addresses (walked x), s.acc⟩)
          (linked_frame hlinked hapart hframe) hapart' hstay'
      refine ⟨h', ?_, ?_, ?_⟩
      · intro fuel hfuel
        rw [List.map_cons, hrun fuel (hfuel x List.mem_cons_self),
          hrest fuel fun y hy => hfuel y (List.mem_cons_of_mem x hy)]
        simp
      · intro y hy
        rcases List.mem_cons.mp hy with rfl | hmem
        · apply Seg.congr hlist
          intro p hp
          apply hframe' p
          intro z hz
          exact hfirst z hz p (addresses_remaining hp)
        · exact hlists y hmem
      · intro p hp
        rw [hframe' p fun y hy => hp y (List.mem_cons_of_mem x hy)]
        exact hframe p (hp x List.mem_cons_self)

end

/-- Downstream, the leave empties no group it matches. -/
def NoneEmptied (src group : Addr) (t : GroupLists) : Prop :=
  ∀ x ∈ t.interfaces, x.1.type = .downstream →
    ∀ n ∈ x.2, n.2.addr = group → n.2.members.erase src ≠ []

theorem noneEmptied_iff {src group : Addr} {t : GroupLists} :
    NoneEmptied src group t ↔ ∀ x ∈ t.interfaces, x.1.type = .downstream →
      ∀ n ∈ x.2, leaveNode src group n.2 ≠ none := by
  simp only [NoneEmptied, ne_eq, leaveNode_eq_none_iff, not_and]

theorem exists_fuel (l : List (IfGroups × List (Nat × GroupNode))) :
    ∃ fuel, ∀ x ∈ l, x.2.length < fuel := by
  induction l with
  | nil => exact ⟨0, by simp⟩
  | cons x l ih =>
      obtain ⟨fuel, hfuel⟩ := ih
      refine ⟨x.2.length + 1 + fuel, ?_⟩
      intro y hy
      rcases List.mem_cons.mp hy with rfl | hmem
      · omega
      · have hlt := hfuel y hmem
        omega

theorem leaveRight_iff (src group : Addr) (k : Kernel) (t : GroupLists) :
    LeaveRight r src group k t ↔ (inMulticast group = true → NoneEmptied src group t) := by
  refine imp_congr_right fun hmulti => ?_
  rw [noneEmptied_iff]
  constructor
  · rintro ⟨s, hrun, -, -⟩ x hx hdown n hn hnone
    obtain ⟨fuel, hfuel⟩ := exists_fuel t.interfaces
    have hfault := leaveLoop_faults (r := r) (s := ⟨[], t.heap, [], (k, false)⟩) t.linked t.apart
      ⟨x, hx, hdown, n, hn, hnone⟩ hfuel
    have hreturn := hrun fuel hfuel
    rw [igmpInterfaceMembershipLeaveV2, if_pos hmulti, hfault] at hreturn
    cases hreturn
  · intro hstay
    obtain ⟨h', hrun, hlists, -⟩ := leaveLoop_stays (r := r) (s := ⟨[], t.heap, [], (k, false)⟩)
      t.linked t.apart hstay
    refine ⟨⟨t.interfaces.map Prod.fst, h', t.interfaces.flatMap fun x => addresses (walked x),
      (k, false)⟩, ?_, rfl, ?_⟩
    · intro fuel hfuel
      rw [igmpInterfaceMembershipLeaveV2, if_pos hmulti, hrun fuel hfuel]
      rfl
    · rw [List.forall₂_map_right_iff, List.forall₂_same]
      exact fun x hx => ⟨rfl, hlists x hx⟩

/-- The two loops do what they should, and never read freed memory, exactly when they free
nothing: every group but 224.0.0.2 has at least two seconds left, and the leave empties no group. -/
theorem traversals_right_iff (r : Router) (k : Kernel) (t : GroupList) (src group : Addr)
    (ts : GroupLists) :
    (TimerRight r k t ↔ ∀ x ∈ t.nodes, x.2.addr ≠ igmpAllRouters → 2 ≤ x.2.timer) ∧
    (LeaveRight r src group k ts ↔ (inMulticast group = true → NoneEmptied src group ts)) :=
  ⟨timerRight_iff r k t, leaveRight_iff r src group k ts⟩

/-- 239.1.1.1 with one member and one second to go, alone in the list of an interface. -/
def lastGroup : GroupList where
  heap := Function.update (fun _ => none) 1 (some ⟨⟨0xEF010101#32, 1, [0xC0A8000A#32]⟩, none⟩)
  head := some 1
  nodes := [(1, ⟨0xEF010101#32, 1, [0xC0A8000A#32]⟩)]
  linked := ⟨rfl, none, Function.update_self 1 _ _, rfl⟩

def lastGroups : GroupLists where
  heap := lastGroup.heap
  interfaces := [(⟨.downstream, lastGroup.head⟩, lastGroup.nodes)]
  linked := by
    intro x hx
    obtain rfl := List.mem_singleton.mp hx
    exact lastGroup.linked
  apart := List.pairwise_singleton _ _

def bareRouter : Router := Router.start (fun _ => "eth0") ⟨[], List.nodup_nil, List.nodup_nil⟩

/-- The tick that frees the group, and the leave of its member, both go on to read its link. -/
theorem last_group_read_freed :
    igmprtTimerGroup bareRouter false 2 ⟨lastGroup.heap, lastGroup.head, [], bareRouter.kernel⟩ =
        some .faults ∧
      igmpInterfaceMembershipLeaveV2 bareRouter false 2 0xC0A8000A#32 0xEF010101#32
        (lastGroups.interfaces.map Prod.fst) lastGroups.heap bareRouter.kernel = some .faults ∧
      ¬TimerRight bareRouter bareRouter.kernel lastGroup ∧
      ¬LeaveRight bareRouter 0xC0A8000A#32 0xEF010101#32 bareRouter.kernel lastGroups := by
  have hmem : (1, ⟨0xEF010101#32, 1, [0xC0A8000A#32]⟩) ∈ lastGroup.nodes := List.mem_singleton_self _
  have hmem' : (⟨.downstream, lastGroup.head⟩, lastGroup.nodes) ∈ lastGroups.interfaces :=
    List.mem_singleton_self _
  refine ⟨?_, ?_, ?_, ?_⟩
  · exact walk_faults (expireGroup bareRouter) lastGroup.linked ⟨_, hmem, by decide⟩ (by decide)
  · have hfuel : ∀ x ∈ lastGroups.interfaces, x.2.length < 2 := by
      intro x hx
      obtain rfl := List.mem_singleton.mp hx
      exact Nat.lt_succ_self 1
    have hfault : leaveLoop bareRouter false 2 0xC0A8000A#32 0xEF010101#32
        (lastGroups.interfaces.map Prod.fst)
        ⟨[], lastGroups.heap, [], (bareRouter.kernel, false)⟩ = some .faults :=
      leaveLoop_faults lastGroups.linked lastGroups.apart ⟨_, hmem', rfl, _, hmem, by decide⟩ hfuel
    rw [igmpInterfaceMembershipLeaveV2, if_pos (by decide), hfault]
  · rw [timerRight_iff]
    intro hall
    exact absurd (hall _ hmem (by decide)) (by decide)
  · rw [leaveRight_iff]
    intro hall
    exact hall (by decide) _ hmem' rfl _ hmem rfl (by decide)

/-! ## The group tables

With an allocator that leaves a freed node as it was, the loops do to the list in memory what the
router does to its tables. -/

def Group.node (gp : Group) : GroupNode := ⟨gp.addr, gp.timer, gp.members⟩

@[simp] theorem Group.node_addr (gp : Group) : gp.node.addr = gp.addr := rfl

@[simp] theorem Group.node_timer (gp : Group) : gp.node.timer = gp.timer := rfl

theorem timerNode_node (gp : Group) : timerNode gp.node = (Router.timerGroup gp).map Group.node := by
  unfold timerNode Router.timerGroup
  rw [Group.node_addr, Group.node_timer]
  by_cases haddr : gp.addr = igmpAllRouters
  · rw [if_pos haddr, if_pos haddr, Option.map_some]
  · rw [if_neg haddr, if_neg haddr]
    by_cases hout : gp.timer - 1 = 0
    · rw [if_pos hout, Option.map_none, if_pos]
      split <;> omega
    · have hpos : (0 : Int) < gp.timer := by omega
      have hne : (gp.timer : Int) - 1 ≠ 0 := by omega
      have hcast : (gp.timer : Int) - 1 = (gp.timer - 1 : Nat) := by omega
      rw [if_neg hout, Option.map_some, if_pos hpos, if_neg hne, hcast]
      rfl

theorem leaveNode_node (src group : Addr) (gp : Group) :
    leaveNode src group gp.node = (Router.leaveGroup src group gp).map Group.node := by
  unfold leaveNode Router.leaveGroup
  by_cases haddr : gp.addr = group
  · by_cases hempty : gp.members.erase src = [] <;> simp [Group.node, haddr, hempty]
  · simp [haddr]

theorem after_table {act : Group → Option Group} {actNode : GroupNode → Option GroupNode}
    (hact : ∀ gp : Group, actNode gp.node = (act gp).map Group.node)
    {nodes : List (Nat × GroupNode)} {l : List Group}
    (hl : nodes.map Prod.snd = l.map Group.node) :
    (after actNode nodes).map Prod.snd = (l.filterMap act).map Group.node := by
  induction nodes generalizing l with
  | nil =>
      obtain rfl : l = [] := List.map_eq_nil_iff.mp hl.symm
      rfl
  | cons x nodes ih =>
      obtain ⟨gp, rest, rfl, hx, hrest⟩ := List.map_eq_cons_iff.mp hl.symm
      have hnode : actNode x.2 = (act gp).map Group.node := hx ▸ hact gp
      cases hgp : act gp with
      | some gp' =>
          rw [hgp] at hnode
          rw [after_cons_some hnode, List.map_cons, ih hrest.symm, List.filterMap_cons_some hgp,
            List.map_cons]
      | none =>
          rw [hgp] at hnode
          rw [after_cons_none hnode, ih hrest.symm, List.filterMap_cons_none hgp]

section

variable {κ : Type} (gone : κ → GroupNode → κ)

/-- What is done for the nodes that go is what is done for the groups that go. -/
theorem gone_table {act : Group → Option Group} {actNode : GroupNode → Option GroupNode}
    (hact : ∀ gp : Group, actNode gp.node = (act gp).map Group.node)
    {nodes : List (Nat × GroupNode)} {l : List Group}
    (hl : nodes.map Prod.snd = l.map Group.node) (k : κ) :
    (nodes.filter fun x => (actNode x.2).isNone).foldl (fun k x => gone k x.2) k =
      (l.filter fun gp => (act gp).isNone).foldl (fun k gp => gone k gp.node) k := by
  induction nodes generalizing l k with
  | nil =>
      obtain rfl : l = [] := List.map_eq_nil_iff.mp hl.symm
      rfl
  | cons x nodes ih =>
      obtain ⟨gp, rest, rfl, hx, hrest⟩ := List.map_eq_cons_iff.mp hl.symm
      have hnode : (actNode x.2).isNone = (act gp).isNone := by
        rw [← hx, hact, Option.isNone_map]
      rw [List.filter_cons, List.filter_cons, hnode]
      split
      · rw [List.foldl_cons, List.foldl_cons, ih hrest.symm, hx]
      · exact ih hrest.symm k

theorem walk_table {act : Group → Option Group} {actNode : GroupNode → Option GroupNode}
    (hact : ∀ gp : Group, actNode gp.node = (act gp).map Group.node) (t : GroupList)
    {l : List Group} (hl : t.nodes.map Prod.snd = l.map Group.node) (k : κ) :
    ∃ w, (∀ fuel, t.nodes.length < fuel →
        walk true actNode gone fuel fuel ⟨t.heap, t.head, [], k⟩ t.head = some (.returns w)) ∧
      w.visited = addresses t.nodes ∧
      w.acc = (Router.walkGroups act (fun k gp => gone k gp.node) k l).1 ∧
      ∃ nodes, IsList w.heap w.head nodes ∧
        nodes.map Prod.snd =
          (Router.walkGroups act (fun k gp => gone k gp.node) k l).2.map Group.node := by
  have hfront : Seg t.heap t.head [] t.head := rfl
  obtain ⟨h', head', hwalk, hlist⟩ :=
    walk_kept gone (w := ⟨t.heap, t.head, [], k⟩) hfront t.linked
  rw [walkGroups_eq]
  refine ⟨⟨h', head', addresses t.nodes, _⟩, ?_, rfl, gone_table gone hact hl k, _, hlist,
    after_table hact hl⟩
  intro fuel hfuel
  exact hwalk fuel fuel (by rw [List.length_nil]; omega) hfuel

end

theorem igmprtTimerGroup_table (k : Kernel) (t : GroupList) {ifp : Interface}
    (hifp : t.nodes.map Prod.snd = ifp.groups.map Group.node) :
    ∃ w, (∀ fuel, t.nodes.length < fuel →
        igmprtTimerGroup r true fuel ⟨t.heap, t.head, [], k⟩ = some (.returns w)) ∧
      w.acc = (r.timerInterface k ifp).1 ∧
      ∃ nodes, IsList w.heap w.head nodes ∧
        nodes.map Prod.snd = (r.timerInterface k ifp).2.groups.map Group.node := by
  obtain ⟨w, hrun, -, hacc, hnodes⟩ := walk_table (expireGroup r) timerNode_node t hifp k
  exact ⟨w, hrun, hacc, hnodes⟩

theorem leaveWalk_table (src group : Addr) (k : Kernel × Bool) (t : GroupList) {ifp : Interface}
    (hifp : t.nodes.map Prod.snd = ifp.groups.map Group.node) :
    ∃ w, (∀ fuel, t.nodes.length < fuel →
        walk true (leaveNode src group) (dropGroup r) fuel fuel ⟨t.heap, t.head, [], k⟩ t.head =
          some (.returns w)) ∧
      w.acc = (r.leaveInterface src group k ifp).1 ∧
      ∃ nodes, IsList w.heap w.head nodes ∧
        nodes.map Prod.snd = (r.leaveInterface src group k ifp).2.groups.map Group.node := by
  obtain ⟨w, hrun, -, hacc, hnodes⟩ :=
    walk_table (dropGroup r) (leaveNode_node src group) t hifp k
  exact ⟨w, hrun, hacc, hnodes⟩

end Xwr100.Igmp
