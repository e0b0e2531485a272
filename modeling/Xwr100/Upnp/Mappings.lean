import Mathlib.Data.List.MinMax
import Mathlib.Order.Nat
import Xwr100.Upnp.Gatedevice
import Xwr100.Lib.Lists

/-!
# The mapping table

What the handlers do to the list of mappings, apart from the event numbers the timer
bookkeeping writes into its nodes.
-/

namespace Xwr100.Upnp

open Lib

variable {accept : Rule → Bool} {s s' : Igd}

/-- A node without its timer bookkeeping. -/
def PortMap.content (p : PortMap) : PortMap := { p with expirationEventId := 0 }

@[simp] theorem PortMap.content_node (p : PortMap) : p.content.node = p.node := rfl

/-- The port, protocol and client `pmlist_Find` compares. -/
def PortMap.triple (p : PortMap) : String × String × String :=
  (p.externalPort, p.protocol, p.internalClient)

@[simp] theorem PortMap.content_triple (p : PortMap) : p.content.triple = p.triple := rfl

namespace Igd

/-- The mappings in list order, without timer bookkeeping. -/
def table (s : Igd) : List PortMap := s.pmlist.map PortMap.content

theorem mem_table_of_mem {p : PortMap} (h : p ∈ s.pmlist) : p.content ∈ s.table :=
  List.mem_map_of_mem h

/-! ## Timer bookkeeping -/

structure Same (s s' : Igd) : Prop where
  vars : s'.vars = s.vars
  table : s'.table = s.table
  rules : s'.rules = s.rules

theorem Same.trans {s'' : Igd} (h : Same s s') (h' : Same s' s'') : Same s s'' :=
  ⟨h'.vars.trans h.vars, h'.table.trans h.table, h'.rules.trans h.rules⟩

theorem setEventId_same (node : Nat) (id : Int) : Same s (s.setEventId node id) := by
  refine ⟨rfl, ?_, rfl⟩
  unfold table setEventId
  rw [List.map_map]
  apply List.map_congr_left
  intro p _
  simp only [Function.comp_apply]
  split <;> rfl

theorem freeExpirationEvent_same (e : ExpirationEvent) : Same s (s.freeExpirationEvent e) := by
  unfold freeExpirationEvent
  split
  · exact setEventId_same _ _
  · exact ⟨rfl, rfl, rfl⟩

theorem cancelMappingExpiration_same (id : Int) : Same s (s.cancelMappingExpiration id) := by
  unfold cancelMappingExpiration
  split
  · exact ⟨rfl, rfl, rfl⟩
  · cases hfind : s.queued.find? fun e => decide ((e.eventId : Int) = id) with
    | none => exact ⟨rfl, rfl, rfl⟩
    | some e =>
        have hremoved : Same s
            { s with queued := s.queued.filter fun e' => e'.eventId ≠ e.eventId } :=
          ⟨rfl, rfl, rfl⟩
        exact hremoved.trans (freeExpirationEvent_same e)

theorem scheduleMappingExpiration_same (p : PortMap) (outcome : ScheduleOutcome) :
    Same s (s.scheduleMappingExpiration p outcome) := by
  unfold scheduleMappingExpiration
  split
  · exact ⟨rfl, rfl, rfl⟩
  · cases outcome with
    | outOfMemory => exact ⟨rfl, rfl, rfl⟩
    | timerFailed => exact setEventId_same _ _
    | scheduled =>
        have hqueued : Same s
            { s with
              queued := s.queued ++ [⟨s.lastEventId, p.node⟩]
              lastEventId := s.lastEventId + 1 } := ⟨rfl, rfl, rfl⟩
        exact hqueued.trans (setEventId_same _ _)

theorem dispatch_same (eventId : Nat) : Same s (s.dispatch eventId) := ⟨rfl, rfl, rfl⟩

/-! ## List updates -/

theorem unlink_table (node : Nat) :
    (s.unlink node).table = s.table.filter fun p => p.node ≠ node := by
  unfold table unlink
  rw [List.filter_map]
  rfl

/-- The rules removed for a node do not depend on its event id. -/
theorem deleteRules_content (item : PortMap) :
    s.deleteRules accept item = s.deleteRules accept item.content := rfl

theorem remove_table (id : Int) (item : PortMap) (node : Nat) :
    (((s.cancelMappingExpiration id).deleteRules accept item).unlink node).table =
      s.table.filter fun p => p.node ≠ node := by
  rw [unlink_table]
  exact congrArg _ (cancelMappingExpiration_same id).table

theorem remove_rules (id : Int) (item : PortMap) (node : Nat) :
    (((s.cancelMappingExpiration id).deleteRules accept item).unlink node).rules =
      (deletePortMappingCalls s.vars item.enabled item.remoteHost item.protocol
        item.externalPort item.internalClient item.internalPort).foldl (iptables accept)
          s.rules := by
  have hsame := cancelMappingExpiration_same (s := s) id
  show (deletePortMappingCalls (s.cancelMappingExpiration id).vars item.enabled item.remoteHost
    item.protocol item.externalPort item.internalClient item.internalPort).foldl
      (iptables accept) (s.cancelMappingExpiration id).rules = _
  rw [hsame.vars, hsame.rules]

theorem remove_vars (id : Int) (item : PortMap) (node : Nat) :
    (((s.cancelMappingExpiration id).deleteRules accept item).unlink node).vars = s.vars :=
  (cancelMappingExpiration_same id).vars

section Insert

variable (block : Block) (outcome : ScheduleOutcome) (enabled duration : Int)
  (remoteHost : Option String) (extPort intPort proto intIp desc : String)

/-- Inserting a mapping touches table and rules as appending its node does. -/
theorem insertMapping_same :
    Same (s.pushBack accept (newNode (s.malloc block) block.garbage enabled duration remoteHost
        extPort intPort proto intIp desc))
      (s.insertMapping accept block outcome enabled duration remoteHost extPort intPort proto
        intIp desc) :=
  scheduleMappingExpiration_same _ _

theorem insertMapping_table :
    (s.insertMapping accept block outcome enabled duration remoteHost extPort intPort proto
      intIp desc).table =
      s.table ++ [(newNode (s.malloc block) block.garbage enabled duration remoteHost extPort intPort proto
        intIp desc).content] := by
  rw [(insertMapping_same block outcome enabled duration remoteHost extPort intPort proto intIp
    desc).table]
  simp [table, pushBack]

end Insert

/-! ## Node addresses -/

theorem lt_unusedAddress {n : Nat} (h : n ∈ s.pmlist.map PortMap.node ++
    (s.queued ++ s.dispatched).map ExpirationEvent.mapping) : n < s.unusedAddress :=
  Nat.lt_succ_of_le (List.le_max_of_le h le_rfl)

/-- `malloc` hands out no address that is in the list. -/
theorem malloc_not_listed (block : Block) {p : PortMap} (hp : p ∈ s.pmlist) :
    p.node ≠ s.malloc block := by
  unfold malloc
  split
  · exact Nat.ne_of_lt (lt_unusedAddress (List.mem_append_left _ (List.mem_map_of_mem hp)))
  · rename_i hfree
    intro heq
    exact hfree (by simp only [allocated, List.any_eq_true, decide_eq_true_eq]; exact ⟨p, hp, heq⟩)

def NodesOk (s : Igd) : Prop := (s.table.map PortMap.node).Nodup

theorem NodesOk.init (vars : Vars) : NodesOk (Igd.init vars) := List.nodup_nil

theorem NodesOk.of_same (h : NodesOk s) (hsame : Same s s') : NodesOk s' := by
  unfold NodesOk
  rw [hsame.table]
  exact h

theorem NodesOk.sublist (h : NodesOk s) (hsub : s'.table.Sublist s.table) : NodesOk s' :=
  List.Nodup.sublist (hsub.map _) h

theorem NodesOk.remove (h : NodesOk s) (id : Int) (item : PortMap) (node : Nat) :
    NodesOk (((s.cancelMappingExpiration id).deleteRules accept item).unlink node) := by
  apply h.sublist
  rw [remove_table]
  exact List.filter_sublist

/-- A node at an address that is not in the list may be appended. -/
theorem NodesOk.append (h : NodesOk s) {new : PortMap} (htable : s'.table = s.table ++ [new])
    (hnode : ∀ p ∈ s.table, p.node ≠ new.node) : NodesOk s' := by
  unfold NodesOk
  rw [htable, List.map_append, List.nodup_append]
  refine ⟨h, by simp, ?_⟩
  intro a ha b hb
  obtain ⟨p, hp, rfl⟩ := List.mem_map.mp ha
  simp only [List.map_cons, List.map_nil, List.mem_singleton] at hb
  rw [hb]
  exact hnode p hp

theorem malloc_not_in_table (block : Block) : ∀ p ∈ s.table, p.node ≠ s.malloc block := by
  intro p hp
  obtain ⟨q, hq, rfl⟩ := List.mem_map.mp hp
  exact malloc_not_listed (p := q) block hq

theorem NodesOk.insertMapping (h : NodesOk s) (block : Block) (outcome : ScheduleOutcome)
    (enabled duration : Int) (remoteHost : Option String)
    (extPort intPort proto intIp desc : String) :
    NodesOk (s.insertMapping accept block outcome enabled duration remoteHost extPort intPort
      proto intIp desc) :=
  h.append (insertMapping_table block outcome enabled duration remoteHost extPort intPort proto
    intIp desc) (malloc_not_in_table block)

/-- What the removal of each listed node keeps, the loop over the list keeps. -/
theorem freeListLoop_invariant {P : Igd → Prop}
    (hremove : ∀ s, ∀ temp ∈ s.pmlist, P s →
      P (((s.cancelMappingExpiration temp.expirationEventId).deleteRules accept temp).unlink
        temp.node))
    (n : Nat) (s : Igd) (h : P s) : P (freeListLoop accept n s) := by
  induction n generalizing s with
  | zero => exact h
  | succ n ih =>
      unfold freeListLoop
      cases hl : s.pmlist with
      | nil => exact h
      | cons temp rest =>
          apply ih
          apply hremove s temp _ h
          rw [hl]
          exact List.mem_cons_self

/-- The loop removes a node each time round and the list ends up empty. -/
theorem freeListLoop_table (n : Nat) (s : Igd) (hn : s.table.length ≤ n) :
    (freeListLoop accept n s).table = [] := by
  induction n generalizing s with
  | zero => exact List.eq_nil_of_length_eq_zero (Nat.le_zero.mp hn)
  | succ n ih =>
      unfold freeListLoop
      cases hl : s.pmlist with
      | nil => simp [table, hl]
      | cons temp rest =>
          apply ih
          have hmem : temp ∈ s.pmlist := by rw [hl]; exact List.mem_cons_self
          have hlt : (s.table.filter fun p => p.node ≠ temp.node).length < s.table.length := by
            rw [List.length_filter_lt_length_iff_exists]
            exact ⟨temp.content, mem_table_of_mem hmem, by simp⟩
          rw [remove_table]
          omega

theorem freeList_table : (s.freeList accept).table = [] :=
  freeListLoop_table _ s (by simp [table])

/-! ## Configuration -/

theorem insertMapping_vars (block : Block) (outcome : ScheduleOutcome) (enabled duration : Int)
    (remoteHost : Option String) (extPort intPort proto intIp desc : String) :
    (s.insertMapping accept block outcome enabled duration remoteHost extPort intPort proto
      intIp desc).vars = s.vars :=
  (insertMapping_same block outcome enabled duration remoteHost extPort intPort proto intIp
    desc).vars

theorem pmlistDelete_vars (item : PortMap) : (s.pmlistDelete accept item).1.vars = s.vars := by
  unfold pmlistDelete
  split
  · exact remove_vars _ _ _
  · rfl

theorem freeListLoop_vars (n : Nat) (s : Igd) : (freeListLoop accept n s).vars = s.vars := by
  apply freeListLoop_invariant (P := fun s' => s'.vars = s.vars) _ n s rfl
  intro s' temp _ h
  rw [remove_vars, h]

theorem expireEvent_vars (e : ExpirationEvent) : (s.expireEvent accept e).vars = s.vars := by
  unfold expireEvent
  split
  · rfl
  · rw [(freeExpirationEvent_same e).vars, pmlistDelete_vars, (setEventId_same _ _).vars]

/-- No handler changes the configuration. -/
theorem step_vars (i : Input) : (step accept s i).vars = s.vars := by
  cases i with
  | addPortMapping args block outcome =>
      show (s.addPortMapping accept args block outcome).1.vars = s.vars
      unfold addPortMapping
      split
      · rfl
      · split
        · split
          · rfl
          · rw [insertMapping_vars]
            split
            · exact pmlistDelete_vars _
            · rfl
        · rfl
  | deletePortMapping extPort proto =>
      show (s.deletePortMapping accept extPort proto).1.vars = s.vars
      unfold deletePortMapping
      split
      · rfl
      · split
        · split
          · split
            · exact pmlistDelete_vars _
            · rfl
          · rfl
        · rfl
  | getSpecificPortMappingEntry extPort proto => rfl
  | getGenericPortMappingEntry mapindex => rfl
  | deleteAllPortMappings => exact freeListLoop_vars _ s
  | dispatch eventId => rfl
  | expireMapping eventId =>
      show (s.expireMapping accept eventId).vars = s.vars
      unfold expireMapping
      split
      · exact expireEvent_vars _
      · rfl

end Igd

/-! ## Lookups -/

theorem pmlistFind_some {l : List PortMap} {a b c : String} {p : PortMap}
    (h : pmlistFind l a b c = some p) : p ∈ l ∧ p.triple = (a, b, c) := by
  refine ⟨List.mem_of_find?_eq_some h, ?_⟩
  have hp := List.find?_some h
  simp only [decide_eq_true_eq] at hp
  simp [PortMap.triple, hp]

theorem pmlistFind_none {l : List PortMap} {a b c : String} (h : pmlistFind l a b c = none) :
    ∀ p ∈ l, p.triple ≠ (a, b, c) := by
  intro p hp heq
  have hnone := List.find?_eq_none.mp h p hp
  simp only [PortMap.triple, Prod.mk.injEq] at heq
  simp [heq] at hnone

theorem allocated_iff {node : Nat} :
    s.allocated node = true ↔ ∃ p ∈ s.pmlist, p.node = node := by
  simp [Igd.allocated]

/-- What `ExpireMapping` removes for a listed mapping: the first node with the fields of the
mapping, and the rules of the mapping. -/
theorem expireEvent_same {e : ExpirationEvent} (halloc : s.allocated e.mapping = true) :
    ∃ m ∈ s.pmlist, m.node = e.mapping ∧
      ∃ temp ∈ (s.setEventId m.node (-1)).pmlist, temp.triple = m.triple ∧
        Igd.Same ((((s.setEventId m.node (-1)).cancelMappingExpiration
          temp.expirationEventId).deleteRules accept m).unlink temp.node)
          (s.expireEvent accept e) := by
  unfold Igd.expireEvent
  cases hfind : s.pmlist.find? fun p => decide (p.node = e.mapping) with
  | none =>
      obtain ⟨p, hp, hnode⟩ := allocated_iff.mp halloc
      exact absurd (decide_eq_true hnode) (List.find?_eq_none.mp hfind p hp)
  | some m =>
      have hmem : m ∈ s.pmlist := List.mem_of_find?_eq_some hfind
      refine ⟨m, hmem, by simpa using List.find?_some hfind, ?_⟩
      cases hself : pmlistFind (s.setEventId m.node (-1)).pmlist m.externalPort m.protocol
          m.internalClient with
      | none =>
          -- the mapping itself is still listed under its fields
          have hset : m.content ∈ (s.setEventId m.node (-1)).table := by
            rw [(Igd.setEventId_same _ _).table]
            exact Igd.mem_table_of_mem hmem
          obtain ⟨q, hq, hcontent⟩ := List.mem_map.mp hset
          have htriple : q.content.triple = m.content.triple := congrArg PortMap.triple hcontent
          exact absurd htriple (pmlistFind_none hself q hq)
      | some temp =>
          obtain ⟨htemp, htriple⟩ := pmlistFind_some hself
          refine ⟨temp, htemp, htriple, ?_⟩
          have hdel : ((s.setEventId m.node (-1)).pmlistDelete accept m).1 =
              (((s.setEventId m.node (-1)).cancelMappingExpiration
                temp.expirationEventId).deleteRules accept m).unlink temp.node := by
            unfold Igd.pmlistDelete
            rw [hself]
          rw [← hdel]
          exact Igd.freeExpirationEvent_same e

/-- The node found first by its own fields is found by the same fields again. -/
theorem pmlistFind_self {l : List PortMap} {a b c : String} {p : PortMap}
    (h : pmlistFind l a b c = some p) :
    pmlistFind l p.externalPort p.protocol p.internalClient = some p := by
  obtain ⟨-, htriple⟩ := pmlistFind_some h
  simp only [PortMap.triple, Prod.mk.injEq] at htriple
  rw [htriple.1, htriple.2.1, htriple.2.2]
  exact h

theorem pmlistFindSpecific_some {l : List PortMap} {a b : String} {p : PortMap}
    (h : pmlistFindSpecific l a b = some p) :
    p ∈ l ∧ p.externalPort = a ∧ p.protocol = b := by
  refine ⟨List.mem_of_find?_eq_some h, ?_⟩
  have hp := List.find?_some h
  simpa using hp

theorem pmlistFindSpecific_none {l : List PortMap} {a b : String}
    (h : pmlistFindSpecific l a b = none) :
    ∀ p ∈ l, ¬ (p.externalPort = a ∧ p.protocol = b) := by
  intro p hp heq
  have hnone := List.find?_eq_none.mp h p hp
  simp [heq] at hnone

/-- The first node with a port and protocol is also the first with its client. -/
theorem pmlistFind_of_findSpecific {l : List PortMap} {a b : String} {p : PortMap}
    (h : pmlistFindSpecific l a b = some p) :
    pmlistFind l p.externalPort p.protocol p.internalClient = some p := by
  obtain ⟨-, ha, hb⟩ := pmlistFindSpecific_some h
  subst ha hb
  unfold pmlistFindSpecific at h
  unfold pmlistFind
  rw [List.find?_eq_some_iff_append] at h ⊢
  obtain ⟨-, before, after, hl, hbefore⟩ := h
  refine ⟨by simp, before, after, hl, fun q hq => ?_⟩
  have hq' := hbefore q hq
  simp only [Bool.not_eq_eq_eq_not, Bool.not_true, decide_eq_false_iff_not, not_and] at hq' ⊢
  intro hport hproto
  exact absurd hproto (hq' hport)

/-! ## A daemon to run -/

/-- A daemon that keeps forward rules and no default duration. -/
def plainVars : Vars where
  configureAllowed := true
  forwardRules := true
  duration := 0
  extInterfaceName := "eth1"
  preroutingChainName := "PREROUTING"
  forwardChainName := "FORWARD"

def noEmptyArgs (r : Rule) : Bool := !r.spec.contains ""

/-- A mapping of a port of 192.168.1.2 for a minute. -/
def minuteArgs (extPort intPort : String) : Igd.AddArgs where
  externalPort := some extPort
  protocol := some "TCP"
  internalPort := some intPort
  internalClient := some "192.168.1.2"
  leaseDuration := some "60"
  enabled := some "1"
  description := some "game"
  remoteHost := none

end Xwr100.Upnp
