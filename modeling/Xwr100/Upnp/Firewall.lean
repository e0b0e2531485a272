import Xwr100.Upnp.Mappings
import Mathlib.Algebra.BigOperators.Group.List.Basic
import Mathlib.Algebra.Order.Group.Multiset

/-!
# The firewall agrees with the mapping list

A mapping owns up to four rules.  They are installed when its node is appended and
removed by the fields of the node handed to `pmlist_Delete`; as long as no two nodes
share port, protocol and client, that is the node which leaves the list.
-/

namespace Xwr100.Upnp

open Lib

variable {accept : Rule → Bool} {s s' : Igd}

/-! ## The rules of a mapping -/

def spellOut (args : List String) : List String :=
  args.map fun a => if a = "--to" then "--to-destination" else a

/-- The match on the remote host, if there is one. -/
def sourceArgs (p : PortMap) : List String :=
  if p.remoteHost = "" then [] else ["-s", p.remoteHost]

def preroutingRule (g : Vars) (p : PortMap) : Rule :=
  ⟨.nat, g.preroutingChainName, spellOut (["-i", g.extInterfaceName] ++ sourceArgs p ++
    ["-p", p.protocol, "--dport", p.externalPort, "-j", "DNAT", "--to-destination",
      p.internalClient ++ ":" ++ p.internalPort])⟩

def forwardRule (g : Vars) (p : PortMap) : Rule :=
  ⟨.filter, g.forwardChainName, spellOut (sourceArgs p ++ ["-p", p.protocol,
    "-d", p.internalClient, "--dport", p.internalPort, "-j", "ACCEPT"])⟩

def natPortFwRule (g : Vars) (p : PortMap) : Rule :=
  ⟨.nat, "PORT_FW", spellOut (["-i", g.extInterfaceName, "-p", p.protocol] ++ sourceArgs p ++
    ["--dport", p.internalPort, "-j", "DNAT", "--to-destination", p.internalClient])⟩

def filterPortFwRule (p : PortMap) : Rule :=
  ⟨.filter, "PORT_FW", spellOut (sourceArgs p ++ ["-p", p.protocol,
    "-d", p.internalClient, "--dport", p.internalPort, "-j", "ACCEPT"])⟩

def mappingRules (g : Vars) (p : PortMap) : List Rule :=
  if p.enabled = 0 then []
  else
    [preroutingRule g p] ++ (if g.forwardRules then [forwardRule g p] else []) ++
      [natPortFwRule g p, filterPortFwRule p]

/-- The installed rules are the well-formed rules of the listed mappings, each as often as
it is listed. -/
def FirewallAgrees (accept : Rule → Bool) (s : Igd) : Prop :=
  s.rules =
    (s.pmlist.map fun p => ((mappingRules s.vars p).filter accept : Multiset Rule)).sum

instance (accept : Rule → Bool) (s : Igd) : Decidable (FirewallAgrees accept s) :=
  inferInstanceAs (Decidable (_ = _))

/-! ## Adding and deleting rules -/

theorem addPortMappingCalls_rules (g : Vars) (p : PortMap) :
    (addPortMappingCalls g p.enabled p.remoteHost p.protocol p.externalPort p.internalClient
      p.internalPort).map IptablesCall.rule = mappingRules g p := by
  unfold addPortMappingCalls mappingRules preroutingRule forwardRule natPortFwRule
    filterPortFwRule sourceArgs spellOut
  by_cases henabled : p.enabled = 0
  · simp [henabled]
  · by_cases hforward : g.forwardRules = true
    · by_cases hremote : p.remoteHost = ""
      · simp [henabled, hforward, hremote, IptablesCall.rule]
      · simp [henabled, hforward, hremote, IptablesCall.rule]
    · by_cases hremote : p.remoteHost = ""
      · simp [henabled, hforward, hremote, IptablesCall.rule]
      · simp [henabled, hforward, hremote, IptablesCall.rule]

theorem deletePortMappingCalls_rules (g : Vars) (p : PortMap) :
    (deletePortMappingCalls g p.enabled p.remoteHost p.protocol p.externalPort p.internalClient
      p.internalPort).map IptablesCall.rule = mappingRules g p := by
  unfold deletePortMappingCalls mappingRules preroutingRule forwardRule natPortFwRule
    filterPortFwRule sourceArgs spellOut
  by_cases henabled : p.enabled = 0
  · simp [henabled]
  · by_cases hforward : g.forwardRules = true
    · by_cases hremote : p.remoteHost = ""
      · simp [henabled, hforward, hremote, IptablesCall.rule]
      · simp [henabled, hforward, hremote, IptablesCall.rule]
    · by_cases hremote : p.remoteHost = ""
      · simp [henabled, hforward, hremote, IptablesCall.rule]
      · simp [henabled, hforward, hremote, IptablesCall.rule]

theorem addPortMappingCalls_op (g : Vars) (p : PortMap) :
    ∀ c ∈ addPortMappingCalls g p.enabled p.remoteHost p.protocol p.externalPort
      p.internalClient p.internalPort, c.op ≠ .delete := by
  unfold addPortMappingCalls
  by_cases henabled : p.enabled = 0
  · simp [henabled]
  · cases g.forwardRules <;> by_cases hremote : p.remoteHost = "" <;>
      simp [henabled, hremote]

theorem deletePortMappingCalls_op (g : Vars) (p : PortMap) :
    ∀ c ∈ deletePortMappingCalls g p.enabled p.remoteHost p.protocol p.externalPort
      p.internalClient p.internalPort, c.op = .delete := by
  unfold deletePortMappingCalls
  by_cases henabled : p.enabled = 0
  · simp [henabled]
  · cases g.forwardRules <;> by_cases hremote : p.remoteHost = "" <;>
      simp [henabled, hremote]

theorem foldl_iptables_add {calls : List IptablesCall} (h : ∀ c ∈ calls, c.op ≠ .delete)
    (rules : Multiset Rule) :
    calls.foldl (iptables accept) rules =
      ((calls.map IptablesCall.rule).filter accept : Multiset Rule) + rules := by
  rw [← foldl_cons_accepted, List.foldl_map]
  apply List.foldl_ext
  intro acc c hc
  have hop := h c hc
  unfold iptables
  cases hcase : c.op with
  | insert => rfl
  | append => rfl
  | delete => exact absurd hcase hop

theorem foldl_iptables_delete {calls : List IptablesCall} (h : ∀ c ∈ calls, c.op = .delete)
    (rules : Multiset Rule) :
    calls.foldl (iptables accept) rules =
      rules - ((calls.map IptablesCall.rule).filter accept : Multiset Rule) := by
  rw [← foldl_erase_accepted, List.foldl_map]
  apply List.foldl_ext
  intro acc c hc
  have hop := h c hc
  unfold iptables
  rw [hop]

/-! ## The invariant -/

def acceptedRules (accept : Rule → Bool) (g : Vars) (p : PortMap) : Multiset Rule :=
  ((mappingRules g p).filter accept : Multiset Rule)

theorem acceptedRules_content (g : Vars) (p : PortMap) :
    acceptedRules accept g p.content = acceptedRules accept g p := rfl

/-- Nodes and their lookup fields are distinct, and the firewall agrees. -/
structure Agree (accept : Rule → Bool) (s : Igd) : Prop where
  nodes : s.NodesOk
  triples : (s.table.map PortMap.triple).Nodup
  rules : s.rules = (s.table.map (acceptedRules accept s.vars)).sum

theorem Agree.of_same (h : Agree accept s) (hsame : Igd.Same s s') : Agree accept s' := by
  constructor
  · exact h.nodes.of_same hsame
  · rw [hsame.table]
    exact h.triples
  · rw [hsame.table, hsame.rules, hsame.vars]
    exact h.rules

theorem Agree.firewallAgrees (h : Agree accept s) : FirewallAgrees accept s := by
  have hrules := h.rules
  unfold Igd.table at hrules
  rw [List.map_map] at hrules
  exact hrules

theorem Agree.remove (h : Agree accept s) {item : PortMap} (hitem : item ∈ s.pmlist)
    (id : Int) :
    Agree accept
      (((s.cancelMappingExpiration id).deleteRules accept item).unlink item.node) := by
  have hmem := Igd.mem_table_of_mem hitem
  have hperm := perm_cons_filter_label h.nodes hmem
  constructor
  · exact h.nodes.remove _ _ _
  · rw [Igd.remove_table]
    exact h.triples.sublist (List.filter_sublist.map _)
  · rw [Igd.remove_table, Igd.remove_rules, Igd.remove_vars,
      foldl_iptables_delete (deletePortMappingCalls_op _ item), deletePortMappingCalls_rules,
      h.rules, (hperm.map (acceptedRules accept s.vars)).sum_eq, List.map_cons, List.sum_cons]
    exact add_tsub_cancel_left _ _

theorem Igd.insertMapping_rules (block : Block) (outcome : Igd.ScheduleOutcome)
    (enabled duration : Int) (remoteHost : Option String)
    (extPort intPort proto intIp desc : String) :
    (s.insertMapping accept block outcome enabled duration remoteHost extPort intPort proto
      intIp desc).rules =
      acceptedRules accept s.vars (newNode (s.malloc block) block.garbage enabled duration remoteHost extPort
        intPort proto intIp desc) + s.rules := by
  rw [(Igd.insertMapping_same block outcome enabled duration remoteHost extPort intPort proto
    intIp desc).rules]
  unfold Igd.pushBack
  dsimp only
  rw [foldl_iptables_add (addPortMappingCalls_op _ (newNode _ _ _ _ _ _ _ _ _ _)),
    addPortMappingCalls_rules]
  rfl

theorem Agree.insertMapping (h : Agree accept s) (block : Block) (outcome : Igd.ScheduleOutcome)
    (enabled duration : Int) (remoteHost : Option String)
    (extPort intPort proto intIp desc : String)
    (htriple : ∀ p ∈ s.table,
      p.triple ≠ (fitField 6 extPort, fitField 4 proto, fitField 16 intIp)) :
    Agree accept (s.insertMapping accept block outcome enabled duration remoteHost extPort
      intPort proto intIp desc) := by
  have hsame : Igd.Same _ (s.insertMapping accept block outcome enabled duration remoteHost
      extPort intPort proto intIp desc) :=
    Igd.insertMapping_same block outcome enabled duration remoteHost extPort intPort proto
      intIp desc
  have hvars : (s.insertMapping accept block outcome enabled duration remoteHost extPort intPort
      proto intIp desc).vars = s.vars := hsame.vars
  constructor
  · exact h.nodes.insertMapping _ _ _ _ _ _ _ _ _ _
  · rw [Igd.insertMapping_table, List.map_append, List.nodup_append]
    refine ⟨h.triples, by simp, ?_⟩
    intro a ha b hb
    obtain ⟨p, hp, rfl⟩ := List.mem_map.mp ha
    simp only [List.map_cons, List.map_nil, List.mem_singleton, PortMap.content_triple] at hb
    rw [hb]
    exact htriple p hp
  · rw [Igd.insertMapping_rules, Igd.insertMapping_table, hvars, h.rules, List.map_append,
      List.sum_append, add_comm, List.map_singleton, List.sum_singleton, acceptedRules_content]

/-! ## Handlers -/

/-- The requests and expirations that keep the firewall in step: what an added mapping stores
as port, protocol and client is not stored by a node the request does not itself match, and an
expired mapping is still listed. -/
def KeepsFirewall (s : Igd) : Igd.Input → Prop
  | .addPortMapping args _ _ =>
      ∀ extPort proto intIp, args.externalPort = some extPort → args.protocol = some proto →
        args.internalClient = some intIp →
        ∀ p ∈ s.pmlist, p.triple = (fitField 6 extPort, fitField 4 proto, fitField 16 intIp) →
          p.triple = (extPort, proto, intIp)
  | .expireMapping eventId =>
      ∀ e ∈ s.dispatched, e.eventId = eventId → s.allocated e.mapping = true
  | _ => True

theorem Agree.pmlistDelete (h : Agree accept s) {item : PortMap}
    (hfind : pmlistFind s.pmlist item.externalPort item.protocol item.internalClient = some item) :
    Agree accept (s.pmlistDelete accept item).1 := by
  unfold Igd.pmlistDelete
  rw [hfind]
  exact h.remove (pmlistFind_some hfind).1 _

theorem Agree.addPortMapping (h : Agree accept s) {args : Igd.AddArgs} {block : Block}
    {outcome : Igd.ScheduleOutcome} (hkeep : KeepsFirewall s (.addPortMapping args block outcome)) :
    Agree accept (s.addPortMapping accept args block outcome).1 := by
  unfold Igd.addPortMapping
  split
  · exact h
  · split
    · rename_i extPort proto intPort intIp duration enabled desc hext hproto hintp hip hdur hen hdesc
      have hclash := hkeep extPort proto intIp hext hproto hip
      split
      · exact h
      · dsimp only
        cases hfind : pmlistFind s.pmlist extPort proto intIp with
        | none =>
            refine h.insertMapping _ _ _ _ _ _ _ _ _ _ fun p hp heq => ?_
            obtain ⟨q, hq, rfl⟩ := List.mem_map.mp hp
            exact pmlistFind_none hfind q hq (hclash q hq heq)
        | some ret =>
            obtain ⟨hret, htriple⟩ := pmlistFind_some hfind
            have hself := pmlistFind_self hfind
            refine (h.pmlistDelete hself).insertMapping _ _ _ _ _ _ _ _ _ _ fun p hp heq => ?_
            unfold Igd.pmlistDelete at hp
            rw [hself] at hp
            simp only [Igd.remove_table] at hp
            obtain ⟨hpt, hne⟩ := List.mem_filter.mp hp
            obtain ⟨q, hq, rfl⟩ := List.mem_map.mp hpt
            -- a listed node with the stored fields is the one the request replaces
            have hqt : q.content.triple = ret.content.triple :=
              (hclash q hq heq).trans htriple.symm
            have hsame := List.inj_on_of_nodup_map h.triples (Igd.mem_table_of_mem hq)
              (Igd.mem_table_of_mem hret) hqt
            have hnode : q.node = ret.node := by simpa using congrArg PortMap.node hsame
            simp [hnode] at hne
    · exact h

theorem Agree.deletePortMapping (h : Agree accept s) (extPort proto : Option String) :
    Agree accept (s.deletePortMapping accept extPort proto).1 := by
  unfold Igd.deletePortMapping
  split
  · exact h
  · split
    · split
      · split
        · rename_i temp hfind
          exact h.pmlistDelete (pmlistFind_of_findSpecific hfind)
        · exact h
      · exact h
    · exact h

theorem Agree.freeListLoop (n : Nat) (s : Igd) (h : Agree accept s) :
    Agree accept (Igd.freeListLoop accept n s) := by
  apply Igd.freeListLoop_invariant (P := Agree accept) _ n s h
  intro s' temp hmem hok
  exact hok.remove hmem _

theorem Agree.expireEvent (h : Agree accept s) {e : ExpirationEvent}
    (halloc : s.allocated e.mapping = true) : Agree accept (s.expireEvent accept e) := by
  obtain ⟨m, hmem, -, temp, htemp, htriple, hexpired⟩ := @expireEvent_same accept s e halloc
  have hsame : Igd.Same s (s.setEventId m.node (-1)) := Igd.setEventId_same _ _
  have hset : Agree accept (s.setEventId m.node (-1)) := h.of_same hsame
  refine Agree.of_same ?_ hexpired
  -- the fields find a node that differs from the event's at most in its event id
  have hmt : m.content ∈ (s.setEventId m.node (-1)).table := by
    rw [hsame.table]
    exact Igd.mem_table_of_mem hmem
  have heq := List.inj_on_of_nodup_map hset.triples (Igd.mem_table_of_mem htemp) hmt htriple
  have hrm := hset.remove htemp temp.expirationEventId
  rw [Igd.deleteRules_content temp, heq, ← Igd.deleteRules_content m] at hrm
  exact hrm

theorem Agree.expireMapping (h : Agree accept s) {eventId : Nat}
    (hkeep : KeepsFirewall s (.expireMapping eventId)) :
    Agree accept (s.expireMapping accept eventId) := by
  unfold Igd.expireMapping
  cases hfind : s.dispatched.find? fun e => decide (e.eventId = eventId) with
  | none => exact h
  | some e =>
      have hrunning : Agree accept
          { s with dispatched := s.dispatched.filter fun e' => e'.eventId ≠ e.eventId } :=
        h.of_same ⟨rfl, rfl, rfl⟩
      refine hrunning.expireEvent (hkeep e (List.mem_of_find?_eq_some hfind) ?_)
      simpa using List.find?_some hfind

theorem step_agree (accept : Rule → Bool) (s : Igd) (i : Igd.Input) (h : Agree accept s)
    (hkeep : KeepsFirewall s i) : Agree accept (Igd.step accept s i) := by
  cases i with
  | addPortMapping args block outcome => exact h.addPortMapping hkeep
  | deletePortMapping extPort proto => exact h.deletePortMapping extPort proto
  | getSpecificPortMappingEntry extPort proto => exact h
  | getGenericPortMappingEntry mapindex => exact h
  | deleteAllPortMappings => exact Agree.freeListLoop _ s h
  | dispatch eventId => exact h.of_same (Igd.dispatch_same eventId)
  | expireMapping eventId => exact h.expireMapping hkeep

/-- Along every run that keeps the stored lookup fields distinct and expires listed mappings
only, the firewall agrees with the mapping list. -/
theorem run_firewallAgrees (accept : Rule → Bool) (vars : Vars) (inputs : List Igd.Input)
    (h : Along (Igd.step accept) KeepsFirewall (Igd.init vars) inputs) :
    FirewallAgrees accept (exec (Igd.step accept) (Igd.init vars) inputs) := by
  have hinit : Agree accept (Igd.init vars) :=
    ⟨Igd.NodesOk.init vars, by simp [Igd.init, Igd.table], by simp [Igd.init, Igd.table]⟩
  exact (h.invariant (step_agree accept) hinit).firewallAgrees

/-- Two mappings whose external port is too long to be stored: when the second expires, its
rules are removed and the first one's node. -/
theorem expire_leaves_rules :
    ¬ FirewallAgrees noEmptyArgs (exec (Igd.step noEmptyArgs) (Igd.init plainVars)
      [.addPortMapping (minuteArgs "123456" "80") ⟨0, 0⟩ .scheduled,
        .addPortMapping (minuteArgs "123456" "81") ⟨1, 0⟩ .scheduled,
        .dispatch 1, .expireMapping 1]) := by
  decide

/-- Two mappings with ports that fit, one replaced, one expired, one deleted. -/
theorem run_firewallAgrees_two_ports :
    FirewallAgrees noEmptyArgs (exec (Igd.step noEmptyArgs) (Igd.init plainVars)
      [.addPortMapping (minuteArgs "8080" "80") ⟨0, 0⟩ .scheduled,
        .addPortMapping (minuteArgs "8081" "81") ⟨1, 0⟩ .scheduled,
        .addPortMapping (minuteArgs "8080" "82") ⟨2, 0⟩ .scheduled,
        .dispatch 1, .expireMapping 1, .deletePortMapping (some "8080") (some "TCP")]) := by
  refine run_firewallAgrees noEmptyArgs plainVars _ ⟨?_, ?_, ?_, trivial, ?_, trivial, trivial⟩
  · rintro _ _ _ ⟨⟩ ⟨⟩ ⟨⟩
    decide
  · rintro _ _ _ ⟨⟩ ⟨⟩ ⟨⟩
    decide
  · rintro _ _ _ ⟨⟩ ⟨⟩ ⟨⟩
    decide
  · unfold KeepsFirewall
    decide

end Xwr100.Upnp
