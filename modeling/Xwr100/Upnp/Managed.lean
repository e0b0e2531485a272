import Xwr100.Upnp.Firewall
import Xwr100.Upnp.MapRefinement

/-!
# Managing an added mapping

Whether a mapping that `AddPortMapping` has accepted can be read back and deleted under the
port and protocol it was added with.  Reading and deleting look for the texts of the request,
while the list holds what `pmlist_NewNode` stored of them.
-/

namespace Xwr100.Upnp

open Lib

variable {accept : Rule → Bool} {s s' s'' : Igd}

/-! ## Every reachable list -/

theorem Igd.cleared_rules_of_some {extPort proto intIp : String} {ret : PortMap}
    (h : pmlistFind s.pmlist extPort proto intIp = some ret) :
    (Igd.cleared accept s extPort proto intIp).rules =
      s.rules - acceptedRules accept s.vars ret := by
  unfold Igd.cleared Igd.pmlistDelete
  simp only [h, pmlistFind_self h]
  rw [Igd.remove_rules, foldl_iptables_delete (deletePortMappingCalls_op _ ret),
    deletePortMappingCalls_rules]
  rfl

/-- What holds of every list: its nodes are told apart, their ports fit their field, and no two
nodes have the same port and protocol, unless one of the texts is empty. -/
structure ListOk (s : Igd) : Prop where
  nodes : s.NodesOk
  ports : ∀ p ∈ s.table, p.externalPort.utf8ByteSize < 6
  keys : ∀ p ∈ s.table, ∀ q ∈ s.table, p.externalPort ≠ "" → p.protocol ≠ "" →
    p.key = q.key → p = q

theorem ListOk.init (vars : Vars) : ListOk (Igd.init vars) := by
  refine ⟨Igd.NodesOk.init vars, ?_, ?_⟩ <;> simp [Igd.init, Igd.table]

theorem ListOk.shrinks (h : ListOk s) (hs : Shrinks s s') : ListOk s' := by
  refine ⟨h.nodes.sublist hs.table, fun p hp => ?_, fun p hp q hq => ?_⟩
  · exact h.ports p (hs.table.mem hp)
  · exact h.keys p (hs.table.mem hp) q (hs.table.mem hq)

section Added

variable {extPort proto intPort intIp : String}

/-- After a request without conflict, an entry for its port and protocol has its client. -/
theorem triple_of_no_conflict (hother : pmlistFindSameExtPort s.pmlist extPort proto intIp = none)
    {p : PortMap} (hp : p ∈ s.table) (hkey : p.key = (extPort, proto)) :
    p.triple = (extPort, proto, intIp) := by
  obtain ⟨q, hq, rfl⟩ := List.mem_map.mp hp
  have hnone := List.find?_eq_none.mp hother q hq
  have hkey' : q.externalPort = extPort ∧ q.protocol = proto := by
    simpa [PortMap.key, PortMap.content] using hkey
  have hclient : q.internalClient = intIp := by simpa [hkey'] using hnone
  rw [PortMap.content_triple]
  simp [PortMap.triple, hkey', hclient]

/-- If the replaced entry is the only one for its texts, the cleared list has no entry for the
port and protocol. -/
theorem cleared_no_key (hother : pmlistFindSameExtPort s.pmlist extPort proto intIp = none)
    (honly : ∀ p ∈ s.table, ∀ q ∈ s.table, p.triple = (extPort, proto, intIp) →
      q.triple = (extPort, proto, intIp) → p = q) :
    ∀ p ∈ (Igd.cleared accept s extPort proto intIp).table, p.key ≠ (extPort, proto) := by
  intro p hp hkey
  have hmem := (Igd.cleared_shrinks extPort proto intIp).table.mem hp
  have htriple := triple_of_no_conflict hother hmem hkey
  cases hfind : pmlistFind s.pmlist extPort proto intIp with
  | none =>
      obtain ⟨q, hq, rfl⟩ := List.mem_map.mp hmem
      exact pmlistFind_none hfind q hq htriple
  | some ret =>
      obtain ⟨hret, hretTriple⟩ := pmlistFind_some hfind
      have heq := honly p hmem ret.content (Igd.mem_table_of_mem hret) htriple hretTriple
      rw [Igd.cleared_table_of_some hfind] at hp
      have hne := (List.mem_filter.mp hp).2
      simp [heq] at hne

end Added

theorem ListOk.addPortMapping (h : ListOk s) (args : Igd.AddArgs) (block : Block)
    (outcome : Igd.ScheduleOutcome) : ListOk (s.addPortMapping accept args block outcome).1 := by
  by_cases hdone : (s.addPortMapping accept args block outcome).2 = .done
  · obtain ⟨extPort, proto, intPort, intIp, duration, enabled, desc, -, -, hother, heq⟩ :=
      Igd.addPortMapping_done hdone
    have hcleared : ListOk (Igd.cleared accept s extPort proto intIp) :=
      h.shrinks (Igd.cleared_shrinks extPort proto intIp)
    rw [heq]
    refine ⟨hcleared.nodes.insertMapping _ _ _ _ _ _ _ _ _ _, ?_, ?_⟩
    · intro p hp
      rw [Igd.insertMapping_table] at hp
      rcases List.mem_append.mp hp with hold | hnew
      · exact hcleared.ports p hold
      · rw [List.mem_singleton.mp hnew]
        exact fitField_size (by decide)
    · -- an entry for the texts the new node stores would have been replaced
      have hnokey : ∀ p ∈ (Igd.cleared accept s extPort proto intIp).table,
          fitField 6 extPort ≠ "" → fitField 4 proto ≠ "" →
          p.key ≠ (fitField 6 extPort, fitField 4 proto) := by
        intro p hp hext hproto
        rw [fitField_eq hext, fitField_eq hproto]
        rw [fitField_eq hext] at hext
        rw [fitField_eq hproto] at hproto
        refine cleared_no_key hother ?_ p hp
        intro a ha b hb hta htb
        simp only [PortMap.triple, Prod.mk.injEq] at hta htb
        apply h.keys a ha b hb
        · rw [hta.1]
          exact hext
        · rw [hta.2.1]
          exact hproto
        · simp [PortMap.key, hta, htb]
      intro p hp q hq hext hproto hkey
      rw [Igd.insertMapping_table] at hp hq
      rcases List.mem_append.mp hp with hpold | hpnew
      · rcases List.mem_append.mp hq with hqold | hqnew
        · exact hcleared.keys p hpold q hqold hext hproto hkey
        · rw [List.mem_singleton.mp hqnew] at hkey
          simp only [PortMap.key, Prod.mk.injEq] at hkey
          rw [hkey.1] at hext
          rw [hkey.2] at hproto
          exact absurd (by simp [PortMap.key, hkey]; exact ⟨rfl, rfl⟩)
            (hnokey p hpold hext hproto)
      · rcases List.mem_append.mp hq with hqold | hqnew
        · rw [List.mem_singleton.mp hpnew] at hkey hext hproto
          exact absurd hkey.symm (hnokey q hqold hext hproto)
        · rw [List.mem_singleton.mp hpnew, List.mem_singleton.mp hqnew]
  · rw [Igd.addPortMapping_not_done hdone]
    exact h

theorem step_listOk (s : Igd) (i : Igd.Input) (h : ListOk s) : ListOk (Igd.step accept s i) := by
  cases i with
  | addPortMapping args block outcome => exact h.addPortMapping args block outcome
  | deletePortMapping extPort proto => exact h.shrinks (Igd.deletePortMapping_shrinks extPort proto)
  | getSpecificPortMappingEntry extPort proto => exact h
  | getGenericPortMappingEntry mapindex => exact h
  | deleteAllPortMappings => exact h.shrinks (Igd.freeListLoop_shrinks _ s)
  | dispatch eventId => exact h.shrinks (Igd.dispatch_same eventId).shrinks
  | expireMapping eventId => exact h.shrinks (Igd.expireMapping_shrinks eventId)

theorem run_listOk (accept : Rule → Bool) (vars : Vars) (inputs : List Igd.Input) :
    ListOk (exec (Igd.step accept) (Igd.init vars) inputs) := by
  have hall : Along (Igd.step accept) (fun _ _ => True) (Igd.init vars) inputs :=
    along_of_forall fun _ _ => trivial
  exact hall.invariant (fun s i h _ => step_listOk s i h) (ListOk.init vars)

/-! ## Reading back and deleting -/

structure Texts where
  extPort : String
  proto : String
  intPort : String
  intIp : String
  enabled : String
  desc : String
deriving DecidableEq, Repr

namespace Texts

/-- What `pmlist_Find` looks for. -/
def triple (t : Texts) : String × String × String := (t.extPort, t.proto, t.intIp)

/-- `GetSpecificPortMappingEntry` answers with the texts of the request. -/
def ReadBack (ixmlParseBuffer : String → Option Document) (t : Texts) (s : Igd) : Prop :=
  ∃ doc, s.getSpecificPortMappingEntry ixmlParseBuffer (some t.extPort) (some t.proto) =
      .result doc ∧
    doc.item "NewInternalPort" = t.intPort ∧ doc.item "NewInternalClient" = t.intIp ∧
    doc.item "NewEnabled" = t.enabled ∧ doc.item "NewPortMappingDescription" = t.desc

/-- `DeletePortMapping` succeeds and leaves the list and the rules of `before`, without the
entries for the request's texts and their rules. -/
def DeleteRestores (accept : Rule → Bool) (t : Texts) (before s : Igd) : Prop :=
  ∃ s', s.deletePortMapping accept (some t.extPort) (some t.proto) = (s', .done) ∧
    s'.table = before.table.filter (fun p => p.triple ≠ t.triple) ∧
    s'.rules = before.rules -
      ((before.table.filter fun p => p.triple = t.triple).map
        (acceptedRules accept before.vars)).sum

/-- The texts that are printed into a reply have no markup. -/
structure Plain (t : Texts) : Prop where
  intPort : PlainText t.intPort
  intIp : PlainText t.intIp
  desc : PlainText t.desc

/-- The protocol is one that can be asked for, every text fits its field and is printed as it
was given and without markup, and, if the port is empty, at most one entry has the request's
texts. -/
structure Manageable (t : Texts) (s : Igd) : Prop where
  protocol : t.proto = "TCP" ∨ t.proto = "UDP"
  extPort : t.extPort.utf8ByteSize < 6
  intPort : t.intPort.utf8ByteSize < 6
  intIp : t.intIp.utf8ByteSize < 16
  desc : t.desc.utf8ByteSize < 50
  enabled : toString (atoi t.enabled) = t.enabled
  plain : t.Plain
  single : t.extPort = "" → ∀ p ∈ s.table, ∀ q ∈ s.table, p.triple = t.triple →
    q.triple = t.triple → p = q

end Texts

variable {t : Texts}

theorem Texts.Manageable.only (hm : t.Manageable s) (h : ListOk s) :
    ∀ p ∈ s.table, ∀ q ∈ s.table, p.triple = (t.extPort, t.proto, t.intIp) →
      q.triple = (t.extPort, t.proto, t.intIp) → p = q := by
  intro p hp q hq htp htq
  by_cases hext : t.extPort = ""
  · exact hm.single hext p hp q hq htp htq
  · simp only [PortMap.triple, Prod.mk.injEq] at htp htq
    apply h.keys p hp q hq
    · rw [htp.1]
      exact hext
    · rw [htp.2.1]
      rcases hm.protocol with hproto | hproto <;> simp [hproto]
    · simp [PortMap.key, htp, htq]

/-- The entries of one client, port and protocol, when there is only one. -/
theorem filter_triple_eq (h : ListOk s) {ret : PortMap} (hret : ret ∈ s.table)
    (honly : ∀ p ∈ s.table, p.triple = ret.triple → p = ret) :
    (s.table.filter fun p => p.triple = ret.triple) = [ret] ∧
    (s.table.filter fun p => p.triple ≠ ret.triple) =
      s.table.filter fun p => p.node ≠ ret.node := by
  have hnodup : s.table.Nodup := List.Nodup.of_map _ h.nodes
  constructor
  · apply List.perm_singleton.mp
    rw [List.perm_ext_iff_of_nodup (hnodup.filter _) (List.nodup_singleton ret)]
    intro p
    rw [List.mem_filter, List.mem_singleton]
    constructor
    · rintro ⟨hp, htriple⟩
      exact honly p hp (by simpa using htriple)
    · rintro rfl
      exact ⟨hret, by simp⟩
  · apply List.filter_congr
    intro p hp
    have hiff : p.triple = ret.triple ↔ p.node = ret.node := by
      constructor
      · intro htriple
        rw [honly p hp htriple]
      · intro hnode
        rw [List.inj_on_of_nodup_map h.nodes hp hret hnode]
    simp [hiff]

/-- Without a second entry for the request's texts, clearing takes out the entries for them
and their rules. -/
theorem cleared_spec (h : ListOk s)
    (honly : ∀ p ∈ s.table, ∀ q ∈ s.table, p.triple = t.triple → q.triple = t.triple → p = q) :
    (Igd.cleared accept s t.extPort t.proto t.intIp).table =
      s.table.filter (fun p => p.triple ≠ t.triple) ∧
    (Igd.cleared accept s t.extPort t.proto t.intIp).rules =
      s.rules - ((s.table.filter fun p => p.triple = t.triple).map
        (acceptedRules accept s.vars)).sum := by
  cases hfind : pmlistFind s.pmlist t.extPort t.proto t.intIp with
  | none =>
      have hno : ∀ p ∈ s.table, p.triple ≠ t.triple := by
        intro p hp
        obtain ⟨q, hq, rfl⟩ := List.mem_map.mp hp
        exact pmlistFind_none hfind q hq
      have hkeep : s.table.filter (fun p => p.triple ≠ t.triple) = s.table := by
        rw [List.filter_eq_self]
        intro p hp
        simpa using hno p hp
      have hgone : s.table.filter (fun p => p.triple = t.triple) = [] := by
        rw [List.filter_eq_nil_iff]
        intro p hp
        simpa using hno p hp
      rw [Igd.cleared_of_none hfind, hkeep, hgone]
      simp
  | some ret =>
      obtain ⟨hret, htriple⟩ := pmlistFind_some hfind
      have hmem := Igd.mem_table_of_mem hret
      have htriple' : ret.content.triple = t.triple := htriple
      have hfilter := filter_triple_eq h hmem fun p hp htp =>
        honly p hp ret.content hmem (htp.trans htriple') htriple'
      rw [htriple'] at hfilter
      rw [Igd.cleared_table_of_some hfind, Igd.cleared_rules_of_some hfind, hfilter.1, hfilter.2]
      refine ⟨rfl, ?_⟩
      rw [List.map_singleton, List.sum_singleton, acceptedRules_content]

/-- If clearing takes out all entries for the request's texts, there was at most one. -/
theorem cleared_single (h : ListOk s)
    (hcleared : (Igd.cleared accept s t.extPort t.proto t.intIp).table =
      s.table.filter fun p => p.triple ≠ t.triple) :
    ∀ p ∈ s.table, ∀ q ∈ s.table, p.triple = t.triple → q.triple = t.triple → p = q := by
  have hgone : ∀ p ∈ s.table, p.triple = t.triple →
      p ∉ (Igd.cleared accept s t.extPort t.proto t.intIp).table := by
    intro p _ htriple hp
    rw [hcleared] at hp
    have hne := (List.mem_filter.mp hp).2
    simp [htriple] at hne
  intro p hp q hq htp htq
  cases hfind : pmlistFind s.pmlist t.extPort t.proto t.intIp with
  | none =>
      rw [Igd.cleared_of_none hfind] at hgone
      exact absurd hp (hgone p hp htp)
  | some ret =>
      have hnode : ∀ a ∈ s.table, a.triple = t.triple → a.node = ret.node := by
        intro a ha hta
        by_contra hne
        apply hgone a ha hta
        rw [Igd.cleared_table_of_some hfind]
        exact List.mem_filter.mpr ⟨ha, decide_eq_true hne⟩
      apply List.inj_on_of_nodup_map h.nodes hp hq
      rw [hnode p hp htp, hnode q hq htq]

/-- Deleting under a port and protocol takes out the first node that has them. -/
theorem Igd.deletePortMapping_found {extPort proto : String} {p : PortMap}
    (hallowed : s.vars.configureAllowed = true) (hproto : proto = "TCP" ∨ proto = "UDP")
    (hfind : pmlistFindSpecific s.pmlist extPort proto = some p) :
    ∃ s', s.deletePortMapping accept (some extPort) (some proto) = (s', .done) ∧
      s'.table = s.table.filter (fun q => q.node ≠ p.node) ∧
      s'.rules = s.rules - acceptedRules accept s.vars p := by
  have hself := pmlistFind_of_findSpecific hfind
  refine ⟨((s.cancelMappingExpiration p.expirationEventId).deleteRules accept p).unlink p.node, ?_,
    remove_table p.expirationEventId p p.node, ?_⟩
  · unfold Igd.deletePortMapping Igd.pmlistDelete
    simp only [hallowed, hfind, hself, Bool.not_true, Bool.false_eq_true, if_false, if_pos hproto,
      if_true]
  · rw [Igd.remove_rules, foldl_iptables_delete (deletePortMappingCalls_op _ p),
      deletePortMappingCalls_rules]
    rfl

/-- Reading finds what the list holds first under the port and protocol. -/
theorem Igd.getSpecific_result {ixmlParseBuffer : String → Option Document}
    {extPort proto : String} {doc : Document} :
    s.getSpecificPortMappingEntry ixmlParseBuffer (some extPort) (some proto) = .result doc ↔
      (proto = "TCP" ∨ proto = "UDP") ∧ ∃ p, pmlistFindSpecific s.pmlist extPort proto = some p ∧
        ixmlParseBuffer p.specificReply = some doc := by
  unfold Igd.getSpecificPortMappingEntry Igd.specificEntry
  by_cases hproto : proto = "TCP" ∨ proto = "UDP"
  · cases hfind : pmlistFindSpecific s.pmlist extPort proto with
    | none => simp [hproto, hfind]
    | some p => cases hparse : ixmlParseBuffer p.specificReply <;>
        simp [hproto, hfind, hparse, handleInvokeAction]
  · simp [hproto]

section Managed

variable {args : Igd.AddArgs} {block : Block} {outcome : Igd.ScheduleOutcome} {duration : String}
  {new : PortMap} {ixmlParseBuffer : String → Option Document}

/-- The node an accepted request appends; it may come where the one it replaces was. -/
def Texts.node (accept : Rule → Bool) (t : Texts) (s : Igd) (block : Block) (duration : String)
    (remoteHost : Option String) : PortMap :=
  newNode ((Igd.cleared accept s t.extPort t.proto t.intIp).malloc block) block.garbage
    (atoi t.enabled) (atoi duration) remoteHost t.extPort t.intPort t.proto t.intIp t.desc

theorem node_stored {remoteHost : Option String} :
    (t.node accept s block duration remoteHost).Stored :=
  newNode_stored _ _ (atoi_isInt _) (atoi_isInt _) _ _ _ _ _ _

/-- The daemon after an accepted request: the cleared list with the new node behind it. -/
structure Added (accept : Rule → Bool) (t : Texts) (new : PortMap) (s s' : Igd) : Prop where
  conflict : pmlistFindSameExtPort s.pmlist t.extPort t.proto t.intIp = none
  allowed : s'.vars.configureAllowed = true
  vars : s'.vars = s.vars
  table : s'.table = (Igd.cleared accept s t.extPort t.proto t.intIp).table ++ [new.content]
  rules : s'.rules = acceptedRules accept s.vars new +
    (Igd.cleared accept s t.extPort t.proto t.intIp).rules

theorem added_of_done
    (hargs : args.Complete t.extPort t.proto t.intPort t.intIp duration t.enabled t.desc)
    (hdone : (s.addPortMapping accept args block outcome).2 = .done) :
    Added accept t (t.node accept s block duration args.remoteHost) s
      (s.addPortMapping accept args block outcome).1 := by
  obtain ⟨extPort, proto, intPort, intIp, duration', enabled, desc, hgiven, hallowed, hother,
    heq⟩ :=
    Igd.addPortMapping_done hdone
  cases hargs.externalPort.symm.trans hgiven.externalPort
  cases hargs.protocol.symm.trans hgiven.protocol
  cases hargs.internalPort.symm.trans hgiven.internalPort
  cases hargs.internalClient.symm.trans hgiven.internalClient
  cases hargs.leaseDuration.symm.trans hgiven.leaseDuration
  cases hargs.enabled.symm.trans hgiven.enabled
  cases hargs.description.symm.trans hgiven.description
  have hshrinks : Shrinks s (Igd.cleared accept s t.extPort t.proto t.intIp) :=
    Igd.cleared_shrinks _ _ _
  rw [heq]
  refine ⟨hother, ?_, ?_, ?_, ?_⟩
  · rw [Igd.insertMapping_vars, hshrinks.vars]
    exact hallowed
  · rw [Igd.insertMapping_vars, hshrinks.vars]
  · rw [Igd.insertMapping_table]
    rfl
  · rw [Igd.insertMapping_rules, hshrinks.vars]
    rfl

/-- What is left of the list without the new node. -/
theorem Added.filter_new (hadded : Added accept t new s s')
    (hnew : ∀ q ∈ (Igd.cleared accept s t.extPort t.proto t.intIp).table, q.node ≠ new.node) :
    s'.table.filter (fun q => q.node ≠ new.node) =
      (Igd.cleared accept s t.extPort t.proto t.intIp).table := by
  have hkeep : (Igd.cleared accept s t.extPort t.proto t.intIp).table.filter
      (fun q => q.node ≠ new.node) = (Igd.cleared accept s t.extPort t.proto t.intIp).table := by
    rw [List.filter_eq_self]
    intro q hq
    exact decide_eq_true (hnew q hq)
  rw [hadded.table, List.filter_append, hkeep]
  simp

/-- A node the lookup finds is the new one if it is not of the cleared list. -/
theorem Added.found_new (hadded : Added accept t new s s') {p : PortMap}
    (hfind : pmlistFindSpecific s'.pmlist t.extPort t.proto = some p)
    (hold : p.content ∉ (Igd.cleared accept s t.extPort t.proto t.intIp).table) :
    p.content = new.content := by
  have hmem := Igd.mem_table_of_mem (pmlistFindSpecific_some hfind).1
  rw [hadded.table] at hmem
  rcases List.mem_append.mp hmem with hin | hlast
  · exact absurd hin hold
  · exact List.mem_singleton.mp hlast

/-- An entry with other texts is not cleared. -/
theorem mem_cleared (h : ListOk s) {q : PortMap} (hq : q ∈ s.table) (hne : q.triple ≠ t.triple) :
    q ∈ (Igd.cleared accept s t.extPort t.proto t.intIp).table := by
  cases hfind : pmlistFind s.pmlist t.extPort t.proto t.intIp with
  | none => rwa [Igd.cleared_of_none hfind]
  | some ret =>
      obtain ⟨hret, htriple⟩ := pmlistFind_some hfind
      rw [Igd.cleared_table_of_some hfind]
      refine List.mem_filter.mpr ⟨hq, decide_eq_true fun heq => hne ?_⟩
      rw [List.inj_on_of_nodup_map h.nodes hq (Igd.mem_table_of_mem hret) heq]
      exact htriple

/-- The condition is enough: the new node is the only one under its port and protocol. -/
theorem Added.managed (hxml : ReadsReplies ixmlParseBuffer) (h : ListOk s) (hm : t.Manageable s)
    (hadded : Added accept t (t.node accept s block duration args.remoteHost) s s') :
    t.ReadBack ixmlParseBuffer s' ∧ t.DeleteRestores accept s s' := by
  have honly := hm.only h
  have hnokey := @cleared_no_key accept s _ _ _ hadded.conflict honly
  -- the lookup by port and protocol finds the new node
  have hfound : ∃ p, pmlistFindSpecific s'.pmlist t.extPort t.proto = some p ∧
      p.content = (t.node accept s block duration args.remoteHost).content := by
    cases hfind : pmlistFindSpecific s'.pmlist t.extPort t.proto with
    | some p =>
        refine ⟨p, rfl, hadded.found_new hfind fun hold => hnokey _ hold ?_⟩
        obtain ⟨-, hext, hproto⟩ := pmlistFindSpecific_some hfind
        exact Prod.ext hext hproto
    | none =>
        have hmem : (t.node accept s block duration args.remoteHost).content ∈ s'.table := by
          rw [hadded.table]
          exact List.mem_append_right _ (List.mem_singleton.mpr rfl)
        obtain ⟨q, hq, hcontent⟩ := List.mem_map.mp hmem
        have hext : q.externalPort = t.extPort :=
          (congrArg PortMap.externalPort hcontent).trans (if_pos hm.extPort)
        have hproto : q.protocol = t.proto := by
          have hsize : t.proto.utf8ByteSize < 4 := by
            rcases hm.protocol with htcp | hudp
            · rw [htcp]
              decide
            · rw [hudp]
              decide
          exact (congrArg PortMap.protocol hcontent).trans (if_pos hsize)
        exact absurd ⟨hext, hproto⟩ (pmlistFindSpecific_none hfind q hq)
  obtain ⟨p, hp, hcontent⟩ := hfound
  have hfield : ∀ {α : Type} (f : PortMap → α), (∀ q : PortMap, f q.content = f q) →
      f p = f (t.node accept s block duration args.remoteHost) := by
    intro α f hf
    rw [← hf p, hcontent, hf]
  have hport : p.internalPort = t.intPort :=
    (hfield PortMap.internalPort fun _ => rfl).trans (if_pos hm.intPort)
  have hclient : p.internalClient = t.intIp :=
    (hfield PortMap.internalClient fun _ => rfl).trans (if_pos hm.intIp)
  have hdesc : p.description = t.desc :=
    (hfield PortMap.description fun _ => rfl).trans (if_pos hm.desc)
  have henabled : p.enabled = atoi t.enabled := hfield PortMap.enabled fun _ => rfl
  have hstored : p.Stored := Igd.content_stored.mp (hcontent ▸ Igd.content_stored.mpr node_stored)
  have hplain : p.Plain := by
    refine ⟨?_, ?_, ?_⟩
    · rw [hport]
      exact hm.plain.intPort
    · rw [hclient]
      exact hm.plain.intIp
    · rw [hdesc]
      exact hm.plain.desc
  constructor
  · refine ⟨p.specificDocument,
      Igd.getSpecific_result.mpr ⟨hm.protocol, p, hp, hxml.plain p hstored hplain⟩,
      p.item_internalPort.trans hport, p.item_internalClient.trans hclient, ?_,
      p.item_description.trans hdesc⟩
    rw [p.item_enabled, henabled]
    exact hm.enabled
  · obtain ⟨s'', hdelete, htable, hrules⟩ :=
      @Igd.deletePortMapping_found accept _ _ _ _ hadded.allowed hm.protocol hp
    obtain ⟨hcleared, hclearedRules⟩ := @cleared_spec accept s t h honly
    refine ⟨s'', hdelete, ?_, ?_⟩
    · rw [htable, hfield PortMap.node fun _ => rfl,
        hadded.filter_new (Igd.malloc_not_in_table block), hcleared]
    · rw [hrules, hadded.rules, hadded.vars, hfield (acceptedRules accept s.vars) fun _ => rfl,
        add_tsub_cancel_left, hclearedRules]

/-- The condition is needed: only the new node can be the one that is read and deleted, its fields
are what was stored of the texts, and no markup is read as it was printed. -/
theorem Added.manageable (hxml : ReadsReplies ixmlParseBuffer) (h : ListOk s) (h' : ListOk s')
    (hadded : Added accept t (t.node accept s block duration args.remoteHost) s s')
    (hread : t.ReadBack ixmlParseBuffer s') (hdelete : t.DeleteRestores accept s s') :
    t.Manageable s := by
  obtain ⟨doc, hget, hintPort, hintIp, henabled, hdesc⟩ := hread
  obtain ⟨hproto, p, hfind, hparse⟩ := Igd.getSpecific_result.mp hget
  obtain ⟨s'', hdone, htable, -⟩ := hdelete
  obtain ⟨s₁, hdone₁, htable₁, -⟩ :=
    @Igd.deletePortMapping_found accept _ _ _ _ hadded.allowed hproto hfind
  cases hdone.symm.trans hdone₁
  have hnewMem : (t.node accept s block duration args.remoteHost).content ∈ s'.table := by
    rw [hadded.table]
    exact List.mem_append_right _ (List.mem_singleton.mpr rfl)
  -- the deletion has taken out the new node, so it is the one that was found
  have hnode : p.node = (t.node accept s block duration args.remoteHost).node := by
    by_contra hne
    have hstay : (t.node accept s block duration args.remoteHost).content ∈ s''.table := by
      rw [htable₁]
      exact List.mem_filter.mpr ⟨hnewMem, decide_eq_true fun heq => hne heq.symm⟩
    rw [htable] at hstay
    obtain ⟨hbefore, hother⟩ := List.mem_filter.mp hstay
    exact Igd.malloc_not_in_table block _ (mem_cleared h hbefore (of_decide_eq_true hother)) rfl
  have hmem := Igd.mem_table_of_mem (pmlistFindSpecific_some hfind).1
  have hcontent : p.content = (t.node accept s block duration args.remoteHost).content :=
    List.inj_on_of_nodup_map h'.nodes hmem hnewMem hnode
  obtain ⟨-, hext, -⟩ := pmlistFindSpecific_some hfind
  have hport : p.internalPort = fitField 6 t.intPort := congrArg PortMap.internalPort hcontent
  have hclient : p.internalClient = fitField 16 t.intIp := congrArg PortMap.internalClient hcontent
  have hdesc' : p.description = fitField 50 t.desc := congrArg PortMap.description hcontent
  have henabled' : p.enabled = atoi t.enabled := congrArg PortMap.enabled hcontent
  have hstored : p.Stored := Igd.content_stored.mp (hcontent ▸ Igd.content_stored.mpr node_stored)
  -- a field that is not empty holds its text, and that is what was read
  have hin : p.ReadIn doc := by
    refine ⟨fun hne => ?_, fun hne => ?_, fun hne => ?_⟩
    · rw [hport] at hne ⊢
      rw [hintPort, fitField_eq hne]
    · rw [hclient] at hne ⊢
      rw [hintIp, fitField_eq hne]
    · rw [hdesc'] at hne ⊢
      rw [hdesc, fitField_eq hne]
  have hplain := hxml.marked p doc hstored hparse hin
  obtain rfl : p.specificDocument = doc :=
    Option.some.inj ((hxml.plain p hstored hplain).symm.trans hparse)
  rw [p.item_internalPort] at hintPort
  rw [p.item_internalClient] at hintIp
  rw [p.item_enabled] at henabled
  rw [p.item_description] at hdesc
  have hcleared : (Igd.cleared accept s t.extPort t.proto t.intIp).table =
      s.table.filter fun q => q.triple ≠ t.triple := by
    rw [← hadded.filter_new (Igd.malloc_not_in_table block), ← htable, htable₁, hnode]
  refine ⟨hproto, ?_, ?_, ?_, ?_, ?_, ⟨?_, ?_, ?_⟩, fun _ => cleared_single h hcleared⟩
  · rw [← hext]
    exact h'.ports p.content hmem
  · exact (fitField_eq_iff (by decide)).mp (hport.symm.trans hintPort)
  · exact (fitField_eq_iff (by decide)).mp (hclient.symm.trans hintIp)
  · exact (fitField_eq_iff (by decide)).mp (hdesc'.symm.trans hdesc)
  · rw [← henabled']
    exact henabled
  · rw [← hintPort]
    exact hplain.internalPort
  · rw [← hintIp]
    exact hplain.internalClient
  · rw [← hdesc]
    exact hplain.description

end Managed

/-- In every reachable state, a request that is accepted can be read back and undone exactly
when its texts are manageable. -/
theorem added_manageable_iff (accept : Rule → Bool) (ixmlParseBuffer : String → Option Document)
    (hxml : ReadsReplies ixmlParseBuffer) (vars : Vars) (inputs : List Igd.Input)
    (args : Igd.AddArgs) (block : Block) (outcome : Igd.ScheduleOutcome) (t : Texts)
    (duration : String)
    (hargs : args.Complete t.extPort t.proto t.intPort t.intIp duration t.enabled t.desc)
    (hdone : ((exec (Igd.step accept) (Igd.init vars) inputs).addPortMapping accept args block
      outcome).2 = .done) :
    (t.ReadBack ixmlParseBuffer ((exec (Igd.step accept) (Igd.init vars) inputs).addPortMapping
        accept args block outcome).1 ∧
      t.DeleteRestores accept (exec (Igd.step accept) (Igd.init vars) inputs)
        ((exec (Igd.step accept) (Igd.init vars) inputs).addPortMapping accept args block
          outcome).1) ↔
    t.Manageable (exec (Igd.step accept) (Igd.init vars) inputs) := by
  have hlist := run_listOk accept vars inputs
  have hadded := added_of_done hargs hdone
  constructor
  · rintro ⟨hread, hdelete⟩
    exact hadded.manageable hxml hlist (hlist.addPortMapping args block outcome) hread hdelete
  · exact hadded.managed hxml hlist

/-- A port with leading zeros, too long for its field, is accepted and then not found. -/
theorem added_port_is_lost :
    ((Igd.init plainVars).addPortMapping noEmptyArgs (minuteArgs "008080" "80") ⟨0, 0⟩
      .scheduled).2 = .done ∧
    ¬ Texts.ReadBack readPlain ⟨"008080", "TCP", "80", "192.168.1.2", "1", "game"⟩
      ((Igd.init plainVars).addPortMapping noEmptyArgs (minuteArgs "008080" "80") ⟨0, 0⟩
        .scheduled).1 := by
  refine ⟨by decide, ?_⟩
  rintro ⟨doc, hget, -⟩
  obtain ⟨-, p, hfind, -⟩ := Igd.getSpecific_result.mp hget
  have hmissed : pmlistFindSpecific ((Igd.init plainVars).addPortMapping noEmptyArgs
      (minuteArgs "008080" "80") ⟨0, 0⟩ .scheduled).1.pmlist "008080" "TCP" = none := by decide
  rw [hmissed] at hfind
  cases hfind

/-- The same mapping under a port of four digits. -/
theorem added_manageable_short_port :
    Texts.ReadBack readPlain ⟨"8080", "TCP", "80", "192.168.1.2", "1", "game"⟩
      ((Igd.init plainVars).addPortMapping noEmptyArgs (minuteArgs "8080" "80") ⟨0, 0⟩
        .scheduled).1 ∧
    Texts.DeleteRestores noEmptyArgs ⟨"8080", "TCP", "80", "192.168.1.2", "1", "game"⟩
      (Igd.init plainVars)
      ((Igd.init plainVars).addPortMapping noEmptyArgs (minuteArgs "8080" "80") ⟨0, 0⟩
        .scheduled).1 := by
  have hiff := added_manageable_iff noEmptyArgs readPlain readPlain_reads plainVars []
    (minuteArgs "8080" "80") ⟨0, 0⟩ .scheduled
    ⟨"8080", "TCP", "80", "192.168.1.2", "1", "game"⟩ "60" ⟨rfl, rfl, rfl, rfl, rfl, rfl, rfl⟩
    (by decide)
  refine hiff.mpr ⟨by decide, by decide, by decide, by decide, by decide, by decide,
    ⟨by decide, by decide, by decide⟩, fun hempty => ?_⟩
  exact absurd hempty (by decide)

end Xwr100.Upnp
