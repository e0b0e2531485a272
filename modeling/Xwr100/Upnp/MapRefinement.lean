import Mathlib.Logic.Function.Basic
import Xwr100.Upnp.Requests

/-!
# The mapping list is a map

The abstract table is a partial function from port and protocol to an entry; its operations say
what the actions are for.  The list of the daemon refines it exactly as long as the texts a node is
found by fit the fields they are stored in, nothing but TCP and UDP is deleted, and no mapping
expires that is not listed.
-/

namespace Xwr100.Upnp

open Lib

variable {accept : Rule → Bool} {s s' : Igd}

/-! ## The abstract table -/

abbrev Key := String × String

structure Entry where
  enabled : Int
  leaseDuration : Int
  remoteHost : String
  internalPort : String
  internalClient : String
  description : String
deriving DecidableEq, Repr

abbrev PortTable := Key → Option Entry

namespace PortTable

def newEntry (remoteHost : Option String) (intPort intIp duration enabled desc : String) :
    Entry where
  enabled := atoi enabled
  leaseDuration := atoi duration
  remoteHost := fitField 16 (remoteHost.getD "")
  internalPort := fitField 6 intPort
  internalClient := intIp
  description := fitField 50 desc

/-- Add: incomplete requests are invalid, the key of another client is a conflict, anything
else is stored under the key. -/
def add (t : PortTable) (args : Igd.AddArgs) : PortTable × Except UpnpError Unit :=
  match args.externalPort, args.protocol, args.internalPort, args.internalClient,
    args.leaseDuration, args.enabled, args.description with
  | some extPort, some proto, some intPort, some intIp, some duration, some enabled,
    some desc =>
      let stored := Function.update t (extPort, proto)
        (some (newEntry args.remoteHost intPort intIp duration enabled desc))
      match t (extPort, proto) with
      | some e =>
          if e.internalClient = intIp then (stored, .ok ())
          else (t, .error conflictInMappingEntry)
      | none => (stored, .ok ())
  | _, _, _, _, _, _, _ => (t, .error invalidArgs)

/-- Delete: a key that is not in the table is an error. -/
def delete (t : PortTable) (extPort proto : Option String) : PortTable × Except UpnpError Unit :=
  match extPort, proto with
  | some extPort, some proto =>
      match t (extPort, proto) with
      | some _ => (Function.update t (extPort, proto) none, .ok ())
      | none => (t, .error noSuchEntryInArray)
  | _, _ => (t, .error invalidArgs)

/-- Look a key up; only TCP and UDP can be asked for. -/
def getSpecific (t : PortTable) (extPort proto : Option String) : Except UpnpError Entry :=
  match extPort, proto with
  | some extPort, some proto =>
      if proto = "TCP" ∨ proto = "UDP" then
        match t (extPort, proto) with
        | some e => .ok e
        | none => .error noSuchEntryInArray
      else .error invalidArgs
  | _, _ => .error invalidArgs

end PortTable

/-! ## Abstraction -/

def PortMap.key (p : PortMap) : Key := (p.externalPort, p.protocol)

def PortMap.entry (p : PortMap) : Entry where
  enabled := p.enabled
  leaseDuration := p.leaseDuration
  remoteHost := p.remoteHost
  internalPort := p.internalPort
  internalClient := p.internalClient
  description := p.description

def portTable (l : List PortMap) : PortTable :=
  fun k => (l.find? fun p => p.key = k).map PortMap.entry

theorem Answer.done_ne_error {e : UpnpError} : Answer.done ≠ .error e := by simp

def Answer.outcome : Answer → Except UpnpError Unit
  | .done => .ok ()
  | .result _ => .ok ()
  | .error e => .error e

/-! ## Lists with distinct keys -/

theorem portTable_eq_some {l : List PortMap} (h : (l.map PortMap.key).Nodup) {p : PortMap}
    (hp : p ∈ l) : portTable l p.key = some p.entry := by
  have hfind : l.find? (fun q => q.key = p.key) = some p := by
    cases hq : l.find? (fun q => decide (q.key = p.key)) with
    | none =>
        have hnone := List.find?_eq_none.mp hq p hp
        simp at hnone
    | some q =>
        have hqk : q.key = p.key := by simpa using List.find?_some hq
        rw [List.inj_on_of_nodup_map h (List.mem_of_find?_eq_some hq) hp hqk]
  simp [portTable, hfind]

theorem portTable_eq_none {l : List PortMap} {k : Key} (h : ∀ p ∈ l, p.key ≠ k) :
    portTable l k = none := by
  have hfind : l.find? (fun q => q.key = k) = none := by
    rw [List.find?_eq_none]
    intro p hp
    simpa using h p hp
  simp [portTable, hfind]

theorem mem_of_portTable_eq_some {l : List PortMap} {k : Key} {e : Entry}
    (h : portTable l k = some e) : ∃ p ∈ l, p.key = k ∧ p.entry = e := by
  unfold portTable at h
  obtain ⟨p, hfind, hentry⟩ := Option.map_eq_some_iff.mp h
  exact ⟨p, List.mem_of_find?_eq_some hfind, by simpa using List.find?_some hfind, hentry⟩

theorem portTable_remove {l : List PortMap} (h : (l.map PortMap.key).Nodup)
    (hnodes : (l.map PortMap.node).Nodup) {p : PortMap} (hp : p ∈ l) :
    portTable (l.filter fun q => q.node ≠ p.node) = Function.update (portTable l) p.key none := by
  funext k
  by_cases hk : k = p.key
  · subst hk
    rw [Function.update_self]
    refine portTable_eq_none fun q hq heq => ?_
    obtain ⟨hql, hqn⟩ := List.mem_filter.mp hq
    rw [List.inj_on_of_nodup_map h hql hp heq] at hqn
    simp at hqn
  · rw [Function.update_of_ne hk]
    cases hold : portTable l k with
    | none =>
        refine portTable_eq_none fun q hq heq => ?_
        rw [← heq, portTable_eq_some h (List.mem_filter.mp hq).1] at hold
        cases hold
    | some e =>
        obtain ⟨q, hq, rfl, rfl⟩ := mem_of_portTable_eq_some hold
        refine portTable_eq_some (h.sublist (List.filter_sublist.map _)) ?_
        refine List.mem_filter.mpr ⟨hq, ?_⟩
        have hne : q.node ≠ p.node := by
          intro heq
          exact hk (by rw [List.inj_on_of_nodup_map hnodes hq hp heq])
        simp [hne]

theorem portTable_append {l : List PortMap} {p : PortMap} (h : ∀ q ∈ l, q.key ≠ p.key) :
    portTable (l ++ [p]) = Function.update (portTable l) p.key (some p.entry) := by
  funext k
  unfold portTable
  rw [List.find?_append]
  by_cases hk : k = p.key
  · subst hk
    have hnone : l.find? (fun q => q.key = p.key) = none := by
      rw [List.find?_eq_none]
      intro q hq
      simpa using h q hq
    rw [Function.update_self, hnone]
    simp
  · rw [Function.update_of_ne hk]
    have hlast : [p].find? (fun q => decide (q.key = k)) = none := by
      simp [Ne.symm hk]
    rw [hlast, Option.or_none]

/-! ## The invariant -/

/-- Nodes and keys of the list are distinct, and its fields hold what fits. -/
structure MapOk (s : Igd) : Prop where
  nodes : s.NodesOk
  keys : (s.table.map PortMap.key).Nodup
  stored : ∀ p ∈ s.table, p.Stored

theorem MapOk.init (vars : Vars) : MapOk (Igd.init vars) := by
  refine ⟨Igd.NodesOk.init vars, ?_, ?_⟩ <;> simp [Igd.init, Igd.table]

theorem MapOk.shrinks (h : MapOk s) (hs : Shrinks s s') : MapOk s' where
  nodes := h.nodes.sublist hs.table
  keys := h.keys.sublist (hs.table.map _)
  stored := hs.stored h.stored

def Igd.portTable (s : Igd) : PortTable := Upnp.portTable s.table

theorem Igd.Same.portTable (h : Igd.Same s s') : s'.portTable = s.portTable := by
  unfold Igd.portTable
  rw [h.table]

theorem MapOk.portTable_key (h : MapOk s) {p : PortMap} (hp : p ∈ s.pmlist) :
    s.portTable p.key = some p.entry :=
  portTable_eq_some (p := p.content) h.keys (Igd.mem_table_of_mem hp)

theorem Igd.portTable_none {k : Key} (h : ∀ p ∈ s.pmlist, p.key ≠ k) : s.portTable k = none := by
  refine portTable_eq_none fun p hp => ?_
  obtain ⟨q, hq, rfl⟩ := List.mem_map.mp hp
  exact h q hq

theorem MapOk.remove (h : MapOk s) {p : PortMap} (hp : p ∈ s.pmlist) (id : Int)
    (item : PortMap) :
    MapOk (((s.cancelMappingExpiration id).deleteRules accept item).unlink p.node) ∧
    (((s.cancelMappingExpiration id).deleteRules accept item).unlink p.node).portTable =
      Function.update s.portTable p.key none := by
  refine ⟨h.shrinks (Igd.remove_shrinks _ _ _), ?_⟩
  unfold Igd.portTable
  rw [Igd.remove_table]
  exact portTable_remove (p := p.content) h.keys h.nodes (Igd.mem_table_of_mem hp)

theorem MapOk.insertMapping (h : MapOk s) (block : Block) (outcome : Igd.ScheduleOutcome)
    (remoteHost : Option String) {extPort intPort proto intIp duration enabled desc : String}
    (hext : extPort.utf8ByteSize < 6) (hproto : proto.utf8ByteSize < 4)
    (hip : intIp.utf8ByteSize < 16) (hkey : ∀ p ∈ s.table, p.key ≠ (extPort, proto)) :
    MapOk (s.insertMapping accept block outcome (atoi enabled) (atoi duration) remoteHost
      extPort intPort proto intIp desc) ∧
    (s.insertMapping accept block outcome (atoi enabled) (atoi duration) remoteHost
      extPort intPort proto intIp desc).portTable =
      Function.update s.portTable (extPort, proto)
        (some (PortTable.newEntry remoteHost intPort intIp duration enabled desc)) := by
  have hnewkey : (newNode (s.malloc block) block.garbage (atoi enabled) (atoi duration) remoteHost
      extPort intPort proto intIp desc).content.key = (extPort, proto) := by
    simp [newNode, PortMap.content, PortMap.key, fitField, hext, hproto]
  have hnewentry : (newNode (s.malloc block) block.garbage (atoi enabled) (atoi duration) remoteHost
      extPort intPort proto intIp desc).content.entry =
      PortTable.newEntry remoteHost intPort intIp duration enabled desc := by
    simp [newNode, PortMap.content, PortMap.entry, PortTable.newEntry, fitField, hip]
  refine ⟨⟨h.nodes.insertMapping _ _ _ _ _ _ _ _ _ _, ?_,
    Igd.insertMapping_stored h.stored _ _ _ _ _ _ _ _ _ _⟩, ?_⟩
  · rw [Igd.insertMapping_table, List.map_append, List.nodup_append]
    refine ⟨h.keys, by simp, ?_⟩
    intro a ha b hb
    obtain ⟨p, hp, rfl⟩ := List.mem_map.mp ha
    simp only [List.map_cons, List.map_nil, List.mem_singleton] at hb
    rw [hb, hnewkey]
    exact hkey p hp
  · unfold Igd.portTable
    rw [Igd.insertMapping_table, portTable_append (by rw [hnewkey]; exact hkey), hnewkey,
      hnewentry]

/-! ## Handlers -/

/-- The texts a node is added under fit their fields, only TCP and UDP are deleted, and an
expired mapping is still listed. -/
def FieldsFit (s : Igd) : Igd.Input → Prop
  | .addPortMapping args _ _ =>
      ∀ extPort proto intPort intIp duration enabled desc,
        args.Complete extPort proto intPort intIp duration enabled desc →
        pmlistFindSameExtPort s.pmlist extPort proto intIp = none →
        extPort.utf8ByteSize < 6 ∧ proto.utf8ByteSize < 4 ∧ intIp.utf8ByteSize < 16
  | .deletePortMapping extPort proto =>
      ∀ port text, extPort = some port → proto = some text → text = "TCP" ∨ text = "UDP"
  | .expireMapping eventId =>
      ∀ e, s.dispatched.find? (fun e => e.eventId = eventId) = some e →
        s.allocated e.mapping = true
  | _ => True

/-- A handler acts on the list as the abstract operation acts on the table: keys stay distinct, an
error changes nothing, table and outcome are the abstract ones, and a reply is printed of the entry
the table holds. -/
def BehavesAsMap (accept : Rule → Bool) (ixmlParseBuffer : String → Option Document) (s : Igd)
    (i : Igd.Input) : Prop :=
  ((Igd.step accept s i).pmlist.map PortMap.key).Nodup ∧
  (∀ e, s.answer accept ixmlParseBuffer i = .error e → Igd.step accept s i = s) ∧
  match i with
  | .addPortMapping args _ _ =>
      ((Igd.step accept s i).portTable, (s.answer accept ixmlParseBuffer i).outcome) =
        s.portTable.add args
  | .deletePortMapping extPort proto =>
      ((Igd.step accept s i).portTable, (s.answer accept ixmlParseBuffer i).outcome) =
        s.portTable.delete extPort proto
  | .getSpecificPortMappingEntry extPort proto =>
      (Igd.step accept s i).portTable = s.portTable ∧
      (s.specificEntry extPort proto).map PortMap.entry = s.portTable.getSpecific extPort proto
  | .getGenericPortMappingEntry mapindex =>
      (Igd.step accept s i).portTable = s.portTable ∧
      ∀ p, s.genericEntry mapindex = .ok p → s.portTable p.key = some p.entry
  | .deleteAllPortMappings => (Igd.step accept s i).portTable = fun _ => none
  | .dispatch _ => (Igd.step accept s i).portTable = s.portTable
  | .expireMapping eventId =>
      match s.dispatched.find? fun e => e.eventId = eventId with
      | some e =>
          ∃ p ∈ s.pmlist, p.node = e.mapping ∧
            (Igd.step accept s i).portTable = Function.update s.portTable p.key none
      | none => (Igd.step accept s i).portTable = s.portTable

theorem MapOk.pmlist_keys (h : MapOk s) : (s.pmlist.map PortMap.key).Nodup := by
  have hkeys := h.keys
  unfold Igd.table at hkeys
  rw [List.map_map] at hkeys
  exact hkeys

theorem MapOk.pmlistDelete (h : MapOk s) {item : PortMap}
    (hfind : pmlistFind s.pmlist item.externalPort item.protocol item.internalClient = some item) :
    (s.pmlistDelete accept item).2 = true ∧ MapOk (s.pmlistDelete accept item).1 ∧
    (s.pmlistDelete accept item).1.portTable = Function.update s.portTable item.key none := by
  unfold Igd.pmlistDelete
  rw [hfind]
  exact ⟨rfl, h.remove (pmlistFind_some hfind).1 _ _⟩

/-- A list without the key. -/
theorem Igd.table_key_ne {k : Key} (h : ∀ p ∈ s.pmlist, p.key ≠ k) :
    ∀ p ∈ s.table, p.key ≠ k := by
  intro p hp
  obtain ⟨q, hq, rfl⟩ := List.mem_map.mp hp
  exact h q hq

theorem PortTable.add_missing (t : PortTable) {args : Igd.AddArgs} (hmissing : args.Missing) :
    t.add args = (t, .error invalidArgs) := by
  unfold PortTable.add
  split
  · rename_i hext hproto hintp hip hdur hen hdesc
    exact absurd ⟨hext, hproto, hintp, hip, hdur, hen, hdesc⟩ (hmissing _ _ _ _ _ _ _)
  · rfl

theorem MapOk.addPortMapping_complete (h : MapOk s) (hallowed : s.vars.configureAllowed = true)
    {args : Igd.AddArgs} {block : Block} {outcome : Igd.ScheduleOutcome}
    (hfit : FieldsFit s (.addPortMapping args block outcome))
    {extPort proto intPort intIp duration enabled desc : String}
    (hargs : args.Complete extPort proto intPort intIp duration enabled desc) :
    MapOk (s.addPortMapping accept args block outcome).1 ∧
    (∀ e, (s.addPortMapping accept args block outcome).2 = .error e →
      (s.addPortMapping accept args block outcome).1 = s) ∧
    ((s.addPortMapping accept args block outcome).1.portTable,
      (s.addPortMapping accept args block outcome).2.outcome) = s.portTable.add args := by
  have hfields := hfit _ _ _ _ _ _ _ hargs
  obtain ⟨hext, hproto, hintp, hip, hdur, hen, hdesc⟩ := hargs
  unfold Igd.addPortMapping PortTable.add
  simp only [hallowed, Bool.not_true, Bool.false_eq_true, if_false, hext, hproto, hintp, hip, hdur,
    hen, hdesc]
  cases hother : pmlistFindSameExtPort s.pmlist extPort proto intIp with
  | some q =>
      have hq : q ∈ s.pmlist := List.mem_of_find?_eq_some hother
      have hprop := List.find?_some hother
      simp only [decide_eq_true_eq] at hprop
      have hkey : q.key = (extPort, proto) := by simp [PortMap.key, hprop]
      have htable := h.portTable_key hq
      rw [hkey] at htable
      refine ⟨h, fun _ _ => rfl, ?_⟩
      have hne : q.entry.internalClient ≠ intIp := hprop.2.2
      simp only [htable]
      simp [Answer.outcome, hne]
  | none =>
      obtain ⟨hfe, hfp, hfi⟩ := hfields hother
      have hclient : ∀ q ∈ s.pmlist, q.key = (extPort, proto) → q.internalClient = intIp := by
        intro q hq hkey
        have hnone := List.find?_eq_none.mp hother q hq
        simp only [PortMap.key, Prod.mk.injEq] at hkey
        simpa [hkey] using hnone
      cases hfind : pmlistFind s.pmlist extPort proto intIp with
      | none =>
          have hkey : ∀ q ∈ s.pmlist, q.key ≠ (extPort, proto) := by
            intro q hq heq
            have hip' := hclient q hq heq
            simp only [PortMap.key, Prod.mk.injEq] at heq
            exact pmlistFind_none hfind q hq (by simp [PortMap.triple, heq, hip'])
          obtain ⟨hok, htable⟩ := @MapOk.insertMapping accept s h block outcome
            args.remoteHost extPort intPort proto intIp duration enabled desc hfe hfp hfi
            (Igd.table_key_ne hkey)
          refine ⟨hok, by simp, ?_⟩
          simp only [htable, Igd.portTable_none hkey]
          rfl
      | some ret =>
          obtain ⟨hret, htriple⟩ := pmlistFind_some hfind
          have hkey : ret.key = (extPort, proto) := by
            simp only [PortMap.triple, Prod.mk.injEq] at htriple
            simp [PortMap.key, htriple]
          obtain ⟨-, hok, htable⟩ := @MapOk.pmlistDelete accept s h ret (pmlistFind_self hfind)
          have hgone : ∀ q ∈ (s.pmlistDelete accept ret).1.table, q.key ≠ (extPort, proto) := by
            intro q hq heq
            have hsome := portTable_eq_some hok.keys hq
            have htable' := congrFun htable q.key
            rw [Igd.portTable, hsome, heq, hkey, Function.update_self] at htable'
            cases htable'
          obtain ⟨hok', htable'⟩ := @MapOk.insertMapping accept _ hok block outcome
            args.remoteHost extPort intPort proto intIp duration enabled desc hfe hfp hfi hgone
          have hheld := h.portTable_key hret
          have hsame : ret.entry.internalClient = intIp := hclient ret hret hkey
          rw [hkey] at hheld
          refine ⟨hok', by simp, ?_⟩
          simp only [hheld, hsame, if_true, Answer.outcome]
          rw [htable', htable, hkey, Function.update_idem]

theorem MapOk.addPortMapping (h : MapOk s) (hallowed : s.vars.configureAllowed = true)
    {args : Igd.AddArgs} {block : Block} {outcome : Igd.ScheduleOutcome}
    (hfit : FieldsFit s (.addPortMapping args block outcome)) :
    MapOk (s.addPortMapping accept args block outcome).1 ∧
    (∀ e, (s.addPortMapping accept args block outcome).2 = .error e →
      (s.addPortMapping accept args block outcome).1 = s) ∧
    ((s.addPortMapping accept args block outcome).1.portTable,
      (s.addPortMapping accept args block outcome).2.outcome) = s.portTable.add args := by
  by_cases hmissing : args.Missing
  · rw [Igd.addPortMapping_missing hallowed hmissing, PortTable.add_missing _ hmissing]
    exact ⟨h, fun _ _ => rfl, rfl⟩
  · simp only [Igd.AddArgs.Missing, not_forall, not_not] at hmissing
    obtain ⟨extPort, proto, intPort, intIp, duration, enabled, desc, hargs⟩ := hmissing
    exact MapOk.addPortMapping_complete h hallowed hfit hargs

/-- A key the lookup misses is not in the table. -/
theorem Igd.portTable_of_findSpecific_none {extPort proto : String}
    (h : pmlistFindSpecific s.pmlist extPort proto = none) :
    s.portTable (extPort, proto) = none := by
  refine Igd.portTable_none fun p hp heq => ?_
  simp only [PortMap.key, Prod.mk.injEq] at heq
  exact pmlistFindSpecific_none h p hp heq

theorem pmlistFindSpecific_key {l : List PortMap} {extPort proto : String} {p : PortMap}
    (h : pmlistFindSpecific l extPort proto = some p) : p.key = (extPort, proto) := by
  obtain ⟨-, hext, hproto⟩ := pmlistFindSpecific_some h
  simp [PortMap.key, hext, hproto]

theorem MapOk.deletePortMapping (h : MapOk s) (hallowed : s.vars.configureAllowed = true)
    {extPort proto : Option String} (hfit : FieldsFit s (.deletePortMapping extPort proto)) :
    MapOk (s.deletePortMapping accept extPort proto).1 ∧
    (∀ e, (s.deletePortMapping accept extPort proto).2 = .error e →
      (s.deletePortMapping accept extPort proto).1 = s) ∧
    ((s.deletePortMapping accept extPort proto).1.portTable,
      (s.deletePortMapping accept extPort proto).2.outcome) =
      s.portTable.delete extPort proto := by
  unfold Igd.deletePortMapping PortTable.delete
  simp only [hallowed, Bool.not_true, Bool.false_eq_true, if_false]
  cases extPort with
  | none => exact ⟨h, fun _ _ => rfl, rfl⟩
  | some extPort =>
      cases proto with
      | none => exact ⟨h, fun _ _ => rfl, rfl⟩
      | some proto =>
          simp only [if_pos (hfit extPort proto rfl rfl)]
          cases hfind : pmlistFindSpecific s.pmlist extPort proto with
          | some temp =>
              have hheld := h.portTable_key (pmlistFindSpecific_some hfind).1
              obtain ⟨hdone, hok, htable⟩ :=
                @MapOk.pmlistDelete accept s h temp (pmlistFind_of_findSpecific hfind)
              rw [pmlistFindSpecific_key hfind] at hheld htable
              simp only [hdone, hheld, htable, if_true]
              exact ⟨hok, by simp, rfl⟩
          | none =>
              rw [Igd.portTable_of_findSpecific_none hfind]
              exact ⟨h, fun _ _ => rfl, rfl⟩

theorem MapOk.getSpecific (h : MapOk s) (extPort proto : Option String) :
    (s.specificEntry extPort proto).map PortMap.entry = s.portTable.getSpecific extPort proto := by
  unfold Igd.specificEntry PortTable.getSpecific
  cases extPort with
  | none => rfl
  | some extPort =>
      cases proto with
      | none => rfl
      | some proto =>
          dsimp only
          by_cases hproto : proto = "TCP" ∨ proto = "UDP"
          · rw [if_pos hproto, if_pos hproto]
            cases hfind : pmlistFindSpecific s.pmlist extPort proto with
            | some temp =>
                have hheld := h.portTable_key (pmlistFindSpecific_some hfind).1
                rw [pmlistFindSpecific_key hfind] at hheld
                rw [hheld]
                rfl
            | none =>
                rw [Igd.portTable_of_findSpecific_none hfind]
                rfl
          · rw [if_neg hproto, if_neg hproto]
            rfl

theorem MapOk.getGeneric (h : MapOk s) {mapindex : Option String} {p : PortMap}
    (hentry : s.genericEntry mapindex = .ok p) : s.portTable p.key = some p.entry := by
  unfold Igd.genericEntry pmlistFindByIndex at hentry
  split at hentry
  · split at hentry
    · rename_i temp hfind
      split at hfind
      · cases hfind
      · cases hentry
        exact h.portTable_key (List.mem_of_getElem? hfind)
    · cases hentry
  · cases hentry

theorem MapOk.freeList (h : MapOk s) :
    MapOk (s.freeList accept) ∧ (s.freeList accept).portTable = fun _ => none := by
  have hremove : ∀ s' : Igd, ∀ temp ∈ s'.pmlist, MapOk s' →
      MapOk (((s'.cancelMappingExpiration temp.expirationEventId).deleteRules accept temp).unlink
        temp.node) := fun s' temp hmem hok => (hok.remove hmem _ _).1
  refine ⟨Igd.freeListLoop_invariant hremove _ s h, ?_⟩
  unfold Igd.portTable
  rw [Igd.freeList_table]
  rfl

theorem MapOk.expireEvent (h : MapOk s) {e : ExpirationEvent}
    (halloc : s.allocated e.mapping = true) :
    MapOk (s.expireEvent accept e) ∧
    ∃ p ∈ s.pmlist, p.node = e.mapping ∧
      (s.expireEvent accept e).portTable = Function.update s.portTable p.key none := by
  obtain ⟨m, hmem, hnode, temp, htemp, htriple, hexpired⟩ := @expireEvent_same accept s e halloc
  have hsame : Igd.Same s (s.setEventId m.node (-1)) := Igd.setEventId_same _ _
  have hset : MapOk (s.setEventId m.node (-1)) := h.shrinks hsame.shrinks
  -- the node found by the fields is the event's, since keys are distinct
  have hkey : temp.content.key = m.content.key := by
    simp only [PortMap.triple, Prod.mk.injEq] at htriple
    simp [PortMap.key, PortMap.content, htriple]
  obtain ⟨hok, htable⟩ := @MapOk.remove accept _ hset temp htemp temp.expirationEventId m
  refine ⟨hok.shrinks hexpired.shrinks, m, hmem, hnode, ?_⟩
  rw [hexpired.portTable, htable, hsame.portTable]
  exact congrArg (Function.update s.portTable · none) hkey

theorem MapOk.expireMapping (h : MapOk s) {eventId : Nat}
    (hfit : FieldsFit s (.expireMapping eventId)) :
    MapOk (s.expireMapping accept eventId) ∧
    match s.dispatched.find? fun e => e.eventId = eventId with
    | some e =>
        ∃ p ∈ s.pmlist, p.node = e.mapping ∧
          (s.expireMapping accept eventId).portTable = Function.update s.portTable p.key none
    | none => (s.expireMapping accept eventId).portTable = s.portTable := by
  unfold Igd.expireMapping
  cases hfind : s.dispatched.find? fun e => decide (e.eventId = eventId) with
  | none => exact ⟨h, rfl⟩
  | some e =>
      have hrunning : MapOk
          { s with dispatched := s.dispatched.filter fun e' => e'.eventId ≠ e.eventId } :=
        h.shrinks ⟨rfl, List.Sublist.refl _⟩
      exact hrunning.expireEvent (hfit e hfind)

/-! ## Runs -/

section Steps

variable {ixmlParseBuffer : String → Option Document}

/-- One handler keeps the invariant and acts as the abstract operation. -/
theorem step_behavesAsMap (i : Igd.Input) (h : MapOk s) (hallowed : s.vars.configureAllowed = true)
    (hfit : FieldsFit s i) :
    MapOk (Igd.step accept s i) ∧ BehavesAsMap accept ixmlParseBuffer s i := by
  cases i with
  | addPortMapping args block outcome =>
      obtain ⟨hok', herr, htable⟩ := @MapOk.addPortMapping accept s h hallowed _ _ _ hfit
      exact ⟨hok', hok'.pmlist_keys, herr, htable⟩
  | deletePortMapping extPort proto =>
      obtain ⟨hok', herr, htable⟩ := @MapOk.deletePortMapping accept s h hallowed _ _ hfit
      exact ⟨hok', hok'.pmlist_keys, herr, htable⟩
  | getSpecificPortMappingEntry extPort proto =>
      exact ⟨h, h.pmlist_keys, fun _ _ => rfl, rfl, h.getSpecific extPort proto⟩
  | getGenericPortMappingEntry mapindex =>
      exact ⟨h, h.pmlist_keys, fun _ _ => rfl, rfl, fun _ => h.getGeneric⟩
  | deleteAllPortMappings =>
      obtain ⟨hok', htable⟩ := @MapOk.freeList accept s h
      exact ⟨hok', hok'.pmlist_keys, fun _ he => absurd he Answer.done_ne_error, htable⟩
  | dispatch eventId =>
      have hsame := @Igd.dispatch_same s eventId
      have hok' := h.shrinks hsame.shrinks
      exact ⟨hok', hok'.pmlist_keys, fun _ he => absurd he Answer.done_ne_error, hsame.portTable⟩
  | expireMapping eventId =>
      obtain ⟨hok', htable⟩ := @MapOk.expireMapping accept s h eventId hfit
      exact ⟨hok', hok'.pmlist_keys, fun _ he => absurd he Answer.done_ne_error, htable⟩

theorem fits_of_portTable (h : ∀ p ∈ s.table, p.Stored) {extPort proto : String} {e : Entry}
    (htable : s.portTable (extPort, proto) = some e) :
    extPort.utf8ByteSize < 6 ∧ proto.utf8ByteSize < 4 ∧ e.internalClient.utf8ByteSize < 16 := by
  obtain ⟨p, hp, hkey, rfl⟩ := mem_of_portTable_eq_some htable
  have hstored := h p hp
  simp only [PortMap.key, Prod.mk.injEq] at hkey
  rw [← hkey.1, ← hkey.2]
  exact ⟨hstored.externalPort, hstored.protocol, hstored.internalClient⟩

/-- The condition is needed: a handler that acts as the abstract operation has met it. -/
theorem fieldsFit_of_behaves {i : Igd.Input} (h : MapOk s)
    (hallowed : s.vars.configureAllowed = true)
    (hmap : BehavesAsMap accept ixmlParseBuffer s i) : FieldsFit s i := by
  obtain ⟨-, -, hmap⟩ := hmap
  cases i with
  | addPortMapping args block outcome =>
      intro extPort proto intPort intIp duration enabled desc hargs hother
      have hdone : (s.addPortMapping accept args block outcome).2 = .done := by
        unfold Igd.addPortMapping
        simp [hallowed, hother, hargs.externalPort, hargs.protocol, hargs.internalPort,
          hargs.internalClient, hargs.leaseDuration, hargs.enabled, hargs.description]
      have hadd : ((s.addPortMapping accept args block outcome).1.portTable, .ok ()) =
          s.portTable.add args := by
        rw [← hmap]
        exact congrArg (Prod.mk _) (congrArg Answer.outcome hdone).symm
      -- the abstract operation has stored the entry, so the list has a node for it
      have hheld : (s.addPortMapping accept args block outcome).1.portTable (extPort, proto) =
          some (PortTable.newEntry args.remoteHost intPort intIp duration enabled desc) := by
        simp only [PortTable.add, hargs.externalPort, hargs.protocol, hargs.internalPort,
          hargs.internalClient, hargs.leaseDuration, hargs.enabled, hargs.description] at hadd
        split at hadd
        · split at hadd
          · rw [(Prod.mk.inj hadd).1, Function.update_self]
          · cases (Prod.mk.inj hadd).2
        · rw [(Prod.mk.inj hadd).1, Function.update_self]
      exact fits_of_portTable (step_stored accept s (.addPortMapping args block outcome) h.stored)
        hheld
  | deletePortMapping extPort proto =>
      rintro port text rfl rfl
      by_contra hother
      have hanswer : (s.deletePortMapping accept (some port) (some text)).2 =
          .error invalidArgs := by
        simp [Igd.deletePortMapping, hallowed, hother]
      have houtcome : .error invalidArgs = (s.portTable.delete (some port) (some text)).2 := by
        rw [← hmap]
        exact (congrArg Answer.outcome hanswer).symm
      simp only [PortTable.delete] at houtcome
      split at houtcome
      · cases houtcome
      · exact absurd (Except.error.inj houtcome) (by decide)
  | getSpecificPortMappingEntry extPort proto => trivial
  | getGenericPortMappingEntry mapindex => trivial
  | deleteAllPortMappings => trivial
  | dispatch eventId => trivial
  | expireMapping eventId =>
      intro e hfind
      simp only [hfind] at hmap
      obtain ⟨p, hp, hnode, -⟩ := hmap
      exact allocated_iff.mpr ⟨p, hp, hnode⟩

end Steps

/-- In every run, the handlers act on the list as the abstract operations act on the table, whatever
is made of the replies, exactly as long as what is added fits, what is deleted is TCP or UDP, and
what expires is listed. -/
theorem run_behavesAsMap_iff (accept : Rule → Bool) (ixmlParseBuffer : String → Option Document)
    (vars : Vars) (hallowed : vars.configureAllowed = true) (inputs : List Igd.Input) :
    Along (Igd.step accept) (BehavesAsMap accept ixmlParseBuffer) (Igd.init vars) inputs ↔
      Along (Igd.step accept) FieldsFit (Igd.init vars) inputs := by
  have hinit : MapOk (Igd.init vars) ∧ (Igd.init vars).vars.configureAllowed = true :=
    ⟨MapOk.init vars, hallowed⟩
  have hiff : ∀ (s : Igd) (i : Igd.Input), MapOk s ∧ s.vars.configureAllowed = true →
      (BehavesAsMap accept ixmlParseBuffer s i ↔ FieldsFit s i) := by
    rintro s i ⟨hok, hallowed⟩
    exact ⟨fieldsFit_of_behaves hok hallowed, fun hfit => (step_behavesAsMap i hok hallowed hfit).2⟩
  have hstep : ∀ (s : Igd) (i : Igd.Input), MapOk s ∧ s.vars.configureAllowed = true →
      FieldsFit s i →
      MapOk (Igd.step accept s i) ∧ (Igd.step accept s i).vars.configureAllowed = true := by
    rintro s i ⟨hok, hallowed⟩ hfit
    refine ⟨(@step_behavesAsMap accept s ixmlParseBuffer i hok hallowed hfit).1, ?_⟩
    rw [Igd.step_vars]
    exact hallowed
  exact along_congr hiff hstep hinit

/-- A mapping of a protocol other than TCP and UDP can be added and not be deleted, and a port
too long to be stored is added twice under the empty one. -/
theorem delete_refuses_protocol :
    ¬ Along (Igd.step noEmptyArgs) (BehavesAsMap noEmptyArgs readPlain) (Igd.init plainVars)
      [.addPortMapping { minuteArgs "80" "80" with protocol := some "ICM" } ⟨0, 0⟩ .scheduled,
        .deletePortMapping (some "80") (some "ICM")] ∧
    ((exec (Igd.step noEmptyArgs) (Igd.init plainVars)
      [.addPortMapping (minuteArgs "123456" "80") ⟨0, 0⟩ .scheduled,
        .addPortMapping (minuteArgs "123456" "81") ⟨1, 0⟩ .scheduled]).pmlist.map PortMap.key) =
          [("", "TCP"), ("", "TCP")] := by
  refine ⟨?_, by decide⟩
  rintro ⟨-, ⟨-, -, hdelete⟩, -⟩
  exact absurd (congrArg Prod.snd hdelete) (by decide)

/-- Two ports are added, one is replaced, looked up, deleted and missed, one expires. -/
theorem run_behavesAsMap_two_ports :
    Along (Igd.step noEmptyArgs) (BehavesAsMap noEmptyArgs readPlain) (Igd.init plainVars)
      [.addPortMapping (minuteArgs "8080" "80") ⟨0, 0⟩ .scheduled,
        .addPortMapping (minuteArgs "8081" "81") ⟨1, 0⟩ .scheduled,
        .addPortMapping (minuteArgs "8080" "82") ⟨2, 0⟩ .scheduled,
        .dispatch 1, .expireMapping 1,
        .getSpecificPortMappingEntry (some "8080") (some "TCP"),
        .deletePortMapping (some "8080") (some "TCP"),
        .deletePortMapping (some "8080") (some "TCP"),
        .deleteAllPortMappings] := by
  refine (run_behavesAsMap_iff noEmptyArgs readPlain plainVars rfl _).mpr
    ⟨?_, ?_, ?_, trivial, ?_, trivial, ?_, ?_, trivial, trivial⟩
  · rintro _ _ _ _ _ _ _ ⟨⟨⟩, ⟨⟩, ⟨⟩, ⟨⟩, ⟨⟩, ⟨⟩, ⟨⟩⟩ -
    decide
  · rintro _ _ _ _ _ _ _ ⟨⟨⟩, ⟨⟩, ⟨⟩, ⟨⟩, ⟨⟩, ⟨⟩, ⟨⟩⟩ -
    decide
  · rintro _ _ _ _ _ _ _ ⟨⟨⟩, ⟨⟩, ⟨⟩, ⟨⟩, ⟨⟩, ⟨⟩, ⟨⟩⟩ -
    decide
  · rintro e hfind
    obtain rfl : (⟨1, 1⟩ : ExpirationEvent) = e := Option.some.inj (Eq.trans (by decide) hfind)
    decide
  · rintro _ _ ⟨⟩ ⟨⟩
    decide
  · rintro _ _ ⟨⟩ ⟨⟩
    decide

end Xwr100.Upnp
