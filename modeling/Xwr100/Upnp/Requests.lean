import Xwr100.Upnp.Mappings

/-!
# Requests and the list

What a request can do to the list: every handler takes nodes out of it, and a request that is
accepted puts one behind what it leaves.
-/

namespace Xwr100.Upnp

open Lib

variable {accept : Rule → Bool} {s s' s'' : Igd}

/-! ## Lists that lose nodes -/

/-- The list only loses nodes. -/
structure Shrinks (s s' : Igd) : Prop where
  vars : s'.vars = s.vars
  table : s'.table.Sublist s.table

theorem Igd.Same.shrinks (h : Igd.Same s s') : Shrinks s s' :=
  ⟨h.vars, h.table ▸ List.Sublist.refl _⟩

theorem Shrinks.refl (s : Igd) : Shrinks s s := ⟨rfl, List.Sublist.refl _⟩

theorem Shrinks.trans (h : Shrinks s s') (h' : Shrinks s' s'') : Shrinks s s'' :=
  ⟨h'.vars.trans h.vars, h'.table.trans h.table⟩

namespace Igd

theorem remove_shrinks (id : Int) (item : PortMap) (node : Nat) :
    Shrinks s (((s.cancelMappingExpiration id).deleteRules accept item).unlink node) := by
  refine ⟨remove_vars id item node, ?_⟩
  rw [remove_table]
  exact List.filter_sublist

theorem pmlistDelete_shrinks (item : PortMap) : Shrinks s (s.pmlistDelete accept item).1 := by
  unfold pmlistDelete
  split
  · exact remove_shrinks _ _ _
  · exact Shrinks.refl s

theorem freeListLoop_shrinks (n : Nat) (s : Igd) : Shrinks s (freeListLoop accept n s) := by
  apply freeListLoop_invariant (P := Shrinks s) _ n s (Shrinks.refl s)
  intro s' temp _ h
  exact h.trans (remove_shrinks _ _ _)

theorem deletePortMapping_shrinks (extPort proto : Option String) :
    Shrinks s (s.deletePortMapping accept extPort proto).1 := by
  unfold deletePortMapping
  split
  · exact Shrinks.refl s
  · split
    · split
      · split
        · exact pmlistDelete_shrinks _
        · exact Shrinks.refl s
      · exact Shrinks.refl s
    · exact Shrinks.refl s

theorem expireEvent_shrinks (e : ExpirationEvent) : Shrinks s (s.expireEvent accept e) := by
  unfold expireEvent
  split
  · exact ⟨rfl, List.Sublist.refl _⟩
  · exact ((setEventId_same _ _).shrinks.trans (pmlistDelete_shrinks _)).trans
      (freeExpirationEvent_same e).shrinks

theorem expireMapping_shrinks (eventId : Nat) : Shrinks s (s.expireMapping accept eventId) := by
  unfold expireMapping
  split
  · rename_i e _
    have hrunning : Shrinks s
        { s with dispatched := s.dispatched.filter fun e' => e'.eventId ≠ e.eventId } :=
      ⟨rfl, List.Sublist.refl _⟩
    exact hrunning.trans (expireEvent_shrinks e)
  · exact Shrinks.refl s

def cleared (accept : Rule → Bool) (s : Igd) (extPort proto intIp : String) : Igd :=
  match pmlistFind s.pmlist extPort proto intIp with
  | some ret => (s.pmlistDelete accept ret).1
  | none => s

theorem cleared_shrinks (extPort proto intIp : String) :
    Shrinks s (cleared accept s extPort proto intIp) := by
  unfold cleared
  split
  · exact pmlistDelete_shrinks _
  · exact Shrinks.refl s

/-- The nodes stay but for the one the request's texts find first. -/
theorem cleared_table_of_some {extPort proto intIp : String} {ret : PortMap}
    (h : pmlistFind s.pmlist extPort proto intIp = some ret) :
    (cleared accept s extPort proto intIp).table = s.table.filter fun p => p.node ≠ ret.node := by
  unfold cleared pmlistDelete
  simp only [h, pmlistFind_self h]
  exact remove_table _ _ _

theorem cleared_of_none {extPort proto intIp : String}
    (h : pmlistFind s.pmlist extPort proto intIp = none) :
    cleared accept s extPort proto intIp = s := by
  unfold cleared
  rw [h]

end Igd

/-! ## Accepted requests -/

structure Igd.AddArgs.Complete (args : Igd.AddArgs)
    (extPort proto intPort intIp duration enabled desc : String) : Prop where
  externalPort : args.externalPort = some extPort
  protocol : args.protocol = some proto
  internalPort : args.internalPort = some intPort
  internalClient : args.internalClient = some intIp
  leaseDuration : args.leaseDuration = some duration
  enabled : args.enabled = some enabled
  description : args.description = some desc

def Igd.AddArgs.Missing (args : Igd.AddArgs) : Prop :=
  ∀ extPort proto intPort intIp duration enabled desc,
    ¬args.Complete extPort proto intPort intIp duration enabled desc

theorem Igd.addPortMapping_missing (hallowed : s.vars.configureAllowed = true)
    {args : Igd.AddArgs} (hmissing : args.Missing) (block : Block) (outcome : Igd.ScheduleOutcome) :
    s.addPortMapping accept args block outcome = (s, .error invalidArgs) := by
  unfold Igd.addPortMapping
  simp only [hallowed, Bool.not_true, Bool.false_eq_true, if_false]
  split
  · rename_i hext hproto hintp hip hdur hen hdesc
    exact absurd ⟨hext, hproto, hintp, hip, hdur, hen, hdesc⟩ (hmissing _ _ _ _ _ _ _)
  · rfl

namespace Igd

/-- A request that is accepted has all its texts, meets no entry of another client, and
appends its node to the list it has cleared. -/
theorem addPortMapping_done {args : AddArgs} {block : Block} {outcome : ScheduleOutcome}
    (h : (s.addPortMapping accept args block outcome).2 = .done) :
    ∃ extPort proto intPort intIp duration enabled desc,
      args.Complete extPort proto intPort intIp duration enabled desc ∧
      s.vars.configureAllowed = true ∧
      pmlistFindSameExtPort s.pmlist extPort proto intIp = none ∧
      (s.addPortMapping accept args block outcome).1 =
        (cleared accept s extPort proto intIp).insertMapping accept block outcome
          (atoi enabled) (atoi duration) args.remoteHost extPort intPort proto intIp desc := by
  unfold addPortMapping at h ⊢
  split at h
  · cases h
  · rename_i hallowed
    split at h
    · rename_i extPort proto intPort intIp duration enabled desc hext hproto hintp hip hdur hen
        hdesc
      cases hother : pmlistFindSameExtPort s.pmlist extPort proto intIp with
      | some q =>
          rw [hother] at h
          cases h
      | none =>
          refine ⟨extPort, proto, intPort, intIp, duration, enabled, desc,
            ⟨hext, hproto, hintp, hip, hdur, hen, hdesc⟩, by simpa using hallowed, hother, ?_⟩
          rw [if_neg hallowed]
          rfl
    · cases h

/-- A request that is not leaves the daemon as it is. -/
theorem addPortMapping_not_done {args : AddArgs} {block : Block} {outcome : ScheduleOutcome}
    (h : (s.addPortMapping accept args block outcome).2 ≠ .done) :
    (s.addPortMapping accept args block outcome).1 = s := by
  unfold addPortMapping at h ⊢
  split at h
  · rename_i hallowed
    rw [if_pos hallowed]
  · rename_i hallowed
    rw [if_neg hallowed]
    split at h
    · split at h
      · rfl
      · exact absurd rfl h
    · rfl

/-! ## What the fields hold -/

theorem content_stored {p : PortMap} : p.content.Stored ↔ p.Stored := by
  constructor <;>
  · rintro ⟨h1, h2, h3, h4, h5, h6, h7, h8⟩
    exact ⟨h1, h2, h3, h4, h5, h6, h7, h8⟩

theorem insertMapping_stored (hstored : ∀ p ∈ s.table, p.Stored) (block : Block)
    (outcome : ScheduleOutcome) (remoteHost : Option String)
    (extPort intPort proto intIp duration enabled desc : String) :
    ∀ p ∈ (s.insertMapping accept block outcome (atoi enabled) (atoi duration) remoteHost extPort
      intPort proto intIp desc).table, p.Stored := by
  intro p hp
  rw [insertMapping_table] at hp
  rcases List.mem_append.mp hp with hold | hnew
  · exact hstored p hold
  · rw [List.mem_singleton.mp hnew]
    exact content_stored.mpr (newNode_stored (s.malloc block) block.garbage (atoi_isInt enabled)
      (atoi_isInt duration) remoteHost extPort intPort proto intIp desc)

end Igd

theorem Shrinks.stored (hs : Shrinks s s') (h : ∀ p ∈ s.table, p.Stored) :
    ∀ p ∈ s'.table, p.Stored :=
  fun p hp => h p (hs.table.mem hp)

/-- No handler stores a text that is too long. -/
theorem step_stored (accept : Rule → Bool) (s : Igd) (i : Igd.Input) (h : ∀ p ∈ s.table, p.Stored) :
    ∀ p ∈ (Igd.step accept s i).table, p.Stored := by
  cases i with
  | addPortMapping args block outcome =>
      show ∀ p ∈ (s.addPortMapping accept args block outcome).1.table, p.Stored
      by_cases hdone : (s.addPortMapping accept args block outcome).2 = .done
      · obtain ⟨extPort, proto, intPort, intIp, duration, enabled, desc, -, -, -, heq⟩ :=
          Igd.addPortMapping_done hdone
        rw [heq]
        exact Igd.insertMapping_stored ((Igd.cleared_shrinks extPort proto intIp).stored h)
          _ _ _ _ _ _ _
          _ _ _
      · rw [Igd.addPortMapping_not_done hdone]
        exact h
  | deletePortMapping extPort proto => exact (Igd.deletePortMapping_shrinks extPort proto).stored h
  | getSpecificPortMappingEntry extPort proto => exact h
  | getGenericPortMappingEntry mapindex => exact h
  | deleteAllPortMappings => exact (Igd.freeListLoop_shrinks _ s).stored h
  | dispatch eventId => exact (Igd.dispatch_same eventId).shrinks.stored h
  | expireMapping eventId => exact (Igd.expireMapping_shrinks eventId).stored h

end Xwr100.Upnp
