import Xwr100.Upnp.Mappings

/-!
# Expiration events and the mappings they point to

A mapping with a lifetime has one event, queued or handed to a worker.  An event holds
a bare pointer to its mapping, so removing the mapping is sound only while its event can
still be taken back.
-/

namespace Xwr100.Upnp

open Lib

variable {accept : Rule → Bool} {s s' : Igd}

/-! ## Events -/

def Igd.events (s : Igd) : List ExpirationEvent := s.queued ++ s.dispatched

/-- A mapping with a lifetime, its own or the default one, has exactly one event, every other
mapping none. -/
def OneEventEach (s : Igd) : Prop :=
  ∀ p ∈ s.pmlist,
    (s.events.filter fun e => e.mapping = p.node).length =
      if s.expires p.leaseDuration then 1 else 0

/-- The event is of a mapping that the handler removes: the one a request replaces or names, any, or
the one that expires. -/
def Igd.Removes (s : Igd) (i : Igd.Input) (e : ExpirationEvent) : Prop :=
  match i with
  | .addPortMapping args _ _ => ∃ extPort proto intIp p, args.externalPort = some extPort ∧
      args.protocol = some proto ∧ args.internalClient = some intIp ∧
      pmlistFind s.pmlist extPort proto intIp = some p ∧ e.mapping = p.node
  | .deletePortMapping extPort proto => ∃ port protocol p, extPort = some port ∧
      proto = some protocol ∧ pmlistFindSpecific s.pmlist port protocol = some p ∧
      e.mapping = p.node
  | .deleteAllPortMappings => s.allocated e.mapping = true
  | .expireMapping eventId => ∃ e' ∈ s.dispatched, e'.eventId = eventId ∧ e.mapping = e'.mapping
  | .getSpecificPortMappingEntry _ _ => False
  | .getGenericPortMappingEntry _ => False
  | .dispatch _ => False

/-- What a handler must do to the events: one for each mapping with a lifetime afterwards, no
freed mapping followed, and no event lost but of a mapping that the handler removes. -/
def TimersAgree (accept : Rule → Bool) (s : Igd) (i : Igd.Input) : Prop :=
  OneEventEach (Igd.step accept s i) ∧ (Igd.step accept s i).dangling = false ∧
  ∀ e ∈ s.events, e ∈ (Igd.step accept s i).events ∨ s.Removes i e

/-- No mapping without a lifetime carries the number of a queued event. -/
def NoStray (s : Igd) : Prop :=
  ∀ p ∈ s.pmlist, s.expires p.leaseDuration = false →
    ∀ e ∈ s.queued, (e.eventId : Int) ≠ p.expirationEventId

/-- Events are scheduled when they should be, no node is put where a dispatched event still
points, mappings are removed without stray event numbers, and no `ExpireMapping` runs. -/
def KeepsTimers (s : Igd) : Igd.Input → Prop
  | .addPortMapping args block outcome =>
      NoStray s ∧ (∀ e ∈ s.dispatched, e.mapping ≠ block.node) ∧
        ∀ duration, args.leaseDuration = some duration →
          s.expires (atoi duration) = true → outcome = .scheduled
  | .deletePortMapping _ _ => NoStray s
  | .deleteAllPortMappings => NoStray s
  | .expireMapping eventId => ∀ e ∈ s.dispatched, e.eventId ≠ eventId
  | _ => True

/-! ## The invariant -/

/-- Events have different numbers and their mappings know them; a queued event's mapping is
listed. -/
structure TimersOk (s : Igd) : Prop where
  nodes : s.NodesOk
  ids : (s.events.map ExpirationEvent.eventId).Nodup
  fresh : ∀ e ∈ s.events, e.eventId < s.lastEventId
  listed : ∀ e ∈ s.queued, s.allocated e.mapping = true
  owned : ∀ p ∈ s.pmlist, ∀ e ∈ s.events, e.mapping = p.node →
    s.expires p.leaseDuration = true ∧ (e.eventId : Int) = p.expirationEventId
  pending : ∀ p ∈ s.pmlist, s.expires p.leaseDuration = true →
    ∃ e ∈ s.events, e.mapping = p.node
  safe : s.dangling = false

theorem TimersOk.init (vars : Vars) : TimersOk (Igd.init vars) := by
  constructor
  · exact Igd.NodesOk.init vars
  all_goals simp [Igd.init, Igd.events]

theorem TimersOk.event_unique (h : TimersOk s) {p : PortMap} (hp : p ∈ s.pmlist)
    {e e' : ExpirationEvent} (he : e ∈ s.events) (he' : e' ∈ s.events)
    (hm : e.mapping = p.node) (hm' : e'.mapping = p.node) : e = e' := by
  obtain ⟨-, hid⟩ := h.owned p hp e he hm
  obtain ⟨-, hid'⟩ := h.owned p hp e' he' hm'
  refine List.inj_on_of_nodup_map h.ids he he' ?_
  omega

theorem TimersOk.oneEventEach (h : TimersOk s) : OneEventEach s := by
  intro p hp
  by_cases hexp : s.expires p.leaseDuration = true
  · obtain ⟨e, he, hm⟩ := h.pending p hp hexp
    have hnodup : (s.events.filter fun e => e.mapping = p.node).Nodup :=
      h.ids.of_map.sublist List.filter_sublist
    have hperm : (s.events.filter fun e => e.mapping = p.node).Perm [e] := by
      rw [List.perm_ext_iff_of_nodup hnodup (List.nodup_singleton e)]
      intro e'
      simp only [List.mem_filter, decide_eq_true_eq, List.mem_singleton]
      constructor
      · rintro ⟨he', hm'⟩
        exact h.event_unique hp he' he hm' hm
      · rintro rfl
        exact ⟨he, hm⟩
    rw [if_pos hexp, hperm.length_eq]
    rfl
  · rw [if_neg hexp, List.length_eq_zero_iff, List.filter_eq_nil_iff]
    intro e he hm
    exact hexp (h.owned p hp e he (by simpa using hm)).1

/-! ## Removing a mapping -/

/-- The state without a mapping and its queued event. -/
def Igd.dropMapping (s : Igd) (node : Nat) (rules : Multiset Rule) : Igd :=
  { s with
    pmlist := s.pmlist.filter fun p => p.node ≠ node
    queued := s.queued.filter fun e => e.mapping ≠ node
    rules := rules }

theorem TimersOk.dropMapping (h : TimersOk s) (node : Nat) (rules : Multiset Rule) :
    TimersOk (s.dropMapping node rules) ∧
      ∀ e ∈ s.events, e ∈ (s.dropMapping node rules).events ∨ e.mapping = node := by
  have hsub : (s.dropMapping node rules).events.Sublist s.events :=
    List.filter_sublist.append (List.Sublist.refl _)
  have hstay : ∀ p ∈ s.pmlist, p.node ≠ node → p ∈ (s.dropMapping node rules).pmlist := by
    intro p hp hne
    exact List.mem_filter.mpr ⟨hp, by simpa using hne⟩
  have hold : ∀ p ∈ (s.dropMapping node rules).pmlist, p ∈ s.pmlist ∧ p.node ≠ node := by
    intro p hp
    obtain ⟨hmem, hne⟩ := List.mem_filter.mp hp
    exact ⟨hmem, by simpa using hne⟩
  have hkeep : ∀ e ∈ s.events, e.mapping ≠ node → e ∈ (s.dropMapping node rules).events := by
    intro e he hne
    rcases List.mem_append.mp he with hq | hd
    · exact List.mem_append_left _ (List.mem_filter.mpr ⟨hq, by simpa using hne⟩)
    · exact List.mem_append_right _ hd
  constructor
  · constructor
    · exact h.nodes.sublist (List.filter_sublist.map _)
    · exact h.ids.sublist (hsub.map _)
    · exact fun e he => h.fresh e (hsub.mem he)
    · intro e he
      obtain ⟨hq, hne⟩ := List.mem_filter.mp he
      obtain ⟨p, hp, hpn⟩ := allocated_iff.mp (h.listed e hq)
      refine allocated_iff.mpr ⟨p, hstay p hp ?_, hpn⟩
      rw [hpn]
      simpa using hne
    · intro p hp e he hm
      exact h.owned p (hold p hp).1 e (hsub.mem he) hm
    · intro p hp hexp
      obtain ⟨hmem, hne⟩ := hold p hp
      obtain ⟨e, he, hm⟩ := h.pending p hmem hexp
      exact ⟨e, hkeep e he (by rw [hm]; exact hne), hm⟩
    · exact h.safe
  · intro e he
    by_cases hm : e.mapping = node
    · exact .inr hm
    · exact .inl (hkeep e he hm)

theorem cancel_of_not_queued {id : Int} (h : ∀ e ∈ s.queued, (e.eventId : Int) ≠ id) :
    s.cancelMappingExpiration id = s := by
  unfold Igd.cancelMappingExpiration
  have hfind : s.queued.find? (fun e => (e.eventId : Int) = id) = none := by
    rw [List.find?_eq_none]
    intro e he
    simpa using h e he
  rw [hfind]
  split <;> rfl

theorem TimersOk.cancel_of_queued (h : TimersOk s) {p : PortMap} (hp : p ∈ s.pmlist)
    {e : ExpirationEvent} (he : e ∈ s.queued) (hm : e.mapping = p.node) :
    s.cancelMappingExpiration p.expirationEventId =
      ({ s with queued := s.queued.filter fun e' => e'.mapping ≠ p.node } : Igd).setEventId
        p.node (-1) := by
  have hev : ∀ e' ∈ s.queued, e' ∈ s.events := fun e' he' => List.mem_append_left _ he'
  obtain ⟨-, hid⟩ := h.owned p hp e (hev e he) hm
  have hfind : s.queued.find? (fun e' => (e'.eventId : Int) = p.expirationEventId) = some e := by
    cases hq : s.queued.find? (fun e' => decide ((e'.eventId : Int) = p.expirationEventId)) with
    | none =>
        have hnone := List.find?_eq_none.mp hq e he
        simp [hid] at hnone
    | some e' =>
        have hid' : (e'.eventId : Int) = p.expirationEventId := by simpa using List.find?_some hq
        rw [List.inj_on_of_nodup_map h.ids (hev e' (List.mem_of_find?_eq_some hq)) (hev e he)
          (by omega)]
  -- the queue holds no other event of this number, and none of this mapping
  have hqueue : (s.queued.filter fun e' => e'.eventId ≠ e.eventId) =
      s.queued.filter fun e' => e'.mapping ≠ p.node := by
    apply List.filter_congr
    intro e' he'
    have hiff : e'.eventId = e.eventId ↔ e'.mapping = p.node := by
      constructor
      · intro heq
        rw [List.inj_on_of_nodup_map h.ids (hev e' he') (hev e he) heq]
        exact hm
      · intro heq
        rw [h.event_unique hp (hev e' he') (hev e he) heq hm]
    simp [hiff]
  unfold Igd.cancelMappingExpiration
  rw [if_neg (by omega), hfind]
  dsimp only
  rw [hqueue]
  unfold Igd.freeExpirationEvent
  have halloc : Igd.allocated
      ({ s with queued := s.queued.filter fun e' => e'.mapping ≠ p.node } : Igd) e.mapping =
        true := allocated_iff.mpr ⟨p, hp, hm.symm⟩
  rw [if_pos halloc, hm]

theorem setEventId_filter (node : Nat) (id : Int) :
    ((s.setEventId node id).pmlist.filter fun p => p.node ≠ node) =
      s.pmlist.filter fun p => p.node ≠ node := by
  unfold Igd.setEventId
  dsimp only
  induction s.pmlist with
  | nil => rfl
  | cons p rest ih =>
      rw [List.map_cons]
      by_cases hp : p.node = node
      · rw [if_pos hp, List.filter_cons_of_neg (by simp [hp]),
          List.filter_cons_of_neg (by simp [hp]), ih]
      · rw [if_neg hp, List.filter_cons_of_pos (by simp [hp]),
          List.filter_cons_of_pos (by simp [hp]), ih]

/-- Removing a mapping takes it out of the list and its event out of the queue, and touches
no other event. -/
theorem TimersOk.remove_eq (h : TimersOk s) (hstray : NoStray s) {p : PortMap}
    (hp : p ∈ s.pmlist) (item : PortMap) :
    ((s.cancelMappingExpiration p.expirationEventId).deleteRules accept item).unlink p.node =
      s.dropMapping p.node (s.deleteRules accept item).rules := by
  by_cases hq : ∃ e ∈ s.queued, e.mapping = p.node
  · obtain ⟨e, he, hm⟩ := hq
    rw [h.cancel_of_queued hp he hm]
    unfold Igd.dropMapping
    rw [← setEventId_filter p.node (-1)]
    rfl
  · have hnone : ∀ e ∈ s.queued, (e.eventId : Int) ≠ p.expirationEventId := by
      intro e he heq
      cases hexp : s.expires p.leaseDuration with
      | false => exact hstray p hp hexp e he heq
      | true =>
          -- the mapping's own event has left the queue, and no other has its number
          obtain ⟨e', he', hm'⟩ := h.pending p hp hexp
          obtain ⟨-, hid⟩ := h.owned p hp e' he' hm'
          have hsame := List.inj_on_of_nodup_map h.ids (List.mem_append_left _ he) he'
            (by omega)
          exact hq ⟨e, he, by rw [hsame]; exact hm'⟩
    rw [cancel_of_not_queued hnone]
    have hqueue : (s.queued.filter fun e => e.mapping ≠ p.node) = s.queued := by
      rw [List.filter_eq_self]
      intro e he
      have hne : e.mapping ≠ p.node := fun hm => hq ⟨e, he, hm⟩
      simpa using hne
    unfold Igd.dropMapping
    rw [hqueue]
    rfl

theorem NoStray.dropMapping (h : NoStray s) (node : Nat) (rules : Multiset Rule) :
    NoStray (s.dropMapping node rules) := by
  intro p hp hexp e he
  exact h p (List.mem_filter.mp hp).1 hexp e (List.mem_filter.mp he).1

theorem TimersOk.remove (h : TimersOk s) (hstray : NoStray s) {p : PortMap}
    (hp : p ∈ s.pmlist) (item : PortMap) :
    let removed := ((s.cancelMappingExpiration p.expirationEventId).deleteRules accept item).unlink
      p.node
    TimersOk removed ∧ NoStray removed ∧ removed.dispatched = s.dispatched ∧
      ∀ e ∈ s.events, e ∈ removed.events ∨ e.mapping = p.node := by
  dsimp only
  rw [h.remove_eq hstray hp item]
  obtain ⟨hok, hkeeps⟩ := h.dropMapping p.node (s.deleteRules accept item).rules
  exact ⟨hok, hstray.dropMapping _ _, rfl, hkeeps⟩

theorem TimersOk.pmlistDelete (h : TimersOk s) (hstray : NoStray s) {item : PortMap}
    (hfind : pmlistFind s.pmlist item.externalPort item.protocol item.internalClient = some item) :
    TimersOk (s.pmlistDelete accept item).1 ∧
      (s.pmlistDelete accept item).1.dispatched = s.dispatched ∧
      ∀ e ∈ s.events, e ∈ (s.pmlistDelete accept item).1.events ∨ e.mapping = item.node := by
  unfold Igd.pmlistDelete
  rw [hfind]
  obtain ⟨hok, -, hkeeps⟩ := @TimersOk.remove accept s h hstray item (pmlistFind_some hfind).1 item
  exact ⟨hok, hkeeps⟩

theorem TimersOk.freeListLoop (n : Nat) (s : Igd) (h : TimersOk s) (hstray : NoStray s) :
    TimersOk (Igd.freeListLoop accept n s) ∧
      ∀ e ∈ s.events, e ∈ (Igd.freeListLoop accept n s).events ∨ s.allocated e.mapping = true := by
  -- nodes go one by one, so what is removed was in the list from the start
  let Reached : Igd → Prop := fun s' => TimersOk s' ∧ NoStray s' ∧
    (∀ node, s'.allocated node = true → s.allocated node = true) ∧
    ∀ e ∈ s.events, e ∈ s'.events ∨ s.allocated e.mapping = true
  have hremove : ∀ s' : Igd, ∀ temp ∈ s'.pmlist, Reached s' →
      Reached (((s'.cancelMappingExpiration temp.expirationEventId).deleteRules accept
        temp).unlink temp.node) := by
    intro s' temp hmem hinv
    obtain ⟨hok, hstray', hlisted, hkeeps⟩ := hinv
    have hdropped := @TimersOk.remove_eq accept s' hok hstray' temp hmem temp
    obtain ⟨hok', hstray'', -, hkeeps'⟩ := @TimersOk.remove accept s' hok hstray' temp hmem temp
    refine ⟨hok', hstray'', ?_, ?_⟩
    · intro node halloc
      rw [hdropped] at halloc
      obtain ⟨p, hp, hpn⟩ := allocated_iff.mp halloc
      exact hlisted node (allocated_iff.mpr ⟨p, (List.mem_filter.mp hp).1, hpn⟩)
    · intro e he
      rcases hkeeps e he with hkept | hgone
      · exact (hkeeps' e hkept).imp_right fun hm =>
          hlisted e.mapping (allocated_iff.mpr ⟨temp, hmem, hm.symm⟩)
      · exact .inr hgone
  obtain ⟨hok, -, -, hkeeps⟩ := Igd.freeListLoop_invariant hremove n s
    ⟨h, hstray, fun _ halloc => halloc, fun _ he => .inl he⟩
  exact ⟨hok, hkeeps⟩

/-! ## Adding a mapping -/

/-- An address no dispatched event points to is of no event at all: queued ones point into the
list. -/
theorem TimersOk.malloc_unheld (h : TimersOk s) {block : Block}
    (hblock : ∀ e ∈ s.dispatched, e.mapping ≠ block.node) :
    ∀ e ∈ s.events, e.mapping ≠ s.malloc block := by
  intro e he
  unfold Igd.malloc
  split
  · exact Nat.ne_of_lt (Igd.lt_unusedAddress (List.mem_append_right _ (List.mem_map_of_mem he)))
  · rename_i hfree
    rcases List.mem_append.mp he with hqueued | hdispatched
    · intro heq
      exact hfree (heq ▸ h.listed e hqueued)
    · exact hblock e hdispatched

def Igd.growMapping (s : Igd) (new : PortMap) (added : List ExpirationEvent)
    (rules : Multiset Rule) : Igd :=
  { s with
    pmlist := s.pmlist ++ [new]
    queued := s.queued ++ added
    rules := rules
    lastEventId := s.lastEventId + added.length }

theorem setEventId_append {l : List PortMap} {new : PortMap} (h : ∀ p ∈ l, p.node ≠ new.node)
    (id : Int) :
    ((l ++ [new]).map fun p => if p.node = new.node then { p with expirationEventId := id } else p) =
      l ++ [{ new with expirationEventId := id }] := by
  rw [List.map_append]
  congr 1
  · nth_rewrite 2 [← List.map_id l]
    apply List.map_congr_left
    intro p hp
    rw [if_neg (h p hp)]
    rfl
  · simp

theorem schedule_of_not_expires {p : PortMap} (h : s.expires p.leaseDuration = false)
    (outcome : Igd.ScheduleOutcome) : s.scheduleMappingExpiration p outcome = s := by
  unfold Igd.scheduleMappingExpiration
  rw [if_pos (by simp [h])]

theorem schedule_of_expires {p : PortMap} (h : s.expires p.leaseDuration = true) :
    s.scheduleMappingExpiration p .scheduled =
      ({ s with
          queued := s.queued ++ [⟨s.lastEventId, p.node⟩]
          lastEventId := s.lastEventId + 1 } : Igd).setEventId p.node s.lastEventId := by
  unfold Igd.scheduleMappingExpiration
  rw [if_neg (by simp [h])]

section Insert

variable (block : Block) (outcome : Igd.ScheduleOutcome) (enabled duration : Int)
  (remoteHost : Option String) (extPort intPort proto intIp desc : String)

theorem insertMapping_eq_of_not_expires (hexp : s.expires duration = false) :
    s.insertMapping accept block outcome enabled duration remoteHost extPort intPort
      proto intIp desc =
      s.growMapping (newNode (s.malloc block) block.garbage enabled duration remoteHost extPort
        intPort proto intIp desc) []
        (s.pushBack accept (newNode (s.malloc block) block.garbage enabled duration remoteHost
          extPort intPort proto intIp desc)).rules := by
  unfold Igd.insertMapping
  dsimp only
  rw [schedule_of_not_expires hexp]
  unfold Igd.growMapping
  rw [List.append_nil]
  rfl

theorem insertMapping_eq_of_expires (hexp : s.expires duration = true) :
    s.insertMapping accept block .scheduled enabled duration remoteHost extPort intPort
      proto intIp desc =
      s.growMapping (newNode (s.malloc block) s.lastEventId enabled duration remoteHost extPort
        intPort proto intIp desc) [⟨s.lastEventId, s.malloc block⟩]
        (s.pushBack accept (newNode (s.malloc block) block.garbage enabled duration remoteHost
          extPort intPort proto intIp desc)).rules := by
  have hne : ∀ p ∈ s.pmlist, p.node ≠ (newNode (s.malloc block) block.garbage enabled duration
      remoteHost extPort intPort proto intIp desc).node := fun p hp => Igd.malloc_not_listed block hp
  have hset := setEventId_append hne s.lastEventId
  unfold Igd.insertMapping
  dsimp only
  rw [schedule_of_expires hexp]
  unfold Igd.growMapping
  rw [show newNode (s.malloc block) s.lastEventId enabled duration remoteHost extPort intPort proto
    intIp desc = { newNode (s.malloc block) block.garbage enabled duration remoteHost extPort intPort
      proto intIp desc with expirationEventId := s.lastEventId } from rfl, ← hset]
  rfl

end Insert

/-- The events that come with a new node: one if the mapping expires, else none. -/
def AddedEvents (s : Igd) (new : PortMap) (added : List ExpirationEvent) : Prop :=
  (s.expires new.leaseDuration = false ∧ added = []) ∨
  (s.expires new.leaseDuration = true ∧ new.expirationEventId = s.lastEventId ∧
    added = [⟨s.lastEventId, new.node⟩])

theorem AddedEvents.eq {new : PortMap} {added : List ExpirationEvent}
    (h : AddedEvents s new added) {e : ExpirationEvent} (he : e ∈ added) :
    e = ⟨s.lastEventId, new.node⟩ := by
  rcases h with ⟨-, rfl⟩ | ⟨-, -, rfl⟩
  · cases he
  · exact List.mem_singleton.mp he

theorem growMapping_events_perm (new : PortMap) (added : List ExpirationEvent)
    (rules : Multiset Rule) :
    (s.growMapping new added rules).events.Perm (added ++ s.events) := by
  show (s.queued ++ added ++ s.dispatched).Perm (added ++ (s.queued ++ s.dispatched))
  rw [← List.append_assoc]
  exact List.perm_append_comm.append_right _

theorem mem_growMapping_events {new : PortMap} {added : List ExpirationEvent}
    {rules : Multiset Rule} {e : ExpirationEvent} :
    e ∈ (s.growMapping new added rules).events ↔ e ∈ added ∨ e ∈ s.events := by
  rw [(growMapping_events_perm new added rules).mem_iff, List.mem_append]

/-- The numbers of the events stay distinct: the new one is the next. -/
theorem TimersOk.growMapping_ids (h : TimersOk s) {new : PortMap} {added : List ExpirationEvent}
    (hadded : AddedEvents s new added) (rules : Multiset Rule) :
    ((s.growMapping new added rules).events.map ExpirationEvent.eventId).Nodup := by
  refine ((growMapping_events_perm new added rules).map _).nodup_iff.mpr ?_
  rw [List.map_append, List.nodup_append]
  refine ⟨?_, h.ids, ?_⟩
  · rcases hadded with ⟨-, rfl⟩ | ⟨-, -, rfl⟩ <;> simp
  · intro a ha b hb
    obtain ⟨e, he, rfl⟩ := List.mem_map.mp ha
    obtain ⟨e', he', rfl⟩ := List.mem_map.mp hb
    have hlt := h.fresh e' he'
    rw [hadded.eq he]
    simp only
    omega

/-- A new node comes to an address of its own, and its event, if it has a lifetime, gets the next
number. -/
theorem TimersOk.growMapping (h : TimersOk s) {new : PortMap} {added : List ExpirationEvent}
    (rules : Multiset Rule) (hnode : ∀ p ∈ s.pmlist, p.node ≠ new.node)
    (hevent : ∀ e ∈ s.events, e.mapping ≠ new.node) (hadded : AddedEvents s new added) :
    TimersOk (s.growMapping new added rules) := by
  have htable : (s.growMapping new added rules).table = s.table ++ [new.content] := by
    simp [Igd.table, Igd.growMapping]
  have hnode' : ∀ p ∈ s.table, p.node ≠ new.content.node := by
    intro p hp
    obtain ⟨q, hq, rfl⟩ := List.mem_map.mp hp
    exact hnode q hq
  refine ⟨h.nodes.append htable hnode', h.growMapping_ids hadded rules, ?_, ?_, ?_, ?_, h.safe⟩
  · intro e he
    show e.eventId < s.lastEventId + added.length
    rcases mem_growMapping_events.mp he with hnew | hold
    · have hpos := List.length_pos_of_mem hnew
      rw [hadded.eq hnew]
      simp only
      omega
    · have hid := h.fresh e hold
      omega
  · intro e he
    rw [allocated_iff]
    rcases List.mem_append.mp he with hold | hnew
    · obtain ⟨p, hp, hpn⟩ := allocated_iff.mp (h.listed e hold)
      exact ⟨p, List.mem_append_left _ hp, hpn⟩
    · refine ⟨new, List.mem_append_right _ (List.mem_singleton.mpr rfl), ?_⟩
      rw [hadded.eq hnew]
  · intro p hp e he hm
    rcases List.mem_append.mp hp with hold | hnew
    · rcases mem_growMapping_events.mp he with henew | heold
      · rw [hadded.eq henew] at hm
        exact absurd hm.symm (hnode p hold)
      · exact h.owned p hold e heold hm
    · obtain rfl := List.mem_singleton.mp hnew
      rcases mem_growMapping_events.mp he with henew | heold
      · rcases hadded with ⟨-, rfl⟩ | ⟨hexp, hid, rfl⟩
        · cases henew
        · obtain rfl := List.mem_singleton.mp henew
          exact ⟨hexp, hid.symm⟩
      · exact absurd hm (hevent e heold)
  · intro p hp hexp
    rcases List.mem_append.mp hp with hold | hnew
    · obtain ⟨e, he, hm⟩ := h.pending p hold hexp
      exact ⟨e, mem_growMapping_events.mpr (.inr he), hm⟩
    · obtain rfl := List.mem_singleton.mp hnew
      rcases hadded with ⟨hnot, -⟩ | ⟨-, -, rfl⟩
      · rw [show (s.growMapping p added rules).expires p.leaseDuration =
          s.expires p.leaseDuration from rfl, hnot] at hexp
        cases hexp
      · exact ⟨_, mem_growMapping_events.mpr (.inl (List.mem_singleton.mpr rfl)), rfl⟩

theorem TimersOk.insertMapping (h : TimersOk s) {block : Block} {outcome : Igd.ScheduleOutcome}
    (enabled : Int) {duration : Int} (remoteHost : Option String)
    (extPort intPort proto intIp desc : String)
    (hblock : ∀ e ∈ s.dispatched, e.mapping ≠ block.node)
    (hsched : s.expires duration = true → outcome = .scheduled) :
    TimersOk (s.insertMapping accept block outcome enabled duration remoteHost extPort intPort
      proto intIp desc) ∧
    ∀ e ∈ s.events, e ∈ (s.insertMapping accept block outcome enabled duration remoteHost extPort
      intPort proto intIp desc).events := by
  have hnode : ∀ p ∈ s.pmlist, p.node ≠ s.malloc block := fun p hp => Igd.malloc_not_listed block hp
  have hevent := h.malloc_unheld hblock
  cases hexp : s.expires duration with
  | false =>
      rw [insertMapping_eq_of_not_expires block outcome enabled duration remoteHost extPort
        intPort proto intIp desc hexp]
      exact ⟨h.growMapping _ hnode hevent (.inl ⟨hexp, rfl⟩),
        fun e he => mem_growMapping_events.mpr (.inr he)⟩
  | true =>
      rw [hsched hexp, insertMapping_eq_of_expires block enabled duration remoteHost extPort
        intPort proto intIp desc hexp]
      exact ⟨h.growMapping _ hnode hevent (.inr ⟨hexp, rfl, rfl⟩),
        fun e he => mem_growMapping_events.mpr (.inr he)⟩

/-! ## Handlers -/

theorem TimersOk.addPortMapping (h : TimersOk s) {args : Igd.AddArgs} {block : Block}
    {outcome : Igd.ScheduleOutcome} (hkeep : KeepsTimers s (.addPortMapping args block outcome)) :
    TimersOk (s.addPortMapping accept args block outcome).1 ∧
    ∀ e ∈ s.events, e ∈ (s.addPortMapping accept args block outcome).1.events ∨
      s.Removes (.addPortMapping args block outcome) e := by
  obtain ⟨hstray, hblock, hsched⟩ := hkeep
  unfold Igd.addPortMapping
  split
  · exact ⟨h, fun _ he => .inl he⟩
  · split
    · rename_i extPort proto intPort intIp duration enabled desc hext hproto _ hip hdur _ _
      cases hother : pmlistFindSameExtPort s.pmlist extPort proto intIp with
      | some q => exact ⟨h, fun _ he => .inl he⟩
      | none =>
          cases hfind : pmlistFind s.pmlist extPort proto intIp with
          | none =>
              obtain ⟨hok, hkeeps⟩ := @TimersOk.insertMapping accept s h block outcome
                (atoi enabled) (atoi duration) args.remoteHost extPort intPort proto intIp desc
                hblock (hsched duration hdur)
              exact ⟨hok, fun e he => .inl (hkeeps e he)⟩
          | some ret =>
              have hself := pmlistFind_self hfind
              obtain ⟨hok, hdispatched, hkeeps⟩ := @TimersOk.pmlistDelete accept s h hstray ret hself
              have hexp : (s.pmlistDelete accept ret).1.expires (atoi duration) =
                  s.expires (atoi duration) := by
                unfold Igd.expires
                rw [Igd.pmlistDelete_vars]
              obtain ⟨hok', hkeeps'⟩ := @TimersOk.insertMapping accept _ hok block outcome
                (atoi enabled) (atoi duration) args.remoteHost extPort intPort proto intIp desc
                (by rw [hdispatched]; exact hblock) (by rw [hexp]; exact hsched duration hdur)
              refine ⟨hok', fun e he => (hkeeps e he).imp (hkeeps' e) fun hm => ?_⟩
              exact ⟨extPort, proto, intIp, ret, hext, hproto, hip, hfind, hm⟩
    · exact ⟨h, fun _ he => .inl he⟩

theorem TimersOk.deletePortMapping (h : TimersOk s) (hstray : NoStray s)
    (extPort proto : Option String) :
    TimersOk (s.deletePortMapping accept extPort proto).1 ∧
    ∀ e ∈ s.events, e ∈ (s.deletePortMapping accept extPort proto).1.events ∨
      s.Removes (.deletePortMapping extPort proto) e := by
  unfold Igd.deletePortMapping
  split
  · exact ⟨h, fun _ he => .inl he⟩
  · split
    · split
      · split
        · rename_i port protocol _ _ temp hfind
          obtain ⟨hok, -, hkeeps⟩ := @TimersOk.pmlistDelete accept s h hstray temp
            (pmlistFind_of_findSpecific hfind)
          refine ⟨hok, fun e he => (hkeeps e he).imp_right fun hm => ?_⟩
          exact ⟨port, protocol, temp, rfl, rfl, hfind, hm⟩
        · exact ⟨h, fun _ he => .inl he⟩
      · exact ⟨h, fun _ he => .inl he⟩
    · exact ⟨h, fun _ he => .inl he⟩

theorem dispatch_events_perm (eventId : Nat) : (s.dispatch eventId).events.Perm s.events := by
  show ((s.queued.filter fun e => e.eventId ≠ eventId) ++
    (s.dispatched ++ s.queued.filter fun e => e.eventId = eventId)).Perm (s.queued ++ s.dispatched)
  have hsplit : ((s.queued.filter fun e => e.eventId = eventId) ++
      s.queued.filter fun e => e.eventId ≠ eventId).Perm s.queued := by
    simpa using List.filter_append_perm (fun e : ExpirationEvent => e.eventId = eventId) s.queued
  refine List.Perm.trans ?_ (hsplit.append_right s.dispatched)
  rw [List.append_assoc]
  refine List.Perm.trans List.perm_append_comm ?_
  rw [List.append_assoc]
  refine List.Perm.trans List.perm_append_comm ?_
  rw [List.append_assoc]

theorem TimersOk.dispatch (h : TimersOk s) (eventId : Nat) :
    TimersOk (s.dispatch eventId) ∧ ∀ e ∈ s.events, e ∈ (s.dispatch eventId).events := by
  have hperm := @dispatch_events_perm s eventId
  constructor
  · constructor
    · exact h.nodes.of_same (Igd.dispatch_same eventId)
    · exact (hperm.map _).nodup_iff.mpr h.ids
    · exact fun e he => h.fresh e (hperm.mem_iff.mp he)
    · exact fun e he => h.listed e (List.mem_filter.mp he).1
    · exact fun p hp e he => h.owned p hp e (hperm.mem_iff.mp he)
    · intro p hp hexp
      obtain ⟨e, he, hm⟩ := h.pending p hp hexp
      exact ⟨e, hperm.mem_iff.mpr he, hm⟩
    · exact h.safe
  · exact fun e he => hperm.mem_iff.mpr he

theorem step_timersOk (accept : Rule → Bool) (s : Igd) (i : Igd.Input) (h : TimersOk s)
    (hkeep : KeepsTimers s i) :
    TimersOk (Igd.step accept s i) ∧
      ∀ e ∈ s.events, e ∈ (Igd.step accept s i).events ∨ s.Removes i e := by
  cases i with
  | addPortMapping args block outcome => exact h.addPortMapping hkeep
  | deletePortMapping extPort proto => exact h.deletePortMapping hkeep extPort proto
  | getSpecificPortMappingEntry extPort proto => exact ⟨h, fun _ he => .inl he⟩
  | getGenericPortMappingEntry mapindex => exact ⟨h, fun _ he => .inl he⟩
  | deleteAllPortMappings => exact TimersOk.freeListLoop _ s h hkeep
  | dispatch eventId =>
      obtain ⟨hok, hkeeps⟩ := h.dispatch eventId
      exact ⟨hok, fun e he => .inl (hkeeps e he)⟩
  | expireMapping eventId =>
      have hnone : s.dispatched.find? (fun e => e.eventId = eventId) = none := by
        rw [List.find?_eq_none]
        intro e he
        simpa using hkeep e he
      have heq : Igd.step accept s (.expireMapping eventId) = s := by
        show s.expireMapping accept eventId = s
        unfold Igd.expireMapping
        rw [hnone]
      rw [heq]
      exact ⟨h, fun _ he => .inl he⟩

/-! ## Runs -/

/-- Along every run without an `ExpireMapping`, events and mappings agree. -/
theorem run_timersAgree (accept : Rule → Bool) (vars : Vars) (inputs : List Igd.Input)
    (h : Along (Igd.step accept) KeepsTimers (Igd.init vars) inputs) :
    Along (Igd.step accept) (TimersAgree accept) (Igd.init vars) inputs := by
  refine h.observe ?_ (TimersOk.init vars)
  intro s i hok hkeep
  obtain ⟨hok', hkeeps⟩ := step_timersOk accept s i hok hkeep
  exact ⟨hok', hok'.oneEventEach, hok'.safe, hkeeps⟩

/-! ## Why no mapping may expire, or come where an event points -/

/-- A node where an event of a freed mapping points has that event besides its own. -/
theorem insertMapping_breaks {block : Block} {outcome : Igd.ScheduleOutcome} (enabled : Int)
    {duration : Int} (remoteHost : Option String) (extPort intPort proto intIp desc : String)
    (hsched : s.expires duration = true → outcome = .scheduled) {e : ExpirationEvent}
    (he : e ∈ s.events) (hm : e.mapping = s.malloc block) :
    ¬ OneEventEach (s.insertMapping accept block outcome enabled duration remoteHost extPort intPort
      proto intIp desc) := by
  have hheld : 0 < (s.events.filter fun e' => e'.mapping = s.malloc block).length :=
    List.length_pos_of_mem (List.mem_filter.mpr ⟨he, decide_eq_true hm⟩)
  -- the events of a new node: those that are added for it, and those that point to it already
  have hcount : ∀ new added rules, new.node = s.malloc block →
      OneEventEach (s.growMapping new added rules) →
      (added.filter fun e' => e'.mapping = s.malloc block).length <
        if s.expires new.leaseDuration then 1 else 0 := by
    intro new added rules hnode hone
    have hnew := hone new (List.mem_append_right _ (List.mem_singleton.mpr rfl))
    rw [((growMapping_events_perm new added rules).filter _).length_eq, List.filter_append,
      List.length_append, hnode] at hnew
    exact lt_of_lt_of_eq (Nat.lt_add_of_pos_right hheld) hnew
  intro hone
  cases hexp : s.expires duration with
  | false =>
      rw [insertMapping_eq_of_not_expires block outcome enabled duration remoteHost extPort
        intPort proto intIp desc hexp] at hone
      have hlt := hcount _ _ _ rfl hone
      rw [show s.expires (newNode _ _ _ _ _ _ _ _ _ _).leaseDuration = s.expires duration from rfl,
        hexp] at hlt
      exact Nat.not_lt_zero _ hlt
  | true =>
      rw [hsched hexp, insertMapping_eq_of_expires block enabled duration remoteHost extPort
        intPort proto intIp desc hexp] at hone
      have hlt := hcount _ _ _ rfl hone
      rw [show s.expires (newNode _ _ _ _ _ _ _ _ _ _).leaseDuration = s.expires duration from rfl,
        hexp] at hlt
      simp at hlt

theorem cancel_events_sublist (id : Int) :
    (s.cancelMappingExpiration id).events.Sublist s.events := by
  unfold Igd.cancelMappingExpiration
  split
  · exact List.Sublist.refl _
  · split
    · dsimp only
      unfold Igd.freeExpirationEvent
      split
      · exact List.filter_sublist.append (List.Sublist.refl _)
      · exact List.filter_sublist.append (List.Sublist.refl _)
    · exact List.Sublist.refl _

theorem pmlistDelete_sublist (item : PortMap) :
    (s.pmlistDelete accept item).1.events.Sublist s.events ∧
    (s.pmlistDelete accept item).1.table.Sublist s.table := by
  unfold Igd.pmlistDelete
  split
  · rw [Igd.remove_table]
    exact ⟨cancel_events_sublist _, List.filter_sublist⟩
  · exact ⟨List.Sublist.refl _, List.Sublist.refl _⟩

/-- Freeing the last event of a mapping: a mapping that stays is without one. -/
theorem freeExpirationEvent_breaks {e : ExpirationEvent}
    (hevents : ∀ e' ∈ s.events, e'.mapping ≠ e.mapping)
    (hexp : ∀ p ∈ s.pmlist, p.node = e.mapping → s.expires p.leaseDuration = true)
    (hone : OneEventEach (s.freeExpirationEvent e)) :
    (s.freeExpirationEvent e).dangling = true := by
  unfold Igd.freeExpirationEvent at hone ⊢
  by_cases halloc : s.allocated e.mapping = true
  · rw [if_pos halloc] at hone
    obtain ⟨p, hp, hpn⟩ := allocated_iff.mp halloc
    have hlen := hone { p with expirationEventId := -1 }
      (List.mem_map.mpr ⟨p, hp, by rw [if_pos hpn]⟩)
    have hnil : ((s.setEventId e.mapping (-1)).events.filter fun e' => e'.mapping = p.node) =
        [] := by
      rw [List.filter_eq_nil_iff]
      intro e' he' heq
      exact hevents e' he' (by rw [← hpn]; simpa using heq)
    have hexp' : (s.setEventId e.mapping (-1)).expires p.leaseDuration = true := hexp p hp hpn
    rw [if_pos hexp'] at hlen
    simp only [hnil] at hlen
    cases hlen
  · rw [if_neg halloc]

theorem TimersOk.find_dispatched (h : TimersOk s) {e : ExpirationEvent} (he : e ∈ s.dispatched) :
    s.dispatched.find? (fun e' => e'.eventId = e.eventId) = some e := by
  have hev : ∀ e' ∈ s.dispatched, e' ∈ s.events := fun e' he' => List.mem_append_right _ he'
  cases hq : s.dispatched.find? (fun e' => decide (e'.eventId = e.eventId)) with
  | none =>
      have hnone := List.find?_eq_none.mp hq e he
      simp at hnone
  | some e' =>
      have hid : e'.eventId = e.eventId := by simpa using List.find?_some hq
      rw [List.inj_on_of_nodup_map h.ids (hev e' (List.mem_of_find?_eq_some hq)) (hev e he) hid]

def Igd.running (s : Igd) (e : ExpirationEvent) : Igd :=
  { s with dispatched := s.dispatched.filter fun e' => e'.eventId ≠ e.eventId }

/-- A running event was the only one of its mapping. -/
theorem TimersOk.running_events (h : TimersOk s) {e : ExpirationEvent} (he : e ∈ s.dispatched)
    {m : PortMap} (hmem : m ∈ s.pmlist) (hnode : m.node = e.mapping) :
    ∀ e' ∈ (s.running e).events, e'.mapping ≠ e.mapping := by
  intro e' he' heq
  have hsub : e' ∈ s.events := ((List.Sublist.refl s.queued).append List.filter_sublist).mem he'
  have hsame := h.event_unique hmem hsub (List.mem_append_right _ he) (heq.trans hnode.symm)
    hnode.symm
  subst hsame
  rcases List.mem_append.mp he' with hq | hd
  · have hnodup := h.ids
    unfold Igd.events at hnodup
    rw [List.map_append, List.nodup_append] at hnodup
    exact hnodup.2.2 e'.eventId (List.mem_map_of_mem hq) e'.eventId (List.mem_map_of_mem he) rfl
  · have hne := (List.mem_filter.mp hd).2
    simp at hne

/-- When `ExpireMapping` runs, either a freed mapping is followed or the mapping stays without
its event. -/
theorem TimersOk.expireMapping_breaks (h : TimersOk s) {e : ExpirationEvent}
    (he : e ∈ s.dispatched) : ¬ TimersAgree accept s (.expireMapping e.eventId) := by
  rintro ⟨hone, hsafe, -⟩
  have hstep : Igd.step accept s (.expireMapping e.eventId) =
      Igd.expireEvent accept (s.running e) e := by
    show s.expireMapping accept e.eventId = _
    unfold Igd.expireMapping
    rw [h.find_dispatched he]
    rfl
  rw [hstep] at hone hsafe
  unfold Igd.expireEvent at hone hsafe
  cases hm : (s.running e).pmlist.find? (fun p => decide (p.node = e.mapping)) with
  | none =>
      rw [hm] at hsafe
      cases hsafe
  | some m =>
      have hmem : m ∈ s.pmlist := List.mem_of_find?_eq_some hm
      have hnode : m.node = e.mapping := by simpa using List.find?_some hm
      rw [hm] at hone hsafe
      obtain ⟨hevents, htable⟩ :=
        @pmlistDelete_sublist accept ((s.running e).setEventId m.node (-1)) m
      have hdangling := freeExpirationEvent_breaks
        (fun e' he' => h.running_events he hmem hnode e' (hevents.mem he')) ?_ hone
      · rw [hdangling] at hsafe
        cases hsafe
      · intro p hp hpn
        -- a node that stays is the event's mapping, which has a lifetime
        have hin := htable.mem (Igd.mem_table_of_mem hp)
        rw [(Igd.setEventId_same m.node (-1)).table] at hin
        have hcontent : p.content = m.content :=
          List.inj_on_of_nodup_map h.nodes hin (Igd.mem_table_of_mem hmem)
            (hpn.trans hnode.symm)
        have hlease : p.content.leaseDuration = m.content.leaseDuration :=
          congrArg PortMap.leaseDuration hcontent
        have hexp := (h.owned m hmem e (List.mem_append_right _ he) hnode.symm).1
        unfold Igd.expires at hexp ⊢
        rw [Igd.pmlistDelete_vars, show p.leaseDuration = m.leaseDuration from hlease]
        exact hexp

/-- A mapping of a minute expires: its node is freed, and then written to. -/
theorem expire_follows_freed_mapping :
    ¬ Along (Igd.step noEmptyArgs) (TimersAgree noEmptyArgs) (Igd.init plainVars)
      [.addPortMapping (minuteArgs "8080" "80") ⟨0, 0⟩ .scheduled, .dispatch 0, .expireMapping 0] := by
  rintro ⟨-, -, ⟨-, hsafe, -⟩, -⟩
  revert hsafe
  decide

/-- Two mappings are added, one is replaced by a node where its own was, and the rest deleted while
an event waits. -/
theorem run_timersAgree_two_ports :
    Along (Igd.step noEmptyArgs) (TimersAgree noEmptyArgs) (Igd.init plainVars)
      [.addPortMapping (minuteArgs "8080" "80") ⟨0, 0⟩ .scheduled,
        .addPortMapping (minuteArgs "8081" "81") ⟨1, 0⟩ .scheduled,
        .addPortMapping (minuteArgs "8080" "82") ⟨0, 0⟩ .scheduled,
        .dispatch 1, .deletePortMapping (some "8080") (some "TCP")] := by
  refine run_timersAgree noEmptyArgs plainVars _ ⟨⟨?_, ?_, fun _ _ _ => rfl⟩,
    ⟨?_, ?_, fun _ _ _ => rfl⟩, ⟨?_, ?_, fun _ _ _ => rfl⟩, trivial, ?_, trivial⟩
  case refine_7 =>
    show NoStray _
    unfold NoStray
    decide
  all_goals
    try unfold NoStray
    decide

end Xwr100.Upnp
