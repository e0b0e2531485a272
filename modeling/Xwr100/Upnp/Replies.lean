import Mathlib.Algebra.GroupWithZero.Nat
import Xwr100.Upnp.Managed

/-!
# The buffers of the replies

The handlers format their replies with `sprintf` into arrays on the stack: the list size into
`num` of five bytes, the entry they report into `result_param` and the response into `resultStr`
of 500 bytes each.
-/

namespace Xwr100.Upnp

open Lib Igd

/-! ## Numbers -/

theorem utf8Size_of_isDigit {c : Char} (h : c.isDigit = true) : c.utf8Size = 1 := by
  simp only [Char.isDigit, Bool.and_eq_true, decide_eq_true_eq] at h
  have hle : c.val ≤ 0x7f := UInt32.le_trans h.2 (by decide)
  simp [Char.utf8Size, hle]

theorem size_of_digits {cs : List Char} (h : ∀ c ∈ cs, c.isDigit = true) :
    (String.ofList cs).utf8ByteSize = cs.length := by
  induction cs with
  | nil => rfl
  | cons c cs ih =>
      have hsplit : String.ofList (c :: cs) = String.singleton c ++ String.ofList cs := by
        rw [String.singleton_eq_ofList, ← String.ofList_append]
        rfl
      rw [hsplit, String.utf8ByteSize_append, String.utf8ByteSize_singleton,
        utf8Size_of_isDigit (h c List.mem_cons_self), ih fun d hd => h d (List.mem_cons_of_mem c hd),
        List.length_cons]
      omega

/-- A number takes at most so many bytes exactly when it is below that power of ten. -/
theorem decimal_size_le_iff {n k : Nat} (hk : 0 < k) :
    (toString n).utf8ByteSize ≤ k ↔ n < 10 ^ k := by
  rw [Nat.toString_eq_ofList_toDigits,
    size_of_digits fun c hc => Nat.isDigit_of_mem_toDigits (by decide) (by decide) hc]
  exact Nat.length_toDigits_le_iff (by decide) hk

theorem int_size_le {n : Int} (h : IsInt n) : (toString n).utf8ByteSize ≤ 11 := by
  rw [Int.toString_eq_repr]
  unfold IsInt at h
  cases n with
  | ofNat m =>
      have hm : m < 10 ^ 11 := by
        simp only [Int.ofNat_eq_natCast] at h
        omega
      exact (decimal_size_le_iff (by decide)).mpr hm
  | negSucc m =>
      have hm : m.succ < 10 ^ 10 := by omega
      have hdigits : m.succ.repr.utf8ByteSize ≤ 10 := (decimal_size_le_iff (by decide)).mpr hm
      show ("-" ++ m.succ.repr).utf8ByteSize ≤ 11
      rw [String.utf8ByteSize_append]
      have hsign : "-".utf8ByteSize = 1 := rfl
      omega

/-! ## The sizes of the replies -/

theorem genericParam_size (p : PortMap) : p.genericParam.utf8ByteSize = 284 + p.replyBytes :=
  sprintf_size (by rfl)

theorem specificParam_size (p : PortMap) :
    p.specificParam.utf8ByteSize = 191 + totalSize p.specificArgs :=
  sprintf_size (by rfl)

theorem resultStr_size (actionName resultParam : String) :
    (resultStr actionName resultParam).utf8ByteSize =
      84 + 2 * actionName.utf8ByteSize + resultParam.utf8ByteSize := by
  have hformat : totalSize responseFormat = 38 := rfl
  have hservice : "urn:schemas-upnp-org:service:WANIPConnection:1".utf8ByteSize = 46 := rfl
  rw [resultStr, sprintf_size (by rfl), hformat]
  simp only [totalSize_cons, totalSize_nil, hservice]
  omega

theorem PortMap.Stored.replyBytes_le {p : PortMap} (h : p.Stored) : p.replyBytes ≤ 114 := by
  have henabled := int_size_le h.enabled
  have hlease := int_size_le h.leaseDuration
  obtain ⟨h1, h2, h3, h4, h5, h6, -, -⟩ := h
  simp only [PortMap.replyBytes, PortMap.genericArgs, totalSize_cons, totalSize_nil]
  omega

theorem PortMap.Stored.specificArgs_le {p : PortMap} (h : p.Stored) :
    totalSize p.specificArgs ≤ 91 := by
  have henabled := int_size_le h.enabled
  have hlease := int_size_le h.leaseDuration
  obtain ⟨-, -, h3, -, h5, h6, -, -⟩ := h
  simp only [PortMap.specificArgs, totalSize_cons, totalSize_nil]
  omega

/-! ## What the handlers write -/

structure BufferWrite where
  capacity : Nat
  text : String
  deriving DecidableEq, Repr

def BufferWrite.Fits (w : BufferWrite) : Prop := w.text.utf8ByteSize < w.capacity

instance (w : BufferWrite) : Decidable w.Fits := inferInstanceAs (Decidable (_ < _))

/-- `sprintf(num, "%d", pmlist_Size())` -/
def Igd.numWrite (s : Igd) : BufferWrite := ⟨5, toString s.pmlist.length⟩

/-- `result_param`, then `resultStr` around it. -/
def replyWrites (actionName resultParam : String) : List BufferWrite :=
  [⟨500, resultParam⟩, ⟨500, resultStr actionName resultParam⟩]

def updateWrites (actionName : String) (r : Igd × Answer) : List BufferWrite :=
  match r.2 with
  | .done => [r.1.numWrite, ⟨500, resultStr actionName ""⟩]
  | _ => []

def Igd.bufferWrites (accept : Rule → Bool) (s : Igd) : Igd.Input → List BufferWrite
  | .addPortMapping args block outcome =>
      updateWrites "AddPortMapping" (s.addPortMapping accept args block outcome)
  | .deletePortMapping extPort proto =>
      updateWrites "DeletePortMapping" (s.deletePortMapping accept extPort proto)
  | .getSpecificPortMappingEntry extPort proto =>
      match s.specificEntry extPort proto with
      | .ok p => replyWrites "GetSpecificPortMappingEntry" p.specificParam
      | .error _ => []
  | .getGenericPortMappingEntry mapindex =>
      match s.genericEntry mapindex with
      | .ok p => replyWrites "GetGenericPortMappingEntry" p.genericParam
      | .error _ => []
  | .expireMapping eventId =>
      match s.dispatched.find? fun e => e.eventId = eventId with
      | some _ => [(s.expireMapping accept eventId).numWrite]
      | none => []
  | .deleteAllPortMappings => []
  | .dispatch _ => []

theorem numWrite_fits_iff (s : Igd) : s.numWrite.Fits ↔ s.pmlist.length ≤ 9999 := by
  have hiff := decimal_size_le_iff (n := s.pmlist.length) (show 0 < 4 by decide)
  show (toString s.pmlist.length).utf8ByteSize < 5 ↔ _
  omega

theorem updateWrites_fit_iff {actionName : String} (hname : actionName.utf8ByteSize ≤ 100)
    (r : Igd × Answer) :
    (∀ w ∈ updateWrites actionName r, w.Fits) ↔ (r.2 = .done → r.1.pmlist.length ≤ 9999) := by
  have hresponse : (BufferWrite.mk 500 (resultStr actionName "")).Fits := by
    show (resultStr actionName "").utf8ByteSize < 500
    rw [resultStr_size]
    have hempty : "".utf8ByteSize = 0 := rfl
    omega
  unfold updateWrites
  cases hanswer : r.2 with
  | done => simp [numWrite_fits_iff, hresponse]
  | result doc => simp
  | error e => simp

theorem specific_fits {p : PortMap} (h : p.Stored) :
    ∀ w ∈ replyWrites "GetSpecificPortMappingEntry" p.specificParam, w.Fits := by
  have hargs := h.specificArgs_le
  have hname : "GetSpecificPortMappingEntry".utf8ByteSize = 27 := rfl
  have hparam := specificParam_size p
  have hresult := resultStr_size "GetSpecificPortMappingEntry" p.specificParam
  simp only [replyWrites, List.forall_mem_cons, BufferWrite.Fits, List.not_mem_nil, false_implies,
    implies_true, and_true]
  omega

/-- The texts of a generic reply fit if its entry is not too large for the response. -/
theorem generic_fits_iff {p : PortMap} (h : p.Stored) :
    (∀ w ∈ replyWrites "GetGenericPortMappingEntry" p.genericParam, w.Fits) ↔
      p.replyBytes ≤ 79 := by
  have hargs := h.replyBytes_le
  have hname : "GetGenericPortMappingEntry".utf8ByteSize = 26 := rfl
  have hparam := genericParam_size p
  have hresult := resultStr_size "GetGenericPortMappingEntry" p.genericParam
  simp only [replyWrites, List.forall_mem_cons, BufferWrite.Fits, List.not_mem_nil, false_implies,
    implies_true, and_true]
  omega

/-! ## The size of the list -/

variable {accept : Rule → Bool} {s : Igd}

namespace Igd

/-- The request is accepted and replaces no entry. -/
def AddsEntry (s : Igd) (args : AddArgs) : Prop :=
  s.vars.configureAllowed = true ∧ ∃ extPort proto intPort intIp duration enabled desc,
    args.Complete extPort proto intPort intIp duration enabled desc ∧
    pmlistFindSameExtPort s.pmlist extPort proto intIp = none ∧
    pmlistFind s.pmlist extPort proto intIp = none

theorem length_table : s.table.length = s.pmlist.length := List.length_map _

/-- Unlinking a node takes one entry off a list of different nodes. -/
theorem length_filter_node {l : List PortMap} (hnodup : (l.map PortMap.node).Nodup) {p : PortMap}
    (hp : p ∈ l) : (l.filter fun q => q.node ≠ p.node).length + 1 = l.length := by
  induction l with
  | nil => cases hp
  | cons q l ih =>
      rw [List.map_cons, List.nodup_cons] at hnodup
      rcases List.mem_cons.mp hp with rfl | hmem
      · have hother : ∀ r ∈ l, decide (r.node ≠ p.node) = true := by
          intro r hr
          rw [decide_eq_true_eq]
          exact fun heq => hnodup.1 (heq ▸ List.mem_map_of_mem hr)
        rw [List.filter_cons_of_neg (by simp), List.filter_eq_self.mpr hother, List.length_cons]
      · have hne : q.node ≠ p.node := fun heq => hnodup.1 (heq ▸ List.mem_map_of_mem hmem)
        rw [List.filter_cons_of_pos (by simpa using hne), List.length_cons, ih hnodup.2 hmem,
          List.length_cons]

theorem AddsEntry.done {args : AddArgs} (h : s.AddsEntry args) (accept : Rule → Bool)
    (block : Block) (outcome : ScheduleOutcome) : (s.addPortMapping accept args block outcome).2 = .done := by
  obtain ⟨hallowed, extPort, proto, intPort, intIp, duration, enabled, desc, hargs, hother, -⟩ := h
  unfold addPortMapping
  simp [hallowed, hargs.externalPort, hargs.protocol, hargs.internalPort, hargs.internalClient,
    hargs.leaseDuration, hargs.enabled, hargs.description, hother]

/-- An accepted request makes the list longer by one, unless it replaces an entry. -/
theorem addPortMapping_length (hnodes : s.NodesOk) {args : AddArgs} {block : Block}
    {outcome : ScheduleOutcome} (h : (s.addPortMapping accept args block outcome).2 = .done) :
    (s.AddsEntry args ∧
      (s.addPortMapping accept args block outcome).1.pmlist.length = s.pmlist.length + 1) ∨
    (¬ s.AddsEntry args ∧
      (s.addPortMapping accept args block outcome).1.pmlist.length = s.pmlist.length) := by
  obtain ⟨extPort, proto, intPort, intIp, duration, enabled, desc, hargs, hallowed, hother, heq⟩ :=
    addPortMapping_done h
  rw [heq, ← length_table, insertMapping_table, List.length_append, ← length_table]
  cases hfind : pmlistFind s.pmlist extPort proto intIp with
  | none =>
      left
      rw [cleared_of_none hfind]
      exact ⟨⟨hallowed, _, _, _, _, _, _, _, hargs, hother, hfind⟩, rfl⟩
  | some ret =>
      right
      constructor
      · rintro ⟨-, extPort', proto', intPort', intIp', _, _, _, hargs', -, hnone⟩
        obtain rfl : extPort' = extPort :=
          Option.some.inj (hargs'.externalPort.symm.trans hargs.externalPort)
        obtain rfl : proto' = proto := Option.some.inj (hargs'.protocol.symm.trans hargs.protocol)
        obtain rfl : intIp' = intIp :=
          Option.some.inj (hargs'.internalClient.symm.trans hargs.internalClient)
        rw [hnone] at hfind
        cases hfind
      · rw [cleared_table_of_some hfind]
        exact length_filter_node (p := ret.content) hnodes
          (mem_table_of_mem (pmlistFind_some hfind).1)

end Igd

/-! ## Every run -/

/-- The list of 9999 entries is not made longer, and a generic reply finds a small entry. -/
def RepliesShort (s : Igd) : Igd.Input → Prop
  | .addPortMapping args _ _ => s.AddsEntry args → s.pmlist.length < 9999
  | .getGenericPortMappingEntry mapindex =>
      ∀ index p, mapindex = some index →
        pmlistFindByIndex s.pmlist (atoi index) = some p → p.replyBytes ≤ 79
  | _ => True

/-- Entries as they are stored, at most 9999 of them. -/
structure RepliesOk (s : Igd) : Prop where
  list : ListOk s
  stored : ∀ p ∈ s.table, p.Stored
  short : s.pmlist.length ≤ 9999

theorem RepliesOk.init (vars : Vars) : RepliesOk (Igd.init vars) where
  list := ListOk.init vars
  stored := by simp [Igd.init, Igd.table]
  short := Nat.zero_le _

theorem Shrinks.length_le {s' : Igd} (hs : Shrinks s s') :
    s'.pmlist.length ≤ s.pmlist.length := by
  have hle := hs.table.length_le
  rwa [length_table, length_table] at hle

theorem RepliesOk.shrinks {s' : Igd} (h : RepliesOk s) (hs : Shrinks s s') : RepliesOk s' where
  list := h.list.shrinks hs
  stored := hs.stored h.stored
  short := hs.length_le.trans h.short

theorem RepliesOk.stored_of_mem (h : RepliesOk s) {p : PortMap} (hp : p ∈ s.pmlist) :
    p.Stored :=
  content_stored.mp (h.stored p.content (mem_table_of_mem hp))

theorem pmlistFindByIndex_mem {l : List PortMap} {index : Int} {p : PortMap}
    (h : pmlistFindByIndex l index = some p) : p ∈ l := by
  unfold pmlistFindByIndex at h
  split at h
  · cases h
  · exact List.mem_of_getElem? h

theorem RepliesOk.getSpecific (h : RepliesOk s) {extPort proto : Option String} {p : PortMap}
    (hp : s.specificEntry extPort proto = .ok p) : p.Stored := by
  unfold specificEntry at hp
  split at hp
  · split at hp
    · split at hp
      · rename_i hfind
        cases hp
        exact h.stored_of_mem (List.mem_of_find?_eq_some hfind)
      · cases hp
    · cases hp
  · cases hp

theorem getGeneric_iff {mapindex : Option String} {p : PortMap} :
    s.genericEntry mapindex = .ok p ↔
      ∃ index, mapindex = some index ∧ pmlistFindByIndex s.pmlist (atoi index) = some p := by
  unfold genericEntry
  cases mapindex with
  | none => simp
  | some index =>
      cases hfind : pmlistFindByIndex s.pmlist (atoi index) <;> simp [hfind]

/-- What a handler writes fits exactly when its step meets the condition. -/
theorem bufferWrites_fit_iff (h : RepliesOk s) (i : Igd.Input) :
    (∀ w ∈ s.bufferWrites accept i, w.Fits) ↔ RepliesShort s i := by
  have hshort := h.short
  cases i with
  | addPortMapping args block outcome =>
      show (∀ w ∈ updateWrites _ _, w.Fits) ↔ (s.AddsEntry args → s.pmlist.length < 9999)
      rw [updateWrites_fit_iff (by decide)]
      constructor
      · intro hfits hadds
        have hdone := hadds.done accept block outcome
        have hle := hfits hdone
        rcases addPortMapping_length h.list.nodes hdone with ⟨-, hlen⟩ | ⟨hnot, -⟩
        · omega
        · exact absurd hadds hnot
      · intro hroom hdone
        rcases addPortMapping_length h.list.nodes hdone with ⟨hadds, hlen⟩ | ⟨-, hlen⟩
        · have hlt := hroom hadds
          omega
        · omega
  | deletePortMapping extPort proto =>
      show (∀ w ∈ updateWrites _ _, w.Fits) ↔ True
      rw [updateWrites_fit_iff (by decide), iff_true]
      exact fun _ => (deletePortMapping_shrinks extPort proto).length_le.trans hshort
  | getSpecificPortMappingEntry extPort proto =>
      simp only [bufferWrites, RepliesShort, iff_true]
      split
      · rename_i p hp
        exact specific_fits (h.getSpecific hp)
      · simp
  | getGenericPortMappingEntry mapindex =>
      simp only [bufferWrites, RepliesShort]
      split
      · rename_i p hp
        obtain ⟨index, rfl, hfind⟩ := getGeneric_iff.mp hp
        rw [generic_fits_iff (h.stored_of_mem (pmlistFindByIndex_mem hfind))]
        constructor
        · intro hle index' q hindex hq
          cases hindex
          rw [hfind] at hq
          cases hq
          exact hle
        · exact fun hall => hall index p rfl hfind
      · rename_i hnone
        simp only [List.not_mem_nil, false_implies, implies_true, true_iff]
        intro index p hindex hfind
        rw [getGeneric_iff.mpr ⟨index, hindex, hfind⟩] at hnone
        cases hnone
  | deleteAllPortMappings => simp [bufferWrites, RepliesShort]
  | dispatch eventId => simp [bufferWrites, RepliesShort]
  | expireMapping eventId =>
      have hshrinks : Shrinks s (s.expireMapping accept eventId) := expireMapping_shrinks eventId
      have hle := hshrinks.length_le.trans hshort
      simp only [bufferWrites, RepliesShort, iff_true]
      split
      · simpa [numWrite_fits_iff] using hle
      · simp

theorem RepliesOk.addPortMapping (h : RepliesOk s) {args : Igd.AddArgs}
    (hroom : s.AddsEntry args → s.pmlist.length < 9999) (block : Block)
    (outcome : Igd.ScheduleOutcome) :
    RepliesOk (s.addPortMapping accept args block outcome).1 := by
  refine ⟨h.list.addPortMapping args block outcome,
    step_stored accept s (.addPortMapping args block outcome) h.stored, ?_⟩
  have hshort := h.short
  by_cases hdone : (s.addPortMapping accept args block outcome).2 = .done
  · rcases addPortMapping_length h.list.nodes hdone with ⟨hadds, hlen⟩ | ⟨-, hlen⟩
    · have hlt := hroom hadds
      omega
    · omega
  · rwa [Igd.addPortMapping_not_done hdone]

theorem step_repliesOk (accept : Rule → Bool) (s : Igd) (i : Igd.Input) (h : RepliesOk s)
    (hshort : RepliesShort s i) : RepliesOk (Igd.step accept s i) := by
  cases i with
  | addPortMapping args block outcome => exact h.addPortMapping hshort block outcome
  | deletePortMapping extPort proto => exact h.shrinks (deletePortMapping_shrinks extPort proto)
  | getSpecificPortMappingEntry extPort proto => exact h
  | getGenericPortMappingEntry mapindex => exact h
  | deleteAllPortMappings => exact h.shrinks (freeListLoop_shrinks _ s)
  | dispatch eventId => exact h.shrinks (dispatch_same eventId).shrinks
  | expireMapping eventId => exact h.shrinks (expireMapping_shrinks eventId)

theorem run_writes_iff {vars : Vars} {inputs : List Igd.Input} :
    Along (Igd.step accept) (fun s i => ∀ w ∈ s.bufferWrites accept i, w.Fits) (Igd.init vars)
      inputs ↔
    Along (Igd.step accept) RepliesShort (Igd.init vars) inputs :=
  along_congr (fun _ i h => bufferWrites_fit_iff h i) (step_repliesOk accept) (RepliesOk.init vars)

/-! ### Nothing limits the list -/

def portInputs (n : Nat) : List Igd.Input :=
  (List.range n).map fun port => .addPortMapping (minuteArgs (toString port) "80") ⟨0, 0⟩ .outOfMemory

theorem toString_injective {m n : Nat} (h : toString m = toString n) : m = n := by
  have hdigits := congrArg String.toList h
  simp only [Nat.toString_eq_ofList_toDigits, String.toList_ofList] at hdigits
  rw [← Nat.ofDigitChars_ten_toDigits (n := m), hdigits, Nat.ofDigitChars_ten_toDigits]

theorem toString_ne_empty {n : Nat} : toString n ≠ "" := by
  intro h
  have hdigits := congrArg String.toList h
  rw [Nat.toString_eq_ofList_toDigits, String.toList_ofList] at hdigits
  exact Nat.toDigits_ne_nil hdigits

/-- A port that has not been stored yet is a new entry. -/
theorem addsEntry_of_new {port : String} (hallowed : s.vars.configureAllowed = true)
    (hnew : ∀ p ∈ s.table, p.externalPort ≠ port) : s.AddsEntry (minuteArgs port "80") := by
  have hother : ∀ p ∈ s.pmlist, p.externalPort ≠ port := fun p hp =>
    hnew p.content (mem_table_of_mem hp)
  refine ⟨hallowed, port, "TCP", "80", "192.168.1.2", "60", "1", "game",
    ⟨rfl, rfl, rfl, rfl, rfl, rfl, rfl⟩, ?_, ?_⟩
  · exact List.find?_eq_none.mpr fun p hp => by simp [hother p hp]
  · exact List.find?_eq_none.mpr fun p hp => by simp [hother p hp]

theorem addsEntry_table {args : Igd.AddArgs} (hadds : s.AddsEntry args) (block : Block)
    (outcome : Igd.ScheduleOutcome) {p : PortMap}
    (hp : p ∈ (s.addPortMapping accept args block outcome).1.table) :
    p ∈ s.table ∨ ∃ port, args.externalPort = some port ∧ p.externalPort = fitField 6 port := by
  obtain ⟨extPort, proto, intPort, intIp, duration, enabled, desc, hargs, -, -, heq⟩ :=
    addPortMapping_done (hadds.done accept block outcome)
  rw [heq, insertMapping_table] at hp
  rcases List.mem_append.mp hp with hold | hnew
  · exact .inl ((cleared_shrinks extPort proto intIp).table.mem hold)
  · refine .inr ⟨extPort, hargs.externalPort, ?_⟩
    rw [List.mem_singleton.mp hnew]
    rfl

theorem run_vars (accept : Rule → Bool) (vars : Vars) (inputs : List Igd.Input) :
    (exec (Igd.step accept) (Igd.init vars) inputs).vars = vars := by
  have hall : Along (Igd.step accept) (fun _ _ => True) (Igd.init vars) inputs :=
    along_of_forall fun _ _ => trivial
  have hstep : ∀ (s : Igd) (i : Igd.Input), s.vars = vars → True →
      (Igd.step accept s i).vars = vars := fun s i h _ => (step_vars i).trans h
  exact hall.invariant hstep rfl

theorem run_portInputs (accept : Rule → Bool) (n : Nat) :
    let s := exec (Igd.step accept) (Igd.init plainVars) (portInputs n)
    s.pmlist.length = n ∧
      ∀ p ∈ s.table, ∃ port < n, p.externalPort = fitField 6 (toString port) := by
  induction n with
  | zero => simp [portInputs, exec, Igd.init, Igd.table]
  | succ n ih =>
      have hlist := run_listOk accept plainVars (portInputs n)
      have hvars := run_vars accept plainVars (portInputs n)
      have hexec : exec (Igd.step accept) (Igd.init plainVars) (portInputs (n + 1)) =
          ((exec (Igd.step accept) (Igd.init plainVars) (portInputs n)).addPortMapping accept
            (minuteArgs (toString n) "80") ⟨0, 0⟩ .outOfMemory).1 := by
        rw [portInputs, List.range_succ, List.map_append, exec, List.foldl_append]
        rfl
      rw [hexec]
      generalize exec (Igd.step accept) (Igd.init plainVars) (portInputs n) = s at *
      obtain ⟨hlen, hports⟩ := ih
      have hadds : s.AddsEntry (minuteArgs (toString n) "80") := by
        apply addsEntry_of_new (by rw [hvars]; rfl)
        intro p hp heq
        obtain ⟨port, hlt, hport⟩ := hports p hp
        rw [heq] at hport
        have hne : fitField 6 (toString port) ≠ "" := by
          rw [← hport]
          exact toString_ne_empty
        rw [fitField_eq hne] at hport
        have := toString_injective hport
        omega
      constructor
      · rcases addPortMapping_length hlist.nodes (hadds.done accept ⟨0, 0⟩ .outOfMemory)
          with ⟨-, hgrown⟩ | ⟨hnot, -⟩
        · rw [hgrown, hlen]
        · exact absurd hadds hnot
      · intro p hp
        rcases addsEntry_table hadds ⟨0, 0⟩ .outOfMemory hp with hold | ⟨port, hport, hstored⟩
        · obtain ⟨port, hlt, hstored⟩ := hports p hold
          exact ⟨port, Nat.lt_succ_of_lt hlt, hstored⟩
        · cases hport
          exact ⟨n, Nat.lt_succ_self n, hstored⟩

/-- With more than 9999 ports, a size has been written that does not fit. -/
theorem portInputs_overflow (accept : Rule → Bool) {n : Nat} (h : 9999 < n) :
    ¬ Along (Igd.step accept) (fun s i => ∀ w ∈ s.bufferWrites accept i, w.Fits)
      (Igd.init plainVars) (portInputs n) := by
  intro hfits
  have hrun := (run_writes_iff.mp hfits).invariant (step_repliesOk accept)
    (RepliesOk.init plainVars)
  have hshort := hrun.short
  rw [(run_portInputs accept n).1] at hshort
  omega

/-- Every text of a reply fits for every node, but for the response of a generic reply, which does
exactly when the fields and printed numbers take at most 79 bytes; and in a run all that is
written fits exactly when no generic reply is larger and the list stays within 9999 entries. -/
theorem replies_fit_iff (node : Nat) (garbage : Int) (remoteHost : Option String)
    (enabled duration externalPort internalPort protocol internalClient desc : String)
    (accept : Rule → Bool) (vars : Vars) (inputs : List Igd.Input) :
    (let p := newNode node garbage (atoi enabled) (atoi duration) remoteHost externalPort
        internalPort protocol internalClient desc
     (BufferWrite.mk 500 p.genericParam).Fits ∧
      (∀ w ∈ replyWrites "GetSpecificPortMappingEntry" p.specificParam, w.Fits) ∧
      ((∀ w ∈ replyWrites "GetGenericPortMappingEntry" p.genericParam, w.Fits) ↔
        p.replyBytes ≤ 79)) ∧
    (Along (Igd.step accept) (fun s i => ∀ w ∈ s.bufferWrites accept i, w.Fits) (Igd.init vars)
        inputs ↔
      Along (Igd.step accept) RepliesShort (Igd.init vars) inputs) := by
  constructor
  · intro p
    have hp : p.Stored := newNode_stored node garbage (atoi_isInt enabled) (atoi_isInt duration)
      remoteHost externalPort internalPort protocol internalClient desc
    refine ⟨?_, specific_fits hp, generic_fits_iff hp⟩
    have hle := hp.replyBytes_le
    show p.genericParam.utf8ByteSize < 500
    rw [genericParam_size]
    omega
  · exact run_writes_iff

def longArgs : Igd.AddArgs where
  externalPort := some "65535"
  protocol := some "TCP"
  internalPort := some "65535"
  internalClient := some "192.168.100.200"
  leaseDuration := some "0"
  enabled := some "1"
  description := some "a description of forty-nine bytes, as many as fit"
  remoteHost := some "203.100.113.255"

/-- Reporting the long mapping writes 514 bytes into 500, and the size of a list of 10000 entries
six into five. -/
theorem replies_overflow :
    ¬ Along (Igd.step fun _ => true) (fun s i => ∀ w ∈ s.bufferWrites (fun _ => true) i, w.Fits)
      (Igd.init plainVars)
      [.addPortMapping longArgs ⟨0, 0⟩ .scheduled, .getGenericPortMappingEntry (some "0")] ∧
    ¬ Along (Igd.step fun _ => true) (fun s i => ∀ w ∈ s.bufferWrites (fun _ => true) i, w.Fits)
      (Igd.init plainVars) (portInputs 10000) := by
  constructor
  · intro hfits
    have hbytes := (run_writes_iff.mp hfits).2.1 "0"
      (newNode 0 0 1 0 longArgs.remoteHost "65535" "65535" "TCP" "192.168.100.200"
        "a description of forty-nine bytes, as many as fit") rfl (by decide)
    exact absurd hbytes (by decide)
  · exact portInputs_overflow _ (by decide)

end Xwr100.Upnp
