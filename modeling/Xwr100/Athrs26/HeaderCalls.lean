import Xwr100.Athrs26.HeaderLoop

/-! # What a call over the link reports

A call reports success unless the third of its waits is the first to end in time, and a read besides
only if the last answer received carries its sequence number.  So a write that nobody has answered
succeeds, one that is answered at the third attempt fails, and a read of the learn bit takes a
late answer to an earlier one.
-/

namespace Xwr100.Athrs26

/-! ## A call -/

namespace Call

def request (c : Call) : List Byte :=
  match c.command with
  | .write regAddr regData =>
      athrs26HeaderConfigReg 0#8 regAddr 4#16 (Driver.regTmp regData) c.seqNum
  | .read regAddr _ => athrs26HeaderConfigReg 1#8 regAddr 4#16 [] c.seqNum

/-- A reset write is not answered. -/
def isReset (c : Call) : Bool :=
  match c.command with
  | .write regAddr regData => Driver.isReset regAddr regData
  | .read _ _ => false

def start (c : Call) : Driver := (Driver.deliverAll c.network.before c.driver).1

def looped (c : Call) : Driver × Int :=
  Driver.loop c.request c.isReset c.network.attempt 2 c.start

def turns (c : Call) : List (Driver × Attempt) :=
  Driver.turns c.request c.isReset c.network.attempt 2 c.start

/-- Some answer comes in before one of the waits is over. -/
def Answered (c : Call) : Prop :=
  ∃ t ∈ c.turns, ∃ r ∈ t.2.early ++ t.2.asleep, t.1.answers r = true

instance (c : Call) : Decidable c.Answered :=
  inferInstanceAs (Decidable (∃ t ∈ c.turns, ∃ r ∈ t.2.early ++ t.2.asleep, t.1.answers r = true))

/-- The third wait is the first one to end in time. -/
def EndsThird (c : Call) : Prop := ∃ t, c.turns[2]? = some t ∧ t.2.Ends t.1

/-- The state in which the length in `cmd_resp` is tested. -/
def measured (c : Call) : Driver := (Driver.deliverAll c.network.tested c.looped.1).1

/-- The state in which byte `k` of the data is loaded. -/
def loaded (c : Call) (k : Nat) : Driver := Driver.loading c.network.torn k c.measured

/-- The answer is to a request of this call, which has its sequence number. -/
def Own (c : Call) (r : Receipt) : Prop :=
  c.driver.sent.length ≤ r.request ∧
    ∃ frame, c.run.1.sent[r.request]? = some frame ∧ respSeq (answer frame r.data) = c.seqNum

/-- Every byte of the register value is from an answer to a request of this call, and the value is
that of one such answer. -/
def ReturnsOwn (c : Call) : Prop :=
  (∀ k < 4, ∃ r, (c.loaded k).copied = some r ∧ c.Own r) ∧
    ∃ r ∈ c.run.1.received, c.Own r ∧ c.run.2.2 = wordOf r.data

/-- A call reports success exactly if an answer comes in or none is expected, and a read that does
returns the data of an answer of its own. -/
def Honest (c : Call) : Prop :=
  match c.command with
  | .write _ _ => c.run.2.1 = 0 ↔ c.Answered ∨ c.isReset = true
  | .read _ _ => (c.run.2.1 = 0 ↔ c.Answered) ∧ (c.run.2.1 = 0 → c.ReturnsOwn)

/-- The last answer to have come in when the loop ends has the call's sequence number.  If there
has never been one, the number in `cmd_resp` is 0 and one has to come in before the length is
tested. -/
def LastMatches (c : Call) : Prop :=
  match c.looped.1.received.getLast? with
  | some r => r.seq = c.seqNum
  | none => c.seqNum = 0#32 ∧ c.network.tested.any c.looped.1.answers = true

/-- The last current answer to have come in during the call when byte `k` is loaded. -/
def lastCurrent (c : Call) (k : Nat) : Option Receipt :=
  (((c.loaded k).received.drop c.driver.received.length).filter
    (Receipt.current c.driver.seqcnt)).getLast?

/-- Whenever a byte of the data is loaded, the last current answer to have come in during the call
is to one of its requests, and some answer to its requests has all these bytes. -/
def LastIsOwn (c : Call) : Prop :=
  ∃ own ∈ (c.loaded 3).received, c.driver.sent.length ≤ own.request ∧
    ∀ k < 4, ∃ r, c.lastCurrent k = some r ∧ c.driver.sent.length ≤ r.request ∧
      r.data k = own.data k

def Heeded (c : Call) : Prop :=
  match c.command with
  | .write _ _ => c.isReset = true ∨ (c.Answered ↔ ¬c.EndsThird)
  | .read _ _ => (c.Answered → ¬c.EndsThird ∧ c.LastMatches ∧ c.LastIsOwn) ∧
      (¬c.Answered → c.EndsThird ∨ ¬c.LastMatches)

variable {c : Call}

theorem request_isRequest : IsRequest c.request := by
  intro data
  unfold request
  cases c.command with
  | write regAddr regData => exact respLen_answer _ _ _ _ _ data (by decide)
  | read regAddr regData => exact respLen_answer _ _ _ _ _ data (by decide)

theorem respSeq_request (hseq : c.seqNum.getLsbD 31 = false) (data : Nat → Byte) :
    respSeq (answer c.request data) = c.seqNum := by
  unfold request
  cases c.command with
  | write regAddr regData => exact respSeq_answer _ _ _ _ _ data hseq
  | read regAddr regData => exact respSeq_answer _ _ _ _ _ data hseq

theorem start_proceeds (hd : Sane c.driver) : Proceeds c.request c.driver c.start :=
  deliverAll_proceeds c.request _ hd

theorem looped_proceeds (hd : Sane c.driver) : Proceeds c.request c.driver c.looped.1 :=
  (start_proceeds hd).trans
    (loop_proceeds (start_proceeds hd).sane request_isRequest c.isReset c.network.attempt 2)

/-- What the loop leaves in `i` says whether the third wait is the one that ends in time. -/
theorem looped_eq_zero_iff (hd : Sane c.driver) : c.looped.2 = 0 ↔ c.EndsThird := by
  unfold looped EndsThird turns
  cases hreset : c.isReset with
  | false => exact loop_eq_zero_iff (start_proceeds hd).sane request_isRequest c.network.attempt 2
  | true => simp [Driver.loop, Driver.turns]

theorem run_write {regAddr regData : BitVec 32} (h : c.command = .write regAddr regData) :
    c.run = (c.looped.1, if c.looped.2 = 0 then -1 else 0, regData) := by
  unfold run looped start isReset request
  rw [h]
  rfl

theorem measured_proceeds (hd : Sane c.driver) : Proceeds c.request c.driver c.measured :=
  (looped_proceeds hd).trans (deliverAll_proceeds c.request _ (looped_proceeds hd).sane)

theorem loaded_proceeds (hd : Sane c.driver) (k : Nat) :
    Proceeds c.request c.driver (c.loaded k) :=
  (measured_proceeds hd).trans (loading_proceeds (measured_proceeds hd).sane c.network.torn k)

theorem run_read {regAddr regData : BitVec 32} (h : c.command = .read regAddr regData) :
    c.run =
      if c.looped.2 = 0 ∨ c.seqNum ≠ c.looped.1.cmdResp.seq then (c.looped.1, -1, regData)
      else if 4#16 ≠ c.measured.cmdResp.len.setWidth 16 then (c.measured, -1, regData)
      else (c.loaded 3, 0, wordOf fun k => (c.loaded k).cmdResp.data k) := by
  unfold run loaded measured looped start isReset request
  rw [h]
  rfl

theorem not_endsThird_of_isReset (h : c.isReset = true) : ¬c.EndsThird := by
  unfold EndsThird turns
  rw [h]
  simp [Driver.turns]

theorem honest_write {regAddr regData : BitVec 32} (hd : Sane c.driver)
    (h : c.command = .write regAddr regData) : c.Honest ↔ c.Heeded := by
  have hret : c.run.2.1 = 0 ↔ ¬c.EndsThird := by
    rw [run_write h, ← looped_eq_zero_iff hd]
    dsimp only
    split <;> simp [*]
  unfold Honest Heeded
  rw [h]
  dsimp only
  rw [hret]
  by_cases hreset : c.isReset = true
  · have hthird := not_endsThird_of_isReset hreset
    exact iff_of_true (iff_of_true hthird (Or.inr hreset)) (Or.inl hreset)
  · rw [or_iff_left hreset, or_iff_right hreset]
    exact Iff.comm

/-- The tests of `cmd_resp` ask for the sequence number of the last answer. -/
theorem matches_iff (hd : Sane c.driver) :
    (c.seqNum = c.looped.1.cmdResp.seq ∧ 4#16 = c.measured.cmdResp.len.setWidth 16) ↔
      c.LastMatches := by
  have hlooped := (looped_proceeds hd).sane
  have hmeasured := (measured_proceeds hd).sane
  have hreceived : c.measured.received = [] ↔
      c.looped.1.received = [] ∧ c.network.tested.any c.looped.1.answers = false :=
    deliverAll_received c.network.tested hlooped
  have hlen : 4#16 = c.measured.cmdResp.len.setWidth 16 ↔ c.measured.received ≠ [] := by
    cases hlast : c.measured.received.getLast? with
    | none =>
        have hnil := List.getLast?_eq_none_iff.mp hlast
        rw [(hmeasured.first hnil).1]
        simp [hnil]
    | some r =>
        have hne : c.measured.received ≠ [] := by
          intro hnil
          rw [hnil] at hlast
          cases hlast
        rw [(hmeasured.last r hlast).1]
        exact iff_of_true (by decide) hne
  rw [hlen, Ne, hreceived]
  unfold LastMatches
  cases hlast : c.looped.1.received.getLast? with
  | none =>
      have hnil := List.getLast?_eq_none_iff.mp hlast
      rw [(hlooped.first hnil).2]
      simp [hnil]
  | some r =>
      have hne : c.looped.1.received ≠ [] := by
        intro hnil
        rw [hnil] at hlast
        cases hlast
      rw [(hlooped.last r hlast).2, and_iff_left fun h => hne h.1]
      exact eq_comm

theorem run_read_done {regAddr regData : BitVec 32} (h : c.command = .read regAddr regData)
    (hret : c.run.2.1 = 0) :
    c.run = (c.loaded 3, 0, wordOf fun k => (c.loaded k).cmdResp.data k) := by
  rw [run_read h] at hret ⊢
  split at hret
  · cases hret
  · rename_i htried
    rw [if_neg htried]
    split at hret
    · cases hret
    · rename_i hmeasured
      rw [if_neg hmeasured]

theorem run_read_eq_zero_iff {regAddr regData : BitVec 32} (hd : Sane c.driver)
    (h : c.command = .read regAddr regData) :
    c.run.2.1 = 0 ↔ ¬c.EndsThird ∧ c.LastMatches := by
  rw [run_read h, ← looped_eq_zero_iff hd, ← matches_iff hd]
  split
  · rename_i hfail
    apply iff_of_false (by decide : (-1 : Int) ≠ 0)
    rintro ⟨hloop, hseq, -⟩
    exact hfail.elim hloop fun h => h hseq
  · rename_i hpass
    rw [not_or, not_not] at hpass
    split
    · rename_i hlen
      apply iff_of_false (by decide : (-1 : Int) ≠ 0)
      rintro ⟨-, -, hfour⟩
      exact hlen hfour
    · rename_i hlen
      exact iff_of_true rfl ⟨hpass.1, hpass.2, not_not.mp hlen⟩

/-- The data come from the last current answer, or were there before the call. -/
theorem copied_loaded (hd : Sane c.driver) (k : Nat) :
    (c.loaded k).copied = (c.lastCurrent k).or c.driver.copied := by
  obtain ⟨new, hnew, hcopied⟩ := (loaded_proceeds hd k).received
  unfold lastCurrent
  rw [hcopied, hnew, List.drop_left]

theorem copied_eq_some_iff (hd : Sane c.driver) {k : Nat} {r : Receipt}
    (hown : c.driver.sent.length ≤ r.request) :
    (c.loaded k).copied = some r ↔ c.lastCurrent k = some r := by
  rw [copied_loaded hd]
  cases hlast : c.lastCurrent k with
  | some x => simp
  | none =>
      rw [Option.none_or]
      apply iff_of_false
      · exact fun hold => absurd (hd.copied r hold).1 (Nat.not_lt.mpr hown)
      · nofun

theorem loaded_sent (k : Nat) : (c.loaded k).sent = c.measured.sent := by
  induction k with
  | zero => exact deliverAll_sent
  | succ k ih => exact deliverAll_sent.trans ih

theorem own_iff (hd : Sane c.driver) (hseq : c.seqNum.getLsbD 31 = false)
    (hrun : c.run.1 = c.loaded 3) {r : Receipt} (hlt : r.request < c.measured.sent.length) :
    c.Own r ↔ c.driver.sent.length ≤ r.request := by
  obtain ⟨n, hsent⟩ := (measured_proceeds hd).sent
  refine ⟨fun h => h.1, fun hown => ⟨hown, c.request, ?_, respSeq_request hseq r.data⟩⟩
  rw [hsent, List.length_append, List.length_replicate] at hlt
  rw [hrun, loaded_sent, hsent, List.getElem?_append_right hown, List.getElem?_replicate,
    if_pos (by omega)]

theorem returnsOwn_iff (hd : Sane c.driver) (hseq : c.seqNum.getLsbD 31 = false)
    (hrun : c.run = (c.loaded 3, 0, wordOf fun k => (c.loaded k).cmdResp.data k)) :
    c.ReturnsOwn ↔ c.LastIsOwn := by
  have hstate : c.run.1 = c.loaded 3 := congrArg Prod.fst hrun
  have hword : c.run.2.2 = wordOf fun k => (c.loaded k).cmdResp.data k :=
    congrArg (fun out => out.2.2) hrun
  have hsane : ∀ k, Sane (c.loaded k) := fun k => (loaded_proceeds hd k).sane
  unfold ReturnsOwn LastIsOwn
  rw [hstate, hword]
  constructor
  · rintro ⟨hall, own, hmem, hown, hvalue⟩
    refine ⟨own, hmem, hown.1, fun k hk => ?_⟩
    obtain ⟨r, hcopied, hr⟩ := hall k hk
    have hdata := ((hsane k).copied r hcopied).2 k hk
    exact ⟨r, (copied_eq_some_iff hd hr.1).mp hcopied, hr.1,
      hdata.symm.trans (wordOf_eq_iff.mp hvalue k hk)⟩
  · rintro ⟨own, hmem, hown, hall⟩
    refine ⟨fun k hk => ?_, own, hmem, ?_, wordOf_eq_iff.mpr fun k hk => ?_⟩
    · obtain ⟨r, hlast, hr, -⟩ := hall k hk
      have hcopied := (copied_eq_some_iff hd hr).mpr hlast
      have hlt := ((hsane k).copied r hcopied).1
      rw [loaded_sent] at hlt
      exact ⟨r, hcopied, (own_iff hd hseq hstate hlt).mpr hr⟩
    · have hlt := (hsane 3).known own hmem
      rw [loaded_sent] at hlt
      exact (own_iff hd hseq hstate hlt).mpr hown
    · obtain ⟨r, hlast, hr, hdata⟩ := hall k hk
      have hcopied := (copied_eq_some_iff hd hr).mpr hlast
      exact (((hsane k).copied r hcopied).2 k hk).trans hdata

theorem honest_read {regAddr regData : BitVec 32} (hd : Sane c.driver)
    (hseq : c.seqNum.getLsbD 31 = false) (h : c.command = .read regAddr regData) :
    c.Honest ↔ c.Heeded := by
  have hret := run_read_eq_zero_iff hd h
  have hown : c.run.2.1 = 0 → (c.ReturnsOwn ↔ c.LastIsOwn) := fun hzero =>
    returnsOwn_iff hd hseq (run_read_done h hzero)
  unfold Honest Heeded
  rw [h]
  dsimp only
  constructor
  · rintro ⟨hiff, hdata⟩
    constructor
    · intro hanswered
      have hzero := hiff.mpr hanswered
      exact ⟨(hret.mp hzero).1, (hret.mp hzero).2, (hown hzero).mp (hdata hzero)⟩
    · intro hsilent
      have hfail := mt hret.mpr (mt hiff.mp hsilent)
      exact or_iff_not_imp_left.mpr fun hthird hmatch => hfail ⟨hthird, hmatch⟩
  · rintro ⟨hanswered, hsilent⟩
    have hiff : c.run.2.1 = 0 ↔ c.Answered := by
      rw [hret]
      constructor
      · rintro ⟨hthird, hmatch⟩
        by_contra hnone
        exact (hsilent hnone).elim hthird fun h => h hmatch
      · intro hyes
        exact ⟨(hanswered hyes).1, (hanswered hyes).2.1⟩
    exact ⟨hiff, fun hzero => (hown hzero).mpr (hanswered (hiff.mp hzero)).2.2⟩

/-- From a state the driver can be in, with a sequence number of 31 bits: a call is honest exactly
if what comes in is as it needs it. -/
theorem honest_iff (hd : Sane c.driver) (hseq : c.seqNum.getLsbD 31 = false) :
    c.Honest ↔ c.Heeded := by
  cases h : c.command with
  | write regAddr regData => exact honest_write hd h
  | read regAddr regData => exact honest_read hd hseq h

theorem run_sane (hd : Sane c.driver) : Sane c.run.1 := by
  cases h : c.command with
  | write regAddr regData =>
      rw [run_write h]
      exact (looped_proceeds hd).sane
  | read regAddr regData =>
      rw [run_read h]
      split
      · exact (looped_proceeds hd).sane
      · split
        · exact (measured_proceeds hd).sane
        · exact (loaded_proceeds hd 3).sane

end Call

/-! ## Runs -/

variable {d d' : Driver}

/-- A number below 0x80000000 has 31 bits. -/
theorem getLsbD_of_lt {x : BitVec 32} (h : x < 0x80000000#32) : x.getLsbD 31 = false := by
  rw [← BitVec.testBit_toNat]
  exact Nat.testBit_lt_two_pow h

theorem init_sane : Sane Driver.init where
  seqcnt := by decide
  frames := fun _ h => absurd h List.not_mem_nil
  known := fun _ h => absurd h List.not_mem_nil
  first := fun _ => ⟨rfl, rfl⟩
  last := nofun
  copied := nofun

/-- The call starts from a state the driver can be in, with a sequence number of 31 bits. -/
def Call.Proper (c : Call) : Prop := Sane c.driver ∧ c.seqNum.getLsbD 31 = false

/-- What an access or a part of it comes to: a state the driver can be in, by proper calls. -/
structure Proper (out : Driver) (calls : List Call) : Prop where
  sane : Sane out
  calls : ∀ c ∈ calls, c.Proper

namespace Proper

variable {calls calls' : List Call}

theorem append (h : Proper d calls) (h' : Proper d' calls') : Proper d' (calls ++ calls') where
  sane := h'.sane
  calls := by
    intro c hc
    rcases List.mem_append.mp hc with hc | hc
    · exact h.calls c hc
    · exact h'.calls c hc

theorem single {c : Call} (h : c.Proper) : Proper c.run.1 [c] where
  sane := Call.run_sane h.1
  calls := by
    intro c' hc'
    rwa [List.mem_singleton.mp hc']

end Proper

theorem learnSeq_top : (0x7fffffff#32).getLsbD 31 = false := by decide

namespace Driver

theorem getCpuPortLearn_proper (hd : Sane d) (c : Conversation) :
    Proper (d.getCpuPortLearn c).1 (d.getCpuPortLearn c).2.2 :=
  .single ⟨hd, learnSeq_top⟩

theorem setCpuPortLearn_proper (hd : Sane d) (flags : Bool) (c c' : Conversation) :
    Proper (d.setCpuPortLearn flags c c').1 (d.setCpuPortLearn flags c c').2 := by
  have hread : Call.Proper ⟨d, .read 0x104#32 0#32, 0x7fffffff#32, c⟩ :=
    ⟨hd, learnSeq_top⟩
  exact (Proper.single hread).append
    (.single ⟨Call.run_sane hread.1, learnSeq_top⟩)

theorem suspendLearn_proper (hd : Sane d) (x : Exchange) :
    Proper (d.suspendLearn x).1 (d.suspendLearn x).2.2 := by
  have hget := getCpuPortLearn_proper hd x.get
  unfold suspendLearn
  dsimp only
  split
  · exact hget.append (setCpuPortLearn_proper hget.sane false x.offRead x.offWrite)
  · exact hget

theorem count_lt (h : d.seqcnt < 0x7fffffff#32) : d.count.seqcnt < 0x7fffffff#32 := by
  unfold count
  dsimp only
  split
  · decide
  · rename_i hne
    bv_omega

theorem count_sane (hd : Sane d) : Sane d.count :=
  ⟨count_lt hd.seqcnt, hd.frames, hd.known, hd.first, hd.last, hd.copied⟩

theorem mainCall_proper (hd : Sane d) (command : Command) (x : Exchange) :
    (d.mainCall command x).Proper := by
  have hsane := count_sane (deliverAll_proceeds [] x.idle hd).sane
  have hlt : (d.mainCall command x).seqNum < 0x7fffffff#32 := hsane.seqcnt
  exact ⟨hsane, getLsbD_of_lt (by bv_omega)⟩

theorem access_proper (hd : Sane d) (command : Command) (x : Exchange) :
    Proper (d.access command x).1 (d.access command x).2 := by
  have hoff := suspendLearn_proper hd x
  have hmain := Proper.single (mainCall_proper hoff.sane command x)
  cases command with
  | write regAddr regData =>
      unfold access athrs26HeaderWriteReg
      dsimp only
      split
      · have hon := setCpuPortLearn_proper hmain.sane true x.onRead x.onWrite
        exact hoff.append (hmain.append hon)
      · exact hoff.append hmain
  | read regAddr regData =>
      unfold access athrs26HeaderReadReg
      dsimp only
      split
      · have hon := setCpuPortLearn_proper hmain.sane true x.onRead x.onWrite
        exact hoff.append (hmain.append hon)
      · exact hoff.append hmain

theorem calls_proper (hd : Sane d) (accesses : List (Command × Exchange)) :
    ∀ c ∈ calls d accesses, c.Proper := by
  induction accesses generalizing d with
  | nil => exact fun c hc => absurd hc List.not_mem_nil
  | cons access rest ih =>
      have haccess := access_proper hd access.1 access.2
      intro c hc
      rcases List.mem_append.mp hc with hc | hc
      · exact haccess.calls c hc
      · exact ih haccess.sane c hc

end Driver

/-- For every sequence of accesses and whatever the network does: a call is honest exactly if what
comes in is as it needs it.  And the length and the sequence number of a frame are decoded as they
were encoded. -/
theorem run_honest_iff (accesses : List (Command × Exchange)) :
    (∀ c ∈ Driver.calls Driver.init accesses, (c.Honest ↔ c.Heeded)) ∧
    ∀ (wrFlag : BitVec 8) (regAddr : BitVec 32) (cmdLen : BitVec 16) (val : List Byte)
      (seqNum : BitVec 32) (data : Nat → Byte), cmdLen ≤ 4#16 → seqNum < 0x80000000#32 →
      respLen (answer (athrs26HeaderConfigReg wrFlag regAddr cmdLen val seqNum) data) =
        cmdLen.setWidth 8 ∧
      respSeq (answer (athrs26HeaderConfigReg wrFlag regAddr cmdLen val seqNum) data) =
        seqNum := by
  constructor
  · intro c hc
    obtain ⟨hsane, hseq⟩ := Driver.calls_proper init_sane accesses c hc
    exact Call.honest_iff hsane hseq
  · intro wrFlag regAddr cmdLen val seqNum data hlen hseq
    exact ⟨respLen_answer _ _ _ _ _ _ hlen, respSeq_answer _ _ _ _ _ _ (getLsbD_of_lt hseq)⟩

/-- Nothing comes in around a call but, early in the turn with this `i`, one answer. -/
def hears (i : Nat) (r : Response) : Conversation where
  before := []
  attempt j := ⟨if j = i then [r] else [], [], 0, false, []⟩
  tested := []
  torn _ := []

def silence : Conversation := ⟨[], fun _ => ⟨[], [], 0, false, []⟩, [], fun _ => []⟩

/-- Everything is lost, but for these conversations with the learn bit's calls and the access's. -/
def exchange (get offRead main : Conversation) : Exchange :=
  ⟨get, offRead, silence, [], main, silence, silence⟩

/-- A write that nobody answers reports success; one that is answered at its third attempt does not;
and the second read of the learn bit returns the late answer to the first request. -/
theorem run_dishonest :
    (∃ c ∈ Driver.calls Driver.init
        [(.write 0x10#32 5#32, exchange silence silence silence)], ¬c.Honest) ∧
    (∃ c ∈ Driver.calls Driver.init
        [(.write 0x10#32 5#32, exchange silence silence (hears 0 ⟨5, fun _ => 0#8⟩))],
      ¬c.Honest) ∧
    ∃ c ∈ Driver.calls Driver.init
        [(.read 0x20#32 0#32, exchange (hears 1 ⟨1, fun _ => 0x40#8⟩)
          (hears 2 ⟨0, fun _ => 0#8⟩) silence)], ¬c.Honest := by
  refine ⟨⟨_, List.mem_cons_of_mem _ List.mem_cons_self, ?_⟩,
    ⟨_, List.mem_cons_of_mem _ List.mem_cons_self, ?_⟩,
    ⟨_, List.mem_cons_of_mem _ List.mem_cons_self, ?_⟩⟩
  · intro h
    have hanswered := h.mp (by decide +kernel)
    revert hanswered
    decide +kernel
  · intro h
    have hret := h.mpr (by decide +kernel)
    revert hret
    decide +kernel
  · intro h
    obtain ⟨r, hr, hown, -⟩ := (h.2 (by decide +kernel)).1 0 (by decide)
    have hrequest := congrArg (Option.map fun r => r.request) hr
    have hfirst : r.request = 0 := Option.some.inj (hrequest.symm.trans (by decide +kernel))
    rw [hfirst] at hown
    revert hown
    decide +kernel

end Xwr100.Athrs26
