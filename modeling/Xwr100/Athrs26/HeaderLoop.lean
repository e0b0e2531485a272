import Xwr100.Athrs26.Header
import Mathlib.Data.List.Basic

/-! # Receiving and waiting

What the receiver keeps of the answers that come in, when a wait ends in time, and where that leaves
the loop of a call.
-/

namespace Xwr100.Athrs26

variable {d d' d'' : Driver} {r : Response} {rs : List Response} {frame : List Byte}
  {a : Attempt}

/-! ## Receiving -/

/-- The data of the answer were copied: its sequence number was not below the counter. -/
def Receipt.current (seqcnt : BitVec 32) (r : Receipt) : Bool := !(r.seq < seqcnt : Bool)

/-- Answers to the request carry the length 4. -/
def IsRequest (frame : List Byte) : Prop := ∀ data, respLen (answer frame data) = 4#8

structure Sane (d : Driver) : Prop where
  seqcnt : d.seqcnt < 0x7fffffff#32
  frames : ∀ frame ∈ d.sent, IsRequest frame
  known : ∀ r ∈ d.received, r.request < d.sent.length
  first : d.received = [] → d.cmdResp.len = 0#8 ∧ d.cmdResp.seq = 0#32
  last : ∀ r, d.received.getLast? = some r → d.cmdResp.len = 4#8 ∧ d.cmdResp.seq = r.seq
  copied : ∀ r, d.copied = some r →
    r.request < d.sent.length ∧ ∀ k < 4, d.cmdResp.data k = r.data k

/-- From `d` to `d'` some of the frames are sent and answers received, and the data are those of
the last current one. -/
structure Proceeds (frame : List Byte) (d d' : Driver) : Prop where
  seqcnt : d'.seqcnt = d.seqcnt
  sent : ∃ n, d'.sent = d.sent ++ List.replicate n frame
  received : ∃ new : List Receipt, d'.received = d.received ++ new ∧
    d'.copied = (new.filter (Receipt.current d.seqcnt)).getLast?.or d.copied
  sane : Sane d'

namespace Proceeds

theorem refl (hd : Sane d) : Proceeds frame d d where
  seqcnt := rfl
  sent := ⟨0, (List.append_nil _).symm⟩
  received := ⟨[], (List.append_nil _).symm, rfl⟩
  sane := hd

theorem trans (h : Proceeds frame d d') (h' : Proceeds frame d' d'') : Proceeds frame d d'' := by
  obtain ⟨n, hsent⟩ := h.sent
  obtain ⟨n', hsent'⟩ := h'.sent
  obtain ⟨new, hnew, hcopied⟩ := h.received
  obtain ⟨new', hnew', hcopied'⟩ := h'.received
  constructor
  · rw [h'.seqcnt, h.seqcnt]
  · exact ⟨n + n', by rw [hsent', hsent, List.append_assoc, List.replicate_append_replicate]⟩
  · refine ⟨new ++ new', by rw [hnew', hnew, List.append_assoc], ?_⟩
    rw [hcopied', hcopied, h.seqcnt, List.filter_append, List.getLast?_append, Option.or_assoc]
  · exact h'.sane

end Proceeds

/-- Answers to requests that were not sent do not exist. -/
theorem deliver_of_unsent (h : d.sent[r.request]? = none) : d.deliver r = (d, false) := by
  rw [Driver.deliver, h]

theorem deliver_of_sent (h : d.sent[r.request]? = some frame) (hframe : IsRequest frame) :
    d.deliver r =
      ({ d with
          waitFlag := true
          cmdResp :=
            ⟨if respSeq (answer frame r.data) < d.seqcnt then d.cmdResp.data
              else fun k => if k < 4 then r.data k else d.cmdResp.data k,
              4#8, respSeq (answer frame r.data)⟩
          received := d.received ++ [⟨r, respSeq (answer frame r.data)⟩]
          copied :=
            if respSeq (answer frame r.data) < d.seqcnt then d.copied
            else some ⟨r, respSeq (answer frame r.data)⟩ },
        !(respSeq (answer frame r.data) < d.seqcnt : Bool)) := by
  have hshort : ¬10#8 < respLen (answer frame r.data) := by
    rw [hframe]
    decide
  have hdata : ∀ k, answer frame r.data (10 + k) = r.data k := by
    intro k
    rw [answer, if_neg (by omega), Nat.add_sub_cancel_left]
  rw [Driver.deliver, h]
  dsimp only [Driver.headerReceiveSkb]
  rw [if_neg hshort]
  by_cases hseq : respSeq (answer frame r.data) < d.seqcnt
  · simp [hseq, hframe r.data]
  · simp [hseq, hframe r.data, hdata]

theorem deliver_proceeds (frame : List Byte) (r : Response) (hd : Sane d) :
    Proceeds frame d (d.deliver r).1 := by
  cases hsent : d.sent[r.request]? with
  | none =>
      rw [deliver_of_unsent hsent]
      exact Proceeds.refl hd
  | some asked =>
      have hlt := (List.getElem?_eq_some_iff.mp hsent).1
      rw [deliver_of_sent hsent (hd.frames asked (List.mem_of_getElem? hsent))]
      refine ⟨rfl, ⟨0, (List.append_nil _).symm⟩, ⟨[⟨r, respSeq (answer asked r.data)⟩], rfl, ?_⟩,
        hd.seqcnt, hd.frames, ?_, ?_, ?_, ?_⟩
      · by_cases hseq : respSeq (answer asked r.data) < d.seqcnt
        · simp [Receipt.current, hseq]
        · simp [Receipt.current, hseq]
      · intro x hx
        rcases List.mem_append.mp hx with hold | hnew
        · exact hd.known x hold
        · rw [List.mem_singleton.mp hnew]
          exact hlt
      · intro hnil
        exact absurd hnil (List.append_ne_nil_of_right_ne_nil _ (List.cons_ne_nil _ _))
      · intro x hx
        rw [List.getLast?_append_of_ne_nil _ (List.cons_ne_nil _ _), List.getLast?_singleton] at hx
        obtain rfl := Option.some.inj hx
        exact ⟨rfl, rfl⟩
      · intro x hx
        dsimp only at hx ⊢
        by_cases hseq : respSeq (answer asked r.data) < d.seqcnt
        · rw [if_pos hseq] at hx
          rw [if_pos hseq]
          exact hd.copied x hx
        · rw [if_neg hseq] at hx
          rw [if_neg hseq]
          obtain rfl := Option.some.inj hx
          exact ⟨hlt, fun k hk => if_pos hk⟩

theorem deliverAll_proceeds (frame : List Byte) (rs : List Response) (hd : Sane d) :
    Proceeds frame d (Driver.deliverAll rs d).1 := by
  induction rs generalizing d with
  | nil => exact Proceeds.refl hd
  | cons r rest ih =>
      have hfirst := deliver_proceeds frame r hd
      exact hfirst.trans (ih hfirst.sane)

theorem deliver_sent : (d.deliver r).1.sent = d.sent := by
  unfold Driver.deliver Driver.headerReceiveSkb
  cases d.sent[r.request]? with
  | none => rfl
  | some asked =>
      dsimp only
      split
      · rfl
      · split <;> rfl

theorem deliverAll_sent : (Driver.deliverAll rs d).1.sent = d.sent := by
  induction rs generalizing d with
  | nil => rfl
  | cons r rest ih => exact ih.trans deliver_sent

/-! ## The loop -/

theorem send_proceeds (hd : Sane d) (hframe : IsRequest frame) :
    Proceeds frame d (d.send frame) := by
  have hlonger : d.sent.length ≤ (d.send frame).sent.length := by
    rw [Driver.send, List.length_append]
    exact Nat.le_add_right _ _
  refine ⟨rfl, ⟨1, rfl⟩, ⟨[], (List.append_nil _).symm, rfl⟩, hd.seqcnt, ?_, ?_, hd.first, hd.last,
    ?_⟩
  · intro other hother
    rcases List.mem_append.mp hother with hold | hnew
    · exact hd.frames other hold
    · rw [List.mem_singleton.mp hnew]
      exact hframe
  · exact fun x hx => Nat.lt_of_lt_of_le (hd.known x hx) hlonger
  · intro x hx
    obtain ⟨hlt, hdata⟩ := hd.copied x hx
    exact ⟨Nat.lt_of_lt_of_le hlt hlonger, hdata⟩

theorem waitEvent_proceeds (hd : Sane d) : Proceeds frame d (d.waitEvent a).1 := by
  have hearly := deliverAll_proceeds frame a.early hd
  unfold Driver.waitEvent
  dsimp only
  split
  · exact hearly
  · split <;> exact hearly.trans (deliverAll_proceeds _ _ hearly.sane)

theorem turn_proceeds (hd : Sane d) (hframe : IsRequest frame) :
    Proceeds frame d (d.turn frame a).1 := by
  have hsend := send_proceeds hd hframe
  have hwait := hsend.trans (waitEvent_proceeds (a := a) hsend.sane)
  exact hwait.trans (deliverAll_proceeds _ _ hwait.sane)

theorem loop_proceeds (hd : Sane d) (hframe : IsRequest frame) (enough : Bool)
    (attempt : Nat → Attempt) (i : Nat) :
    Proceeds frame d (Driver.loop frame enough attempt i d).1 := by
  induction i generalizing d with
  | zero => exact turn_proceeds hd hframe
  | succ i ih =>
      have hturn := turn_proceeds (a := attempt (i + 1)) hd hframe
      unfold Driver.loop
      dsimp only
      split
      · exact hturn
      · exact hturn.trans (ih hturn.sane)

theorem loading_proceeds (hd : Sane d) (torn : Nat → List Response) (k : Nat) :
    Proceeds frame d (Driver.loading torn k d) := by
  induction k with
  | zero => exact deliverAll_proceeds frame _ hd
  | succ k ih => exact ih.trans (deliverAll_proceeds frame _ ih.sane)

/-! ## When a wait ends in time -/

def Driver.answers (d : Driver) (r : Response) : Bool := r.request < d.sent.length

theorem deliver_answers : (d.deliver r).1.answers = d.answers := by
  funext r'
  rw [Driver.answers, deliver_sent, Driver.answers]

theorem deliver_received (hd : Sane d) :
    (d.deliver r).1.received = [] ↔ d.received = [] ∧ d.answers r = false := by
  unfold Driver.answers
  cases hsent : d.sent[r.request]? with
  | none =>
      have hlen := List.getElem?_eq_none_iff.mp hsent
      rw [deliver_of_unsent hsent, decide_eq_false (Nat.not_lt.mpr hlen), and_iff_left rfl]
  | some asked =>
      have hlt := (List.getElem?_eq_some_iff.mp hsent).1
      rw [deliver_of_sent hsent (hd.frames asked (List.mem_of_getElem? hsent)),
        decide_eq_true hlt]
      simp

theorem deliverAll_received (rs : List Response) (hd : Sane d) :
    (Driver.deliverAll rs d).1.received = [] ↔ d.received = [] ∧ rs.any d.answers = false := by
  induction rs generalizing d with
  | nil => simp [Driver.deliverAll]
  | cons r rest ih =>
      have hfirst := deliver_proceeds [] r hd
      rw [List.any_cons, Bool.or_eq_false_iff, ← and_assoc, ← deliver_received hd,
        ← deliver_answers (r := r)]
      exact ih hfirst.sane

/-- The answer is to a request that has been sent, and not below the counter. -/
def Driver.wakes (d : Driver) (r : Response) : Bool :=
  d.sent[r.request]?.any fun frame => !(respSeq (answer frame r.data) < d.seqcnt : Bool)

/-- An answer comes in before the wait looks at the flag; or one wakes it, or a signal does, with
time left. -/
def Attempt.Ends (d : Driver) (a : Attempt) : Prop :=
  a.early.any d.answers = true ∨ (a.left ≠ 0 ∧ (a.signal = true ∨ a.asleep.any d.wakes = true))

theorem deliver_waitFlag (hd : Sane d) :
    (d.deliver r).1.waitFlag = (d.waitFlag || d.answers r) := by
  unfold Driver.answers
  cases hsent : d.sent[r.request]? with
  | none =>
      have hlen := List.getElem?_eq_none_iff.mp hsent
      rw [deliver_of_unsent hsent, decide_eq_false (Nat.not_lt.mpr hlen), Bool.or_false]
  | some asked =>
      have hlt := (List.getElem?_eq_some_iff.mp hsent).1
      rw [deliver_of_sent hsent (hd.frames asked (List.mem_of_getElem? hsent)),
        decide_eq_true hlt, Bool.or_true]

theorem deliver_wakes (hd : Sane d) : (d.deliver r).2 = d.wakes r := by
  unfold Driver.wakes
  cases hsent : d.sent[r.request]? with
  | none => rw [deliver_of_unsent hsent, Option.any_none]
  | some asked =>
      rw [deliver_of_sent hsent (hd.frames asked (List.mem_of_getElem? hsent)), Option.any_some]

theorem deliverAll_waitFlag (rs : List Response) (hd : Sane d) :
    (Driver.deliverAll rs d).1.waitFlag = (d.waitFlag || rs.any d.answers) := by
  induction rs generalizing d with
  | nil => rw [List.any_nil, Bool.or_false, Driver.deliverAll]
  | cons r rest ih =>
      have hfirst := deliver_proceeds [] r hd
      rw [List.any_cons, ← Bool.or_assoc, ← deliver_waitFlag hd, ← deliver_answers (r := r)]
      exact ih hfirst.sane

theorem deliverAll_wakes (rs : List Response) (hd : Sane d) :
    (Driver.deliverAll rs d).2 = rs.any d.wakes := by
  induction rs generalizing d with
  | nil => rfl
  | cons r rest ih =>
      have hfirst := deliver_proceeds [] r hd
      have hsame : (d.deliver r).1.wakes = d.wakes := by
        funext r'
        rw [Driver.wakes, deliver_sent, hfirst.seqcnt, Driver.wakes]
      rw [List.any_cons, ← deliver_wakes hd, ← hsame, ← ih hfirst.sane]
      rfl

/-- A wait returns something else than zero exactly if it ends in time. -/
theorem waitEvent_ne_zero_iff (hd : Sane d) (hflag : d.waitFlag = false) :
    (d.waitEvent a).2 ≠ 0 ↔ a.Ends d := by
  have hearly := deliverAll_proceeds [] a.early hd
  have hraised := deliverAll_waitFlag a.early hd
  have hwoken := deliverAll_wakes a.asleep hearly.sane
  have hsame : (Driver.deliverAll a.early d).1.wakes = d.wakes := by
    funext r'
    rw [Driver.wakes, deliverAll_sent, hearly.seqcnt, Driver.wakes]
  rw [hflag, Bool.false_or] at hraised
  rw [hsame] at hwoken
  have htime : ∀ flag : Bool,
      (if a.left = 0 then 0 else if flag then (a.left : Int) else -erestartsys) ≠ 0 ↔
        a.left ≠ 0 := by
    intro flag
    unfold erestartsys
    split
    · simp [*]
    · split <;> simp [*]
  unfold Driver.waitEvent Attempt.Ends
  dsimp only
  rw [hraised, hwoken]
  by_cases hany : a.early.any d.answers = true
  · rw [if_pos hany]
    simp [hany, hz]
  · rw [if_neg hany]
    split
    · rename_i hended
      rw [htime, or_iff_right hany, and_iff_left]
      simpa [or_comm] using hended
    · rename_i hquiet
      rw [Bool.or_eq_true, or_comm] at hquiet
      exact iff_of_false (fun h => h rfl) fun h => h.elim hany fun h => hquiet h.2

theorem turn_ne_zero_iff (hd : Sane d) (hframe : IsRequest frame) :
    (d.turn frame a).2 ≠ 0 ↔ a.Ends (d.send frame) :=
  waitEvent_ne_zero_iff (send_proceeds hd hframe).sane rfl

/-! ## Which wait is the last -/

/-- The turns of a loop, each with the state in which its request has just been sent. -/
def Driver.turns (frame : List Byte) (enough : Bool) (attempt : Nat → Attempt) :
    Nat → Driver → List (Driver × Attempt)
  | 0, d => [(d.send frame, attempt 0)]
  | i + 1, d =>
      let tried := d.turn frame (attempt (i + 1))
      (d.send frame, attempt (i + 1)) ::
        if tried.2 ≠ 0 ∨ enough then [] else turns frame enough attempt i tried.1

/-- The loop ends with `i` at 0 exactly if the wait that would have been its last one ends in
time. -/
theorem loop_eq_zero_iff (hd : Sane d) (hframe : IsRequest frame) (attempt : Nat → Attempt)
    (i : Nat) :
    (Driver.loop frame false attempt i d).2 = 0 ↔
      ∃ t, (Driver.turns frame false attempt i d)[i]? = some t ∧ t.2.Ends t.1 := by
  induction i generalizing d with
  | zero =>
      have hends := turn_ne_zero_iff (a := attempt 0) hd hframe
      unfold Driver.loop Driver.turns
      dsimp only
      by_cases h : (attempt 0).Ends (d.send frame)
      · simp [hends.mpr h, h]
      · simp [mt hends.mp h, h]
  | succ i ih =>
      have hturn := turn_proceeds (a := attempt (i + 1)) hd hframe
      unfold Driver.loop Driver.turns
      dsimp only
      by_cases hend : (d.turn frame (attempt (i + 1))).2 ≠ 0
      · rw [if_pos (Or.inl hend), if_pos (Or.inl hend)]
        simp
        omega
      · have hgo : ¬((d.turn frame (attempt (i + 1))).2 ≠ 0 ∨ false = true) := by simpa using hend
        rw [if_neg hgo, if_neg hgo, List.getElem?_cons_succ]
        exact ih hturn.sane

end Xwr100.Athrs26
