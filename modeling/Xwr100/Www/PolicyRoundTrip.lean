import Xwr100.Www.PolicyAlignment

/-! # Policies saved and loaded again

Loading decodes each variable into the row it came from.  Two things are lost on the way:
a start at the last minute option, which the decoder takes for the option before it, and
the days of the last row when there are more than five, whose days are disabled before
they are decoded.
-/

namespace Xwr100.Www.Access

open Lib

/-! ## The rows that are filled -/

theorem fillRows_eq (fill : Policy → Row → Row) (lo n : Nat) (p : Page) :
    fillRows fill lo n p = { p with
      rows := fun k => if lo ≤ k ∧ k < lo + n then fill (p.vars k) (p.rows k) else p.rows k } := by
  induction n with
  | zero =>
      have hrows : (fun k => if lo ≤ k ∧ k < lo + 0 then fill (p.vars k) (p.rows k)
          else p.rows k) = p.rows := by
        funext k
        rw [if_neg (by omega)]
      rw [hrows]
      rfl
  | succ n ih =>
      have hlast : fillRows fill lo (n + 1) p = (fillRows fill lo n p).setRow (lo + n)
          (fill ((fillRows fill lo n p).vars (lo + n)) ((fillRows fill lo n p).rows (lo + n))) := by
        rw [fillRows, List.range'_concat, List.foldl_append, Nat.one_mul]
        rfl
      rw [hlast, ih, Page.setRow]
      congr 1
      funext k
      by_cases hk : k = lo + n
      · rw [hk, Function.update_self]
        dsimp only
        rw [if_neg (by omega), if_pos (by omega)]
      · rw [Function.update_of_ne hk]
        dsimp only
        by_cases hin : lo ≤ k ∧ k < lo + n
        · rw [if_pos hin, if_pos (by omega)]
        · rw [if_neg hin, if_neg (by omega)]

/-- The row that `DataShow` was last called for. -/
def lastRow : Row := { htmlRow true with daysDisabled := true }

/-- A row before `InitValue` fills it, of `n` rows shown. -/
def openedRow (n k : Nat) (v : Policy) : Row :=
  if k ≤ 5 then htmlRow false else if k < n then dataShowRow v (htmlRow true) else lastRow

theorem dataShow_eq {c : Nat} (hc : 6 ≤ c) (p : Page) :
    dataShow p c = { p with
      rows := fun k => if k = c then lastRow
        else if 6 ≤ k ∧ k < c then dataShowRow (p.vars k) (htmlRow true) else p.rows k } := by
  rw [dataShow, fillRows_eq, Page.setRow]
  congr 1
  funext k
  by_cases hk : k = c
  · rw [hk, Function.update_self, if_pos rfl]
    dsimp only
    rw [if_neg (by omega), if_pos (by omega)]
    rfl
  · rw [Function.update_of_ne hk, if_neg hk]
    dsimp only
    by_cases hin : 6 ≤ k ∧ k < c
    · rw [if_pos (by omega), if_pos (by omega), if_pos hin]
    · rw [if_neg (by omega), if_neg (by omega), if_neg hin]

/-- Each call writes the rows of the calls before it anew. -/
theorem foldl_dataShow (p : Page) (m : Nat) :
    (List.range' 6 m).foldl dataShow p = { p with
      rows := fun k => if 6 ≤ k ∧ k ≤ m + 5 then openedRow (m + 5) k (p.vars k) else p.rows k } := by
  induction m with
  | zero =>
      have hrows : (fun k => if 6 ≤ k ∧ k ≤ 0 + 5 then openedRow (0 + 5) k (p.vars k)
          else p.rows k) = p.rows := by
        funext k
        rw [if_neg (by omega)]
      rw [hrows]
      rfl
  | succ m ih =>
      rw [List.range'_concat, List.foldl_append, List.foldl_cons, List.foldl_nil, ih,
        dataShow_eq (by omega)]
      congr 1
      funext k
      dsimp only
      by_cases hk : k = 6 + 1 * m
      · rw [if_pos hk, if_pos (by omega), openedRow, if_neg (by omega), if_neg (by omega)]
      · rw [if_neg hk]
        by_cases hin : 6 ≤ k ∧ k < 6 + 1 * m
        · rw [if_pos hin, if_pos (by omega), openedRow, if_neg (by omega), if_pos (by omega)]
        · rw [if_neg hin, if_neg (by omega), if_neg (by omega)]

theorem reload_rows (q : Page) {k : Nat} (h1 : 1 ≤ k) (hk : k ≤ shownCount q.vars) :
    (reload q).rows k = initRow (q.vars k) (openedRow (shownCount q.vars) k (q.vars k)) := by
  have hfive : 5 ≤ shownCount q.vars := Nat.le_add_right 5 _
  rw [reload, initValue, fillRows_eq, foldl_dataShow]
  dsimp only
  rw [if_pos (by omega), show shownCount q.vars - 5 + 5 = shownCount q.vars by omega]
  by_cases hsix : 6 ≤ k
  · rw [if_pos ⟨hsix, hk⟩]
  · rw [if_neg (by omega), openedRow, if_pos (by omega)]

theorem reload_vars (q : Page) : (reload q).vars = q.vars := by
  rw [reload, initValue, fillRows_eq, foldl_dataShow]

theorem reload_count (q : Page) : (reload q).count = shownCount q.vars := by
  rw [reload, initValue, fillRows_eq, foldl_dataShow]

/-! ## Decoding what was stored -/

structure Offered (r : Row) : Prop where
  allow : r.filterAllow < 2
  startHour : r.startHour < 24
  startMin : r.startMin < 13
  endHour : r.endHour < 24
  endMin : r.endMin < 13

def shownStart (startMin : Nat) : Nat := if startMin = 12 then 11 else startMin

theorem toIndex_hour : ∀ h < 24, toIndex hourOptions (parseInt (chosen hourOptions h)) = h := by
  decide +kernel

theorem toIndex_startMin : ∀ m < 13, toIndex minuteOptions
    ((parseInt (chosen minuteOptions m)).map fun n => n.tdiv 5) = shownStart m := by
  decide +kernel

theorem toIndex_endMin : ∀ m < 13, toIndex minuteOptions
    (if chosen minuteOptions m = twoDigits 59 then
      (parseInt (chosen minuteOptions m)).map fun n => n.tdiv 5 + 1
    else (parseInt (chosen minuteOptions m)).map fun n => n.tdiv 5) = m := by
  decide +kernel

theorem splitOn_time (hour minute : Nat) (seconds : Text) :
    (chosen hourOptions hour ++ [':'] ++ chosen minuteOptions minute ++ ':' :: seconds).splitOn
      ':' = chosen hourOptions hour :: chosen minuteOptions minute :: seconds.splitOn ':' := by
  have hhour : ':' ∉ chosen hourOptions hour := not_mem_chosen (by decide) hour
  have hminute : ':' ∉ chosen minuteOptions minute := not_mem_chosen (by decide) minute
  rw [List.append_assoc, List.append_assoc, List.singleton_append,
    List.splitOn_append_cons_self_of_not_mem hhour,
    List.splitOn_append_cons_self_of_not_mem hminute]

section Stored

variable {r : Row} (v : Policy) (r₀ : Row)

theorem showStart_stored (h : Offered r) : showStart (storeRow r v) r₀ =
    { r₀ with startHour := r.startHour, startMin := shownStart r.startMin } := by
  have hsplit : (storeRow r v).arts.splitOn ':' = chosen hourOptions r.startHour ::
      chosen minuteOptions r.startMin :: ['0', '0'].splitOn ':' := splitOn_time _ _ _
  have hne : (storeRow r v).arts ≠ [] := by
    simp [storeRow, arts]
  rw [showStart, if_neg hne, segment, segment, hsplit, List.getD_cons_zero, List.getD_cons_succ,
    List.getD_cons_zero, toIndex_hour _ h.startHour, toIndex_startMin _ h.startMin]

theorem showEnd_stored (h : Offered r) : showEnd (storeRow r v) r₀ =
    { r₀ with endHour := r.endHour, endMin := r.endMin } := by
  have hsplit : (storeRow r v).artp.splitOn ':' = chosen hourOptions r.endHour ::
      chosen minuteOptions r.endMin :: ['5', '9'].splitOn ':' := splitOn_time _ _ _
  have hne : (storeRow r v).artp ≠ [] := by
    simp [storeRow, artp]
  rw [showEnd, if_neg hne, segment, segment, hsplit, List.getD_cons_zero, List.getD_cons_succ,
    List.getD_cons_zero, toIndex_hour _ h.endHour, toIndex_endMin _ h.endMin]

theorem showStatus_stored : showStatus (storeRow r v) r₀ =
    { r₀ with filterStatus := r.filterStatus || r₀.filterStatus } := by
  rw [showStatus, storeRow]
  cases r.filterStatus <;> simp [flag, wholeNumber, numeral, Nat.ofDigitChars]

end Stored

theorem dayMask_eq (r : Row) : dayMask r =
    (r.days 7).toNat + 2 * (r.days 1).toNat + 4 * (r.days 2).toNat + 8 * (r.days 3).toNat +
      16 * (r.days 4).toNat + 32 * (r.days 5).toNat + 64 * (r.days 6).toNat := by
  simp only [dayMask, dayValue, List.range', List.foldl_cons, List.foldl_nil]
  cases r.days 1 <;> cases r.days 2 <;> cases r.days 3 <;> cases r.days 4 <;>
    cases r.days 5 <;> cases r.days 6 <;> cases r.days 7 <;> rfl

theorem testBit_dayMask (r : Row) : (dayMask r).testBit 7 = false ∧
    (dayMask r).testBit 0 = r.days 7 ∧ (dayMask r).testBit 1 = r.days 1 ∧
    (dayMask r).testBit 2 = r.days 2 ∧ (dayMask r).testBit 3 = r.days 3 ∧
    (dayMask r).testBit 4 = r.days 4 ∧ (dayMask r).testBit 5 = r.days 5 ∧
    (dayMask r).testBit 6 = r.days 6 := by
  rw [dayMask_eq]
  generalize r.days 1 = b₁
  generalize r.days 2 = b₂
  generalize r.days 3 = b₃
  generalize r.days 4 = b₄
  generalize r.days 5 = b₅
  generalize r.days 6 = b₆
  generalize r.days 7 = b₇
  revert b₁ b₂ b₃ b₄ b₅ b₆ b₇
  decide +kernel

theorem dayMask_lt (r : Row) : dayMask r < 128 := by
  have hle : ∀ b : Bool, b.toNat ≤ 1 := Bool.toNat_le
  have h1 := hle (r.days 1)
  have h2 := hle (r.days 2)
  have h3 := hle (r.days 3)
  have h4 := hle (r.days 4)
  have h5 := hle (r.days 5)
  have h6 := hle (r.days 6)
  have h7 := hle (r.days 7)
  rw [dayMask_eq]
  omega

theorem wholeNumber_showNumber (n : Nat) : wholeNumber (showNumber n) = some n := by
  have hne : showNumber n ≠ [] := Nat.toDigits_ne_nil
  have hdigits : (showNumber n).all Char.isDigit := by
    apply List.all_eq_true.mpr
    intro c hc
    exact Nat.isDigit_of_mem_toDigits (by omega) (by omega) hc
  rw [wholeNumber, if_pos ⟨hne, hdigits⟩, numeral_showNumber]

theorem showDays_stored (r : Row) (v : Policy) (r₀ : Row) : showDays (storeRow r v) r₀ =
    if r.everyDay then { r₀ with everyDay := true, days := fun _ => false, daysDisabled := true }
    else
      { r₀ with
        everyDay := false
        days := fun j => if 1 ≤ j ∧ j ≤ 7 then r.days j else r₀.days j } := by
  by_cases hevery : r.everyDay = true
  · have hartd : (storeRow r v).artd = ['1', '2', '8'] := by
      simp [storeRow, artd, hevery]
    rw [showDays, if_pos (Or.inl hartd), if_pos hevery]
  · have hartd : (storeRow r v).artd = showNumber (dayMask r) := by
      simp [storeRow, artd, hevery]
    have hlt := dayMask_lt r
    have hnot : ¬(showNumber (dayMask r) = ['1', '2', '8'] ∨ showNumber (dayMask r) = []) := by
      rintro (h | h)
      · have hnum := congrArg wholeNumber h
        rw [wholeNumber_showNumber] at hnum
        have heq : dayMask r = 128 := Option.some.inj hnum
        omega
      · exact Nat.toDigits_ne_nil h
    obtain ⟨hbit7, hbit0, hbit1, hbit2, hbit3, hbit4, hbit5, hbit6⟩ := testBit_dayMask r
    rw [showDays, hartd, if_neg hnot, if_neg hevery, wholeNumber_showNumber, Option.getD_some]
    dsimp only
    rw [hbit7, hbit0]
    congr 1
    funext j
    match j with
    | 0 => rfl
    | 1 => exact hbit1
    | 2 => exact hbit2
    | 3 => exact hbit3
    | 4 => exact hbit4
    | 5 => exact hbit5
    | 6 => exact hbit6
    | 7 => rfl
    | j + 8 => rw [if_neg (by omega), if_neg (by omega), if_neg (by omega)]

/-! ## The row that is shown -/

/-- Two rows show the same policy.  A row with every day has no other days. -/
structure ShowsSame (r' r : Row) : Prop where
  name : r'.arnform = r.arnform
  status : r'.filterStatus = r.filterStatus
  allow : r'.filterAllow = r.filterAllow
  startHour : r'.startHour = r.startHour
  startMin : r'.startMin = r.startMin
  endHour : r'.endHour = r.endHour
  endMin : r'.endMin = r.endMin
  everyDay : r'.everyDay = r.everyDay
  days : r.everyDay = false → ∀ j, 1 ≤ j → j ≤ 7 → r'.days j = r.days j

def StartKept (r : Row) : Prop := chosen minuteOptions r.startMin ≠ twoDigits 59

/-- Every day, or no day at all. -/
def DaysUniform (r : Row) : Prop := r.everyDay = true ∨ ∀ j, 1 ≤ j → j ≤ 7 → r.days j = false

theorem startKept_iff {r : Row} (h : Offered r) : StartKept r ↔ shownStart r.startMin = r.startMin := by
  have hall : ∀ m < 13, chosen minuteOptions m ≠ twoDigits 59 ↔ shownStart m = m := by decide
  exact hall r.startMin h.startMin

theorem initRow_stored {r : Row} (h : Offered r) (v : Policy) (r₀ : Row) :
    initRow (storeRow r v) r₀ = enableDays (showDays (storeRow r v)
      { r₀ with
        arnform := r.arnform
        filterStatus := r.filterStatus || r₀.filterStatus
        filterAllow := r.filterAllow
        startHour := r.startHour
        startMin := shownStart r.startMin
        endHour := r.endHour
        endMin := r.endMin }) := by
  have hallow : ∀ a < 2, (if chosen allowOptions a = ['1'] then 1 else 0) = a := by decide
  have hart : (if (storeRow r v).art = ['1'] then 1 else 0) = r.filterAllow := hallow _ h.allow
  rw [initRow, showStatus_stored, showStart_stored _ _ h, showEnd_stored _ _ h, hart]
  rfl

/-- A policy is shown as it was, but for a start at the last option and for days that were
disabled before they were decoded. -/
theorem showsSame_initRow {r : Row} (h : Offered r) (v : Policy) {r₀ : Row}
    (hstatus : r₀.filterStatus = true → r.filterStatus = true)
    (hdays : r.everyDay = false → r₀.daysDisabled = false) :
    ShowsSame (initRow (storeRow r v) r₀) r ↔ StartKept r := by
  have hor : (r.filterStatus || r₀.filterStatus) = r.filterStatus := by
    cases hr : r₀.filterStatus
    · rw [Bool.or_false]
    · rw [hstatus hr, Bool.or_true]
  rw [initRow_stored h, showDays_stored, startKept_iff h, hor]
  by_cases hevery : r.everyDay = true
  · rw [if_pos hevery]
    constructor
    · intro hshow
      exact hshow.startMin
    · intro hstart
      exact ⟨rfl, rfl, rfl, rfl, hstart, rfl, rfl, hevery.symm, fun hnot => absurd hevery (by simp [hnot])⟩
  · have hnot : r.everyDay = false := by simpa using hevery
    rw [if_neg hevery, enableDays, hdays hnot]
    constructor
    · intro hshow
      exact hshow.startMin
    · intro hstart
      exact ⟨rfl, rfl, rfl, rfl, hstart, rfl, rfl, hnot.symm, fun _ j h1 h7 => if_pos ⟨h1, h7⟩⟩

/-- The row that comes last among more than five keeps no days but every day. -/
theorem showsSame_initRow_lastRow {r : Row} (h : Offered r) (v : Policy) :
    ShowsSame (initRow (storeRow r v) lastRow) r ↔ StartKept r ∧ DaysUniform r := by
  have hor : (r.filterStatus || lastRow.filterStatus) = r.filterStatus := Bool.or_false _
  rw [initRow_stored h, showDays_stored, startKept_iff h, hor]
  by_cases hevery : r.everyDay = true
  · rw [if_pos hevery]
    constructor
    · intro hshow
      exact ⟨hshow.startMin, Or.inl hevery⟩
    · intro hstart
      exact ⟨rfl, rfl, rfl, rfl, hstart.1, rfl, rfl, hevery.symm,
        fun hnot => absurd hevery (by simp [hnot])⟩
  · have hnot : r.everyDay = false := by simpa using hevery
    rw [if_neg hevery]
    constructor
    · intro hshow
      exact ⟨hshow.startMin, Or.inr fun j h1 h7 => (hshow.days hnot j h1 h7).symm⟩
    · rintro ⟨hstart, huniform⟩
      have hnone := huniform.resolve_left hevery
      exact ⟨rfl, rfl, rfl, rfl, hstart, rfl, rfl, hnot.symm,
        fun _ j h1 h7 => (hnone j h1 h7).symm⟩

/-- A row between the fifth and the last has been filled once before. -/
theorem dataShowRow_stored {r : Row} (h : Offered r) (v : Policy) :
    (dataShowRow (storeRow r v) (htmlRow true)).filterStatus = r.filterStatus ∧
      (r.everyDay = false → (dataShowRow (storeRow r v) (htmlRow true)).daysDisabled = false) := by
  rw [dataShowRow, showDays_stored]
  by_cases hevery : r.everyDay = true
  · rw [if_pos hevery, enableDays, showStart_stored _ _ h, showEnd_stored _ _ h,
      showStatus_stored]
    exact ⟨Bool.or_false _, fun hnot => absurd hevery (by simp [hnot])⟩
  · rw [if_neg hevery, enableDays, showStart_stored _ _ h, showEnd_stored _ _ h,
      showStatus_stored]
    exact ⟨Bool.or_false _, fun _ => rfl⟩

/-- How a stored policy is shown in row `k` of `n`. -/
theorem showsSame_row {r : Row} (h : Offered r) (v : Policy) {n k : Nat} (hk : k ≤ n) :
    ShowsSame (initRow (storeRow r v) (openedRow n k (storeRow r v))) r ↔
      StartKept r ∧ (5 < k → k = n → DaysUniform r) := by
  by_cases hfive : k ≤ 5
  · rw [openedRow, if_pos hfive,
      showsSame_initRow h v (fun hs => absurd hs Bool.false_ne_true) (fun _ => rfl)]
    constructor
    · intro hstart
      exact ⟨hstart, fun hlt => absurd hlt (by omega)⟩
    · exact And.left
  · rw [openedRow, if_neg hfive]
    by_cases hlast : k < n
    · obtain ⟨hstatus, hdays⟩ := dataShowRow_stored h v
      rw [if_pos hlast, showsSame_initRow h v (fun hs => hstatus ▸ hs) hdays]
      constructor
      · intro hstart
        exact ⟨hstart, fun _ heq => absurd heq (by omega)⟩
      · exact And.left
    · rw [if_neg hlast, showsSame_initRow_lastRow h v]
      constructor
      · rintro ⟨hstart, huniform⟩
        exact ⟨hstart, fun _ _ => huniform⟩
      · rintro ⟨hstart, huniform⟩
        exact ⟨hstart, huniform (by omega) (by omega)⟩

/-! ## The round trip -/

/-- The rows shown are five to ten, and behind them stands no policy. -/
structure TableShown (p : Page) : Prop where
  five_le : 5 ≤ p.count
  le_ten : p.count ≤ 10
  hidden : ∀ k, p.count < k → k ≤ 10 → (p.vars k).arn = []

/-- The saved page, loaded again, shows each policy of `p` as it was, and saving it once more
stores the same. -/
structure RoundTrips (p q : Page) : Prop where
  shown : ∀ k e, p.policies[k]? = some e → ShowsSame ((reload q).rows (k + 1)) e.1
  resaved : ∃ q', validateForm (reload q) = some q' ∧
    ∀ k < p.policies.length, q'.vars (k + 1) = q.vars (k + 1)

theorem length_takeWhile_le (named : Nat → Bool) (N : Nat) {a n : Nat}
    (h : ∀ i, a ≤ i → i < a + n → (named i = true ↔ i ≤ N)) :
    ((List.range' a n).takeWhile named).length = min n (N + 1 - a) := by
  induction n generalizing a with
  | zero => simp
  | succ n ih =>
      rw [List.range'_succ, List.takeWhile_cons]
      by_cases ha : a ≤ N
      · rw [if_pos ((h a (by omega) (by omega)).mpr ha), List.length_cons,
          ih fun i h1 h2 => h i (by omega) (by omega)]
        omega
      · rw [if_neg (mt (h a (by omega) (by omega)).mp ha), List.length_nil]
        omega

section Saved

variable {p : Page}

theorem TableShown.named_iff (hp : TableShown p) {k : Nat} (h1 : 1 ≤ k) (hten : k ≤ 10) :
    ((bubble (saveRows p p.count)).vars k).arn ≠ [] ↔ k ≤ p.policies.length := by
  have hpos : 0 < p.count := Nat.lt_of_lt_of_le (by omega) hp.five_le
  have hsaved := saved_saveRows p p.count
  have hlen := policies_length_le p
  by_cases hk : k ≤ p.policies.length
  · have he := List.getElem?_eq_getElem (show k - 1 < p.policies.length by omega)
    have hvars := hsaved.bubble_policy hpos he
    rw [show k - 1 + 1 = k by omega] at hvars
    rw [hvars]
    constructor
    · intro _
      exact hk
    · intro _
      exact policy_named (List.getElem_mem (show k - 1 < p.policies.length by omega))
  · constructor
    · intro hne
      refine absurd ?_ hne
      by_cases hkc : k ≤ p.count
      · exact (hsaved.bubble_free hpos (by omega) hkc).1
      · have hcount := hsaved.count_eq
        rw [bubble, closeUp_removes.squeeze_frame noName_vars (by omega) (by omega),
          hsaved.vars_eq, if_neg (by omega)]
        exact hp.hidden k (by omega) hten
    · intro hle
      exact absurd hle hk

theorem TableShown.shownCount_eq (hp : TableShown p) :
    shownCount (bubble (saveRows p p.count)).vars = max 5 p.policies.length := by
  have hlen := policies_length_le p
  have hten := hp.le_ten
  rw [shownCount, length_takeWhile_le _ p.policies.length]
  · omega
  · intro i h1 h2
    rw [← hp.named_iff (show 1 ≤ i by omega) (by omega)]
    simp

theorem TableShown.reload_policy (hp : TableShown p) {k : Nat} {e : Entry}
    (he : p.policies[k]? = some e) :
    (reload (bubble (saveRows p p.count))).rows (k + 1) = initRow (storeRow e.1 e.2)
      (openedRow (max 5 p.policies.length) (k + 1) (storeRow e.1 e.2)) := by
  have hpos : 0 < p.count := Nat.lt_of_lt_of_le (by omega) hp.five_le
  have hk := (List.getElem?_eq_some_iff.mp he).1
  rw [reload_rows _ (by omega) (by rw [hp.shownCount_eq]; omega), hp.shownCount_eq,
    (saved_saveRows p p.count).bubble_policy hpos he]

end Saved

/-! ## Saving what was loaded -/

theorem ShowsSame.storeRow_eq {r' r : Row} (h : ShowsSame r' r) (v : Policy) :
    storeRow r' (storeRow r v) = storeRow r v := by
  have hstart : arts r' = arts r := by
    rw [arts, arts, h.startHour, h.startMin]
  have hend : artp r' = artp r := by
    rw [artp, artp, h.endHour, h.endMin]
  have hdays : artd r' = artd r := by
    rw [artd, artd, h.everyDay]
    by_cases hevery : r.everyDay = true
    · rw [if_pos hevery, if_pos hevery]
    · have hsame := h.days (by simpa using hevery)
      rw [if_neg hevery, if_neg hevery, dayMask_eq, dayMask_eq, hsame 1 (by omega) (by omega),
        hsame 2 (by omega) (by omega), hsame 3 (by omega) (by omega),
        hsame 4 (by omega) (by omega), hsame 5 (by omega) (by omega),
        hsame 6 (by omega) (by omega), hsame 7 (by omega) (by omega)]
  rw [storeRow, storeRow, h.name, h.status, h.allow, hstart, hend, hdays]

theorem ShowsSame.rowAccepted_eq {r' r : Row} (h : ShowsSame r' r) (hname : r.arnform ≠ [])
    (v' v : Policy) : rowAccepted r' v' = rowAccepted r v := by
  have htime : checkTimeRange r' = checkTimeRange r := by
    rw [checkTimeRange, checkTimeRange, h.startHour, h.startMin, h.endHour, h.endMin]
  rw [rowAccepted, rowAccepted, h.name, if_neg hname, if_neg hname, htime]

theorem arnform_initRow (v : Policy) (r₀ : Row) : (initRow v r₀).arnform = v.arn := by
  have henable : ∀ r, (enableDays r).arnform = r.arnform := by
    intro r
    rw [enableDays]
    split <;> rfl
  have hdays : ∀ r, (showDays v r).arnform = r.arnform := by
    intro r
    rw [showDays]
    split <;> rfl
  have hend : ∀ r, (showEnd v r).arnform = r.arnform := by
    intro r
    rw [showEnd]
    split <;> rfl
  have hstart : ∀ r, (showStart v r).arnform = r.arnform := by
    intro r
    rw [showStart]
    split <;> rfl
  rw [initRow, henable, hdays, hend, hstart, showStatus]
  split <;> rfl

/-- Variables without a policy have an empty PC list, so the row they are shown in is
accepted. -/
theorem rowAccepted_free {p : Page}
    (haccepted : ∀ k, 1 ≤ k → k ≤ p.count → rowAccepted (p.rows k) (p.vars k)) {v : Policy}
    (hfree : v.arn = []) (hv : v = blankPolicy ∨ v ∈ p.entries.map fun e => stored e.1 e.2)
    (r₀ : Row) : rowAccepted (initRow v r₀) v := by
  have hfill : editlistFill v = false := by
    rcases hv with rfl | hv
    · decide +kernel
    · obtain ⟨e, he, rfl⟩ := List.mem_map.mp hv
      obtain ⟨k, hk, rfl⟩ := List.mem_map.mp he
      obtain ⟨h1, hkc⟩ := List.mem_range'_1.mp hk
      have hacc := haccepted k h1 (by omega)
      have hname : (p.rows k).arnform = [] := by
        rwa [arn_stored] at hfree
      rw [rowAccepted, if_pos hname] at hacc
      have hnone : editlistFill (p.vars k) = false := by
        simpa using (Bool.and_eq_true_iff.mp hacc).2
      rw [stored, if_pos hname]
      exact hnone
  rw [rowAccepted, arnform_initRow, hfree, if_pos rfl, hfill]
  rfl

/-- The loaded page has the policies of the saved one in its first rows. -/
theorem TableShown.reload_policies {p : Page} (hp : TableShown p) {k : Nat}
    (hk : k < p.policies.length) {q : Page} (hq : q = bubble (saveRows p p.count)) :
    (reload q).policies[k]? = some ((reload q).rows (k + 1), q.vars (k + 1)) := by
  have hcount : (reload q).count = max 5 p.policies.length := by
    rw [reload_count, hq, hp.shownCount_eq]
  have htake : (reload q).policies = (reload q).entries.take p.policies.length := by
    apply filter_eq_take
    intro j hj
    rw [length_entries, hcount] at hj
    have hname : ((reload q).rows (1 + j)).arnform = (q.vars (1 + j)).arn := by
      rw [reload_rows q (by omega) (by rw [hq, hp.shownCount_eq]; omega), arnform_initRow]
    have hle := hp.le_ten
    have hlen := policies_length_le p
    have hnamed := hp.named_iff (show 1 ≤ 1 + j by omega) (by omega)
    rw [← hq] at hnamed
    simp only [Page.entries, getElem_cut, unnamed, hname, Bool.not_eq_true', decide_eq_false_iff_not]
    rw [← ne_eq, hnamed]
    omega
  rw [htake, List.getElem?_take_of_lt hk, Page.entries,
    List.getElem?_eq_getElem (by rw [length_cut]; omega), getElem_cut, reload_vars,
    Nat.add_comm 1 k]

/-- A table makes the round trip exactly when no policy starts at the last minute option
and, with more than five policies, the last one is for every day or for none. -/
theorem reload_roundTrips_iff (p q : Page) (hp : TableShown p)
    (hoffered : ∀ e ∈ p.policies, Offered e.1) (h : validateForm p = some q) :
    RoundTrips p q ↔ (∀ e ∈ p.policies, StartKept e.1) ∧
      (5 < p.policies.length → ∀ e, p.policies.getLast? = some e → DaysUniform e.1) := by
  obtain ⟨hpos, haccepted, hq⟩ := validateForm_eq_some.mp h
  have hlen := policies_length_le p
  have hshows : ∀ k e, p.policies[k]? = some e → (ShowsSame ((reload q).rows (k + 1)) e.1 ↔
      StartKept e.1 ∧ (5 < k + 1 → k + 1 = max 5 p.policies.length → DaysUniform e.1)) := by
    intro k e he
    have hk := (List.getElem?_eq_some_iff.mp he).1
    rw [← hq, hp.reload_policy he]
    exact showsSame_row (hoffered e (List.mem_of_getElem? he)) e.2 (by omega)
  constructor
  · intro htrip
    constructor
    · intro e he
      obtain ⟨k, hk⟩ := List.getElem?_of_mem he
      exact ((hshows k e hk).mp (htrip.shown k e hk)).1
    · intro hfive e he
      rw [List.getLast?_eq_getElem?] at he
      exact ((hshows _ e he).mp (htrip.shown _ e he)).2 (by omega) (by omega)
  · rintro ⟨hstart, hlast⟩
    have hshown : ∀ k e, p.policies[k]? = some e → ShowsSame ((reload q).rows (k + 1)) e.1 := by
      intro k e he
      refine (hshows k e he).mpr ⟨hstart e (List.mem_of_getElem? he), ?_⟩
      intro hk heq
      apply hlast (by omega) e
      rw [List.getLast?_eq_getElem?, show p.policies.length - 1 = k by omega, he]
    refine ⟨hshown, bubble (saveRows (reload q) (reload q).count), ?_, ?_⟩
    · have hcount : (reload q).count = max 5 p.policies.length := by
        rw [reload_count, ← hq, hp.shownCount_eq]
      refine validateForm_eq_some.mpr ⟨by omega, ?_, rfl⟩
      intro k h1 hk
      rw [reload_vars]
      by_cases hkn : k ≤ p.policies.length
      · -- a policy is accepted as it was before
        have hmem := List.getElem_mem (show k - 1 < p.policies.length by omega)
        have he := List.getElem?_eq_getElem (show k - 1 < p.policies.length by omega)
        generalize p.policies[k - 1] = e at he hmem
        have hsame := hshown (k - 1) e he
        rw [show k - 1 + 1 = k by omega] at hsame
        obtain ⟨j, hj, rfl⟩ := List.mem_map.mp (List.mem_filter.mp hmem).1
        obtain ⟨hj1, hjc⟩ := List.mem_range'_1.mp hj
        rw [hsame.rowAccepted_eq (policy_named hmem) _ (p.vars j)]
        exact haccepted j hj1 (by omega)
      · have hfive := hp.five_le
        rw [reload_rows q h1 (by rw [← reload_count]; exact hk)]
        obtain ⟨hname, hv⟩ := (saved_saveRows p p.count).bubble_free hpos (k := k) (by omega)
          (by omega)
        rw [hq] at hname hv
        exact rowAccepted_free haccepted hname hv _
    · intro k hk
      have hcount : 0 < (reload q).count := by
        rw [reload_count]
        exact Nat.lt_of_lt_of_le (by omega) (Nat.le_add_right 5 _)
      have he := List.getElem?_eq_getElem hk
      rw [(saved_saveRows (reload q) _).bubble_policy hcount (hp.reload_policies hk hq.symm)]
      have hvars := (saved_saveRows p p.count).bubble_policy hpos he
      rw [hq] at hvars
      rw [hvars]
      exact (hshown k _ he).storeRow_eq _

def sixPage (rows : Nat → Row) : Page where
  rows := rows
  vars _ := blankPolicy
  filterStatuss := []
  filterAllows := []
  scheduleList := []
  count := 6

theorem sixPage_shown (rows : Nat → Row) : TableShown (sixPage rows) :=
  ⟨by simp [sixPage], by simp [sixPage], fun _ _ _ => rfl⟩

theorem sixPage_offered {rows : Nat → Row} (h : ∀ k, Offered (rows k)) :
    ∀ e ∈ (sixPage rows).policies, Offered e.1 := by
  intro e he
  obtain ⟨k, _, rfl⟩ := List.mem_map.mp (List.mem_filter.mp he).1
  exact h k

theorem offered_eveningRow : Offered (eveningRow ['a']) :=
  ⟨by decide, by decide, by decide, by decide, by decide⟩

theorem reload_roundTrips_evenings : ∃ q,
    validateForm (sixPage fun _ => eveningRow ['a']) = some q ∧
      RoundTrips (sixPage fun _ => eveningRow ['a']) q := by
  have hrow : ∀ e ∈ (sixPage fun _ => eveningRow ['a']).policies, e.1 = eveningRow ['a'] := by
    intro e he
    obtain ⟨k, _, rfl⟩ := List.mem_map.mp (List.mem_filter.mp he).1
    rfl
  obtain ⟨q, hq⟩ := Option.isSome_iff_exists.mp
    (show (validateForm (sixPage fun _ => eveningRow ['a'])).isSome = true by decide +kernel)
  refine ⟨q, hq, (reload_roundTrips_iff _ q (sixPage_shown _)
    (sixPage_offered fun _ => offered_eveningRow) hq).mpr ⟨?_, ?_⟩⟩
  · intro e he
    rw [hrow e he]
    unfold StartKept
    decide
  · intro _ e he
    rw [hrow e (List.mem_of_getLast? he)]
    exact Or.inl rfl

/-- Six policies, the first from 18:59 and the last on Mondays only: loaded again, the first
starts at 18:55 and the last has no day. -/
theorem reload_loses_start_and_days : ∃ p q, TableShown p ∧ (∀ e ∈ p.policies, Offered e.1) ∧
    validateForm p = some q ∧ chosen minuteOptions ((reload q).rows 1).startMin = twoDigits 55 ∧
      ((reload q).rows 6).days 1 = false ∧ ¬RoundTrips p q := by
  let mondayRow : Row := { eveningRow ['a'] with everyDay := false, days := fun j => j = 1 }
  let p := sixPage fun k =>
    if k = 1 then { eveningRow ['a'] with startMin := 12 }
    else if k = 6 then mondayRow else eveningRow ['a']
  have hsome : (validateForm p).isSome = true := by decide +kernel
  have hshown : (validateForm p).map (fun q => (((reload q).rows 1).startMin,
      ((reload q).rows 6).days 1)) = some (11, false) := by decide +kernel
  obtain ⟨q, hq⟩ := Option.isSome_iff_exists.mp hsome
  rw [hq] at hshown
  obtain ⟨hstart, hdays⟩ := Prod.mk.inj (Option.some.inj hshown)
  refine ⟨p, q, sixPage_shown _, sixPage_offered ?_, hq, ?_, hdays, ?_⟩
  · intro k
    dsimp only
    split
    · exact ⟨by decide, by decide, by decide, by decide, by decide⟩
    · split
      · exact ⟨by decide, by decide, by decide, by decide, by decide⟩
      · exact offered_eveningRow
  · rw [hstart]
    decide
  · intro htrip
    have hlast : p.policies[5]? = some (mondayRow, blankPolicy) := rfl
    have hsame := (htrip.shown 5 _ hlast).days rfl 1 (by decide) (by decide)
    exact Bool.false_ne_true (hdays.symm.trans hsame)

end Xwr100.Www.Access
