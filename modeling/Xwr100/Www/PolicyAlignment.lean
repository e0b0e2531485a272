import Xwr100.Www.AccessPage

/-! # Policies across a save

A policy is kept in variables and in three lists, and all of them should speak of the same
row once the empty rows have been closed up.  The variables do.  The lists of flags move
twice as far as the variables, and the list of schedules does not move at all, so the
theorem says which rows the elements are drawn from and when that does no harm.
-/

namespace Xwr100.Www.Access

open Lib

/-! ## Closing up an entry -/

/-- The element that position `j` of a list is drawn from when row `i` of `c` is closed up:
its distance from row `i` doubles. -/
def pull (i c j : Nat) : Nat := if i ≤ j ∧ j < c then min (2 * j + 1 - i) c else j

/-- The same after the first `n` passes of the inner loop. -/
def pullSteps (i n c j : Nat) : Nat :=
  if i ≤ j ∧ j < c then min (j + min (j + 1 - i) n) c else j

theorem shiftList_apply (a : Slots) (k c j : Nat) :
    shiftList a k c j = if k ≤ j ∧ j < c then a (j + 1) else a j := by
  have hslide := @foldl_slide Slots (Option Text) (fun a => a)
    (fun a m => Function.update a m (a (m + 1))) (fun _ _ => rfl) k (c - k) a j
  rw [shiftList, hslide]
  by_cases hin : k ≤ j ∧ j < c
  · rw [if_pos hin, if_pos (by omega)]
  · rw [if_neg hin, if_neg (by omega)]

theorem orZero_shiftList (t : Text) (k c j : Nat) :
    orZero (shiftList (splitBars t) k c j) = element t (if k ≤ j ∧ j < c then j + 1 else j) := by
  rw [shiftList_apply]
  split <;> rfl

theorem barFree_shiftList (t : Text) (k c j : Nat) :
    BarFree (orZero (shiftList (splitBars t) k c j)) := by
  rw [orZero_shiftList]
  exact barFree_element t _

/-- A list of ten elements whose elements are drawn from those of another. -/
structure Drawn (source : Nat → Nat) (t u : Text) : Prop where
  ten : TenElements u
  element_eq : ∀ j, element u j = element t (source j)

namespace Drawn

variable {source : Nat → Nat} {t u : Text}

theorem refl (h : TenElements t) : Drawn (fun j => j) t t := ⟨h, fun _ => rfl⟩

theorem congr (h : Drawn source t u) {source' : Nat → Nat} (hs : ∀ j, source j = source' j) :
    Drawn source' t u := ⟨h.ten, fun j => by rw [h.element_eq, hs]⟩

theorem shift (h : Drawn source t u) {c : Nat} (hc : c ≤ 10) (k : Nat) :
    Drawn (fun j => source (if k ≤ j ∧ j < c then j + 1 else j)) t
      (joinBars (shiftList (splitBars u) k c)) where
  ten := tenElements_joinBars fun n _ => barFree_shiftList u k c n
  element_eq j := by
    rw [element_joinBars fun n _ => barFree_shiftList u k c n, ← h.element_eq]
    by_cases hj : j < 10
    · rw [if_pos hj, orZero_shiftList]
    · rw [if_neg hj, if_neg (by omega), h.ten.element_eq j (by omega)]

end Drawn

theorem pullSteps_zero (i c j : Nat) : pullSteps i 0 c j = j := by
  unfold pullSteps
  split <;> omega

theorem pullSteps_succ (i n c j : Nat) :
    pullSteps i n c (if i + n ≤ j ∧ j < c then j + 1 else j) = pullSteps i (n + 1) c j := by
  unfold pullSteps
  by_cases hj : i + n ≤ j ∧ j < c
  · rw [if_pos hj, if_pos (show i ≤ j ∧ j < c by omega)]
    split <;> omega
  · rw [if_neg hj]
    split <;> omega

theorem pullSteps_all (i c j : Nat) : pullSteps i (c - i) c j = pull i c j := by
  unfold pullSteps pull
  split <;> omega

theorem count_foldl_shiftStep (l : List Nat) (p : Page) : (l.foldl shiftStep p).count = p.count :=
  @foldl_slide_eq _ _ Page.count shiftStep (fun _ _ => rfl) l p

structure ListsDrawn (source : Nat → Nat) (p q : Page) : Prop where
  status : Drawn source p.filterStatuss q.filterStatuss
  allow : Drawn source p.filterAllows q.filterAllows
  schedule_eq : q.scheduleList = p.scheduleList

structure TenFlags (p : Page) : Prop where
  status : TenElements p.filterStatuss
  allow : TenElements p.filterAllows

namespace ListsDrawn

variable {source source' : Nat → Nat} {p q r : Page}

theorem refl (h : TenFlags p) : ListsDrawn (fun j => j) p p :=
  ⟨Drawn.refl h.status, Drawn.refl h.allow, rfl⟩

theorem congr (h : ListsDrawn source p q) (hs : ∀ j, source j = source' j) :
    ListsDrawn source' p q := ⟨h.status.congr hs, h.allow.congr hs, h.schedule_eq⟩

theorem trans (h : ListsDrawn source p q) (h' : ListsDrawn source' q r) :
    ListsDrawn (fun j => source (source' j)) p r where
  status := ⟨h'.status.ten, fun j => by rw [h'.status.element_eq, h.status.element_eq]⟩
  allow := ⟨h'.allow.ten, fun j => by rw [h'.allow.element_eq, h.allow.element_eq]⟩
  schedule_eq := h'.schedule_eq.trans h.schedule_eq

theorem tenFlags (h : ListsDrawn source p q) : TenFlags q := ⟨h.status.ten, h.allow.ten⟩

end ListsDrawn

theorem listsDrawn_foldl {p : Page} (hc : p.count ≤ 10) (h : TenFlags p) (i n : Nat) :
    ListsDrawn (pullSteps i n p.count) p ((List.range' i n).foldl shiftStep p) := by
  induction n with
  | zero => exact (ListsDrawn.refl h).congr fun j => (pullSteps_zero i p.count j).symm
  | succ n ih =>
      have hcount := count_foldl_shiftStep (List.range' i n) p
      rw [List.range'_concat, List.foldl_append, List.foldl_cons, List.foldl_nil, Nat.one_mul]
      generalize (List.range' i n).foldl shiftStep p = q at ih hcount
      have hten : q.count ≤ 10 := by omega
      have hstep : ListsDrawn (fun j => pullSteps i n p.count
          (if i + n ≤ j ∧ j < q.count then j + 1 else j)) p (shiftStep q (i + n)) :=
        ⟨ih.status.shift hten (i + n), ih.allow.shift hten (i + n), ih.schedule_eq⟩
      apply hstep.congr
      intro j
      rw [hcount, pullSteps_succ]

theorem count_closeUp (i : Nat) (p : Page) : (closeUp i p).count = p.count - 1 := by
  change ((List.range' i (p.count - i)).foldl shiftStep p).count - 1 = _
  rw [count_foldl_shiftStep]

theorem closeUp_removes : Removes Page.count closeUp Page.vars 1 blankPolicy := by
  apply @Removes.of_slide _ _ _ _ _ _ _ shiftStep (fun _ _ => rfl) count_closeUp
  intro i p
  change Function.update ((List.range' i (p.count - i)).foldl shiftStep p).vars
    ((List.range' i (p.count - i)).foldl shiftStep p).count blankPolicy = _
  rw [count_foldl_shiftStep, Nat.add_sub_cancel]

/-- The lists move further than the variables do. -/
theorem closeUp_listsDrawn {p : Page} (hc : p.count ≤ 10) (h : TenFlags p) (i : Nat) :
    ListsDrawn (pull i p.count) p (closeUp i p) := by
  have hdrawn := (listsDrawn_foldl hc h i (p.count - i)).congr (pullSteps_all i p.count)
  exact ⟨hdrawn.status, hdrawn.allow, hdrawn.schedule_eq⟩

/-- The element that position `j` is drawn from after closing up the given rows in turn. -/
def drawnFrom : List Nat → Nat → Nat → Nat
  | [], _, j => j
  | i :: rest, c, j => pull i c (drawnFrom rest (c - 1) j)

theorem foldl_closeUp_listsDrawn {p : Page} (hc : p.count ≤ 10) (h : TenFlags p)
    (removed : List Nat) :
    ListsDrawn (drawnFrom removed p.count) p (removed.foldl (fun p i => closeUp i p) p) := by
  induction removed generalizing p with
  | nil => exact ListsDrawn.refl h
  | cons i rest ih =>
      have hstep := closeUp_listsDrawn hc h i
      have hcount := count_closeUp i p
      have hrest := ih (by omega) hstep.tenFlags
      rw [hcount] at hrest
      exact hstep.trans hrest

/-! ## Saving the rows -/

/-- What saving leaves of the flags of a row: a row without a name has none. -/
def savedRow (r : Row) : Row :=
  if r.arnform = [] then { r with filterStatus := false, filterAllow := 0 } else r

def statusFlag (r : Row) : Text := flag r.filterStatus

def allowFlag (r : Row) : Text := flag (chosen allowOptions r.filterAllow != ['0'])

def stored (r : Row) (v : Policy) : Policy :=
  if r.arnform = [] then storeEmpty v else storeRow r v

theorem flag_ne_nil (b : Bool) : flag b ≠ [] := by cases b <;> simp [flag]

theorem barFree_flag (b : Bool) : BarFree (flag b) := by cases b <;> simp [flag, BarFree]

theorem arn_stored (r : Row) (v : Policy) : (stored r v).arn = r.arnform := by
  by_cases hr : r.arnform = []
  · rw [stored, if_pos hr, hr]
    rfl
  · rw [stored, if_neg hr]
    rfl

/-- Saving changes the flags of a row and nothing its schedule is made of. -/
theorem schedule_savedRow (r : Row) : schedule (savedRow r) = schedule r := by
  by_cases hr : r.arnform = []
  · rw [savedRow, if_pos hr]
    rfl
  · rw [savedRow, if_neg hr]

/-- What one pass writes into a list: the flag of its row, and the other elements as they
were. -/
theorem element_combine (t : Text) (i : Nat) (b : Bool) (n : Nat) :
    element (joinBars (Function.update (splitBars t) i (some (flag b)))) n =
      if n < 10 then if n = i then flag b else element t n else ['0'] := by
  rw [element_joinBars fun m _ => barFree_update t i (barFree_flag b) m,
    orZero_update t i (flag_ne_nil b)]

theorem tenElements_combine (t : Text) (i : Nat) (b : Bool) :
    TenElements (joinBars (Function.update (splitBars t) i (some (flag b)))) :=
  tenElements_joinBars fun m _ => barFree_update t i (barFree_flag b) m

theorem not_mem_chosen {c : Char} {options : List Text} (h : ∀ t ∈ options, c ∉ t) (i : Nat) :
    c ∉ chosen options i := by
  rw [chosen, List.getD_eq_getElem?_getD]
  by_cases hi : i < options.length
  · rw [List.getElem?_eq_getElem hi]
    exact h _ (List.getElem_mem hi)
  · rw [List.getElem?_eq_none (by omega)]
    exact List.not_mem_nil

theorem barFree_hour (h : Nat) : BarFree (chosen hourOptions h) := not_mem_chosen (by decide) h

theorem barFree_minute (m : Nat) : BarFree (chosen minuteOptions m) := not_mem_chosen (by decide) m

theorem barFree_schedule (r : Row) : BarFree (schedule r) := by
  have hdigits : ∀ j ∈ List.range' 1 7, BarFree (showNumber j) := by
    unfold BarFree
    decide
  have hdays : BarFree
      (['-'].intercalate (((List.range' 1 7).filter fun j => r.days j).map showNumber)) := by
    apply barFree_intercalate (by simp [BarFree])
    intro t ht
    obtain ⟨j, hj, rfl⟩ := List.mem_map.mp ht
    exact hdigits j (List.mem_of_mem_filter hj)
  unfold schedule
  by_cases hevery : r.everyDay
  · simp only [hevery, if_true, barFree_append, barFree_hour, barFree_minute]
    simp [BarFree]
  · simp only [hevery, barFree_append, barFree_hour, barFree_minute]
    simp [BarFree] at hdays ⊢
    exact hdays

theorem schedule_ne_nil (r : Row) : schedule r ≠ [] := by simp [schedule]

/-- A pass that does not refuse its row. -/
def saveRow (p : Page) (i : Nat) : Page where
  rows := Function.update p.rows i (savedRow (p.rows i))
  vars := Function.update p.vars i (stored (p.rows i) (p.vars i))
  filterStatuss := joinBars (Function.update (splitBars p.filterStatuss) (i - 1)
    (some (statusFlag (savedRow (p.rows i)))))
  filterAllows := joinBars (Function.update (splitBars p.filterAllows) (i - 1)
    (some (allowFlag (savedRow (p.rows i)))))
  scheduleList := joinBetween (Function.update (splitBars p.scheduleList) 1
    (some (schedule (p.rows 1))))
  count := p.count

/-- The test for a row without a day refuses nothing. -/
theorem combineScheduleList_eq (p : Page) (i : Nat) :
    combineScheduleList p i = some { p with
      scheduleList := joinBetween (Function.update (splitBars p.scheduleList) 1
        (some (schedule (p.rows 1)))) } := by
  simp [combineScheduleList]

def rowAccepted (r : Row) (v : Policy) : Bool :=
  checkQuote1 r.arnform &&
    if r.arnform = [] then !editlistFill v else specialCharCheck r.arnform && checkTimeRange r

theorem validateRow_eq (p : Page) (i : Nat) :
    validateRow p i = if rowAccepted (p.rows i) (p.vars i) then some (saveRow p i) else none := by
  -- the days and the times of row 1 are what they were, whichever row is saved
  have hone : schedule (Function.update p.rows i (savedRow (p.rows i)) 1) =
      schedule (p.rows 1) := by
    by_cases hi : 1 = i
    · rw [← hi, Function.update_self, schedule_savedRow]
    · rw [Function.update_of_ne hi]
  by_cases hempty : (p.rows i).arnform = []
  · have hsaved : savedRow (p.rows i) =
        { p.rows i with filterStatus := false, filterAllow := 0 } := by
      rw [savedRow, if_pos hempty]
    have hstored : combineScheduleList (combineInternetFilter
        ((p.setVars i (storeEmpty (p.vars i))).setRow i (savedRow (p.rows i))) i) i =
          some (saveRow p i) := by
      rw [combineScheduleList_eq, saveRow, ← hone, stored, if_pos hempty]
      simp [combineInternetFilter, Page.setRow, Page.setVars, statusFlag, allowFlag]
    rw [hsaved] at hstored
    simp only [validateRow, hstored, rowAccepted, if_pos hempty]
    by_cases hquote : checkQuote1 (p.rows i).arnform <;>
      by_cases hfill : editlistFill (p.vars i) <;> simp [hquote, hfill]
  · have hsaved : savedRow (p.rows i) = p.rows i := by
      rw [savedRow, if_neg hempty]
    have hstored : combineScheduleList (combineInternetFilter
        (p.setVars i (storeRow (p.rows i) (p.vars i))) i) i = some (saveRow p i) := by
      rw [combineScheduleList_eq, saveRow, hsaved, stored, if_neg hempty,
        Function.update_eq_self]
      rfl
    simp only [validateRow, hstored, rowAccepted, if_neg hempty]
    by_cases hquote : checkQuote1 (p.rows i).arnform <;>
      by_cases hchar : specialCharCheck (p.rows i).arnform <;>
        by_cases htime : checkTimeRange (p.rows i) <;> simp [hquote, hchar, htime]

/-- The page after the first `n` rows have been saved. -/
structure Saved (p : Page) (n : Nat) (q : Page) : Prop where
  count_eq : q.count = p.count
  rows_eq : ∀ k, q.rows k = if 1 ≤ k ∧ k ≤ n then savedRow (p.rows k) else p.rows k
  vars_eq : ∀ k, q.vars k = if 1 ≤ k ∧ k ≤ n then stored (p.rows k) (p.vars k) else p.vars k
  status_eq : ∀ j < 10, element q.filterStatuss j =
    if j < n then statusFlag (savedRow (p.rows (j + 1))) else element p.filterStatuss j
  allow_eq : ∀ j < 10, element q.filterAllows j =
    if j < n then allowFlag (savedRow (p.rows (j + 1))) else element p.filterAllows j
  schedule_eq : ∀ j < 10, element q.scheduleList j =
    if j = 1 ∧ 0 < n then schedule (p.rows 1) else element p.scheduleList j
  ten : 0 < n → TenFlags q ∧ TenElements q.scheduleList

theorem saved_zero (p : Page) : Saved p 0 p where
  count_eq := rfl
  rows_eq k := by rw [if_neg (by omega)]
  vars_eq k := by rw [if_neg (by omega)]
  status_eq j _ := by rw [if_neg (by omega)]
  allow_eq j _ := by rw [if_neg (by omega)]
  schedule_eq j _ := by rw [if_neg (by omega)]
  ten h := absurd h (by omega)

/-- One more row, from 1 on. -/
theorem row_extended {α : Type} {n : Nat} (f g : Nat → α) (k : Nat) :
    (if k = n + 1 then f (n + 1) else if 1 ≤ k ∧ k ≤ n then f k else g k) =
      if 1 ≤ k ∧ k ≤ n + 1 then f k else g k := by
  by_cases hk : k = n + 1
  · rw [if_pos hk, if_pos (by omega), hk]
  · rw [if_neg hk]
    by_cases hin : 1 ≤ k ∧ k ≤ n
    · rw [if_pos hin, if_pos (by omega)]
    · rw [if_neg hin, if_neg (by omega)]

/-- One more element, from 0 on. -/
theorem element_extended {α : Type} {n : Nat} (f g : Nat → α) (j : Nat) :
    (if j = n then f n else if j < n then f j else g j) = if j < n + 1 then f j else g j := by
  by_cases hj : j = n
  · rw [if_pos hj, if_pos (by omega), hj]
  · rw [if_neg hj]
    by_cases hin : j < n
    · rw [if_pos hin, if_pos (by omega)]
    · rw [if_neg hin, if_neg (by omega)]

theorem Saved.saveRow {p q : Page} {n : Nat} (h : Saved p n q) : Saved p (n + 1) (saveRow q (n + 1)) := by
  have hrow : q.rows (n + 1) = p.rows (n + 1) := by rw [h.rows_eq, if_neg (by omega)]
  have hvars : q.vars (n + 1) = p.vars (n + 1) := by rw [h.vars_eq, if_neg (by omega)]
  have hone : schedule (q.rows 1) = schedule (p.rows 1) := by
    rw [h.rows_eq]
    split
    · exact schedule_savedRow _
    · rfl
  constructor
  · exact h.count_eq
  · intro k
    change Function.update q.rows (n + 1) (savedRow (q.rows (n + 1))) k = _
    rw [Function.update_apply, hrow, h.rows_eq]
    exact row_extended (fun k => savedRow (p.rows k)) p.rows k
  · intro k
    change Function.update q.vars (n + 1) (stored (q.rows (n + 1)) (q.vars (n + 1))) k = _
    rw [Function.update_apply, hrow, hvars, h.vars_eq]
    exact row_extended (fun k => stored (p.rows k) (p.vars k)) p.vars k
  · intro j hj
    change element (joinBars (Function.update (splitBars q.filterStatuss) n
      (some (flag (savedRow (q.rows (n + 1))).filterStatus)))) j = _
    rw [element_combine, if_pos hj, hrow, h.status_eq j hj]
    exact element_extended (fun j => statusFlag (savedRow (p.rows (j + 1))))
      (element p.filterStatuss) j
  · intro j hj
    change element (joinBars (Function.update (splitBars q.filterAllows) n
      (some (allowFlag (savedRow (q.rows (n + 1))))))) j = _
    rw [allowFlag, element_combine, if_pos hj, hrow, h.allow_eq j hj]
    exact element_extended (fun j => allowFlag (savedRow (p.rows (j + 1))))
      (element p.filterAllows) j
  · intro j hj
    change element (joinBetween (Function.update (splitBars q.scheduleList) 1
      (some (schedule (q.rows 1))))) j = _
    rw [element_joinBetween fun m _ => barFree_update _ _ (barFree_schedule _) m, if_pos hj,
      orZero_update _ _ (schedule_ne_nil _), hone, h.schedule_eq j hj]
    by_cases hjn : j = 1
    · rw [if_pos hjn, if_pos ⟨hjn, by omega⟩]
    · rw [if_neg hjn, if_neg (by omega), if_neg (by omega)]
  · intro _
    exact ⟨⟨tenElements_combine _ _ _, tenElements_combine _ _ _⟩,
      tenElements_joinBetween fun m _ => barFree_update _ _ (barFree_schedule _) m⟩

def saveRows (p : Page) (n : Nat) : Page := (List.range' 1 n).foldl saveRow p

theorem saveRows_succ (p : Page) (n : Nat) : saveRows p (n + 1) = saveRow (saveRows p n) (n + 1) := by
  rw [saveRows, List.range'_concat, List.foldl_append, Nat.one_mul, Nat.add_comm 1 n]
  rfl

theorem saved_saveRows (p : Page) (n : Nat) : Saved p n (saveRows p n) := by
  induction n with
  | zero => exact saved_zero p
  | succ n ih =>
      rw [saveRows_succ]
      exact ih.saveRow

/-- The loop over the rows succeeds when each row passes its tests. -/
theorem foldlM_validateRow_eq_some {p q : Page} {n : Nat} :
    (List.range' 1 n).foldlM validateRow p = some q ↔
      (∀ k, 1 ≤ k → k ≤ n → rowAccepted (p.rows k) (p.vars k)) ∧ saveRows p n = q := by
  induction n generalizing q with
  | zero =>
      constructor
      · intro h
        exact ⟨fun k h1 h0 => absurd h0 (by omega), Option.some.inj h⟩
      · intro h
        exact congrArg some h.2
  | succ n ih =>
      -- the passes so far have not touched row `n + 1`
      have hsaved := saved_saveRows p n
      have hrow : (saveRows p n).rows (n + 1) = p.rows (n + 1) := by
        rw [hsaved.rows_eq, if_neg (by omega)]
      have hvars : (saveRows p n).vars (n + 1) = p.vars (n + 1) := by
        rw [hsaved.vars_eq, if_neg (by omega)]
      rw [List.range'_concat, List.foldlM_append, Nat.one_mul, Nat.add_comm 1 n, saveRows_succ]
      simp only [List.foldlM_cons, List.foldlM_nil, bind_pure]
      constructor
      · intro h
        obtain ⟨r, hr, hlast⟩ := Option.bind_eq_some_iff.mp h
        obtain ⟨haccepted, rfl⟩ := ih.mp hr
        rw [validateRow_eq, hrow, hvars] at hlast
        by_cases hacc : rowAccepted (p.rows (n + 1)) (p.vars (n + 1))
        · rw [if_pos hacc] at hlast
          refine ⟨?_, Option.some.inj hlast⟩
          intro k h1 hk
          by_cases hkn : k = n + 1
          · rw [hkn]
            exact hacc
          · exact haccepted k h1 (by omega)
        · rw [if_neg hacc] at hlast
          contradiction
      · intro h
        apply Option.bind_eq_some_iff.mpr
        refine ⟨saveRows p n, ih.mpr ⟨fun k h1 hk => h.1 k h1 (by omega), rfl⟩, ?_⟩
        rw [validateRow_eq, hrow, hvars, if_pos (h.1 (n + 1) (by omega) (by omega)), h.2]

/-! ## Alignment -/

abbrev Entry := Row × Policy

def Page.entries (p : Page) : List Entry := cut (fun k => (p.rows k, p.vars k)) 1 p.count

def unnamed (e : Entry) : Bool := e.1.arnform = []

def noName (v : Policy) : Bool := v.arn = []

def Page.policies (p : Page) : List Entry := p.entries.filter fun e => !unnamed e

/-- The saved page `q` tells, for each policy of `p` and its number, the same story in the
variables and in the three lists; the variables behind the policies are free. -/
structure Aligned (p q : Page) : Prop where
  vars_eq : ∀ k e, p.policies[k]? = some e → q.vars (k + 1) = storeRow e.1 e.2
  free : ∀ k, p.policies.length < k → k ≤ p.count → (q.vars k).arn = []
  status : ∀ k e, p.policies[k]? = some e → splitBars q.filterStatuss k = some (statusFlag e.1)
  allow : ∀ k e, p.policies[k]? = some e → splitBars q.filterAllows k = some (allowFlag e.1)
  schedule : ∀ k e, p.policies[k]? = some e → splitBars q.scheduleList k = some (schedule e.1)

/-- The rows that the loop closes up; it does not look at the last one. -/
def Page.removed (p : Page) : List Nat := removals unnamed 1 (p.entries.take (p.count - 1))

/-- Element `j` of the list of enabled policies when every row has been saved: a row without
a name is disabled, and behind the rows stands what was there before. -/
def Page.statusAt (p : Page) (j : Nat) : Text :=
  if j < p.count then statusFlag (savedRow (p.rows (j + 1)))
  else if j < 10 then element p.filterStatuss j else ['0']

def Page.allowAt (p : Page) (j : Nat) : Text :=
  if j < p.count then allowFlag (savedRow (p.rows (j + 1)))
  else if j < 10 then element p.filterAllows j else ['0']

/-- Each policy has the flags of the row that its elements are drawn from. -/
def FlagsKept (p : Page) : Prop :=
  ∀ k e, p.policies[k]? = some e →
    p.statusAt (drawnFrom p.removed p.count k) = statusFlag e.1 ∧
      p.allowAt (drawnFrom p.removed p.count k) = allowFlag e.1

/-- The second policy has the schedule of row 1, and every other one has the schedule that
was in its element before. -/
def SchedulesKept (p : Page) : Prop :=
  ∀ k e, p.policies[k]? = some e →
    (if k = 1 then schedule (p.rows 1) else element p.scheduleList k) = schedule e.1

theorem length_entries (p : Page) : p.entries.length = p.count := length_cut _ _ _

theorem policies_length_le (p : Page) : p.policies.length ≤ p.count := by
  rw [← length_entries p]
  exact List.length_filter_le _ _

theorem Saved.cut_vars {p q : Page} (h : Saved p p.count q) (n : Nat) (hn : n ≤ p.count) :
    cut q.vars 1 n = (p.entries.take n).map fun e => stored e.1 e.2 := by
  apply List.ext_getElem
  · simp [length_entries]
    omega
  · intro k hk _
    rw [length_cut] at hk
    rw [getElem_cut, h.vars_eq, if_pos (by omega)]
    simp [Page.entries]

theorem noName_stored (e : Entry) : noName (stored e.1 e.2) = unnamed e := by
  rw [noName, arn_stored]
  rfl

theorem noName_vars (p : Page) (i : Nat) : decide ((p.vars i).arn = []) = noName (p.vars i) := rfl

theorem policy_named {p : Page} {e : Entry} (h : e ∈ p.policies) : e.1.arnform ≠ [] := by
  have hname : unnamed e = false := by
    simpa using (List.mem_filter.mp h).2
  simpa [unnamed] using hname

theorem storeRow_of_policy {p : Page} {e : Entry} (h : e ∈ p.policies) :
    stored e.1 e.2 = storeRow e.1 e.2 := by
  rw [stored, if_neg (policy_named h)]

/-- A page is accepted when it has rows and each passes its tests; then the rows are saved and
the empty entries bubbled out. -/
theorem validateForm_eq_some {p q : Page} : validateForm p = some q ↔
    0 < p.count ∧ (∀ k, 1 ≤ k → k ≤ p.count → rowAccepted (p.rows k) (p.vars k)) ∧
      bubble (saveRows p p.count) = q := by
  have hcheck : entryCheck p = 0 ↔ p.count = 0 := by
    constructor
    · intro h
      by_contra hpos
      have hfirst := List.countP_eq_zero.mp h 1 (List.mem_range'_1.mpr ⟨by omega, by omega⟩)
      simp at hfirst
    · intro h
      simp [entryCheck, h]
  unfold validateForm
  by_cases hzero : p.count = 0
  · rw [if_pos (hcheck.mpr hzero)]
    constructor
    · intro h
      contradiction
    · intro h
      omega
  · rw [if_neg (mt hcheck.mp hzero), Option.map_eq_some_iff]
    constructor
    · rintro ⟨r, hr, hbubble⟩
      obtain ⟨haccepted, rfl⟩ := foldlM_validateRow_eq_some.mp hr
      exact ⟨by omega, haccepted, hbubble⟩
    · rintro ⟨_, haccepted, hbubble⟩
      exact ⟨_, foldlM_validateRow_eq_some.mpr ⟨haccepted, rfl⟩, hbubble⟩

/-- The rows that the loop closes up are known from the names on the page. -/
theorem Saved.removals_eq {p q : Page} (h : Saved p p.count q) :
    removals noName 1 (cut q.vars 1 (q.count - 1)) = p.removed := by
  rw [h.count_eq, h.cut_vars _ (by omega), removals_map, Page.removed]
  congr 1
  funext e
  exact noName_stored e

theorem Saved.bubble_listsDrawn {p q : Page} (h : Saved p p.count q) (hpos : 0 < p.count)
    (hc : p.count ≤ 10) : ListsDrawn (drawnFrom p.removed p.count) q (bubble q) := by
  have hcount := h.count_eq
  rw [bubble, closeUp_removes.squeeze_eq noName_vars (by omega), h.removals_eq, ← hcount]
  exact foldl_closeUp_listsDrawn (by omega) (h.ten hpos).1 p.removed

/-- The variables after the loop: the policies in their order, and then free ones. -/
theorem Saved.bubble_vars {p q : Page} (h : Saved p p.count q) (hpos : 0 < p.count) :
    ∃ rest : List Policy,
      (∀ v ∈ rest, v.arn = [] ∧ (v = blankPolicy ∨ v ∈ p.entries.map fun e => stored e.1 e.2)) ∧
      cut (bubble q).vars 1 p.count = (p.policies.map fun e => storeRow e.1 e.2) ++ rest := by
  have hcount := h.count_eq
  have hstored : cut q.vars 1 (q.count + 1 - 1) = p.entries.map fun e => stored e.1 e.2 := by
    rw [Nat.add_sub_cancel, hcount, h.cut_vars _ (Nat.le_refl _),
      List.take_of_length_le (Nat.le_of_eq (length_entries p))]
  obtain ⟨rest, hrest, hcut⟩ := closeUp_removes.squeeze_slots noName_vars (by omega)
    (show 1 ≤ q.count by omega) (show q.count - 1 ≤ q.count by omega)
  rw [hstored] at hrest hcut
  refine ⟨rest, ?_, ?_⟩
  · intro v hv
    rcases hrest v hv with rfl | ⟨hname, hmem⟩
    · exact ⟨rfl, Or.inl rfl⟩
    · exact ⟨by simpa [noName] using hname, Or.inr hmem⟩
  · rw [show q.count + 1 - 1 = p.count by omega, List.filter_map] at hcut
    have hfilter : p.entries.filter ((fun v => !noName v) ∘ fun e => stored e.1 e.2) =
        p.policies := by
      apply List.filter_congr
      intro e _
      exact congrArg (!·) (noName_stored e)
    rw [hfilter] at hcut
    refine hcut.trans (congrArg (· ++ rest) ?_)
    exact List.map_congr_left fun e he => storeRow_of_policy he

/-- The variables of the `k`-th policy. -/
theorem Saved.bubble_policy {p q : Page} (h : Saved p p.count q) (hpos : 0 < p.count) {k : Nat}
    {e : Entry} (he : p.policies[k]? = some e) : (bubble q).vars (k + 1) = storeRow e.1 e.2 := by
  obtain ⟨rest, _, hcut⟩ := h.bubble_vars hpos
  have hk := (List.getElem?_eq_some_iff.mp he).1
  have hlen := policies_length_le p
  have hvars : some ((bubble q).vars (k + 1)) = (cut (bubble q).vars 1 p.count)[k]? := by
    rw [List.getElem?_eq_getElem (by rw [length_cut]; omega), getElem_cut, Nat.add_comm 1 k]
  rw [hcut, List.getElem?_append_left (by simpa using hk), List.getElem?_map, he] at hvars
  exact Option.some.inj hvars

/-- The variables behind the policies. -/
theorem Saved.bubble_free {p q : Page} (h : Saved p p.count q) (hpos : 0 < p.count) {k : Nat}
    (hk : p.policies.length < k) (hkc : k ≤ p.count) :
    ((bubble q).vars k).arn = [] ∧ ((bubble q).vars k = blankPolicy ∨
      (bubble q).vars k ∈ p.entries.map fun e => stored e.1 e.2) := by
  obtain ⟨rest, hrest, hcut⟩ := h.bubble_vars hpos
  have hvars : some ((bubble q).vars k) = (cut (bubble q).vars 1 p.count)[k - 1]? := by
    rw [List.getElem?_eq_getElem (by rw [length_cut]; omega), getElem_cut,
      show 1 + (k - 1) = k by omega]
  rw [hcut, List.getElem?_append_right (by simp; omega)] at hvars
  exact hrest _ (List.mem_of_getElem? hvars.symm)

/-- The saved lists and the rows that their elements are drawn from. -/
theorem Saved.bubble_flags {p q : Page} (h : Saved p p.count q) (hpos : 0 < p.count)
    (hc : p.count ≤ 10) {k : Nat} (hk : k < 10) :
    splitBars (bubble q).filterStatuss k = some (p.statusAt (drawnFrom p.removed p.count k)) ∧
      splitBars (bubble q).filterAllows k = some (p.allowAt (drawnFrom p.removed p.count k)) := by
  have hdrawn := h.bubble_listsDrawn hpos hc
  have hten := (h.ten hpos).1
  rw [hdrawn.status.ten.splitBars_eq k hk, hdrawn.status.element_eq,
    hdrawn.allow.ten.splitBars_eq k hk, hdrawn.allow.element_eq]
  generalize drawnFrom p.removed p.count k = j
  by_cases hj : j < 10
  · rw [h.status_eq j hj, h.allow_eq j hj, Page.statusAt, Page.allowAt, if_pos hj, if_pos hj]
    exact ⟨rfl, rfl⟩
  · have hout : ¬j < p.count := by omega
    rw [hten.status.element_eq j (by omega), hten.allow.element_eq j (by omega), Page.statusAt,
      Page.allowAt, if_neg hout, if_neg hout, if_neg hj, if_neg hj]
    exact ⟨rfl, rfl⟩

theorem Saved.bubble_schedule {p q : Page} (h : Saved p p.count q) (hpos : 0 < p.count)
    (hc : p.count ≤ 10) {k : Nat} (hk : k < 10) :
    splitBars (bubble q).scheduleList k =
      some (if k = 1 then schedule (p.rows 1) else element p.scheduleList k) := by
  rw [(h.bubble_listsDrawn hpos hc).schedule_eq, (h.ten hpos).2.splitBars_eq k hk,
    h.schedule_eq k hk]
  by_cases hone : k = 1
  · rw [if_pos ⟨hone, hpos⟩, if_pos hone]
  · rw [if_neg (by omega), if_neg hone]

/-- The policies stay aligned exactly when the flags that the lists are left with are the
policies' own, and the schedules were in their elements already. -/
theorem validateForm_aligned_iff (p q : Page) (hc : p.count ≤ 10)
    (h : validateForm p = some q) : Aligned p q ↔ FlagsKept p ∧ SchedulesKept p := by
  obtain ⟨hpos, _, rfl⟩ := validateForm_eq_some.mp h
  have hr := saved_saveRows p p.count
  generalize saveRows p p.count = r at hr h
  have hlt : ∀ k e, p.policies[k]? = some e → k < 10 := by
    intro k e he
    have hlen := policies_length_le p
    have hk := (List.getElem?_eq_some_iff.mp he).1
    omega
  constructor
  · intro haligned
    constructor
    · intro k e he
      obtain ⟨hstatus, hallow⟩ := hr.bubble_flags hpos hc (hlt k e he)
      rw [haligned.status k e he] at hstatus
      rw [haligned.allow k e he] at hallow
      exact ⟨(Option.some.inj hstatus).symm, (Option.some.inj hallow).symm⟩
    · intro k e he
      have hschedule := hr.bubble_schedule hpos hc (hlt k e he)
      rw [haligned.schedule k e he] at hschedule
      exact (Option.some.inj hschedule).symm
  · rintro ⟨hflags, hschedules⟩
    constructor
    · intro k e he
      exact hr.bubble_policy hpos he
    · intro k hk hkc
      exact (hr.bubble_free hpos hk hkc).1
    · intro k e he
      rw [(hr.bubble_flags hpos hc (hlt k e he)).1, (hflags k e he).1]
    · intro k e he
      rw [(hr.bubble_flags hpos hc (hlt k e he)).2, (hflags k e he).2]
    · intro k e he
      rw [hr.bubble_schedule hpos hc (hlt k e he), hschedules k e he]

/-- A row as it is shown for no policy, and one that blocks every evening. -/
def freeRow : Row where
  arnform := []
  filterStatus := false
  filterAllow := 0
  startHour := 0
  startMin := 0
  endHour := 0
  endMin := 0
  everyDay := true
  days := fun _ => false
  daysDisabled := true

def eveningRow (name : Text) : Row :=
  { freeRow with arnform := name, filterStatus := true, startHour := 18, endHour := 22 }

def eveningPage (names : Nat → Text) (scheduleList : Text) : Page where
  rows k := if names k = [] then freeRow else eveningRow (names k)
  vars _ := blankPolicy
  filterStatuss := []
  filterAllows := []
  scheduleList := scheduleList
  count := 5

/-- Two policies in the first two rows, on a page that had their schedule already. -/
def steadyPage : Page :=
  eveningPage (fun k => if k = 1 then ['a'] else if k = 2 then ['b'] else [])
    (schedule (eveningRow ['a']))

theorem steadyPage_policies : steadyPage.policies =
    [(eveningRow ['a'], blankPolicy), (eveningRow ['b'], blankPolicy)] := rfl

theorem validateForm_aligned_steadyPage :
    ∃ q, validateForm steadyPage = some q ∧ Aligned steadyPage q := by
  obtain ⟨q, hq⟩ := Option.isSome_iff_exists.mp
    (show (validateForm steadyPage).isSome = true by decide +kernel)
  refine ⟨q, hq, (validateForm_aligned_iff steadyPage q (by decide) hq).mpr ⟨?_, ?_⟩⟩
  · intro k e he
    rw [steadyPage_policies] at he
    match k with
    | 0 =>
        cases he
        decide +kernel
    | 1 =>
        cases he
        decide +kernel
    | k + 2 => contradiction
  · intro k e he
    rw [steadyPage_policies] at he
    match k with
    | 0 =>
        cases he
        decide +kernel
    | 1 =>
        cases he
        decide +kernel
    | k + 2 => contradiction

/-- One policy, in the second row: after the save it is in the first variables, enabled, and
the list calls it disabled. -/
theorem gap_disables_policy : ∃ p q, p.count ≤ 10 ∧ validateForm p = some q ∧
    p.policies = [(eveningRow ['a'], blankPolicy)] ∧ (q.vars 1).aren = ['1'] ∧
      splitBars q.filterStatuss 0 = some ['0'] ∧ ¬Aligned p q := by
  let p := eveningPage (fun k => if k = 2 then ['a'] else []) []
  have hsome : (validateForm p).isSome = true := by decide +kernel
  have hsaved : (validateForm p).map (fun q => ((q.vars 1).aren, splitBars q.filterStatuss 0)) =
      some (['1'], some ['0']) := by decide +kernel
  obtain ⟨q, hq⟩ := Option.isSome_iff_exists.mp hsome
  rw [hq] at hsaved
  obtain ⟨haren, hlist⟩ := Prod.mk.inj (Option.some.inj hsaved)
  have hpolicies : p.policies = [(eveningRow ['a'], blankPolicy)] := rfl
  refine ⟨p, q, by decide, hq, hpolicies, haren, hlist, ?_⟩
  intro haligned
  have hflag := haligned.status 0 _ (by rw [hpolicies]; rfl)
  rw [hlist] at hflag
  exact absurd hflag (by decide)

end Xwr100.Www.Access
