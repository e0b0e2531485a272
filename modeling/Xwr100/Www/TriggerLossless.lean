import Xwr100.Www.PortTrigger

/-! # What saving keeps of the triggering table

Saving closes up only the rows whose four ports are zeros.  A row that was emptied stays
where it is, and loading stops at it; it also stops at a row without a name whose ports it
reads as none.
-/

namespace Xwr100.Www.Trigger

open Lib

/-! ## Blank rows and blank entries -/

def Row.isBlank (r : Row) : Bool :=
  r.appName == [] && noPort r.triggerPortStart && noPort r.triggerPortEnd &&
    noPort r.forwardPortStart && noPort r.forwardPortEnd && !r.triggerEnable

/-- A blank row as it is shown for no rule. -/
def Row.zeroed (r : Row) : Bool :=
  r.appName == [] && r.triggerPortStart == ['0'] && r.triggerPortEnd == ['0'] &&
    r.forwardPortStart == ['0'] && r.forwardPortEnd == ['0'] && !r.triggerEnable

/-- The ways in which two fields without a port are joined, and the empty field. -/
def noRange (t : Text) : Bool :=
  t == [] || t == ['-'] || t == ['0', '-'] || t == ['-', '0'] || t == ['0', '-', '0']

def Entry.isBlank (e : Entry) : Bool :=
  e.ptna == [] && noRange e.ptir && noPort e.ptsp && noPort e.ptfp &&
    (e.pten == ['0'] || e.pten == [])

theorem isBlank_blankEntry : blankEntry.isBlank = true := by decide

theorem append_dash_ne_zero (s t : Text) : s ++ '-' :: t ≠ ['0'] := by
  cases s <;> simp

theorem noRange_join (s t : Text) : noRange (s ++ '-' :: t) = (noPort s && noPort t) := by
  match s with
  | [] => cases t <;> simp [noRange, noPort]
  | [c] => cases t <;> by_cases hc : c = '0' <;> simp [noRange, noPort, hc]
  | c :: d :: s => simp [noRange, noPort, append_dash_ne_zero]

theorem join_eq_zeros (s t : Text) :
    (s ++ '-' :: t == ['0', '-', '0']) = (s == ['0'] && t == ['0']) := by
  match s with
  | [] => simp
  | [c] => simp
  | c :: d :: s => simp [append_dash_ne_zero]

theorem isBlank_entryOf (r : Row) : (entryOf r).isBlank = r.isBlank := by
  cases hr : r.triggerEnable <;>
    simp [Entry.isBlank, entryOf, Row.isBlank, noRange_join, hr, Bool.and_assoc]

theorem saveBlank_entryOf (r : Row) : saveBlank (entryOf r) = r.zeroed := by
  cases hr : r.triggerEnable <;>
    simp [saveBlank, entryOf, Row.zeroed, join_eq_zeros, hr, Bool.and_assoc]

theorem isBlank_of_zeroed {r : Row} (h : r.zeroed = true) : r.isBlank = true := by
  simp only [Row.zeroed, Bool.and_eq_true, beq_iff_eq] at h
  simp [Row.isBlank, noPort, h]

theorem loadBlank_of_isBlank {e : Entry} (h : e.isBlank = true) : loadBlank e = true := by
  have hsegments : ∀ t, noRange t = true →
      noPort (getSegment '-' t 1) = true ∧ noPort (getSegment '-' t 2) = true := by
    intro t ht
    simp only [noRange, Bool.or_eq_true, beq_iff_eq] at ht
    rcases ht with (((rfl | rfl) | rfl) | rfl) | rfl <;> decide
  simp only [Entry.isBlank, Bool.and_eq_true] at h
  obtain ⟨⟨⟨⟨hname, hrange⟩, hsp⟩, hfp⟩, -⟩ := h
  simp [loadBlank, hname, hsegments _ hrange, hsp, hfp]

/-! ## Closing up -/

theorem count_foldl_shiftStep (i n : Nat) (p : Page) :
    ((List.range' i n).foldl shiftStep p).count = p.count :=
  @foldl_slide_eq _ _ Page.count shiftStep (fun _ _ => rfl) _ p

theorem count_closeUp (i : Nat) (p : Page) : (closeUp i p).count = p.count - 1 := by
  change ((List.range' i (p.count - 1 - i)).foldl shiftStep p).count - 1 = _
  rw [count_foldl_shiftStep]

theorem top_closeUp (i : Nat) (p : Page) (hi : i < p.count) :
    (closeUp i p).top ≤ max p.top (p.count - 1) := by
  have htop := @foldl_slide_high _ Page.top shiftStep (fun _ _ => rfl) i (p.count - 1 - i) p
  have hcount := count_foldl_shiftStep i (p.count - 1 - i) p
  change max ((List.range' i (p.count - 1 - i)).foldl shiftStep p).top
    (((List.range' i (p.count - 1 - i)).foldl shiftStep p).count - 1) ≤ _
  omega

theorem closeUp_removes : Removes Page.count closeUp Page.entries 0 blankEntry := by
  apply @Removes.of_slide _ _ _ _ _ _ _ shiftStep (fun _ _ => rfl) count_closeUp
  intro i p
  change Function.update ((List.range' i (p.count - 1 - i)).foldl shiftStep p).entries
    (((List.range' i (p.count - 1 - i)).foldl shiftStep p).count - 1) blankEntry = _
  rw [count_foldl_shiftStep, Nat.add_zero]

theorem top_bubble (p : Page) : (bubble p).top ≤ max p.top (p.count - 1) :=
  @squeeze_high _ _ _ _ Page.top 1 count_closeUp top_closeUp p.count 0 p

/-! ## What is stored, and what of it is shown -/

def filledRows (count : Nat) (rows : Nat → Row) : List Row :=
  (cut rows 0 count).filter fun r => !r.isBlank

/-- The entries hold the filled rows in their order and then nothing, and the rows that loading
will show reach as far as the entries that say something. -/
structure SavedWell (count : Nat) (rows : Nat → Row) (entries : Nat → Entry) : Prop where
  packed : ∃ rest : List Entry, (∀ e ∈ rest, e.isBlank = true) ∧
    cut entries 0 10 = (filledRows count rows).map entryOf ++ rest
  visible : ∀ k, k < 10 → (entries k).isBlank = false → k < checkPtgDefaultCount entries

/-- The loader passes all filled entries, or there are no more than it shows anyway. -/
theorem visible_iff {entries : Nat → Entry} {filled rest : List Entry}
    (hcut : cut entries 0 10 = filled ++ rest) (hfilled : ∀ e ∈ filled, e.isBlank = false)
    (hrest : ∀ e ∈ rest, e.isBlank = true) :
    (∀ k, k < 10 → (entries k).isBlank = false → k < checkPtgDefaultCount entries) ↔
      filled.length ≤ 5 ∨ ∀ e ∈ filled, loadBlank e = false := by
  have hlast : (∀ k, k < 10 → (entries k).isBlank = false → k < checkPtgDefaultCount entries) ↔
      filled.length ≤ checkPtgDefaultCount entries := by
    rw [← filled_lt_iff hcut hfilled hrest]
    simp only [Nat.zero_add]
  have hleading : filled.length ≤ leading entries ↔ ∀ e ∈ filled, loadBlank e = false := by
    rw [leading, hcut, length_le_takeWhile_append_iff]
    simp
  rw [hlast, ← hleading, checkPtgDefaultCount]
  split <;> omega

/-- No emptied row has a filled one behind it; rows of zeros are closed up. -/
def NoGap (count : Nat) (rows : Nat → Row) : Prop :=
  (cut rows 0 count).Pairwise fun r r' => r.isBlank = true → r.zeroed = false → r'.isBlank = true

theorem foldl_storeRow (p : Page) (n : Nat) :
    ((List.range n).foldl storeRow p).count = p.count ∧
      ((List.range n).foldl storeRow p).rows = p.rows ∧
      ((List.range n).foldl storeRow p).top ≤ max p.top (n - 1) ∧
      ∀ k, ((List.range n).foldl storeRow p).entries k =
        if k < n then entryOf (p.rows k) else p.entries k := by
  induction n with
  | zero => exact ⟨rfl, rfl, Nat.le_max_left _ _, fun k => rfl⟩
  | succ n ih =>
      obtain ⟨hcount, hrows, htop, hentries⟩ := ih
      rw [List.range_succ, List.foldl_append, List.foldl_cons, List.foldl_nil]
      refine ⟨hcount, hrows, ?_, ?_⟩
      · change max ((List.range n).foldl storeRow p).top n ≤ _
        omega
      · intro k
        change Function.update ((List.range n).foldl storeRow p).entries n
          (entryOf (((List.range n).foldl storeRow p).rows n)) k = _
        by_cases hk : k = n
        · rw [hk, Function.update_self, if_pos (by omega), hrows]
        · rw [Function.update_of_ne hk, hentries]
          by_cases hlt : k < n
          · rw [if_pos hlt, if_pos (by omega)]
          · rw [if_neg hlt, if_neg (by omega)]

/-- The stored entries: the rows that are not zeros, and then nothing. -/
theorem bubble_entries {p : Page} (hten : p.count ≤ 10)
    (hfree : ∀ k, p.count ≤ k → k < 10 → (p.entries k).isBlank = true) :
    ∃ rest : List Entry, (∀ e ∈ rest, e.isBlank = true) ∧
      cut (bubble ((List.range p.count).foldl storeRow p)).entries 0 10 =
        ((cut p.rows 0 p.count).filter fun r => !r.zeroed).map entryOf ++ rest := by
  obtain ⟨hcount, -, -, hentries⟩ := foldl_storeRow p p.count
  generalize (List.range p.count).foldl storeRow p = q at hcount hentries
  have hstored : cut q.entries 0 (q.count + 0 - 0) = (cut p.rows 0 p.count).map entryOf := by
    rw [Nat.add_zero, Nat.sub_zero, hcount, cut, cut, List.map_map]
    apply List.map_congr_left
    intro k hk
    have := List.mem_range'_1.mp hk
    rw [hentries, if_pos (by omega)]
    rfl
  obtain ⟨rest, hrest, hcut⟩ := closeUp_removes.squeeze_window
    (fun p i => show saveBlank (p.entries i) = saveBlank (p.entries i) from rfl) (by omega)
    (Nat.zero_le q.count) (show q.count - 0 ≤ q.count by omega)
    (show q.count + 0 ≤ 0 + 10 by omega)
  have hfilter : ((cut p.rows 0 p.count).map entryOf).filter (fun e => !saveBlank e) =
      ((cut p.rows 0 p.count).filter fun r => !r.zeroed).map entryOf := by
    rw [List.filter_map]
    congr 1
    apply List.filter_congr
    intro r _
    exact congrArg (!·) (saveBlank_entryOf r)
  rw [hstored, hfilter] at hcut
  refine ⟨rest, ?_, hcut⟩
  intro e he
  rcases hrest e he with rfl | ⟨hblank, hmem⟩ | ⟨k, hlo, hhi, rfl⟩
  · exact isBlank_blankEntry
  · rw [hstored] at hmem
    obtain ⟨r, -, rfl⟩ := List.mem_map.mp hmem
    rw [isBlank_entryOf]
    exact isBlank_of_zeroed ((saveBlank_entryOf r).symm.trans hblank)
  · rw [hentries, if_neg (by omega)]
    exact hfree k (by omega) (by omega)

/-- The filled rows are stored in front when no emptied row stands between them. -/
theorem packed_iff {entries : Nat → Entry} {count : Nat} {rows : Nat → Row} {rest : List Entry}
    (hcut : cut entries 0 10 = ((cut rows 0 count).filter fun r => !r.zeroed).map entryOf ++ rest)
    (hrest : ∀ e ∈ rest, e.isBlank = true) :
    (∃ rest : List Entry, (∀ e ∈ rest, e.isBlank = true) ∧
      cut entries 0 10 = (filledRows count rows).map entryOf ++ rest) ↔ NoGap count rows := by
  have hfilled : (cut entries 0 10).filter (fun e => !e.isBlank) =
      (filledRows count rows).map entryOf := by
    have hnone : rest.filter (fun e => !e.isBlank) = [] := by
      apply List.filter_eq_nil_iff.mpr
      intro e he
      simp [hrest e he]
    rw [hcut, List.filter_append, hnone, List.append_nil, List.filter_map, List.filter_filter,
      filledRows]
    congr 1
    apply List.filter_congr
    intro r _
    have hzero := @isBlank_of_zeroed r
    have hsame : (entryOf r).isBlank = r.isBlank := isBlank_entryOf r
    cases hz : r.zeroed <;> cases hb : r.isBlank <;> simp_all
  rw [← hfilled, eq_filter_append_iff, hcut, List.pairwise_append, List.pairwise_map,
    List.pairwise_filter, NoGap]
  constructor
  · rintro ⟨hrows, -, -⟩
    refine hrows.imp ?_
    intro r r' h hblank hzero
    by_contra hfull
    have hzero' : r'.zeroed = false := by
      cases hz : r'.zeroed
      · rfl
      · exact absurd (isBlank_of_zeroed hz) hfull
    rw [isBlank_entryOf, isBlank_entryOf] at h
    exact hfull (h (by simp [hzero]) (by simp [hzero']) hblank)
  · intro hrows
    refine ⟨hrows.imp ?_, List.pairwise_iff_forall_sublist.mpr fun hsub _ =>
      hrest _ (hsub.subset (by simp)), fun _ _ e he _ => hrest e he⟩
    intro r r' h hzero _ hblank
    rw [isBlank_entryOf] at hblank ⊢
    exact h hblank (by simpa using hzero)

/-! ## Runs -/

/-- No entry above 9 has been used, and a save that goes through has saved well. -/
def Lossless (p : Page) (e : Event) : Prop :=
  (step p e).top ≤ 9 ∧ match e with
    | .save rows => ∀ q, validateFormPortTri { p with rows := rows } = some q →
        SavedWell p.count rows q.entries
    | _ => True

/-- In an accepted save no emptied row stands before a filled one, and of the filled rows none
is read as blank, or they are at most five. -/
def Keeps (p : Page) : Event → Prop
  | .save rows => (∃ q, validateFormPortTri { p with rows := rows } = some q) →
      NoGap p.count rows ∧ ((filledRows p.count rows).length ≤ 5 ∨
        ∀ r ∈ filledRows p.count rows, loadBlank (entryOf r) = false)
  | _ => True

/-- The entries behind the rows shown are blank, and so it will be after the next load. -/
structure Sound (p : Page) : Prop where
  five_le : 5 ≤ p.count
  le_ten : p.count ≤ 10
  top_le : p.top ≤ 9
  free : ∀ k, p.count ≤ k → k < 10 → (p.entries k).isBlank = true
  visible : ∀ k, k < 10 → (p.stored k).isBlank = false → k < checkPtgDefaultCount p.stored

theorem checkPtgDefaultCount_range (entries : Nat → Entry) :
    5 ≤ checkPtgDefaultCount entries ∧ checkPtgDefaultCount entries ≤ 10 := by
  have hle : leading entries ≤ 10 := by
    have := (List.takeWhile_sublist (fun e => !loadBlank e) (l := cut entries 0 10)).length_le
    rwa [length_cut] at this
  unfold checkPtgDefaultCount
  split <;> omega

theorem top_load {p : Page} (htop : p.top ≤ 9) : (load p).top ≤ 9 := by
  have hrange := checkPtgDefaultCount_range p.stored
  change max (max p.top (min (leading p.stored) 9)) (checkPtgDefaultCount p.stored - 1) ≤ 9
  omega

theorem sound_load {p : Page} (htop : p.top ≤ 9)
    (hvisible : ∀ k, k < 10 → (p.stored k).isBlank = false →
      k < checkPtgDefaultCount p.stored) : Sound (load p) := by
  obtain ⟨hfive, hten⟩ := checkPtgDefaultCount_range p.stored
  have hcount : (load p).count = checkPtgDefaultCount p.stored := rfl
  refine ⟨hfive, hten, top_load htop, ?_, hvisible⟩
  intro k hk h10
  by_contra hblank
  have hlt := hvisible k h10 (Bool.eq_false_iff.mpr hblank)
  omega

theorem sound_init : Sound init := by
  apply sound_load (by decide)
  intro k _ hblank
  exact absurd (hblank.symm.trans (show emptyEntry.isBlank = true by decide)) Bool.false_ne_true

theorem sound_foldlM_moreRow {l : List Nat} {p : Page} (hp : Sound p) (hl : ∀ i ∈ l, i < p.count) :
    match l.foldlM moreRow p with
      | .ok q => Sound q
      | .error q => Sound q := by
  induction l generalizing p with
  | nil => exact hp
  | cons i rest ih =>
      have hi := hl i List.mem_cons_self
      rw [List.foldlM_cons]
      by_cases hname : (p.rows i).appName = []
      · have hrow : moreRow p i = .error p := by
          rw [moreRow, if_pos hname]
        rw [hrow]
        exact hp
      · have hrow : moreRow p i = .ok (storeRow p i) := by
          rw [moreRow, if_neg hname]
        have htop := hp.top_le
        have hten := hp.le_ten
        have hstored : Sound (storeRow p i) := by
          refine ⟨hp.five_le, hten, ?_, ?_, hp.visible⟩
          · change max p.top i ≤ 9
            omega
          · intro k hk h10
            have hk' : p.count ≤ k := hk
            have hentry : (storeRow p i).entries k = p.entries k :=
              Function.update_of_ne (by omega) _ _
            rw [hentry]
            exact hp.free k hk' h10
        rw [hrow]
        exact ih hstored fun j hj => hl j (List.mem_cons_of_mem i hj)

theorem Sound.setRows {p : Page} (hp : Sound p) (rows : Nat → Row) : Sound { p with rows := rows } :=
  ⟨hp.five_le, hp.le_ten, hp.top_le, hp.free, hp.visible⟩

theorem Sound.more {p : Page} (hp : Sound p) (rows : Nat → Row) :
    Sound (morePtg { p with rows := rows }) := by
  have hfold := sound_foldlM_moreRow (hp.setRows rows) (l := List.range p.count)
    fun i hi => List.mem_range.mp hi
  unfold morePtg
  split
  · next q hq =>
    rw [hq] at hfold
    exact hfold
  · next q hq =>
    rw [hq] at hfold
    split
    · next hle =>
      refine ⟨Nat.le_succ_of_le hfold.five_le, hle, ?_, ?_, hfold.visible⟩
      · change max q.top q.count ≤ 9
        have htop : q.top ≤ 9 := hfold.top_le
        omega
      · intro k hk h10
        exact hfold.free k (Nat.le_of_succ_le hk) h10
    · exact hfold

/-- What a save stores is saved well exactly when the filled rows stay together and the loader
does not stop at one of them. -/
theorem savedWell_iff {p q : Page} {rest : List Entry} {rows : Nat → Row}
    (hcut : cut q.entries 0 10 =
      ((cut rows 0 p.count).filter fun r => !r.zeroed).map entryOf ++ rest)
    (hrest : ∀ e ∈ rest, e.isBlank = true) :
    SavedWell p.count rows q.entries ↔ NoGap p.count rows ∧
      ((filledRows p.count rows).length ≤ 5 ∨
        ∀ r ∈ filledRows p.count rows, loadBlank (entryOf r) = false) := by
  have hfilled : ∀ e ∈ (filledRows p.count rows).map entryOf, e.isBlank = false := by
    intro e he
    obtain ⟨r, hr, rfl⟩ := List.mem_map.mp he
    rw [isBlank_entryOf]
    simpa using (List.mem_filter.mp hr).2
  rw [← packed_iff hcut hrest]
  constructor
  · intro h
    refine ⟨h.packed, ?_⟩
    obtain ⟨rest', hrest', hcut'⟩ := h.packed
    have hvisible := (visible_iff hcut' hfilled hrest').mp h.visible
    rwa [List.length_map, List.forall_mem_map] at hvisible
  · rintro ⟨⟨rest', hrest', hcut'⟩, hcounted⟩
    refine ⟨⟨rest', hrest', hcut'⟩, (visible_iff hcut' hfilled hrest').mpr ?_⟩
    rwa [List.length_map, List.forall_mem_map]

theorem Sound.refused {p : Page} (hp : Sound p) {rows : Nat → Row}
    (hrefused : validateFormPortTri { p with rows := rows } = none) :
    (Lossless p (.save rows) ↔ Keeps p (.save rows)) ∧
      (Keeps p (.save rows) → Sound (step p (.save rows))) := by
  have hstep : step p (.save rows) = { p with rows := rows } := by
    rw [step, hrefused]
  have hnone : ∀ q, validateFormPortTri { p with rows := rows } ≠ some q := by
    intro q hq
    rw [hrefused] at hq
    contradiction
  have hlossless : Lossless p (.save rows) := by
    refine ⟨?_, fun q hq => absurd hq (hnone q)⟩
    rw [hstep]
    exact hp.top_le
  have hkeeps : Keeps p (.save rows) := by
    rintro ⟨q, hq⟩
    exact absurd hq (hnone q)
  rw [hstep]
  exact ⟨iff_of_true hlossless hkeeps, fun _ => hp.setRows rows⟩

/-- Saving stays within the entries; it saves well exactly when the filled rows stay together
and the loader does not stop at one of them. -/
theorem Sound.save {p : Page} (hp : Sound p) (rows : Nat → Row) :
    (Lossless p (.save rows) ↔ Keeps p (.save rows)) ∧
      (Keeps p (.save rows) → Sound (step p (.save rows))) := by
  by_cases haccepted : (List.range p.count).all fun i => rowAccepted (rows i)
  · obtain ⟨q, hq⟩ : ∃ q, q = (List.range p.count).foldl storeRow { p with rows := rows } :=
      ⟨_, rfl⟩
    have hform : validateFormPortTri { p with rows := rows } = some (bubble q) := by
      rw [validateFormPortTri, if_pos haccepted, hq]
    have hstep : step p (.save rows) = load { bubble q with stored := (bubble q).entries } := by
      rw [step, hform]
    have htop : (bubble q).top ≤ 9 := by
      obtain ⟨hcount, -, hqtop, -⟩ := foldl_storeRow { p with rows := rows } p.count
      rw [← hq] at hcount hqtop
      have hbubble : (bubble q).top ≤ max q.top (q.count - 1) := top_bubble q
      have hptop := hp.top_le
      have hten := hp.le_ten
      dsimp only at hcount hqtop
      omega
    obtain ⟨rest, hrest, hcut⟩ := bubble_entries (hp.setRows rows).le_ten (hp.setRows rows).free
    rw [← hq] at hcut
    have hsaved := savedWell_iff (p := p) hcut hrest
    constructor
    · constructor
      · intro h _
        exact hsaved.mp (h.2 _ hform)
      · intro h
        refine ⟨?_, fun r hr => ?_⟩
        · rw [hstep]
          exact top_load htop
        · rw [hform] at hr
          rw [← Option.some.inj hr]
          exact hsaved.mpr (h ⟨_, hform⟩)
    · intro h
      rw [hstep]
      exact sound_load htop (hsaved.mpr (h ⟨_, hform⟩)).visible
  · apply hp.refused
    rw [validateFormPortTri, if_neg haccepted]

theorem sound_step {p : Page} (hp : Sound p) (e : Event) :
    (Lossless p e ↔ Keeps p e) ∧ (Keeps p e → Sound (step p e)) := by
  cases e with
  | load =>
      have hsound : Sound (load p) := sound_load hp.top_le hp.visible
      exact ⟨⟨fun _ => trivial, fun _ => ⟨hsound.top_le, trivial⟩⟩, fun _ => hsound⟩
  | more rows =>
      have hsound := hp.more rows
      exact ⟨⟨fun _ => trivial, fun _ => ⟨hsound.top_le, trivial⟩⟩, fun _ => hsound⟩
  | save rows => exact hp.save rows

/-- A run over an initially empty table loses nothing exactly when each of its steps keeps. -/
theorem along_lossless_iff (events : List Event) :
    Along step Lossless init events ↔ Along step Keeps init events := by
  have hiff : ∀ p e, Sound p → (Lossless p e ↔ Keeps p e) := fun p e hp => (sound_step hp e).1
  have hkeep : ∀ p e, Sound p → Keeps p e → Sound (step p e) := fun p e hp => (sound_step hp e).2
  exact along_congr hiff hkeep sound_init

end Xwr100.Www.Trigger
