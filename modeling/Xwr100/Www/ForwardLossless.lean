import Xwr100.Www.PortForward

/-! # What saving keeps of the forwarding table

The rows that are not blank are stored in their order whatever they hold.  Loading counts
only the entries that have a description or are enabled, so the entries behind the ones it
counted may stay out of sight; and the "more" link offers a sixteenth row, which has no entry.
-/

namespace Xwr100.Www.Forward

open Lib

variable {lan : Text}

/-! ## Pages that a loop leaves behind -/

/-- The page that a function leaves, whether it refuses or not. -/
def leave : Except Page Page → Page
  | .ok p => p
  | .error p => p

/-- What working on row `i` may change. -/
structure Writes (i : Nat) (p q : Page) : Prop where
  count_eq : q.count = p.count
  stored_eq : q.stored = p.stored
  rows_eq : ∀ k, k ≠ i → q.rows k = p.rows k
  entries_eq : ∀ k, k ≠ i → q.entries k = p.entries k
  top_le : q.top ≤ max p.top i

namespace Writes

variable {i : Nat} {p q r : Page}

theorem refl (i : Nat) (p : Page) : Writes i p p :=
  ⟨rfl, rfl, fun _ _ => rfl, fun _ _ => rfl, Nat.le_max_left _ _⟩

theorem trans (h : Writes i p q) (h' : Writes i q r) : Writes i p r where
  count_eq := h'.count_eq.trans h.count_eq
  stored_eq := h'.stored_eq.trans h.stored_eq
  rows_eq k hk := (h'.rows_eq k hk).trans (h.rows_eq k hk)
  entries_eq k hk := (h'.entries_eq k hk).trans (h.entries_eq k hk)
  top_le := by
    have h1 := h.top_le
    have h2 := h'.top_le
    omega

end Writes

theorem writeEntry_writes (p : Page) (i : Nat) (e : Entry) : Writes i p (leave (writeEntry p i e)) := by
  unfold writeEntry
  split
  · exact ⟨rfl, rfl, fun _ _ => rfl, fun _ _ => rfl, Nat.le_refl _⟩
  · exact ⟨rfl, rfl, fun _ _ => rfl, fun k hk => Function.update_of_ne hk _ _, Nat.le_refl _⟩

/-- Going on after a function keeps to the row if both do. -/
theorem bind_writes {i : Nat} {p : Page} {x : Except Page Page} {f : Page → Except Page Page}
    (hx : Writes i p (leave x)) (hf : ∀ q, x = .ok q → Writes i q (leave (f q))) :
    Writes i p (leave (x >>= f)) := by
  cases x with
  | error q => exact hx
  | ok q => exact hx.trans (hf q rfl)

theorem finishRow_writes (p : Page) (i : Nat) : Writes i p (leave (finishRow lan p i)) := by
  apply bind_writes (writeEntry_writes p i _)
  intro q _
  split <;> exact Writes.refl i q

theorem finishDisabled_writes (p : Page) (i : Nat) :
    Writes i p (leave (finishDisabled lan p i)) := by
  unfold finishDisabled
  split
  · exact Writes.refl i p
  · split
    · exact Writes.refl i p
    · exact finishRow_writes p i

theorem blankPorts_writes (p : Page) (i : Nat) : Writes i p (leave (blankPorts p i)) := by
  have hrow : ∀ r, Writes i p { p with rows := Function.update p.rows i r } := fun r =>
    ⟨rfl, rfl, fun k hk => Function.update_of_ne hk _ _, fun _ _ => rfl, Nat.le_max_left _ _⟩
  exact (hrow _).trans (writeEntry_writes _ i _)

theorem validateRow_writes (p : Page) (i : Nat) : Writes i p (leave (validateRow lan p i)) := by
  unfold validateRow
  split
  · exact Writes.refl i p
  · split
    · exact Writes.refl i p
    · split
      · exact Writes.refl i p
      · split
        · split
          · exact Writes.refl i p
          · split
            · exact Writes.refl i p
            · exact finishRow_writes p i
        · split
          · exact bind_writes (blankPorts_writes p i) fun q _ => finishDisabled_writes q i
          · exact finishDisabled_writes p i

theorem moreRow_writes (p : Page) (i : Nat) : Writes i p (leave (moreRow lan p i)) := by
  unfold moreRow
  split
  · exact Writes.refl i p
  · exact writeEntry_writes p i _

/-- What a loop over rows up to `m` may change. -/
structure Within (m : Nat) (p q : Page) : Prop where
  count_eq : q.count = p.count
  stored_eq : q.stored = p.stored
  rows_eq : ∀ k, m < k → q.rows k = p.rows k
  entries_eq : ∀ k, m < k → q.entries k = p.entries k
  top_le : q.top ≤ max p.top m

theorem foldlM_within {f : Page → Nat → Except Page Page}
    (hf : ∀ p i, Writes i p (leave (f p i))) {m : Nat} {l : List Nat} (hl : ∀ i ∈ l, i ≤ m)
    (p : Page) : Within m p (leave (l.foldlM f p)) := by
  induction l generalizing p with
  | nil => exact ⟨rfl, rfl, fun _ _ => rfl, fun _ _ => rfl, Nat.le_max_left _ _⟩
  | cons i rest ih =>
      have hi := hl i List.mem_cons_self
      have hstep := hf p i
      have htop := hstep.top_le
      rw [List.foldlM_cons]
      cases hr : f p i with
      | error q =>
          rw [hr] at hstep htop
          exact ⟨hstep.count_eq, hstep.stored_eq, fun k hk => hstep.rows_eq k (by omega),
            fun k hk => hstep.entries_eq k (by omega), Nat.le_trans htop (by omega)⟩
      | ok q =>
          rw [hr] at hstep htop
          have hrest := ih (fun j hj => hl j (List.mem_cons_of_mem i hj)) q
          exact ⟨hrest.count_eq.trans hstep.count_eq, hrest.stored_eq.trans hstep.stored_eq,
            fun k hk => (hrest.rows_eq k hk).trans (hstep.rows_eq k (by omega)),
            fun k hk => (hrest.entries_eq k hk).trans (hstep.entries_eq k (by omega)),
            Nat.le_trans hrest.top_le (by simp only [leave] at htop; omega)⟩

/-! ## Rows that are accepted -/

/-- A row as it is stored: two zeros of a disabled row are emptied. -/
def emptied (r : Row) : Row :=
  if r.enable = false ∧ r.external = ['0'] ∧ r.internal = ['0'] then
    { r with external := [], internal := [] }
  else r

def PortsOk (r : Row) : Prop :=
  if r.enable then portCheck r.external ∧ portCheck r.internal
  else portCheck1 r.external ∧ portCheck1 r.internal

theorem writeEntry_ok {p q : Page} {i : Nat} {e : Entry} (h : writeEntry p i e = .ok q) :
    i ≤ 15 ∧ q = { p.touch i with entries := Function.update p.entries i e } := by
  unfold writeEntry at h
  split at h
  · contradiction
  · exact ⟨by omega, (Except.ok.inj h).symm⟩

theorem bind_ok {x : Except Page Page} {f : Page → Except Page Page} {q : Page}
    (h : x >>= f = .ok q) : ∃ r, x = .ok r ∧ f r = .ok q := by
  cases x with
  | error r => cases h
  | ok r => exact ⟨r, rfl, h⟩

theorem finishRow_ok {p q : Page} {i : Nat} (h : finishRow lan p i = .ok q) :
    i ≤ 15 ∧ q.entries i = entryOf lan (p.rows i) := by
  obtain ⟨r, hr, hq⟩ := bind_ok h
  obtain ⟨hi, rfl⟩ := writeEntry_ok hr
  split at hq
  · rw [← Except.ok.inj hq]
    exact ⟨hi, Function.update_self _ _ _⟩
  · contradiction

theorem finishDisabled_ok {p q : Page} {i : Nat} (h : finishDisabled lan p i = .ok q) :
    i ≤ 15 ∧ q.entries i = entryOf lan (p.rows i) ∧
      (3 < i → portCheck1 (p.rows i).external ∧ portCheck1 (p.rows i).internal) := by
  unfold finishDisabled at h
  split at h
  · contradiction
  · next hports =>
    split at h
    · contradiction
    · obtain ⟨hi, hentry⟩ := finishRow_ok h
      refine ⟨hi, hentry, ?_⟩
      intro hi3
      simpa [hi3] using hports

theorem blankPorts_ok {p q : Page} {i : Nat} (hr : (p.rows i).enable = false)
    (h : blankPorts p i = .ok q) : q.rows i = emptied (p.rows i) := by
  obtain ⟨_, rfl⟩ := writeEntry_ok h
  simp [Page.touch, emptied, hr]

/-- An accepted row has been stored, and from the fourth on its ports are right. -/
theorem validateRow_ok {p q : Page} {i : Nat} (h : validateRow lan p i = .ok q) :
    i ≤ 15 ∧ (3 < i → q.entries i = entryOf lan (emptied (p.rows i)) ∧
      PortsOk (emptied (p.rows i))) := by
  unfold validateRow at h
  split at h
  · contradiction
  · split at h
    · contradiction
    · split at h
      · contradiction
      · split at h
        · next henable =>
          split at h
          · contradiction
          · next hports =>
            split at h
            · contradiction
            · obtain ⟨hi, hentry⟩ := finishRow_ok h
              refine ⟨hi, fun hi3 => ?_⟩
              have hsame : emptied (p.rows i) = p.rows i := by simp [emptied, henable]
              rw [hsame]
              refine ⟨hentry, ?_⟩
              rw [PortsOk, if_pos henable]
              simpa [hi3] using hports
        · next henable =>
          have hdisabled : (p.rows i).enable = false := by simpa using henable
          split at h
          · obtain ⟨r, hr, hq⟩ := bind_ok h
            obtain ⟨hi, hentry, hports⟩ := finishDisabled_ok hq
            rw [blankPorts_ok hdisabled hr] at hentry hports
            have hoff : ¬(emptied (p.rows i)).enable = true := by
              unfold emptied
              split <;> exact henable
            refine ⟨hi, fun hi3 => ⟨hentry, ?_⟩⟩
            rw [PortsOk, if_neg hoff]
            exact hports hi3
          · next hi3 => exact ⟨(finishDisabled_ok h).1, fun h3 => absurd h3 hi3⟩

/-- The rows that have been gone through without a refusal. -/
theorem foldlM_validateRow_ok {p q : Page} {n : Nat}
    (h : (List.range' 1 n).foldlM (validateRow lan) p = .ok q) :
    n ≤ 15 ∧ ∀ k, 4 ≤ k → k ≤ n →
      q.entries k = entryOf lan (emptied (p.rows k)) ∧ PortsOk (emptied (p.rows k)) := by
  induction n generalizing q with
  | zero => exact ⟨by omega, fun k h4 h0 => absurd h0 (by omega)⟩
  | succ n ih =>
      rw [List.range'_concat, List.foldlM_append, Nat.one_mul, Nat.add_comm 1 n] at h
      simp only [List.foldlM_cons, List.foldlM_nil, bind_pure] at h
      obtain ⟨r, hr, hlast⟩ := bind_ok h
      have hwithin : Within n p r := by
        have hle : ∀ i ∈ List.range' 1 n, i ≤ n := by
          intro i hi
          have := List.mem_range'_1.mp hi
          omega
        have hrange := foldlM_within (@validateRow_writes lan) hle p
        rwa [hr] at hrange
      obtain ⟨hi, hentry⟩ := validateRow_ok hlast
      have hwrites : Writes (n + 1) r q := by
        have hrow := @validateRow_writes lan r (n + 1)
        rwa [hlast] at hrow
      refine ⟨hi, ?_⟩
      intro k h4 hk
      by_cases hkn : k = n + 1
      · have hsame := hentry (by omega)
        rw [hwithin.rows_eq (n + 1) (by omega)] at hsame
        rw [hkn]
        exact hsame
      · rw [hwrites.entries_eq k hkn]
        exact (ih hr).2 k h4 (by omega)

/-! ## Blank rows and blank entries -/

def Row.isBlank (r : Row) : Bool :=
  r.description == [] && (r.external == [] || r.external == ['0']) &&
    (r.internal == [] || r.internal == ['0']) && !r.enable

def Entry.isBlank (e : Entry) : Bool :=
  e.spdesc == [] && (e.spexp == [] || e.spexp == ['0']) &&
    (e.spinp == [] || e.spinp == ['0']) && (e.spen == ['0'] || e.spen == [])

def storedEntry (lan : Text) (r : Row) : Entry := entryOf lan (emptied r)

theorem isBlank_blankEntry : blankEntry.isBlank = true := by decide

theorem loadBlank_of_isBlank {e : Entry} (h : e.isBlank = true) : loadBlank e = true := by
  simp only [Entry.isBlank, Bool.and_eq_true] at h
  rw [loadBlank, Bool.and_eq_true]
  exact ⟨h.1.1.1, h.2⟩

/-- For an accepted row the test made when saving, the one on the stored entry and the one on
the row say the same. -/
theorem blank_tests {r : Row} (h : PortsOk (emptied r)) :
    saveBlank (storedEntry lan r) = r.isBlank ∧ (storedEntry lan r).isBlank = r.isBlank := by
  by_cases henable : r.enable = true
  · have hsame : emptied r = r := by simp [emptied, henable]
    simp [storedEntry, hsame, saveBlank, entryOf, Entry.isBlank, Row.isBlank, henable]
  · have hoff : r.enable = false := by simpa using henable
    by_cases hzero : r.external = ['0'] ∧ r.internal = ['0']
    · simp [storedEntry, emptied, saveBlank, entryOf, Entry.isBlank, Row.isBlank, hoff, hzero]
    · have hsame : emptied r = r := by simp [emptied, hzero]
      rw [hsame, PortsOk, if_neg henable] at h
      have hne : ∀ t, portCheck1 t → (t == ['0']) = false := by
        intro t ht
        apply beq_eq_false_iff_ne.mpr
        rintro rfl
        exact absurd ht (by decide)
      simp [storedEntry, hsame, saveBlank, entryOf, Entry.isBlank, Row.isBlank, hoff,
        hne _ h.1, hne _ h.2]

/-- A stored row is counted by the loader when it has a description or is enabled. -/
theorem loadBlank_storedEntry (r : Row) :
    loadBlank (storedEntry lan r) = (r.description == [] && !r.enable) := by
  have hdesc : (emptied r).description = r.description := by
    unfold emptied
    split <;> rfl
  have henable : (emptied r).enable = r.enable := by
    unfold emptied
    split <;> rfl
  cases hr : r.enable <;> simp [loadBlank, storedEntry, entryOf, hdesc, henable, hr]

/-! ## Closing up -/

theorem count_foldl_shiftStep (i n : Nat) (p : Page) :
    ((List.range' i n).foldl shiftStep p).count = p.count :=
  @foldl_slide_eq _ _ Page.count shiftStep (fun _ _ => rfl) _ p

theorem count_closeUp (i : Nat) (p : Page) : (closeUp i p).count = p.count - 1 := by
  change ((List.range' i (p.count - i)).foldl shiftStep p).count - 1 = _
  rw [count_foldl_shiftStep]

theorem top_closeUp (i : Nat) (p : Page) (hi : i < p.count) :
    (closeUp i p).top ≤ max p.top p.count := by
  have htop := @foldl_slide_high _ Page.top shiftStep (fun _ _ => rfl) i (p.count - i) p
  have hcount := count_foldl_shiftStep i (p.count - i) p
  change max ((List.range' i (p.count - i)).foldl shiftStep p).top
    ((List.range' i (p.count - i)).foldl shiftStep p).count ≤ _
  omega

theorem closeUp_removes : Removes Page.count closeUp Page.entries 1 blankEntry := by
  apply @Removes.of_slide _ _ _ _ _ _ _ shiftStep (fun _ _ => rfl) count_closeUp
  intro i p
  change Function.update ((List.range' i (p.count - i)).foldl shiftStep p).entries
    ((List.range' i (p.count - i)).foldl shiftStep p).count blankEntry = _
  rw [count_foldl_shiftStep, Nat.add_sub_cancel]

theorem top_bubble (p : Page) : (bubble p).top ≤ max p.top p.count :=
  @squeeze_high _ _ _ _ Page.top 0 count_closeUp top_closeUp p.count 4 p

/-! ## What is stored, and what of it is shown -/

def filledRows (count : Nat) (rows : Nat → Row) : List Row :=
  (cut rows 4 (count - 3)).filter fun r => !r.isBlank

/-- The entries hold the filled rows in their order and then nothing, and the rows that loading
will show reach as far as the entries that say something. -/
structure SavedWell (lan : Text) (count : Nat) (rows : Nat → Row) (entries : Nat → Entry) : Prop where
  packed : ∃ rest : List Entry, (∀ e ∈ rest, e.isBlank = true) ∧
    cut entries 4 12 = (filledRows count rows).map (storedEntry lan) ++ rest
  visible : ∀ k, 4 ≤ k → k ≤ 15 → (entries k).isBlank = false → k ≤ checkPfwDefaultCount entries

/-- The loader counts all filled entries, or there are no more than it shows anyway. -/
theorem visible_iff {entries : Nat → Entry} {filled rest : List Entry}
    (hcut : cut entries 4 12 = filled ++ rest) (hfilled : ∀ e ∈ filled, e.isBlank = false)
    (hrest : ∀ e ∈ rest, e.isBlank = true) :
    (∀ k, 4 ≤ k → k ≤ 15 → (entries k).isBlank = false → k ≤ checkPfwDefaultCount entries) ↔
      filled.length ≤ 3 ∨ ∀ e ∈ filled, loadBlank e = false := by
  have hcounted : (cut entries 4 12).countP (fun e => !loadBlank e) =
      filled.countP fun e => !loadBlank e := by
    have hnone : rest.countP (fun e => !loadBlank e) = 0 := by
      apply List.countP_eq_zero.mpr
      intro e he
      simp [loadBlank_of_isBlank (hrest e he)]
    rw [hcut, List.countP_append, hnone, Nat.add_zero]
  have hlast : (∀ k, 4 ≤ k → k ≤ 15 → (entries k).isBlank = false →
      k ≤ checkPfwDefaultCount entries) ↔ filled.length ≤ checkPfwDefaultCount entries - 3 := by
    rw [← filled_lt_iff hcut hfilled hrest]
    constructor
    · intro h k hk hblank
      have := h (4 + k) (by omega) (by omega) hblank
      omega
    · intro h k h4 h15 hblank
      have := h (k - 4) (by omega) (by rwa [Nat.add_sub_cancel' h4])
      omega
  have hle := List.countP_le_length (p := fun e => !loadBlank e) (l := filled)
  have hall : filled.countP (fun e => !loadBlank e) = filled.length ↔
      ∀ e ∈ filled, loadBlank e = false := by
    rw [List.countP_eq_length]
    simp
  rw [hlast, ← hall, checkPfwDefaultCount, hcounted]
  split <;> omega

theorem filled_not_blank {rows : List Row} (h : ∀ r ∈ rows, PortsOk (emptied r)) :
    ∀ e ∈ (rows.filter fun r => !r.isBlank).map (storedEntry lan), e.isBlank = false := by
  intro e he
  obtain ⟨r, hr, rfl⟩ := List.mem_map.mp he
  obtain ⟨hmem, hblank⟩ := List.mem_filter.mp hr
  rw [(blank_tests (h r hmem)).2]
  simpa using hblank

/-- The stored entries after the rows have been gone through and closed up. -/
theorem bubble_packed {p q : Page} (h6 : 6 ≤ p.count)
    (hfree : ∀ k, p.count < k → k ≤ 15 → (p.entries k).isBlank = true)
    (h : (List.range' 1 p.count).foldlM (validateRow lan) p = .ok q) :
    (∀ r ∈ cut p.rows 4 (p.count - 3), PortsOk (emptied r)) ∧
      ∃ rest : List Entry, (∀ e ∈ rest, e.isBlank = true) ∧
        cut (bubble q).entries 4 12 =
          (filledRows p.count p.rows).map (storedEntry lan) ++ rest := by
  obtain ⟨h15, hrows⟩ := foldlM_validateRow_ok h
  have hwithin : Within p.count p q := by
    have hle : ∀ i ∈ List.range' 1 p.count, i ≤ p.count := by
      intro i hi
      have := List.mem_range'_1.mp hi
      omega
    have hrange := foldlM_within (@validateRow_writes lan) hle p
    rwa [h] at hrange
  have hcount := hwithin.count_eq
  have hports : ∀ r ∈ cut p.rows 4 (p.count - 3), PortsOk (emptied r) := by
    intro r hr
    obtain ⟨k, hk, rfl⟩ := List.mem_map.mp hr
    obtain ⟨h4, hlt⟩ := List.mem_range'_1.mp hk
    exact (hrows k h4 (by omega)).2
  refine ⟨hports, ?_⟩
  have hstored : cut q.entries 4 (q.count + 1 - 4) =
      (cut p.rows 4 (p.count - 3)).map (storedEntry lan) := by
    rw [hcount, show p.count + 1 - 4 = p.count - 3 by omega, cut, cut, List.map_map]
    apply List.map_congr_left
    intro k hk
    obtain ⟨h4, hlt⟩ := List.mem_range'_1.mp hk
    exact (hrows k h4 (by omega)).1
  obtain ⟨rest, hrest, hcut⟩ := closeUp_removes.squeeze_window
    (fun p i => show saveBlank (p.entries i) = saveBlank (p.entries i) from rfl) (by omega)
    (show 4 ≤ q.count by omega) (show q.count - 4 ≤ q.count by omega)
    (show q.count + 1 ≤ 4 + 12 by omega)
  have hfilter : ((cut p.rows 4 (p.count - 3)).map (storedEntry lan)).filter
      (fun e => !saveBlank e) = (filledRows p.count p.rows).map (storedEntry lan) := by
    rw [List.filter_map, filledRows]
    congr 1
    apply List.filter_congr
    intro r hr
    exact congrArg (!·) (blank_tests (hports r hr)).1
  rw [hstored, hfilter] at hcut
  refine ⟨rest, ?_, hcut⟩
  intro e he
  rcases hrest e he with rfl | ⟨hblank, _⟩ | ⟨k, hlo, hhi, rfl⟩
  · exact isBlank_blankEntry
  · simp only [saveBlank, Bool.and_eq_true, beq_iff_eq] at hblank
    simp [Entry.isBlank, hblank]
  · rw [hwithin.entries_eq k (by omega)]
    exact hfree k (by omega) (by omega)

/-! ## Runs -/

/-- No entry above 15 has been used, and a save that goes through has saved well. -/
def Lossless (lan : Text) (p : Page) (e : Event) : Prop :=
  (step lan p e).top ≤ 15 ∧ match e with
    | .save rows => ∀ q, validateFormPortFor lan { p with rows := rows } = .ok q →
        SavedWell lan p.count rows q.entries
    | _ => True

/-- No sixteenth row is asked for; and of the filled rows of an accepted save each has a
description or is enabled, or they are at most three. -/
def Keeps (lan : Text) (p : Page) : Event → Prop
  | .load => True
  | .more rows => ¬(p.count = 15 ∧ ∀ i, 4 ≤ i → i ≤ 15 → (rows i).description ≠ [])
  | .save rows => (∃ q, validateFormPortFor lan { p with rows := rows } = .ok q) →
      (filledRows p.count rows).length ≤ 3 ∨
        ∀ r ∈ filledRows p.count rows, r.description ≠ [] ∨ r.enable = true

/-- The entries behind the rows shown are blank, and so it will be after the next load. -/
structure Sound (p : Page) : Prop where
  six_le : 6 ≤ p.count
  le_fifteen : p.count ≤ 15
  top_le : p.top ≤ 15
  free : ∀ k, p.count < k → k ≤ 15 → (p.entries k).isBlank = true
  visible : ∀ k, 4 ≤ k → k ≤ 15 → (p.stored k).isBlank = false → k ≤ checkPfwDefaultCount p.stored

theorem checkPfwDefaultCount_range (entries : Nat → Entry) :
    6 ≤ checkPfwDefaultCount entries ∧ checkPfwDefaultCount entries ≤ 15 := by
  have hle := List.countP_le_length (p := fun e => !loadBlank e) (l := cut entries 4 12)
  rw [length_cut] at hle
  rw [checkPfwDefaultCount]
  split <;> omega

theorem sound_load {p : Page} (htop : p.top ≤ 15)
    (hvisible : ∀ k, 4 ≤ k → k ≤ 15 → (p.stored k).isBlank = false →
      k ≤ checkPfwDefaultCount p.stored) : Sound (load p) := by
  obtain ⟨hsix, hfifteen⟩ := checkPfwDefaultCount_range p.stored
  have hcount : (load p).count = checkPfwDefaultCount p.stored := rfl
  refine ⟨hsix, hfifteen, ?_, ?_, hvisible⟩
  · change max (max p.top 15) (checkPfwDefaultCount p.stored) ≤ 15
    omega
  · intro k hk h15
    by_contra hblank
    have hle := hvisible k (by omega) h15 (Bool.eq_false_iff.mpr hblank)
    omega

theorem sound_init : Sound init := by
  apply sound_load (by decide)
  intro k _ _ hblank
  exact absurd (hblank.symm.trans isBlank_blankEntry) Bool.false_ne_true

/-- Storing the rows goes through exactly when each has a description. -/
theorem foldlM_moreRow_ok {l : List Nat} (hl : ∀ i ∈ l, i ≤ 15) (p : Page) :
    (∃ q, l.foldlM (moreRow lan) p = .ok q) ↔ ∀ i ∈ l, (p.rows i).description ≠ [] := by
  induction l generalizing p with
  | nil => exact ⟨fun _ i hi => absurd hi List.not_mem_nil, fun _ => ⟨p, rfl⟩⟩
  | cons i rest ih =>
      have hi := hl i List.mem_cons_self
      rw [List.foldlM_cons]
      by_cases hdesc : (p.rows i).description = []
      · have hrow : moreRow lan p i = .error p := by
          rw [moreRow, if_pos hdesc]
        rw [hrow]
        constructor
        · rintro ⟨q, hq⟩
          cases hq
        · intro h
          exact absurd hdesc (h i List.mem_cons_self)
      · have hrow : moreRow lan p i = .ok { p.touch i with
            entries := Function.update p.entries i (entryOf lan (p.rows i)) } := by
          rw [moreRow, if_neg hdesc, writeEntry, if_neg (by omega)]
        rw [hrow]
        refine (ih (fun j hj => hl j (List.mem_cons_of_mem i hj)) _).trans ?_
        rw [List.forall_mem_cons]
        exact ⟨fun h => ⟨hdesc, h⟩, fun h => h.2⟩

theorem Sound.within {p q : Page} (hp : Sound p) {rows : Nat → Row}
    (h : Within p.count { p with rows := rows } q) : Sound q where
  six_le := h.count_eq ▸ hp.six_le
  le_fifteen := h.count_eq ▸ hp.le_fifteen
  top_le := by
    have htop : q.top ≤ max p.top p.count := h.top_le
    have hp15 := hp.le_fifteen
    have hptop := hp.top_le
    omega
  free k hk h15 := by
    have hcount : q.count = p.count := h.count_eq
    have hentry : q.entries k = p.entries k := h.entries_eq k (by omega)
    rw [hentry]
    exact hp.free k (by omega) h15
  visible := by
    have hstored : q.stored = p.stored := h.stored_eq
    rw [hstored]
    exact hp.visible

theorem Sound.addRow {p : Page} (hp : Sound p) (hlt : p.count < 15) :
    Sound { p.touch (p.count + 1) with count := p.count + 1 } where
  six_le := Nat.le_succ_of_le hp.six_le
  le_fifteen := hlt
  top_le := Nat.max_le.mpr ⟨hp.top_le, hlt⟩
  free k hk h15 := hp.free k (Nat.lt_of_succ_lt hk) h15
  visible := hp.visible

/-- The "more" link stays within the entries unless it adds a sixteenth row. -/
theorem Sound.more {p : Page} (hp : Sound p) (rows : Nat → Row) :
    ((morePfw lan { p with rows := rows }).top ≤ 15 ↔ Keeps lan p (.more rows)) ∧
      (Keeps lan p (.more rows) → Sound (morePfw lan { p with rows := rows })) := by
  have hsix := hp.six_le
  have hfifteen := hp.le_fifteen
  have hrange : ∀ i ∈ List.range' 4 (p.count - 3), i ≤ p.count := by
    intro i hi
    have := List.mem_range'_1.mp hi
    omega
  have hwithin := foldlM_within (@moreRow_writes lan) hrange { p with rows := rows }
  have hok := @foldlM_moreRow_ok lan _ (fun i hi => Nat.le_trans (hrange i hi) hfifteen)
    { p with rows := rows }
  have hsound := hp.within hwithin
  unfold morePfw
  cases hfold : (List.range' 4 (p.count - 3)).foldlM (moreRow lan) { p with rows := rows } with
  | error q =>
      rw [hfold] at hsound hok
      have hkeeps : Keeps lan p (.more rows) := by
        rintro ⟨hcount, hdesc⟩
        have hall : ∀ i ∈ List.range' 4 (p.count - 3), (rows i).description ≠ [] := by
          intro i hi
          have := List.mem_range'_1.mp hi
          exact hdesc i (by omega) (by omega)
        obtain ⟨r, hr⟩ := hok.mpr hall
        cases hr
      exact ⟨⟨fun _ => hkeeps, fun _ => hsound.top_le⟩, fun _ => hsound⟩
  | ok q =>
      rw [hfold] at hsound hok hwithin
      have hcount : q.count = p.count := hwithin.count_eq
      have hkeeps : Keeps lan p (.more rows) ↔ q.count < 15 := by
        constructor
        · intro hkeep
          by_contra hlt
          refine hkeep ⟨by omega, fun i h4 h15 => ?_⟩
          exact hok.mp ⟨q, rfl⟩ i (List.mem_range'_1.mpr ⟨h4, by omega⟩)
        · intro hlt h
          omega
      dsimp only
      rw [if_pos (by omega), hkeeps]
      refine ⟨?_, fun hlt => Sound.addRow hsound hlt⟩
      have htop : ({ q.touch (q.count + 1) with count := q.count + 1 } : Page).top =
          max q.top (q.count + 1) := rfl
      have hqtop : q.top ≤ 15 := hsound.top_le
      rw [htop]
      omega

theorem Sound.refused {p q : Page} {rows : Nat → Row} (hq : Sound q)
    (hrefused : validateFormPortFor lan { p with rows := rows } = .error q) :
    (Lossless lan p (.save rows) ↔ Keeps lan p (.save rows)) ∧
      (Keeps lan p (.save rows) → Sound (step lan p (.save rows))) := by
  have hstep : step lan p (.save rows) = q := by
    rw [step, hrefused]
  have hnone : ∀ r, validateFormPortFor lan { p with rows := rows } ≠ .ok r := by
    intro r hr
    rw [hrefused] at hr
    contradiction
  have hlossless : Lossless lan p (.save rows) := by
    refine ⟨?_, fun r hr => absurd hr (hnone r)⟩
    rw [hstep]
    exact hq.top_le
  have hkeeps : Keeps lan p (.save rows) := by
    rintro ⟨r, hr⟩
    exact absurd hr (hnone r)
  rw [hstep]
  exact ⟨iff_of_true hlossless hkeeps, fun _ => hq⟩

theorem keeps_save_iff {p q : Page} {rows : Nat → Row}
    (haccepted : validateFormPortFor lan { p with rows := rows } = .ok q) :
    Keeps lan p (.save rows) ↔
      ((filledRows p.count rows).map (storedEntry lan)).length ≤ 3 ∨
        ∀ e ∈ (filledRows p.count rows).map (storedEntry lan), loadBlank e = false := by
  have hcounted : ∀ r, loadBlank (storedEntry lan r) = false ↔
      (r.description ≠ [] ∨ r.enable = true) := by
    intro r
    rw [loadBlank_storedEntry, Bool.and_eq_false_iff, beq_eq_false_iff_ne, Bool.not_eq_false']
  rw [List.length_map, List.forall_mem_map]
  simp only [hcounted]
  constructor
  · intro h
    exact h ⟨q, haccepted⟩
  · intro h _
    exact h

/-- Saving stays within the entries; it saves well exactly when the loader will count what it
has to. -/
theorem Sound.save {p : Page} (hp : Sound p) (rows : Nat → Row) :
    (Lossless lan p (.save rows) ↔ Keeps lan p (.save rows)) ∧
      (Keeps lan p (.save rows) → Sound (step lan p (.save rows))) := by
  have hrange : ∀ i ∈ List.range' 1 p.count, i ≤ p.count := by
    intro i hi
    have := List.mem_range'_1.mp hi
    omega
  have hwithin := foldlM_within (@validateRow_writes lan) hrange { p with rows := rows }
  have hsound := hp.within hwithin
  cases hfold : (List.range' 1 p.count).foldlM (validateRow lan) { p with rows := rows } with
  | error q =>
      rw [hfold] at hsound
      apply Sound.refused hsound
      rw [validateFormPortFor, hfold]
      rfl
  | ok q =>
      rw [hfold] at hsound hwithin
      have haccepted : validateFormPortFor lan { p with rows := rows } = .ok (bubble q) := by
        rw [validateFormPortFor, hfold]
        rfl
      have hstep : step lan p (.save rows) =
          load { bubble q with stored := (bubble q).entries } := by
        rw [step, haccepted]
      have htop : (bubble q).top ≤ 15 := by
        have hcount : q.count = p.count := hwithin.count_eq
        have hbubble : (bubble q).top ≤ max q.top q.count := top_bubble q
        have hqtop : q.top ≤ 15 := hsound.top_le
        have hle := hp.le_fifteen
        omega
      have hstepTop : (step lan p (.save rows)).top ≤ 15 := by
        have hshown := (checkPfwDefaultCount_range (bubble q).entries).2
        rw [hstep]
        change max (max (bubble q).top 15) (checkPfwDefaultCount (bubble q).entries) ≤ 15
        omega
      obtain ⟨hports, rest, hrest, hcut⟩ :=
        bubble_packed (p := { p with rows := rows }) hp.six_le hp.free hfold
      have hvisible := visible_iff hcut (filled_not_blank hports) hrest
      have hkeeps := keeps_save_iff haccepted
      have hsaved : Lossless lan p (.save rows) ↔
          SavedWell lan p.count rows (bubble q).entries := by
        constructor
        · intro h
          exact h.2 _ haccepted
        · intro h
          refine ⟨hstepTop, fun r hr => ?_⟩
          rw [haccepted] at hr
          rw [← Except.ok.inj hr]
          exact h
      constructor
      · rw [hsaved, hkeeps, ← hvisible]
        exact ⟨fun h => h.visible, fun h => ⟨⟨rest, hrest, hcut⟩, h⟩⟩
      · intro hkeep
        rw [hstep]
        exact sound_load htop (hvisible.mpr (hkeeps.mp hkeep))

theorem sound_step {p : Page} (hp : Sound p) (e : Event) :
    (Lossless lan p e ↔ Keeps lan p e) ∧ (Keeps lan p e → Sound (step lan p e)) := by
  cases e with
  | load =>
      have hsound : Sound (load p) := sound_load hp.top_le hp.visible
      exact ⟨⟨fun _ => trivial, fun _ => ⟨hsound.top_le, trivial⟩⟩, fun _ => hsound⟩
  | more rows =>
      obtain ⟨htop, hsound⟩ := hp.more rows
      exact ⟨⟨fun h => htop.mp h.1, fun h => ⟨htop.mpr h, trivial⟩⟩, hsound⟩
  | save rows => exact hp.save rows

/-- A run over an initially empty table loses nothing exactly when each of its steps keeps. -/
theorem along_lossless_iff (lan : Text) (events : List Event) :
    Along (step lan) (Lossless lan) init events ↔ Along (step lan) (Keeps lan) init events := by
  have hiff : ∀ p e, Sound p → (Lossless lan p e ↔ Keeps lan p e) :=
    fun p e hp => (sound_step hp e).1
  have hkeep : ∀ p e, Sound p → Keeps lan p e → Sound (step lan p e) :=
    fun p e hp => (sound_step hp e).2
  exact along_congr hiff hkeep sound_init

end Xwr100.Www.Forward
