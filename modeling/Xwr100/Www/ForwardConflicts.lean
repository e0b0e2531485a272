import Xwr100.Www.ForwardLossless

/-! # Forwarding rows that do not conflict

Two enabled rows conflict when they forward the same external port of a protocol, and a row may
not forward to the router itself.  Saving compares texts, and not all pairs of rows; below is
which conflicts that leaves.
-/

namespace Xwr100.Www.Forward

variable {lan : Text}

/-! ## Conflicts -/

inductive Proto
  | tcp
  | udp

def protocols : Text → List Proto
  | ['0'] => [.tcp]
  | ['1'] => [.udp]
  | ['2'] => [.tcp, .udp]
  | _ => []

def Overlap (a b : Text) : Prop := ∃ x ∈ protocols a, x ∈ protocols b

def SameNumber (a b : Text) : Prop := ∃ n, wholeNumber a = some n ∧ wholeNumber b = some n

structure Conflict (r s : Row) : Prop where
  enabled : r.enable = true ∧ s.enable = true
  external : SameNumber r.external s.external
  protocol : Overlap r.protocol s.protocol

/-- What saving lets through has no conflict, and no enabled row forwards to the router. -/
def SaveRight (lan : Text) (p : Page) : Prop :=
  (∃ q, validateFormPortFor lan p = .ok q) →
    (∀ i j, 1 ≤ i → i < j → j ≤ p.count → ¬Conflict (p.rows i) (p.rows j)) ∧
    ∀ i, 1 ≤ i → i ≤ p.count → (p.rows i).enable = true →
      ¬SameNumber (p.rows i).toIP (lanHost lan)

/-! ## What saving looks at -/

structure FieldsOk (lan : Text) (i : Nat) (r : Row) : Prop where
  quotes : checkQuote1 r.description = true
  special : specialCharCheck r.description = true
  other : r.toIP ≠ lanHost lan
  ports : 3 < i → PortsOk (emptied r)
  octet : if r.enable then ipCheck r.toIP = true else ipCheck1 r.toIP = true

/-- The rows when row `i` is gone through: two zeros of the disabled rows before it are gone. -/
def seen (rows : Nat → Row) (i k : Nat) : Row :=
  if 3 < k ∧ k < i then emptied (rows k) else rows k

/-- Every row passes its own checks and meets none that it is compared with. -/
structure Accepted (lan : Text) (p : Page) : Prop where
  count : p.count ≤ 15
  fields : ∀ i, 1 ≤ i → i ≤ p.count → FieldsOk lan i (p.rows i)
  unlike : ∀ i, 3 < i → i ≤ p.count → clashes { p with rows := seen p.rows i } i = false

/-- Rows `i` and `j`, the later one, when a comparison meets them if they conflict.  The port is
written the same in both, one of them from the fourth on has it inside as well, or both are behind
the fifth and have the same port inside. -/
structure Compared (i j : Nat) (r s : Row) : Prop where
  later : 3 < j
  external : r.external = s.external
  internal : s.external = s.internal ∨ (3 < i ∧ r.external = r.internal) ∨
    (6 ≤ i ∧ r.internal = s.internal)

/-! ## One row -/

theorem emptied_enabled {r : Row} (h : r.enable = true) : emptied r = r := by
  simp [emptied, h]

@[simp] theorem enable_emptied (r : Row) : (emptied r).enable = r.enable := by
  unfold emptied
  split <;> rfl

theorem finishRow_iff {p q : Page} {i : Nat} :
    finishRow lan p i = .ok q ↔ i ≤ 15 ∧ specialCharCheck (p.rows i).description = true ∧
      q = { p.touch i with entries := Function.update p.entries i (entryOf lan (p.rows i)) } := by
  unfold finishRow writeEntry
  by_cases hi : 15 < i
  · rw [if_pos hi]
    exact iff_of_false (fun h => by cases h) fun h => absurd h.1 (by omega)
  · have hi' : i ≤ 15 := by omega
    rw [if_neg hi]
    simp only [bind, Except.bind, Page.touch, hi', true_and]
    by_cases hspecial : specialCharCheck (p.rows i).description = true
    · simp [hspecial, eq_comm]
    · simp [hspecial]

/-- What a page is when row `i` has been accepted. -/
structure RowDone (p q : Page) (i : Nat) : Prop where
  count : q.count = p.count
  rows : q.rows = if 3 < i then Function.update p.rows i (emptied (p.rows i)) else p.rows

theorem finishDisabled_iff {p q : Page} {i : Nat} :
    finishDisabled lan p i = .ok q ↔
      (3 < i → portCheck1 (p.rows i).external = true ∧ portCheck1 (p.rows i).internal = true) ∧
      ipCheck1 (p.rows i).toIP = true ∧ finishRow lan p i = .ok q := by
  unfold finishDisabled
  by_cases hports : 3 < i → portCheck1 (p.rows i).external = true ∧
      portCheck1 (p.rows i).internal = true
  · have hrefused : (decide (3 < i) &&
        !(portCheck1 (p.rows i).external && portCheck1 (p.rows i).internal)) = false := by
      by_cases hi : 3 < i
      · simp [hports hi]
      · simp [hi]
    rw [hrefused, and_iff_right hports]
    cases ipCheck1 (p.rows i).toIP <;> simp
  · have hrefused : (decide (3 < i) &&
        !(portCheck1 (p.rows i).external && portCheck1 (p.rows i).internal)) = true := by
      by_contra hnot
      apply hports
      intro hi
      simpa [hi] using hnot
    rw [hrefused]
    exact iff_of_false (fun h => by cases h) fun h => hports h.1

theorem finishRow_done {p q : Page} {i : Nat} (h : finishRow lan p i = .ok q) :
    q.count = p.count ∧ q.rows = p.rows := by
  obtain ⟨-, -, rfl⟩ := finishRow_iff.mp h
  exact ⟨rfl, rfl⟩

theorem blankPorts_iff {p q : Page} {i : Nat} (hoff : (p.rows i).enable = false) :
    blankPorts p i = .ok q ↔ i ≤ 15 ∧ q =
      { p.touch i with
        rows := Function.update p.rows i (emptied (p.rows i))
        entries := Function.update p.entries i { p.entries i with
          spexp := (emptied (p.rows i)).external
          spinp := (emptied (p.rows i)).internal } } := by
  unfold blankPorts writeEntry
  by_cases hi : 15 < i
  · rw [if_pos hi]
    exact iff_of_false (fun h => by cases h) fun h => absurd h.1 (by omega)
  · have hi' : i ≤ 15 := by omega
    rw [if_neg hi, Except.ok.injEq, and_iff_right hi', eq_comm]
    simp only [Page.touch, emptied, hoff, true_and]

/-- An enabled row, behind the checks that all rows share. -/
theorem enabledRow_iff {p : Page} {i : Nat} (hon : (p.rows i).enable = true) :
    (∃ q, (if 3 < i && !(portCheck (p.rows i).external && portCheck (p.rows i).internal) then
        .error p
      else if !ipCheck (p.rows i).toIP then .error p
      else finishRow lan p i) = .ok q) ↔
      i ≤ 15 ∧ (3 < i → PortsOk (emptied (p.rows i))) ∧ ipCheck (p.rows i).toIP = true ∧
        specialCharCheck (p.rows i).description = true := by
  rw [emptied_enabled hon, PortsOk, if_pos hon]
  by_cases hports : 3 < i → portCheck (p.rows i).external = true ∧
      portCheck (p.rows i).internal = true
  · have hpassed : (decide (3 < i) &&
        !(portCheck (p.rows i).external && portCheck (p.rows i).internal)) = false := by
      by_cases hi : 3 < i
      · simp [hports hi]
      · simp [hi]
    rw [hpassed, and_iff_right hports]
    cases ipCheck (p.rows i).toIP with
    | false => simp
    | true =>
        simp only [Bool.not_true, Bool.false_eq_true, if_false, finishRow_iff, true_and]
        constructor
        · intro h
          obtain ⟨q, hi, hspecial, -⟩ := h
          exact ⟨hi, hspecial⟩
        · intro h
          exact ⟨_, h.1, h.2, rfl⟩
  · have hrefused : (decide (3 < i) &&
        !(portCheck (p.rows i).external && portCheck (p.rows i).internal)) = true := by
      by_contra hnot
      apply hports
      intro hi
      simpa [hi] using hnot
    rw [hrefused]
    apply iff_of_false
    · intro h
      obtain ⟨q, h⟩ := h
      cases h
    · exact fun h => hports h.2.1

/-- A disabled row, behind the checks that all rows share. -/
theorem disabledRow_iff {p : Page} {i : Nat} (hoff : (p.rows i).enable = false) :
    (∃ q, (if 3 < i then blankPorts p i >>= fun p => finishDisabled lan p i
      else finishDisabled lan p i) = .ok q) ↔
      i ≤ 15 ∧ (3 < i → PortsOk (emptied (p.rows i))) ∧ ipCheck1 (p.rows i).toIP = true ∧
        specialCharCheck (p.rows i).description = true := by
  have hoff' : ¬(emptied (p.rows i)).enable = true := by
    rw [enable_emptied, hoff]
    exact Bool.false_ne_true
  rw [PortsOk, if_neg hoff']
  have htext : (emptied (p.rows i)).toIP = (p.rows i).toIP ∧
      (emptied (p.rows i)).description = (p.rows i).description := by
    unfold emptied
    split <;> exact ⟨rfl, rfl⟩
  by_cases hi : 3 < i
  · rw [if_pos hi, forall_prop_of_true hi]
    constructor
    · intro h
      obtain ⟨q, hq⟩ := h
      obtain ⟨r, hr, hq⟩ := bind_ok hq
      obtain ⟨hle, rfl⟩ := (blankPorts_iff hoff).mp hr
      obtain ⟨hports, hip, hfinish⟩ := finishDisabled_iff.mp hq
      obtain ⟨-, hspecial, -⟩ := finishRow_iff.mp hfinish
      simp only [Function.update_self, htext] at hports hip hspecial
      exact ⟨hle, hports hi, hip, hspecial⟩
    · intro h
      obtain ⟨hle, hports, hip, hspecial⟩ := h
      have hblank := (blankPorts_iff hoff).mpr ⟨hle, rfl⟩
      rw [hblank]
      refine ⟨_, finishDisabled_iff.mpr ⟨?_, ?_, finishRow_iff.mpr ⟨hle, ?_, rfl⟩⟩⟩
      · intro _
        simpa only [Function.update_self] using hports
      · simpa only [Function.update_self, htext] using hip
      · simpa only [Function.update_self, htext] using hspecial
  · rw [if_neg hi]
    constructor
    · intro h
      obtain ⟨q, hq⟩ := h
      obtain ⟨-, hip, hfinish⟩ := finishDisabled_iff.mp hq
      obtain ⟨hle, hspecial, -⟩ := finishRow_iff.mp hfinish
      exact ⟨hle, fun h3 => absurd h3 hi, hip, hspecial⟩
    · intro h
      obtain ⟨hle, -, hip, hspecial⟩ := h
      exact ⟨_, finishDisabled_iff.mpr ⟨fun h3 => absurd h3 hi, hip,
        finishRow_iff.mpr ⟨hle, hspecial, rfl⟩⟩⟩

/-- A row is accepted if its own checks and its comparisons are passed. -/
theorem validateRow_iff (p : Page) (i : Nat) :
    (∃ q, validateRow lan p i = .ok q) ↔
      i ≤ 15 ∧ FieldsOk lan i (p.rows i) ∧ (3 < i → clashes p i = false) := by
  unfold validateRow
  by_cases hquotes : checkQuote1 (p.rows i).description = true
  · rw [if_neg (by simp [hquotes])]
    by_cases hother : (p.rows i).toIP = lanHost lan
    · rw [if_pos hother]
      exact iff_of_false (fun ⟨q, h⟩ => by cases h) fun h => h.2.1.other hother
    · rw [if_neg hother]
      by_cases hunlike : 3 < i → clashes p i = false
      · rw [if_neg (by simpa using hunlike), and_iff_left hunlike]
        by_cases hon : (p.rows i).enable = true
        · rw [if_pos hon, enabledRow_iff hon]
          constructor
          · intro h
            obtain ⟨hle, hports, hip, hspecial⟩ := h
            exact ⟨hle, hquotes, hspecial, hother, hports, by rw [if_pos hon]; exact hip⟩
          · intro h
            obtain ⟨hle, hfields⟩ := h
            have hip := hfields.octet
            rw [if_pos hon] at hip
            exact ⟨hle, hfields.ports, hip, hfields.special⟩
        · rw [if_neg hon, disabledRow_iff (Bool.eq_false_iff.mpr hon)]
          constructor
          · intro h
            obtain ⟨hle, hports, hip, hspecial⟩ := h
            exact ⟨hle, hquotes, hspecial, hother, hports, by rw [if_neg hon]; exact hip⟩
          · intro h
            obtain ⟨hle, hfields⟩ := h
            have hip := hfields.octet
            rw [if_neg hon] at hip
            exact ⟨hle, hfields.ports, hip, hfields.special⟩
      · rw [if_pos (by simpa using hunlike)]
        exact iff_of_false (fun ⟨q, h⟩ => by cases h) fun h => hunlike h.2.2
  · rw [if_pos (by simpa using hquotes)]
    exact iff_of_false (fun ⟨q, h⟩ => by cases h) fun h => hquotes h.2.1.quotes

theorem validateRow_done {p q : Page} {i : Nat} (h : validateRow lan p i = .ok q) :
    RowDone p q i := by
  unfold validateRow at h
  split at h
  · contradiction
  · split at h
    · contradiction
    · split at h
      · contradiction
      · split at h
        · next hon =>
          split at h
          · contradiction
          · split at h
            · contradiction
            · obtain ⟨hcount, hrows⟩ := finishRow_done h
              refine ⟨hcount, ?_⟩
              rw [hrows, emptied_enabled hon, Function.update_eq_self, ite_self]
        · next hon =>
          split at h
          · next hi =>
            obtain ⟨r, hr, hq⟩ := bind_ok h
            obtain ⟨-, rfl⟩ := (blankPorts_iff (Bool.eq_false_iff.mpr hon)).mp hr
            obtain ⟨hcount, hrows⟩ := finishRow_done (finishDisabled_iff.mp hq).2.2
            exact ⟨hcount, by rw [hrows, if_pos hi]⟩
          · next hi =>
            obtain ⟨hcount, hrows⟩ := finishRow_done (finishDisabled_iff.mp h).2.2
            exact ⟨hcount, by rw [hrows, if_neg hi]⟩

/-! ## The loop -/

theorem seen_self (rows : Nat → Row) (i : Nat) : seen rows i i = rows i :=
  if_neg fun h => Nat.lt_irrefl i h.2

theorem seen_enabled {rows : Nat → Row} {i k : Nat} (h : (rows k).enable = true) :
    seen rows i k = rows k := by
  rw [seen, emptied_enabled h, ite_self]

theorem seen_one (rows : Nat → Row) : seen rows 1 = rows := by
  funext k
  exact if_neg fun h => by omega

/-- Going through row `i` empties its zeros. -/
theorem seen_succ (rows : Nat → Row) (i : Nat) :
    seen rows (i + 1) =
      if 3 < i then Function.update (seen rows i) i (emptied (rows i)) else seen rows i := by
  funext k
  by_cases hi : 3 < i
  · rw [if_pos hi]
    by_cases hk : k = i
    · rw [hk, Function.update_self, seen, if_pos (by omega)]
    · rw [Function.update_of_ne hk, seen, seen]
      congr 1
      exact propext ⟨fun h => by omega, fun h => by omega⟩
  · rw [if_neg hi, seen, seen, if_neg (by omega), if_neg (by omega)]

theorem clashes_congr {p q : Page} (hcount : q.count = p.count) (hrows : q.rows = p.rows) (i : Nat) :
    clashes q i = clashes p i := by
  unfold clashes
  rw [hcount, hrows]

/-- The first `n` rows are accepted one after the other.  By induction on `n`, with the rows the
loop has left behind. -/
theorem foldlM_validateRow_iff (p : Page) (n : Nat) :
    ((∃ q, (List.range' 1 n).foldlM (validateRow lan) p = .ok q) ↔
      ∀ i, 1 ≤ i → i ≤ n → i ≤ 15 ∧ FieldsOk lan i (p.rows i) ∧
        (3 < i → clashes { p with rows := seen p.rows i } i = false)) ∧
    ∀ q, (List.range' 1 n).foldlM (validateRow lan) p = .ok q →
      q.count = p.count ∧ q.rows = seen p.rows (n + 1) := by
  induction n with
  | zero =>
      refine ⟨iff_of_true ⟨p, rfl⟩ fun i h1 h0 => absurd h1 (by omega), ?_⟩
      intro q hq
      obtain rfl : p = q := Except.ok.inj hq
      exact ⟨rfl, (seen_one p.rows).symm⟩
  | succ n ih =>
      have hsplit : (List.range' 1 (n + 1)).foldlM (validateRow lan) p =
          ((List.range' 1 n).foldlM (validateRow lan) p >>= fun r => validateRow lan r (n + 1)) := by
        rw [List.range'_concat, List.foldlM_append, Nat.one_mul, Nat.add_comm 1 n]
        simp only [List.foldlM_cons, List.foldlM_nil, bind_pure]
      -- the last row, on the page that the others leave
      have hlast : ∀ r, (List.range' 1 n).foldlM (validateRow lan) p = .ok r →
          ((∃ q, validateRow lan r (n + 1) = .ok q) ↔
            n + 1 ≤ 15 ∧ FieldsOk lan (n + 1) (p.rows (n + 1)) ∧
              (3 < n + 1 → clashes { p with rows := seen p.rows (n + 1) } (n + 1) = false)) := by
        intro r hr
        obtain ⟨hcount, hrows⟩ := ih.2 r hr
        have hclash : clashes r (n + 1) = clashes { p with rows := seen p.rows (n + 1) } (n + 1) :=
          clashes_congr (p := { p with rows := seen p.rows (n + 1) }) hcount hrows (n + 1)
        rw [validateRow_iff, hclash, hrows, seen_self]
      rw [hsplit]
      constructor
      · constructor
        · intro h
          obtain ⟨q, hq⟩ := h
          obtain ⟨r, hr, hq⟩ := bind_ok hq
          intro i h1 hi
          by_cases hin : i = n + 1
          · rw [hin]
            exact (hlast r hr).mp ⟨q, hq⟩
          · exact ih.1.mp ⟨r, hr⟩ i h1 (by omega)
        · intro h
          obtain ⟨r, hr⟩ := ih.1.mpr fun i h1 hi => h i h1 (by omega)
          obtain ⟨q, hq⟩ := (hlast r hr).mpr (h (n + 1) (by omega) (Nat.le_refl _))
          exact ⟨q, by rw [hr]; exact hq⟩
      · intro q hq
        obtain ⟨r, hr, hq⟩ := bind_ok hq
        obtain ⟨hcount, hrows⟩ := ih.2 r hr
        have hdone := validateRow_done hq
        refine ⟨hdone.count.trans hcount, ?_⟩
        rw [hdone.rows, hrows, seen_self, ← seen_succ]

theorem validateFormPortFor_iff (p : Page) :
    (∃ q, validateFormPortFor lan p = .ok q) ↔ Accepted lan p := by
  have hmap : (∃ q, validateFormPortFor lan p = .ok q) ↔
      ∃ q, (List.range' 1 p.count).foldlM (validateRow lan) p = .ok q := by
    unfold validateFormPortFor
    cases (List.range' 1 p.count).foldlM (validateRow lan) p with
    | error q => exact iff_of_false (fun ⟨r, h⟩ => by cases h) fun ⟨r, h⟩ => by cases h
    | ok q => exact iff_of_true ⟨bubble q, rfl⟩ ⟨q, rfl⟩
  rw [hmap, (foldlM_validateRow_iff p p.count).1]
  constructor
  · intro h
    refine ⟨?_, fun i h1 hi => (h i h1 hi).2.1, fun i h3 hi => (h i (by omega) hi).2.2 h3⟩
    by_contra hcount
    exact hcount (h p.count (by omega) (Nat.le_refl _)).1
  · intro h i h1 hi
    have hcount := h.count
    exact ⟨by omega, h.fields i h1 hi, fun h3 => h.unlike i h3 hi⟩

/-! ## Which conflicts are found -/

theorem mem_protocols {t : Text} {x : Proto} (h : x ∈ protocols t) :
    t = ['2'] ∨ t = ['0'] ∧ x = .tcp ∨ t = ['1'] ∧ x = .udp := by
  unfold protocols at h
  split at h
  · exact .inr (.inl ⟨rfl, List.mem_singleton.mp h⟩)
  · exact .inr (.inr ⟨rfl, List.mem_singleton.mp h⟩)
  · exact .inl rfl
  · cases h

theorem samePro_of_overlap {a b : Text} (h : Overlap a b) : samePro a b = true := by
  obtain ⟨x, ha, hb⟩ := h
  have htwo : wholeNumber ['2'] = some 2 := by decide +kernel
  unfold samePro
  rcases mem_protocols ha with rfl | ⟨rfl, rfl⟩ | ⟨rfl, rfl⟩
  · simp [htwo]
  · rcases mem_protocols hb with rfl | ⟨rfl, -⟩ | ⟨-, hx⟩
    · simp [htwo]
    · simp
    · cases hx
  · rcases mem_protocols hb with rfl | ⟨-, hx⟩ | ⟨rfl, -⟩
    · simp [htwo]
    · cases hx
    · simp

theorem SameNumber.ne_nil {a b : Text} (h : SameNumber a b) : a ≠ [] := by
  obtain ⟨n, ha, -⟩ := h
  rintro rfl
  cases ha

/-- A port is not zero, and not nothing. -/
theorem port_ne {t : Text} (h : portCheck t = true) : t ≠ ['0'] ∧ t ≠ [] := by
  constructor
  · rintro rfl
    exact absurd h (by decide)
  · rintro rfl
    exact absurd h (by decide)

/-- The first comparison: row `i` has its external port inside as well, and `u` has it too. -/
theorem clashes_of_same {p : Page} {rows : Nat → Row} {i u : Nat} (hu : 1 ≤ u ∧ u ≤ p.count) (hne : u ≠ i)
    (hport : (rows i).external ≠ ['0']) (hnil : (rows u).external ≠ [])
    (hinternal : (rows i).external = (rows i).internal)
    (hexternal : (rows i).external = (rows u).external)
    (hpro : samePro (rows i).protocol (rows u).protocol = true) :
    clashes { p with rows := rows } i = true := by
  have hmem : u ∈ List.range' 1 p.count := List.mem_range'_1.mpr (by omega)
  rw [clashes, Bool.or_eq_true]
  left
  rw [List.any_eq_true]
  refine ⟨u, hmem, ?_⟩
  dsimp only
  rw [← hinternal, ← hexternal]
  rw [← hexternal] at hnil
  simp [hport, hne, hnil, hpro]

/-- The second comparison: row `k` has both ports of the later row `i`. -/
theorem clashes_of_both {p : Page} {rows : Nat → Row} {i k : Nat} (hk : 6 ≤ k ∧ k < i)
    (hexternal : (rows i).external = (rows k).external)
    (hinternal : (rows i).internal = (rows k).internal)
    (hnil : (rows k).external ≠ [] ∧ (rows k).internal ≠ [])
    (hpro : samePro (rows i).protocol (rows k).protocol = true) :
    clashes { p with rows := rows } i = true := by
  rw [clashes, Bool.or_eq_true]
  right
  rw [List.any_eq_true]
  refine ⟨k, List.mem_range'_1.mpr (by omega), ?_⟩
  dsimp only
  rw [hexternal, hinternal]
  simp [hnil, hpro]

theorem samePro_comm (a b : Text) : samePro a b = samePro b a := by
  unfold samePro
  rw [Bool.or_assoc, Bool.or_assoc, Bool.or_comm (wholeNumber a == some 2), Bool.beq_comm]

theorem Accepted.not_conflict {p : Page} (h : Accepted lan p) {i j : Nat} (h1 : 1 ≤ i) (hij : i < j)
    (hj : j ≤ p.count) (hcompared : Compared i j (p.rows i) (p.rows j)) :
    ¬Conflict (p.rows i) (p.rows j) := by
  intro hconflict
  obtain ⟨honi, honj⟩ := hconflict.enabled
  have hpro := samePro_of_overlap hconflict.protocol
  have hseeni : ∀ k, seen p.rows k i = p.rows i := fun k => seen_enabled honi
  have hseenj : ∀ k, seen p.rows k j = p.rows j := fun k => seen_enabled honj
  have hports : ∀ k, 3 < k → k ≤ p.count → (p.rows k).enable = true →
      portCheck (p.rows k).external = true ∧ portCheck (p.rows k).internal = true := by
    intro k hk hle hon
    have hfields := (h.fields k (by omega) hle).ports hk
    rwa [emptied_enabled hon, PortsOk, if_pos hon] at hfields
  have hportj := hports j hcompared.later hj honj
  have hnili : (p.rows i).external ≠ [] := hconflict.external.ne_nil
  rcases hcompared.internal with hsame | ⟨hi, hsame⟩ | ⟨hi, hsame⟩
  · have hclash : clashes { p with rows := seen p.rows j } j = true := by
      apply clashes_of_same (u := i) ⟨h1, Nat.le_trans (Nat.le_of_lt hij) hj⟩ (by omega)
      · rw [hseenj]
        exact (port_ne hportj.1).1
      · rwa [hseeni]
      · rwa [hseenj]
      · rw [hseeni, hseenj]
        exact hcompared.external.symm
      · rw [hseeni, hseenj, samePro_comm]
        exact hpro
    exact Bool.eq_false_iff.mp (h.unlike j hcompared.later hj) hclash
  · have hporti := hports i hi (by omega) honi
    have hclash : clashes { p with rows := seen p.rows i } i = true := by
      apply clashes_of_same (u := j) ⟨Nat.le_trans h1 (Nat.le_of_lt hij), hj⟩ (by omega)
      · rw [hseeni]
        exact (port_ne hporti.1).1
      · rw [hseenj, ← hcompared.external]
        exact hnili
      · rwa [hseeni]
      · rw [hseeni, hseenj]
        exact hcompared.external
      · rw [hseeni, hseenj]
        exact hpro
    exact Bool.eq_false_iff.mp (h.unlike i hi (by omega)) hclash
  · have hporti := hports i (by omega) (by omega) honi
    have hclash : clashes { p with rows := seen p.rows j } j = true := by
      apply clashes_of_both (k := i) ⟨hi, hij⟩
      · rw [hseeni, hseenj]
        exact hcompared.external.symm
      · rw [hseeni, hseenj]
        exact hsame.symm
      · rw [hseeni]
        exact ⟨hnili, (port_ne hporti.2).2⟩
      · rw [hseeni, hseenj, samePro_comm]
        exact hpro
    exact Bool.eq_false_iff.mp (h.unlike j hcompared.later hj) hclash

/-- Saving is right exactly when the page is refused, or all its conflicts are between rows that are
compared and the rows for the router write its number as the router's address does. -/
theorem saveRight_iff (lan : Text) (p : Page) :
    SaveRight lan p ↔ (Accepted lan p →
      (∀ i j, 1 ≤ i → i < j → j ≤ p.count → Conflict (p.rows i) (p.rows j) →
        Compared i j (p.rows i) (p.rows j)) ∧
      ∀ i, 1 ≤ i → i ≤ p.count → (p.rows i).enable = true →
        SameNumber (p.rows i).toIP (lanHost lan) → (p.rows i).toIP = lanHost lan) := by
  unfold SaveRight
  rw [validateFormPortFor_iff]
  constructor
  · intro h haccepted
    obtain ⟨hpairs, hrouter⟩ := h haccepted
    constructor
    · intro i j h1 hij hj hconflict
      exact absurd hconflict (hpairs i j h1 hij hj)
    · intro i h1 hi hon hsame
      exact absurd hsame (hrouter i h1 hi hon)
  · intro h haccepted
    obtain ⟨hpairs, hrouter⟩ := h haccepted
    constructor
    · intro i j h1 hij hj hconflict
      exact haccepted.not_conflict h1 hij hj (hpairs i j h1 hij hj hconflict) hconflict
    · intro i h1 hi hon hsame
      exact (haccepted.fields i h1 hi).other (hrouter i h1 hi hon hsame)

/-- 192.168.1.1 -/
def routerLan : Text :=
  ['1', '9', '2', '.', '1', '6', '8', '.', '1', '.', '1']

/-- Two rows for port 8080, to different ports inside, and one to host 01. -/
def conflictingPage : Page :=
  { init with rows := fun i =>
      if i = 4 then ⟨['a'], ['8', '0', '8', '0'], ['8', '0'], ['0'], ['1', '0'], true⟩
      else if i = 5 then ⟨['b'], ['8', '0', '8', '0'], ['8', '1'], ['2'], ['1', '1'], true⟩
      else if i = 6 then ⟨['c'], ['2', '1'], ['2', '1'], ['0'], ['0', '1'], true⟩
      else blankRow }

theorem conflicts_saved :
    (validateFormPortFor routerLan conflictingPage).isOk = true ∧
      Conflict (conflictingPage.rows 4) (conflictingPage.rows 5) ∧
      SameNumber (conflictingPage.rows 6).toIP (lanHost routerLan) ∧
      ¬SaveRight routerLan conflictingPage := by
  have hok : (validateFormPortFor routerLan conflictingPage).isOk = true := by decide +kernel
  have hconflict : Conflict (conflictingPage.rows 4) (conflictingPage.rows 5) :=
    ⟨⟨rfl, rfl⟩, ⟨8080, by decide +kernel, by decide +kernel⟩, .tcp, List.mem_cons_self,
      List.mem_cons_self⟩
  refine ⟨hok, hconflict, ⟨1, by decide +kernel, by decide +kernel⟩, ?_⟩
  intro hright
  cases hrun : validateFormPortFor routerLan conflictingPage with
  | error q =>
      rw [hrun] at hok
      cases hok
  | ok q => exact (hright ⟨q, hrun⟩).1 4 5 (by omega) (by omega) (by decide +kernel) hconflict

end Xwr100.Www.Forward
