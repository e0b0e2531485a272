import Mathlib.Data.List.Basic
import Mathlib.Logic.Function.Basic

/-! # Closing the holes of a numbered table

A table is a family of slots, numbered from anywhere.  The loop walks up to a bound; where
it finds a hole it moves every later slot down by one, blanks the last one, lowers the bound
and looks at the same number again.  `extra` is how many slots from the bound on move along
without being looked at.  Which removals the loop makes depends on the slots alone, and what
it leaves is the filtered table with blanks at the end.
-/

namespace Xwr100.Lib

variable {σ α : Type*}

/-- The slots `lo, lo + 1, …`, `n` of them. -/
def cut (slots : Nat → α) (lo n : Nat) : List α := (List.range' lo n).map slots

@[simp] theorem cut_zero (slots : Nat → α) (lo : Nat) : cut slots lo 0 = [] := rfl

@[simp] theorem length_cut (slots : Nat → α) (lo n : Nat) : (cut slots lo n).length = n := by
  simp [cut]

theorem cut_succ (slots : Nat → α) (lo n : Nat) :
    cut slots lo (n + 1) = slots lo :: cut slots (lo + 1) n := by
  simp [cut, List.range'_succ]

theorem cut_succ_last (slots : Nat → α) (lo n : Nat) :
    cut slots lo (n + 1) = cut slots lo n ++ [slots (lo + n)] := by
  simp [cut, List.range'_concat]

theorem cut_append (slots : Nat → α) (lo m n : Nat) :
    cut slots lo (m + n) = cut slots lo m ++ cut slots (lo + m) n := by
  rw [cut, cut, cut, ← List.map_append, List.range'_append_1]

theorem getElem?_cut {slots : Nat → α} {lo n k : Nat} (h : k < n) :
    (cut slots lo n)[k]? = some (slots (lo + k)) := by
  simp [cut, h]

@[simp] theorem getElem_cut (slots : Nat → α) (lo n k : Nat) (h : k < (cut slots lo n).length) :
    (cut slots lo n)[k] = slots (lo + k) := by
  simp [cut]

theorem cut_congr {f g : Nat → α} {lo lo' n : Nat}
    (h : ∀ k < n, f (lo + k) = g (lo' + k)) : cut f lo n = cut g lo' n := by
  apply List.ext_getElem (by simp)
  intro k hk _
  rw [length_cut] at hk
  simpa using h k hk

theorem cut_eq_cons {slots : Nat → α} {lo n : Nat} {x : α} {rest : List α}
    (h : cut slots lo n = x :: rest) :
    n = rest.length + 1 ∧ slots lo = x ∧ cut slots (lo + 1) (n - 1) = rest := by
  have hlen : n = rest.length + 1 := by
    have := congrArg List.length h
    simpa using this
  subst hlen
  rw [cut_succ] at h
  exact ⟨rfl, List.cons.inj h⟩

/-- A table that holds the filled slots and then blank ones has a filled slot below `n` only when
it has at most `n` of them. -/
theorem filled_lt_iff {slots : Nat → α} {isBlank : α → Bool} {lo len n : Nat} {filled rest : List α}
    (hcut : cut slots lo len = filled ++ rest) (hfilled : ∀ x ∈ filled, isBlank x = false)
    (hrest : ∀ x ∈ rest, isBlank x = true) :
    (∀ k < len, isBlank (slots (lo + k)) = false → k < n) ↔ filled.length ≤ n := by
  have hlen : filled.length ≤ len := by
    have := congrArg List.length hcut
    rw [length_cut, List.length_append] at this
    omega
  have hget : ∀ k < len, some (slots (lo + k)) = (filled ++ rest)[k]? := by
    intro k hk
    rw [← hcut, getElem?_cut hk]
  constructor
  · intro h
    by_cases hzero : filled.length = 0
    · omega
    · -- the last filled slot decides
      have hlast : filled.length - 1 < filled.length := by omega
      have hk := hget (filled.length - 1) (by omega)
      rw [List.getElem?_append_left hlast, List.getElem?_eq_getElem hlast] at hk
      have hblank := hfilled _ (List.getElem_mem hlast)
      rw [← Option.some.inj hk] at hblank
      have := h _ (by omega) hblank
      omega
  · intro h k hk hblank
    by_cases hlt : k < filled.length
    · omega
    · have hslot := hget k hk
      rw [List.getElem?_append_right (by omega)] at hslot
      have hmem := hrest _ (List.mem_of_getElem? hslot.symm)
      rw [hblank] at hmem
      contradiction

theorem filter_eq_take {keep : α → Bool} {l : List α} {n : Nat}
    (h : ∀ k (hk : k < l.length), keep l[k] = true ↔ k < n) : l.filter keep = l.take n := by
  rw [← List.take_append_drop n l, List.filter_append]
  have hkeep : (l.take n).filter keep = l.take n := by
    apply List.filter_eq_self.mpr
    intro x hx
    obtain ⟨k, hk, rfl⟩ := List.mem_iff_getElem.mp hx
    rw [List.length_take] at hk
    rw [List.getElem_take]
    exact (h k (by omega)).mpr (by omega)
  have hdrop : (l.drop n).filter keep = [] := by
    apply List.filter_eq_nil_iff.mpr
    intro x hx
    obtain ⟨k, hk, rfl⟩ := List.mem_iff_getElem.mp hx
    rw [List.length_drop] at hk
    rw [List.getElem_drop, h _ (by omega)]
    omega
  rw [hkeep, hdrop, List.append_nil, List.take_append_drop]

/-- A list is its kept elements and then dropped ones when no dropped element has a kept one
behind it. -/
theorem eq_filter_append_iff {drop : α → Bool} {l : List α} :
    (∃ rest : List α, (∀ x ∈ rest, drop x = true) ∧ l = l.filter (fun x => !drop x) ++ rest) ↔
      l.Pairwise fun x y => drop x = true → drop y = true := by
  induction l with
  | nil => exact ⟨fun _ => List.Pairwise.nil, fun _ => ⟨[], by simp, rfl⟩⟩
  | cons x l ih =>
      rw [List.pairwise_cons]
      by_cases hx : drop x = true
      · rw [List.filter_cons_of_neg (by simp [hx])]
        constructor
        · rintro ⟨rest, hrest, heq⟩
          have hnone : l.filter (fun y => !drop y) = [] := by
            -- the kept elements would have to start with `x`
            rcases hl : l.filter (fun y => !drop y) with _ | ⟨y, kept⟩
            · rfl
            · rw [hl, List.cons_append] at heq
              have hy : y ∈ l.filter fun y => !drop y := by
                rw [hl]
                exact List.mem_cons_self
              have := (List.mem_filter.mp hy).2
              rw [← (List.cons.inj heq).1, hx] at this
              contradiction
          have hall : ∀ y ∈ l, drop y = true := by
            intro y hy
            by_contra hkeep
            have hmem : y ∈ l.filter fun y => !drop y := List.mem_filter.mpr ⟨hy, by simpa using hkeep⟩
            rw [hnone] at hmem
            exact List.not_mem_nil hmem
          exact ⟨fun y hy _ => hall y hy,
            List.pairwise_iff_forall_sublist.mpr fun hsub _ => hall _ (hsub.subset (by simp))⟩
        · rintro ⟨hall, _⟩
          have hnone : l.filter (fun y => !drop y) = [] := by
            apply List.filter_eq_nil_iff.mpr
            intro y hy
            simp [hall y hy hx]
          refine ⟨x :: l, ?_, by rw [hnone, List.nil_append]⟩
          intro y hy
          rcases List.mem_cons.mp hy with rfl | hy
          · exact hx
          · exact hall y hy hx
      · rw [List.filter_cons_of_pos (by simp [hx])]
        constructor
        · rintro ⟨rest, hrest, heq⟩
          exact ⟨fun y _ hdrop => absurd hdrop hx,
            ih.mp ⟨rest, hrest, (List.cons.inj heq).2⟩⟩
        · rintro ⟨_, hl⟩
          obtain ⟨rest, hrest, heq⟩ := ih.mpr hl
          exact ⟨rest, hrest, by rw [List.cons_append, ← heq]⟩

/-- The leading elements with a property cover a prefix when the whole prefix has it. -/
theorem length_le_takeWhile_append_iff {keep : α → Bool} {l rest : List α} :
    l.length ≤ ((l ++ rest).takeWhile keep).length ↔ ∀ x ∈ l, keep x = true := by
  induction l with
  | nil => simp
  | cons x l ih =>
      rw [List.cons_append, List.takeWhile_cons, List.forall_mem_cons]
      by_cases hx : keep x = true
      · rw [if_pos hx, List.length_cons, List.length_cons, Nat.add_le_add_iff_right, ih]
        exact ⟨fun h => ⟨hx, h⟩, fun h => h.2⟩
      · rw [if_neg hx]
        exact ⟨fun h => absurd h (by simp), fun h => absurd h.1 hx⟩

def removals (hole : α → Bool) : Nat → List α → List Nat
  | _, [] => []
  | i, x :: rest => if hole x then i :: removals hole i rest else removals hole (i + 1) rest

theorem removals_map {β : Type*} (hole : α → Bool) (f : β → α) (i : Nat) (l : List β) :
    removals hole i (l.map f) = removals (fun x => hole (f x)) i l := by
  induction l generalizing i with
  | nil => rfl
  | cons x rest ih => simp only [List.map_cons, removals, ih]

/-- A pass over the slots that gives each the value of the next one. -/
theorem foldl_slide {slots : σ → Nat → α} {slide : σ → Nat → σ}
    (h : ∀ s k, slots (slide s k) = Function.update (slots s) k (slots s (k + 1)))
    (i n : Nat) (s : σ) (k : Nat) : slots ((List.range' i n).foldl slide s) k =
      if i ≤ k ∧ k < i + n then slots s (k + 1) else slots s k := by
  -- a slot is read before it is written, so what is read is the old value
  induction n generalizing k with
  | zero =>
      rw [if_neg (by omega)]
      rfl
  | succ n ih =>
      rw [List.range'_concat, List.foldl_append, List.foldl_cons, List.foldl_nil, Nat.one_mul, h]
      by_cases hk : k = i + n
      · rw [hk, Function.update_self, ih, if_neg (by omega), if_pos (by omega)]
      · rw [Function.update_of_ne hk, ih]
        by_cases hin : i ≤ k ∧ k < i + n
        · rw [if_pos hin, if_pos (by omega)]
        · rw [if_neg hin, if_neg (by omega)]

theorem foldl_slide_eq {β : Type*} {f : σ → β} {slide : σ → Nat → σ}
    (h : ∀ s k, f (slide s k) = f s) (l : List Nat) (s : σ) : f (l.foldl slide s) = f s := by
  induction l generalizing s with
  | nil => rfl
  | cons k rest ih => exact (ih (slide s k)).trans (h s k)

/-- A pass whose steps read the next slot reaches no further than its end. -/
theorem foldl_slide_high {high : σ → Nat} {slide : σ → Nat → σ}
    (h : ∀ s k, high (slide s k) = max (high s) (k + 1)) (i n : Nat) (s : σ) :
    high ((List.range' i n).foldl slide s) ≤ max (high s) (i + n) := by
  induction n with
  | zero => exact Nat.le_max_left _ _
  | succ n ih =>
      rw [List.range'_concat, List.foldl_append, List.foldl_cons, List.foldl_nil, Nat.one_mul, h]
      omega

section Loop

variable (bound : σ → Nat) (isHole : σ → Nat → Bool) (remove : Nat → σ → σ)

/-- The loop; `remove` also lowers the bound. -/
def squeeze : Nat → Nat → σ → σ
  | 0, _, s => s
  | fuel + 1, i, s =>
      if i < bound s then
        if isHole s i then squeeze fuel i (remove i s) else squeeze fuel (i + 1) s
      else s

/-- What one removal does: the later slots move down and the last becomes blank. -/
structure Removes (slots : σ → Nat → α) (extra : Nat) (blank : α) : Prop where
  bound_eq : ∀ s i, i < bound s → bound (remove i s) = bound s - 1
  slots_eq : ∀ s i k, i < bound s → slots (remove i s) k =
    if i ≤ k ∧ k + 1 < bound s + extra then slots s (k + 1)
    else if k + 1 = bound s + extra then blank else slots s k

variable {bound isHole remove} {slots : σ → Nat → α} {extra : Nat} {blank : α}
  {hole : α → Bool}

/-- The loop reaches no further than one removal from where it starts. -/
theorem squeeze_high {high : σ → Nat} {c : Nat} (hbound : ∀ i s, bound (remove i s) = bound s - 1)
    (hhigh : ∀ i s, i < bound s → high (remove i s) ≤ max (high s) (bound s - c))
    (fuel i : Nat) (s : σ) :
    high (squeeze bound isHole remove fuel i s) ≤ max (high s) (bound s - c) := by
  induction fuel generalizing i s with
  | zero => exact Nat.le_max_left _ _
  | succ fuel ih =>
      rw [squeeze]
      split
      · next hi =>
        split
        · have hrest := ih i (remove i s)
          have hone := hhigh i s hi
          have hlower := hbound i s
          omega
        · exact ih (i + 1) s
      · exact Nat.le_max_left _ _

namespace Removes

theorem of_slide {slide : σ → Nat → σ}
    (hslide : ∀ s k, slots (slide s k) = Function.update (slots s) k (slots s (k + 1)))
    (hbound : ∀ i s, bound (remove i s) = bound s - 1)
    (hslots : ∀ i s, slots (remove i s) = Function.update
      (slots ((List.range' i (bound s + extra - 1 - i)).foldl slide s)) (bound s + extra - 1) blank) :
    Removes bound remove slots extra blank where
  bound_eq s i _ := hbound i s
  slots_eq s i k hi := by
    rw [hslots]
    by_cases hk : k = bound s + extra - 1
    · rw [hk, Function.update_self, if_neg (by omega), if_pos (by omega)]
    · rw [Function.update_of_ne hk, foldl_slide hslide]
      by_cases hin : i ≤ k ∧ k < i + (bound s + extra - 1 - i)
      · rw [if_pos hin, if_pos (by omega)]
      · rw [if_neg hin, if_neg (by omega), if_neg (by omega)]

/-- After a removal the slots still to be looked at are the ones behind it. -/
theorem cut_remove (h : Removes bound remove slots extra blank) {s : σ} {i : Nat} {x : α}
    {rest : List α} (hl : cut (slots s) i (bound s - i) = x :: rest) :
    cut (slots (remove i s)) i (bound (remove i s) - i) = rest := by
  obtain ⟨hlen, -, hrest⟩ := cut_eq_cons hl
  rw [show bound (remove i s) - i = bound s - i - 1 by
    rw [h.bound_eq s i (by omega)]
    omega]
  refine Eq.trans (cut_congr ?_) hrest
  intro k hk
  rw [h.slots_eq s i _ (by omega), if_pos (by omega)]
  congr 1
  omega

theorem squeeze_eq (h : Removes bound remove slots extra blank)
    (hhole : ∀ s i, isHole s i = hole (slots s i)) {fuel i : Nat} {s : σ}
    (hfuel : bound s - i ≤ fuel) :
    squeeze bound isHole remove fuel i s =
      (removals hole i (cut (slots s) i (bound s - i))).foldl (fun s j => remove j s) s := by
  -- induction over the fuel; every pass shortens the slots still to be looked at
  induction fuel generalizing i s with
  | zero =>
      have hzero : bound s - i = 0 := by omega
      simp [squeeze, hzero, removals]
  | succ fuel ih =>
      by_cases hi : i < bound s
      · obtain ⟨n, hn⟩ : ∃ n, bound s - i = n + 1 := ⟨bound s - i - 1, by omega⟩
        have hcut : cut (slots s) i (bound s - i) =
            slots s i :: cut (slots s) (i + 1) (bound s - (i + 1)) := by
          rw [hn, cut_succ]
          congr 2
          omega
        rw [squeeze, if_pos hi, hhole, hcut, removals]
        by_cases hx : hole (slots s i)
        · have hbound := h.bound_eq s i hi
          rw [if_pos hx, if_pos hx, ih (by omega), h.cut_remove hcut, List.foldl_cons]
        · rw [if_neg hx, if_neg hx, ih (by omega)]
      · have hzero : bound s - i = 0 := by omega
        simp [squeeze, hi, hzero, removals]

theorem foldl_frame (h : Removes bound remove slots extra blank) {i : Nat} {s : σ} {l : List α}
    (hl : cut (slots s) i (bound s - i) = l) {k : Nat} (hk : k < i ∨ bound s + extra ≤ k) :
    slots ((removals hole i l).foldl (fun s j => remove j s) s) k = slots s k := by
  induction l generalizing i s with
  | nil => rfl
  | cons x rest ih =>
      obtain ⟨hlen, hhead, htail⟩ := cut_eq_cons hl
      by_cases hx : hole x
      · rw [removals, if_pos hx, List.foldl_cons,
          ih (h.cut_remove hl) (by rw [h.bound_eq s i (by omega)]; omega),
          h.slots_eq s i k (by omega), if_neg (by omega), if_neg (by omega)]
      · rw [removals, if_neg hx]
        exact ih htail (by omega)

/-- What the removals leave: the slots that are no holes in their order, the slots from the
bound on, and a blank for every hole. -/
theorem foldl_slots (h : Removes bound remove slots extra blank) {i : Nat} {s : σ} {l : List α}
    (hi : i ≤ bound s) (hl : cut (slots s) i (bound s - i) = l) :
    cut (slots ((removals hole i l).foldl (fun s j => remove j s) s)) i (bound s + extra - i) =
      l.filter (fun x => !hole x) ++ cut (slots s) (bound s) extra ++
        List.replicate (l.countP hole) blank := by
  induction l generalizing i s with
  | nil =>
      have hzero : bound s - i = 0 := by
        have := congrArg List.length hl
        simpa using this
      have heq : bound s = i := by omega
      simp [removals, heq]
  | cons x rest ih =>
      obtain ⟨hlen, hhead, htail⟩ := cut_eq_cons hl
      by_cases hx : hole x
      · have hbound := h.bound_eq s i (by omega)
        have hrest := h.cut_remove hl
        have hind := ih (by omega) hrest
        -- the slots from the bound on have moved down with the rest
        have hmoved : cut (slots (remove i s)) (bound (remove i s)) extra =
            cut (slots s) (bound s) extra := by
          apply cut_congr
          intro k hk
          rw [h.slots_eq s i _ (by omega), if_pos (by omega)]
          congr 1
          omega
        have hlast : slots ((removals hole i rest).foldl (fun s j => remove j s) (remove i s))
            (bound s + extra - 1) = blank := by
          rw [h.foldl_frame hrest (by omega), h.slots_eq s i _ (by omega), if_neg (by omega),
            if_pos (by omega)]
        rw [removals, if_pos hx, List.foldl_cons,
          show bound s + extra - i = bound (remove i s) + extra - i + 1 by omega, cut_succ_last,
          hind, hmoved, show i + (bound (remove i s) + extra - i) = bound s + extra - 1 by omega,
          hlast, List.filter_cons_of_neg (by simp [hx]), List.countP_cons_of_pos hx,
          List.replicate_succ', List.append_assoc]
      · have hind := ih (by omega) htail
        rw [removals, if_neg hx,
          show bound s + extra - i = bound s + extra - (i + 1) + 1 by omega, cut_succ, hind,
          h.foldl_frame htail (by omega), hhead, List.filter_cons_of_pos (by simp [hx]),
          List.countP_cons_of_neg hx]
        simp

theorem squeeze_frame (h : Removes bound remove slots extra blank)
    (hhole : ∀ s i, isHole s i = hole (slots s i)) {fuel i k : Nat} {s : σ}
    (hfuel : bound s - i ≤ fuel) (hk : k < i ∨ bound s + extra ≤ k) :
    slots (squeeze bound isHole remove fuel i s) k = slots s k := by
  rw [h.squeeze_eq hhole hfuel]
  exact h.foldl_frame rfl hk

/-- With at most one slot from the bound on, what the loop leaves is the table without its
holes, and after it blanks and perhaps the last slot. -/
theorem squeeze_slots (h : Removes bound remove slots extra blank)
    (hhole : ∀ s i, isHole s i = hole (slots s i)) (hextra : extra ≤ 1)
    {fuel i : Nat} {s : σ} (hi : i ≤ bound s) (hfuel : bound s - i ≤ fuel) :
    ∃ rest : List α,
      (∀ x ∈ rest, x = blank ∨ (hole x ∧ x ∈ cut (slots s) i (bound s + extra - i))) ∧
      cut (slots (squeeze bound isHole remove fuel i s)) i (bound s + extra - i) =
        (cut (slots s) i (bound s + extra - i)).filter (fun x => !hole x) ++ rest := by
  rw [h.squeeze_eq hhole hfuel, h.foldl_slots hi rfl]
  generalize hl : cut (slots s) i (bound s - i) = l
  have hblanks : ∀ x ∈ List.replicate (l.countP hole) blank, x = blank :=
    fun x => List.eq_of_mem_replicate
  rcases Nat.le_one_iff_eq_zero_or_eq_one.mp hextra with rfl | rfl
  · refine ⟨List.replicate (l.countP hole) blank, fun x hx => Or.inl (hblanks x hx), ?_⟩
    rw [Nat.add_zero, hl, cut_zero, List.append_nil]
  · have hall : cut (slots s) i (bound s + 1 - i) = l ++ [slots s (bound s)] := by
      rw [show bound s + 1 - i = bound s - i + 1 by omega, cut_succ_last, hl,
        show i + (bound s - i) = bound s by omega]
    have hone : cut (slots s) (bound s) 1 = [slots s (bound s)] := rfl
    rw [hall, hone, List.filter_append]
    -- the slot at the bound stays whatever it is
    by_cases hx : hole (slots s (bound s))
    · refine ⟨slots s (bound s) :: List.replicate (l.countP hole) blank, ?_, ?_⟩
      · intro x hmem
        rcases List.mem_cons.mp hmem with rfl | hmem
        · exact Or.inr ⟨hx, List.mem_append_right l List.mem_cons_self⟩
        · exact Or.inl (hblanks x hmem)
      · simp [hx]
    · refine ⟨List.replicate (l.countP hole) blank, fun x hx => Or.inl (hblanks x hx), ?_⟩
      simp [hx]

/-- The same of a longer table, whose other slots stay what they were. -/
theorem squeeze_window (h : Removes bound remove slots extra blank)
    (hhole : ∀ s i, isHole s i = hole (slots s i)) (hextra : extra ≤ 1)
    {fuel i n : Nat} {s : σ} (hi : i ≤ bound s) (hfuel : bound s - i ≤ fuel)
    (hn : bound s + extra ≤ i + n) :
    ∃ rest : List α,
      (∀ x ∈ rest, x = blank ∨ (hole x ∧ x ∈ cut (slots s) i (bound s + extra - i)) ∨
        ∃ k, bound s + extra ≤ k ∧ k < i + n ∧ slots s k = x) ∧
      cut (slots (squeeze bound isHole remove fuel i s)) i n =
        (cut (slots s) i (bound s + extra - i)).filter (fun x => !hole x) ++ rest := by
  obtain ⟨rest, hrest, hcut⟩ := h.squeeze_slots hhole hextra hi hfuel
  have hsplit := cut_append (slots (squeeze bound isHole remove fuel i s)) i
    (bound s + extra - i) (i + n - (bound s + extra))
  rw [show bound s + extra - i + (i + n - (bound s + extra)) = n by omega, hcut,
    List.append_assoc] at hsplit
  refine ⟨_, ?_, hsplit⟩
  intro x hx
  rcases List.mem_append.mp hx with hx | hx
  · exact (hrest x hx).imp_right Or.inl
  · obtain ⟨k, hk, rfl⟩ := List.mem_map.mp hx
    obtain ⟨hlo, hhi⟩ := List.mem_range'_1.mp hk
    have hbehind : bound s + extra ≤ k := by omega
    exact Or.inr (Or.inr ⟨k, hbehind, by omega, (h.squeeze_frame hhole hfuel (Or.inr hbehind)).symm⟩)

end Removes

end Loop

end Xwr100.Lib
