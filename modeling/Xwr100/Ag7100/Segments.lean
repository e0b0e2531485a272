import Xwr100.Ag7100.TxRing

/-!
# How a frame is cut into descriptors

The loop of `ag7100_hard_start` over `ag7100_get_tx_ds` on its own: each round cuts a piece off
the front of what is left.  The end of the module is that the transmit machine, when nothing
comes between, fills its descriptors with these pieces.
-/

namespace Xwr100.Ag7100

open Lib Lib.Ring TxMac

/-- What `ag7100_get_tx_ds` writes into a descriptor. -/
structure Piece where
  start : Nat
  size : Nat
  more : Bool
  deriving DecidableEq, Repr

/-- The variables `start` and `len` of `ag7100_hard_start`. -/
structure Cut where
  start : Nat
  len : Nat
  deriving DecidableEq, Repr

variable (c : TxConf)

namespace Cut

/-- The piece `ag7100_get_tx_ds` cuts off. -/
def piece (v : Cut) : Piece := ⟨v.start, lenThisDs c v.len, true⟩

def rest (v : Cut) : Cut := ⟨v.start + lenThisDs c v.len, v.len - lenThisDs c v.len⟩

/-- `while (len > 0)`; the fuel bounds the rounds. -/
def loop : Nat → Cut → Option (List Piece)
  | 0, _ => none
  | fuel + 1, v => if 0 < v.len then (loop fuel (v.rest c)).map (v.piece c :: ·) else some []

end Cut

/-- `ds->more = 0` on the last descriptor. -/
def clearMore : List Piece → List Piece
  | [] => []
  | [p] => [{ p with more := false }]
  | p :: q :: ps => p :: clearMore (q :: ps)

/-- The first descriptor is taken before the loop. -/
def cutFrame (fuel : Nat) (v : Cut) : Option (List Piece) :=
  ((v.rest c).loop c fuel).map fun ps => clearMore (v.piece c :: ps)

/-- The pieces lie one behind the other from an address on. -/
def Consecutive : Nat → List Piece → Prop
  | _, [] => True
  | a, p :: ps => p.start = a ∧ Consecutive (a + p.size) ps

structure Segmented (start len : Nat) (ps : List Piece) : Prop where
  consecutive : Consecutive start ps
  total : (ps.map Piece.size).sum = len
  long : ∀ p ∈ ps, 3 < p.size
  short : ∀ p ∈ ps, p.size ≤ c.txLenPerDs
  fits : ∀ p ∈ ps, p.size < 2 ^ 12
  more : ps.map Piece.more = List.replicate (ps.length - 1) true ++ [false]
  count : ps.length ≤ c.txMaxDescPerDsPkt

/-! ## One piece -/

theorem txLenPerDs_le : c.txLenPerDs ≤ 2048 := by
  unfold TxConf.txLenPerDs vetTxLenPerPkt
  dsimp only
  split
  · omega
  · split
    · split
      · omega
      · split <;> omega
    · omega

variable {c}

theorem lenThisDs_le {len : Nat} : lenThisDs c len ≤ len := by
  unfold lenThisDs
  split
  · split <;> omega
  · exact le_rfl

theorem lenThisDs_short {len : Nat} : lenThisDs c len ≤ c.txLenPerDs := by
  unfold lenThisDs
  split
  · split <;> omega
  · omega

/-- A piece is cut short so that what is left is nothing or more than three bytes. -/
theorem lenThisDs_long {len : Nat} (h : 3 < len) :
    3 < lenThisDs c len ∧ (len - lenThisDs c len = 0 ∨ 3 < len - lenThisDs c len) := by
  have hge := c.txLenPerDs_ge
  unfold lenThisDs
  split
  · split <;> omega
  · omega

/-! ## The loop -/

/-- What the pieces of the loop satisfy before the last `more` is cleared. -/
structure Pieces (c : TxConf) (v : Cut) (ps : List Piece) : Prop where
  consecutive : Consecutive v.start ps
  total : (ps.map Piece.size).sum = v.len
  long : ∀ p ∈ ps, 3 < p.size
  short : ∀ p ∈ ps, p.size ≤ c.txLenPerDs
  more : ∀ p ∈ ps, p.more = true

theorem Pieces.nil {v : Cut} (h : v.len = 0) : Pieces c v [] where
  consecutive := trivial
  total := h.symm
  long := by simp
  short := by simp
  more := by simp

theorem Pieces.cons {v : Cut} {ps : List Piece} (hlong : 3 < v.len)
    (h : Pieces c (v.rest c) ps) : Pieces c v (v.piece c :: ps) where
  consecutive := ⟨rfl, h.consecutive⟩
  total := by
    have hle : lenThisDs c v.len ≤ v.len := lenThisDs_le
    rw [List.map_cons, List.sum_cons, h.total]
    show lenThisDs c v.len + (v.len - lenThisDs c v.len) = v.len
    omega
  long := List.forall_mem_cons.mpr ⟨(lenThisDs_long hlong).1, h.long⟩
  short := List.forall_mem_cons.mpr ⟨lenThisDs_short, h.short⟩
  more := List.forall_mem_cons.mpr ⟨rfl, h.more⟩

/-- The loop ends within the descriptors the rest of the frame fits. -/
theorem loop_terminates {m : Nat} {v : Cut} (hfit : v.len ≤ m * c.txLenPerDs)
    (hlong : v.len = 0 ∨ 3 < v.len) :
    ∃ ps, (∀ fuel, m < fuel → v.loop c fuel = some ps) ∧ Pieces c v ps ∧ ps.length ≤ m := by
  induction m generalizing v with
  | zero =>
      have hzero : v.len = 0 := by omega
      refine ⟨[], ?_, Pieces.nil hzero, le_rfl⟩
      intro fuel hfuel
      obtain ⟨fuel, rfl⟩ := Nat.exists_eq_succ_of_ne_zero (Nat.ne_of_gt hfuel)
      simp [Cut.loop, hzero]
  | succ m ih =>
      rcases hlong with hzero | hlong
      · refine ⟨[], ?_, Pieces.nil hzero, Nat.zero_le _⟩
        intro fuel hfuel
        obtain ⟨fuel, rfl⟩ := Nat.exists_eq_succ_of_ne_zero (Nat.ne_of_gt (Nat.zero_lt_of_lt hfuel))
        simp [Cut.loop, hzero]
      · have hpos : 0 < v.len := by omega
        have hleft : (v.rest c).len ≤ m * c.txLenPerDs := (left_fits hfit hpos).2
        obtain ⟨ps, hloop, hpieces, hcount⟩ := ih hleft (lenThisDs_long hlong).2
        refine ⟨v.piece c :: ps, ?_, hpieces.cons hlong, Nat.succ_le_succ hcount⟩
        intro fuel hfuel
        obtain ⟨fuel, rfl⟩ := Nat.exists_eq_succ_of_ne_zero (Nat.ne_of_gt (Nat.zero_lt_of_lt hfuel))
        rw [Cut.loop, if_pos hpos, hloop fuel (by omega)]
        rfl

/-! ## The last piece -/

theorem getElem?_clearMore (ps : List Piece) (i : Nat) :
    (clearMore ps)[i]? =
      ps[i]?.map fun p => if i + 1 = ps.length then { p with more := false } else p := by
  induction ps using clearMore.induct generalizing i with
  | case1 => rfl
  | case2 p => cases i <;> simp [clearMore]
  | case3 p q ps ih =>
      cases i with
      | zero => simp [clearMore]
      | succ i => simpa [clearMore] using ih i

theorem length_clearMore (ps : List Piece) : (clearMore ps).length = ps.length := by
  induction ps using clearMore.induct with
  | case1 => rfl
  | case2 p => rfl
  | case3 p q ps ih => simp [clearMore, ih]

theorem sizes_clearMore (ps : List Piece) :
    (clearMore ps).map Piece.size = ps.map Piece.size := by
  induction ps using clearMore.induct with
  | case1 => rfl
  | case2 p => rfl
  | case3 p q ps ih => simp [clearMore, ih]

theorem Consecutive.clearMore {a : Nat} {ps : List Piece} (h : Consecutive a ps) :
    Consecutive a (clearMore ps) := by
  induction ps using clearMore.induct generalizing a with
  | case1 => trivial
  | case2 p => exact h
  | case3 p q ps ih => exact ⟨h.1, ih h.2⟩

theorem more_clearMore {ps : List Piece} (hne : ps ≠ []) (h : ∀ p ∈ ps, p.more = true) :
    (clearMore ps).map Piece.more = List.replicate (ps.length - 1) true ++ [false] := by
  induction ps using clearMore.induct with
  | case1 => exact absurd rfl hne
  | case2 p => rfl
  | case3 p q ps ih =>
      have hp : p.more = true := h p List.mem_cons_self
      have hrest := ih (List.cons_ne_nil _ _) fun r hr => h r (List.mem_cons_of_mem _ hr)
      rw [clearMore, List.map_cons, hrest, hp]
      rfl

theorem forall_size_clearMore {P : Nat → Prop} {ps : List Piece} (h : ∀ p ∈ ps, P p.size) :
    ∀ p ∈ clearMore ps, P p.size := by
  intro p hp
  have hmem : p.size ∈ ps.map Piece.size := by
    rw [← sizes_clearMore]
    exact List.mem_map_of_mem hp
  obtain ⟨q, hq, heq⟩ := List.mem_map.mp hmem
  rw [← heq]
  exact h q hq

/-- Every frame longer than four bytes and no longer than the FIFO is cut as the hardware takes
it, within the descriptors counted for one packet. -/
theorem cutFrame_segmented (c : TxConf) (start : Nat) {len : Nat} (hlong : 4 < len)
    (hmax : len ≤ 2048) :
    ∃ ps, (∀ fuel, c.txMaxDescPerDsPkt ≤ fuel → cutFrame c fuel ⟨start, len⟩ = some ps) ∧
      Segmented c start len ps := by
  have hfit : len ≤ c.txMaxDescPerDsPkt * c.txLenPerDs := hmax.trans c.le_maxDesc_mul
  obtain ⟨hpos, hleft⟩ := left_fits hfit (by omega)
  have hrest := (lenThisDs_long (c := c) (show 3 < len by omega)).2
  obtain ⟨ps, hloop, hpieces, hcount⟩ :=
    loop_terminates (v := Cut.rest c ⟨start, len⟩) hleft hrest
  have hall : Pieces c ⟨start, len⟩ (Cut.piece c ⟨start, len⟩ :: ps) :=
    hpieces.cons (by show 3 < len; omega)
  refine ⟨clearMore (Cut.piece c ⟨start, len⟩ :: ps), ?_, ?_⟩
  · intro fuel hfuel
    rw [cutFrame, hloop fuel (by omega)]
    rfl
  · have hle := txLenPerDs_le c
    exact {
      consecutive := hall.consecutive.clearMore
      total := by rw [sizes_clearMore]; exact hall.total
      long := forall_size_clearMore (P := fun n => 3 < n) hall.long
      short := forall_size_clearMore (P := fun n => n ≤ c.txLenPerDs) hall.short
      fits := forall_size_clearMore (P := fun n => n < 2 ^ 12) fun p hp => by
        have hshort := hall.short p hp
        omega
      more := by
        rw [length_clearMore]
        exact more_clearMore (List.cons_ne_nil _ _) hall.more
      count := by
        rw [length_clearMore, List.length_cons]
        omega }

/-- Segments of 512 bytes, the configured size. -/
def cut512 : TxConf := ⟨512, 100, 1536, by decide, by decide⟩

/-- The frame of 516 bytes that could not be sent once. -/
theorem cutFrame_segmented_516 :
    ∃ ps, (∀ fuel, cut512.txMaxDescPerDsPkt ≤ fuel → cutFrame cut512 fuel ⟨0, 516⟩ = some ps) ∧
      Segmented cut512 0 516 ps :=
  cutFrame_segmented cut512 0 (by decide) (by decide)

example : cutFrame cut512 4 ⟨0, 516⟩ = some [⟨0, 508, true⟩, ⟨508, 8, false⟩] := by decide

/-! ## The machine on its own -/

def Holds (d : TxDesc) (p : Piece) : Prop :=
  d.pktStartAddr = p.start ∧ d.pktSize = p.size ∧ d.more = p.more

variable {s : TxMac}

theorem giveToDma_holds {s : TxMac} {ds i : Nat} {p : Piece} :
    Holds ((s.giveToDma ds).desc i) p ↔ Holds (s.desc i) p := by
  by_cases h : i = ds
  · subst h
    simp [giveToDma, Holds]
  · simp [giveToDma, h]

/-- One round fills the descriptor at the head with the piece and goes on with the rest. -/
theorem runTask_round {x : Xmit} (htask : s.task = .getDs x) (hfree : s.owned s.head = false) :
    ∃ k, let s' := (runTask c)^[k] s
      s'.task = nextDs (s.advance c x) ∧ s'.head = incr c.descCnt s.head ∧
      s'.buf = s.buf ∧
      Holds (s'.desc s.head) (Cut.piece c ⟨x.start, x.len⟩) ∧
      ∀ i, i ≠ s.head → s'.desc i = s.desc i := by
  have hget : s.runTask c = s.getTxDs c x := by rw [runTask, htask]
  by_cases hfirst : x.nds = 0
  · refine ⟨1, ?_⟩
    rw [Function.iterate_one, hget, getTxDs, hfree]
    simp only [Bool.false_eq_true, if_false, if_pos hfirst]
    refine ⟨trivial, trivial, trivial, ?_, ?_⟩
    · simp [Holds, Cut.piece]
    · intro i hi
      rw [Function.update_of_ne hi]
  · refine ⟨2, ?_⟩
    have hgive : (s.getTxDs c x).task = .giveDs (s.advance c x) := by
      rw [getTxDs, hfree]
      simp only [Bool.false_eq_true, if_false, if_neg hfirst]
    have hds : (s.advance c x).ds = s.head := rfl
    rw [Function.iterate_succ_apply', Function.iterate_one, hget, runTask, hgive]
    dsimp only
    refine ⟨rfl, ?_, ?_, ?_, ?_⟩
    · simp [giveToDma, getTxDs, hfree]
    · simp [giveToDma, getTxDs, hfree]
    · show Holds (((s.getTxDs c x).giveToDma (s.advance c x).ds).desc s.head) _
      rw [giveToDma_holds, getTxDs, hfree]
      simp [Holds, Cut.piece]
    · intro i hi
      simp [giveToDma, getTxDs, hfree, hds, hi]

/-- From `s` to `s'` the pieces have been written to the slots from position `a` on, and no other
slot has changed. -/
structure Filled (c : TxConf) (s s' : TxMac) (a : Nat) (ps : List Piece) : Prop where
  held : ∀ i p, ps[i]? = some p → Holds (s'.desc ((a + i) % c.descCnt)) p
  rest : ∀ j, (∀ i < ps.length, (a + i) % c.descCnt ≠ j) → s'.desc j = s.desc j

theorem Filled.nil (s : TxMac) (a : Nat) : Filled c s s a [] where
  held i p hp := by simp at hp
  rest _ _ := rfl

theorem Filled.cons {s s' s'' : TxMac} {a : Nat} {p : Piece} {ps : List Piece}
    (h : Filled c s' s'' (a + 1) ps) (hroom : ps.length + 1 ≤ c.descCnt)
    (hheld : Holds (s'.desc (a % c.descCnt)) p)
    (hrest : ∀ j, j ≠ a % c.descCnt → s'.desc j = s.desc j) : Filled c s s'' a (p :: ps) where
  held i q hq := by
    cases i with
    | zero =>
        obtain rfl : p = q := by simpa using hq
        rw [Nat.add_zero, h.rest]
        · exact hheld
        · intro i hi
          rw [Nat.add_assoc]
          exact add_mod_ne a (by omega) (by omega) (show 1 + i ≠ 0 by omega)
    | succ i =>
        have hi := h.held i q (by simpa using hq)
        rwa [Nat.add_assoc, Nat.add_comm 1] at hi
  rest j hj := by
    rw [List.length_cons] at hj
    rw [h.rest j, hrest j]
    · intro heq
      exact hj 0 (Nat.zero_lt_succ _) heq.symm
    · intro i hi
      have hi' := hj (i + 1) (by omega)
      rwa [Nat.add_comm i, ← Nat.add_assoc] at hi'

/-- The rounds fill as many descriptors from the head on as there are pieces. -/
theorem runTask_loop {fuel : Nat} {v : Cut} {ps : List Piece} (hloop : v.loop c fuel = some ps)
    {x : Xmit} {a : Nat} (htask : s.task = nextDs x) (hx : v = ⟨x.start, x.len⟩)
    (hhead : s.head = a % c.descCnt) (hroom : ps.length ≤ c.descCnt)
    (hfree : ∀ i < ps.length, s.owned ((a + i) % c.descCnt) = false) :
    ∃ k x', let s' := (runTask c)^[k] s
      s'.task = .giveFirst x' ∧ s'.buf = s.buf ∧ x'.bp = x.bp ∧ x'.nds = x.nds + ps.length ∧
      x'.ds = (if ps = [] then x.ds else (a + ps.length - 1) % c.descCnt) ∧
      Filled c s s' a ps := by
  induction fuel generalizing s v ps x a with
  | zero => cases hloop
  | succ fuel ih =>
      subst hx
      rw [Cut.loop] at hloop
      by_cases hpos : 0 < x.len
      · rw [if_pos hpos, Option.map_eq_some_iff] at hloop
        obtain ⟨qs, hqs, rfl⟩ := hloop
        rw [nextDs, if_pos hpos] at htask
        rw [List.length_cons] at hroom hfree
        have hown : s.owned s.head = false := by
          rw [hhead]
          exact hfree 0 (Nat.zero_lt_succ _)
        obtain ⟨k, htask', hhead', hbuf', hholds, hframe⟩ := runTask_round (c := c) htask hown
        generalize hs' : (runTask c)^[k] s = s' at htask' hhead' hbuf' hholds hframe
        -- the other slots of the window are not the one that was filled
        have hfree' : ∀ i < qs.length, s'.owned ((a + 1 + i) % c.descCnt) = false := by
          intro i hi
          rw [Nat.add_assoc, Nat.add_comm 1, owned, hframe, ← owned]
          · exact hfree (i + 1) (by omega)
          · rw [hhead]
            exact add_mod_ne a (by omega) (show 0 < c.descCnt by omega) (by omega)
        rw [hhead, incr_mod c.descCnt_pos] at hhead'
        obtain ⟨k', x', hdone, hbuf, hbp, hnds, hds, hfilled⟩ :=
          ih hqs htask' rfl hhead' (by omega) hfree'
        rw [hhead] at hholds hframe
        refine ⟨k' + k, x', ?_⟩
        rw [Function.iterate_add_apply, hs']
        refine ⟨hdone, hbuf.trans hbuf', hbp, ?_, ?_, hfilled.cons hroom hholds hframe⟩
        · rw [hnds, List.length_cons]
          show x.nds + 1 + qs.length = x.nds + (qs.length + 1)
          omega
        · rw [hds, if_neg (List.cons_ne_nil _ _), List.length_cons]
          split
          · rename_i hnil
            rw [hnil]
            exact hhead
          · congr 1
            omega
      · rw [if_neg hpos] at hloop
        cases hloop
        rw [nextDs, if_neg hpos] at htask
        exact ⟨0, x, htask, rfl, rfl, rfl, rfl, Filled.nil s a⟩

/-- Clearing `more` on the last descriptor makes the pieces of the loop those of the frame. -/
theorem giveFirst_holds {s₀ : TxMac} {ps : List Piece} {x : Xmit} {a i : Nat} {p : Piece}
    (hds : x.ds = (a + ps.length - 1) % c.descCnt) (hroom : ps.length ≤ c.descCnt)
    (hfilled : Filled c s₀ s a ps) (hp : (clearMore ps)[i]? = some p) :
    Holds ((s.giveFirst x).desc ((a + i) % c.descCnt)) p := by
  rw [getElem?_clearMore, Option.map_eq_some_iff] at hp
  obtain ⟨q, hq, rfl⟩ := hp
  have hi : i < ps.length := (List.getElem?_eq_some_iff.mp hq).1
  have hold := hfilled.held i q hq
  unfold giveFirst
  rw [giveToDma_holds]
  by_cases hlast : i + 1 = ps.length
  · have hslot : x.ds = (a + i) % c.descCnt := by
      rw [hds]
      congr 1
      omega
    rw [if_pos hlast, hslot]
    simpa [Holds] using ⟨hold.1, hold.2.1⟩
  · have hslot : (a + i) % c.descCnt ≠ x.ds := by
      rw [hds, Nat.add_sub_assoc (by omega)]
      exact add_mod_ne a (by omega) (by omega) (by omega)
    rw [if_neg hlast]
    simpa [hslot] using hold

/-- With nothing in between, `ag7100_hard_start` fills the descriptors from the head on with the
pieces of its frame and books their number. -/
theorem hardStart_fills {f : Frame} {a : Nat} (htask : s.task = .begin f) (hlong : 4 < f.len)
    (hmax : f.len ≤ 2048) (hhead : s.head = a % c.descCnt)
    (hfree : ∀ i < c.txMaxDescPerDsPkt, s.owned ((a + i) % c.descCnt) = false) :
    ∃ ps k, Segmented c f.data f.len ps ∧
      let s' := (runTask c)^[k] s
      s'.task = .start ∧ (s'.buf s.head).bufNds = ps.length ∧
      ∀ i p, ps[i]? = some p → Holds (s'.desc ((a + i) % c.descCnt)) p := by
  obtain ⟨ps, hcut, hseg⟩ := cutFrame_segmented c f.data hlong hmax
  have hfuel := hcut c.txMaxDescPerDsPkt le_rfl
  rw [cutFrame, Option.map_eq_some_iff] at hfuel
  obtain ⟨qs, hqs, rfl⟩ := hfuel
  have hcount := hseg.count
  rw [length_clearMore] at hcount
  have hroom := hcount.trans ((Nat.le_add_right _ 2).trans c.maxDesc_add_two_le)
  have hpos : 0 < f.len := by omega
  have hloop : Cut.loop c (c.txMaxDescPerDsPkt + 1) ⟨f.data, f.len⟩ =
      some (Cut.piece c ⟨f.data, f.len⟩ :: qs) := by
    rw [Cut.loop, if_pos hpos, hqs]
    rfl
  have hne : Cut.piece c ⟨f.data, f.len⟩ :: qs ≠ [] := List.cons_ne_nil _ _
  generalize Cut.piece c ⟨f.data, f.len⟩ :: qs = ps at *
  let x : Xmit := ⟨f.skb, f.data, f.len, s.head, s.head, s.head, 0⟩
  have hbegin : (s.runTask c).task = nextDs x ∧ (s.runTask c).head = s.head ∧
      (s.runTask c).desc = s.desc := by
    rw [runTask, htask]
    simp [begin, show ¬ f.len ≤ 4 by omega, nextDs, x, hpos]
  have hfree' : ∀ i < ps.length, (s.runTask c).owned ((a + i) % c.descCnt) = false := by
    intro i hi
    rw [owned, hbegin.2.2]
    exact hfree i (hi.trans_le hcount)
  obtain ⟨k, x', hdone, -, hbp, hnds, hds, hfilled⟩ :=
    runTask_loop hloop hbegin.1 rfl (hbegin.2.1.trans hhead) hroom hfree'
  rw [if_neg hne] at hds
  generalize hs' : (runTask c)^[k] (s.runTask c) = s' at hdone hfilled
  have hfirst : s'.runTask c = s'.giveFirst x' := by rw [runTask, hdone]
  have hbook : (s'.giveFirst x').runTask c = (s'.giveFirst x').book x' := by
    rw [runTask]
    rfl
  refine ⟨clearMore ps, k + 3, hseg, ?_⟩
  have hrun : (runTask c)^[k + 3] s = (s'.giveFirst x').book x' := by
    rw [Function.iterate_succ_apply', Function.iterate_succ_apply', Function.iterate_succ_apply,
      hs', hfirst, hbook]
  rw [hrun]
  refine ⟨rfl, ?_, fun i p hp => giveFirst_holds hds hroom hfilled hp⟩
  rw [length_clearMore, book, hbp, hnds]
  simp [x]

end Xwr100.Ag7100
