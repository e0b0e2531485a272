import Mathlib.Data.List.Nodup
import Mathlib.Logic.Function.Basic
import Mathlib.Tactic.Common

/-! # Linked lists in a heap

Singly linked lists of nodes with addresses, and a loop over one that may unlink and free the node
it stands at before it reads that node's link.
-/

namespace Xwr100.Lib.Linked

variable {α κ : Type*}

structure Node (α : Type*) where
  data : α
  next : Option Nat

abbrev Heap (α : Type*) := Nat → Option (Node α)

def Seg (h : Heap α) : Option Nat → List (Nat × α) → Option Nat → Prop
  | s, [], t => s = t
  | s, (p, a) :: l, t => s = some p ∧ ∃ q, h p = some ⟨a, q⟩ ∧ Seg h q l t

def IsList (h : Heap α) (s : Option Nat) (l : List (Nat × α)) : Prop := Seg h s l none

def addresses (l : List (Nat × α)) : List Nat := l.map Prod.fst

@[simp] theorem addresses_nil : addresses ([] : List (Nat × α)) = [] := rfl

@[simp] theorem addresses_cons (x : Nat × α) (l : List (Nat × α)) :
    addresses (x :: l) = x.1 :: addresses l := rfl

@[simp] theorem addresses_append (l l' : List (Nat × α)) :
    addresses (l ++ l') = addresses l ++ addresses l' := List.map_append

/-! ## Segments -/

theorem seg_append {h : Heap α} {s t : Option Nat} {l l' : List (Nat × α)} :
    Seg h s (l ++ l') t ↔ ∃ m, Seg h s l m ∧ Seg h m l' t := by
  induction l generalizing s with
  | nil => simp [Seg]
  | cons x l ih =>
      obtain ⟨p, a⟩ := x
      constructor
      · rintro ⟨rfl, q, hp, hrest⟩
        obtain ⟨m, hl, hl'⟩ := ih.mp hrest
        exact ⟨m, ⟨rfl, q, hp, hl⟩, hl'⟩
      · rintro ⟨m, ⟨rfl, q, hp, hl⟩, hl'⟩
        exact ⟨rfl, q, hp, ih.mpr ⟨m, hl, hl'⟩⟩

/-- A segment only depends on its own nodes. -/
theorem Seg.congr {h h' : Heap α} {s t : Option Nat} {l : List (Nat × α)} (hl : Seg h s l t)
    (heq : ∀ p ∈ addresses l, h' p = h p) : Seg h' s l t := by
  induction l generalizing s with
  | nil => exact hl
  | cons x l ih =>
      obtain ⟨rfl, q, hp, hrest⟩ := hl
      refine ⟨rfl, q, ?_, ih hrest fun r hr => heq r (List.mem_cons_of_mem _ hr)⟩
      rw [heq x.1 List.mem_cons_self]
      exact hp

theorem Seg.update {h : Heap α} {s t : Option Nat} {l : List (Nat × α)} (hl : Seg h s l t)
    {p : Nat} (hp : p ∉ addresses l) (node : Option (Node α)) :
    Seg (Function.update h p node) s l t := by
  apply hl.congr
  intro r hr
  have hne : r ≠ p := fun heq => hp (heq ▸ hr)
  rw [Function.update_of_ne hne]

theorem IsList.unique {h : Heap α} {s : Option Nat} {l l' : List (Nat × α)} (hl : IsList h s l)
    (hl' : IsList h s l') : l = l' := by
  induction l generalizing s l' with
  | nil =>
      cases l' with
      | nil => rfl
      | cons x l' =>
          obtain ⟨hs, -⟩ := hl'
          exact absurd (hl.symm.trans hs) (by simp)
  | cons x l ih =>
      obtain ⟨hs, q, hp, hrest⟩ := hl
      cases l' with
      | nil => exact absurd (hl'.symm.trans hs) (by simp)
      | cons y l' =>
          obtain ⟨hs', q', hp', hrest'⟩ := hl'
          obtain ⟨p, a⟩ := x
          obtain ⟨p', a'⟩ := y
          obtain rfl : p = p' := Option.some.inj (hs.symm.trans hs')
          obtain ⟨rfl, rfl⟩ := Node.mk.inj (Option.some.inj (hp.symm.trans hp'))
          rw [ih hrest hrest']

/-- A list that ends has no address twice. -/
theorem IsList.nodup {h : Heap α} {s : Option Nat} {l : List (Nat × α)} (hl : IsList h s l) :
    (addresses l).Nodup := by
  induction l generalizing s with
  | nil => exact List.nodup_nil
  | cons x l ih =>
      have hall := hl
      obtain ⟨hs, q, hp, hrest⟩ := hl
      refine List.nodup_cons.mpr ⟨fun hmem => ?_, ih hrest⟩
      -- the list from the second occurrence on would be the whole list
      obtain ⟨y, hy, hyx⟩ := List.mem_map.mp hmem
      obtain ⟨front, back, rfl⟩ := List.append_of_mem hy
      obtain ⟨m, -, hback⟩ := seg_append.mp hrest
      have hm : m = s := by
        rw [hback.1, hs]
        exact congrArg some hyx
      rw [hm] at hback
      have hsame := congrArg List.length (IsList.unique hback hall)
      simp only [List.length_cons, List.length_append] at hsame
      omega

/-! ## Unlinking -/

/-- Free a node; `keep` says that its memory can still be read as it was. -/
def release (keep : Bool) (h : Heap α) (p : Nat) : Heap α :=
  if keep then h else Function.update h p none

/-- The node from `g` on that links to `p`. -/
def before (h : Heap α) : Nat → Nat → Nat → Option Nat
  | 0, _, _ => none
  | n + 1, g, p =>
      (h g).bind fun node =>
        if node.next = some p then some g else node.next.bind fun g' => before h n g' p

/-- Take a node out of the list at `head` and free it; the new heap and head. -/
def unlink (keep : Bool) (depth : Nat) (h : Heap α) (head : Option Nat) (p : Nat) :
    Option (Heap α × Option Nat) :=
  (h p).bind fun node =>
    if head = some p then some (release keep h p, node.next)
    else
      head.bind fun g =>
        (before h depth g p).bind fun b =>
          (h b).map fun prev =>
            (release keep (Function.update h b (some ⟨prev.data, node.next⟩)) p, head)

/-- Memory that is not kept is gone. -/
theorem unlink_freed {depth : Nat} {h h' : Heap α} {head head' : Option Nat} {p : Nat}
    (hu : unlink false depth h head p = some (h', head')) : h' p = none := by
  unfold unlink at hu
  obtain ⟨node, -, hu⟩ := Option.bind_eq_some_iff.mp hu
  split at hu
  · cases hu
    simp [release]
  · obtain ⟨g, -, hu⟩ := Option.bind_eq_some_iff.mp hu
    obtain ⟨b, -, hu⟩ := Option.bind_eq_some_iff.mp hu
    obtain ⟨prev, -, hu⟩ := Option.map_eq_some_iff.mp hu
    cases hu
    simp [release]

/-- A segment with nodes is entered at the first of them. -/
theorem Seg.enter {h : Heap α} {s t : Option Nat} {l : List (Nat × α)} (hl : Seg h s l t)
    (hne : l ≠ []) : ∃ g ∈ addresses l, s = some g := by
  cases l with
  | nil => exact absurd rfl hne
  | cons x l => exact ⟨x.1, List.mem_cons_self, hl.1⟩

/-- The search finds the last node of the segment. -/
theorem before_eq {h : Heap α} {l : List (Nat × α)} {b : Nat} {a : α} {g p depth : Nat}
    (hl : Seg h (some g) (l ++ [(b, a)]) (some p)) (hp : p ∉ addresses (l ++ [(b, a)]))
    (hdepth : l.length < depth) : before h depth g p = some b := by
  obtain ⟨n, rfl⟩ := Nat.exists_eq_succ_of_ne_zero (Nat.ne_of_gt (Nat.zero_lt_of_lt hdepth))
  induction l generalizing g n with
  | nil =>
      obtain ⟨hg, q, hb, hq⟩ := hl
      obtain rfl : g = b := Option.some.inj hg
      have hq' : q = some p := hq
      simp [before, hb, hq']
  | cons x l ih =>
      obtain ⟨hg, q, hx, hrest⟩ := hl
      obtain rfl : g = x.1 := Option.some.inj hg
      rw [List.cons_append, addresses_cons, List.mem_cons, not_or] at hp
      rw [List.length_cons] at hdepth
      obtain ⟨m, rfl⟩ := Nat.exists_eq_succ_of_ne_zero (show n ≠ 0 by omega)
      obtain ⟨g', hg', rfl⟩ := Seg.enter hrest (by simp)
      have hne : g' ≠ p := fun heq => hp.2 (heq ▸ hg')
      rw [before, hx]
      simp only [Option.bind_some, Option.some.injEq, hne, if_false]
      exact ih hrest hp.2 m (by omega)

/-! ## The loop -/

structure Walk (α κ : Type*) where
  heap : Heap α
  head : Option Nat
  visited : List Nat
  acc : κ

/-- A loop that ends, or reads a node that is not there. -/
inductive Outcome (σ : Type*) where
  | returns (s : σ)
  | faults

/-- The loop: `act` says what becomes of the data, or that the node goes, for which `gone` is done.
The link is read from the node after that. -/
def walk (keep : Bool) (act : α → Option α) (gone : κ → α → κ) (depth : Nat) :
    Nat → Walk α κ → Option Nat → Option (Outcome (Walk α κ))
  | 0, _, _ => none
  | _ + 1, w, none => some (.returns w)
  | n + 1, w, some p =>
      match w.heap p with
      | none => some .faults
      | some node =>
          let visited := w.visited ++ [p]
          match act node.data with
          | some a =>
              walk keep act gone depth n
                { w with
                  heap := Function.update w.heap p (some ⟨a, node.next⟩)
                  visited := visited } node.next
          | none =>
              match unlink keep depth w.heap w.head p with
              | none => some .faults
              | some (heap, head) =>
                  match heap p with
                  | none => some .faults
                  | some freed =>
                      walk keep act gone depth n ⟨heap, head, visited, gone w.acc node.data⟩
                        freed.next

def after (act : α → Option α) (l : List (Nat × α)) : List (Nat × α) :=
  l.filterMap fun x => (act x.2).map fun a => (x.1, a)

theorem after_cons_some {act : α → Option α} {x : Nat × α} {a : α} (h : act x.2 = some a)
    (l : List (Nat × α)) : after act (x :: l) = (x.1, a) :: after act l := by
  simp [after, h]

theorem after_cons_none {act : α → Option α} {x : Nat × α} (h : act x.2 = none)
    (l : List (Nat × α)) : after act (x :: l) = after act l := by
  simp [after, h]

/-- No address is new. -/
theorem addresses_after {act : α → Option α} {l : List (Nat × α)} {p : Nat}
    (hp : p ∈ addresses (after act l)) : p ∈ addresses l := by
  obtain ⟨y, hy, rfl⟩ := List.mem_map.mp hp
  obtain ⟨x, hx, hmap⟩ := List.mem_filterMap.mp hy
  obtain ⟨a, -, rfl⟩ := Option.map_eq_some_iff.mp hmap
  exact (List.mem_map_of_mem hx : x.1 ∈ addresses l)

variable {act : α → Option α} (gone : κ → α → κ)

/-- A loop that lets every node stay visits them all and changes their data. -/
theorem walk_stays (keep : Bool) {w : Walk α κ} {s : Option Nat} {l : List (Nat × α)}
    (hl : IsList w.heap s l) (hstay : ∀ x ∈ l, act x.2 ≠ none) :
    ∃ h', (∀ depth fuel, l.length < fuel → walk keep act gone depth fuel w s =
        some (.returns { w with heap := h', visited := w.visited ++ addresses l })) ∧
      IsList h' s (after act l) ∧ ∀ p ∉ addresses l, h' p = w.heap p := by
  induction l generalizing w s with
  | nil =>
      refine ⟨w.heap, ?_, hl, fun _ _ => rfl⟩
      intro depth fuel hfuel
      obtain ⟨n, rfl⟩ := Nat.exists_eq_succ_of_ne_zero (Nat.ne_of_gt hfuel)
      obtain rfl : s = none := hl
      simp [walk]
  | cons x l ih =>
      obtain ⟨p, d⟩ := x
      have hnodup := List.nodup_cons.mp hl.nodup
      obtain ⟨rfl, q, hp, hrest⟩ := hl
      obtain ⟨a, ha⟩ := Option.ne_none_iff_exists'.mp (hstay _ List.mem_cons_self)
      let w' : Walk α κ :=
        { w with
          heap := Function.update w.heap p (some ⟨a, q⟩)
          visited := w.visited ++ [p] }
      obtain ⟨h', hwalk, hlist, hframe⟩ := ih (w := w') (Seg.update hrest hnodup.1 _)
        fun y hy => hstay y (List.mem_cons_of_mem _ hy)
      refine ⟨h', ?_, ?_, ?_⟩
      · intro depth fuel hfuel
        obtain ⟨n, rfl⟩ := Nat.exists_eq_succ_of_ne_zero (Nat.ne_of_gt (Nat.zero_lt_of_lt hfuel))
        rw [List.length_cons] at hfuel
        have hstep := hwalk depth n (by omega)
        simp only [walk, hp, ha]
        rw [hstep]
        simp [w']
      · rw [after_cons_some ha]
        refine ⟨rfl, q, ?_, hlist⟩
        rw [hframe p hnodup.1]
        exact Function.update_self p _ _
      · intro r hr
        rw [addresses_cons, List.mem_cons, not_or] at hr
        rw [hframe r hr.2]
        exact Function.update_of_ne hr.1 _ _

/-- A loop that frees a node reads it again. -/
theorem walk_faults {w : Walk α κ} {s : Option Nat} {l : List (Nat × α)}
    (hl : IsList w.heap s l) (hgone : ∃ x ∈ l, act x.2 = none) {depth fuel : Nat}
    (hfuel : l.length < fuel) : walk false act gone depth fuel w s = some .faults := by
  induction l generalizing w s fuel with
  | nil => simp at hgone
  | cons x l ih =>
      obtain ⟨p, d⟩ := x
      obtain ⟨n, rfl⟩ := Nat.exists_eq_succ_of_ne_zero (Nat.ne_of_gt (Nat.zero_lt_of_lt hfuel))
      rw [List.length_cons] at hfuel
      have hnodup := List.nodup_cons.mp hl.nodup
      obtain ⟨rfl, q, hp, hrest⟩ := hl
      simp only [walk, hp]
      cases ha : act d with
      | none =>
          cases hu : unlink false depth w.heap w.head p with
          | none => rfl
          | some r =>
              obtain ⟨h', head'⟩ := r
              simp only [unlink_freed hu]
      | some a =>
          let w' : Walk α κ :=
            { w with
              heap := Function.update w.heap p (some ⟨a, q⟩)
              visited := w.visited ++ [p] }
          refine ih (w := w') (Seg.update hrest hnodup.1 _) ?_ (by omega)
          obtain ⟨y, hy, hynone⟩ := hgone
          rcases List.mem_cons.mp hy with rfl | hmem
          · exact absurd (ha.symm.trans hynone) (by simp)
          · exact ⟨y, hmem, hynone⟩

/-! ### Memory that is kept -/

/-- Unlinking the node behind a segment leads the segment past it. -/
theorem unlink_kept {h : Heap α} {head q : Option Nat} {front l : List (Nat × α)} {p : Nat} {d : α}
    (hfront : Seg h head front (some p)) (hp : h p = some ⟨d, q⟩) (hl : IsList h q l)
    (hnodup : (addresses (front ++ (p, d) :: l)).Nodup) :
    ∃ h' head', (∀ depth, front.length ≤ depth →
        unlink true depth h head p = some (h', head')) ∧
      Seg h' head' front q ∧ IsList h' q l ∧ h' p = some ⟨d, q⟩ := by
  rw [addresses_append, addresses_cons] at hnodup
  have hpfront : p ∉ addresses front := fun hmem =>
    (List.nodup_append.mp hnodup).2.2 p hmem p List.mem_cons_self rfl
  rcases List.eq_nil_or_concat front with rfl | ⟨front, x, rfl⟩
  · obtain rfl : head = some p := hfront
    exact ⟨h, q, fun depth _ => by simp [unlink, hp, release], rfl, hl, hp⟩
  · obtain ⟨b, a⟩ := x
    rw [List.concat_eq_append] at *
    obtain ⟨g, hg, rfl⟩ := Seg.enter hfront (by simp)
    have hne : g ≠ p := fun heq => hpfront (heq ▸ hg)
    have hpmem := hpfront
    obtain ⟨m, hinit, rfl, t, hb, ht⟩ := seg_append.mp hfront
    have hfrontNodup := (List.nodup_append.mp hnodup).1
    rw [addresses_append] at hfrontNodup hpfront
    have hbinit : b ∉ addresses front := fun hmem =>
      (List.nodup_append.mp hfrontNodup).2.2 b hmem b (by simp) rfl
    have hbl : b ∉ p :: addresses l := fun hmem =>
      (List.nodup_append.mp hnodup).2.2 b (by simp) b hmem rfl
    rw [List.mem_cons, not_or] at hbl
    refine ⟨Function.update h b (some ⟨a, q⟩), some g, ?_, ?_, ?_, ?_⟩
    · intro depth hdepth
      rw [List.length_append] at hdepth
      simp [unlink, hp, hne, before_eq hfront hpmem (show front.length < depth from hdepth), hb,
        release]
    · exact seg_append.mpr ⟨some b, hinit.update hbinit _, rfl, q, Function.update_self b _ h, rfl⟩
    · exact Seg.update hl hbl.2 _
    · rw [Function.update_of_ne (Ne.symm hbl.1)]
      exact hp

/-- A loop whose freed nodes keep their links visits every node and leaves the list of those that
stay. -/
theorem walk_kept {w : Walk α κ} {s : Option Nat} {front l : List (Nat × α)}
    (hfront : Seg w.heap w.head front s) (hl : IsList w.heap s l) :
    ∃ h' head', (∀ depth fuel, front.length + l.length ≤ depth → l.length < fuel →
        walk true act gone depth fuel w s = some (.returns
          ⟨h', head', w.visited ++ addresses l,
            (l.filter fun x => (act x.2).isNone).foldl (fun k x => gone k x.2) w.acc⟩)) ∧
      IsList h' head' (front ++ after act l) := by
  induction l generalizing w s front with
  | nil =>
      obtain rfl : s = none := hl
      refine ⟨w.heap, w.head, ?_, ?_⟩
      · intro depth fuel _ hfuel
        obtain ⟨n, rfl⟩ := Nat.exists_eq_succ_of_ne_zero (Nat.ne_of_gt hfuel)
        simp [walk]
      · simp only [after, List.filterMap_nil, List.append_nil]
        exact hfront
  | cons x l ih =>
      obtain ⟨p, d⟩ := x
      have hall : IsList w.heap w.head (front ++ (p, d) :: l) := seg_append.mpr ⟨s, hfront, hl⟩
      have hnodup := hall.nodup
      obtain ⟨rfl, q, hp, hrest⟩ := hl
      cases ha : act d with
      | some a =>
          rw [addresses_append, addresses_cons] at hnodup
          have hpfront : p ∉ addresses front := fun hmem =>
            (List.nodup_append.mp hnodup).2.2 p hmem p List.mem_cons_self rfl
          have hpl := (List.nodup_cons.mp (List.nodup_append.mp hnodup).2.1).1
          let w' : Walk α κ :=
            { w with
              heap := Function.update w.heap p (some ⟨a, q⟩)
              visited := w.visited ++ [p] }
          have hfront' : Seg w'.heap w'.head (front ++ [(p, a)]) q :=
            seg_append.mpr ⟨some p, hfront.update hpfront _, rfl, q, Function.update_self p _ _, rfl⟩
          obtain ⟨h', head', hwalk, hlist⟩ := ih (w := w') hfront' (Seg.update hrest hpl _)
          refine ⟨h', head', ?_, ?_⟩
          · intro depth fuel hdepth hfuel
            obtain ⟨n, rfl⟩ := Nat.exists_eq_succ_of_ne_zero (Nat.ne_of_gt (Nat.zero_lt_of_lt hfuel))
            rw [List.length_cons] at hdepth hfuel
            have hstep := hwalk depth n
              (by rw [List.length_append, List.length_singleton]; omega) (by omega)
            simp only [walk, hp, ha]
            rw [hstep]
            simp [w', ha]
          · rw [after_cons_some ha]
            simpa using hlist
      | none =>
          obtain ⟨h₁, head₁, hunlink, hfront₁, hl₁, hp₁⟩ := unlink_kept hfront hp hrest hnodup
          let w' : Walk α κ := ⟨h₁, head₁, w.visited ++ [p], gone w.acc d⟩
          obtain ⟨h', head', hwalk, hlist⟩ := ih (w := w') hfront₁ hl₁
          refine ⟨h', head', ?_, ?_⟩
          · intro depth fuel hdepth hfuel
            obtain ⟨n, rfl⟩ := Nat.exists_eq_succ_of_ne_zero (Nat.ne_of_gt (Nat.zero_lt_of_lt hfuel))
            rw [List.length_cons] at hdepth hfuel
            have hstep := hwalk depth n (by omega) (by omega)
            simp only [walk, hp, ha, hunlink depth (by omega), hp₁]
            rw [hstep]
            simp [w', ha]
          · rw [after_cons_none ha]
            exact hlist

end Xwr100.Lib.Linked
