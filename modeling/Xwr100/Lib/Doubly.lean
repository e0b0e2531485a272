import Xwr100.Lib.Linked

/-! # Doubly linked lists in a heap

Segments of nodes that are linked both ways, how they are put together, and what a write to one of
the two links at an end of a segment does.
-/

namespace Xwr100.Lib.Doubly

open Linked (addresses addresses_cons addresses_append)

variable {α : Type*}

structure Node (α : Type*) where
  data : α
  next : Option Nat
  prev : Option Nat

abbrev Heap (α : Type*) := Nat → Option (Node α)

/-- The nodes from `s` on have these addresses and data; the first has `b` in front of it, the last
is `e` and leads to `t`. -/
def Seg (h : Heap α) :
    Option Nat → Option Nat → List (Nat × α) → Option Nat → Option Nat → Prop
  | b, s, [], e, t => e = b ∧ s = t
  | b, s, (p, a) :: l, e, t => s = some p ∧ ∃ q, h p = some ⟨a, q, b⟩ ∧ Seg h (some p) q l e t

def IsList (h : Heap α) (head tail : Option Nat) (l : List (Nat × α)) : Prop :=
  Seg h none head l tail none

/-- The heap as one that has the links in one direction only. -/
def forward (h : Heap α) : Linked.Heap α := fun p => (h p).map fun n => ⟨n.data, n.next⟩

def backward (h : Heap α) : Linked.Heap α := fun p => (h p).map fun n => ⟨n.data, n.prev⟩

variable {h : Heap α} {b s e t : Option Nat} {l l' : List (Nat × α)}

/-! ## Segments -/

theorem seg_append : Seg h b s (l ++ l') e t ↔ ∃ m n, Seg h b s l m n ∧ Seg h m n l' e t := by
  induction l generalizing b s with
  | nil => simp [Seg]
  | cons x l ih =>
      obtain ⟨p, a⟩ := x
      constructor
      · intro hseg
        obtain ⟨rfl, q, hp, hrest⟩ := hseg
        obtain ⟨m, n, hl, hl'⟩ := ih.mp hrest
        exact ⟨m, n, ⟨rfl, q, hp, hl⟩, hl'⟩
      · intro hsplit
        obtain ⟨m, n, ⟨rfl, q, hp, hl⟩, hl'⟩ := hsplit
        exact ⟨rfl, q, hp, ih.mpr ⟨m, n, hl, hl'⟩⟩

theorem seg_iff : Seg h b s l e t ↔
    Linked.Seg (forward h) s l t ∧ Linked.Seg (backward h) e l.reverse b := by
  induction l generalizing b s with
  | nil => exact and_comm
  | cons x l ih =>
      obtain ⟨p, a⟩ := x
      rw [List.reverse_cons, Linked.seg_append]
      constructor
      · intro hseg
        obtain ⟨rfl, q, hp, hrest⟩ := hseg
        obtain ⟨hforward, hbackward⟩ := ih.mp hrest
        exact ⟨⟨rfl, q, by simp [forward, hp], hforward⟩,
          some p, hbackward, rfl, b, by simp [backward, hp], rfl⟩
      · intro hboth
        obtain ⟨⟨rfl, q, hp, hforward⟩, m, hbackward, rfl, b', hp', rfl⟩ := hboth
        obtain ⟨node, hnode, heq⟩ := Option.map_eq_some_iff.mp hp
        rw [backward, hnode] at hp'
        obtain ⟨rfl, rfl⟩ := Linked.Node.mk.inj heq
        obtain ⟨-, rfl⟩ := Linked.Node.mk.inj (Option.some.inj hp')
        exact ⟨rfl, node.next, hnode, ih.mpr ⟨hforward, hbackward⟩⟩

theorem isList_iff {head tail : Option Nat} : IsList h head tail l ↔
    Linked.IsList (forward h) head l ∧ Linked.IsList (backward h) tail l.reverse := seg_iff

theorem IsList.nodup {head tail : Option Nat} (hl : IsList h head tail l) : (addresses l).Nodup :=
  (isList_iff.mp hl).1.nodup

theorem Seg.congr {h' : Heap α} (hl : Seg h b s l e t) (heq : ∀ p ∈ addresses l, h' p = h p) :
    Seg h' b s l e t := by
  induction l generalizing b s with
  | nil => exact hl
  | cons x l ih =>
      obtain ⟨rfl, q, hp, hrest⟩ := hl
      refine ⟨rfl, q, ?_, ih hrest fun r hr => heq r (List.mem_cons_of_mem _ hr)⟩
      rw [heq x.1 List.mem_cons_self]
      exact hp

theorem Seg.update (hl : Seg h b s l e t) {p : Nat} (hp : p ∉ addresses l)
    (node : Option (Node α)) : Seg (Function.update h p node) b s l e t := by
  apply hl.congr
  intro r hr
  have hne : r ≠ p := fun heq => hp (heq ▸ hr)
  rw [Function.update_of_ne hne]

theorem seg_concat {p : Nat} {a : α} : Seg h b s (l ++ [(p, a)]) e t ↔
    e = some p ∧ ∃ m, h p = some ⟨a, t, m⟩ ∧ Seg h b s l m (some p) := by
  rw [seg_append]
  constructor
  · intro hseg
    obtain ⟨m, n, hl, rfl, q, hp, rfl, rfl⟩ := hseg
    exact ⟨rfl, m, hp, hl⟩
  · intro hseg
    obtain ⟨rfl, m, hp, hl⟩ := hseg
    exact ⟨m, some p, hl, rfl, t, hp, rfl, rfl⟩

theorem Seg.first_mem {x : Nat × α} (hl : Seg h b s (l ++ [x]) e t) :
    ∃ p ∈ addresses (l ++ [x]), s = some p := by
  cases l with
  | nil => exact ⟨x.1, List.mem_cons_self, hl.1⟩
  | cons y l => exact ⟨y.1, List.mem_cons_self, hl.1⟩

theorem Seg.last_mem {x : Nat × α} (hl : Seg h b s (x :: l) e t) :
    ∃ p ∈ addresses (x :: l), e = some p := by
  induction l generalizing b s x with
  | nil =>
      obtain ⟨rfl, q, -, rfl, -⟩ := hl
      exact ⟨x.1, List.mem_cons_self, rfl⟩
  | cons y l ih =>
      obtain ⟨-, q, -, hrest⟩ := hl
      obtain ⟨p, hp, he⟩ := ih hrest
      exact ⟨p, List.mem_cons_of_mem x.1 hp, he⟩

/-! ## Writes -/

/-- `p->next = q` -/
def setNext (h : Heap α) (p q : Option Nat) : Option (Heap α) :=
  p.bind fun p => (h p).map fun node => Function.update h p (some { node with next := q })

/-- `p->prev = q` -/
def setPrev (h : Heap α) (p q : Option Nat) : Option (Heap α) :=
  p.bind fun p => (h p).map fun node => Function.update h p (some { node with prev := q })

/-- `free(p)` -/
def free (h : Heap α) : Option Nat → Option (Heap α)
  | none => some h
  | some p => (h p).map fun _ => Function.update h p none

theorem free_eq {p : Nat} {node : Node α} (hp : h p = some node) :
    free h (some p) = some (Function.update h p none) := by
  rw [free, hp]
  rfl

theorem setPrev_setNext {p : Nat} {node : Node α} (hp : h p = some node) (q r : Option Nat) :
    (setPrev h (some p) q).bind (fun heap => setNext heap (some p) r) =
      some (Function.update h p (some ⟨node.data, r, q⟩)) := by
  simp [setPrev, setNext, hp]

/-- A segment is led elsewhere by a write to the link of its last node. -/
theorem Seg.setNext {p : Nat} {a : α} (hl : Seg h b s (l ++ [(p, a)]) e t)
    (hp : p ∉ addresses l) (t' : Option Nat) :
    ∃ node, setNext h e t' = some (Function.update h p node) ∧
      Seg (Function.update h p node) b s (l ++ [(p, a)]) e t' := by
  obtain ⟨rfl, m, hnode, hrest⟩ := seg_concat.mp hl
  refine ⟨some ⟨a, t', m⟩, by simp [Doubly.setNext, hnode], seg_concat.mpr ⟨rfl, m, ?_, ?_⟩⟩
  · exact Function.update_self p _ _
  · exact hrest.update hp _

/-- Another node is put in front of a segment by a write to the link of its first node. -/
theorem Seg.setPrev {p : Nat} {a : α} (hl : Seg h b s ((p, a) :: l) e t)
    (hp : p ∉ addresses l) (b' : Option Nat) :
    ∃ node, setPrev h s b' = some (Function.update h p node) ∧
      Seg (Function.update h p node) b' s ((p, a) :: l) e t := by
  obtain ⟨rfl, q, hnode, hrest⟩ := hl
  refine ⟨some ⟨a, q, b'⟩, by simp [Doubly.setPrev, hnode], rfl, q, ?_, hrest.update hp _⟩
  exact Function.update_self p _ _

end Xwr100.Lib.Doubly
