import Xwr100.Lib.Doubly
import Xwr100.Upnp.Mappings

/-! # The links of the mapping list

The nodes of `pmlist.c` with their pointers.  A function that follows a pointer to no node, frees
memory twice or stays in a loop for more turns than it is given has no result.  No list is so long
that an `int` cannot count it.  The firewall rules and the timers of the mappings, which touch no
pointer, are in the model of the daemon.
-/

namespace Xwr100.Upnp.Pointers

open Lib Lib.Doubly

/-- `pmlist_Head`, `pmlist_Tail` and `pmlist_Current`, and the memory of the nodes. -/
structure State where
  heap : Heap PortMap
  head : Option Nat
  tail : Option Nat
  current : Option Nat

def init : State := ⟨fun _ => none, none, none, none⟩

/-! ## Loops over the list -/

/-- The loops that look for a node, and the number of the turn; `stop` may follow the pointer. -/
def findLoop (h : Heap PortMap) (stop : Nat → Nat → Option Bool) :
    Nat → Nat → Nat → Option (Option Nat)
  | 0, _, _ => none
  | fuel + 1, i, temp => do
      if ← stop i temp then return some temp
      let node ← h temp
      match node.next with
      | none => return none
      | some next => findLoop h stop fuel (i + 1) next

def find (fuel : Nat) (s : State) (stop : Nat → Nat → Option Bool) : Option (Option Nat) :=
  match s.head with
  | none => some none
  | some temp => findLoop s.heap stop fuel 0 temp

def pmlistFind (fuel : Nat) (s : State) (externalPort proto internalClient : String) :
    Option (Option Nat) :=
  find fuel s fun _ temp => (s.heap temp).map fun node =>
    node.data.externalPort = externalPort ∧ node.data.protocol = proto ∧
      node.data.internalClient = internalClient

def pmlistFindByIndex (fuel : Nat) (s : State) (index : Int) : Option (Option Nat) :=
  find fuel s fun i _ => some ((i : Int) = index)

/-- The loop of `pmlist_Size`. -/
def sizeLoop (h : Heap PortMap) : Nat → Nat → Nat → Option Nat
  | 0, _, _ => none
  | fuel + 1, size, temp =>
      (h temp).bind fun node =>
        match node.next with
        | none => some (size + 1)
        | some next => sizeLoop h fuel (size + 1) next

def pmlistSize (fuel : Nat) (s : State) : Option Nat :=
  match s.head with
  | none => some 0
  | some temp => sizeLoop s.heap fuel 0 temp

/-! ## Changes -/

/-- The loop of `pmlist_FreeList`; the link is read before the node is freed. -/
def freeLoop : Nat → Heap PortMap → Option Nat → Option (Heap PortMap)
  | 0, _, _ => none
  | _ + 1, h, none => some h
  | fuel + 1, h, some temp => do
      let node ← h temp
      let h ← free h (some temp)
      freeLoop fuel h node.next

def pmlistFreeList (fuel : Nat) (s : State) : Option State := do
  let heap ← freeLoop fuel s.heap s.head
  return { s with heap := heap, head := none, tail := none }

def pmlistPushBack (s : State) (item : Nat) : Option State :=
  match s.tail with
  | some _ => do
      let heap ← setNext s.heap s.tail (some item)
      let heap ← setPrev heap (some item) s.tail
      let heap ← setNext heap (some item) none
      return { s with heap := heap, tail := some item }
  | none => do
      let heap ← setPrev s.heap (some item) none
      let heap ← setNext heap (some item) none
      return ⟨heap, some item, some item, some item⟩

/-- Take a node out of the list and free it: the only one, the first, the last or another. -/
def unlink (s : State) (temp : Nat) : Option State := do
  let node ← s.heap temp
  if s.head = some temp then
    if node.next = none then
      let heap ← free s.heap (some temp)
      return ⟨heap, none, none, none⟩
    else
      let heap ← setPrev s.heap node.next none
      let heap ← free heap (some temp)
      return { s with heap := heap, head := node.next }
  else if s.tail = some temp then
    let last ← node.prev.bind s.heap
    let heap ← free s.heap last.next
    let heap ← setNext heap node.prev none
    return { s with heap := heap, tail := node.prev }
  else
    let heap ← setNext s.heap node.prev node.next
    let node ← heap temp
    let heap ← setPrev heap node.next node.prev
    let node ← heap temp
    let heap ← free heap (some temp)
    return { s with heap := heap, current := node.next }

/-- `pmlist_Delete`, with what it returns; the node is looked for by the fields of `item`. -/
def pmlistDelete (fuel : Nat) (s : State) (item : Nat) : Option (State × Bool) := do
  let node ← s.heap item
  let found ← pmlistFind fuel s node.data.externalPort node.data.protocol node.data.internalClient
  match found with
  | some temp =>
      let s ← unlink s temp
      return (s, true)
  | none => return (s, false)

/-! ## Runs -/

/-- A call; a node is appended as `pmlist_NewNode` made it. -/
inductive Call
  | pushBack (item : PortMap)
  | delete (item : Nat)
  | freeList

/-- The node is in memory before it is appended. -/
def newMemory (s : State) (item : PortMap) : State :=
  { s with heap := Function.update s.heap item.node (some ⟨item, none, none⟩) }

def call (fuel : Nat) (s : State) : Call → Option State
  | .pushBack item => pmlistPushBack (newMemory s item) item.node
  | .delete item => (pmlistDelete fuel s item).map Prod.fst
  | .freeList => pmlistFreeList fuel s

def run (fuel : Nat) (calls : List Call) : Option State := calls.foldlM (call fuel) init

/-! ## The list as it should be -/

def listStep (l : List PortMap) : Call → List PortMap
  | .pushBack item => l ++ [item]
  | .delete item => l.filter fun p => p.node ≠ item
  | .freeList => []

/-- A node is appended in memory that was free, and a node of the list is deleted. -/
def Possible (l : List PortMap) : Call → Prop
  | .pushBack item => item.node ∉ l.map PortMap.node
  | .delete item => item ∈ l.map PortMap.node
  | .freeList => True

/-- What `pmlist_Find` compares. -/
def SameFields (p m : PortMap) : Prop :=
  p.externalPort = m.externalPort ∧ p.protocol = m.protocol ∧ p.internalClient = m.internalClient

/-- No node in front of the one to be deleted has its port, protocol and client. -/
def FirstWithFields (l : List PortMap) : Call → Prop
  | .delete item => ∀ m ∈ l, m.node = item →
      ∀ p ∈ l.takeWhile fun p => p.node ≠ item, ¬SameFields p m
  | _ => True

instance Possible.decidable (l : List PortMap) : ∀ c, Decidable (Possible l c)
  | .pushBack item => inferInstanceAs (Decidable (item.node ∉ l.map PortMap.node))
  | .delete item => inferInstanceAs (Decidable (item ∈ l.map PortMap.node))
  | .freeList => isTrue trivial

instance SameFields.decidable (p m : PortMap) : Decidable (SameFields p m) :=
  inferInstanceAs (Decidable (_ ∧ _ ∧ _))

instance FirstWithFields.decidable (l : List PortMap) : ∀ c, Decidable (FirstWithFields l c)
  | .pushBack _ => isTrue trivial
  | .delete item => inferInstanceAs (Decidable (∀ m ∈ l, m.node = item →
      ∀ p ∈ l.takeWhile fun p => p.node ≠ item, ¬SameFields p m))
  | .freeList => isTrue trivial

def nodes (l : List PortMap) : List (Nat × PortMap) := l.map fun p => (p.node, p)

/-- The pointers are the sequence, forwards and backwards, and the functions that read it say so. -/
structure ListRight (s : State) (l : List PortMap) : Prop where
  forwards : Linked.IsList (forward s.heap) s.head (nodes l)
  backwards : Linked.IsList (backward s.heap) s.tail (nodes l).reverse
  size : ∀ fuel, l.length < fuel → pmlistSize fuel s = some l.length
  index : ∀ fuel, l.length < fuel → ∀ (i : Nat) (hi : i < l.length),
    pmlistFindByIndex fuel s i = some (some l[i].node)
  beyond : ∀ fuel, l.length < fuel → ∀ i : Int, i < 0 ∨ l.length ≤ i →
    pmlistFindByIndex fuel s i = some none

/-- No call of a run fails, and after each the list is what the calls should have made it. -/
def RunRight (calls : List Call) : Prop :=
  ∀ fuel, calls.length < fuel → ∀ done, done <+: calls →
    ∃ s, run fuel done = some s ∧ ListRight s (exec listStep [] done)

/-! ## What the loops find -/

def Represents (s : State) (l : List PortMap) : Prop := IsList s.heap s.head s.tail (nodes l)

theorem nodes_append (l l' : List PortMap) : nodes (l ++ l') = nodes l ++ nodes l' :=
  List.map_append

theorem addresses_nodes (l : List PortMap) : Linked.addresses (nodes l) = l.map PortMap.node := by
  simp [Linked.addresses, nodes]

variable {h : Heap PortMap} {b e : Option Nat} {l : List PortMap} {s : State}

/-- The first element a test finds that also sees the number of the element. -/
def firstFrom (test : Nat → PortMap → Bool) : Nat → List PortMap → Option PortMap
  | _, [] => none
  | i, m :: l => if test i m then some m else firstFrom test (i + 1) l

theorem firstFrom_const (test : PortMap → Bool) (i : Nat) (l : List PortMap) :
    firstFrom (fun _ => test) i l = l.find? test := by
  induction l generalizing i with
  | nil => rfl
  | cons m l ih =>
      rw [firstFrom, ih, List.find?_cons]
      cases test m <;> rfl

theorem firstFrom_index (index : Int) (i : Nat) (l : List PortMap) :
    firstFrom (fun j _ => (j : Int) = index) i l = Upnp.pmlistFindByIndex l (index - i) := by
  induction l generalizing i with
  | nil => simp [firstFrom, Upnp.pmlistFindByIndex]
  | cons m l ih =>
      rw [firstFrom, ih]
      unfold Upnp.pmlistFindByIndex
      by_cases hnow : (i : Int) = index
      · simp [hnow]
      · rw [if_neg (by simpa using hnow)]
        by_cases hbefore : index - (i : Int) < 0
        · rw [if_pos hbefore, if_pos (by omega)]
        · have hnext : (index - (i : Int)).toNat = (index - (i + 1 : Nat)).toNat + 1 := by omega
          rw [if_neg hbefore, if_neg (by omega), hnext, List.getElem?_cons_succ]

theorem findLoop_eq {stop : Nat → Nat → Option Bool} {test : Nat → PortMap → Bool} {temp : Nat}
    (hl : Seg h b (some temp) (nodes l) e none)
    (hstop : ∀ i, ∀ m ∈ l, stop i m.node = some (test i m)) (hne : l ≠ []) {fuel : Nat}
    (hfuel : l.length < fuel) (i : Nat) :
    findLoop h stop fuel i temp = some ((firstFrom test i l).map PortMap.node) := by
  induction l generalizing b temp fuel i with
  | nil => contradiction
  | cons m l ih =>
      obtain ⟨fuel, rfl⟩ := Nat.exists_eq_succ_of_ne_zero (Nat.ne_of_gt (Nat.zero_lt_of_lt hfuel))
      rw [List.length_cons] at hfuel
      obtain ⟨htemp, q, hm, hrest⟩ := hl
      obtain rfl : temp = m.node := Option.some.inj htemp
      have hstop' : ∀ i, ∀ m ∈ l, stop i m.node = some (test i m) := fun i p hp =>
        hstop i p (List.mem_cons_of_mem m hp)
      rw [findLoop, hstop i m List.mem_cons_self, firstFrom]
      cases test i m with
      | true => rfl
      | false =>
          cases l with
          | nil =>
              obtain ⟨-, rfl⟩ := hrest
              simp [hm, firstFrom]
          | cons m' l =>
              obtain rfl : q = some m'.node := hrest.1
              simp only [Option.bind_eq_bind, Option.bind_some, Bool.false_eq_true, if_false, hm]
              exact ih hrest hstop' (List.cons_ne_nil m' l) (by omega) (i + 1)

theorem Represents.find_eq (hl : Represents s l) {stop : Nat → Nat → Option Bool}
    {test : Nat → PortMap → Bool} (hstop : ∀ i, ∀ m ∈ l, stop i m.node = some (test i m))
    {fuel : Nat} (hfuel : l.length < fuel) :
    find fuel s stop = some ((firstFrom test 0 l).map PortMap.node) := by
  unfold Represents IsList at hl
  unfold find
  cases l with
  | nil =>
      obtain ⟨-, hhead⟩ := hl
      rw [hhead]
      rfl
  | cons m l =>
      have hhead : s.head = some m.node := hl.1
      rw [hhead] at hl ⊢
      exact findLoop_eq hl hstop (List.cons_ne_nil m l) hfuel 0

theorem Represents.node (hl : Represents s l) {m : PortMap} (hm : m ∈ l) :
    ∃ next prev, s.heap m.node = some ⟨m, next, prev⟩ := by
  obtain ⟨front, back, rfl⟩ := List.append_of_mem hm
  unfold Represents IsList at hl
  rw [nodes_append, seg_append] at hl
  obtain ⟨prev, -, -, -, next, hnode, -⟩ := hl
  exact ⟨next, prev, hnode⟩

theorem Represents.pmlistFind_eq (hl : Represents s l) {fuel : Nat} (hfuel : l.length < fuel)
    (externalPort proto internalClient : String) :
    pmlistFind fuel s externalPort proto internalClient =
      some ((Upnp.pmlistFind l externalPort proto internalClient).map PortMap.node) := by
  have hstop : ∀ i : Nat, ∀ m ∈ l, ((s.heap m.node).map fun node =>
      decide (node.data.externalPort = externalPort ∧ node.data.protocol = proto ∧
        node.data.internalClient = internalClient)) =
      some (decide (m.externalPort = externalPort ∧ m.protocol = proto ∧
        m.internalClient = internalClient)) := by
    intro _ m hm
    obtain ⟨next, prev, hnode⟩ := hl.node hm
    rw [hnode]
    rfl
  rw [pmlistFind, hl.find_eq hstop hfuel, firstFrom_const]
  rfl

theorem Represents.pmlistFindByIndex_eq (hl : Represents s l) {fuel : Nat}
    (hfuel : l.length < fuel) (index : Int) : pmlistFindByIndex fuel s index =
      some ((Upnp.pmlistFindByIndex l index).map PortMap.node) := by
  have hindex := firstFrom_index index 0 l
  rw [Int.natCast_zero, Int.sub_zero] at hindex
  rw [pmlistFindByIndex, hl.find_eq (fun _ _ _ => rfl) hfuel, hindex]

theorem sizeLoop_eq {temp : Nat} (hl : Seg h b (some temp) (nodes l) e none) (hne : l ≠ [])
    {fuel : Nat} (hfuel : l.length < fuel) (size : Nat) :
    sizeLoop h fuel size temp = some (size + l.length) := by
  induction l generalizing b temp fuel size with
  | nil => contradiction
  | cons m l ih =>
      obtain ⟨fuel, rfl⟩ := Nat.exists_eq_succ_of_ne_zero (Nat.ne_of_gt (Nat.zero_lt_of_lt hfuel))
      rw [List.length_cons] at hfuel ⊢
      obtain ⟨htemp, q, hm, hrest⟩ := hl
      obtain rfl : temp = m.node := Option.some.inj htemp
      rw [sizeLoop, hm, Option.bind_some]
      cases l with
      | nil =>
          obtain ⟨-, rfl⟩ := hrest
          rfl
      | cons m' l =>
          obtain rfl : q = some m'.node := hrest.1
          have hsum : size + ((m' :: l).length + 1) = size + 1 + (m' :: l).length := by omega
          rw [hsum]
          exact ih hrest (List.cons_ne_nil m' l) (by omega) (size + 1)

theorem Represents.pmlistSize_eq (hl : Represents s l) {fuel : Nat} (hfuel : l.length < fuel) :
    pmlistSize fuel s = some l.length := by
  unfold Represents IsList at hl
  unfold pmlistSize
  cases l with
  | nil =>
      obtain ⟨-, hhead⟩ := hl
      rw [hhead]
      rfl
  | cons m l =>
      have hhead : s.head = some m.node := hl.1
      rw [hhead] at hl ⊢
      dsimp only
      rw [sizeLoop_eq hl (List.cons_ne_nil m l) hfuel 0, Nat.zero_add]

theorem Represents.listRight (hl : Represents s l) : ListRight s l where
  forwards := (isList_iff.mp hl).1
  backwards := (isList_iff.mp hl).2
  size _ hfuel := hl.pmlistSize_eq hfuel
  index fuel hfuel i hi := by
    have hpos : ¬(i : Int) < 0 := by omega
    rw [hl.pmlistFindByIndex_eq hfuel, Upnp.pmlistFindByIndex, if_neg hpos, Int.toNat_natCast,
      List.getElem?_eq_getElem hi]
    rfl
  beyond fuel hfuel i hi := by
    rw [hl.pmlistFindByIndex_eq hfuel, Upnp.pmlistFindByIndex]
    by_cases hneg : i < 0
    · rw [if_pos hneg]
      rfl
    · rw [if_neg hneg, List.getElem?_eq_none (by omega)]
      rfl

theorem Represents.nodup (hl : Represents s l) : (l.map PortMap.node).Nodup := by
  rw [← addresses_nodes]
  exact IsList.nodup hl

/-! ## What the changes do -/

/-- Memory that is not in the list can be written. -/
theorem seg_update {p : Nat} {b s e t : Option Nat} (hl : Seg h b s (nodes l) e t)
    (hp : p ∉ l.map PortMap.node) (node : Option (Node PortMap)) :
    Seg (Function.update h p node) b s (nodes l) e t := by
  rw [← addresses_nodes] at hp
  exact hl.update hp node

theorem not_mem_addresses {p : Nat} (hp : p ∉ l.map PortMap.node) :
    p ∉ Linked.addresses (nodes l) := by
  rw [addresses_nodes]
  exact hp

/-- The addresses of a list tell its last node from the others. -/
theorem not_mem_of_nodup_concat {front : List PortMap} {x : PortMap}
    (hnodup : ((front ++ [x]).map PortMap.node).Nodup) :
    x.node ∉ Linked.addresses (nodes front) := by
  rw [List.map_append, List.nodup_append] at hnodup
  apply not_mem_addresses
  intro hmem
  exact hnodup.2.2 x.node hmem x.node (by simp) rfl

theorem nodes_concat (l : List PortMap) (m : PortMap) :
    nodes (l ++ [m]) = nodes l ++ [(m.node, m)] := nodes_append l [m]

theorem newMemory_item (s : State) (item : PortMap) :
    (newMemory s item).heap item.node = some ⟨item, none, none⟩ :=
  Function.update_self item.node _ _

/-- A new node is the first. -/
theorem Represents.pushBack_first (hl : Represents s []) (item : PortMap) :
    ∃ s', pmlistPushBack (newMemory s item) item.node = some s' ∧ Represents s' [item] := by
  obtain ⟨hnone, -⟩ := hl
  have htail : (newMemory s item).tail = none := hnone
  let heap := Function.update (newMemory s item).heap item.node (some ⟨item, none, none⟩)
  have hheap : heap item.node = some ⟨item, none, none⟩ := Function.update_self item.node _ _
  refine ⟨⟨heap, some item.node, some item.node, some item.node⟩, ?_, rfl, none, hheap, rfl, rfl⟩
  rw [pmlistPushBack, htail]
  simp only [Option.bind_eq_bind]
  rw [← Option.bind_assoc, setPrev_setNext (newMemory_item s item)]
  rfl

/-- A new node is put behind the last one. -/
theorem Represents.pushBack_behind {front : List PortMap} {last item : PortMap}
    (hl : Represents s (front ++ [last]))
    (hitem : item.node ∉ (front ++ [last]).map PortMap.node) :
    ∃ s', pmlistPushBack (newMemory s item) item.node = some s' ∧
      Represents s' (front ++ [last] ++ [item]) := by
  have hlist : Seg (newMemory s item).heap none s.head (nodes (front ++ [last])) s.tail none :=
    seg_update hl hitem _
  have hnodup := hl.nodup
  rw [nodes_concat] at hlist
  have hsome : s.tail = some last.node := (seg_concat.mp hlist).1
  have htail : (newMemory s item).tail = some last.node := hsome
  have hne : item.node ≠ last.node := fun heq => hitem (by simp [heq])
  -- `pmlist_Tail->next = item`
  obtain ⟨node, hwrite, hseg⟩ := hlist.setNext (not_mem_of_nodup_concat hnodup) (some item.node)
  rw [hsome] at hwrite
  rw [← nodes_concat, hsome] at hseg
  have hnew : Function.update (newMemory s item).heap last.node node item.node =
      some ⟨item, none, none⟩ := by
    rw [Function.update_of_ne hne, newMemory_item]
  -- the two links of the new node
  let heap := Function.update (Function.update (newMemory s item).heap last.node node) item.node
    (some ⟨item, none, some last.node⟩)
  have hheap : heap item.node = some ⟨item, none, some last.node⟩ :=
    Function.update_self item.node _ _
  refine ⟨{ newMemory s item with heap := heap, tail := some item.node }, ?_, ?_⟩
  · rw [pmlistPushBack, htail]
    simp only [Option.bind_eq_bind]
    rw [hwrite, Option.bind_some, ← Option.bind_assoc, setPrev_setNext hnew]
    rfl
  · rw [Represents, IsList, nodes_concat]
    exact seg_concat.mpr ⟨rfl, some last.node, hheap, seg_update hseg hitem _⟩

theorem Represents.pushBack (hl : Represents s l) {item : PortMap}
    (hitem : item.node ∉ l.map PortMap.node) :
    ∃ s', pmlistPushBack (newMemory s item) item.node = some s' ∧ Represents s' (l ++ [item]) := by
  rcases List.eq_nil_or_concat' l with rfl | ⟨front, last, rfl⟩
  · exact hl.pushBack_first item
  · exact hl.pushBack_behind hitem

theorem Represents.split {front back : List PortMap} {m : PortMap}
    (hl : Represents s (front ++ m :: back)) :
    ∃ prev next, s.heap m.node = some ⟨m, next, prev⟩ ∧
      Seg s.heap none s.head (nodes front) prev (some m.node) ∧
      Seg s.heap (some m.node) next (nodes back) s.tail none := by
  unfold Represents IsList at hl
  rw [nodes_append, seg_append] at hl
  obtain ⟨prev, start, hfront, rfl, next, hnode, hback⟩ := hl
  exact ⟨prev, next, hnode, hfront, hback⟩

theorem Represents.apart {front back : List PortMap} {m : PortMap}
    (hl : Represents s (front ++ m :: back)) :
    m.node ∉ front.map PortMap.node ∧ m.node ∉ back.map PortMap.node ∧
      (∀ p ∈ front, ∀ q ∈ back, p.node ≠ q.node) ∧ (front.map PortMap.node).Nodup ∧
      (back.map PortMap.node).Nodup := by
  have hnodup := hl.nodup
  rw [List.map_append, List.map_cons, List.nodup_append, List.nodup_cons] at hnodup
  obtain ⟨hfront, ⟨hm, hback⟩, hapart⟩ := hnodup
  refine ⟨fun hmem => hapart _ hmem _ List.mem_cons_self rfl, hm, ?_, hfront, hback⟩
  intro p hp q hq
  exact hapart p.node (List.mem_map_of_mem hp) q.node
    (List.mem_cons_of_mem _ (List.mem_map_of_mem hq))

/-- The only node goes. -/
theorem Represents.unlink_sole {m : PortMap} (hl : Represents s ([] ++ [m])) :
    ∃ s', unlink s m.node = some s' ∧ Represents s' [] := by
  obtain ⟨prev, next, hnode, ⟨-, hhead⟩, ⟨-, rfl⟩⟩ := hl.split
  refine ⟨⟨Function.update s.heap m.node none, none, none, none⟩, ?_, rfl, rfl⟩
  rw [unlink, hnode]
  simp only [Option.bind_eq_bind, Option.bind_some, hhead, if_true]
  rw [free_eq hnode]
  rfl

/-- The first node goes, and the next one has none in front of it. -/
theorem Represents.unlink_head {m x : PortMap} {back : List PortMap}
    (hl : Represents s ([] ++ m :: x :: back)) :
    ∃ s', unlink s m.node = some s' ∧ Represents s' (x :: back) := by
  obtain ⟨prev, next, hnode, ⟨-, hhead⟩, hback⟩ := hl.split
  obtain ⟨-, hm, -, -, hnodup⟩ := hl.apart
  rw [List.map_cons, List.nodup_cons] at hnodup
  have hne : m.node ≠ x.node := fun heq => hm (heq ▸ List.mem_cons_self)
  have hnext : next = some x.node := hback.1
  obtain ⟨node, hwrite, hseg⟩ := Seg.setPrev hback (not_mem_addresses hnodup.1) none
  have hnode' : Function.update s.heap x.node node m.node = some ⟨m, next, prev⟩ := by
    rw [Function.update_of_ne hne, hnode]
  refine ⟨{ s with
    heap := Function.update (Function.update s.heap x.node node) m.node none
    head := next }, ?_, ?_⟩
  · rw [unlink, hnode]
    simp only [Option.bind_eq_bind, Option.bind_some, hhead, if_true]
    rw [if_neg (by rw [hnext]; exact Option.some_ne_none _), hwrite, Option.bind_some,
      free_eq hnode']
    rfl
  · exact seg_update (l := x :: back) hseg hm none

/-- With a node in front, a node is not the head. -/
theorem Represents.head_ne {front back : List PortMap} {m x : PortMap}
    (hl : Represents s (front ++ [x] ++ m :: back)) : s.head ≠ some m.node := by
  obtain ⟨prev, next, -, hfront, -⟩ := hl.split
  obtain ⟨hm, -⟩ := hl.apart
  rw [nodes_concat] at hfront
  obtain ⟨p, hp, hhead⟩ := hfront.first_mem
  rw [← nodes_concat, addresses_nodes] at hp
  intro heq
  rw [heq] at hhead
  exact hm (Option.some.inj hhead ▸ hp)

/-- With a node behind, a node is not the tail. -/
theorem Represents.tail_ne {front back : List PortMap} {m y : PortMap}
    (hl : Represents s (front ++ m :: y :: back)) : s.tail ≠ some m.node := by
  obtain ⟨prev, next, -, -, hback⟩ := hl.split
  obtain ⟨-, hm, -⟩ := hl.apart
  obtain ⟨p, hp, htail⟩ := Seg.last_mem (x := (y.node, y)) (l := nodes back) hback
  rw [← addresses_nodes] at hm
  intro heq
  rw [heq] at htail
  exact hm (Option.some.inj htail ▸ hp)

/-- The last node goes, and the one in front of it leads nowhere. -/
theorem Represents.unlink_tail {m x : PortMap} {front : List PortMap}
    (hl : Represents s (front ++ [x] ++ [m])) :
    ∃ s', unlink s m.node = some s' ∧ Represents s' (front ++ [x]) := by
  obtain ⟨prev, next, hnode, hfront, ⟨htail, rfl⟩⟩ := hl.split
  obtain ⟨hm, -, -, hnodup, -⟩ := hl.apart
  rw [nodes_concat] at hfront
  obtain ⟨hprev, before, hlast, -⟩ := seg_concat.mp hfront
  have hfreed := seg_update (l := front ++ [x]) (by rw [nodes_concat]; exact hfront) hm none
  rw [nodes_concat] at hfreed
  obtain ⟨node, hwrite, hseg⟩ := hfreed.setNext (not_mem_of_nodup_concat hnodup) none
  refine ⟨{ s with
    heap := Function.update (Function.update s.heap m.node none) x.node node
    tail := prev }, ?_, ?_⟩
  · rw [unlink, hnode]
    simp only [Option.bind_eq_bind, Option.bind_some]
    rw [if_neg hl.head_ne, if_pos htail, hprev, Option.bind_some, hlast, Option.bind_some,
      free_eq hnode, Option.bind_some, ← hprev, hwrite]
    rfl
  · rw [Represents, IsList, nodes_concat]
    exact hseg

/-- A node between two others goes, and these are linked to each other. -/
theorem Represents.unlink_inner {m x y : PortMap} {front back : List PortMap}
    (hl : Represents s (front ++ [x] ++ m :: y :: back)) :
    ∃ s', unlink s m.node = some s' ∧ Represents s' (front ++ [x] ++ y :: back) := by
  obtain ⟨prev, next, hnode, hfront, hback⟩ := hl.split
  obtain ⟨hm, hm', hapart, hnodup, hnodup'⟩ := hl.apart
  have hmx : m.node ≠ x.node := fun heq => hm (by simp [heq])
  have hmy : m.node ≠ y.node := fun heq => hm' (by simp [heq])
  have hxback : x.node ∉ (y :: back).map PortMap.node := by
    intro hmem
    obtain ⟨q, hq, heq⟩ := List.mem_map.mp hmem
    exact hapart x (by simp) q hq heq.symm
  have hyfront : y.node ∉ (front ++ [x]).map PortMap.node := by
    intro hmem
    obtain ⟨p, hp, heq⟩ := List.mem_map.mp hmem
    exact hapart p hp y List.mem_cons_self heq
  -- `temp->prev->next = temp->next`
  rw [nodes_concat] at hfront
  obtain ⟨node₁, hwrite₁, hfront₁⟩ := hfront.setNext (not_mem_of_nodup_concat hnodup) next
  rw [← nodes_concat] at hfront₁
  have hback₁ := seg_update hback hxback node₁
  have hnode₁ : Function.update s.heap x.node node₁ m.node = some ⟨m, next, prev⟩ := by
    rw [Function.update_of_ne hmx, hnode]
  -- `temp->next->prev = temp->prev`
  rw [List.map_cons, List.nodup_cons] at hnodup'
  obtain ⟨node₂, hwrite₂, hback₂⟩ := Seg.setPrev hback₁ (not_mem_addresses hnodup'.1) prev
  have hfront₂ := seg_update hfront₁ hyfront node₂
  have hnode₂ : Function.update (Function.update s.heap x.node node₁) y.node node₂ m.node =
      some ⟨m, next, prev⟩ := by
    rw [Function.update_of_ne hmy, hnode₁]
  -- `free(temp)`
  have hfront₃ := seg_update hfront₂ hm none
  have hback₃ := seg_update (l := y :: back) hback₂ hm' none
  refine ⟨{ s with
    heap := Function.update
      (Function.update (Function.update s.heap x.node node₁) y.node node₂) m.node none
    current := next }, ?_, ?_⟩
  · rw [unlink, hnode]
    simp only [Option.bind_eq_bind, Option.bind_some]
    rw [if_neg hl.head_ne, if_neg hl.tail_ne, hwrite₁, Option.bind_some, hnode₁, Option.bind_some,
      hwrite₂, Option.bind_some, hnode₂, Option.bind_some, free_eq hnode₂]
    rfl
  · rw [Represents, IsList, nodes_append]
    exact seg_append.mpr ⟨prev, next, hfront₃, hback₃⟩

/-- Any node of the list can be taken out, and the others stay as they are. -/
theorem Represents.unlink {m : PortMap} {front back : List PortMap}
    (hl : Represents s (front ++ m :: back)) :
    ∃ s', unlink s m.node = some s' ∧ Represents s' (front ++ back) := by
  rcases List.eq_nil_or_concat' front with rfl | ⟨front, x, rfl⟩
  · cases back with
    | nil => exact hl.unlink_sole
    | cons y back => exact hl.unlink_head
  · cases back with
    | nil =>
        rw [List.append_nil]
        exact hl.unlink_tail
    | cons y back => exact hl.unlink_inner

/-! ## The sequence -/

theorem Represents.unique {l' : List PortMap} (hl : Represents s l) (hl' : Represents s l') :
    l = l' := by
  have hnodes : nodes l = nodes l' := (isList_iff.mp hl).1.unique (isList_iff.mp hl').1
  have hsnd : ∀ k : List PortMap, (nodes k).map Prod.snd = k := by
    intro k
    rw [nodes, List.map_map]
    exact List.map_id k
  rw [← hsnd l, hnodes, hsnd l']

/-- The address of a node is not that of another one. -/
theorem node_ne {front back : List PortMap} {m : PortMap}
    (hnodup : ((front ++ m :: back).map PortMap.node).Nodup) :
    (∀ p ∈ front, p.node ≠ m.node) ∧ ∀ p ∈ back, p.node ≠ m.node := by
  rw [List.map_append, List.map_cons, List.nodup_append, List.nodup_cons] at hnodup
  obtain ⟨-, ⟨hback, -⟩, hapart⟩ := hnodup
  constructor
  · intro p hp
    exact hapart p.node (List.mem_map_of_mem hp) m.node List.mem_cons_self
  · intro p hp heq
    exact hback (heq ▸ List.mem_map_of_mem hp)

/-- One address is left out of a list that has it once. -/
theorem filter_node {front back : List PortMap} {m : PortMap}
    (hnodup : ((front ++ m :: back).map PortMap.node).Nodup) :
    ((front ++ m :: back).filter fun p => p.node ≠ m.node) = front ++ back := by
  obtain ⟨hfront, hback⟩ := node_ne hnodup
  rw [List.filter_append, List.filter_cons_of_neg (by simp),
    List.filter_eq_self.mpr fun p hp => decide_eq_true (hfront p hp),
    List.filter_eq_self.mpr fun p hp => decide_eq_true (hback p hp)]

/-- The nodes in front of a node of a list that has its address once. -/
theorem takeWhile_node {front back : List PortMap} {m : PortMap}
    (hnodup : ((front ++ m :: back).map PortMap.node).Nodup) :
    ((front ++ m :: back).takeWhile fun p => p.node ≠ m.node) = front := by
  obtain ⟨hfront, -⟩ := node_ne hnodup
  rw [List.takeWhile_append_of_pos fun p hp => decide_eq_true (hfront p hp),
    List.takeWhile_cons_of_neg (by simp), List.append_nil]

/-! ## What a call does -/

theorem Represents.unlink_mem (hl : Represents s l) {temp : PortMap} (htemp : temp ∈ l) :
    ∃ s', Pointers.unlink s temp.node = some s' ∧
      Represents s' (l.filter fun p => p.node ≠ temp.node) := by
  obtain ⟨front, back, rfl⟩ := List.append_of_mem htemp
  rw [filter_node hl.nodup]
  exact hl.unlink

/-- Deletion by the fields of `m` takes out the first node that has them. -/
theorem Represents.delete (hl : Represents s l) {m : PortMap} (hm : m ∈ l) {fuel : Nat}
    (hfuel : l.length < fuel) :
    ∃ temp s', Upnp.pmlistFind l m.externalPort m.protocol m.internalClient = some temp ∧
      pmlistDelete fuel s m.node = some (s', true) ∧
      Represents s' (l.filter fun p => p.node ≠ temp.node) := by
  obtain ⟨next, prev, hnode⟩ := hl.node hm
  have hfound : (Upnp.pmlistFind l m.externalPort m.protocol m.internalClient).isSome :=
    List.find?_isSome.mpr ⟨m, hm, by simp⟩
  obtain ⟨temp, htemp⟩ := Option.isSome_iff_exists.mp hfound
  obtain ⟨s', hunlink, hs'⟩ := hl.unlink_mem (List.mem_of_find?_eq_some htemp)
  refine ⟨temp, s', htemp, ?_, hs'⟩
  rw [pmlistDelete, hnode]
  simp only [Option.bind_eq_bind, Option.bind_some]
  rw [hl.pmlistFind_eq hfuel, htemp]
  simp [hunlink]

/-- The node that is found is the given one if none in front of it has its fields. -/
theorem pmlistFind_self_iff {front back : List PortMap} {m temp : PortMap}
    (hnodup : ((front ++ m :: back).map PortMap.node).Nodup)
    (htemp : Upnp.pmlistFind (front ++ m :: back) m.externalPort m.protocol m.internalClient =
      some temp) : temp.node = m.node ↔ ∀ p ∈ front, ¬SameFields p m := by
  rw [Upnp.pmlistFind, List.find?_append] at htemp
  constructor
  · intro heq p hp hsame
    have hsome : (front.find? fun p => decide (p.externalPort = m.externalPort ∧
        p.protocol = m.protocol ∧ p.internalClient = m.internalClient)).isSome :=
      List.find?_isSome.mpr ⟨p, hp, decide_eq_true hsame⟩
    obtain ⟨q, hq⟩ := Option.isSome_iff_exists.mp hsome
    rw [hq, Option.some_or] at htemp
    obtain rfl : q = temp := Option.some.inj htemp
    exact (node_ne hnodup).1 q (List.mem_of_find?_eq_some hq) heq
  · intro hnone
    have hfront : (front.find? fun p => decide (p.externalPort = m.externalPort ∧
        p.protocol = m.protocol ∧ p.internalClient = m.internalClient)) = none :=
      List.find?_eq_none.mpr fun p hp => by simpa [SameFields] using hnone p hp
    rw [hfront, Option.none_or, List.find?_cons_of_pos (by simp)] at htemp
    rw [Option.some.inj htemp]

theorem firstWithFields_iff {front back : List PortMap} {m : PortMap}
    (hnodup : ((front ++ m :: back).map PortMap.node).Nodup) :
    FirstWithFields (front ++ m :: back) (.delete m.node) ↔ ∀ p ∈ front, ¬SameFields p m := by
  rw [FirstWithFields, takeWhile_node hnodup]
  constructor
  · intro hfirst
    exact hfirst m (by simp) rfl
  · intro hfront p hp hnode
    obtain rfl : p = m := List.inj_on_of_nodup_map hnodup hp (by simp) hnode
    exact hfront

theorem Represents.delete_right_iff (hl : Represents s l) {item : Nat}
    (hitem : item ∈ l.map PortMap.node) {fuel : Nat} (hfuel : l.length < fuel) :
    ∃ s', (pmlistDelete fuel s item).map Prod.fst = some s' ∧
      (Represents s' (l.filter fun p => p.node ≠ item) ↔ FirstWithFields l (.delete item)) := by
  obtain ⟨m, hm, rfl⟩ := List.mem_map.mp hitem
  obtain ⟨temp, s', htemp, hdelete, hs'⟩ := hl.delete hm hfuel
  have hmem : temp ∈ l := List.mem_of_find?_eq_some htemp
  refine ⟨s', by rw [hdelete]; rfl, ?_⟩
  have hgone : Represents s' (l.filter fun p => p.node ≠ m.node) ↔ temp.node = m.node := by
    constructor
    · intro hright
      by_contra hne
      have hstays : temp ∈ l.filter fun p => p.node ≠ m.node :=
        List.mem_filter.mpr ⟨hmem, decide_eq_true hne⟩
      rw [hright.unique hs'] at hstays
      simp at hstays
    · intro heq
      rw [heq] at hs'
      exact hs'
  obtain ⟨front, back, rfl⟩ := List.append_of_mem hm
  rw [hgone, firstWithFields_iff hl.nodup, pmlistFind_self_iff hl.nodup htemp]

/-- Freeing the list goes over each node once. -/
theorem freeLoop_ends {h : Heap PortMap} {b head e : Option Nat} {l : List PortMap}
    (hl : Seg h b head (nodes l) e none) (hnodup : (l.map PortMap.node).Nodup) {fuel : Nat}
    (hfuel : l.length < fuel) : ∃ h', freeLoop fuel h head = some h' := by
  induction l generalizing h b head fuel with
  | nil =>
      obtain ⟨fuel, rfl⟩ := Nat.exists_eq_succ_of_ne_zero (Nat.ne_of_gt hfuel)
      obtain ⟨-, rfl⟩ := hl
      exact ⟨h, rfl⟩
  | cons m l ih =>
      obtain ⟨fuel, rfl⟩ := Nat.exists_eq_succ_of_ne_zero (Nat.ne_of_gt (Nat.zero_lt_of_lt hfuel))
      rw [List.length_cons] at hfuel
      rw [List.map_cons, List.nodup_cons] at hnodup
      obtain ⟨rfl, q, hnode, hrest⟩ := hl
      obtain ⟨h', hloop⟩ :=
        ih (seg_update hrest hnodup.1 none) hnodup.2 (Nat.lt_of_succ_lt_succ hfuel)
      refine ⟨h', ?_⟩
      rw [freeLoop, hnode]
      simp only [Option.bind_eq_bind, Option.bind_some]
      rw [free_eq hnode, Option.bind_some, hloop]

theorem Represents.freeList (hl : Represents s l) {fuel : Nat} (hfuel : l.length < fuel) :
    ∃ s', pmlistFreeList fuel s = some s' ∧ Represents s' [] := by
  obtain ⟨heap, hloop⟩ := freeLoop_ends hl hl.nodup hfuel
  refine ⟨{ s with heap := heap, head := none, tail := none }, ?_, rfl, rfl⟩
  rw [pmlistFreeList, hloop]
  rfl

/-! ## The list of the daemon

The model of the daemon has the nodes as a list; its functions do to this list what the functions
here do to the pointers. -/

section Daemon

variable {accept : Rule → Bool} {d : Igd}

theorem pmlistFind_table (externalPort proto internalClient : String) :
    Upnp.pmlistFind d.table externalPort proto internalClient =
      (Upnp.pmlistFind d.pmlist externalPort proto internalClient).map PortMap.content := by
  unfold Upnp.pmlistFind Igd.table
  rw [List.find?_map]
  rfl

theorem Represents.daemon_pushBack (hl : Represents s d.table) {item : PortMap}
    (hitem : item.node ∉ d.table.map PortMap.node) :
    ∃ s', pmlistPushBack (newMemory s item.content) item.node = some s' ∧
      Represents s' (d.pushBack accept item).table := by
  have htable : (d.pushBack accept item).table = d.table ++ [item.content] := by
    simp [Igd.table, Igd.pushBack]
  rw [htable]
  have hcontent : item.content.node ∉ d.table.map PortMap.node := hitem
  exact hl.pushBack hcontent

theorem Represents.daemon_delete (hl : Represents s d.table) {item : PortMap}
    (hitem : item ∈ d.pmlist) {fuel : Nat} (hfuel : d.table.length < fuel) :
    ∃ s', pmlistDelete fuel s item.node = some (s', (d.pmlistDelete accept item).2) ∧
      Represents s' (d.pmlistDelete accept item).1.table := by
  obtain ⟨temp, s', htemp, hdelete, hs'⟩ := hl.delete (Igd.mem_table_of_mem hitem) hfuel
  rw [pmlistFind_table] at htemp
  obtain ⟨found, hfound, rfl⟩ := Option.map_eq_some_iff.mp htemp
  change Upnp.pmlistFind d.pmlist item.externalPort item.protocol item.internalClient =
    some found at hfound
  unfold Igd.pmlistDelete
  rw [hfound]
  refine ⟨s', hdelete, ?_⟩
  dsimp only
  rw [Igd.remove_table]
  exact hs'

theorem Represents.daemon_freeList (hl : Represents s d.table) {fuel : Nat}
    (hfuel : d.table.length < fuel) :
    ∃ s', pmlistFreeList fuel s = some s' ∧ Represents s' (d.freeList accept).table := by
  rw [Igd.freeList_table]
  exact hl.freeList hfuel

end Daemon

/-! ## Runs of calls -/

/-- A call keeps the pointers in order, and does what it should unless it deletes the wrong node. -/
theorem Represents.call (hl : Represents s l) {c : Call} (hc : Possible l c) {fuel : Nat}
    (hfuel : l.length < fuel) : ∃ s', call fuel s c = some s' ∧
      (Represents s' (listStep l c) ↔ FirstWithFields l c) := by
  cases c with
  | pushBack item =>
      obtain ⟨s', hs', hright⟩ := hl.pushBack hc
      exact ⟨s', hs', iff_of_true hright trivial⟩
  | delete item => exact hl.delete_right_iff hc hfuel
  | freeList =>
      obtain ⟨s', hs', hright⟩ := hl.freeList hfuel
      exact ⟨s', hs', iff_of_true hright trivial⟩

theorem length_listStep (l : List PortMap) (c : Call) :
    (listStep l c).length ≤ l.length + 1 := by
  cases c with
  | pushBack item => simp [listStep]
  | delete item => exact (List.length_filter_le _ l).trans (Nat.le_succ _)
  | freeList => exact Nat.zero_le _

/-- A run from pointers in order is right after each call as long as it deletes the right nodes. -/
theorem Represents.run_iff (hl : Represents s l) {calls : List Call}
    (hpossible : Along listStep Possible l calls) {fuel : Nat}
    (hfuel : l.length + calls.length < fuel) :
    (∀ done, done <+: calls → ∃ s', done.foldlM (Pointers.call fuel) s = some s' ∧
      Represents s' (exec listStep l done)) ↔ Along listStep FirstWithFields l calls := by
  induction calls generalizing s l with
  | nil =>
      refine iff_of_true (fun done hdone => ?_) trivial
      obtain rfl := List.prefix_nil.mp hdone
      exact ⟨s, rfl, hl⟩
  | cons c calls ih =>
      rw [List.length_cons] at hfuel
      have hlength := length_listStep l c
      obtain ⟨s', hcall, hiff⟩ := hl.call hpossible.1 (show l.length < fuel by omega)
      have hrest : Represents s' (listStep l c) →
          ((∀ done, done <+: calls → ∃ s'', done.foldlM (Pointers.call fuel) s' = some s'' ∧
            Represents s'' (exec listStep (listStep l c) done)) ↔
            Along listStep FirstWithFields (listStep l c) calls) := fun hs' =>
        ih hs' hpossible.2 (by omega)
      constructor
      · intro hright
        have hnext : ∀ done, done <+: calls →
            ∃ s'', done.foldlM (Pointers.call fuel) s' = some s'' ∧
              Represents s'' (exec listStep (listStep l c) done) := by
          intro done hdone
          obtain ⟨s'', hrun, hs''⟩ := hright (c :: done) (by simpa using hdone)
          rw [List.foldlM_cons, hcall] at hrun
          exact ⟨s'', hrun, hs''⟩
        have hs' : Represents s' (listStep l c) := by
          obtain ⟨s'', hrun, hs''⟩ := hnext [] List.nil_prefix
          obtain rfl : s' = s'' := Option.some.inj hrun
          exact hs''
        exact ⟨hiff.mp hs', (hrest hs').mp hnext⟩
      · intro hfirst done hdone
        have hs' := hiff.mpr hfirst.1
        cases done with
        | nil => exact ⟨s, rfl, hl⟩
        | cons c' done =>
            obtain ⟨rfl, hdone'⟩ := List.cons_prefix_cons.mp hdone
            obtain ⟨s'', hrun, hs''⟩ := (hrest hs').mpr hfirst.2 done hdone'
            refine ⟨s'', ?_, hs''⟩
            rw [List.foldlM_cons, hcall]
            exact hrun

theorem represents_iff : Represents s l ↔ ListRight s l :=
  ⟨fun hl => hl.listRight, fun hl => isList_iff.mpr ⟨hl.forwards, hl.backwards⟩⟩

/-- The list is right after every call exactly if each node is deleted while no node in front of it
has the same port, protocol and client. -/
theorem pmlist_right_iff {calls : List Call} (hpossible : Along listStep Possible [] calls) :
    RunRight calls ↔ Along listStep FirstWithFields [] calls := by
  have hinit : Represents init [] := ⟨rfl, rfl⟩
  constructor
  · intro hright
    have hfuel : calls.length < calls.length + 1 := Nat.lt_succ_self _
    have hfuel' : ([] : List PortMap).length + calls.length < calls.length + 1 := by simp
    apply (hinit.run_iff hpossible hfuel').mp
    intro done hdone
    obtain ⟨s, hrun, hs⟩ := hright _ hfuel done hdone
    exact ⟨s, hrun, represents_iff.mpr hs⟩
  · intro hfirst fuel hfuel done hdone
    have hfuel' : ([] : List PortMap).length + calls.length < fuel := by simpa using hfuel
    obtain ⟨s, hrun, hs⟩ := (hinit.run_iff hpossible hfuel').mpr hfirst done hdone
    exact ⟨s, hrun, represents_iff.mp hs⟩

/-- Three mappings are appended, and deleted from the middle, the end and the start. -/
def threeMappings : List Call :=
  [.pushBack (newNode 1 0 1 60 none "8080" "80" "TCP" "192.168.1.2" "game"),
    .pushBack (newNode 2 0 1 60 none "8081" "80" "TCP" "192.168.1.2" "game"),
    .pushBack (newNode 3 0 1 60 none "8080" "80" "UDP" "192.168.1.2" "game"),
    .delete 2, .delete 3, .delete 1]

theorem pmlist_right_threeMappings :
    Along listStep Possible [] threeMappings ∧ RunRight threeMappings := by
  have hpossible : Along listStep Possible [] threeMappings := by decide
  exact ⟨hpossible, (pmlist_right_iff hpossible).mpr (by decide)⟩

/-- Two mappings are appended whose external port does not fit and is stored empty; the second is
deleted. -/
def twins : List Call :=
  [.pushBack (newNode 1 0 1 60 none "123456" "80" "TCP" "192.168.1.2" "game"),
    .pushBack (newNode 2 0 1 60 none "123456" "81" "TCP" "192.168.1.2" "game"),
    .delete 2]

theorem pmlist_wrong : Along listStep Possible [] twins ∧
    (run 4 twins).map State.head = some (some 2) ∧ ¬RunRight twins := by
  have hhead : (run 4 twins).map State.head = some (some 2) := by decide
  refine ⟨by decide, hhead, fun hright => ?_⟩
  obtain ⟨s, hrun, hs⟩ := hright 4 (by decide) twins List.prefix_rfl
  rw [hrun] at hhead
  have hsecond : s.head = some 2 := Option.some.inj hhead
  have hfirst : s.head = some 1 := hs.forwards.1
  rw [hsecond] at hfirst
  exact absurd (Option.some.inj hfirst) (by decide)

end Xwr100.Upnp.Pointers

