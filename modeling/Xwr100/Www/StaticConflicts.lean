import Xwr100.Lib.Keyed
import Xwr100.Www.Numerals
import Xwr100.Www.StaticDhcp

/-! # Reservations that do not conflict

Two reservations conflict when their host octets are the same number or their addresses the
same up to the case of the letters.  The buttons compare texts, and saving compares nothing;
below is what has to hold of the spelling of octets and addresses, so that no conflict is stored.
-/

namespace Xwr100.Www.StaticDhcp

open Lib

/-- A number from 1 to 254. -/
def HostOctet (t : Text) : Prop := ∃ n, wholeNumber t = some n ∧ 1 ≤ n ∧ n ≤ 254

def octet (s : Slot) : Option Nat := wholeNumber s.ip

/-- The address of a used slot, as far as a key tells addresses apart. -/
def address (key : Text → Text) (s : Slot) : Option Text :=
  if s.ip = [] then none else some (key s.mac)

structure ConflictFree (t : Table) : Prop where
  hostOctet : ∀ i < 10, (t i).ip ≠ [] → HostOctet (t i).ip
  octets : KeysDistinct octet 10 t
  addresses : KeysDistinct (address toUpperCase) 10 t

theorem ipCheck_iff {t : Text} : ipCheck t = true ↔ HostOctet t := by
  rw [ipCheck, Option.any_eq_true, HostOctet]
  constructor
  · intro h
    obtain ⟨n, hn, hrange⟩ := h
    rw [Bool.and_eq_true, decide_eq_true_eq, decide_eq_true_eq] at hrange
    exact ⟨n, hn, by omega, by omega⟩
  · intro h
    obtain ⟨n, hn, hlow, hhigh⟩ := h
    refine ⟨n, hn, ?_⟩
    rw [Bool.and_eq_true, decide_eq_true_eq, decide_eq_true_eq]
    omega

theorem HostOctet.ne_nil {t : Text} (h : HostOctet t) : t ≠ [] := by
  intro ht
  obtain ⟨n, hn, -⟩ := h
  rw [ht] at hn
  cases hn

theorem octet_of_empty {s : Slot} (h : s.ip = []) : octet s = none := by
  rw [octet, h]
  rfl

theorem used_of_octet {s : Slot} {n : Nat} (h : octet s = some n) : s.ip ≠ [] := by
  intro hs
  rw [octet_of_empty hs] at h
  cases h

theorem address_of_empty {key : Text → Text} {s : Slot} (h : s.ip = []) : address key s = none :=
  if_pos h

theorem address_of_used {key : Text → Text} {s : Slot} (h : s.ip ≠ []) :
    address key s = some (key s.mac) := if_neg h

theorem used_of_address {key : Text → Text} {s : Slot} {mac : Text} (h : address key s = some mac) :
    s.ip ≠ [] := by
  intro hs
  rw [address_of_empty hs] at h
  cases h

theorem conflictFree_of_empty {t : Table} (h : ∀ i < 10, (t i).ip = []) : ConflictFree t where
  hostOctet i hi hused := absurd (h i hi) hused
  octets := KeysDistinct.of_none fun i hi => octet_of_empty (h i hi)
  addresses := KeysDistinct.of_none fun i hi => address_of_empty (h i hi)

def Full (t : Table) : Prop := ∀ i < 10, (t i).ip ≠ []

theorem findSlot_eq_some {free : Slot → Bool} {t : Table} {i : Nat}
    (h : findSlot free t = some i) : i < 10 ∧ free (t i) = true :=
  ⟨List.mem_range.mp (List.mem_of_find?_eq_some h), List.find?_some (p := fun i => free (t i)) h⟩

theorem findSlot_eq_none_iff {free : Slot → Bool} {t : Table} :
    findSlot free t = none ↔ ∀ i < 10, free (t i) = false := by
  rw [findSlot, List.find?_eq_none]
  constructor
  · intro h i hi
    exact Bool.eq_false_iff.mpr (h i (List.mem_range.mpr hi))
  · intro h i hi
    exact Bool.eq_false_iff.mp (h i (List.mem_range.mp hi))

/-! ## What the comparisons see

Every button leaves no text twice among the addresses of the used slots: the address that is
compared is the text that is stored.
-/

/-- No used slot has the address. -/
def NewAddress (key : Text → Text) (t : Table) (mac : Text) : Prop :=
  ∀ i < 10, (t i).ip ≠ [] → key (t i).mac ≠ key mac

theorem keysDistinct_update {key : Text → Text} {t : Table} {r : Nat} {s : Slot} (hr : r < 10)
    (hfree : (t r).ip = []) (hs : s.ip ≠ []) (h : KeysDistinct (address key) 10 t)
    (hnew : NewAddress key t s.mac) :
    KeysDistinct (address key) 10 (Function.update t r s) := by
  refine (KeysDistinct.update_iff hr (address_of_empty hfree) (address_of_used hs)).mpr ⟨h, ?_⟩
  intro i hi heq
  have hused := used_of_address heq
  rw [address_of_used hused] at heq
  exact hnew i hi hused (Option.some.inj heq)

theorem listed_eq_false {t : Table} {ip mac : Text} (h : listed t ip mac = false) :
    NewAddress id t mac := by
  intro i hi hused heq
  rw [listed, List.any_eq_false] at h
  exact h i (List.mem_range.mpr hi) (by simp [hused, show (t i).mac = mac from heq])

theorem taken_eq_false {t : Table} {c : Client} (h : taken t c = false) :
    NewAddress id t c.mac := by
  intro i hi _ heq
  rw [taken, List.any_eq_false] at h
  exact h i (List.mem_range.mpr hi) (by simp [show (t i).mac = c.mac from heq])

/-! ## Adding by hand -/

theorem addManual_of_full {t : Table} {s : Slot} (h : Full t) : addManual t s = t := by
  have hnone : findSlot (fun s => s.ip == []) t = none := by
    rw [findSlot_eq_none_iff]
    intro i hi
    exact beq_eq_false_iff_ne.mpr (h i hi)
  rw [addManual, hnone]

theorem addManual_cases (t : Table) (s : Slot) :
    addManual t s = t ∨ ∃ r < 10, (t r).ip = [] ∧ addManual t s = Function.update t r s := by
  rw [addManual]
  cases hfind : findSlot (fun s => s.ip == []) t with
  | none => exact .inl rfl
  | some r =>
      obtain ⟨hr, hfree⟩ := findSlot_eq_some hfind
      exact .inr ⟨r, hr, beq_iff_eq.mp hfree, rfl⟩

/-- `add` changes nothing, or fills an unused slot with an address whose text no used slot has. -/
theorem add_cases (dhcpStart dhcpEnd : Text) (t : Table) (name ip mac : Text) :
    add dhcpStart dhcpEnd t name ip mac = t ∨
      (HostOctet ip ∧ NewAddress id t (toUpperCase mac) ∧ ∃ r < 10, (t r).ip = [] ∧
        add dhcpStart dhcpEnd t name ip mac =
          Function.update t r (manualSlot name ip (toUpperCase mac))) := by
  rw [add]
  cases hadmits : admits dhcpStart dhcpEnd name ip (toUpperCase mac) with
  | false => exact .inl rfl
  | true =>
      cases hlisted : listed t ip (toUpperCase mac) with
      | true => exact .inl rfl
      | false =>
          rcases addManual_cases t (manualSlot name ip (toUpperCase mac)) with hsame | hfilled
          · exact .inl hsame
          · right
            have hip : ipCheck ip = true := by
              simp only [admits, Bool.and_eq_true] at hadmits
              exact hadmits.1.1.2
            exact ⟨ipCheck_iff.mp hip, listed_eq_false hlisted, hfilled⟩

theorem add_keysDistinct {key : Text → Text} {dhcpStart dhcpEnd : Text} {t : Table}
    {name ip mac : Text} (h : KeysDistinct (address key) 10 t)
    (hnew : NewAddress id t (toUpperCase mac) → NewAddress key t (toUpperCase mac)) :
    KeysDistinct (address key) 10 (add dhcpStart dhcpEnd t name ip mac) := by
  rcases add_cases dhcpStart dhcpEnd t name ip mac with hsame | ⟨hip, hwritten, r, hr, hfree, hadd⟩
  · rw [hsame]
    exact h
  · rw [hadd]
    exact keysDistinct_update hr hfree hip.ne_nil h (hnew hwritten)

theorem add_of_full {dhcpStart dhcpEnd : Text} {t : Table} {name ip mac : Text} (h : Full t) :
    add dhcpStart dhcpEnd t name ip mac = t := by
  rw [add, addManual_of_full h, ite_self, ite_self]

/-! ## Adding clients -/

theorem Client.hostOctet_ne_nil (c : Client) : c.hostOctet ≠ [] := by
  have hparts := c.ip_ok
  rw [fourOctets, Bool.and_eq_true, beq_iff_eq, List.all_eq_true] at hparts
  obtain ⟨hlength, hall⟩ := hparts
  have hip : c.ip ≠ [] := by
    intro hip
    rw [hip] at hlength
    cases hlength
  rw [hostOctet, getSegment, if_neg hip]
  dsimp only
  rw [hlength]
  change (c.ip.splitOn '.').getD 3 [] ≠ []
  have hthird : (c.ip.splitOn '.')[3]? = some (c.ip.splitOn '.')[3] := List.getElem?_eq_getElem _
  rw [List.getD_eq_getElem?_getD, hthird, Option.getD_some]
  intro hnil
  have hoctet := hall _ (List.getElem_mem (l := c.ip.splitOn '.') (n := 3) (by omega))
  rw [hnil] at hoctet
  cases hoctet

theorem addClient_cases {t t' : Table} {c : Client} (h : addClient t c = some t') :
    (taken t c = true ∧ t' = t) ∨
      (taken t c = false ∧ ∃ r < 10, ((t r).name = [] ∧ (t r).ip = []) ∧
        t' = Function.update t r (clientSlot c)) := by
  rw [addClient] at h
  by_cases htaken : taken t c = true
  · left
    rw [if_pos htaken] at h
    exact ⟨htaken, (Option.some.inj h).symm⟩
  · right
    rw [if_neg htaken] at h
    obtain ⟨r, hr, heq⟩ := Option.map_eq_some_iff.mp h
    obtain ⟨hlt, hfree⟩ := findSlot_eq_some hr
    rw [Bool.and_eq_true, beq_iff_eq, beq_iff_eq] at hfree
    exact ⟨Bool.eq_false_iff.mpr htaken, r, hlt, hfree, heq.symm⟩

theorem addClient_keysDistinct {key : Text → Text} {t t' : Table} {c : Client}
    (hadd : addClient t c = some t') (h : KeysDistinct (address key) 10 t)
    (hnew : NewAddress id t c.mac → NewAddress key t c.mac) :
    KeysDistinct (address key) 10 t' := by
  rcases addClient_cases hadd with ⟨-, rfl⟩ | ⟨htaken, r, hr, hfree, rfl⟩
  · exact h
  · exact keysDistinct_update hr hfree.2 c.hostOctet_ne_nil h (hnew (taken_eq_false htaken))

/-- The addresses among some, in a key that may be coarser than the text, are the same only if
their texts are. -/
def OneSpelling (key : Text → Text) (t : Table) (macs : List Text) : Prop :=
  (∀ mac ∈ macs, ∀ i < 10, (t i).ip ≠ [] → key (t i).mac = key mac → (t i).mac = mac) ∧
    macs.Pairwise fun mac mac' => key mac = key mac' → mac = mac'

theorem OneSpelling.newAddress {key : Text → Text} {t : Table} {macs : List Text} {mac : Text}
    (h : OneSpelling key t macs) (hmac : mac ∈ macs) (hnew : NewAddress id t mac) :
    NewAddress key t mac :=
  fun i hi hused heq => hnew i hi hused (h.1 mac hmac i hi hused heq)

/-- By induction on the list; what the clients before one have left is in the table. -/
theorem selectAdd_keysDistinct {key : Text → Text} {t : Table} {clients : List Client}
    (h : KeysDistinct (address key) 10 t)
    (hspelled : OneSpelling key t (clients.map Client.mac)) :
    KeysDistinct (address key) 10 (selectAdd t clients) := by
  induction clients generalizing t with
  | nil => exact h
  | cons c rest ih =>
      rw [selectAdd]
      cases hadd : addClient t c with
      | none => exact h
      | some t' =>
          obtain ⟨hfirst, hrest⟩ := List.pairwise_cons.mp hspelled.2
          apply ih (addClient_keysDistinct hadd h (hspelled.newAddress (by simp)))
          refine ⟨?_, hrest⟩
          intro mac hmac i hi hused heq
          rcases addClient_cases hadd with ⟨-, rfl⟩ | ⟨-, r, -, -, rfl⟩
          · exact hspelled.1 mac (List.mem_cons_of_mem _ hmac) i hi hused heq
          · by_cases hir : i = r
            · rw [hir, Function.update_self] at heq ⊢
              exact hfirst mac hmac heq
            · rw [Function.update_of_ne hir] at hused heq ⊢
              exact hspelled.1 mac (List.mem_cons_of_mem _ hmac) i hi hused heq

theorem selectAdd_of_full {t : Table} {clients : List Client} (h : Full t) :
    selectAdd t clients = t := by
  induction clients with
  | nil => rfl
  | cons c rest ih =>
      rw [selectAdd]
      cases hadd : addClient t c with
      | none => rfl
      | some t' =>
          rcases addClient_cases hadd with ⟨-, rfl⟩ | ⟨-, r, hr, hfree, -⟩
          · exact ih
          · exact absurd hfree.2 (h r hr)

/-! ## Saving -/

def tableLeft : Except Table Table → Table
  | .error t => t
  | .ok t => t

theorem saveSlot_cases (edits : Nat → Edit) (t : Table) (k : Nat) :
    ((t k).ip = [] ∧ saveSlot edits t k = .ok t) ∨
    ((t k).ip ≠ [] ∧ ipCheck (edits k).ip = false ∧ ∃ s : Slot, s.ip = (t k).ip ∧
      s.mac = (t k).mac ∧ saveSlot edits t k = .error (Function.update t k s)) ∨
    ((t k).ip ≠ [] ∧ ipCheck (edits k).ip = true ∧ ∃ s : Slot, s.ip = (edits k).ip ∧
      s.mac = (t k).mac ∧ saveSlot edits t k = .ok (Function.update t k s)) := by
  by_cases hused : (t k).ip = []
  · left
    exact ⟨hused, if_pos hused⟩
  · right
    cases hok : ipCheck (edits k).ip with
    | false =>
        left
        refine ⟨hused, rfl, { t k with name := (edits k).name }, rfl, rfl, ?_⟩
        rw [saveSlot, if_neg hused, hok]
        rfl
    | true =>
        right
        refine ⟨hused, rfl, { t k with
          name := (edits k).name
          ip := (edits k).ip
          enabled := if (edits k).name ≠ [] ∧ (edits k).ip ≠ [] then ['1'] else ['0'] },
          rfl, rfl, ?_⟩
        rw [saveSlot, if_neg hused, hok]
        rfl

theorem foldlM_saveSlot_mac (edits : Nat → Edit) (slots : List Nat) (t : Table) (i : Nat) :
    (tableLeft (slots.foldlM (saveSlot edits) t) i).mac = (t i).mac ∧
      ((tableLeft (slots.foldlM (saveSlot edits) t) i).ip = [] ↔ (t i).ip = []) := by
  induction slots generalizing t with
  | nil => exact ⟨rfl, Iff.rfl⟩
  | cons k rest ih =>
      have hupdate : ∀ {s : Slot}, s.mac = (t k).mac → (s.ip = [] ↔ (t k).ip = []) →
          (Function.update t k s i).mac = (t i).mac ∧
            ((Function.update t k s i).ip = [] ↔ (t i).ip = []) := by
        intro s hmac hip
        by_cases hik : i = k
        · rw [hik, Function.update_self]
          exact ⟨hmac, hip⟩
        · rw [Function.update_of_ne hik]
          exact ⟨rfl, Iff.rfl⟩
      rw [List.foldlM_cons]
      rcases saveSlot_cases edits t k with ⟨-, hsave⟩ | ⟨-, -, s, hip, hmac, hsave⟩ |
        ⟨hused, hok, s, hip, hmac, hsave⟩
      · rw [hsave]
        exact ih t
      · rw [hsave]
        exact hupdate hmac (by rw [hip])
      · rw [hsave]
        have hslot := hupdate hmac (iff_of_false (hip ▸ (ipCheck_iff.mp hok).ne_nil) hused)
        exact ⟨(ih _).1.trans hslot.1, (ih _).2.trans hslot.2⟩

/-- A loop that gets through has put the edited octets into the used slots. -/
theorem foldlM_saveSlot_ok {edits : Nat → Edit} {slots : List Nat} {t t' : Table} {i : Nat}
    (h : slots.foldlM (saveSlot edits) t = .ok t') (hused : (t i).ip ≠ []) :
    (i ∈ slots → ipCheck (edits i).ip = true ∧ (t' i).ip = (edits i).ip) ∧
      (i ∉ slots → (t' i).ip = (t i).ip) := by
  induction slots generalizing t with
  | nil =>
      cases h
      exact ⟨fun hmem => absurd hmem List.not_mem_nil, fun _ => rfl⟩
  | cons k rest ih =>
      rw [List.foldlM_cons] at h
      rcases saveSlot_cases edits t k with ⟨hfree, hsave⟩ | ⟨-, -, s, -, -, hsave⟩ |
        ⟨-, hok, s, hip, -, hsave⟩
      · rw [hsave] at h
        have hik : i ≠ k := fun hik => hused (hik ▸ hfree)
        simpa [hik] using ih h hused
      · rw [hsave] at h
        cases h
      · rw [hsave] at h
        by_cases hik : i = k
        · -- a slot that is met again has the edited octet already
          subst hik
          have hself : (Function.update t i s i).ip = (edits i).ip := by
            rw [Function.update_self, hip]
          have hrest := ih h (by rw [hself]; exact (ipCheck_iff.mp hok).ne_nil)
          refine ⟨fun _ => ⟨hok, ?_⟩, fun hnot => absurd List.mem_cons_self hnot⟩
          by_cases hmem : i ∈ rest
          · exact (hrest.1 hmem).2
          · exact (hrest.2 hmem).trans hself
        · have hother : Function.update t k s i = t i := Function.update_of_ne hik _ _
          have hrest := ih h (by rwa [hother])
          rw [hother] at hrest
          simpa [hik] using hrest

/-- The loop gets through if every row that is shown has a host octet. -/
theorem foldlM_saveSlot_exists {edits : Nat → Edit} {slots : List Nat} {t : Table}
    (h : ∀ i ∈ slots, (t i).ip ≠ [] → ipCheck (edits i).ip = true) :
    ∃ t', slots.foldlM (saveSlot edits) t = .ok t' := by
  induction slots generalizing t with
  | nil => exact ⟨t, rfl⟩
  | cons k rest ih =>
      rw [List.foldlM_cons]
      rcases saveSlot_cases edits t k with ⟨-, hsave⟩ | ⟨hused, hok, -⟩ |
        ⟨hused, -, s, -, -, hsave⟩
      · rw [hsave]
        exact ih fun i hi => h i (List.mem_cons_of_mem k hi)
      · rw [h k List.mem_cons_self hused] at hok
        cases hok
      · rw [hsave]
        apply ih
        intro i hi hused'
        by_cases hik : i = k
        · exact hik ▸ h k List.mem_cons_self hused
        · rw [Function.update_of_ne hik] at hused'
          exact h i (List.mem_cons_of_mem k hi) hused'

/-- Every row that is shown has a number from 1 to 254. -/
def Savable (edits : Nat → Edit) (t : Table) : Prop :=
  ∀ i < 10, (t i).ip ≠ [] → HostOctet (edits i).ip

theorem validateForm_ok {edits : Nat → Edit} {t t' : Table} (h : validateForm edits t = .ok t') :
    Savable edits t ∧ ∀ i < 10, (t i).ip ≠ [] → (t' i).ip = (edits i).ip := by
  have hslot := fun i hi hused => (foldlM_saveSlot_ok (i := i) h hused).1 (List.mem_range.mpr hi)
  exact ⟨fun i hi hused => ipCheck_iff.mp (hslot i hi hused).1,
    fun i hi hused => (hslot i hi hused).2⟩

theorem validateForm_of_savable {edits : Nat → Edit} {t : Table} (h : Savable edits t) :
    ∃ t', validateForm edits t = .ok t' :=
  foldlM_saveSlot_exists fun i hi hused => ipCheck_iff.mpr (h i (List.mem_range.mp hi) hused)

/-- Two rows that are shown have different octets, leading zeros aside. -/
def OctetsDiffer (edits : Nat → Edit) (t : Table) : Prop :=
  ∀ i < 10, ∀ j < 10, (t i).ip ≠ [] → (t j).ip ≠ [] →
    withoutZeros (edits i).ip = withoutZeros (edits j).ip → i = j

/-- No two used slots have addresses that differ only in the case of their letters. -/
def LettersAgree (t : Table) : Prop :=
  ∀ i < 10, ∀ j < 10, (t i).ip ≠ [] → (t j).ip ≠ [] →
    toUpperCase (t i).mac = toUpperCase (t j).mac → (t i).mac = (t j).mac

theorem HostOctet.digits {t : Text} (h : HostOctet t) : ∀ c ∈ t, c.isDigit = true := by
  obtain ⟨n, hn, -⟩ := h
  exact (wholeNumber_eq_some.mp hn).2.1

theorem HostOctet.wholeNumber {t : Text} (h : HostOctet t) :
    Www.wholeNumber t = some (numeral t) := by
  obtain ⟨n, hn, -⟩ := h
  rw [hn, (wholeNumber_eq_some.mp hn).2.2]

/-- Where the texts of the addresses are different, what is saved is free of conflicts exactly when
the octets differ in more than leading zeros and the addresses in more than the case of letters. -/
theorem saved_conflictFree_iff {edits : Nat → Edit} {t t' : Table}
    (hwritten : KeysDistinct (address id) 10 t) (h : validateForm edits t = .ok t') :
    ConflictFree t' ↔ OctetsDiffer edits t ∧ LettersAgree t := by
  obtain ⟨hsavable, hip⟩ := validateForm_ok h
  have hleft : ∀ i, (t' i).mac = (t i).mac ∧ ((t' i).ip = [] ↔ (t i).ip = []) := by
    intro i
    have := foldlM_saveSlot_mac edits (List.range 10) t i
    rw [← validateForm, h] at this
    exact this
  constructor
  · intro hfree
    constructor
    · intro i hi j hj hused hused' heq
      have hnumber := (numeral_eq_iff (hsavable i hi hused).digits
        (hsavable j hj hused').digits).mpr heq
      apply hfree.octets i hi j hj (numeral (edits i).ip)
      · rw [octet, hip i hi hused, (hsavable i hi hused).wholeNumber]
      · rw [octet, hip j hj hused', (hsavable j hj hused').wholeNumber, hnumber]
    · intro i hi j hj hused hused' heq
      have hsame := hfree.addresses i hi j hj (toUpperCase (t i).mac)
        (by rw [address_of_used (mt (hleft i).2.mp hused), (hleft i).1])
        (by rw [address_of_used (mt (hleft j).2.mp hused'), (hleft j).1, heq])
      rw [hsame]
  · intro hlegible
    obtain ⟨hoctets, hletters⟩ := hlegible
    constructor
    · intro i hi hused
      have ht := mt (hleft i).2.mpr hused
      rw [hip i hi ht]
      exact hsavable i hi ht
    · intro i hi j hj n hni hnj
      have ht := mt (hleft i).2.mpr (used_of_octet hni)
      have ht' := mt (hleft j).2.mpr (used_of_octet hnj)
      rw [octet, hip i hi ht, (hsavable i hi ht).wholeNumber] at hni
      rw [octet, hip j hj ht', (hsavable j hj ht').wholeNumber] at hnj
      exact hoctets i hi j hj ht ht' ((numeral_eq_iff (hsavable i hi ht).digits
        (hsavable j hj ht').digits).mp (Option.some.inj (hni.trans hnj.symm)))
    · intro i hi j hj k hki hkj
      have ht := mt (hleft i).2.mpr (used_of_address hki)
      have ht' := mt (hleft j).2.mpr (used_of_address hkj)
      rw [address_of_used (used_of_address hki), (hleft i).1] at hki
      rw [address_of_used (used_of_address hkj), (hleft j).1] at hkj
      have hsame := hletters i hi j hj ht ht' (Option.some.inj (hki.trans hkj.symm))
      exact hwritten i hi j hj (t i).mac (address_of_used ht)
        (by rw [address_of_used ht', hsame, id])

/-! ## Runs -/

def Event.Adds : Event → Prop
  | .add .. | .selectAdd _ => True
  | _ => False

/-- A step leaves no conflict in what the router has stored, and adds nothing to a full table. -/
structure Reserves (dhcpStart dhcpEnd : Text) (p : Page) (e : Event) : Prop where
  stored : ConflictFree (step dhcpStart dhcpEnd p e).stored
  full : Full p.table → e.Adds → step dhcpStart dhcpEnd p e = p

/-- What has to hold of the spelling in a form that is submitted: the octets of two rows differ in
more than leading zeros, and the addresses of two used slots in more than the case of letters. -/
def Legible (p : Page) : Event → Prop
  | .save edits => Savable edits p.table → OctetsDiffer edits p.table ∧ LettersAgree p.table
  | .load | .add .. | .selectAdd _ | .del _ => True

/-- An address that is typed or listed is in no used slot, nor listed again, in another spelling of
what a key tells apart. -/
def AddressesSpelled (key : Text → Text) (t : Table) : Event → Prop
  | .add _ _ mac => OneSpelling key t [toUpperCase mac]
  | .selectAdd clients => OneSpelling key t (clients.map Client.mac)
  | .load | .del _ | .save _ => True

/-- The same of what is typed, listed and edited: no address in other letters, and no two octets
with other leading zeros. -/
def Spelled (p : Page) (e : Event) : Prop :=
  AddressesSpelled toUpperCase p.table e ∧
    ∀ edits, e = .save edits → Savable edits p.table → OctetsDiffer edits p.table

/-- No used slots of the page have one address, in a key of it, and nothing stored conflicts. -/
structure Sound (key : Text → Text) (p : Page) : Prop where
  addresses : KeysDistinct (address key) 10 p.table
  stored : ConflictFree p.stored

theorem sound_init (key : Text → Text) : Sound key init :=
  ⟨KeysDistinct.of_none fun _ _ => address_of_empty rfl, conflictFree_of_empty fun _ _ => rfl⟩

theorem step_of_full {dhcpStart dhcpEnd : Text} {p : Page} {e : Event} (h : Full p.table)
    (he : e.Adds) : step dhcpStart dhcpEnd p e = p := by
  cases e with
  | add name ip mac => rw [step, add_of_full h]
  | selectAdd clients => rw [step, selectAdd_of_full h]
  | load => exact he.elim
  | del index => exact he.elim
  | save edits => exact he.elim

theorem del_keysDistinct {key : Text → Text} {t : Table} (h : KeysDistinct (address key) 10 t)
    (index : Nat) : KeysDistinct (address key) 10 (del t index) := by
  apply h.drop
  intro i _
  by_cases hi : i = index
  · left
    rw [del, hi, Function.update_self]
    exact address_of_empty rfl
  · right
    rw [del, Function.update_of_ne hi]

theorem afterSave_table (p : Page) (r : Except Table Table) :
    (afterSave p r).table = tableLeft r := by
  cases r with
  | error t => rfl
  | ok t => rfl

theorem saved_keysDistinct {key : Text → Text} {t : Table} (h : KeysDistinct (address key) 10 t)
    (edits : Nat → Edit) : KeysDistinct (address key) 10 (tableLeft (validateForm edits t)) := by
  apply h.drop
  intro i _
  obtain ⟨hmac, hip⟩ := foldlM_saveSlot_mac edits (List.range 10) t i
  right
  by_cases hused : (t i).ip = []
  · rw [address_of_empty hused, validateForm, address_of_empty (hip.mpr hused)]
  · rw [address_of_used hused, validateForm, address_of_used (mt hip.mp hused), hmac]

theorem keysDistinct_id {key : Text → Text} {t : Table} (h : KeysDistinct (address key) 10 t) :
    KeysDistinct (address id) 10 t := by
  intro i hi j hj k hki hkj
  have hused := used_of_address hki
  have hused' := used_of_address hkj
  rw [address_of_used hused] at hki
  rw [address_of_used hused'] at hkj
  have hmac : (t i).mac = (t j).mac := Option.some.inj (hki.trans hkj.symm)
  exact h i hi j hj (key (t i).mac) (address_of_used hused) (by rw [address_of_used hused', hmac])

/-- What the comparisons keep, for texts in every step, and for a coarser key in the steps whose
addresses are spelled for it. -/
theorem step_addresses {key : Text → Text} {dhcpStart dhcpEnd : Text} {p : Page} {e : Event}
    (htable : KeysDistinct (address key) 10 p.table)
    (hstored : KeysDistinct (address key) 10 p.stored) (he : AddressesSpelled key p.table e) :
    KeysDistinct (address key) 10 (step dhcpStart dhcpEnd p e).table := by
  cases e with
  | load => exact hstored
  | add name ip mac =>
      exact add_keysDistinct htable (OneSpelling.newAddress he List.mem_cons_self)
  | selectAdd clients => exact selectAdd_keysDistinct htable he
  | del index => exact del_keysDistinct htable index
  | save edits =>
      rw [step, afterSave_table]
      exact saved_keysDistinct htable edits

theorem addressesSpelled_id (t : Table) (e : Event) : AddressesSpelled id t e := by
  have hone : ∀ macs : List Text, OneSpelling id t macs := fun macs =>
    ⟨fun _ _ _ _ _ heq => heq, List.pairwise_of_forall fun _ _ heq => heq⟩
  cases e with
  | add name ip mac => exact hone _
  | selectAdd clients => exact hone _
  | load => trivial
  | del index => trivial
  | save edits => trivial

/-- One step, from a page without an address twice. -/
theorem reserves_iff {dhcpStart dhcpEnd : Text} {p : Page} (h : Sound id p) (e : Event) :
    Reserves dhcpStart dhcpEnd p e ↔ Legible p e := by
  have hfull := @step_of_full dhcpStart dhcpEnd p e
  cases e with
  | load => exact iff_of_true ⟨h.stored, hfull⟩ trivial
  | add name ip mac => exact iff_of_true ⟨h.stored, hfull⟩ trivial
  | selectAdd clients => exact iff_of_true ⟨h.stored, hfull⟩ trivial
  | del index => exact iff_of_true ⟨h.stored, hfull⟩ trivial
  | save edits =>
      have hstep : step dhcpStart dhcpEnd p (.save edits) =
          afterSave p (validateForm edits p.table) := rfl
      cases hsaved : validateForm edits p.table with
      | error t =>
          -- a refused octet ends the script, and nothing is stored
          have hnot : ¬Savable edits p.table := by
            intro hsavable
            obtain ⟨t', ht'⟩ := validateForm_of_savable hsavable
            rw [hsaved] at ht'
            cases ht'
          rw [hsaved] at hstep
          exact iff_of_true ⟨by rw [hstep]; exact h.stored, hfull⟩ fun hsavable =>
            absurd hsavable hnot
      | ok t =>
          rw [hsaved] at hstep
          have hiff := saved_conflictFree_iff h.addresses hsaved
          constructor
          · intro hres _
            have hstored := hres.stored
            rw [hstep] at hstored
            exact hiff.mp hstored
          · intro hlegible
            refine ⟨?_, hfull⟩
            rw [hstep]
            exact hiff.mpr (hlegible (validateForm_ok hsaved).1)

theorem Sound.step {key : Text → Text} {dhcpStart dhcpEnd : Text} {p : Page} {e : Event}
    (h : Sound key p) (hstored : KeysDistinct (address key) 10 p.stored)
    (he : AddressesSpelled key p.table e) (hlegible : Legible p e) :
    Sound key (StaticDhcp.step dhcpStart dhcpEnd p e) :=
  ⟨step_addresses h.addresses hstored he,
    ((reserves_iff ⟨keysDistinct_id h.addresses, h.stored⟩ e).mpr hlegible).stored⟩

/-- Addresses that are told apart by their capitals do not differ in the case of letters only. -/
theorem Spelled.legible {p : Page} {e : Event} (h : Spelled p e) (hp : Sound toUpperCase p) :
    Legible p e := by
  cases e with
  | save edits =>
      intro hsavable
      refine ⟨h.2 edits rfl hsavable, ?_⟩
      intro i hi j hj hused hused' heq
      rw [hp.addresses i hi j hj _ (address_of_used hused) (by rw [address_of_used hused', heq])]
  | load => trivial
  | add name ip mac => trivial
  | selectAdd clients => trivial
  | del index => trivial

/-- From an empty table, a run never stores a conflict exactly when every form that it submits is
legible, and it is if what is typed, listed and edited is spelled for it. -/
theorem along_reserves_iff (dhcpStart dhcpEnd : Text) (events : List Event) :
    (Along (step dhcpStart dhcpEnd) (Reserves dhcpStart dhcpEnd) init events ↔
        Along (step dhcpStart dhcpEnd) Legible init events) ∧
      (Along (step dhcpStart dhcpEnd) Spelled init events →
        Along (step dhcpStart dhcpEnd) Legible init events) := by
  constructor
  · have hstep : ∀ p e, Sound id p → Legible p e → Sound id (step dhcpStart dhcpEnd p e) := by
      intro p e h hlegible
      exact h.step (keysDistinct_id h.stored.addresses) (addressesSpelled_id p.table e) hlegible
    exact along_congr (fun p e h => reserves_iff h e) hstep (sound_init id)
  · intro hspelled
    refine hspelled.observe ?_ (sound_init toUpperCase)
    intro p e h he
    have hlegible := he.legible h
    exact ⟨h.step h.stored.addresses he.1 hlegible, hlegible⟩

def editRun : List Event :=
  [.add ['a'] ['1', '0', '0'] (sixTimes ['0', '2']), .add ['b'] ['1', '0', '1'] (sixTimes ['0', '4']),
    .save fun _ => ⟨['a'], ['1', '0', '0']⟩]

/-- 10.0.0.100, with an address in small letters. -/
def smallClient : Client where
  name := ['a']
  ip := ['1', '0', '.', '0', '.', '0', '.', '1', '0', '0']
  mac := sixTimes ['a', 'a']
  expire := ['0']
  ip_ok := by decide +kernel
  mac_ok := by decide +kernel

/-- A client, and its address once more by hand. -/
def capitalsRun : List Event :=
  [.selectAdd [smallClient], .add ['b'] ['1', '0', '1'] (sixTimes ['a', 'a']),
    .save fun i => ⟨['a'], if i = 0 then ['1', '0', '0'] else ['1', '0', '1']⟩]

/-- With addresses from 100 to 149 to give out, two stored reservations have the octet 100, and
two have the same address in small letters and in capitals. -/
theorem stored_reservations_conflict :
    (∀ i < 2, ((exec (step ['1', '0', '0'] ['1', '4', '9']) init editRun).stored i).ip =
      ['1', '0', '0']) ∧
    (((exec (step ['1', '0', '0'] ['1', '4', '9']) init capitalsRun).stored 0).mac =
      sixTimes ['a', 'a'] ∧
      ((exec (step ['1', '0', '0'] ['1', '4', '9']) init capitalsRun).stored 1).mac =
        sixTimes ['A', 'A']) ∧
    ¬∀ (dhcpStart dhcpEnd : Text) (events : List Event),
      Along (step dhcpStart dhcpEnd) (Reserves dhcpStart dhcpEnd) init events := by
  have hedits : ∀ i < 2, ((exec (step ['1', '0', '0'] ['1', '4', '9']) init editRun).stored i).ip =
      ['1', '0', '0'] := by decide +kernel
  refine ⟨hedits, by decide +kernel, ?_⟩
  intro hall
  obtain ⟨-, -, hsave, -⟩ := hall ['1', '0', '0'] ['1', '4', '9'] editRun
  have hoctet : ∀ i < 2, octet ((exec (step ['1', '0', '0'] ['1', '4', '9']) init editRun).stored i) =
      some 100 := by
    intro i hi
    rw [octet, hedits i hi]
    rfl
  have heq : 0 = 1 := hsave.stored.octets 0 (by omega) 1 (by omega) 100 (hoctet 0 (by omega))
    (hoctet 1 (by omega))
  omega

end Xwr100.Www.StaticDhcp
