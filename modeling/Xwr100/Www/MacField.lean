import Mathlib.Algebra.GroupWithZero.Nat
import Mathlib.Data.List.GetD
import Mathlib.Data.List.Induction
import Xwr100.Www.StaticDhcp

/-! # Fields for a MAC address

`macsCheck` and `macsCheck1` of `nsutil.js` take an address with colons or as twelve digits.  The
first goes over the characters at the end, in the second that loop is commented out.  They count
lengths, so a text is here what the language has for one: 16-bit units.
-/

namespace Xwr100.Www.MacField

open StaticDhcp

abbrev Units := List UInt16

def unit (c : Char) : UInt16 := UInt16.ofNat c.toNat

def units (t : Text) : Units := t.map unit

def colon : UInt16 := unit ':'

def space : UInt16 := unit ' '

/-! ## Numbers -/

/-- The half of a pair of surrogates is no white space. -/
def isSpaceUnit (u : UInt16) : Bool := isSpace (Char.ofNat u.toNat)

def hexValue (u : UInt16) : Option Nat :=
  let n := u.toNat
  if 48 ≤ n ∧ n ≤ 57 then some (n - 48)
  else if 97 ≤ n ∧ n ≤ 102 then some (n - 87)
  else if 65 ≤ n ∧ n ≤ 70 then some (n - 55)
  else none

def leadingHex : Units → List Nat
  | [] => []
  | u :: t =>
      match hexValue u with
      | some d => d :: leadingHex t
      | none => []

def numberOf (digits : List Nat) : Nat := digits.foldl (fun n d => 16 * n + d) 0

def unsignedHex (t : Units) : Option Nat :=
  match leadingHex t with
  | [] => none
  | digits => some (numberOf digits)

def skipMarker (t : Units) : Units :=
  if t.take 2 = units ['0', 'x'] ∨ t.take 2 = units ['0', 'X'] then t.drop 2 else t

/-- `parseInt(t, 16)`; `none` is not-a-number. -/
def parseHex (t : Units) : Option Int :=
  let t := t.dropWhile isSpaceUnit
  if t.head? = some (unit '-') then (unsignedHex (skipMarker t.tail)).map fun n : Nat => -(n : Int)
  else if t.head? = some (unit '+') then
    (unsignedHex (skipMarker t.tail)).map fun n : Nat => (n : Int)
  else (unsignedHex (skipMarker t)).map fun n : Nat => (n : Int)

/-- What an operator on bits makes of a number; not-a-number becomes zero. -/
def toInt32 (x : Option Int) : BitVec 32 := BitVec.ofInt 32 (x.getD 0)

/-! ## The checks -/

inductive Alert
  | invalid -- JavaScript 17
  | multicast -- JavaScript 18
  | partLength -- JavaScript 19
  | partDigit (nameVal value : Units) -- JavaScript 12 and 13, with the two behind them
  deriving DecidableEq

def ignoreSpaces (string : Units) : Units := (string.splitOn space).flatten

def parts (mac : Units) : Option (List Units) :=
  if colon ∉ mac then
    if mac.length ≠ 12 then none else some ((List.range 6).map fun i => (mac.drop (i * 2)).take 2)
  else
    let m := mac.splitOn colon
    if mac.length ≠ 17 ∨ m.length ≠ 6 then none else some m

/-- The first part is odd, all are ones, or all are zeros. -/
def groupAddress (m : List Units) : Bool :=
  let numbers := m.map fun part => toInt32 (parseHex part)
  numbers.getD 0 0 &&& 1 != 0 || numbers.foldl (· &&& ·) (BitVec.allOnes 32) == 0xff ||
    numbers.foldl (· ||| ·) 0 == 0

def toLowerCase (ch : UInt16) : UInt16 := if 65 ≤ ch.toNat ∧ ch.toNat ≤ 90 then ch + 32 else ch

/-- The test of a character; no other letter's small form is a digit. -/
def isHexChar (u : UInt16) : Bool :=
  let ch := (toLowerCase u).toNat
  48 ≤ ch && ch ≤ 57 || 97 ≤ ch && ch ≤ 102

/-- The loop over the parts, and over their characters if `digits`. -/
def checkParts (digits : Bool) (value : Units) : List Units → Option Alert
  | [] => none
  | nameVal :: rest =>
      if nameVal.length < 1 ∨ nameVal.length > 2 then some .partLength
      else if digits && nameVal.any fun ch => !isHexChar ch then some (.partDigit nameVal value)
      else checkParts digits value rest

/-- What the two checks share: the alert, none if the field is accepted, and the field. -/
def checkMac (refused passed : List Units) (digits : Bool) (value : Units) :
    Option Alert × Units :=
  let mac := ignoreSpaces value
  if mac = [] ∨ mac ∈ refused then (some .invalid, mac)
  else if mac ∈ passed then (none, mac)
  else
    match parts mac with
    | none => (some .invalid, mac)
    | some m =>
        if groupAddress m then (some .multicast, mac)
        else
          match checkParts digits mac m with
          | some alert => (some alert, mac)
          | none => (none, if colon ∉ mac then [colon].intercalate m else mac)

def zeros : Units := units (sixTimes ['0', '0'])

def ones : Units := units (sixTimes ['f', 'f'])

def macsCheck (oldmac : Units) : Option Alert × Units := checkMac [ones] [zeros] true oldmac

def macsCheck1 (oldmac : Units) : Option Alert × Units := checkMac [zeros, ones] [] false oldmac

/-! ## Addresses -/

def HexPair (pair : Units) : Prop := pair.length = 2 ∧ ∀ u ∈ pair, (hexValue u).isSome

def octet (pair : Units) : Nat := numberOf (pair.map fun u => (hexValue u).getD 0)

/-- Six pairs of digits: an even octet first, not all ones, not all zeros. -/
structure Address (pairs : List Units) : Prop where
  six : pairs.length = 6
  pair : ∀ pair ∈ pairs, HexPair pair
  even : octet (pairs.getD 0 []) % 2 = 0
  notOnes : ∃ pair ∈ pairs, octet pair ≠ 255
  notZeros : ∃ pair ∈ pairs, octet pair ≠ 0

def withColons (pairs : List Units) : Units := [colon].intercalate pairs

/-- The pairs, with colons between them or without, and with spaces anywhere. -/
def Writes (value : Units) (pairs : List Units) : Prop :=
  value.filter (fun u => u != space) = withColons pairs ∨
    value.filter (fun u => u != space) = pairs.flatten

structure ChecksRight (value : Units) : Prop where
  holds : (macsCheck value).1 = none → (macsCheck value).2 = zeros ∨
    ∃ pairs, Address pairs ∧ (macsCheck value).2 = withColons pairs
  holds1 : (macsCheck1 value).1 = none →
    ∃ pairs, Address pairs ∧ (macsCheck1 value).2 = withColons pairs
  accepts : ∀ pairs, Address pairs → Writes value pairs →
    (macsCheck value).1 = none ∧ (macsCheck1 value).1 = none
  acceptsZeros : value.filter (fun u => u != space) = zeros → (macsCheck value).1 = none
  agree : value.filter (fun u => u != space) ≠ zeros →
    (macsCheck value).1.isNone = (macsCheck1 value).1.isNone ∧
      (macsCheck value).2 = (macsCheck1 value).2

/-! ## Spaces -/

theorem ignoreSpaces_eq (value : Units) :
    ignoreSpaces value = value.filter fun u => u != space := by
  unfold ignoreSpaces
  induction value with
  | nil => rfl
  | cons u value ih =>
      rw [List.splitOn_cons_eq_if_modifyHead]
      by_cases hu : (u == space) = true
      · rw [if_pos hu, List.flatten_cons, List.nil_append, ih,
          List.filter_cons_of_neg (by simpa using hu)]
      · obtain ⟨first, rest, hsplit⟩ := List.exists_cons_of_ne_nil (List.splitOn_ne_nil space value)
        rw [if_neg hu, List.filter_cons_of_pos (by simpa using hu), ← ih, hsplit]
        rfl

/-! ## Parts of two -/

/-- Six parts of two units each, with colons between them or without. -/
structure Parts (mac : Units) (m : List Units) : Prop where
  six : m.length = 6
  two : ∀ part ∈ m, part.length = 2
  colons : ∀ part ∈ m, colon ∉ part
  eq : mac = withColons m ∨ mac = m.flatten

/-- `substring`, two units at a time. -/
def slices (count : Nat) (mac : Units) : List Units :=
  (List.range count).map fun i => (mac.drop (i * 2)).take 2

theorem slices_succ (count : Nat) (mac : Units) :
    slices (count + 1) mac = mac.take 2 :: slices count (mac.drop 2) := by
  rw [slices, List.range_succ_eq_map, List.map_cons, List.map_map]
  simp [slices, Function.comp_def, Nat.add_mul, Nat.add_comm]

theorem slices_flatten {m : List Units} (h : ∀ part ∈ m, part.length = 2) :
    slices m.length m.flatten = m := by
  induction m with
  | nil => rfl
  | cons part m ih =>
      have hpart : part.length = 2 := h part List.mem_cons_self
      rw [List.length_cons, slices_succ, List.flatten_cons, List.take_left' hpart,
        List.drop_left' hpart, ih fun part' hpart' => h part' (List.mem_cons_of_mem part hpart')]

theorem flatten_slices {count : Nat} {mac : Units} (h : mac.length = count * 2) :
    (slices count mac).flatten = mac ∧ ∀ part ∈ slices count mac, part.length = 2 := by
  induction count generalizing mac with
  | zero =>
      obtain rfl : mac = [] := List.length_eq_zero_iff.mp (by omega)
      exact ⟨rfl, fun part hpart => absurd hpart List.not_mem_nil⟩
  | succ count ih =>
      obtain ⟨hflatten, htwo⟩ := @ih (mac.drop 2) (by rw [List.length_drop]; omega)
      rw [slices_succ, List.flatten_cons, hflatten, List.take_append_drop]
      refine ⟨rfl, ?_⟩
      intro part hpart
      rcases List.mem_cons.mp hpart with rfl | hpart
      · rw [List.length_take]
        omega
      · exact htwo part hpart

theorem withColons_six (a b c d e f : Units) : withColons [a, b, c, d, e, f] =
    a ++ colon :: (b ++ colon :: (c ++ colon :: (d ++ colon :: (e ++ colon :: f)))) := by
  simp [withColons, List.intercalate]

/-- With colons, six parts of at most two units in seventeen are of two units. -/
theorem two_of_seventeen {m : List Units} (hsix : m.length = 6)
    (hlength : (withColons m).length = 17) (hle : ∀ part ∈ m, part.length ≤ 2) :
    ∀ part ∈ m, part.length = 2 := by
  match m, hsix with
  | [a, b, c, d, e, f], _ =>
      simp only [withColons_six, List.length_append, List.length_cons] at hlength
      simp only [List.mem_cons, List.not_mem_nil, or_false, forall_eq_or_imp, forall_eq] at hle ⊢
      omega

theorem Parts.length {mac : Units} {m : List Units} (h : Parts mac m) :
    (mac = withColons m ∧ colon ∈ mac ∧ mac.length = 17) ∨
      (mac = m.flatten ∧ colon ∉ mac ∧ mac.length = 12) := by
  have htwo := h.two
  have hcolons := h.colons
  have heq := h.eq
  match m, h.six with
  | [a, b, c, d, e, f], _ =>
      simp only [List.mem_cons, List.not_mem_nil, or_false, forall_eq_or_imp, forall_eq] at htwo
      rcases heq with rfl | rfl
      · left
        simp [withColons_six]
        omega
      · right
        simp only [List.mem_cons, List.not_mem_nil, or_false, forall_eq_or_imp, forall_eq]
          at hcolons
        simp [hcolons]
        omega

theorem parts_slices {mac : Units} (hcolon : colon ∉ mac) (h12 : mac.length = 12) :
    Parts mac (slices 6 mac) := by
  obtain ⟨hflatten, htwo⟩ := @flatten_slices 6 mac (by omega)
  refine ⟨by simp [slices], htwo, ?_, .inr hflatten.symm⟩
  intro part hpart hmem
  apply hcolon
  rw [← hflatten]
  exact List.mem_flatten_of_mem hpart hmem

theorem parts_splitOn {mac : Units} (h17 : mac.length = 17)
    (hsix : (mac.splitOn colon).length = 6) (hle : ∀ part ∈ mac.splitOn colon, part.length ≤ 2) :
    Parts mac (mac.splitOn colon) := by
  have hjoin : withColons (mac.splitOn colon) = mac := List.intercalate_splitOn colon
  refine ⟨hsix, ?_, fun part hpart => not_mem_of_mem_splitOn hpart, .inl hjoin.symm⟩
  exact two_of_seventeen hsix (by rw [hjoin, h17]) hle

theorem parts_iff {mac : Units} {m : List Units} :
    (parts mac = some m ∧ ∀ part ∈ m, 1 ≤ part.length ∧ part.length ≤ 2) ↔ Parts mac m := by
  constructor
  · intro h
    obtain ⟨hparts, hlength⟩ := h
    unfold parts at hparts
    by_cases hcolon : colon ∉ mac
    · rw [if_pos hcolon] at hparts
      split at hparts
      · cases hparts
      · next h12 =>
        obtain rfl := Option.some.inj hparts
        exact parts_slices hcolon (by omega)
    · rw [if_neg hcolon] at hparts
      dsimp only at hparts
      split at hparts
      · cases hparts
      · next h17 =>
        obtain rfl := Option.some.inj hparts
        exact parts_splitOn (by omega) (by omega) fun part hpart => (hlength part hpart).2
  · intro h
    refine ⟨?_, fun part hpart => by have := h.two part hpart; omega⟩
    unfold parts
    rcases h.length with ⟨hmac, hcolon, hlength⟩ | ⟨hmac, hcolon, hlength⟩
    · have hsplit : mac.splitOn colon = m := by
        rw [hmac]
        exact List.splitOn_intercalate colon h.colons (List.ne_nil_of_length_eq_add_one h.six)
      rw [if_neg (not_not.mpr hcolon)]
      dsimp only
      rw [hsplit, if_neg (by rw [hlength, h.six]; decide)]
    · have hslices := slices_flatten h.two
      rw [h.six, ← hmac] at hslices
      rw [if_pos hcolon, if_neg (by omega)]
      exact congrArg some hslices

/-! ## What the numbers of the parts are -/

theorem hexValue_lt {u : UInt16} {d : Nat} (h : hexValue u = some d) : d < 16 := by
  unfold hexValue at h
  dsimp only at h
  split at h
  · cases h
    omega
  · split at h
    · cases h
      omega
    · split at h
      · cases h
        omega
      · cases h

theorem hexValue_isSome {u : UInt16} : (hexValue u).isSome = true ↔
    (48 ≤ u.toNat ∧ u.toNat ≤ 57) ∨ (97 ≤ u.toNat ∧ u.toNat ≤ 102) ∨
      (65 ≤ u.toNat ∧ u.toNat ≤ 70) := by
  unfold hexValue
  dsimp only
  split
  · simp [*]
  · split
    · simp [*]
    · split
      · simp [*]
      · simp [*]

theorem toNat_toLowerCase (u : UInt16) : (toLowerCase u).toNat =
    if 65 ≤ u.toNat ∧ u.toNat ≤ 90 then u.toNat + 32 else u.toNat := by
  unfold toLowerCase
  split
  · rw [UInt16.toNat_add]
    change (u.toNat + 32) % 65536 = _
    omega
  · rfl

theorem isHexChar_eq (u : UInt16) : isHexChar u = (hexValue u).isSome := by
  rw [Bool.eq_iff_iff, hexValue_isSome]
  unfold isHexChar
  simp only [toNat_toLowerCase, Bool.or_eq_true, Bool.and_eq_true, decide_eq_true_eq]
  split
  · omega
  · omega

theorem leadingHex_bound (t : Units) :
    (leadingHex t).length ≤ t.length ∧ ∀ d ∈ leadingHex t, d < 16 := by
  induction t with
  | nil => simp [leadingHex]
  | cons u t ih =>
      unfold leadingHex
      split
      · next d hd =>
        refine ⟨Nat.succ_le_succ ih.1, ?_⟩
        intro e he
        rcases List.mem_cons.mp he with rfl | he
        · exact hexValue_lt hd
        · exact ih.2 e he
      · simp

theorem numberOf_lt {digits : List Nat} (h : ∀ d ∈ digits, d < 16) :
    numberOf digits < 16 ^ digits.length := by
  induction digits using List.reverseRecOn with
  | nil => exact Nat.one_pos
  | append_singleton digits d ih =>
      have hd := h d (by simp)
      have hrest := ih fun e he => h e (List.mem_append_left _ he)
      unfold numberOf at hrest ⊢
      rw [List.foldl_append, List.length_append, List.length_singleton, Nat.pow_succ]
      simp only [List.foldl_cons, List.foldl_nil]
      omega

theorem unsignedHex_lt {t : Units} {n : Nat} (h : unsignedHex t = some n) : n < 16 ^ t.length := by
  unfold unsignedHex at h
  split at h
  · cases h
  · obtain rfl := Option.some.inj h
    have hbound := leadingHex_bound t
    exact Nat.lt_of_lt_of_le (numberOf_lt hbound.2) (Nat.pow_le_pow_right (by decide) hbound.1)

def number (part : Units) : Int := (parseHex part).getD 0

theorem length_dropWhile_le {t : Units} : (t.dropWhile isSpaceUnit).length ≤ t.length :=
  (List.dropWhile_sublist _).length_le

theorem unsignedHex_two {t : Units} {n : Nat} (h : unsignedHex t = some n) (ht : t.length ≤ 2) :
    n < 256 :=
  Nat.lt_of_lt_of_le (unsignedHex_lt h) (Nat.pow_le_pow_right (by decide) ht)

theorem length_skipMarker_le (t : Units) : (skipMarker t).length ≤ t.length := by
  unfold skipMarker
  split
  · rw [List.length_drop]
    omega
  · exact Nat.le_refl _

theorem number_bound {part : Units} (h : part.length = 2) :
    -256 < number part ∧ number part < 256 := by
  have hskip : ∀ {t : Units} {n : Nat}, t.length ≤ 2 → unsignedHex (skipMarker t) = some n →
      n < 256 := fun ht hn => unsignedHex_two hn (Nat.le_trans (length_skipMarker_le _) ht)
  have hdrop : (part.dropWhile isSpaceUnit).length ≤ 2 := h ▸ length_dropWhile_le
  have htail : (part.dropWhile isSpaceUnit).tail.length ≤ 2 := by
    rw [List.length_tail]
    omega
  unfold number parseHex
  dsimp only
  split
  · cases hn : unsignedHex (skipMarker (part.dropWhile isSpaceUnit).tail) with
    | none => simp
    | some n =>
        have hlt := hskip htail hn
        simp
        omega
  · split
    · cases hn : unsignedHex (skipMarker (part.dropWhile isSpaceUnit).tail) with
      | none => simp
      | some n =>
          have hlt := hskip htail hn
          simp
          omega
    · cases hn : unsignedHex (skipMarker (part.dropWhile isSpaceUnit)) with
      | none => simp
      | some n =>
          have hlt := hskip hdrop hn
          simp
          omega

theorem leadingHex_of_digits {t : Units} (h : ∀ u ∈ t, (hexValue u).isSome = true) :
    leadingHex t = t.map fun u => (hexValue u).getD 0 := by
  induction t with
  | nil => rfl
  | cons u t ih =>
      obtain ⟨d, hd⟩ := Option.isSome_iff_exists.mp (h u List.mem_cons_self)
      rw [leadingHex, hd, List.map_cons, ih fun v hv => h v (List.mem_cons_of_mem u hv), hd]
      rfl

theorem isSpaceUnit_of_digit {u : UInt16} (h : (hexValue u).isSome = true) :
    isSpaceUnit u = false := by
  have hrange := hexValue_isSome.mp h
  have hvalid : u.toNat.isValidChar := .inl (by omega)
  have hnat : (Char.ofNat u.toNat).toNat = u.toNat := by
    rw [Char.ofNat, dif_pos hvalid]
    rfl
  simp [isSpaceUnit, isSpace, hnat]
  omega

theorem number_hexPair {pair : Units} (h : HexPair pair) : number pair = octet pair := by
  obtain ⟨hlength, hall⟩ := h
  obtain ⟨u, v, rfl⟩ := List.length_eq_two.mp hlength
  have hne : ∀ {w x : UInt16}, x ∈ [u, v] → hexValue w = none → x ≠ w := by
    intro w x hx hw heq
    have hsome := hall x hx
    rw [heq, hw] at hsome
    cases hsome
  have hskip : skipMarker [u, v] = [u, v] := by
    have hv : ∀ c, hexValue (unit c) = none → [u, v].take 2 ≠ units ['0', c] := by
      intro c hc heq
      exact hne (x := v) (by simp) hc (List.cons.inj (List.cons.inj heq).2).1
    exact if_neg (not_or.mpr ⟨hv 'x' (by decide), hv 'X' (by decide)⟩)
  have hdrop : [u, v].dropWhile isSpaceUnit = [u, v] :=
    List.dropWhile_cons_of_neg (by simp [isSpaceUnit_of_digit (hall u List.mem_cons_self)])
  have hhead : ∀ c, hexValue (unit c) = none → [u, v].head? ≠ some (unit c) := by
    intro c hc heq
    exact hne List.mem_cons_self hc (Option.some.inj heq)
  have hunsigned : unsignedHex [u, v] = some (octet [u, v]) := by
    unfold unsignedHex octet
    rw [leadingHex_of_digits hall]
    rfl
  rw [number, parseHex, hdrop, if_neg (hhead '-' (by decide)), if_neg (hhead '+' (by decide)),
    hskip, hunsigned]
  rfl

/-! ## The bits -/

theorem toInt32_even {x : Option Int} : toInt32 x &&& 1 = 0 ↔ x.getD 0 % 2 = 0 := by
  rw [← BitVec.toNat_inj, BitVec.toNat_and, toInt32, BitVec.toNat_ofInt]
  change _ &&& 1 = 0 ↔ _
  rw [Nat.and_one_is_mod]
  omega

theorem toInt32_eq_zero {x : Option Int} (h : -256 < x.getD 0 ∧ x.getD 0 < 256) :
    toInt32 x = 0 ↔ x.getD 0 = 0 := by
  rw [← BitVec.toNat_inj, toInt32, BitVec.toNat_ofInt]
  change _ = 0 ↔ _
  omega

theorem foldl_or_eq_zero {l : List (BitVec 32)} {acc : BitVec 32} :
    l.foldl (· ||| ·) acc = 0 ↔ acc = 0 ∧ ∀ x ∈ l, x = 0 := by
  induction l generalizing acc with
  | nil => simp
  | cons x l ih =>
      rw [List.foldl_cons, ih, List.forall_mem_cons, ← and_assoc]
      simp

theorem getLsbD_foldl_and {l : List (BitVec 32)} {acc : BitVec 32} {i : Nat} :
    (l.foldl (· &&& ·) acc).getLsbD i = true ↔
      acc.getLsbD i = true ∧ ∀ x ∈ l, x.getLsbD i = true := by
  induction l generalizing acc with
  | nil => simp
  | cons x l ih =>
      rw [List.foldl_cons, ih, List.forall_mem_cons, ← and_assoc, BitVec.getLsbD_and,
        Bool.and_eq_true]

/-- The numbers of the parts: the first is even, and one is not zero. -/
structure Loose (m : List Units) : Prop where
  even : number (m.getD 0 []) % 2 = 0
  notZeros : ∃ part ∈ m, number part ≠ 0

theorem getLsbD_zero_of_and_one {x : BitVec 32} (h : x &&& 1 = 0) : x.getLsbD 0 = false := by
  have hbit := congrArg (fun y : BitVec 32 => y.getLsbD 0) h
  simpa using hbit

/-- An even first number keeps the numbers from being all ones. -/
theorem and_ne_ones {x : BitVec 32} {l : List (BitVec 32)} (hx : x &&& 1 = 0) (hmem : x ∈ l) :
    l.foldl (· &&& ·) (BitVec.allOnes 32) ≠ 0xff := by
  intro heq
  have hbit : (0xff : BitVec 32).getLsbD 0 = true := by decide
  rw [← heq, getLsbD_foldl_and] at hbit
  have hlast := hbit.2 x hmem
  rw [getLsbD_zero_of_and_one hx] at hlast
  cases hlast

theorem groupAddress_eq_false {mac : Units} {m : List Units} (h : Parts mac m) :
    groupAddress m = false ↔ Loose m := by
  obtain ⟨first, rest, rfl⟩ := List.exists_cons_of_ne_nil (List.ne_nil_of_length_eq_add_one h.six)
  have heven : toInt32 (parseHex first) &&& 1 = 0 ↔ number first % 2 = 0 := toInt32_even
  have hzeros : (∀ x ∈ (first :: rest).map fun part => toInt32 (parseHex part), x = 0) ↔
      ∀ part ∈ first :: rest, number part = 0 := by
    rw [List.forall_mem_map]
    exact forall₂_congr fun part hpart => toInt32_eq_zero (number_bound (h.two part hpart))
  have hsplit : groupAddress (first :: rest) = false ↔
      toInt32 (parseHex first) &&& 1 = 0 ∧
        ((first :: rest).map fun part => toInt32 (parseHex part)).foldl (· &&& ·)
          (BitVec.allOnes 32) ≠ 0xff ∧
        ((first :: rest).map fun part => toInt32 (parseHex part)).foldl (· ||| ·) 0 ≠ 0 := by
    simp [groupAddress, and_assoc]
  rw [hsplit, heven, ne_eq _ (0 : BitVec 32), foldl_or_eq_zero, and_iff_right rfl, hzeros]
  constructor
  · intro hall
    obtain ⟨hfirst, -, hnot⟩ := hall
    refine ⟨hfirst, ?_⟩
    simpa only [not_forall, exists_prop] using hnot
  · intro hloose
    refine ⟨hloose.even, and_ne_ones (heven.mpr hloose.even) (by simp), ?_⟩
    intro hall
    obtain ⟨part, hpart, hne⟩ := hloose.notZeros
    exact hne (hall part hpart)

/-! ## What is accepted -/

def AllHex (m : List Units) : Prop := ∀ part ∈ m, ∀ u ∈ part, (hexValue u).isSome

theorem checkParts_eq_none {digits : Bool} {value : Units} {m : List Units} :
    checkParts digits value m = none ↔
      (∀ part ∈ m, 1 ≤ part.length ∧ part.length ≤ 2) ∧ (digits = true → AllHex m) := by
  induction m with
  | nil => simp [checkParts, AllHex]
  | cons part m ih =>
      have hany : (digits && part.any fun ch => !isHexChar ch) = true ↔
          ¬(digits = true → ∀ u ∈ part, (hexValue u).isSome = true) := by
        cases digits <;> simp [isHexChar_eq]
      unfold checkParts
      simp only [AllHex, List.forall_mem_cons] at ih ⊢
      by_cases hlength : part.length < 1 ∨ part.length > 2
      · rw [if_pos hlength]
        exact iff_of_false (Option.some_ne_none _) fun h => by omega
      · rw [if_neg hlength]
        by_cases hchars : digits = true → ∀ u ∈ part, (hexValue u).isSome = true
        · rw [if_neg (by rw [hany]; exact not_not.mpr hchars), ih]
          have hle : 1 ≤ part.length ∧ part.length ≤ 2 := by omega
          tauto
        · rw [if_pos (hany.mpr hchars)]
          exact iff_of_false (Option.some_ne_none _) fun h => hchars fun hd => (h.2 hd).1

theorem Parts.ne_nil {mac : Units} {m : List Units} (h : Parts mac m) : mac ≠ [] := by
  rintro rfl
  rcases h.length with ⟨-, -, hlength⟩ | ⟨-, -, hlength⟩ <;> cases hlength

section

variable {refused passed : List Units} {digits : Bool} {value : Units}

theorem checkMac_parts {m : List Units} (hm : Parts (ignoreSpaces value) m)
    (hrefused : ignoreSpaces value ∉ refused) (hpassed : ignoreSpaces value ∉ passed)
    (hloose : Loose m) (hhex : digits = true → AllHex m) :
    checkMac refused passed digits value = (none, withColons m) := by
  obtain ⟨hparts, hlength⟩ := parts_iff.mpr hm
  unfold checkMac
  dsimp only
  rw [if_neg (not_or.mpr ⟨hm.ne_nil, hrefused⟩), if_neg hpassed, hparts]
  dsimp only
  rw [(groupAddress_eq_false hm).mpr hloose, checkParts_eq_none.mpr ⟨hlength, hhex⟩]
  rcases hm.length with ⟨hmac, hcolon, -⟩ | ⟨hmac, hcolon, -⟩
  · simp [hcolon, ← hmac]
  · simp [hcolon, withColons]

theorem of_checkMac (h : (checkMac refused passed digits value).1 = none) :
    ignoreSpaces value ∉ refused ∧
      ((ignoreSpaces value ∈ passed ∧
          (checkMac refused passed digits value).2 = ignoreSpaces value) ∨
        ∃ m, Parts (ignoreSpaces value) m ∧ Loose m ∧ (digits = true → AllHex m)) := by
  unfold checkMac at h ⊢
  dsimp only at h ⊢
  by_cases hrefused : ignoreSpaces value = [] ∨ ignoreSpaces value ∈ refused
  · rw [if_pos hrefused] at h
    cases h
  · rw [if_neg hrefused] at h ⊢
    refine ⟨(not_or.mp hrefused).2, ?_⟩
    by_cases hpassed : ignoreSpaces value ∈ passed
    · rw [if_pos hpassed]
      exact .inl ⟨hpassed, rfl⟩
    · rw [if_neg hpassed] at h
      right
      split at h
      · cases h
      · next m hparts =>
        split at h
        · cases h
        · next hgroup =>
          split at h
          · cases h
          · next hcheck =>
            obtain ⟨hlength, hhex⟩ := checkParts_eq_none.mp hcheck
            have hm := parts_iff.mp ⟨hparts, hlength⟩
            exact ⟨m, hm, (groupAddress_eq_false hm).mp (by simpa using hgroup), hhex⟩

/-- A field that is refused only loses its spaces. -/
theorem checkMac_refused (h : (checkMac refused passed digits value).1 ≠ none) :
    (checkMac refused passed digits value).2 = ignoreSpaces value := by
  unfold checkMac at h ⊢
  dsimp only at h ⊢
  by_cases hrefused : ignoreSpaces value = [] ∨ ignoreSpaces value ∈ refused
  · rw [if_pos hrefused]
  · rw [if_neg hrefused] at h ⊢
    by_cases hpassed : ignoreSpaces value ∈ passed
    · rw [if_pos hpassed]
    · rw [if_neg hpassed] at h ⊢
      cases hparts : parts (ignoreSpaces value) with
      | none => rfl
      | some m =>
          rw [hparts] at h
          dsimp only at h ⊢
          by_cases hgroup : groupAddress m = true
          · rw [if_pos hgroup]
          · rw [if_neg hgroup] at h ⊢
            cases hcheck : checkParts digits (ignoreSpaces value) m with
            | some alert => rfl
            | none =>
                rw [hcheck] at h
                contradiction

end

/-! ## The two checks -/

theorem zeros_parts {m : List Units} (h : Parts zeros m) : ¬Loose m := by
  have hm : parts zeros = some (List.replicate 6 (units ['0', '0'])) := by decide +kernel
  obtain rfl := Option.some.inj ((parts_iff.mpr h).1.symm.trans hm)
  intro hloose
  obtain ⟨part, hpart, hne⟩ := hloose.notZeros
  rw [List.eq_of_mem_replicate hpart] at hne
  exact hne (by decide +kernel)

theorem ones_parts {m : List Units} (h : Parts ones m) : ¬Loose m := by
  have hm : parts ones = some (List.replicate 6 (units ['f', 'f'])) := by decide +kernel
  obtain rfl := Option.some.inj ((parts_iff.mpr h).1.symm.trans hm)
  intro hloose
  exact absurd hloose.even (by decide +kernel)

theorem macsCheck_parts {value : Units} {m : List Units} (hm : Parts (ignoreSpaces value) m)
    (hloose : Loose m) (hhex : AllHex m) : macsCheck value = (none, withColons m) := by
  apply checkMac_parts hm _ _ hloose fun _ => hhex
  · rw [List.mem_singleton]
    intro heq
    exact ones_parts (heq ▸ hm) hloose
  · rw [List.mem_singleton]
    intro heq
    exact zeros_parts (heq ▸ hm) hloose

theorem macsCheck1_parts {value : Units} {m : List Units} (hm : Parts (ignoreSpaces value) m)
    (hloose : Loose m) : macsCheck1 value = (none, withColons m) := by
  apply checkMac_parts hm _ List.not_mem_nil hloose
  · intro h
    cases h
  · intro hmem
    simp only [List.mem_cons, List.not_mem_nil, or_false] at hmem
    rcases hmem with heq | heq
    · exact zeros_parts (heq ▸ hm) hloose
    · exact ones_parts (heq ▸ hm) hloose

theorem of_macsCheck {value : Units} (h : (macsCheck value).1 = none) :
    (ignoreSpaces value = zeros ∧ (macsCheck value).2 = zeros) ∨
      ∃ m, Parts (ignoreSpaces value) m ∧ Loose m ∧ AllHex m := by
  rcases (of_checkMac h).2 with ⟨hpassed, hfield⟩ | ⟨m, hm, hloose, hhex⟩
  · rw [List.mem_singleton] at hpassed
    exact .inl ⟨hpassed, by rw [← hpassed]; exact hfield⟩
  · exact .inr ⟨m, hm, hloose, hhex rfl⟩

theorem of_macsCheck1 {value : Units} (h : (macsCheck1 value).1 = none) :
    ∃ m, Parts (ignoreSpaces value) m ∧ Loose m := by
  rcases (of_checkMac h).2 with ⟨hpassed, -⟩ | ⟨m, hm, hloose, -⟩
  · cases hpassed
  · exact ⟨m, hm, hloose⟩

/-! ## When the checks are right -/

theorem hexPair_iff {m : List Units} (h : ∀ part ∈ m, part.length = 2) :
    (∀ part ∈ m, HexPair part) ↔ AllHex m := by
  constructor
  · exact fun hall part hpart => (hall part hpart).2
  · exact fun hall part hpart => ⟨h part hpart, hall part hpart⟩

theorem Parts.address {mac : Units} {m : List Units} (hm : Parts mac m) (hloose : Loose m)
    (hhex : AllHex m) : Address m := by
  have hpair := (hexPair_iff hm.two).mpr hhex
  have hfirst : m.getD 0 [] ∈ m := by
    rw [List.getD_eq_getElem _ _ (by rw [hm.six]; decide)]
    exact List.getElem_mem _
  have heven : octet (m.getD 0 []) % 2 = 0 := by
    have hnumber := hloose.even
    rw [number_hexPair (hpair _ hfirst)] at hnumber
    omega
  obtain ⟨part, hpart, hne⟩ := hloose.notZeros
  rw [number_hexPair (hpair part hpart)] at hne
  exact {
    six := hm.six
    pair := hpair
    even := heven
    notOnes := ⟨_, hfirst, fun heq => by omega⟩
    notZeros := ⟨part, hpart, fun heq => hne (by rw [heq]; rfl)⟩ }

theorem Address.loose {pairs : List Units} (h : Address pairs) : Loose pairs := by
  have hfirst : pairs.getD 0 [] ∈ pairs := by
    rw [List.getD_eq_getElem _ _ (by rw [h.six]; decide)]
    exact List.getElem_mem _
  obtain ⟨pair, hpair, hne⟩ := h.notZeros
  refine ⟨?_, pair, hpair, ?_⟩
  · have heven := h.even
    rw [number_hexPair (h.pair _ hfirst)]
    omega
  · rw [number_hexPair (h.pair pair hpair)]
    omega

theorem Address.parts {mac : Units} {pairs : List Units} (h : Address pairs)
    (heq : mac = withColons pairs ∨ mac = pairs.flatten) : Parts mac pairs := by
  refine ⟨h.six, fun pair hpair => (h.pair pair hpair).1, ?_, heq⟩
  intro pair hpair hmem
  have hcolon := (h.pair pair hpair).2 colon hmem
  revert hcolon
  decide

theorem Address.allHex {pairs : List Units} (h : Address pairs) : AllHex pairs :=
  fun pair hpair => (h.pair pair hpair).2

/-- Six parts of two units that are read as a fit address, though not all of them are digits. -/
def Misread (value : Units) : Prop :=
  ∃ m, Parts (value.filter fun u => u != space) m ∧ Loose m ∧ ¬AllHex m

theorem withColons_inj {mac mac' : Units} {m m' : List Units} (h : Parts mac m)
    (h' : Parts mac' m') (heq : withColons m = withColons m') : m = m' := by
  have hsplit : ∀ {mac m}, Parts mac m → (withColons m).splitOn colon = m := fun h =>
    List.splitOn_intercalate colon h.colons (List.ne_nil_of_length_eq_add_one h.six)
  rw [← hsplit h, heq, hsplit h']

/-- Where what is read as an address has digits, the checks do what they should. -/
theorem checksRight_of_allHex {value : Units}
    (hhex : ∀ m, Parts (ignoreSpaces value) m → Loose m → AllHex m) : ChecksRight value where
  holds h := by
    rcases of_macsCheck h with ⟨-, hzeros⟩ | ⟨m, hm, hloose, hall⟩
    · exact .inl hzeros
    · rw [macsCheck_parts hm hloose hall]
      exact .inr ⟨m, hm.address hloose hall, rfl⟩
  holds1 h := by
    obtain ⟨m, hm, hloose⟩ := of_macsCheck1 h
    rw [macsCheck1_parts hm hloose]
    exact ⟨m, hm.address hloose (hhex m hm hloose), rfl⟩
  accepts pairs hpairs hwrites := by
    rw [Writes, ← ignoreSpaces_eq] at hwrites
    have hparts := hpairs.parts hwrites
    rw [macsCheck_parts hparts hpairs.loose hpairs.allHex, macsCheck1_parts hparts hpairs.loose]
    exact ⟨rfl, rfl⟩
  acceptsZeros h := by
    rw [← ignoreSpaces_eq] at h
    unfold macsCheck checkMac
    rw [h]
    decide +kernel
  agree h := by
    rw [← ignoreSpaces_eq] at h
    by_cases hread : ∃ m, Parts (ignoreSpaces value) m ∧ Loose m
    · obtain ⟨m, hm, hloose⟩ := hread
      rw [macsCheck_parts hm hloose (hhex m hm hloose), macsCheck1_parts hm hloose]
      exact ⟨rfl, rfl⟩
    · have hrefused : (macsCheck value).1 ≠ none := by
        intro hnone
        rcases of_macsCheck hnone with ⟨hzeros, -⟩ | ⟨m, hm, hloose, -⟩
        · exact h hzeros
        · exact hread ⟨m, hm, hloose⟩
      have hrefused1 : (macsCheck1 value).1 ≠ none := fun hnone => hread (of_macsCheck1 hnone)
      have hfield : (macsCheck value).2 = ignoreSpaces value := checkMac_refused hrefused
      have hfield1 : (macsCheck1 value).2 = ignoreSpaces value := checkMac_refused hrefused1
      rw [Option.isNone_eq_false_iff.mpr (Option.isSome_iff_ne_none.mpr hrefused),
        Option.isNone_eq_false_iff.mpr (Option.isSome_iff_ne_none.mpr hrefused1), hfield, hfield1]
      exact ⟨rfl, rfl⟩

/-- The checks of a field are right exactly if it has digits where it is read as an address. -/
theorem macChecks_right_iff (value : Units) : ChecksRight value ↔ ¬Misread value := by
  unfold Misread
  rw [← ignoreSpaces_eq]
  constructor
  · intro h hmisread
    obtain ⟨m, hm, hloose, hhex⟩ := hmisread
    have haccepts := macsCheck1_parts hm hloose
    obtain ⟨pairs, hpairs, hfield⟩ := h.holds1 (by rw [haccepts])
    rw [haccepts] at hfield
    rw [withColons_inj hm (hpairs.parts (.inl rfl)) hfield] at hhex
    exact hhex hpairs.allHex
  · intro hright
    apply checksRight_of_allHex
    intro m hm hloose
    by_contra hnot
    exact hright ⟨m, hm, hloose, hnot⟩

/-- `macsCheck1` takes `0g:00:00:00:00:01`. -/
theorem macChecks_wrong : ¬ChecksRight (units "0g:00:00:00:00:01".toList) := by
  intro h
  have hagree := (h.agree (by decide +kernel)).1
  revert hagree
  decide +kernel

end Xwr100.Www.MacField
