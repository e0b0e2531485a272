import Xwr100.Www.Numerals
import Xwr100.Www.PortForward
import Xwr100.Www.StaticDhcp

/-! # The list of PCs of an access policy

`EditList.htm` takes ten MAC addresses, six host octets and four ranges of them.  Its
`ValidateForm` refuses some and submits the rest.  The octets are compared as texts, the ends of a
range by `parseInt` without a radix, for which an engine may read a leading zero as octal.
-/

namespace Xwr100.Www.EditList

open StaticDhcp Forward

/-! ## Numbers -/

def digitValue (radix : Nat) (c : Char) : Option Nat :=
  let v :=
    if c.isDigit then some (c.toNat - 48)
    else if 'a' ≤ c ∧ c ≤ 'z' then some (c.toNat - 87)
    else if 'A' ≤ c ∧ c ≤ 'Z' then some (c.toNat - 55)
    else none
  v.filter fun d => d < radix

def leadingDigits (radix : Nat) : Text → List Nat
  | [] => []
  | c :: t =>
      match digitValue radix c with
      | some d => d :: leadingDigits radix t
      | none => []

def numberIn (radix : Nat) (t : Text) : Option Nat :=
  match leadingDigits radix t with
  | [] => none
  | digits => some (digits.foldl (fun n d => radix * n + d) 0)

def unsignedInt (octal : Bool) : Text → Option Nat
  | '0' :: 'x' :: t => numberIn 16 t
  | '0' :: 'X' :: t => numberIn 16 t
  | '0' :: t => numberIn (if octal then 8 else 10) ('0' :: t)
  | t => numberIn 10 t

/-- `parseInt(t)`; `none` is not-a-number. -/
def parseIntBare (octal : Bool) (t : Text) : Option Int :=
  match t.dropWhile isSpace with
  | '-' :: rest => (unsignedInt octal rest).map fun n => -(n : Int)
  | '+' :: rest => (unsignedInt octal rest).map fun n => (n : Int)
  | rest => (unsignedInt octal rest).map fun n => (n : Int)

/-- `IPCheck2`: nothing, or an octet up to 254. -/
def ipCheck2 (t : Text) : Bool := t == [] || (wholeNumber t).any fun d => d < 255

/-! ## The form -/

/-- The fields, numbered from 1. -/
structure Fields where
  macAddr : Nat → Text
  lanIpaddr : Nat → Text
  lanIpaddrStart : Nat → Text
  lanIpaddrEnd : Nat → Text

structure Submission where
  arm : Nat → Text
  arip : Nat → Text
  arips : Nat → Text
  aripe : Nat → Text

/-- The field that gets the focus, with the number of the message beside it. -/
inductive Refusal
  | macLength (i : Nat) -- AccessRestriction 73
  | macTwice (j : Nat) -- JavaScript 110
  | macIllegal (i : Nat) -- AccessRestriction 74
  | macMulticast (i : Nat) -- JavaScript 18
  | lanIpaddrTwice (j : Nat) -- JavaScript 110
  | lanIpaddr (i : Nat) -- JavaScript 9 or 68
  | lanIpaddrRouter (i : Nat) -- JavaScript 116
  | rangeStart (i : Nat) -- JavaScript 9 or 68
  | rangeEnd (i : Nat) -- JavaScript 9 or 68
  | rangeOrder (i : Nat) -- JavaScript 66
  | rangeRouter (i : Nat) -- JavaScript 137
  deriving DecidableEq

def zeroMac : Text := sixTimes ['0', '0']

def unicast (mac : Text) : Bool := (mac[1]?.bind charHexToOct).any fun d => d % 2 == 0

def checkMac (mac : Nat → Text) (i : Nat) : Option Refusal :=
  if (mac i).length ≠ 17 then some (.macLength i)
  else
    ((List.range' (i + 1) (10 - i)).findSome? fun j =>
      if mac i = mac j ∧ mac i ≠ zeroMac then some (.macTwice j) else none).or
    (if !isLegalMACAddress (mac i) && mac i != zeroMac then some (.macIllegal i)
      else if !unicast (mac i) then some (.macMulticast i)
      else none)

def checkLanIpaddr (lan : Text) (ip : Nat → Text) (i : Nat) : Option Refusal :=
  ((List.range' (i + 1) (6 - i)).findSome? fun j =>
    if ip i = ip j ∧ ip i ≠ ['0'] then some (.lanIpaddrTwice j) else none).or
  (if !ipCheck2 (ip i) then some (.lanIpaddr i)
    else if lanHost lan = ip i then some (.lanIpaddrRouter i)
    else none)

/-- `parseInt(start) - parseInt(end) > 0` -/
def startsBehind (octal : Bool) (start stop : Text) : Bool :=
  compareNumbers (fun s e => s - e > 0) (parseIntBare octal start) (parseIntBare octal stop)

/-- The order of texts: the first character that differs decides. -/
def textLess : Text → Text → Bool
  | _, [] => false
  | [], _ :: _ => true
  | c :: t, d :: u => c.toNat < d.toNat || (c == d && textLess t u)

def textBetween (t start stop : Text) : Bool := !textLess t start && !textLess stop t

def checkRange (octal : Bool) (lan : Text) (f : Fields) (i : Nat) : Option Refusal :=
  if !ipCheck2 (f.lanIpaddrStart i) then some (.rangeStart i)
  else if !ipCheck2 (f.lanIpaddrEnd i) then some (.rangeEnd i)
  else if startsBehind octal (f.lanIpaddrStart i) (f.lanIpaddrEnd i) then some (.rangeOrder i)
  else if textBetween (lanHost lan) (f.lanIpaddrStart i) (f.lanIpaddrEnd i) then
    some (.rangeRouter i)
  else none

def refusal (octal : Bool) (lan : Text) (f : Fields) : Option Refusal :=
  ((List.range' 1 10).findSome? (checkMac fun i => toUpperCase (f.macAddr i))).or
    (((List.range' 1 6).findSome? (checkLanIpaddr lan f.lanIpaddr)).or
      ((List.range' 1 4).findSome? (checkRange octal lan f)))

def armOf (mac : Text) : Text := if toUpperCase mac = zeroMac then [] else toUpperCase mac

def validateForm (octal : Bool) (lan : Text) (f : Fields) : Except Refusal Submission :=
  match refusal octal lan f with
  | some r => .error r
  | none => .ok {
      arm := fun i => armOf (f.macAddr i)
      arip := f.lanIpaddr
      arips := f.lanIpaddrStart
      aripe := f.lanIpaddrEnd }

/-! ## What a submitted list should be -/

/-- The number in a field; loading takes an empty field for zero. -/
def fieldNumber (t : Text) : Option Nat := if t = [] then some 0 else wholeNumber t

def RouterOctet (lan : Text) (n : Nat) : Prop := wholeNumber (lanHost lan) = some n

/-- The ends of a range are numbers in order, and the router is not in it. -/
def RangeRight (lan start stop : Text) : Prop :=
  ∃ s e, fieldNumber start = some s ∧ fieldNumber stop = some e ∧ s ≤ e ∧
    ∀ n, RouterOctet lan n → ¬(s ≤ n ∧ n ≤ e)

structure ListRight (lan : Text) (s : Submission) : Prop where
  range : ∀ i, 1 ≤ i → i ≤ 4 → RangeRight lan (s.arips i) (s.aripe i)
  router : ∀ i n, 1 ≤ i → i ≤ 6 → RouterOctet lan n → fieldNumber (s.arip i) ≠ some n
  octets : ∀ i j n, 1 ≤ i → i < j → j ≤ 6 → fieldNumber (s.arip i) = some n →
    fieldNumber (s.arip j) = some n → n = 0
  mac : ∀ i, 1 ≤ i → i ≤ 10 → s.arm i ≠ [] → hexPairs (s.arm i) = true ∧ unicast (s.arm i) = true
  macs : ∀ i j, 1 ≤ i → i < j → j ≤ 10 → s.arm i ≠ [] → s.arm i ≠ s.arm j

def SubmitRight (octal : Bool) (lan : Text) (f : Fields) : Prop :=
  ∀ s, validateForm octal lan f = .ok s → ListRight lan s

/-! ## What `parseInt` makes of digits -/

theorem isSpace_of_digit {c : Char} (h : c.isDigit = true) : isSpace c = false := by
  have hrange := digit_range h
  simp [isSpace]
  omega

theorem digitValue_of_digit {radix : Nat} {c : Char} (h : c.isDigit = true)
    (hlt : c.toNat - 48 < radix) : digitValue radix c = some (c.toNat - 48) := by
  simp [digitValue, h, hlt]

theorem digitValue_of_not_digit {radix : Nat} {c : Char} (hradix : radix ≤ 10)
    (h : ¬(c.isDigit = true ∧ c.toNat - 48 < radix)) : digitValue radix c = none := by
  unfold digitValue
  dsimp only
  by_cases hc : c.isDigit = true
  · rw [if_pos hc]
    simpa using fun hlt => h ⟨hc, hlt⟩
  · rw [if_neg hc]
    split
    · next hsmall =>
      have hlow : 97 ≤ c.toNat := hsmall.1
      simp
      omega
    · split
      · next hcapital =>
        have hlow : 65 ≤ c.toNat := hcapital.1
        simp
        omega
      · rfl

def digitBelow (radix : Nat) (c : Char) : Bool := c.isDigit && decide (c.toNat - 48 < radix)

theorem leadingDigits_decimal {radix : Nat} (hradix : radix ≤ 10) (t : Text) :
    leadingDigits radix t = (t.takeWhile (digitBelow radix)).map fun c => c.toNat - 48 := by
  induction t with
  | nil => rfl
  | cons c t ih =>
      by_cases hc : c.isDigit = true ∧ c.toNat - 48 < radix
      · rw [leadingDigits, digitValue_of_digit hc.1 hc.2,
          List.takeWhile_cons_of_pos (by simp [digitBelow, hc]), List.map_cons, ← ih]
      · rw [leadingDigits, digitValue_of_not_digit hradix hc,
          List.takeWhile_cons_of_neg (by simpa [digitBelow] using hc)]
        rfl

theorem numberIn_decimal {radix : Nat} (hradix : radix ≤ 10) {t : Text}
    (hne : t.takeWhile (digitBelow radix) ≠ []) :
    numberIn radix t = some (Nat.ofDigitChars radix (t.takeWhile (digitBelow radix)) 0) := by
  rw [numberIn, leadingDigits_decimal hradix]
  obtain ⟨c, digits, heq⟩ := List.exists_cons_of_ne_nil hne
  rw [heq, List.map_cons]
  dsimp only
  rw [← List.map_cons (f := fun c : Char => c.toNat - 48), List.foldl_map,
    Nat.ofDigitChars_eq_foldl]
  rfl

theorem digitBelow_ten : digitBelow 10 = Char.isDigit := by
  funext c
  cases hc : c.isDigit with
  | false => simp [digitBelow, hc]
  | true =>
      have hrange := digit_range hc
      simp [digitBelow, hc]
      omega

theorem numberIn_ten (t : Text) : numberIn 10 t = leadingNumber t := by
  rw [leadingNumber]
  cases hdigits : t.takeWhile Char.isDigit with
  | nil => rw [numberIn, leadingDigits_decimal (Nat.le_refl 10), digitBelow_ten, hdigits]; rfl
  | cons c digits =>
      rw [numberIn_decimal (Nat.le_refl 10) (by rw [digitBelow_ten, hdigits]; simp),
        digitBelow_ten, hdigits]
      rfl

theorem leadingNumber_of_digits {t : Text} (hne : t ≠ []) (h : ∀ c ∈ t, c.isDigit = true) :
    leadingNumber t = some (numeral t) := by
  obtain ⟨c, rest, rfl⟩ := List.exists_cons_of_ne_nil hne
  rw [leadingNumber, List.takeWhile_eq_self_iff.mpr h]

section NoSign

variable {t : Text} (hminus : ∀ rest, t.dropWhile isSpace ≠ '-' :: rest)
  (hplus : ∀ rest, t.dropWhile isSpace ≠ '+' :: rest)

include hminus hplus

theorem parseInt_noSign :
    parseInt t = (leadingNumber (t.dropWhile isSpace)).map fun n : Nat => (n : Int) := by
  unfold parseInt
  split
  · next heq => exact absurd heq (hminus _)
  · next heq => exact absurd heq (hplus _)
  · cases leadingNumber (t.dropWhile isSpace) <;> rfl

theorem parseIntBare_noSign (octal : Bool) : parseIntBare octal t =
    (unsignedInt octal (t.dropWhile isSpace)).map fun n : Nat => (n : Int) := by
  unfold parseIntBare
  split
  · next heq => exact absurd heq (hminus _)
  · next heq => exact absurd heq (hplus _)
  · cases unsignedInt octal (t.dropWhile isSpace) <;> rfl

end NoSign

theorem dropWhile_isSpace_of_digit {c : Char} (h : c.isDigit = true) (t : Text) :
    (c :: t).dropWhile isSpace = c :: t :=
  List.dropWhile_cons_of_neg (by simp [isSpace_of_digit h])

/-- What starts with a digit has no sign. -/
theorem noSign_of_digit {c sign : Char} (h : c.isDigit = true) (hsign : sign.isDigit = false)
    (t rest : Text) : (c :: t).dropWhile isSpace ≠ sign :: rest := by
  rw [dropWhile_isSpace_of_digit h]
  intro heq
  cases heq
  rw [h] at hsign
  cases hsign

/-- What an engine reads in digits: it may take those after a leading zero for octal, up to the
first that is none. -/
def readNumber (octal : Bool) (t : Text) : Nat :=
  if octal = true ∧ t.head? = some '0' then Nat.ofDigitChars 8 (t.takeWhile (digitBelow 8)) 0
  else numeral t

theorem unsignedInt_digits (octal : Bool) {t : Text} (hne : t ≠ [])
    (h : ∀ c ∈ t, c.isDigit = true) : unsignedInt octal t = some (readNumber octal t) := by
  have hten : numberIn 10 t = some (numeral t) := by
    rw [numberIn_ten, leadingNumber_of_digits hne h]
  unfold unsignedInt
  split
  · exact absurd (h 'x' (by simp)) (by decide)
  · exact absurd (h 'X' (by simp)) (by decide)
  · next rest _ _ =>
    cases octal with
    | false => exact hten
    | true =>
        have hzero : digitBelow 8 '0' = true := by decide
        simpa [readNumber] using numberIn_decimal (by omega : 8 ≤ 10) (t := '0' :: rest)
          (by simp [List.takeWhile_cons_of_pos hzero])
  · next hnotzero =>
    have hhead : t.head? ≠ some '0' := by
      intro hhead
      obtain ⟨rest, rfl⟩ := List.head?_eq_some_iff.mp hhead
      exact hnotzero rest rfl
    rw [readNumber, if_neg fun hcond => hhead hcond.2, hten]

theorem parseIntBare_nil (octal : Bool) : parseIntBare octal [] = none := rfl

theorem parseIntBare_digits (octal : Bool) {t : Text} (hne : t ≠ [])
    (h : ∀ c ∈ t, c.isDigit = true) : parseIntBare octal t = some (readNumber octal t : Int) := by
  have hnumber := unsignedInt_digits octal hne h
  obtain ⟨c, rest, rfl⟩ := List.exists_cons_of_ne_nil hne
  have hc : c.isDigit = true := h c List.mem_cons_self
  rw [parseIntBare_noSign (noSign_of_digit hc (by decide) rest)
    (noSign_of_digit hc (by decide) rest), dropWhile_isSpace_of_digit hc, hnumber]
  rfl

/-- Without octal, digits are a decimal number. -/
theorem parseIntBare_decimal {t : Text} {n : Nat} (h : wholeNumber t = some n) :
    parseIntBare false t = some (n : Int) := by
  obtain ⟨hne, hdigits, rfl⟩ := wholeNumber_eq_some.mp h
  exact parseIntBare_digits false hne hdigits

/-- The order of two ends is missed if one of them is empty. -/
theorem startsBehind_iff {octal : Bool} {start stop : Text}
    (hs : ∀ c ∈ start, c.isDigit = true) (he : ∀ c ∈ stop, c.isDigit = true) :
    startsBehind octal start stop = false ↔
      start = [] ∨ stop = [] ∨ readNumber octal start ≤ readNumber octal stop := by
  by_cases hstart : start = []
  · simp [hstart, startsBehind, parseIntBare_nil, compareNumbers]
  · by_cases hstop : stop = []
    · rw [hstop, startsBehind, parseIntBare_nil]
      cases parseIntBare octal start <;> simp [compareNumbers]
    · rw [startsBehind, parseIntBare_digits octal hstart hs, parseIntBare_digits octal hstop he]
      simp only [compareNumbers, decide_eq_false_iff_not, hstart, hstop, false_or]
      omega

/-! ## What the order of texts makes of digits -/

theorem textLess_iff_lt {t u : Text} : textLess t u = true ↔ t < u := by
  induction t generalizing u with
  | nil => cases u <;> simp [textLess]
  | cons c t ih =>
      cases u with
      | nil => simp [textLess]
      | cons d u =>
          rw [textLess, List.cons_lt_cons_iff, Bool.or_eq_true, Bool.and_eq_true,
            decide_eq_true_eq, beq_iff_eq, ih]
          rfl

/-- As far as both texts go, the number of the first is below that of the second, or they are the
same and the first is not longer. -/
def DigitsUpTo (t u : Text) : Prop :=
  numeral (t.take u.length) < numeral (u.take t.length) ∨
    numeral (t.take u.length) = numeral (u.take t.length) ∧ t.length ≤ u.length

theorem length_take_swap (t u : Text) : (t.take u.length).length = (u.take t.length).length := by
  rw [List.length_take, List.length_take, Nat.min_comm]

theorem numeral_take_lt {t u : Text} (ht : ∀ c ∈ t, c.isDigit = true) :
    numeral (t.take u.length) < 10 ^ (u.take t.length).length := by
  rw [← length_take_swap]
  exact numeral_lt fun c hc => ht c (List.mem_of_mem_take hc)

/-- The first digit that differs decides. -/
theorem digits_lt_iff {t u : Text} (ht : ∀ c ∈ t, c.isDigit = true)
    (hu : ∀ c ∈ u, c.isDigit = true) : t < u ↔ ¬DigitsUpTo u t := by
  induction t generalizing u with
  | nil => cases u <;> simp [DigitsUpTo]
  | cons c t ih =>
      cases u with
      | nil => simp [DigitsUpTo]
      | cons d u =>
          have ht' : ∀ x ∈ t, x.isDigit = true := fun x hx => ht x (List.mem_cons_of_mem c hx)
          have hu' : ∀ x ∈ u, x.isDigit = true := fun x hx => hu x (List.mem_cons_of_mem d hx)
          have hc := digit_range (ht c List.mem_cons_self)
          have hd := digit_range (hu d List.mem_cons_self)
          have htlt := numeral_take_lt (u := u) ht'
          have hult := numeral_take_lt (u := t) hu'
          rw [length_take_swap] at hult
          rw [List.cons_lt_cons_iff, ih ht' hu', DigitsUpTo, DigitsUpTo]
          simp only [List.length_cons, List.take_succ_cons, numeral_cons, Nat.add_le_add_iff_right]
          rw [length_take_swap t u]
          generalize 10 ^ (u.take t.length).length = k at htlt hult ⊢
          rcases Nat.lt_trichotomy c.toNat d.toNat with hlt | heq | hgt
          · have hstep : k * (c.toNat - 48 + 1) ≤ k * (d.toNat - 48) :=
              Nat.mul_le_mul_left _ (by omega)
            rw [Nat.mul_succ] at hstep
            exact iff_of_true (.inl hlt) (by omega)
          · obtain rfl : c = d := Char.toNat_inj.mp heq
            simp
          · have hstep : k * (d.toNat - 48 + 1) ≤ k * (c.toNat - 48) :=
              Nat.mul_le_mul_left _ (by omega)
            rw [Nat.mul_succ] at hstep
            refine iff_of_false ?_ (by omega)
            rintro (hlt | ⟨rfl, -⟩)
            · exact absurd hlt (Nat.not_lt.mpr (Nat.le_of_lt hgt))
            · exact Nat.lt_irrefl _ hgt

theorem digitsUpTo_iff {t u : Text} (hlength : t.length = u.length) :
    DigitsUpTo t u ↔ numeral t ≤ numeral u := by
  rw [DigitsUpTo, ← hlength, List.take_length, hlength, List.take_length]
  omega

/-- The order of texts is that of the numbers if all three have one length. -/
theorem textBetween_iff {t start stop : Text} (ht : ∀ c ∈ t, c.isDigit = true)
    (hstart : ∀ c ∈ start, c.isDigit = true) (hstop : ∀ c ∈ stop, c.isDigit = true)
    (hlength : start.length = t.length ∧ stop.length = t.length) :
    textBetween t start stop = true ↔ numeral start ≤ numeral t ∧ numeral t ≤ numeral stop := by
  rw [textBetween, Bool.and_eq_true, Bool.not_eq_true', Bool.not_eq_true', ← Bool.not_eq_true,
    ← Bool.not_eq_true, textLess_iff_lt, textLess_iff_lt, digits_lt_iff ht hstart,
    digits_lt_iff hstop ht, not_not, not_not, digitsUpTo_iff hlength.1,
    digitsUpTo_iff hlength.2.symm]

/-! ## What is submitted -/

structure Accepted (octal : Bool) (lan : Text) (f : Fields) : Prop where
  length : ∀ i, 1 ≤ i → i ≤ 10 → (toUpperCase (f.macAddr i)).length = 17
  legal : ∀ i, 1 ≤ i → i ≤ 10 →
    isLegalMACAddress (toUpperCase (f.macAddr i)) = true ∨ toUpperCase (f.macAddr i) = zeroMac
  even : ∀ i, 1 ≤ i → i ≤ 10 → unicast (toUpperCase (f.macAddr i)) = true
  macs : ∀ i j, 1 ≤ i → i < j → j ≤ 10 →
    toUpperCase (f.macAddr i) = toUpperCase (f.macAddr j) → toUpperCase (f.macAddr i) = zeroMac
  octet : ∀ i, 1 ≤ i → i ≤ 6 → ipCheck2 (f.lanIpaddr i) = true
  router : ∀ i, 1 ≤ i → i ≤ 6 → lanHost lan ≠ f.lanIpaddr i
  octets : ∀ i j, 1 ≤ i → i < j → j ≤ 6 → f.lanIpaddr i = f.lanIpaddr j → f.lanIpaddr i = ['0']
  ends : ∀ i, 1 ≤ i → i ≤ 4 →
    ipCheck2 (f.lanIpaddrStart i) = true ∧ ipCheck2 (f.lanIpaddrEnd i) = true
  order : ∀ i, 1 ≤ i → i ≤ 4 → f.lanIpaddrStart i = [] ∨ f.lanIpaddrEnd i = [] ∨
    readNumber octal (f.lanIpaddrStart i) ≤ readNumber octal (f.lanIpaddrEnd i)
  outside : ∀ i, 1 ≤ i → i ≤ 4 →
    lanHost lan < f.lanIpaddrStart i ∨ f.lanIpaddrEnd i < lanHost lan

theorem fieldNumber_eq_some {t : Text} {n : Nat} :
    fieldNumber t = some n ↔ (∀ c ∈ t, c.isDigit = true) ∧ numeral t = n := by
  unfold fieldNumber
  by_cases ht : t = []
  · simp [ht, numeral]
  · rw [if_neg ht, wholeNumber_eq_some, and_iff_right ht]

theorem ipCheck2_iff {t : Text} :
    ipCheck2 t = true ↔ (∀ c ∈ t, c.isDigit = true) ∧ numeral t < 255 := by
  have h : ipCheck2 t = (fieldNumber t).any fun d => d < 255 := by
    unfold ipCheck2 fieldNumber
    by_cases ht : t = [] <;> simp [ht]
  rw [h, Option.any_eq_true]
  constructor
  · rintro ⟨n, hn, hlt⟩
    obtain ⟨hdigits, rfl⟩ := fieldNumber_eq_some.mp hn
    exact ⟨hdigits, of_decide_eq_true hlt⟩
  · rintro ⟨hdigits, hlt⟩
    exact ⟨numeral t, fieldNumber_eq_some.mpr ⟨hdigits, rfl⟩, decide_eq_true hlt⟩

/-- Loops over the numbers from 1 find nothing if no pass does. -/
theorem findSome_range_eq_none {check : Nat → Option Refusal} {n : Nat} :
    (List.range' 1 n).findSome? check = none ↔ ∀ i, 1 ≤ i → i ≤ n → check i = none := by
  rw [List.findSome?_eq_none_iff]
  constructor
  · intro h i h1 hn
    exact h i (List.mem_range'_1.mpr (by omega))
  · intro h i hi
    have hrange := List.mem_range'_1.mp hi
    exact h i hrange.1 (by omega)

theorem findSome_later_eq_none {t : Nat → Text} {zero : Text} {twice : Nat → Refusal} {i n : Nat} :
    ((List.range' (i + 1) (n - i)).findSome? fun j =>
        if t i = t j ∧ t i ≠ zero then some (twice j) else none) = none ↔
      ∀ j, i < j → j ≤ n → t i = t j → t i = zero := by
  rw [List.findSome?_eq_none_iff]
  have hpass : ∀ j, (if t i = t j ∧ t i ≠ zero then some (twice j) else none) = none ↔
      (t i = t j → t i = zero) := by
    intro j
    rw [ite_eq_right_iff, imp_iff_not (Option.some_ne_none _), not_and, not_not]
  constructor
  · intro h j hij hj
    exact (hpass j).mp (h j (List.mem_range'_1.mpr (by omega)))
  · intro h j hj
    have hrange := List.mem_range'_1.mp hj
    exact (hpass j).mpr (h j (by omega) (by omega))

theorem checkMac_eq_none {mac : Nat → Text} {i : Nat} :
    checkMac mac i = none ↔ (mac i).length = 17 ∧
      (∀ j, i < j → j ≤ 10 → mac i = mac j → mac i = zeroMac) ∧
      (isLegalMACAddress (mac i) = true ∨ mac i = zeroMac) ∧ unicast (mac i) = true := by
  unfold checkMac
  by_cases hlength : (mac i).length = 17
  · rw [if_neg (not_not.mpr hlength), Option.or_eq_none_iff, findSome_later_eq_none,
      and_iff_right hlength]
    by_cases hzero : mac i = zeroMac
    · cases unicast (mac i) <;> simp [hzero]
    · cases isLegalMACAddress (mac i) <;> cases unicast (mac i) <;> simp [hzero]
  · rw [if_pos hlength]
    exact iff_of_false (Option.some_ne_none _) fun h => hlength h.1

theorem checkLanIpaddr_eq_none {lan : Text} {ip : Nat → Text} {i : Nat} :
    checkLanIpaddr lan ip i = none ↔ (∀ j, i < j → j ≤ 6 → ip i = ip j → ip i = ['0']) ∧
      ipCheck2 (ip i) = true ∧ lanHost lan ≠ ip i := by
  unfold checkLanIpaddr
  rw [Option.or_eq_none_iff, findSome_later_eq_none]
  cases ipCheck2 (ip i) <;> simp

theorem checkRange_eq_none {octal : Bool} {lan : Text} {f : Fields} {i : Nat} :
    checkRange octal lan f i = none ↔
      (ipCheck2 (f.lanIpaddrStart i) = true ∧ ipCheck2 (f.lanIpaddrEnd i) = true) ∧
      (f.lanIpaddrStart i = [] ∨ f.lanIpaddrEnd i = [] ∨
        readNumber octal (f.lanIpaddrStart i) ≤ readNumber octal (f.lanIpaddrEnd i)) ∧
      (lanHost lan < f.lanIpaddrStart i ∨ f.lanIpaddrEnd i < lanHost lan) := by
  have hchecks : checkRange octal lan f i = none ↔
      (ipCheck2 (f.lanIpaddrStart i) = true ∧ ipCheck2 (f.lanIpaddrEnd i) = true) ∧
      startsBehind octal (f.lanIpaddrStart i) (f.lanIpaddrEnd i) = false ∧
      textBetween (lanHost lan) (f.lanIpaddrStart i) (f.lanIpaddrEnd i) = false := by
    unfold checkRange
    cases ipCheck2 (f.lanIpaddrStart i) <;> cases ipCheck2 (f.lanIpaddrEnd i) <;>
      cases startsBehind octal (f.lanIpaddrStart i) (f.lanIpaddrEnd i) <;> simp
  rw [hchecks]
  refine and_congr_right fun hends => and_congr ?_ ?_
  · exact startsBehind_iff (ipCheck2_iff.mp hends.1).1 (ipCheck2_iff.mp hends.2).1
  · rw [textBetween, Bool.and_eq_false_iff, Bool.not_eq_false', Bool.not_eq_false',
      textLess_iff_lt, textLess_iff_lt]

theorem refusal_eq_none {octal : Bool} {lan : Text} {f : Fields} :
    refusal octal lan f = none ↔ Accepted octal lan f := by
  unfold refusal
  simp only [Option.or_eq_none_iff, findSome_range_eq_none, checkMac_eq_none,
    checkLanIpaddr_eq_none, checkRange_eq_none]
  constructor
  · intro h
    obtain ⟨hmac, hip, hrange⟩ := h
    exact {
      length := fun i h1 hi => (hmac i h1 hi).1
      macs := fun i j h1 hij hj => (hmac i h1 (by omega)).2.1 j hij hj
      legal := fun i h1 hi => (hmac i h1 hi).2.2.1
      even := fun i h1 hi => (hmac i h1 hi).2.2.2
      octets := fun i j h1 hij hj => (hip i h1 (by omega)).1 j hij hj
      octet := fun i h1 hi => (hip i h1 hi).2.1
      router := fun i h1 hi => (hip i h1 hi).2.2
      ends := fun i h1 hi => (hrange i h1 hi).1
      order := fun i h1 hi => (hrange i h1 hi).2.1
      outside := fun i h1 hi => (hrange i h1 hi).2.2 }
  · intro h
    exact ⟨fun i h1 hi => ⟨h.length i h1 hi, fun j hij hj => h.macs i j h1 hij hj, h.legal i h1 hi,
        h.even i h1 hi⟩,
      fun i h1 hi => ⟨fun j hij hj => h.octets i j h1 hij hj, h.octet i h1 hi, h.router i h1 hi⟩,
      fun i h1 hi => ⟨h.ends i h1 hi, h.order i h1 hi, h.outside i h1 hi⟩⟩

/-! ## What has to be said of the texts -/

/-- The texts show the numbers to the comparisons.  A range without an end starts at zero, octal
reading keeps the order of two ends, the first digits of the router's octet are between those of
two ends around it, and no octet is the router's, or another one's, with other leading zeros. -/
structure Legible (octal : Bool) (lan : Text) (f : Fields) : Prop where
  ended : ∀ i, 1 ≤ i → i ≤ 4 → f.lanIpaddrEnd i = [] → numeral (f.lanIpaddrStart i) = 0
  octal : octal = true → ∀ i, 1 ≤ i → i ≤ 4 → f.lanIpaddrEnd i ≠ [] →
    numeral (f.lanIpaddrEnd i) < numeral (f.lanIpaddrStart i) →
    readNumber true (f.lanIpaddrEnd i) < readNumber true (f.lanIpaddrStart i)
  between : ∀ i n, 1 ≤ i → i ≤ 4 → RouterOctet lan n → numeral (f.lanIpaddrStart i) ≤ n →
    n ≤ numeral (f.lanIpaddrEnd i) →
    DigitsUpTo (f.lanIpaddrStart i) (lanHost lan) ∧ DigitsUpTo (lanHost lan) (f.lanIpaddrEnd i)
  router : ∀ i n, 1 ≤ i → i ≤ 6 → RouterOctet lan n → numeral (f.lanIpaddr i) = n →
    (f.lanIpaddr i).length = (lanHost lan).length
  octets : ∀ i j, 1 ≤ i → i < j → j ≤ 6 → numeral (f.lanIpaddr i) = numeral (f.lanIpaddr j) →
    numeral (f.lanIpaddr i) ≠ 0 → (f.lanIpaddr i).length = (f.lanIpaddr j).length

theorem Accepted.rangeRight {octal : Bool} {lan : Text} {f : Fields} (h : Accepted octal lan f)
    (hlegible : Legible octal lan f) {i : Nat} (h1 : 1 ≤ i) (hi : i ≤ 4) :
    RangeRight lan (f.lanIpaddrStart i) (f.lanIpaddrEnd i) := by
  have hs := (ipCheck2_iff.mp (h.ends i h1 hi).1).1
  have he := (ipCheck2_iff.mp (h.ends i h1 hi).2).1
  refine ⟨_, _, fieldNumber_eq_some.mpr ⟨hs, rfl⟩, fieldNumber_eq_some.mpr ⟨he, rfl⟩, ?_, ?_⟩
  · by_contra hlt
    rw [Nat.not_le] at hlt
    rcases h.order i h1 hi with hstart | hstop | hread
    · rw [hstart] at hlt
      exact absurd hlt (Nat.not_lt_zero _)
    · rw [hlegible.ended i h1 hi hstop] at hlt
      exact absurd hlt (Nat.not_lt_zero _)
    · have hstop : f.lanIpaddrEnd i ≠ [] := by
        intro hstop
        rw [hlegible.ended i h1 hi hstop] at hlt
        exact absurd hlt (Nat.not_lt_zero _)
      cases octal with
      | false => exact absurd hlt (Nat.not_lt.mpr hread)
      | true => exact absurd (hlegible.octal rfl i h1 hi hstop hlt) (Nat.not_lt.mpr hread)
  · intro n hn hin
    have hrouter := (wholeNumber_eq_some.mp hn).2.1
    obtain ⟨hstart, hstop⟩ := hlegible.between i n h1 hi hn hin.1 hin.2
    rcases h.outside i h1 hi with hlt | hlt
    · exact (digits_lt_iff hrouter hs).mp hlt hstart
    · exact (digits_lt_iff he hrouter).mp hlt hstop

/-- An address of the form is a legal one unless it is stored as nothing. -/
theorem Accepted.mac_legal {octal : Bool} {lan : Text} {f : Fields} (h : Accepted octal lan f)
    {i : Nat} (h1 : 1 ≤ i) (hi : i ≤ 10) (hne : toUpperCase (f.macAddr i) ≠ zeroMac) :
    hexPairs (toUpperCase (f.macAddr i)) = true ∧ unicast (toUpperCase (f.macAddr i)) = true := by
  have hlegal := (h.legal i h1 hi).resolve_right hne
  rw [isLegalMACAddress, Bool.and_eq_true] at hlegal
  exact ⟨hlegal.1, h.even i h1 hi⟩

theorem armOf_ne_nil {mac : Text} (h : armOf mac ≠ []) :
    toUpperCase mac ≠ zeroMac ∧ armOf mac = toUpperCase mac := by
  unfold armOf at h ⊢
  split at h
  · exact absurd rfl h
  · next hne => exact ⟨hne, if_neg hne⟩

theorem Accepted.listRight {octal : Bool} {lan : Text} {f : Fields} (h : Accepted octal lan f)
    (hlegible : Legible octal lan f) :
    ListRight lan ⟨fun i => armOf (f.macAddr i), f.lanIpaddr, f.lanIpaddrStart, f.lanIpaddrEnd⟩ where
  range _ h1 hi := h.rangeRight hlegible h1 hi
  router i n h1 hi hn hip := by
    obtain ⟨hdigits, heq⟩ := fieldNumber_eq_some.mp hip
    obtain ⟨-, hrouter, hnumber⟩ := wholeNumber_eq_some.mp hn
    have hlength := hlegible.router i n h1 hi hn heq
    exact h.router i h1 hi
      (eq_of_numeral hrouter hdigits hlength.symm (hnumber.trans heq.symm))
  octets i j n h1 hij hj hip hjp := by
    obtain ⟨hi, rfl⟩ := fieldNumber_eq_some.mp hip
    obtain ⟨hj', heq⟩ := fieldNumber_eq_some.mp hjp
    by_contra hne
    have hlength := hlegible.octets i j h1 hij hj heq.symm hne
    have hsame := h.octets i j h1 hij hj (eq_of_numeral hi hj' hlength heq.symm)
    dsimp only at hne
    rw [hsame] at hne
    exact hne (by decide +kernel)
  mac i h1 hi hne := by
    obtain ⟨hzero, heq⟩ := armOf_ne_nil hne
    dsimp only
    rw [heq]
    exact h.mac_legal h1 hi hzero
  macs i j h1 hij hj hne heq := by
    obtain ⟨hzero, hi⟩ := armOf_ne_nil hne
    dsimp only at hne heq
    rw [heq] at hne
    obtain ⟨-, hj'⟩ := armOf_ne_nil hne
    rw [hi, hj'] at heq
    exact hzero (h.macs i j h1 hij hj heq)

theorem Accepted.legible {octal : Bool} {lan : Text} {f : Fields} (h : Accepted octal lan f)
    (hlist : ListRight lan
      ⟨fun i => armOf (f.macAddr i), f.lanIpaddr, f.lanIpaddrStart, f.lanIpaddrEnd⟩) :
    Legible octal lan f := by
  have hrange : ∀ i, 1 ≤ i → i ≤ 4 →
      numeral (f.lanIpaddrStart i) ≤ numeral (f.lanIpaddrEnd i) ∧ ∀ n, RouterOctet lan n →
        ¬(numeral (f.lanIpaddrStart i) ≤ n ∧ n ≤ numeral (f.lanIpaddrEnd i)) := by
    intro i h1 hi
    obtain ⟨s, e, hs, he, hle, hout⟩ := hlist.range i h1 hi
    obtain rfl := (fieldNumber_eq_some.mp hs).2
    obtain rfl := (fieldNumber_eq_some.mp he).2
    exact ⟨hle, hout⟩
  have hoctet : ∀ i, 1 ≤ i → i ≤ 6 →
      fieldNumber (f.lanIpaddr i) = some (numeral (f.lanIpaddr i)) := fun i h1 hi =>
    fieldNumber_eq_some.mpr ⟨(ipCheck2_iff.mp (h.octet i h1 hi)).1, rfl⟩
  refine ⟨?_, ?_, ?_, ?_, ?_⟩
  · intro i h1 hi hstop
    have hle := (hrange i h1 hi).1
    rw [hstop] at hle
    exact Nat.le_zero.mp hle
  · intro _ i h1 hi _ hlt
    exact absurd hlt (Nat.not_lt.mpr (hrange i h1 hi).1)
  · intro i n h1 hi hn hsn hne
    exact absurd ⟨hsn, hne⟩ ((hrange i h1 hi).2 n hn)
  · intro i n h1 hi hn heq
    exact absurd (heq ▸ hoctet i h1 hi) (hlist.router i n h1 hi hn)
  · intro i j h1 hij hj heq hne
    exact absurd (hlist.octets i j _ h1 hij hj (hoctet i h1 (by omega))
      (heq ▸ hoctet j (by omega) hj)) hne

/-- Octets as a number prints, and ranges that are unused or have the digits of the router's. -/
structure Plain (lan : Text) (f : Fields) : Prop where
  router : ∃ n, lanHost lan = showNumber n
  octet : ∀ i, 1 ≤ i → i ≤ 6 → ∃ n, f.lanIpaddr i = showNumber n
  range : ∀ i, 1 ≤ i → i ≤ 4 → (f.lanIpaddrStart i = ['0'] ∧ f.lanIpaddrEnd i = ['0']) ∨
    ((f.lanIpaddrStart i).length = (lanHost lan).length ∧
      (f.lanIpaddrEnd i).length = (lanHost lan).length)

/-- An engine without octal makes no mistake in plain fields. -/
theorem Plain.legible {lan : Text} {f : Fields} (h : Plain lan f) : Legible false lan f := by
  obtain ⟨m, hm⟩ := h.router
  have hlength : 0 < (lanHost lan).length := by
    rw [hm]
    exact List.length_pos_iff.mpr (by simp [showNumber])
  have hnumber : ∀ {n}, RouterOctet lan n → n = m := by
    intro n hn
    have heq := (wholeNumber_eq_some.mp hn).2.2
    rw [hm, numeral_showNumber] at heq
    exact heq.symm
  refine ⟨?_, (by simp), ?_, ?_, ?_⟩
  · intro i h1 hi hstop
    rcases h.range i h1 hi with ⟨-, he⟩ | ⟨-, he⟩
    · rw [he] at hstop
      cases hstop
    · rw [hstop] at he
      exact absurd hlength (by rw [← he]; exact Nat.lt_irrefl 0)
  · intro i n h1 hi hn hsn hne
    have heq := (wholeNumber_eq_some.mp hn).2.2
    rcases h.range i h1 hi with ⟨hs, he⟩ | ⟨hs, he⟩
    · obtain rfl := hnumber hn
      have hzero : n = 0 := by
        rw [he] at hne
        exact Nat.le_zero.mp hne
      rw [hs, he, hm, hzero]
      exact ⟨.inr ⟨rfl, Nat.le_refl _⟩, .inr ⟨rfl, Nat.le_refl _⟩⟩
    · rw [digitsUpTo_iff hs, digitsUpTo_iff he.symm, heq]
      exact ⟨hsn, hne⟩
  · intro i n h1 hi hn heq
    obtain ⟨k, hk⟩ := h.octet i h1 hi
    rw [hk, numeral_showNumber, hnumber hn] at heq
    rw [hk, hm, heq]
  · intro i j h1 hij hj heq _
    obtain ⟨k, hk⟩ := h.octet i h1 (by omega)
    obtain ⟨l, hl⟩ := h.octet j (by omega) hj
    rw [hk, hl, numeral_showNumber, numeral_showNumber] at heq
    rw [hk, hl, heq]

/-- What the form submits is right exactly when it refuses the fields or their texts show the
numbers. -/
theorem submitRight_iff (octal : Bool) (lan : Text) (f : Fields) :
    SubmitRight octal lan f ↔ (Accepted octal lan f → Legible octal lan f) := by
  have hrun : Accepted octal lan f → validateForm octal lan f = .ok
      ⟨fun i => armOf (f.macAddr i), f.lanIpaddr, f.lanIpaddrStart, f.lanIpaddrEnd⟩ := by
    intro haccepted
    rw [validateForm, refusal_eq_none.mpr haccepted]
  constructor
  · intro hright haccepted
    exact haccepted.legible (hright _ (hrun haccepted))
  · intro hlegible s hs
    cases hrefusal : refusal octal lan f with
    | some r =>
        rw [validateForm, hrefusal] at hs
        cases hs
    | none =>
        have haccepted := refusal_eq_none.mp hrefusal
        rw [hrun haccepted] at hs
        cases hs
        exact haccepted.listRight (hlegible haccepted)

/-- The router is 192.168.1.5. -/
def fifthLan : Text := ['1', '9', '2', '.', '1', '6', '8', '.', '1', '.', '5']

/-- The fields as loading an empty policy leaves them, but for the router's octet with a zero before
it, a range without an end, and one around the router. -/
def unseenFields : Fields where
  macAddr _ := zeroMac
  lanIpaddr i := if i = 1 then ['0', '5'] else ['0']
  lanIpaddrStart i := if i = 1 then ['7'] else if i = 2 then ['1'] else ['0']
  lanIpaddrEnd i := if i = 1 then [] else if i = 2 then ['1', '0', '0'] else ['0']

/-- The fields are submitted, whatever the engine makes of leading zeros. -/
theorem unseen_submitted :
    (∀ octal, (validateForm octal fifthLan unseenFields).isOk = true) ∧
      ∀ octal, ¬SubmitRight octal fifthLan unseenFields := by
  have hok : ∀ octal, (validateForm octal fifthLan unseenFields).isOk = true := by decide +kernel
  refine ⟨hok, ?_⟩
  intro octal hright
  have hoctal := hok octal
  cases hrun : validateForm octal fifthLan unseenFields with
  | error r =>
      rw [hrun] at hoctal
      cases hoctal
  | ok s =>
      have hsubmitted : s.arip 1 = ['0', '5'] := by
        unfold validateForm at hrun
        split at hrun
        · cases hrun
        · obtain rfl := Except.ok.inj hrun
          rfl
      apply (hright s hrun).router 1 5 (by omega) (by omega) (by unfold RouterOctet; decide +kernel)
      rw [hsubmitted]
      decide +kernel

end Xwr100.Www.EditList
