import Mathlib.Data.List.TakeWhile
import Xwr100.Www.EditList

/-! # Checks of single fields

The checks of `nsutil.js` that the pages share: octets of an address and port numbers.  Each
returns the alert it shows, and none when it accepts the field.
-/

namespace Xwr100.Www.FieldChecks

open EditList

/-- A text of the page's language by its number, with what is shown behind it, or two of the
messages in `errmsg`. -/
inductive Alert
  | javaScript (n : Nat) (behind : Text)
  | errmsg (n m : Nat)
  deriving DecidableEq

/-! ## Numbers in texts -/

def isDigits (t : Text) : Bool := t != [] && t.all Char.isDigit

def exponentPart : Text → Bool
  | [] => true
  | c :: t =>
      (c == 'e' || c == 'E') &&
        match t with
        | '+' :: digits => isDigits digits
        | '-' :: digits => isDigits digits
        | digits => isDigits digits

def startsWithDigit (t : Text) : Bool := t.head?.any Char.isDigit

def unsignedDecimal (t : Text) : Bool :=
  t == ['I', 'n', 'f', 'i', 'n', 'i', 't', 'y'] ||
    match t.dropWhile Char.isDigit with
    | '.' :: rest =>
        (startsWithDigit t || startsWithDigit rest) && exponentPart (rest.dropWhile Char.isDigit)
    | rest => startsWithDigit t && exponentPart rest

def isHexDigits (t : Text) : Bool := t != [] && t.all fun c => (digitValue 16 c).isSome

def trim (t : Text) : Text := ((t.dropWhile isSpace).reverse.dropWhile isSpace).reverse

/-- `isNaN(t)`; a text is converted as a whole. -/
def isNaN (t : Text) : Bool :=
  !match trim t with
    | [] => true
    | '0' :: 'x' :: digits => isHexDigits digits
    | '0' :: 'X' :: digits => isHexDigits digits
    | '+' :: rest => unsignedDecimal rest
    | '-' :: rest => unsignedDecimal rest
    | rest => unsignedDecimal rest

theorem isDigits_iff {t : Text} : isDigits t = true ↔ t ≠ [] ∧ ∀ c ∈ t, c.isDigit = true := by
  simp [isDigits]

theorem trim_of_digits {t : Text} (h : ∀ c ∈ t, c.isDigit = true) : trim t = t := by
  have hdrop : ∀ u : Text, (∀ c ∈ u, c.isDigit = true) → u.dropWhile isSpace = u := by
    intro u hu
    cases u with
    | nil => rfl
    | cons c u =>
        exact dropWhile_isSpace_of_digit (hu c List.mem_cons_self) u
  rw [trim, hdrop t h, hdrop t.reverse (by simpa using h), List.reverse_reverse]

theorem dropWhile_digits {t : Text} (h : ∀ c ∈ t, c.isDigit = true) :
    t.dropWhile Char.isDigit = [] :=
  List.dropWhile_eq_nil_iff.mpr h

theorem unsignedDecimal_of_digits {t : Text} (h : isDigits t = true) :
    unsignedDecimal t = true := by
  obtain ⟨hne, hall⟩ := isDigits_iff.mp h
  obtain ⟨c, rest, rfl⟩ := List.exists_cons_of_ne_nil hne
  have hstart : startsWithDigit (c :: rest) = true := hall c List.mem_cons_self
  rw [unsignedDecimal, dropWhile_digits hall]
  simp [hstart, exponentPart]

theorem isNaN_of_digits {t : Text} (h : isDigits t = true) : isNaN t = false := by
  obtain ⟨hne, hall⟩ := isDigits_iff.mp h
  have hdecimal := unsignedDecimal_of_digits h
  rw [isNaN, trim_of_digits hall]
  split
  · rfl
  · exact absurd (hall 'x' (by simp)) (by decide)
  · exact absurd (hall 'X' (by simp)) (by decide)
  · exact absurd (hall '+' (by simp)) (by decide)
  · exact absurd (hall '-' (by simp)) (by decide)
  · rw [hdecimal]
    rfl

/-! ## Octets -/

/-- The part the checks of octets share: only digits, and at least `low` but less than `high`. -/
def octetCheck (low high : Nat) (t : Text) : Option Alert :=
  if t.any (fun c => !c.isDigit) || t == [] then some (.javaScript 9 [])
  else if !(numeral t < high && low ≤ numeral t) then some (.javaScript 68 [])
  else none

def ipFirstCheck (t : Text) : Option Alert :=
  if isNaN t then some (.javaScript 8 []) else octetCheck 0 224 t

def ipCheck (t : Text) : Option Alert :=
  if isNaN t then some (.javaScript 8 []) else octetCheck 1 255 t

def ipCheck1 (t : Text) : Option Alert := if t = [] then none else octetCheck 0 256 t

def ipCheck2 (t : Text) : Option Alert := if t = [] then none else octetCheck 0 255 t

def ipCheck3 (t : Text) : Option Alert := if t = [] then none else octetCheck 1 224 t

/-- `Multicast_IPCheck`; it compares texts. -/
def multicastIPCheck (t : Text) : Option Alert :=
  if textBetween t ['2', '2', '4'] ['2', '5', '5'] then some (.javaScript 93 []) else none

/-! ## Ports

These also return what the field holds afterwards. -/

def isdigit (t dfValue : Text) : Option Alert × Text :=
  if t.any fun c => !c.isDigit then (some (.errmsg 76 28), dfValue) else (none, t)

/-- What follows the reading of a number: it has to fit, or the field gets its default back. -/
def portRange (fits : Int → Bool) (shown : String) (t defaultValue : Text) :
    Option Alert × Text :=
  if (parseInt t).any fits then (none, t) else (some (.javaScript 15 shown.toList), defaultValue)

def portCheckPing (t defaultValue : Text) : Option Alert × Text :=
  portRange (fun d => d < 65536 && d + 1 > 0) " [0 - 65535]" t defaultValue

def portCheck (t defaultValue : Text) : Option Alert × Text :=
  if t.any fun c => !"0123456789".toList.contains c then (some (.javaScript 22 []), t)
  else
    match isdigit t defaultValue with
    | (some alert, value) => (some alert, value)
    | (none, value) => portRange (fun d => d < 65536 && d > 0) " [1 - 65535]" value defaultValue

def portCheck1 (t defaultValue : Text) : Option Alert × Text :=
  if t = [] then (none, t)
  else
    match isdigit t defaultValue with
    | (some alert, value) => (some alert, value)
    | (none, value) => portRange (fun d => d < 65536 && d > 0) "[1 - 65535]" value defaultValue

/-! ## The languages -/

def InRange (t : Text) (low high : Nat) : Prop := ∃ n, wholeNumber t = some n ∧ low ≤ n ∧ n ≤ high

/-- Each check accepts its language, and the one against multicast addresses refuses the octets it
should. -/
structure ChecksRight (t defaultValue : Text) : Prop where
  ipFirstCheck : ipFirstCheck t = none ↔ InRange t 0 223
  ipCheck : ipCheck t = none ↔ InRange t 1 254
  ipCheck1 : ipCheck1 t = none ↔ t = [] ∨ InRange t 0 255
  ipCheck2 : ipCheck2 t = none ↔ t = [] ∨ InRange t 0 254
  ipCheck3 : ipCheck3 t = none ↔ t = [] ∨ InRange t 1 223
  portCheck : (portCheck t defaultValue).1 = none ↔ InRange t 1 65535
  portCheck1 : (portCheck1 t defaultValue).1 = none ↔ t = [] ∨ InRange t 1 65535
  portCheckPing : (portCheckPing t defaultValue).1 = none ↔ InRange t 0 65535
  multicastIPCheck : ∀ n, wholeNumber t = some n → FieldChecks.ipCheck1 t = none →
    (multicastIPCheck t ≠ none ↔ 224 ≤ n)

theorem wholeNumber_of_digits {t : Text} (h : isDigits t = true) :
    wholeNumber t = some (numeral t) := by
  obtain ⟨hne, hall⟩ := isDigits_iff.mp h
  exact wholeNumber_eq_some.mpr ⟨hne, hall, rfl⟩

theorem isDigits_of_wholeNumber {t : Text} {n : Nat} (h : wholeNumber t = some n) :
    isDigits t = true ∧ numeral t = n := by
  obtain ⟨hne, hall, hn⟩ := wholeNumber_eq_some.mp h
  exact ⟨isDigits_iff.mpr ⟨hne, hall⟩, hn⟩

theorem inRange_iff {t : Text} {low high : Nat} :
    InRange t low high ↔ isDigits t = true ∧ low ≤ numeral t ∧ numeral t ≤ high := by
  constructor
  · intro h
    obtain ⟨n, hn, hrange⟩ := h
    obtain ⟨hdigits, rfl⟩ := isDigits_of_wholeNumber hn
    exact ⟨hdigits, hrange⟩
  · intro h
    exact ⟨numeral t, wholeNumber_of_digits h.1, h.2⟩

theorem not_inRange_nil {low high : Nat} : ¬InRange [] low high := by
  intro h
  obtain ⟨n, hn, -⟩ := h
  cases hn

theorem any_not_digit {t : Text} : t.any (fun c => !c.isDigit) = !t.all Char.isDigit := by
  simp [List.any_eq_not_all_not]

theorem octetCheck_eq_none {low high : Nat} {t : Text} :
    octetCheck low (high + 1) t = none ↔ InRange t low high := by
  rw [octetCheck, inRange_iff, any_not_digit, isDigits]
  by_cases hdigits : t.all Char.isDigit = true
  · by_cases hne : t = []
    · simp [hne]
    · simp [hdigits, hne]
      omega
  · simp [hdigits]

/-- An octet check that wants a number first. -/
theorem numberCheck_eq_none {low high : Nat} {t : Text} :
    (if isNaN t then some (.javaScript 8 []) else octetCheck low (high + 1) t) = none ↔
      InRange t low high := by
  rw [← octetCheck_eq_none]
  by_cases hnan : isNaN t = true
  · rw [if_pos hnan, octetCheck_eq_none, inRange_iff]
    refine iff_of_false (Option.some_ne_none _) ?_
    intro h
    rw [isNaN_of_digits h.1] at hnan
    cases hnan
  · rw [if_neg hnan]

theorem emptyCheck_eq_none {low high : Nat} {t : Text} :
    (if t = [] then none else octetCheck low (high + 1) t) = none ↔
      t = [] ∨ InRange t low high := by
  by_cases ht : t = []
  · simp [ht]
  · rw [if_neg ht, octetCheck_eq_none, or_iff_right ht]

/-! ## What the ports are read as -/

/-- A number at the front of a text, behind white space and a sign; anything may follow it. -/
structure NumberAt (t : Text) (z : Int) (front sign digits rest : Text) : Prop where
  eq : t = front ++ (sign ++ (digits ++ rest))
  space : ∀ c ∈ front, isSpace c = true
  row : isDigits digits = true
  ends : startsWithDigit rest = false
  value : sign = [] ∧ z = numeral digits ∨ sign = ['+'] ∧ z = numeral digits ∨
    sign = ['-'] ∧ z = -(numeral digits : Int)

def StartsWith (t : Text) (z : Int) : Prop :=
  ∃ front sign digits rest, NumberAt t z front sign digits rest

theorem startsWithDigit_dropWhile (t : Text) :
    startsWithDigit (t.dropWhile Char.isDigit) = false := by
  induction t with
  | nil => rfl
  | cons c t ih =>
      by_cases hc : c.isDigit = true
      · rw [List.dropWhile_cons_of_pos hc, ih]
      · rw [List.dropWhile_cons_of_neg hc]
        simpa [startsWithDigit] using hc

theorem leadingNumber_eq {t digits rest : Text} (ht : t = digits ++ rest)
    (hdigits : isDigits digits = true) (hends : startsWithDigit rest = false) :
    leadingNumber t = some (numeral digits) := by
  obtain ⟨hne, hall⟩ := isDigits_iff.mp hdigits
  have htake : t.takeWhile Char.isDigit = digits := by
    have hrest : rest.takeWhile Char.isDigit = [] := by
      cases rest with
      | nil => rfl
      | cons c rest => exact List.takeWhile_cons_of_neg (by simpa [startsWithDigit] using hends)
    rw [ht, List.takeWhile_append_of_pos hall, hrest, List.append_nil]
  rw [leadingNumber, htake]
  cases digits with
  | nil => contradiction
  | cons c digits => rfl

theorem leadingNumber_eq_some {t : Text} {n : Nat} (h : leadingNumber t = some n) :
    ∃ digits rest, t = digits ++ rest ∧ isDigits digits = true ∧ startsWithDigit rest = false ∧
      numeral digits = n := by
  have hall : ∀ c ∈ t.takeWhile Char.isDigit, c.isDigit = true := fun c hc =>
    List.mem_takeWhile_imp hc
  have hsplit : t = t.takeWhile Char.isDigit ++ t.dropWhile Char.isDigit :=
    List.takeWhile_append_dropWhile.symm
  unfold leadingNumber at h
  split at h
  · cases h
  · next hne =>
    exact ⟨_, _, hsplit, isDigits_iff.mpr ⟨hne, hall⟩, startsWithDigit_dropWhile t,
      Option.some.inj h⟩

/-- What `parseInt` reads. -/
theorem parseInt_eq_some {t : Text} {z : Int} : parseInt t = some z ↔ StartsWith t z := by
  constructor
  · intro h
    have hspace : ∀ c ∈ t.takeWhile isSpace, isSpace c = true := fun c hc =>
      List.mem_takeWhile_imp hc
    have hsplit : t = t.takeWhile isSpace ++ t.dropWhile isSpace :=
      List.takeWhile_append_dropWhile.symm
    unfold parseInt at h
    split at h
    all_goals
      obtain ⟨n, hn, rfl⟩ := Option.map_eq_some_iff.mp h
      obtain ⟨m, hm, hmn⟩ := Option.bind_eq_some_iff.mp hn
      obtain rfl := Option.some.inj hmn
      obtain ⟨digits, rest, hrest, hdigits, hends, rfl⟩ := leadingNumber_eq_some hm
    · next heq =>
      rw [heq, hrest] at hsplit
      exact ⟨_, ['-'], digits, rest, hsplit, hspace, hdigits, hends, .inr (.inr ⟨rfl, rfl⟩)⟩
    · next heq =>
      rw [heq, hrest] at hsplit
      exact ⟨_, ['+'], digits, rest, hsplit, hspace, hdigits, hends, .inr (.inl ⟨rfl, rfl⟩)⟩
    · rw [hrest] at hsplit
      exact ⟨_, [], digits, rest, hsplit, hspace, hdigits, hends, .inl ⟨rfl, rfl⟩⟩
  · intro h
    obtain ⟨front, sign, digits, rest, h⟩ := h
    have hlead := leadingNumber_eq rfl h.row h.ends
    obtain ⟨hne, hall⟩ := isDigits_iff.mp h.row
    obtain ⟨c, digits, rfl⟩ := List.exists_cons_of_ne_nil hne
    have hc := hall c List.mem_cons_self
    have hdrop : t.dropWhile isSpace =
        (sign ++ (c :: digits ++ rest)).dropWhile isSpace := by
      rw [h.eq, List.dropWhile_append_of_pos h.space]
    rcases h.value with ⟨rfl, rfl⟩ | ⟨rfl, rfl⟩ | ⟨rfl, rfl⟩
    · rw [List.nil_append, List.cons_append] at hdrop
      have hminus := noSign_of_digit hc (show ('-').isDigit = false by decide) (digits ++ rest)
      have hplus := noSign_of_digit hc (show ('+').isDigit = false by decide) (digits ++ rest)
      rw [← hdrop] at hminus hplus
      rw [parseInt_noSign hminus hplus, hdrop, dropWhile_isSpace_of_digit hc, ← List.cons_append,
        hlead]
      rfl
    · rw [parseInt, hdrop, List.singleton_append, List.dropWhile_cons_of_neg (by decide)]
      simp only [hlead]
      rfl
    · rw [parseInt, hdrop, List.singleton_append, List.dropWhile_cons_of_neg (by decide)]
      simp only [hlead]
      rfl

theorem parseInt_of_digits {t : Text} (h : isDigits t = true) :
    parseInt t = some (numeral t : Int) := by
  have hnumber : NumberAt t (numeral t) [] [] t [] := {
    eq := by simp
    space := by simp
    row := h
    ends := rfl
    value := Or.inl ⟨rfl, rfl⟩ }
  exact parseInt_eq_some.mpr ⟨[], [], t, [], hnumber⟩

theorem mem_digits (c : Char) : "0123456789".toList.contains c = c.isDigit := by
  have hlist : "0123456789".toList = ['0', '1', '2', '3', '4', '5', '6', '7', '8', '9'] := by decide
  rw [hlist, Bool.eq_iff_iff, List.contains_iff_mem, Char.isDigit_iff_toNat]
  simp only [List.mem_cons, List.not_mem_nil, or_false, ← Char.toNat_inj, Char.reduceToNat]
  omega

theorem portRange_eq_none {fits : Int → Bool} {shown : String} {t defaultValue : Text} :
    (portRange fits shown t defaultValue).1 = none ↔ (parseInt t).any fits = true := by
  unfold portRange
  by_cases hfits : (parseInt t).any fits = true
  · simp [hfits]
  · simp [hfits]

theorem fits_digits {t : Text} (h : isDigits t = true) :
    (parseInt t).any (fun d => d < 65536 && d > 0) = true ↔ InRange t 1 65535 := by
  rw [parseInt_of_digits h, inRange_iff, and_iff_right h, Option.any_some, Bool.and_eq_true,
    decide_eq_true_eq, decide_eq_true_eq]
  omega

/-- What the checks of ports do with digits, and with nothing else. -/
theorem portCheck_eq_none {t defaultValue : Text} :
    (portCheck t defaultValue).1 = none ↔ InRange t 1 65535 := by
  unfold portCheck
  simp only [mem_digits, any_not_digit, isdigit]
  by_cases hall : t.all Char.isDigit = true
  · simp only [hall, Bool.not_true, Bool.false_eq_true, if_false]
    rw [portRange_eq_none]
    by_cases hne : t = []
    · rw [hne]
      exact iff_of_false (by decide) not_inRange_nil
    · exact fits_digits (by rw [isDigits_iff]; exact ⟨hne, List.all_eq_true.mp hall⟩)
  · rw [Bool.not_eq_true] at hall
    simp [hall, inRange_iff, isDigits]

theorem portCheck1_eq_none {t defaultValue : Text} :
    (portCheck1 t defaultValue).1 = none ↔ t = [] ∨ InRange t 1 65535 := by
  unfold portCheck1
  by_cases hne : t = []
  · simp [hne]
  · rw [if_neg hne, or_iff_right hne]
    simp only [any_not_digit, isdigit]
    by_cases hall : t.all Char.isDigit = true
    · simp only [hall, Bool.not_true, Bool.false_eq_true, if_false]
      rw [portRange_eq_none]
      exact fits_digits (by rw [isDigits_iff]; exact ⟨hne, List.all_eq_true.mp hall⟩)
    · rw [Bool.not_eq_true] at hall
      simp [hall, inRange_iff, isDigits]

/-! ## The order of texts -/

/-- The octets that lie elsewhere among the texts than among the numbers: three of two digits, and
those from 224 on that are written with a zero in front. -/
def Misordered (t : Text) : Prop :=
  t = ['2', '3'] ∨ t = ['2', '4'] ∨ t = ['2', '5'] ∨ (3 < t.length ∧ InRange t 224 255)

theorem multicast_ne_none {t : Text} :
    multicastIPCheck t ≠ none ↔ textBetween t ['2', '2', '4'] ['2', '5', '5'] = true := by
  unfold multicastIPCheck
  split
  · simp_all
  · simp_all

theorem multicast_one {c : Char} (h : c.isDigit = true) :
    textBetween [c] ['2', '2', '4'] ['2', '5', '5'] = false := by
  have hrange := digit_range h
  simp [textBetween, textLess, ← Char.toNat_inj]
  omega

theorem multicast_two {c d : Char} :
    textBetween [c, d] ['2', '2', '4'] ['2', '5', '5'] = true ↔
      [c, d] = ['2', '3'] ∨ [c, d] = ['2', '4'] ∨ [c, d] = ['2', '5'] := by
  simp [textBetween, textLess, ← Char.toNat_inj]
  omega

theorem multicast_three {t : Text} (h : ∀ c ∈ t, c.isDigit = true) (hlength : t.length = 3) :
    textBetween t ['2', '2', '4'] ['2', '5', '5'] = true ↔ 224 ≤ numeral t ∧ numeral t ≤ 255 := by
  have hlow : ∀ c ∈ ['2', '2', '4'], c.isDigit = true := by simp
  have hhigh : ∀ c ∈ ['2', '5', '5'], c.isDigit = true := by simp
  exact textBetween_iff h hlow hhigh ⟨hlength.symm, hlength.symm⟩

theorem multicast_long {t : Text} (h : ∀ c ∈ t, c.isDigit = true) (hlength : 3 < t.length)
    (hle : numeral t ≤ 255) : textBetween t ['2', '2', '4'] ['2', '5', '5'] = false := by
  have hpos : 0 < t.length := by omega
  obtain ⟨c, rest, rfl⟩ := List.exists_cons_of_length_pos hpos
  have hc := digit_range (h c List.mem_cons_self)
  have hpow : 10 ^ 3 ≤ 10 ^ rest.length :=
    Nat.pow_le_pow_right (by decide) (Nat.le_of_lt_succ hlength)
  have hzero : c.toNat = 48 := by
    rw [numeral_cons] at hle
    by_contra hne
    have hstep : 10 ^ rest.length * 1 ≤ 10 ^ rest.length * (c.toNat - 48) :=
      Nat.mul_le_mul_left _ (by omega)
    omega
  simp [textBetween, textLess, hzero]

theorem multicast_iff {t : Text} {n : Nat} (hn : wholeNumber t = some n) (hle : n ≤ 255) :
    (multicastIPCheck t ≠ none ↔ 224 ≤ n) ↔ ¬Misordered t := by
  obtain ⟨hdigits, rfl⟩ := isDigits_of_wholeNumber hn
  obtain ⟨hne, hall⟩ := isDigits_iff.mp hdigits
  rw [multicast_ne_none, Misordered, inRange_iff, and_iff_right hdigits]
  match t, hne with
  | [c], _ =>
      have hlt := numeral_lt hall
      rw [multicast_one (hall c List.mem_cons_self)]
      simp at hlt ⊢
      omega
  | [c, d], _ =>
      have hlt : numeral [c, d] < 10 ^ 2 := numeral_lt hall
      have hnot : ¬224 ≤ numeral [c, d] := by omega
      rw [multicast_two]
      simp [hnot]
  | [c, d, e], _ =>
      rw [multicast_three hall rfl]
      simp
      omega
  | c :: d :: e :: f :: rest, _ =>
      rw [multicast_long hall (by simp) hle]
      simp
      omega

/-! ## The summaries that the tables use -/

theorem any_wholeNumber (low high : Nat) {t : Text} {p : Nat → Bool}
    (hp : ∀ n, p n = true ↔ low ≤ n ∧ n ≤ high) :
    (wholeNumber t).any p = true ↔ InRange t low high := by
  rw [Option.any_eq_true, InRange]
  simp only [hp]

theorem ipCheck_isNone (t : Text) : (ipCheck t).isNone = Www.ipCheck t := by
  rw [Bool.eq_iff_iff, Option.isNone_iff_eq_none, Www.ipCheck,
    any_wholeNumber 1 254 (by simp; omega)]
  exact numberCheck_eq_none

theorem ipCheck1_isNone (t : Text) : (ipCheck1 t).isNone = Www.ipCheck1 t := by
  rw [Bool.eq_iff_iff, Option.isNone_iff_eq_none, Www.ipCheck1, Bool.or_eq_true, beq_iff_eq,
    any_wholeNumber 0 255 (by simp; omega)]
  exact emptyCheck_eq_none

theorem ipCheck2_isNone (t : Text) : (ipCheck2 t).isNone = EditList.ipCheck2 t := by
  rw [Bool.eq_iff_iff, Option.isNone_iff_eq_none, EditList.ipCheck2, Bool.or_eq_true, beq_iff_eq,
    any_wholeNumber 0 254 (by simp; omega)]
  exact emptyCheck_eq_none

theorem portCheck_isNone (t defaultValue : Text) :
    (portCheck t defaultValue).1.isNone = Www.portCheck t := by
  rw [Bool.eq_iff_iff, Option.isNone_iff_eq_none, portCheck_eq_none, Www.portCheck,
    any_wholeNumber 1 65535 (by simp; omega)]

theorem portCheck1_isNone (t defaultValue : Text) :
    (portCheck1 t defaultValue).1.isNone = Www.portCheck1 t := by
  rw [Bool.eq_iff_iff, Option.isNone_iff_eq_none, portCheck1_eq_none, Www.portCheck1,
    Bool.or_eq_true, beq_iff_eq, Www.portCheck,
    any_wholeNumber 1 65535 (by simp; omega)]

/-! ## When the checks are right -/

/-- A text that is no row of digits but has a number up to 65535 at its front. -/
def Misread (t : Text) : Prop := isDigits t = false ∧ ∃ z, StartsWith t z ∧ 0 ≤ z ∧ z ≤ 65535

theorem portCheckPing_right {t defaultValue : Text} :
    ((portCheckPing t defaultValue).1 = none ↔ InRange t 0 65535) ↔ ¬Misread t := by
  have hreads : (portCheckPing t defaultValue).1 = none ↔
      ∃ z, StartsWith t z ∧ 0 ≤ z ∧ z ≤ 65535 := by
    rw [portCheckPing, portRange_eq_none, Option.any_eq_true]
    constructor
    · intro h
      obtain ⟨z, hz, hfits⟩ := h
      rw [Bool.and_eq_true, decide_eq_true_eq, decide_eq_true_eq] at hfits
      exact ⟨z, parseInt_eq_some.mp hz, by omega, by omega⟩
    · intro h
      obtain ⟨z, hz, h0, hmax⟩ := h
      refine ⟨z, parseInt_eq_some.mpr hz, ?_⟩
      rw [Bool.and_eq_true, decide_eq_true_eq, decide_eq_true_eq]
      omega
  rw [hreads, Misread, inRange_iff]
  by_cases hdigits : isDigits t = true
  · have hstart : ∀ z, StartsWith t z ↔ z = (numeral t : Int) := by
      intro z
      rw [← parseInt_eq_some, parseInt_of_digits hdigits, Option.some.injEq, eq_comm]
    simp only [hstart, exists_eq_left, hdigits, true_and, Bool.true_eq_false, false_and,
      not_false_eq_true, iff_true]
    omega
  · simp [hdigits]

theorem wholeNumber_of_misordered {t : Text} (h : Misordered t) :
    ∃ n, wholeNumber t = some n ∧ n ≤ 255 := by
  rcases h with rfl | rfl | rfl | ⟨-, n, hn, -, hle⟩
  · exact ⟨23, by decide, by decide⟩
  · exact ⟨24, by decide, by decide⟩
  · exact ⟨25, by decide, by decide⟩
  · exact ⟨n, hn, hle⟩

theorem ipCheck1_eq_none {t : Text} : ipCheck1 t = none ↔ t = [] ∨ InRange t 0 255 :=
  emptyCheck_eq_none

/-- An octet has to be among the numbers where it is among the texts. -/
theorem multicastIPCheck_right {t : Text} :
    (∀ n, wholeNumber t = some n → ipCheck1 t = none → (multicastIPCheck t ≠ none ↔ 224 ≤ n)) ↔
      ¬Misordered t := by
  constructor
  · intro h hmis
    obtain ⟨n, hn, hle⟩ := wholeNumber_of_misordered hmis
    exact (multicast_iff hn hle).mp
      (h n hn (ipCheck1_eq_none.mpr (.inr ⟨n, hn, Nat.zero_le n, hle⟩))) hmis
  · intro h n hn hcheck
    rcases ipCheck1_eq_none.mp hcheck with rfl | ⟨m, hm, -, hle⟩
    · cases hn
    · obtain rfl := Option.some.inj (hn.symm.trans hm)
      exact (multicast_iff hn hle).mpr h

/-- The checks are right exactly about the texts that neither hide a number in front of something
else nor lie elsewhere as a text than as a number. -/
theorem fieldChecks_right_iff (t defaultValue : Text) :
    ChecksRight t defaultValue ↔ ¬Misread t ∧ ¬Misordered t := by
  constructor
  · intro h
    exact ⟨portCheckPing_right.mp h.portCheckPing, multicastIPCheck_right.mp h.multicastIPCheck⟩
  · intro h
    exact {
      ipFirstCheck := numberCheck_eq_none
      ipCheck := numberCheck_eq_none
      ipCheck1 := emptyCheck_eq_none
      ipCheck2 := emptyCheck_eq_none
      ipCheck3 := emptyCheck_eq_none
      portCheck := portCheck_eq_none
      portCheck1 := portCheck1_eq_none
      portCheckPing := portCheckPing_right.mpr h.1
      multicastIPCheck := multicastIPCheck_right.mpr h.2 }

/-- `80abc` is taken for a port, and the octet 23 is refused as a multicast address. -/
theorem fieldChecks_wrong :
    ¬ChecksRight ['8', '0', 'a', 'b', 'c'] [] ∧ ¬ChecksRight ['2', '3'] [] := by
  constructor
  · intro h
    obtain ⟨n, hn, -⟩ := h.portCheckPing.mp (by decide)
    cases hn
  · intro h
    exact absurd ((h.multicastIPCheck 23 (by decide) (by decide)).mp (by decide)) (by decide)

end Xwr100.Www.FieldChecks
