import Mathlib.Data.List.Basic
import Mathlib.Logic.Function.Basic

/-! # Field values of the configuration pages

Form fields hold texts; the scripts split and join them, read numbers from them and refuse
some characters.  A text is a list of characters.  The functions here are the ones of
`nsutil.js` and of the script language that several pages use.
-/

namespace Xwr100.Www

abbrev Text := List Char

/-- What the language skips before a number. -/
def isSpace (c : Char) : Bool :=
  let n := c.toNat
  (9 ≤ n && n ≤ 13) || n == 32 || n == 160 || n == 5760 || (8192 ≤ n && n ≤ 8202) ||
    n == 8232 || n == 8233 || n == 8239 || n == 8287 || n == 12288 || n == 65279

def numeral (t : Text) : Nat := Nat.ofDigitChars 10 t 0

def leadingNumber (t : Text) : Option Nat :=
  match t.takeWhile Char.isDigit with
  | [] => none
  | digits => some (numeral digits)

/-- `parseInt(t, 10)`; `none` is not-a-number. -/
def parseInt (t : Text) : Option Int :=
  match t.dropWhile isSpace with
  | '-' :: rest => (leadingNumber rest).map fun n => -(n : Int)
  | '+' :: rest => (leadingNumber rest).map fun n => (n : Int)
  | rest => (leadingNumber rest).map fun n => (n : Int)

/-- The number that a text of digits is; the pages store no other numbers. -/
def wholeNumber (t : Text) : Option Nat :=
  if t ≠ [] ∧ t.all Char.isDigit then some (numeral t) else none

/-- A comparison of two numbers, false when one is not a number. -/
def compareNumbers (rel : Int → Int → Bool) (x y : Option Int) : Bool :=
  match x, y with
  | some x, some y => rel x y
  | _, _ => false

def showNumber (n : Nat) : Text := Nat.toDigits 10 n

@[simp] theorem numeral_showNumber (n : Nat) : numeral (showNumber n) = n :=
  Nat.ofDigitChars_ten_toDigits

def backslash : Char := Char.ofNat 92

/-- The characters that `checkQuote1` refuses; the last three are the two quotes and the
backquote. -/
def quoteChars : Text :=
  ['[', ']', backslash, '|', ':', ';', '<', '>', '?', '&', ',', '/', '+', '=', '*', '%',
    Char.ofNat 34, Char.ofNat 39, Char.ofNat 96]

def checkQuote1 (t : Text) : Bool := !t.any quoteChars.contains

def specialCharCheck (t : Text) : Bool := !t.contains backslash

/-- `IPCheck`: a host octet from 1 to 254. -/
def ipCheck (t : Text) : Bool := (wholeNumber t).any fun d => 0 < d && d < 255

/-- `IPCheck1`: nothing, or an octet. -/
def ipCheck1 (t : Text) : Bool := t == [] || (wholeNumber t).any fun d => d < 256

def portCheck (t : Text) : Bool := (wholeNumber t).any fun d => 0 < d && d < 65536

/-- `PortCheck1`: nothing, or a port. -/
def portCheck1 (t : Text) : Bool := t == [] || portCheck t

/-- `GetIPSegment` and `GetPortSegment`: the part with the given number, counted from 1, or the
last one; the empty text counts as `0`. -/
def getSegment (sep : Char) (t : Text) (segmentNum : Nat) : Text :=
  if t = [] then ['0']
  else
    let parts := t.splitOn sep
    parts.getD (min (segmentNum - 1) (parts.length - 1)) []

/-- An array of the language; `none` is undefined. -/
abbrev Slots := Nat → Option Text

/-- `t.split("|")` -/
def splitBars (t : Text) : Slots := fun i => (t.splitOn '|')[i]?

/-- The element a list is written back with: `0` for an empty or a missing one. -/
def orZero : Option Text → Text
  | none => ['0']
  | some [] => ['0']
  | some t => t

def joinBars (a : Slots) : Text := (List.range 10).flatMap fun n => orZero (a n) ++ ['|']

def joinBetween (a : Slots) : Text := ['|'].intercalate ((List.range 10).map fun n => orZero (a n))

def element (t : Text) (n : Nat) : Text := orZero (splitBars t n)

def BarFree (t : Text) : Prop := '|' ∉ t

theorem barFree_zero : BarFree ['0'] := by simp [BarFree]

@[simp] theorem barFree_append {t u : Text} : BarFree (t ++ u) ↔ BarFree t ∧ BarFree u := by
  simp [BarFree]

theorem barFree_intercalate {sep : Text} {l : List Text} (hsep : BarFree sep)
    (h : ∀ t ∈ l, BarFree t) : BarFree (sep.intercalate l) := by
  match l with
  | [] => exact List.not_mem_nil
  | [t] =>
      rw [List.intercalate_singleton]
      exact h t List.mem_cons_self
  | t :: u :: rest =>
      rw [List.intercalate_cons_cons, barFree_append, barFree_append]
      exact ⟨⟨h t List.mem_cons_self, hsep⟩,
        barFree_intercalate hsep fun v hv => h v (List.mem_cons_of_mem t hv)⟩

theorem barFree_orZero {x : Option Text} (h : ∀ t, x = some t → BarFree t) :
    BarFree (orZero x) := by
  match x with
  | none => exact barFree_zero
  | some [] => exact barFree_zero
  | some (c :: t) => exact h _ rfl

/-- What splitting finds does not hold what it was split at. -/
theorem not_mem_of_mem_splitOn {α : Type*} [BEq α] [LawfulBEq α] {x : α} {l u : List α}
    (h : u ∈ l.splitOn x) : x ∉ u := by
  induction l generalizing u with
  | nil =>
      rw [List.splitOn_nil, List.mem_singleton] at h
      rw [h]
      exact List.not_mem_nil
  | cons c l ih =>
      rw [List.splitOn_cons_eq_if_modifyHead] at h
      by_cases hc : (c == x) = true
      · rw [if_pos hc] at h
        rcases List.mem_cons.mp h with rfl | h
        · exact List.not_mem_nil
        · exact ih h
      · rw [if_neg hc] at h
        obtain ⟨first, rest, hsplit⟩ := List.exists_cons_of_ne_nil (List.splitOn_ne_nil x l)
        rw [hsplit, List.modifyHead_cons] at h
        rcases List.mem_cons.mp h with rfl | h
        · have hfirst : x ∉ first := ih (by rw [hsplit]; exact List.mem_cons_self)
          intro hmem
          rcases List.mem_cons.mp hmem with heq | hmem
          · simp [← heq] at hc
          · exact hfirst hmem
        · exact ih (by rw [hsplit]; exact List.mem_cons_of_mem first h)

theorem barFree_of_mem_splitOn {t u : Text} (h : u ∈ t.splitOn '|') : BarFree u :=
  not_mem_of_mem_splitOn h

theorem barFree_element (t : Text) (n : Nat) : BarFree (element t n) := by
  apply barFree_orZero
  intro u hu
  exact barFree_of_mem_splitOn (List.mem_of_getElem? hu)

theorem orZero_orZero (x : Option Text) : orZero (some (orZero x)) = orZero x := by
  match x with
  | none => rfl
  | some [] => rfl
  | some (c :: t) => rfl

theorem splitOn_flatMap_bars {l : List Text} (h : ∀ t ∈ l, BarFree t) :
    (l.flatMap fun t => t ++ ['|']).splitOn '|' = l ++ [[]] := by
  induction l with
  | nil => rfl
  | cons t rest ih =>
      have ht : BarFree t := h t List.mem_cons_self
      rw [List.flatMap_cons, List.append_assoc, List.singleton_append,
        List.splitOn_append_cons_self_of_not_mem ht,
        ih fun u hu => h u (List.mem_cons_of_mem t hu), List.cons_append]

structure TenElements (t : Text) : Prop where
  splitBars_eq : ∀ n < 10, splitBars t n = some (element t n)
  element_eq : ∀ n, 10 ≤ n → element t n = ['0']

theorem splitBars_joinBars {a : Slots} (h : ∀ n < 10, BarFree (orZero (a n))) (n : Nat) :
    splitBars (joinBars a) n =
      if n < 10 then some (orZero (a n)) else if n = 10 then some [] else none := by
  have hsplit : (joinBars a).splitOn '|' = ((List.range 10).map fun n => orZero (a n)) ++ [[]] := by
    have hbars : ∀ t ∈ (List.range 10).map (fun n => orZero (a n)), BarFree t := by
      intro t ht
      obtain ⟨m, hm, rfl⟩ := List.mem_map.mp ht
      exact h m (List.mem_range.mp hm)
    rw [← splitOn_flatMap_bars hbars, List.flatMap_map]
    rfl
  rw [splitBars, hsplit]
  by_cases hn : n < 10
  · rw [if_pos hn, List.getElem?_append_left (by simpa using hn)]
    simp only [List.getElem?_map, List.getElem?_range hn, Option.map_some]
  · rw [if_neg hn, List.getElem?_append_right (by simpa using hn)]
    by_cases hten : n = 10
    · simp [hten]
    · rw [if_neg hten, List.getElem?_eq_none (by simp; omega)]

theorem splitBars_joinBetween {a : Slots} (h : ∀ n < 10, BarFree (orZero (a n))) (n : Nat) :
    splitBars (joinBetween a) n = if n < 10 then some (orZero (a n)) else none := by
  have hsplit : (joinBetween a).splitOn '|' = (List.range 10).map fun n => orZero (a n) := by
    apply List.splitOn_intercalate
    · intro t ht
      obtain ⟨m, hm, rfl⟩ := List.mem_map.mp ht
      exact h m (List.mem_range.mp hm)
    · exact List.cons_ne_nil _ _
  rw [splitBars, hsplit]
  by_cases hn : n < 10
  · rw [if_pos hn]
    simp only [List.getElem?_map, List.getElem?_range hn, Option.map_some]
  · rw [if_neg hn, List.getElem?_eq_none (by simpa using hn)]

theorem element_joinBars {a : Slots} (h : ∀ n < 10, BarFree (orZero (a n))) (n : Nat) :
    element (joinBars a) n = if n < 10 then orZero (a n) else ['0'] := by
  rw [element, splitBars_joinBars h]
  by_cases hn : n < 10
  · rw [if_pos hn, if_pos hn, orZero_orZero]
  · rw [if_neg hn, if_neg hn]
    split <;> rfl

theorem element_joinBetween {a : Slots} (h : ∀ n < 10, BarFree (orZero (a n))) (n : Nat) :
    element (joinBetween a) n = if n < 10 then orZero (a n) else ['0'] := by
  rw [element, splitBars_joinBetween h]
  by_cases hn : n < 10
  · rw [if_pos hn, if_pos hn, orZero_orZero]
  · rw [if_neg hn, if_neg hn]
    rfl

theorem tenElements_joinBars {a : Slots} (h : ∀ n < 10, BarFree (orZero (a n))) :
    TenElements (joinBars a) where
  splitBars_eq n hn := by
    rw [element_joinBars h, if_pos hn, splitBars_joinBars h, if_pos hn]
  element_eq n hn := by
    rw [element_joinBars h, if_neg (by omega)]

theorem tenElements_joinBetween {a : Slots} (h : ∀ n < 10, BarFree (orZero (a n))) :
    TenElements (joinBetween a) where
  splitBars_eq n hn := by
    rw [element_joinBetween h, if_pos hn, splitBars_joinBetween h, if_pos hn]
  element_eq n hn := by
    rw [element_joinBetween h, if_neg (by omega)]

theorem barFree_update (t : Text) (i : Nat) {u : Text} (hu : BarFree u) (n : Nat) :
    BarFree (orZero (Function.update (splitBars t) i (some u) n)) := by
  by_cases hn : n = i
  · rw [hn, Function.update_self]
    apply barFree_orZero
    intro v hv
    rwa [← Option.some.inj hv]
  · rw [Function.update_of_ne hn]
    exact barFree_element t n

/-- An element that is not empty is written as it is. -/
theorem orZero_update (t : Text) (i : Nat) {u : Text} (hu : u ≠ []) (n : Nat) :
    orZero (Function.update (splitBars t) i (some u) n) = if n = i then u else element t n := by
  by_cases hn : n = i
  · rw [hn, Function.update_self, if_pos rfl]
    cases u with
    | nil => contradiction
    | cons c u => rfl
  · rw [Function.update_of_ne hn, if_neg hn]
    rfl

end Xwr100.Www
