import Xwr100.Lib.Bytes
import Mathlib.Algebra.GroupWithZero.Nat
import Mathlib.Data.Set.Prod
import Mathlib.Data.List.TakeWhile

/-! # Numbers as text

Decimal numbers in ASCII, and texts that can be told apart wherever they end: when each of a row of
values is printed so that its text shows where it ends, the row can be read back from the text.
-/

namespace Xwr100.Lib

/-! ## Digits -/

/-- A text of characters below 256. -/
def ascii (text : List Char) : List UInt8 := text.map fun c => UInt8.ofNat c.toNat

/-- `%u`. -/
def decimal (n : Nat) : List UInt8 := ascii (Nat.toDigits 10 n)

/-- `%d`. -/
def signedDecimal : Int → List UInt8
  | .ofNat n => decimal n
  | .negSucc n => 0x2d :: decimal (n + 1)

def isDigit (b : UInt8) : Bool := 0x30 ≤ b ∧ b ≤ 0x39

theorem toNat_of_isDigit {c : Char} (h : c.isDigit = true) : 48 ≤ c.toNat ∧ c.toNat ≤ 57 := by
  rw [Char.isDigit, Bool.and_eq_true, decide_eq_true_iff, decide_eq_true_iff] at h
  exact h

theorem isDigit_of_mem_decimal {n : Nat} {b : UInt8} (h : b ∈ decimal n) : isDigit b = true := by
  obtain ⟨c, hc, rfl⟩ := List.mem_map.mp h
  obtain ⟨hlow, hhigh⟩ := toNat_of_isDigit (Nat.isDigit_of_mem_toDigits (by decide) (by decide) hc)
  have hbyte : (UInt8.ofNat c.toNat).toNat = c.toNat := by
    rw [UInt8.toNat_ofNat']
    omega
  simp only [isDigit, UInt8.le_iff_toNat_le, hbyte, decide_eq_true_iff]
  exact ⟨hlow, hhigh⟩

theorem zero_notMem_decimal (n : Nat) : 0 ∉ decimal n := by
  intro h
  exact absurd (isDigit_of_mem_decimal h) (by decide)

theorem zero_notMem_signedDecimal (n : Int) : 0 ∉ signedDecimal n := by
  cases n with
  | ofNat n => exact zero_notMem_decimal n
  | negSucc n => simp [signedDecimal, zero_notMem_decimal]

theorem decimal_ne_nil (n : Nat) : decimal n ≠ [] := by
  intro h
  exact Nat.toDigits_ne_nil (List.map_eq_nil_iff.mp h)

theorem length_decimal_le_iff {n k : Nat} (hk : 0 < k) : (decimal n).length ≤ k ↔ n < 10 ^ k := by
  rw [decimal, ascii, List.length_map]
  exact Nat.length_toDigits_le_iff (by decide) hk

theorem decimal_injective : Function.Injective decimal := by
  have hchar : ∀ c : Char, c.isDigit = true → Char.ofNat (UInt8.ofNat c.toNat).toNat = c := by
    intro c hc
    obtain ⟨hlow, hhigh⟩ := toNat_of_isDigit hc
    have hbyte : (UInt8.ofNat c.toNat).toNat = c.toNat := by
      rw [UInt8.toNat_ofNat']
      omega
    rw [hbyte, Char.ofNat_toNat]
  have hback : ∀ n, (decimal n).map (fun b => Char.ofNat b.toNat) = Nat.toDigits 10 n := by
    intro n
    rw [decimal, ascii, List.map_map]
    refine (List.map_congr_left fun c hc => ?_).trans (List.map_id _)
    exact hchar c (Nat.isDigit_of_mem_toDigits (by decide) (by decide) hc)
  intro m n h
  rw [← Nat.ofDigitChars_ten_toDigits (n := m), ← hback, h, hback, Nat.ofDigitChars_ten_toDigits]

/-! ## Where a text ends -/

/-- Whatever follows the text of a value, the value is read off it. -/
def SelfDelimiting {α : Type*} (S : Set α) (print : α → List UInt8) : Prop :=
  ∀ a ∈ S, ∀ b ∈ S, ∀ rest rest', print a ++ rest = print b ++ rest' → a = b ∧ rest = rest'

/-- Two runs of bytes that are alike, each before one that is not. -/
theorem append_cons_inj_of_all {p : UInt8 → Bool} {l l' rest rest' : List UInt8} {c c' : UInt8}
    (hl : ∀ b ∈ l, p b = true) (hl' : ∀ b ∈ l', p b = true) (hc : p c = false)
    (hc' : p c' = false) (h : l ++ c :: rest = l' ++ c' :: rest') :
    l = l' ∧ c = c' ∧ rest = rest' := by
  have htake := congrArg (List.takeWhile p) h
  rw [List.takeWhile_append_of_pos hl, List.takeWhile_append_of_pos hl',
    List.takeWhile_cons_of_neg (by simp [hc]), List.takeWhile_cons_of_neg (by simp [hc']),
    List.append_nil, List.append_nil] at htake
  subst htake
  exact ⟨rfl, List.cons.inj (List.append_cancel_left h)⟩

namespace SelfDelimiting

variable {α β : Type*} {S : Set α} {T : Set β} {print : α → List UInt8} {print' : β → List UInt8}

/-- A number with a character behind it that is no digit. -/
theorem decimal {stop : UInt8} (h : isDigit stop = false) :
    SelfDelimiting Set.univ fun n => Lib.decimal n ++ [stop] := by
  intro m _ n _ rest rest' heq
  rw [List.append_assoc, List.append_assoc] at heq
  obtain ⟨hdigits, -, hrest⟩ := append_cons_inj_of_all (fun _ => isDigit_of_mem_decimal)
    (fun _ => isDigit_of_mem_decimal) h h heq
  exact ⟨decimal_injective hdigits, hrest⟩

theorem signedDecimal {stop : UInt8} (h : isDigit stop = false) :
    SelfDelimiting Set.univ fun n => Lib.signedDecimal n ++ [stop] := by
  have hfirst : ∀ m n rest rest', ¬Lib.decimal m ++ rest = 0x2d :: Lib.decimal n ++ rest' := by
    intro m n rest rest' heq
    cases hdigits : Lib.decimal m with
    | nil => exact decimal_ne_nil m hdigits
    | cons b digits =>
        have hb : isDigit b = true := isDigit_of_mem_decimal (hdigits ▸ List.mem_cons_self)
        rw [hdigits] at heq
        rw [(List.cons.inj heq).1] at hb
        exact absurd hb (by decide)
  rintro (m | m) _ (n | n) _ rest rest' heq
  · obtain ⟨rfl, hrest⟩ := decimal h m trivial n trivial rest rest' heq
    exact ⟨rfl, hrest⟩
  · rw [List.append_assoc, List.append_assoc] at heq
    exact absurd heq (hfirst m (n + 1) _ _)
  · rw [List.append_assoc, List.append_assoc] at heq
    exact absurd heq.symm (hfirst n (m + 1) _ _)
  · obtain ⟨hsame, hrest⟩ := decimal h (m + 1) trivial (n + 1) trivial rest rest'
      (List.cons.inj heq).2
    exact ⟨congrArg Int.negSucc (Nat.succ.inj hsame), hrest⟩

/-- One text behind another. -/
theorem seq (h : SelfDelimiting S print) (h' : SelfDelimiting T print') :
    SelfDelimiting (S ×ˢ T) fun v => print v.1 ++ print' v.2 := by
  rintro ⟨a, b⟩ ⟨ha, hb⟩ ⟨c, d⟩ ⟨hc, hd⟩ rest rest' heq
  dsimp only at heq
  rw [List.append_assoc, List.append_assoc] at heq
  obtain ⟨rfl, hsecond⟩ := h a ha c hc _ _ heq
  obtain ⟨rfl, hrest⟩ := h' b hb d hd _ _ hsecond
  exact ⟨rfl, hrest⟩

/-- What is told apart before it is printed. -/
theorem comp (h : SelfDelimiting T print') {f : α → β} (hf : Set.InjOn f S)
    (hmaps : Set.MapsTo f S T) : SelfDelimiting S fun a => print' (f a) := by
  intro a ha b hb rest rest' heq
  obtain ⟨hsame, hrest⟩ := h (f a) (hmaps ha) (f b) (hmaps hb) rest rest' heq
  exact ⟨hf ha hb hsame, hrest⟩

theorem flatMap_inj (h : SelfDelimiting S print) (hne : ∀ a ∈ S, print a ≠ []) {l l' : List α}
    (hl : ∀ a ∈ l, a ∈ S) (hl' : ∀ a ∈ l', a ∈ S) (heq : l.flatMap print = l'.flatMap print) :
    l = l' := by
  induction l generalizing l' with
  | nil =>
      cases l' with
      | nil => rfl
      | cons b l' =>
          rw [List.flatMap_nil, List.flatMap_cons, eq_comm, List.append_eq_nil_iff] at heq
          exact absurd heq.1 (hne b (hl' b List.mem_cons_self))
  | cons a l ih =>
      cases l' with
      | nil =>
          rw [List.flatMap_nil, List.flatMap_cons, List.append_eq_nil_iff] at heq
          exact absurd heq.1 (hne a (hl a List.mem_cons_self))
      | cons b l' =>
          rw [List.flatMap_cons, List.flatMap_cons] at heq
          obtain ⟨rfl, hrest⟩ :=
            h a (hl a List.mem_cons_self) b (hl' b List.mem_cons_self) _ _ heq
          rw [ih (fun c hc => hl c (List.mem_cons_of_mem a hc))
            (fun c hc => hl' c (List.mem_cons_of_mem a hc)) hrest]

end SelfDelimiting

end Xwr100.Lib
