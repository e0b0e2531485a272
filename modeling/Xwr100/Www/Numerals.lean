import Mathlib.Algebra.GroupWithZero.Nat
import Mathlib.Data.List.TakeWhile
import Xwr100.Www.Text

/-! # Digits

The pages compare numbers as texts in many places.  Texts of digits that have one length and one
number are the same, and any two with one number are the same but for leading zeros.
-/

namespace Xwr100.Www

theorem digit_range {c : Char} (h : c.isDigit = true) : 48 ≤ c.toNat ∧ c.toNat ≤ 57 :=
  Char.isDigit_iff_toNat.mp h

theorem wholeNumber_eq_some {t : Text} {n : Nat} :
    wholeNumber t = some n ↔ t ≠ [] ∧ (∀ c ∈ t, c.isDigit = true) ∧ numeral t = n := by
  unfold wholeNumber
  by_cases h : t ≠ [] ∧ t.all Char.isDigit
  · rw [if_pos h, Option.some.injEq, and_iff_right h.1, and_iff_right (List.all_eq_true.mp h.2)]
  · rw [if_neg h]
    exact iff_of_false (fun heq => by cases heq) fun hall =>
      h ⟨hall.1, List.all_eq_true.mpr hall.2.1⟩

theorem numeral_cons (c : Char) (t : Text) :
    numeral (c :: t) = 10 ^ t.length * (c.toNat - 48) + numeral t := by
  rw [numeral, Nat.ofDigitChars_cons, Nat.ofDigitChars_eq_ofDigitChars_zero, Nat.mul_zero,
    Nat.zero_add]
  rfl

theorem numeral_lt {t : Text} (h : ∀ c ∈ t, c.isDigit = true) : numeral t < 10 ^ t.length := by
  induction t with
  | nil => exact Nat.one_pos
  | cons c t ih =>
      have hrest := ih fun d hd => h d (List.mem_cons_of_mem c hd)
      have hrange := digit_range (h c List.mem_cons_self)
      have hdigit : 10 ^ t.length * (c.toNat - 48) ≤ 10 ^ t.length * 9 :=
        Nat.mul_le_mul_left _ (by omega)
      rw [numeral_cons, List.length_cons, Nat.pow_succ]
      omega

/-- Texts of digits that have one length and one number are the same. -/
theorem eq_of_numeral {t u : Text} (ht : ∀ c ∈ t, c.isDigit = true)
    (hu : ∀ c ∈ u, c.isDigit = true) (hlength : t.length = u.length)
    (heq : numeral t = numeral u) : t = u := by
  induction t generalizing u with
  | nil => exact (List.length_eq_zero_iff.mp hlength.symm).symm
  | cons c t ih =>
      obtain ⟨d, u, rfl⟩ := List.exists_cons_of_length_eq_add_one hlength.symm
      have hlength' : t.length = u.length := by simpa using hlength
      have ht' : ∀ x ∈ t, x.isDigit = true := fun x hx => ht x (List.mem_cons_of_mem c hx)
      have hu' : ∀ x ∈ u, x.isDigit = true := fun x hx => hu x (List.mem_cons_of_mem d hx)
      have htlt := numeral_lt ht'
      have hult := numeral_lt hu'
      have hc := digit_range (ht c List.mem_cons_self)
      have hd := digit_range (hu d List.mem_cons_self)
      rw [numeral_cons, numeral_cons, hlength'] at heq
      rw [hlength'] at htlt
      -- the first digit is the quotient by a power of ten, the rest the remainder
      have hpow : 0 < 10 ^ u.length := Nat.zero_lt_of_lt hult
      have hfirst : c.toNat - 48 = d.toNat - 48 := by
        have hdiv := congrArg (· / 10 ^ u.length) heq
        rwa [Nat.mul_add_div hpow, Nat.mul_add_div hpow, Nat.div_eq_of_lt htlt,
          Nat.div_eq_of_lt hult, Nat.add_zero, Nat.add_zero] at hdiv
      have hrest : numeral t = numeral u := by
        rw [hfirst] at heq
        exact Nat.add_left_cancel heq
      rw [Char.toNat_inj.mp (show c.toNat = d.toNat by omega), ih ht' hu' hlength' hrest]

/-- A number without its leading zeros. -/
def withoutZeros (t : Text) : Text := t.dropWhile fun c => c == '0'

theorem numeral_withoutZeros (t : Text) : numeral (withoutZeros t) = numeral t := by
  induction t with
  | nil => rfl
  | cons c t ih =>
      by_cases hc : c = '0'
      · have hzero : (c.toNat - 48) = 0 := by rw [hc]; rfl
        rw [withoutZeros, List.dropWhile_cons_of_pos (by simp [hc]), ← withoutZeros, ih,
          numeral_cons, hzero, Nat.mul_zero, Nat.zero_add]
      · rw [withoutZeros, List.dropWhile_cons_of_neg (by simp [hc])]

theorem digits_withoutZeros {t : Text} (h : ∀ c ∈ t, c.isDigit = true) :
    ∀ c ∈ withoutZeros t, c.isDigit = true :=
  fun c hc => h c ((List.dropWhile_suffix _).subset hc)

theorem head_withoutZeros {t rest : Text} : withoutZeros t ≠ '0' :: rest := by
  intro heq
  have hhead := List.head?_dropWhile_not (fun c => c == '0') t
  rw [← withoutZeros, heq] at hhead
  simp at hhead

/-- Without leading zeros, the number of digits is what the number needs. -/
theorem length_le_of_numeral {t u : Text} (ht : ∀ c ∈ t, c.isDigit = true)
    (hu : ∀ c ∈ u, c.isDigit = true) (hzero : ∀ rest, u ≠ '0' :: rest)
    (heq : numeral t = numeral u) : u.length ≤ t.length := by
  cases u with
  | nil => exact Nat.zero_le _
  | cons d u =>
      have hrange := digit_range (hu d List.mem_cons_self)
      have hd : 1 ≤ d.toNat - 48 := by
        have hne : d.toNat ≠ ('0' : Char).toNat := by
          intro hd
          exact hzero u (by rw [Char.toNat_inj.mp hd])
        have hval : ('0' : Char).toNat = 48 := rfl
        omega
      have hfirst : 10 ^ u.length * 1 ≤ 10 ^ u.length * (d.toNat - 48) :=
        Nat.mul_le_mul_left _ hd
      have hpow : 10 ^ u.length < 10 ^ t.length := by
        have hlt := numeral_lt ht
        rw [heq, numeral_cons] at hlt
        omega
      exact (Nat.pow_lt_pow_iff_right (by omega)).mp hpow

/-- Texts of digits write one number exactly when they are the same but for leading zeros. -/
theorem numeral_eq_iff {t u : Text} (ht : ∀ c ∈ t, c.isDigit = true)
    (hu : ∀ c ∈ u, c.isDigit = true) :
    numeral t = numeral u ↔ withoutZeros t = withoutZeros u := by
  constructor
  · intro heq
    have ht' := digits_withoutZeros ht
    have hu' := digits_withoutZeros hu
    have heq' : numeral (withoutZeros t) = numeral (withoutZeros u) := by
      rw [numeral_withoutZeros, numeral_withoutZeros, heq]
    have hlength : (withoutZeros t).length = (withoutZeros u).length :=
      Nat.le_antisymm (length_le_of_numeral hu' ht' (fun _ => head_withoutZeros) heq'.symm)
        (length_le_of_numeral ht' hu' (fun _ => head_withoutZeros) heq')
    exact eq_of_numeral ht' hu' hlength heq'
  · intro heq
    rw [← numeral_withoutZeros t, heq, numeral_withoutZeros]

end Xwr100.Www
