import Mathlib.Data.List.Basic

/-! # Texts printed with a format

A format is cut at its conversions.  Printing puts the arguments between the pieces; scanning
takes them out again when every piece behind an argument begins with a character that none of the
arguments has.
-/

namespace Xwr100.Lib

/-- `sprintf` with the format cut at its conversions. -/
def sprintf : List String → List String → String
  | t :: ts, a :: as => t ++ (a ++ sprintf ts as)
  | t :: _, [] => t
  | [], _ => ""

/-! ## Sizes -/

def totalSize : List String → Nat
  | [] => 0
  | t :: ts => t.utf8ByteSize + totalSize ts

@[simp] theorem totalSize_nil : totalSize [] = 0 := rfl

@[simp] theorem totalSize_cons (t : String) (ts : List String) :
    totalSize (t :: ts) = t.utf8ByteSize + totalSize ts := rfl

theorem sprintf_size {format args : List String} (h : format.length = args.length + 1) :
    (sprintf format args).utf8ByteSize = totalSize format + totalSize args := by
  induction args generalizing format with
  | nil =>
      obtain ⟨t, rfl⟩ := List.length_eq_one_iff.mp h
      simp [sprintf]
  | cons a as ih =>
      cases format with
      | nil => cases h
      | cons t ts =>
          have hrest := ih (Nat.succ.inj h)
          simp only [sprintf, String.utf8ByteSize_append, hrest, totalSize_cons]
          omega

/-! ## Scanning -/

/-- The arguments a text was printed with, each read up to `stop`. -/
def scan (stop : Char) : List String → List Char → Option (List String)
  | [], _ => none
  | [t], text => if text = t.toList then some [] else none
  | t :: u :: ts, text =>
      if t.toList <+: text then
        let rest := text.drop t.toList.length
        let arg := rest.takeWhile (· ≠ stop)
        (scan stop (u :: ts) (rest.drop arg.length)).map (String.ofList arg :: ·)
      else none

theorem takeWhile_argument {stop : Char} {a : List Char} (ha : stop ∉ a) (rest : List Char) :
    (a ++ stop :: rest).takeWhile (· ≠ stop) = a := by
  have hall : ∀ c ∈ a, decide (c ≠ stop) = true := by
    intro c hc
    rw [decide_eq_true_eq]
    rintro rfl
    exact ha hc
  rw [List.takeWhile_append_of_pos hall]
  simp

theorem scan_sprintf {stop : Char} {t : String} {ts args : List String}
    (hlength : args.length = ts.length) (hstop : ∀ u ∈ ts, u.toList.head? = some stop)
    (hargs : ∀ a ∈ args, stop ∉ a.toList) :
    scan stop (t :: ts) (sprintf (t :: ts) args).toList = some args := by
  induction args generalizing t ts with
  | nil =>
      obtain rfl : ts = [] := List.length_eq_zero_iff.mp hlength.symm
      simp [sprintf, scan]
  | cons a as ih =>
      cases ts with
      | nil => cases hlength
      | cons u us =>
          have hrest := @ih u us (Nat.succ.inj hlength)
            (fun v hv => hstop v (List.mem_cons_of_mem u hv))
            (fun b hb => hargs b (List.mem_cons_of_mem a hb))
          -- what is printed behind the argument begins with `stop`
          obtain ⟨cs, hcs⟩ : ∃ cs, (sprintf (u :: us) as).toList = stop :: cs := by
            obtain ⟨cs, hu⟩ := List.head?_eq_some_iff.mp (hstop u List.mem_cons_self)
            cases as with
            | nil => exact ⟨cs, hu⟩
            | cons b bs =>
                refine ⟨cs ++ (b ++ sprintf us bs).toList, ?_⟩
                rw [sprintf, String.toList_append, hu, List.cons_append]
          have harg := takeWhile_argument (hargs a List.mem_cons_self) cs
          have hprinted : (sprintf (t :: u :: us) (a :: as)).toList =
              t.toList ++ (a.toList ++ stop :: cs) := by
            simp only [sprintf, String.toList_append, hcs]
          rw [hcs] at hrest
          rw [hprinted, scan, if_pos (List.prefix_append _ _), List.drop_left]
          simp only [harg, List.drop_left, hrest, Option.map_some, String.ofList_toList]

end Xwr100.Lib
