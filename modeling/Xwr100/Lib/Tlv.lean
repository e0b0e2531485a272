import Mathlib.Tactic.Common

/-! # Type, length, value

A field of memory read as a sequence of triples: a type byte, a length byte, and that many
bytes of data.  One type byte is padding and stands alone, another ends the field.  Reading
fails if the field comes to an end first, inside a triple or between two.
-/

namespace Xwr100.Lib

/-- A triple: its type, where its data is, and how many bytes it has. -/
structure Triple where
  type : UInt8
  pos : Nat
  length : Nat
deriving DecidableEq, Repr

/-- The triples from index `i` of a field on, and whether the field is ended after them. -/
def readTriples (mem : Nat → UInt8) (pad stop : UInt8) (base size : Nat) :
    Nat → Nat → List Triple × Bool
  | 0, _ => ([], false)
  | fuel + 1, i =>
      if size ≤ i then ([], false)
      else if mem (base + i) = pad then readTriples mem pad stop base size fuel (i + 1)
      else if mem (base + i) = stop then ([], true)
      else
        let length := (mem (base + i + 1)).toNat
        if size < i + 2 + length then ([], false)
        else
          let rest := readTriples mem pad stop base size fuel (i + 2 + length)
          (⟨mem (base + i), base + i + 2, length⟩ :: rest.1, rest.2)

/-- The triples of a whole field: every one takes a byte at least. -/
def fieldTriples (mem : Nat → UInt8) (pad stop : UInt8) (base size : Nat) : List Triple × Bool :=
  readTriples mem pad stop base size size 0

/-- Where the data of the first triple of a type is; what follows the field decides if it is
ended and has none. -/
def firstOf (type : UInt8) (field : List Triple × Bool) (rest : Option Nat) : Option Nat :=
  match field.1.find? (·.type = type) with
  | some t => some t.pos
  | none => if field.2 then rest else none

/-- The triples in front of the first one of a type. -/
def inFront (type : UInt8) (field : List Triple × Bool) : List Triple :=
  field.1.takeWhile (·.type ≠ type)

/-- The field is ended and has no triple of the type. -/
def Passes (type : UInt8) (field : List Triple × Bool) : Prop :=
  field.1.find? (·.type = type) = none ∧ field.2 = true

variable {mem : Nat → UInt8} {pad stop type : UInt8} {base size fuel i : Nat}

theorem readTriples_pad (hi : i < size) (h : mem (base + i) = pad) :
    readTriples mem pad stop base size (fuel + 1) i =
      readTriples mem pad stop base size fuel (i + 1) := by
  rw [readTriples, if_neg (Nat.not_le_of_lt hi), if_pos h]

theorem readTriples_stop (hi : i < size) (hpad : mem (base + i) ≠ pad)
    (h : mem (base + i) = stop) :
    readTriples mem pad stop base size (fuel + 1) i = ([], true) := by
  rw [readTriples, if_neg (Nat.not_le_of_lt hi), if_neg hpad, if_pos h]

theorem readTriples_broken (h : size < i + 2 + (mem (base + i + 1)).toNat)
    (hpad : mem (base + i) ≠ pad) (hstop : mem (base + i) ≠ stop) :
    readTriples mem pad stop base size (fuel + 1) i = ([], false) := by
  rw [readTriples, if_neg hpad, if_neg hstop]
  dsimp only
  rw [if_pos h]
  split <;> rfl

theorem readTriples_triple (h : i + 2 + (mem (base + i + 1)).toNat ≤ size)
    (hpad : mem (base + i) ≠ pad) (hstop : mem (base + i) ≠ stop) :
    readTriples mem pad stop base size (fuel + 1) i =
      (⟨mem (base + i), base + i + 2, (mem (base + i + 1)).toNat⟩ ::
        (readTriples mem pad stop base size fuel (i + 2 + (mem (base + i + 1)).toNat)).1,
        (readTriples mem pad stop base size fuel (i + 2 + (mem (base + i + 1)).toNat)).2) := by
  rw [readTriples, if_neg (by omega), if_neg hpad, if_neg hstop]
  dsimp only
  rw [if_neg (Nat.not_lt_of_le h)]

theorem readTriples_after (h : size ≤ i) :
    readTriples mem pad stop base size fuel i = ([], false) := by
  cases fuel with
  | zero => rfl
  | succ fuel => rw [readTriples, if_pos h]

theorem firstOf_head {t : Triple} {ts : List Triple} {ended : Bool} {rest : Option Nat}
    (h : t.type = type) : firstOf type (t :: ts, ended) rest = some t.pos := by
  simp [firstOf, h]

theorem firstOf_cons {t : Triple} {ts : List Triple} {ended : Bool} {rest : Option Nat}
    (h : t.type ≠ type) : firstOf type (t :: ts, ended) rest = firstOf type (ts, ended) rest := by
  simp [firstOf, h]

theorem inFront_cons {t : Triple} {ts : List Triple} {ended : Bool} (h : t.type ≠ type) :
    inFront type (t :: ts, ended) = t :: inFront type (ts, ended) := by
  simp [inFront, h]

theorem passes_cons {t : Triple} {ts : List Triple} {ended : Bool} (h : t.type ≠ type) :
    Passes type (t :: ts, ended) ↔ Passes type (ts, ended) := by
  simp [Passes, h]

end Xwr100.Lib
