import Xwr100.Lib.Tlv
import Xwr100.Udhcpd.OptionScan

/-!
# `get_option` and the reading of RFC 2132

What a packet's options are: the triples of the option field, and of the `file` and `sname`
fields if the overload option says so.  The scan of `get_option` follows that reading until it
comes to an overload option, whose value it reads one byte late and whose length it takes
from the field's first option; and it looks into `sname` only after `file`.
-/

namespace Xwr100.Udhcpd

open Lib

variable {m : DhcpMessage} {code : UInt8} {field : OptionField}

namespace OptionField

def base : OptionField → Nat
  | .options => 240
  | .file => 108
  | .sname => 44

def size : OptionField → Nat
  | .options => 308
  | .file => 128
  | .sname => 64

end OptionField

/-! ## The reference -/

def DhcpMessage.reading (m : DhcpMessage) (field : OptionField) : List Triple × Bool :=
  fieldTriples m.mem dhcpPadding dhcpEnd field.base field.size

def overloadBits (m : DhcpMessage) (options : List Triple) : UInt8 :=
  options.foldl
    (fun bits t => if t.type = dhcpOptionOver ∧ 0 < t.length then bits ||| m.mem t.pos else bits) 0

/-- A field that is read if the bit of an overload option before it is set. -/
def DhcpMessage.overloaded (m : DhcpMessage) (field : OptionField) (bit : UInt8)
    (before : List Triple) : List Triple × Bool :=
  if overloadBits m before &&& bit ≠ 0 then m.reading field else ([], true)

/-- The options in the `file` field, and those in the `sname` field. -/
def DhcpMessage.fileReading (m : DhcpMessage) : List Triple × Bool :=
  m.overloaded .file 1 (m.reading .options).1

def DhcpMessage.snameReading (m : DhcpMessage) : List Triple × Bool :=
  m.overloaded .sname 2 ((m.reading .options).1 ++ m.fileReading.1)

/-- The data position of the first occurrence of an option in the packet. -/
def referenceOption (m : DhcpMessage) (code : UInt8) : Option Nat :=
  firstOf code (m.reading .options) (firstOf code m.fileReading (firstOf code m.snameReading none))

/-! ## What the scan makes of an overload option -/

/-- The byte behind the first data byte of the last overload option. -/
def overloadSeen (m : DhcpMessage) (overload : UInt8) (options : List Triple) : UInt8 :=
  options.foldl (fun o t => if t.type = dhcpOptionOver then m.mem (t.pos + 1) else o) overload

/-- The overload options in front of the one that is looked for are as long as the first option of
the field. -/
def SkipsOverload (m : DhcpMessage) (code : UInt8) (field : OptionField) : Prop :=
  ∀ t ∈ inFront code (m.reading field), t.type = dhcpOptionOver →
    t.length = (m.mem (field.base + 1)).toNat

/-- The scan passes every overload option by its own length, enters a field exactly if the field is
overloaded, and does not miss the option in an `sname` field that is overloaded alone. -/
structure ReadsOverload (m : DhcpMessage) (code : UInt8) : Prop where
  options : SkipsOverload m code .options
  fileBit : Passes code (m.reading .options) →
    (overloadSeen m 0 (m.reading .options).1 &&& 1 ≠ 0 ↔
      overloadBits m (m.reading .options).1 &&& 1 ≠ 0)
  file : Passes code (m.reading .options) → overloadBits m (m.reading .options).1 &&& 1 ≠ 0 →
    SkipsOverload m code .file
  snameBit : Passes code (m.reading .options) → overloadBits m (m.reading .options).1 &&& 1 ≠ 0 →
    Passes code (m.reading .file) →
    (overloadSeen m 0 ((m.reading .options).1 ++ (m.reading .file).1) &&& 2 ≠ 0 ↔
      overloadBits m ((m.reading .options).1 ++ (m.reading .file).1) &&& 2 ≠ 0)
  sname : Passes code (m.reading .options) → overloadBits m (m.reading .options).1 &&& 1 ≠ 0 →
    Passes code (m.reading .file) → SkipsOverload m code .sname
  alone : Passes code (m.reading .options) → ¬overloadBits m (m.reading .options).1 &&& 1 ≠ 0 →
    firstOf code m.snameReading none = none

def OptionField.at_ (field : OptionField) (i : Nat) (overload : UInt8) : OptionScan :=
  ⟨field.base, i, field.size, overload, field⟩

/-- What the scan returns once it has met the end of a field. -/
def ReturnsAfter (m : DhcpMessage) (code : UInt8) (field : OptionField) (overload : UInt8)
    (result : Option Nat) : Prop :=
  match (field.at_ 0 overload).next with
  | some scan' => ScanReturns m code scan' result
  | none => result = none

theorem next_options (overload : UInt8) :
    (OptionField.options.at_ 0 overload).next =
      if overload &&& 1 ≠ 0 then some (OptionField.file.at_ 0 overload) else none := by
  unfold OptionScan.next OptionField.at_
  by_cases hbit : overload &&& 1 ≠ 0
  · rw [if_pos ⟨rfl, hbit⟩, if_pos hbit]
    rfl
  · rw [if_neg fun h => hbit h.2, if_neg fun h => OptionField.noConfusion h.1, if_neg hbit]

theorem next_file (overload : UInt8) :
    (OptionField.file.at_ 0 overload).next =
      if overload &&& 2 ≠ 0 then some (OptionField.sname.at_ 0 overload) else none := by
  unfold OptionScan.next OptionField.at_
  rw [if_neg fun h => OptionField.noConfusion h.1]
  by_cases hbit : overload &&& 2 ≠ 0
  · rw [if_pos ⟨rfl, hbit⟩, if_pos hbit]
    rfl
  · rw [if_neg fun h => hbit h.2, if_neg hbit]

theorem returns_end {i : Nat} {overload : UInt8} {result : Option Nat} (hi : i < field.size)
    (hcode : code ≠ dhcpEnd) (hend : m.mem (field.base + i) = dhcpEnd)
    (h : ReturnsAfter m code field overload result) :
    ScanReturns m code (field.at_ i overload) result := by
  have hbyte : (field.at_ i overload).byte m i = dhcpEnd := hend
  have hne : (field.at_ i overload).byte m i ≠ code := by
    rw [hbyte]
    exact hcode.symm
  have hturn := OptionScan.turn_end (field.at_ i overload) hi hne hbyte
  have hnext : (field.at_ i overload).next = (field.at_ 0 overload).next := rfl
  rw [hnext] at hturn
  unfold ReturnsAfter at h
  cases hcase : (field.at_ 0 overload).next with
  | some scan' =>
      rw [hcase] at h hturn
      exact .after hturn h
  | none =>
      rw [hcase] at h hturn
      rw [h]
      exact .now hturn

/-- An option that does not fit into the field is no triple, and the scan returns nothing. -/
theorem returns_broken {i : Nat} {overload : UInt8} (hi : i < field.size)
    (hpad : m.mem (field.base + i) ≠ dhcpPadding) (hstop : m.mem (field.base + i) ≠ dhcpEnd)
    (hlong : (field.at_ i overload).Overruns m) :
    ScanReturns m code (field.at_ i overload) none := by
  by_cases hc : m.mem (field.base + i) = code
  · have hturn := OptionScan.turn_code (field.at_ i overload) hi hc
    rw [if_pos hlong] at hturn
    exact .now hturn
  by_cases ho : m.mem (field.base + i) = dhcpOptionOver
  · have hturn := OptionScan.turn_over (field.at_ i overload) hi hc ho
    rw [if_pos hlong] at hturn
    exact .now hturn
  -- any other option is passed, and the scan is behind the field
  refine .after (OptionScan.turn_other _ hi hc hpad ho hstop) (.now (OptionScan.turn_after _ ?_))
  have hle : field.size ≤ i + 1 + (m.mem (field.base + i + 1)).toNat := hlong
  have hbehind : field.size ≤ i + ((m.mem (field.base + i + 1)).toNat + 2) := by omega
  exact hbehind

theorem overloadSeen_cons_over {t : Triple} (h : t.type = dhcpOptionOver) (overload : UInt8)
    (ts : List Triple) :
    overloadSeen m overload (t :: ts) = overloadSeen m (m.mem (t.pos + 1)) ts := by
  rw [overloadSeen, List.foldl_cons, if_pos h]
  rfl

theorem overloadSeen_cons_other {t : Triple} (h : t.type ≠ dhcpOptionOver) (overload : UInt8)
    (ts : List Triple) : overloadSeen m overload (t :: ts) = overloadSeen m overload ts := by
  rw [overloadSeen, List.foldl_cons, if_neg h]
  rfl

theorem returns_reading (hpad : code ≠ dhcpPadding) (hend : code ≠ dhcpEnd) {fuel i : Nat}
    {overload : UInt8} {result : Option Nat}
    (hfuel : field.size - i ≤ fuel)
    (hskip : ∀ t ∈ inFront code (readTriples m.mem dhcpPadding dhcpEnd field.base field.size
        fuel i), t.type = dhcpOptionOver → t.length = (m.mem (field.base + 1)).toNat)
    (hrest : Passes code (readTriples m.mem dhcpPadding dhcpEnd field.base field.size fuel i) →
      ReturnsAfter m code field (overloadSeen m overload
        (readTriples m.mem dhcpPadding dhcpEnd field.base field.size fuel i).1) result) :
    ScanReturns m code (field.at_ i overload)
      (firstOf code (readTriples m.mem dhcpPadding dhcpEnd field.base field.size fuel i)
        result) := by
  induction fuel generalizing i overload with
  | zero => exact .now (OptionScan.turn_after _ (Nat.le_of_sub_eq_zero (Nat.le_zero.mp hfuel)))
  | succ fuel ih =>
      by_cases hafter : field.size ≤ i
      · rw [readTriples_after hafter]
        exact .now (OptionScan.turn_after _ hafter)
      have hi : i < field.size := Nat.lt_of_not_le hafter
      have hbyte : (field.at_ i overload).byte m i = m.mem (field.base + i) := rfl
      by_cases hp : m.mem (field.base + i) = dhcpPadding
      · rw [readTriples_pad hi hp] at hskip hrest ⊢
        have hne : (field.at_ i overload).byte m i ≠ code := by
          rw [hbyte, hp]
          exact hpad.symm
        have hfuel' : field.size - (i + 1) ≤ fuel := by omega
        exact .after (OptionScan.turn_padding _ hi hne hp) (ih hfuel' hskip hrest)
      by_cases hs : m.mem (field.base + i) = dhcpEnd
      · rw [readTriples_stop hi hp hs] at hrest ⊢
        exact returns_end hi hend hs (hrest ⟨rfl, rfl⟩)
      by_cases hlong : (field.at_ i overload).Overruns m
      · have hbroken : field.size < i + 2 + (m.mem (field.base + i + 1)).toNat := by
          have hle : field.size ≤ i + 1 + (m.mem (field.base + i + 1)).toNat := hlong
          omega
        rw [readTriples_broken hbroken hp hs]
        exact returns_broken hi hp hs hlong
      have hfits : i + 2 + (m.mem (field.base + i + 1)).toNat ≤ field.size := by
        have hlt : ¬field.size ≤ i + 1 + (m.mem (field.base + i + 1)).toNat := hlong
        omega
      rw [readTriples_triple hfits hp hs] at hskip hrest ⊢
      by_cases hc : m.mem (field.base + i) = code
      · have hturn := OptionScan.turn_code (field.at_ i overload) hi hc
        rw [if_neg hlong] at hturn
        rw [firstOf_head hc]
        exact .now hturn
      rw [firstOf_cons hc]
      rw [inFront_cons hc] at hskip
      rw [passes_cons hc] at hrest
      have hskip' := fun t ht => hskip t (List.mem_cons_of_mem _ ht)
      have hfuel' : field.size - (i + 2 + (m.mem (field.base + i + 1)).toNat) ≤ fuel := by omega
      have hadvance : i + ((m.mem (field.base + i + 1)).toNat + 2) =
          i + 2 + (m.mem (field.base + i + 1)).toNat := by omega
      by_cases ho : m.mem (field.base + i) = dhcpOptionOver
      · have hturn := OptionScan.turn_over (field.at_ i overload) hi hc ho
        rw [if_neg hlong] at hturn
        have hlength : (m.mem (field.base + i + 1)).toNat = (m.mem (field.base + 1)).toNat :=
          hskip _ List.mem_cons_self ho
        have hnext := @ih _ (m.mem (field.base + i + 3)) hfuel' hskip' fun hpass => by
          have hafter := hrest hpass
          rwa [overloadSeen_cons_over ho] at hafter
        rw [← hadvance, hlength] at hnext
        rw [← hadvance, hlength]
        exact .after hturn hnext
      · have hturn := OptionScan.turn_other (field.at_ i overload) hi hc hp ho hs
        have hnext := @ih _ overload hfuel' hskip' fun hpass => by
          have hafter := hrest hpass
          rwa [overloadSeen_cons_other ho] at hafter
        rw [← hadvance] at hnext ⊢
        exact .after hturn hnext

/-! ## The fields together -/

theorem returns_field (hpad : code ≠ dhcpPadding) (hend : code ≠ dhcpEnd)
    (hskip : SkipsOverload m code field) {overload : UInt8} {result : Option Nat}
    (hrest : Passes code (m.reading field) →
      ReturnsAfter m code field (overloadSeen m overload (m.reading field).1) result) :
    ScanReturns m code (field.at_ 0 overload) (firstOf code (m.reading field) result) := by
  have hfuel : field.size - 0 ≤ field.size := Nat.le_refl _
  exact returns_reading hpad hend hfuel hskip hrest

theorem returnsAfter_sname (overload : UInt8) : ReturnsAfter m code .sname overload none := rfl

theorem returnsAfter_file (hpad : code ≠ dhcpPadding) (hend : code ≠ dhcpEnd)
    (h : ReadsOverload m code) (hpass : Passes code (m.reading .options))
    (hbit : overloadBits m (m.reading .options).1 &&& 1 ≠ 0)
    (hfile : Passes code (m.reading .file)) :
    ReturnsAfter m code .file
      (overloadSeen m 0 ((m.reading .options).1 ++ (m.reading .file).1))
      (firstOf code m.snameReading none) := by
  have hread : m.fileReading = m.reading .file := if_pos hbit
  have hiff := h.snameBit hpass hbit hfile
  unfold ReturnsAfter DhcpMessage.snameReading DhcpMessage.overloaded
  rw [hread]
  by_cases hseen : overloadSeen m 0 ((m.reading .options).1 ++ (m.reading .file).1) &&& 2 ≠ 0
  · rw [if_pos (hiff.mp hseen), next_file, if_pos hseen]
    exact returns_field hpad hend (h.sname hpass hbit hfile) fun _ => returnsAfter_sname _
  · rw [if_neg (mt hiff.mpr hseen), next_file, if_neg hseen]
    rfl

theorem returnsAfter_options (hpad : code ≠ dhcpPadding) (hend : code ≠ dhcpEnd)
    (h : ReadsOverload m code) (hpass : Passes code (m.reading .options)) :
    ReturnsAfter m code .options (overloadSeen m 0 (m.reading .options).1)
      (firstOf code m.fileReading (firstOf code m.snameReading none)) := by
  have hiff := h.fileBit hpass
  unfold ReturnsAfter
  by_cases hseen : overloadSeen m 0 (m.reading .options).1 &&& 1 ≠ 0
  · have hbit := hiff.mp hseen
    have hread : m.fileReading = m.reading .file := if_pos hbit
    rw [next_options, if_pos hseen, hread]
    apply returns_field hpad hend (h.file hpass hbit)
    intro hfile
    have hsname := returnsAfter_file hpad hend h hpass hbit hfile
    rw [overloadSeen, List.foldl_append] at hsname
    exact hsname
  · have hbit := mt hiff.mpr hseen
    have hread : m.fileReading = ([], true) := if_neg hbit
    rw [next_options, if_neg hseen, hread]
    exact h.alone hpass hbit

/-- For every packet the scan returns; and for every code but padding and end with the reading's
result, if it reads the overload options in front of it as they are. -/
theorem getOption_reading (m : DhcpMessage) (code : UInt8) (vizio : Bool) :
    ScanReturns m code .start (getOption m code vizio).1 ∧
      (code ≠ dhcpPadding → code ≠ dhcpEnd → ReadsOverload m code →
        (getOption m code vizio).1 = referenceOption m code) := by
  rw [getOption_fst]
  have hreturns := returns_findOption m code
  refine ⟨hreturns, fun hpad hend h => ?_⟩
  have hreading : ScanReturns m code (OptionField.options.at_ 0 0) (referenceOption m code) :=
    returns_field hpad hend h.options (returnsAfter_options hpad hend h)
  exact hreturns.unique hreading

/-- The overload option comes first and the end right behind it; the name is in the `file` field. -/
theorem getOption_reading_file :
    ScanReturns (.ofFields [0x34, 1, 3, 0xff] [0x0c, 1, 0x70, 0xff] [0xff]) dhcpHostName .start
      (getOption (.ofFields [0x34, 1, 3, 0xff] [0x0c, 1, 0x70, 0xff] [0xff]) dhcpHostName true).1 ∧
    (getOption (.ofFields [0x34, 1, 3, 0xff] [0x0c, 1, 0x70, 0xff] [0xff]) dhcpHostName true).1 =
      referenceOption (.ofFields [0x34, 1, 3, 0xff] [0x0c, 1, 0x70, 0xff] [0xff])
        dhcpHostName := by
  have hread := getOption_reading (.ofFields [0x34, 1, 3, 0xff] [0x0c, 1, 0x70, 0xff] [0xff])
    dhcpHostName true
  refine ⟨hread.1, hread.2 (by decide) (by decide) ?_⟩
  have hfound : ¬Passes dhcpHostName
      ((DhcpMessage.ofFields [0x34, 1, 3, 0xff] [0x0c, 1, 0x70, 0xff] [0xff]).reading .file) := by
    unfold Passes
    decide +kernel
  constructor
  · unfold SkipsOverload
    decide +kernel
  · intro _
    decide +kernel
  · intro _ _
    unfold SkipsOverload
    decide +kernel
  · exact fun _ _ hpass => absurd hpass hfound
  · exact fun _ _ hpass => absurd hpass hfound
  · intro _ hbit
    refine absurd ?_ hbit
    decide +kernel

/-- The message type behind an overload option is not found if the first option is not as long as
the overload option; and a name in the `sname` field is not if that is overloaded alone. -/
theorem getOption_misreads :
    (getOption (.ofFields [0x32, 4, 192, 168, 1, 5, 0x34, 1, 1, 0x35, 1, 3, 0xff] [] [])
        dhcpMessageType false).1 ≠
      referenceOption (.ofFields [0x32, 4, 192, 168, 1, 5, 0x34, 1, 1, 0x35, 1, 3, 0xff] [] [])
        dhcpMessageType ∧
    (getOption (.ofFields [0x35, 1, 3, 0x34, 1, 2, 0xff] [] [0x0c, 1, 0x70, 0xff])
        dhcpHostName false).1 ≠
      referenceOption (.ofFields [0x35, 1, 3, 0x34, 1, 2, 0xff] [] [0x0c, 1, 0x70, 0xff])
        dhcpHostName := by
  decide +kernel

end Xwr100.Udhcpd
