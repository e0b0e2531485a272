import Xwr100.Udhcpd.Message

/-!
# The scan of `get_option`, turn by turn

What one turn of the loop does to the scan and to the global it sets.  The loop returns on every
packet: each turn advances in the field or enters the next one.
-/

namespace Xwr100.Udhcpd

/-- A message with these bytes in the three fields, everything else zero. -/
def DhcpMessage.ofFields (options file sname : List UInt8) : DhcpMessage where
  mem pos :=
    if 240 ≤ pos then options.getD (pos - 240) 0
    else if 108 ≤ pos then file.getD (pos - 108) 0
    else if 44 ≤ pos then sname.getD (pos - 44) 0
    else 0

variable {m : DhcpMessage} {code : UInt8}

deriving instance DecidableEq for OptionScan

inductive Turn where
  | goes (scan : OptionScan)
  | returns (result : Option Nat)
deriving DecidableEq

namespace OptionScan

/-- The data of the option at the index would reach the end of the field. -/
def Overruns (scan : OptionScan) (m : DhcpMessage) : Prop :=
  scan.length ≤ scan.i + 1 + (scan.byte m (scan.i + 1)).toNat

instance (scan : OptionScan) (m : DhcpMessage) : Decidable (scan.Overruns m) :=
  inferInstanceAs (Decidable (_ ≤ _))

def turn (scan : OptionScan) (m : DhcpMessage) (code : UInt8) : Turn :=
  if scan.length ≤ scan.i then .returns none
  else if scan.byte m scan.i = code then
    if scan.Overruns m then .returns none else .returns (some (scan.optionptr + scan.i + 2))
  else if scan.byte m scan.i = dhcpPadding then .goes { scan with i := scan.i + 1 }
  else if scan.byte m scan.i = dhcpOptionOver then
    if scan.Overruns m then .returns none
    else
      .goes
        { scan with
          overload := scan.byte m (scan.i + 3)
          i := scan.i + ((scan.byte m 1).toNat + 2) }
  else if scan.byte m scan.i = dhcpEnd then
    match scan.next with
    | some scan' => .goes scan'
    | none => .returns none
  else .goes { scan with i := scan.i + ((scan.byte m (scan.i + 1)).toNat + 2) }

section Turns

variable (scan : OptionScan)

theorem turn_after (h : scan.length ≤ scan.i) : scan.turn m code = .returns none := if_pos h

theorem turn_code (hi : scan.i < scan.length) (h : scan.byte m scan.i = code) :
    scan.turn m code =
      if scan.Overruns m then .returns none else .returns (some (scan.optionptr + scan.i + 2)) := by
  rw [turn, if_neg (Nat.not_le_of_lt hi), if_pos h]

theorem turn_padding (hi : scan.i < scan.length) (hcode : scan.byte m scan.i ≠ code)
    (h : scan.byte m scan.i = dhcpPadding) :
    scan.turn m code = .goes { scan with i := scan.i + 1 } := by
  rw [turn, if_neg (Nat.not_le_of_lt hi), if_neg hcode, if_pos h]

theorem turn_over (hi : scan.i < scan.length) (hcode : scan.byte m scan.i ≠ code)
    (h : scan.byte m scan.i = dhcpOptionOver) :
    scan.turn m code =
      if scan.Overruns m then .returns none
      else
        .goes
          { scan with
            overload := scan.byte m (scan.i + 3)
            i := scan.i + ((scan.byte m 1).toNat + 2) } := by
  rw [turn, if_neg (Nat.not_le_of_lt hi), if_neg hcode, if_neg (by rw [h]; decide), if_pos h]

theorem turn_end (hi : scan.i < scan.length) (hcode : scan.byte m scan.i ≠ code)
    (h : scan.byte m scan.i = dhcpEnd) :
    scan.turn m code =
      match scan.next with
      | some scan' => .goes scan'
      | none => .returns none := by
  rw [turn, if_neg (Nat.not_le_of_lt hi), if_neg hcode, if_neg (by rw [h]; decide),
    if_neg (by rw [h]; decide), if_pos h]

theorem turn_other (hi : scan.i < scan.length) (hcode : scan.byte m scan.i ≠ code)
    (hpad : scan.byte m scan.i ≠ dhcpPadding) (hover : scan.byte m scan.i ≠ dhcpOptionOver)
    (hstop : scan.byte m scan.i ≠ dhcpEnd) :
    scan.turn m code =
      .goes { scan with i := scan.i + ((scan.byte m (scan.i + 1)).toNat + 2) } := by
  rw [turn, if_neg (Nat.not_le_of_lt hi), if_neg hcode, if_neg hpad, if_neg hover, if_neg hstop]

end Turns

def later (scan : OptionScan) : Nat :=
  match scan.curr with
  | .options => 192
  | .file => 64
  | .sname => 0

def turnsLeft (scan : OptionScan) : Nat := scan.length - scan.i + scan.later

end OptionScan

theorem OptionScan.overruns_iff {scan : OptionScan} :
    scan.Overruns m ↔ scan.length ≤ scan.i + 1 + (scan.byte m (scan.i + 1)).toNat := Iff.rfl

/-- What a turn that goes on makes of the global: it is set by every vendor class it passes. -/
def OptionScan.vendorFlag (scan : OptionScan) (m : DhcpMessage) (v : Bool) : Bool :=
  if scan.byte m scan.i = dhcpVendor then isVizio m (scan.optionptr + scan.i + 2) else v

open OptionScan in
/-- The loop turns as `turn` says. -/
theorem getOptionLoop_turn (fuel : Nat) (scan : OptionScan) (v : Bool) :
    getOptionLoop m code (fuel + 1) scan v =
      match scan.turn m code with
      | .goes scan' => getOptionLoop m code fuel scan' (scan.vendorFlag m v)
      | .returns result => (result, v) := by
  rw [getOptionLoop, OptionScan.turn, OptionScan.vendorFlag]
  dsimp only
  by_cases hend : scan.length ≤ scan.i
  · rw [if_pos hend, if_pos hend]
  rw [if_neg hend, if_neg hend]
  by_cases hcode : scan.byte m scan.i = code
  · rw [if_pos hcode, if_pos hcode]
    by_cases hlong : scan.Overruns m
    · rw [if_pos (overruns_iff.mp hlong), if_pos hlong]
    · rw [if_neg (mt overruns_iff.mpr hlong), if_neg hlong]
  rw [if_neg hcode, if_neg hcode]
  -- a vendor class is passed like any other option
  by_cases hvendor : scan.byte m scan.i = dhcpVendor
  · rw [if_pos hvendor, if_pos hvendor, hvendor, if_neg (by decide), if_neg (by decide),
      if_neg (by decide)]
  rw [if_neg hvendor, if_neg hvendor]
  by_cases hpad : scan.byte m scan.i = dhcpPadding
  · rw [if_pos hpad, if_pos hpad]
  rw [if_neg hpad, if_neg hpad]
  by_cases hover : scan.byte m scan.i = dhcpOptionOver
  · rw [if_pos hover, if_pos hover]
    by_cases hlong : scan.Overruns m
    · rw [if_pos (overruns_iff.mp hlong), if_pos hlong]
    · rw [if_neg (mt overruns_iff.mpr hlong), if_neg hlong]
  rw [if_neg hover, if_neg hover]
  by_cases hstop : scan.byte m scan.i = dhcpEnd
  · rw [if_pos hstop, if_pos hstop]
    cases scan.next with
    | none => rfl
    | some scan' => rfl
  rw [if_neg hstop, if_neg hstop]

inductive ScanReturns (m : DhcpMessage) (code : UInt8) : OptionScan → Option Nat → Prop
  | now {scan : OptionScan} {result : Option Nat} (h : scan.turn m code = .returns result) :
      ScanReturns m code scan result
  | after {scan scan' : OptionScan} {result : Option Nat} (h : scan.turn m code = .goes scan')
      (hrest : ScanReturns m code scan' result) : ScanReturns m code scan result

theorem ScanReturns.unique {scan : OptionScan} {result result' : Option Nat}
    (h : ScanReturns m code scan result) (h' : ScanReturns m code scan result') :
    result = result' := by
  induction h with
  | now hturn =>
      cases h' with
      | now hturn' => exact Turn.returns.inj (hturn.symm.trans hturn')
      | after hturn' _ => cases hturn.symm.trans hturn'
  | after hturn _ ih =>
      cases h' with
      | now hturn' => cases hturn.symm.trans hturn'
      | after hturn' hrest' =>
          obtain rfl := Turn.goes.inj (hturn.symm.trans hturn')
          exact ih hrest'

namespace OptionScan

theorem turnsLeft_next {scan scan' : OptionScan} (h : scan.next = some scan') :
    scan'.turnsLeft = scan.later := by
  unfold next at h
  split at h
  · rename_i hcurr
    obtain rfl := Option.some.inj h
    rw [turnsLeft, later, later, hcurr.1]
    rfl
  · split at h
    · rename_i hcurr
      obtain rfl := Option.some.inj h
      rw [turnsLeft, later, later, hcurr.1]
      rfl
    · cases h

theorem turnsLeft_of_goes {scan scan' : OptionScan} (h : scan.turn m code = .goes scan') :
    scan'.turnsLeft < scan.turnsLeft := by
  have hadvance : ∀ k overload, 0 < k → scan.i < scan.length →
      ({ scan with i := scan.i + k, overload := overload } : OptionScan).turnsLeft <
        scan.turnsLeft := by
    intro k overload hk hi
    have hlater : ({ scan with i := scan.i + k, overload := overload } : OptionScan).later =
        scan.later := rfl
    rw [turnsLeft, turnsLeft, hlater]
    dsimp only
    omega
  unfold turn at h
  by_cases hend : scan.length ≤ scan.i
  · rw [if_pos hend] at h
    cases h
  rw [if_neg hend] at h
  have hi := Nat.lt_of_not_le hend
  split at h
  · split at h <;> cases h
  split at h
  · obtain rfl := Turn.goes.inj h
    exact hadvance 1 scan.overload Nat.one_pos hi
  split at h
  · split at h
    · cases h
    · obtain rfl := Turn.goes.inj h
      exact hadvance _ _ (Nat.succ_pos _) hi
  split at h
  · cases hnext : scan.next with
    | none =>
        rw [hnext] at h
        cases h
    | some scan'' =>
        rw [hnext] at h
        obtain rfl := Turn.goes.inj h
        rw [turnsLeft_next hnext, turnsLeft]
        omega
  · obtain rfl := Turn.goes.inj h
    exact hadvance _ scan.overload (Nat.succ_pos _) hi

end OptionScan

/-- The scan returns on every packet, within the turns that are left and one more. -/
theorem returns_getOptionLoop {fuel : Nat} {scan : OptionScan} (h : scan.turnsLeft < fuel)
    (v : Bool) : ScanReturns m code scan (getOptionLoop m code fuel scan v).1 := by
  induction fuel generalizing scan v with
  | zero => exact absurd h (Nat.not_lt_zero _)
  | succ fuel ih =>
      rw [getOptionLoop_turn]
      cases hturn : scan.turn m code with
      | returns result => exact .now hturn
      | goes scan' =>
          have hless := OptionScan.turnsLeft_of_goes hturn
          exact .after hturn (ih (Nat.lt_of_lt_of_le hless (Nat.le_of_lt_succ h)) _)

theorem returns_findOption (m : DhcpMessage) (code : UInt8) :
    ScanReturns m code .start (m.findOption code) :=
  returns_getOptionLoop (by decide) false

end Xwr100.Udhcpd
