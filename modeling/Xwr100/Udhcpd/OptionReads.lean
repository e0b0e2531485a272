import Xwr100.Udhcpd.OptionScan

/-!
# The bytes that are read

Which bytes a turn of `get_option` looks at, and which bytes its callers copy from the position
it returns.  The index is checked against the field's length, but the length byte, the vendor
class and the overload value are read without a check of their own; and the callers copy as
many bytes as they want, whatever the option's length is.
-/

namespace Xwr100.Udhcpd

variable {m m' : DhcpMessage} {code : UInt8} {scan : OptionScan}

/-- The places that a comparison with these bytes looks at: it stops at the first difference. -/
def comparedAt (mem : Nat → UInt8) : Nat → List UInt8 → List Nat
  | _, [] => []
  | pos, b :: rest => pos :: if mem pos = b then comparedAt mem (pos + 1) rest else []

/-- `VIZIO`. -/
def vizioBytes : List UInt8 := [0x56, 0x49, 0x5a, 0x49, 0x4f]

/-- The indices from `optionptr` that a turn of the loop reads. -/
def OptionScan.reads (scan : OptionScan) (m : DhcpMessage) (code : UInt8) : List Nat :=
  if scan.length ≤ scan.i then []
  else
    scan.i ::
      if scan.byte m scan.i = code then [scan.i + 1]
      else if scan.byte m scan.i = dhcpVendor then
        comparedAt (scan.byte m) (scan.i + 2) vizioBytes ++ [scan.i + 1]
      else if scan.byte m scan.i = dhcpPadding then []
      else if scan.byte m scan.i = dhcpOptionOver then
        (scan.i + 1) :: if scan.Overruns m then [] else [scan.i + 3, 1]
      else if scan.byte m scan.i = dhcpEnd then []
      else [scan.i + 1]

inductive Visits (m : DhcpMessage) (code : UInt8) : OptionScan → Prop
  | start : Visits m code .start
  | turn {scan scan' : OptionScan} (h : Visits m code scan)
      (hturn : scan.turn m code = .goes scan') : Visits m code scan'

/-- The length of the option whose data is at `pos`. -/
def DhcpMessage.optionLength (m : DhcpMessage) (pos : Nat) : Nat := (m.mem (pos - 1)).toNat

/-- The bytes that the callers copy from the position of an option: the message type, the
four bytes of an address or a time, the host name cut to 63 bytes. -/
def callerReads (m : DhcpMessage) (code : UInt8) (pos : Nat) : List Nat :=
  if code = dhcpMessageType then [pos]
  else if code = dhcpRequestedIp ∨ code = dhcpServerId ∨ code = dhcpLeaseTime then
    (List.range 4).map (pos + ·)
  else if code = dhcpHostName then (List.range (min (m.optionLength pos) 63)).map (pos + ·)
  else []

/-- The scan for every code reads inside the field it is in, and the callers inside the option's
data. -/
structure ReadsInside (m : DhcpMessage) : Prop where
  scan : ∀ code scan, Visits m code scan → ∀ k ∈ scan.reads m code, k < scan.length
  caller : ∀ code pos, m.findOption code = some pos → ∀ k ∈ callerReads m code pos,
    pos ≤ k ∧ k < pos + m.optionLength pos

/-- The option at the index does not start too near the end of the field: its length byte is in the
field; so is what a comparison with `VIZIO` looks at, and what is taken for the overload
value. -/
structure StartsInside (m : DhcpMessage) (code : UInt8) (scan : OptionScan) : Prop where
  length : scan.byte m scan.i = code ∨
      (scan.byte m scan.i ≠ dhcpPadding ∧ scan.byte m scan.i ≠ dhcpEnd) →
    scan.i + 1 < scan.length
  vendor : scan.byte m scan.i ≠ code → scan.byte m scan.i = dhcpVendor →
    scan.i + 1 + (comparedAt (scan.byte m) (scan.i + 2) vizioBytes).length < scan.length
  overload : scan.byte m scan.i ≠ code → scan.byte m scan.i = dhcpOptionOver →
    ¬scan.Overruns m → scan.i + 3 < scan.length

/-- No option starts too near the end of its field, a message type has a byte, and a requested
address, a server identifier and a lease time have four. -/
structure Roomy (m : DhcpMessage) : Prop where
  starts : ∀ code scan, Visits m code scan → scan.i < scan.length → StartsInside m code scan
  type : ∀ pos, m.findOption dhcpMessageType = some pos → 1 ≤ m.optionLength pos
  four : ∀ code pos, code = dhcpRequestedIp ∨ code = dhcpServerId ∨ code = dhcpLeaseTime →
    m.findOption code = some pos → 4 ≤ m.optionLength pos

/-! ## The reads of a turn -/

theorem mem_comparedAt {mem : Nat → UInt8} {pos k : Nat} {bytes : List UInt8} :
    k ∈ comparedAt mem pos bytes ↔ pos ≤ k ∧ k < pos + (comparedAt mem pos bytes).length := by
  induction bytes generalizing pos with
  | nil => simp [comparedAt]
  | cons b rest ih =>
      rw [comparedAt, List.mem_cons, List.length_cons]
      split
      · rw [ih]
        omega
      · simp only [List.not_mem_nil, or_false, List.length_nil]
        omega

theorem comparedAt_vizio_pos (mem : Nat → UInt8) (pos : Nat) :
    0 < (comparedAt mem pos vizioBytes).length := Nat.succ_pos _

section Reads

variable (hi : scan.i < scan.length)

include hi

theorem reads_code (h : scan.byte m scan.i = code) :
    scan.reads m code = [scan.i, scan.i + 1] := by
  rw [OptionScan.reads, if_neg (Nat.not_le_of_lt hi), if_pos h]

theorem reads_vendor (hcode : scan.byte m scan.i ≠ code) (h : scan.byte m scan.i = dhcpVendor) :
    scan.reads m code =
      scan.i :: (comparedAt (scan.byte m) (scan.i + 2) vizioBytes ++ [scan.i + 1]) := by
  rw [OptionScan.reads, if_neg (Nat.not_le_of_lt hi), if_neg hcode, if_pos h]

theorem reads_padding (hcode : scan.byte m scan.i ≠ code)
    (h : scan.byte m scan.i = dhcpPadding) : scan.reads m code = [scan.i] := by
  rw [OptionScan.reads, if_neg (Nat.not_le_of_lt hi), if_neg hcode, if_neg (by rw [h]; decide),
    if_pos h]

theorem reads_over (hcode : scan.byte m scan.i ≠ code)
    (h : scan.byte m scan.i = dhcpOptionOver) :
    scan.reads m code =
      scan.i :: (scan.i + 1) :: if scan.Overruns m then [] else [scan.i + 3, 1] := by
  rw [OptionScan.reads, if_neg (Nat.not_le_of_lt hi), if_neg hcode, if_neg (by rw [h]; decide),
    if_neg (by rw [h]; decide), if_pos h]

theorem reads_end (hcode : scan.byte m scan.i ≠ code) (h : scan.byte m scan.i = dhcpEnd) :
    scan.reads m code = [scan.i] := by
  rw [OptionScan.reads, if_neg (Nat.not_le_of_lt hi), if_neg hcode, if_neg (by rw [h]; decide),
    if_neg (by rw [h]; decide), if_neg (by rw [h]; decide), if_pos h]

theorem reads_other (hcode : scan.byte m scan.i ≠ code) (hvendor : scan.byte m scan.i ≠ dhcpVendor)
    (hpad : scan.byte m scan.i ≠ dhcpPadding) (hover : scan.byte m scan.i ≠ dhcpOptionOver)
    (hstop : scan.byte m scan.i ≠ dhcpEnd) : scan.reads m code = [scan.i, scan.i + 1] := by
  rw [OptionScan.reads, if_neg (Nat.not_le_of_lt hi), if_neg hcode, if_neg hvendor, if_neg hpad,
    if_neg hover, if_neg hstop]

/-- The reads of a turn are in the field exactly if the option starts inside. -/
theorem startsInside_iff :
    (∀ k ∈ scan.reads m code, k < scan.length) ↔ StartsInside m code scan := by
  by_cases hcode : scan.byte m scan.i = code
  · rw [reads_code hi hcode]
    constructor
    · intro h
      have hlength := h (scan.i + 1) (by simp)
      exact ⟨fun _ => hlength, fun hne => absurd hcode hne, fun hne => absurd hcode hne⟩
    · intro h
      have hlength := h.length (Or.inl hcode)
      simpa using And.intro hi hlength
  by_cases hvendor : scan.byte m scan.i = dhcpVendor
  · rw [reads_vendor hi hcode hvendor]
    have hsome := comparedAt_vizio_pos (scan.byte m) (scan.i + 2)
    constructor
    · intro h
      have hlength := h (scan.i + 1) (by simp)
      have hlast := h (scan.i + 1 + (comparedAt (scan.byte m) (scan.i + 2) vizioBytes).length) (by
        rw [List.mem_cons, List.mem_append, mem_comparedAt]
        omega)
      refine ⟨fun _ => hlength, fun _ _ => hlast, fun _ hover => ?_⟩
      rw [hvendor] at hover
      exact absurd hover (by decide)
    · intro h k hk
      have hlast := h.vendor hcode hvendor
      rw [List.mem_cons, List.mem_append, mem_comparedAt, List.mem_singleton] at hk
      omega
  by_cases hpad : scan.byte m scan.i = dhcpPadding
  · rw [reads_padding hi hcode hpad]
    apply iff_of_true
    · simpa using hi
    · refine ⟨?_, fun _ h => absurd h hvendor, fun _ hover => ?_⟩
      · intro h
        exact absurd hpad (h.resolve_left hcode).1
      · rw [hpad] at hover
        exact absurd hover (by decide)
  by_cases hover : scan.byte m scan.i = dhcpOptionOver
  · rw [reads_over hi hcode hover]
    constructor
    · intro h
      have hlength := h (scan.i + 1) (by simp)
      refine ⟨fun _ => hlength, fun _ h => absurd h hvendor, fun _ _ hfits => ?_⟩
      exact h (scan.i + 3) (by rw [if_neg hfits]; simp)
    · intro h k hk
      have hstop : scan.byte m scan.i ≠ dhcpEnd := by
        rw [hover]
        decide
      have hlength := h.length (Or.inr ⟨hpad, hstop⟩)
      by_cases hlong : scan.Overruns m
      · rw [if_pos hlong] at hk
        simp only [List.mem_cons, List.not_mem_nil, or_false] at hk
        omega
      · rw [if_neg hlong] at hk
        have hvalue := h.overload hcode hover hlong
        simp only [List.mem_cons, List.not_mem_nil, or_false] at hk
        omega
  by_cases hstop : scan.byte m scan.i = dhcpEnd
  · rw [reads_end hi hcode hstop]
    apply iff_of_true
    · simpa using hi
    · refine ⟨?_, fun _ h => absurd h hvendor, fun _ h => absurd h hover⟩
      intro h
      exact absurd hstop (h.resolve_left hcode).2
  · rw [reads_other hi hcode hvendor hpad hover hstop]
    constructor
    · intro h
      have hlength := h (scan.i + 1) (by simp)
      exact ⟨fun _ => hlength, fun _ h => absurd h hvendor, fun _ h => absurd h hover⟩
    · intro h
      have hlength := h.length (Or.inr ⟨hpad, hstop⟩)
      simpa using And.intro hi hlength

end Reads

/-- A turn depends on the bytes it reads, and on no others. -/
theorem turn_congr (h : ∀ k ∈ scan.reads m code, scan.byte m' k = scan.byte m k) :
    scan.turn m' code = scan.turn m code := by
  by_cases hafter : scan.length ≤ scan.i
  · rw [OptionScan.turn_after _ hafter, OptionScan.turn_after _ hafter]
  have hi := Nat.lt_of_not_le hafter
  have hfirst : scan.i ∈ scan.reads m code := by
    rw [OptionScan.reads, if_neg hafter]
    exact List.mem_cons_self
  have hbyte := h scan.i hfirst
  have hoverruns : scan.i + 1 ∈ scan.reads m code → (scan.Overruns m' ↔ scan.Overruns m) := by
    intro hmem
    rw [OptionScan.overruns_iff, OptionScan.overruns_iff, h _ hmem]
  by_cases hcode : scan.byte m scan.i = code
  · have hiff := hoverruns (by rw [reads_code hi hcode]; simp)
    rw [OptionScan.turn_code _ hi hcode, OptionScan.turn_code _ hi (hbyte.trans hcode)]
    simp only [hiff]
  have hcode' : scan.byte m' scan.i ≠ code := by rwa [hbyte]
  by_cases hpad : scan.byte m scan.i = dhcpPadding
  · rw [OptionScan.turn_padding _ hi hcode hpad,
      OptionScan.turn_padding _ hi hcode' (hbyte.trans hpad)]
  by_cases hover : scan.byte m scan.i = dhcpOptionOver
  · rw [reads_over hi hcode hover] at h
    have hiff := hoverruns (by rw [reads_over hi hcode hover]; simp)
    rw [OptionScan.turn_over _ hi hcode hover, OptionScan.turn_over _ hi hcode' (hbyte.trans hover)]
    simp only [hiff]
    by_cases hlong : scan.Overruns m
    · rw [if_pos hlong, if_pos hlong]
    · rw [if_neg hlong] at h
      rw [if_neg hlong, if_neg hlong, h (scan.i + 3) (by simp), h 1 (by simp)]
  by_cases hstop : scan.byte m scan.i = dhcpEnd
  · rw [OptionScan.turn_end _ hi hcode hstop, OptionScan.turn_end _ hi hcode' (hbyte.trans hstop)]
  · have hlength : scan.i + 1 ∈ scan.reads m code := by
      by_cases hvendor : scan.byte m scan.i = dhcpVendor
      · rw [reads_vendor hi hcode hvendor]
        simp
      · rw [reads_other hi hcode hvendor hpad hover hstop]
        simp
    rw [OptionScan.turn_other _ hi hcode hpad hover hstop,
      OptionScan.turn_other _ hi hcode' (by rwa [hbyte]) (by rwa [hbyte]) (by rwa [hbyte]),
      h _ hlength]

def equalsAt (mem : Nat → UInt8) : Nat → List UInt8 → Bool
  | _, [] => true
  | pos, b :: rest => mem pos = b && equalsAt mem (pos + 1) rest

theorem equalsAt_congr {mem mem' : Nat → UInt8} {pos : Nat} {bytes : List UInt8}
    (h : ∀ k ∈ comparedAt mem pos bytes, mem' k = mem k) :
    equalsAt mem' pos bytes = equalsAt mem pos bytes := by
  induction bytes generalizing pos with
  | nil => rfl
  | cons b rest ih =>
      rw [comparedAt] at h
      have hhead := h pos List.mem_cons_self
      rw [equalsAt, equalsAt, hhead]
      by_cases hb : mem pos = b
      · rw [if_pos hb] at h
        rw [ih fun k hk => h k (List.mem_cons_of_mem pos hk)]
      · rw [decide_eq_false hb, Bool.false_and, Bool.false_and]

theorem isVizio_eq (m : DhcpMessage) (pos : Nat) :
    isVizio m pos = equalsAt m.mem pos vizioBytes := by
  simp [isVizio, equalsAt, vizioBytes, Bool.and_assoc]

theorem isVizio_congr {pos : Nat}
    (h : ∀ k ∈ comparedAt m.mem pos vizioBytes, m'.mem k = m.mem k) :
    isVizio m' pos = isVizio m pos := by
  rw [isVizio_eq, isVizio_eq, equalsAt_congr h]

/-! ## The callers -/

/-- What the callers copy is the option's own exactly if the option is long enough. -/
theorem callerReads_inside_iff {pos : Nat} :
    (∀ k ∈ callerReads m code pos, pos ≤ k ∧ k < pos + m.optionLength pos) ↔
      (code = dhcpMessageType → 1 ≤ m.optionLength pos) ∧
      (code = dhcpRequestedIp ∨ code = dhcpServerId ∨ code = dhcpLeaseTime →
        4 ≤ m.optionLength pos) := by
  unfold callerReads
  by_cases htype : code = dhcpMessageType
  · rw [if_pos htype, and_iff_left]
    · simp only [List.mem_singleton, forall_eq, htype, true_implies]
      omega
    · rw [htype]
      intro hfour
      exact absurd hfour (by decide)
  rw [if_neg htype, and_iff_right fun h => absurd h htype]
  by_cases hfour : code = dhcpRequestedIp ∨ code = dhcpServerId ∨ code = dhcpLeaseTime
  · rw [if_pos hfour]
    constructor
    · intro h _
      have hlast := h (pos + 3) (List.mem_map_of_mem (List.mem_range.mpr (by omega)))
      omega
    · intro h k hk
      obtain ⟨d, hd, rfl⟩ := List.mem_map.mp hk
      have hlt := List.mem_range.mp hd
      have hlong := h hfour
      omega
  · rw [if_neg hfour]
    apply iff_of_true
    · intro k hk
      split at hk
      · obtain ⟨d, hd, rfl⟩ := List.mem_map.mp hk
        have hlt := List.mem_range.mp hd
        omega
      · cases hk
    · exact fun h => absurd h hfour

/-! ## The whole scan -/

/-- For every packet: all reads are inside exactly if its options leave room for them. -/
theorem readsInside_iff (m : DhcpMessage) : ReadsInside m ↔ Roomy m := by
  constructor
  · intro h
    constructor
    · intro code scan hvisits hi
      exact (startsInside_iff hi).mp (h.scan code scan hvisits)
    · intro pos hpos
      exact (callerReads_inside_iff.mp (h.caller _ pos hpos)).1 rfl
    · intro code pos hcode hpos
      exact (callerReads_inside_iff.mp (h.caller code pos hpos)).2 hcode
  · intro h
    constructor
    · intro code scan hvisits k hk
      by_cases hafter : scan.length ≤ scan.i
      · rw [OptionScan.reads, if_pos hafter] at hk
        cases hk
      · have hi := Nat.lt_of_not_le hafter
        exact (startsInside_iff hi).mpr (h.starts code scan hvisits hi) k hk
    · intro code pos hpos
      rw [callerReads_inside_iff]
      constructor
      · intro htype
        rw [htype] at hpos
        exact h.type pos hpos
      · intro hfour
        exact h.four code pos hfour hpos

/-- Two options fill the field up to its last byte, where a third one starts. -/
def lastByteMessage : DhcpMessage :=
  .ofFields ([0x0c, 255] ++ List.replicate 255 0 ++ [0x0c, 48] ++ List.replicate 48 0 ++ [0x35])
    [] []

/-- The length byte of the third option is read behind the field; and the requested address is
copied from an option of one byte. -/
theorem reads_outside :
    ¬ReadsInside lastByteMessage ∧
    ¬ReadsInside (.ofFields [0x35, 1, 3, 0x32, 1, 192, 0xff] [] []) := by
  constructor
  · intro h
    have hsecond : Visits lastByteMessage dhcpServerId ⟨240, 257, 308, 0, .options⟩ :=
      .turn .start (by decide +kernel)
    have hthird : Visits lastByteMessage dhcpServerId ⟨240, 307, 308, 0, .options⟩ :=
      .turn hsecond (by decide +kernel)
    have hread := h.scan dhcpServerId _ hthird 308 (by decide +kernel)
    exact absurd hread (by decide)
  · intro h
    have hcopied := h.caller dhcpRequestedIp 245 (by decide +kernel) 248 (by decide)
    revert hcopied
    decide +kernel

end Xwr100.Udhcpd
