import Xwr100.Udhcpd.Message
import Xwr100.Lib.Bytes
import Xwr100.Lib.Memory
import Xwr100.Lib.Run

/-!
# Building a reply's options

The encoder of `options.c` on the same memory the decoder `get_option` walks, and the header
that `init_header` starts it from.  `end_option` looks for the end byte without a bound, so it
may fail to come to an end on memory that holds none.
-/

namespace Xwr100.Udhcpd

open Lib

/-! ## The encoder -/

/-- `memcpy` into a message. -/
def DhcpMessage.write (m : DhcpMessage) (pos : Nat) (bytes : List UInt8) : DhcpMessage :=
  ⟨writeAt m.mem pos bytes⟩

/-- The loop of `end_option`, at position `i` of the option field. -/
def endOptionLoop (m : DhcpMessage) : Nat → Nat → Option Nat
  | 0, _ => none
  | fuel + 1, i =>
      if m.mem (240 + i) = dhcpEnd then some i
      else if m.mem (240 + i) = dhcpPadding then endOptionLoop m fuel (i + 1)
      else endOptionLoop m fuel (i + (m.mem (240 + i + 1)).toNat + 2)

/-- The position of the end option: every turn advances, so the walk leaves the field within
308 turns; `none` if it has not met the end by then. -/
def endOption (m : DhcpMessage) : Option Nat := endOptionLoop m 308 0

/-- `add_option_string`, with its result; a null pointer is refused. -/
def addOptionString (m : DhcpMessage) (string : Option (Nat → UInt8)) :
    Option (DhcpMessage × Nat) :=
  match string with
  | none => some (m, 0)
  | some string =>
      match endOption m with
      | none => none
      | some end_ =>
          let len := (string 1).toNat
          if 308 ≤ end_ + len + 2 + 1 then some (m, 0)
          else
            some ((m.write (240 + end_) ((List.range (len + 2)).map string)).write
              (240 + (end_ + len + 2)) [dhcpEnd], len + 2)

inductive OptionType where
  | ip
  | ipPair
  | string
  | boolean
  | u8
  | u16
  | s16
  | u32
  | s32
deriving DecidableEq, Repr

/-- `option_lengths`. -/
def OptionType.length : OptionType → Nat
  | .ip => 4
  | .ipPair => 8
  | .boolean => 1
  | .string => 1
  | .u8 => 1
  | .u16 => 2
  | .s16 => 2
  | .u32 => 4
  | .s32 => 4

/-- `options`, without names and request flags. -/
def optionTable : List (UInt8 × OptionType) :=
  [(0x01, .ip), (0x02, .s32), (0x03, .ip), (0x04, .ip), (0x05, .ip), (0x06, .ip), (0x07, .ip),
    (0x08, .ip), (0x09, .ip), (0x0c, .string), (0x0d, .u16), (0x0f, .string), (0x10, .ip),
    (0x11, .string), (0x17, .u8), (0x1a, .u16), (0x1c, .ip), (0x2a, .ip), (0x2c, .ip),
    (0x32, .ip), (0x33, .u32), (0x35, .u8), (0x36, .ip), (0x38, .string), (0x42, .string),
    (0x43, .string)]

/-- The length `add_simple_option` finds for a code; 0 if the table does not have it. -/
def simpleLength (code : UInt8) : Nat :=
  optionTable.foldl (fun length o => if o.1 = code then o.2.length else length) 0

/-- The option `add_simple_option` builds: code, length, and the low bytes of the data as the
big-endian target stores them. -/
def simpleString (code : UInt8) (data : BitVec 32) : List UInt8 :=
  [code, UInt8.ofNat (simpleLength code)] ++ bigEndian (simpleLength code) data.toNat

def addSimpleOption (m : DhcpMessage) (code : UInt8) (data : BitVec 32) :
    Option (DhcpMessage × Nat) :=
  if simpleLength code = 0 then some (m, 0)
  else addOptionString m (some fun k => (simpleString code data).getD k 0)

/-- The `op` field for a message type: a request, a reply, or left at zero. -/
def opOf (type : UInt8) : UInt8 :=
  if type = 1 ∨ type = 3 ∨ type = 7 ∨ type = 8 then 1
  else if type = 2 ∨ type = 5 ∨ type = 6 then 2
  else 0

/-- The message `init_header` has when it adds the message type: zero but for the operation,
the hardware type and length, the cookie and the end option. -/
def blankHeader (m : DhcpMessage) (type : UInt8) : DhcpMessage where
  mem pos :=
    if pos = 0 then opOf type
    else if pos = 1 then 1
    else if pos = 2 then 6
    else if 236 ≤ pos ∧ pos < 240 then (bigEndian 4 dhcpMagic).getD (pos - 236) 0
    else if pos = 240 then dhcpEnd
    else if pos < 548 then 0
    else m.mem pos

def initHeader (m : DhcpMessage) (type : UInt8) : Option DhcpMessage :=
  (addSimpleOption (blankHeader m type) dhcpMessageType (BitVec.ofNat 32 type.toNat)).map Prod.fst

inductive OptionCall where
  | string (ptr : Option (Nat → UInt8))
  | simple (code : UInt8) (data : BitVec 32)

def addOption (m : DhcpMessage) : OptionCall → Option (DhcpMessage × Nat)
  | .string ptr => addOptionString m ptr
  | .simple code data => addSimpleOption m code data

/-! ## Options as triples -/

/-- A code and up to 255 bytes of data. -/
structure CodedOption where
  code : UInt8
  data : List UInt8
  fits : data.length ≤ 255

def CodedOption.bytes (o : CodedOption) : List UInt8 :=
  o.code :: UInt8.ofNat o.data.length :: o.data

def stringOption (string : Nat → UInt8) : CodedOption where
  code := string 0
  data := (List.range (string 1).toNat).map fun k => string (k + 2)
  fits := by
    have hlt := UInt8.toNat_lt (string 1)
    simp only [List.length_map, List.length_range]
    omega

/-- The option a call is made for, if there is one. -/
def OptionCall.option : OptionCall → Option CodedOption
  | .string ptr => ptr.map stringOption
  | .simple code data => some (stringOption fun k => (simpleString code data).getD k 0)

/-- The bytes of the options, without the end. -/
def area (opts : List CodedOption) : List UInt8 := opts.flatMap CodedOption.bytes

/-- The option field is a sequence of triples whose codes are neither padding nor end,
terminated by the end within its 308 bytes. -/
structure OptionsAre (m : DhcpMessage) (opts : List CodedOption) : Prop where
  codes : ∀ o ∈ opts, o.code ≠ dhcpPadding ∧ o.code ≠ dhcpEnd
  bounded : (area opts).length < 308
  bytes : Spells m.mem 240 (area opts ++ [dhcpEnd])

theorem CodedOption.length_bytes (o : CodedOption) : o.bytes.length = o.data.length + 2 := by
  simp [CodedOption.bytes]

theorem CodedOption.toNat_length (o : CodedOption) :
    (UInt8.ofNat o.data.length).toNat = o.data.length := by
  have hfits := o.fits
  rw [UInt8.toNat_ofNat']
  exact Nat.mod_eq_of_lt (by omega)

theorem area_cons (o : CodedOption) (rest : List CodedOption) :
    area (o :: rest) = o.bytes ++ area rest := by
  simp [area]

theorem area_append_singleton (opts : List CodedOption) (o : CodedOption) :
    area (opts ++ [o]) = area opts ++ o.bytes := by
  simp [area]

theorem length_le_area (opts : List CodedOption) : opts.length ≤ (area opts).length := by
  induction opts with
  | nil => exact Nat.le_refl 0
  | cons o rest ih =>
      rw [area_cons, List.length_append, o.length_bytes, List.length_cons]
      omega

/-- The head of an area in memory: its code, its length byte, and the rest behind it. -/
theorem spells_area_cons {m : DhcpMessage} {pos : Nat} {o : CodedOption}
    {rest : List CodedOption} (h : Spells m.mem pos (area (o :: rest) ++ [dhcpEnd])) :
    m.mem pos = o.code ∧ (m.mem (pos + 1)).toNat = o.data.length ∧
    Spells m.mem (pos + 2) o.data ∧
    Spells m.mem (pos + (o.data.length + 2)) (area rest ++ [dhcpEnd]) := by
  rw [area_cons, List.append_assoc, spells_append, o.length_bytes] at h
  obtain ⟨hbytes, hrest⟩ := h
  rw [CodedOption.bytes, spells_cons, spells_cons] at hbytes
  exact ⟨hbytes.1, by rw [hbytes.2.1, o.toNat_length], hbytes.2.2, hrest⟩

/-! ## The encoder keeps the field well formed -/

theorem endOptionLoop_eq {m : DhcpMessage} {opts : List CodedOption} {fuel i : Nat}
    (hcodes : ∀ o ∈ opts, o.code ≠ dhcpPadding ∧ o.code ≠ dhcpEnd)
    (h : Spells m.mem (240 + i) (area opts ++ [dhcpEnd])) (hfuel : opts.length < fuel) :
    endOptionLoop m fuel i = some (i + (area opts).length) := by
  induction opts generalizing fuel i with
  | nil =>
      obtain ⟨fuel, rfl⟩ := Nat.exists_eq_succ_of_ne_zero (Nat.ne_of_gt hfuel)
      have hend : m.mem (240 + i) = dhcpEnd := (spells_cons.mp h).1
      simp [endOptionLoop, hend, area]
  | cons o rest ih =>
      obtain ⟨fuel, rfl⟩ := Nat.exists_eq_succ_of_ne_zero (Nat.ne_of_gt
        (Nat.lt_of_le_of_lt (Nat.zero_le _) hfuel))
      obtain ⟨hcode, hlen, -, hrest⟩ := spells_area_cons h
      obtain ⟨hpad, hend⟩ := hcodes o List.mem_cons_self
      rw [← Nat.add_assoc, Nat.add_assoc 240 i] at hrest
      rw [endOptionLoop, if_neg (by rw [hcode]; exact hend), if_neg (by rw [hcode]; exact hpad),
        hlen, ih (fun o' ho' => hcodes o' (List.mem_cons_of_mem _ ho'))
          (by rwa [Nat.add_assoc] at hrest ⊢) (by simpa using hfuel), area_cons,
        List.length_append, o.length_bytes]
      congr 1
      omega

/-- The bytes `memcpy` takes from a string are those of its option. -/
theorem bytes_stringOption (string : Nat → UInt8) :
    (stringOption string).bytes = (List.range ((string 1).toNat + 2)).map string := by
  have hlen : UInt8.ofNat ((List.range (string 1).toNat).map fun k => string (k + 2)).length =
      string 1 := by
    rw [List.length_map, List.length_range, UInt8.ofNat_toNat]
  simp only [CodedOption.bytes, stringOption, hlen]
  rw [List.range_succ_eq_map, List.range_succ_eq_map]
  simp [Function.comp_def]

namespace OptionsAre

variable {m : DhcpMessage} {opts : List CodedOption}

theorem endOption_eq (h : OptionsAre m opts) : endOption m = some (area opts).length := by
  have hlen := length_le_area opts
  have hbounded := h.bounded
  have heq : endOptionLoop m 308 0 = some (0 + (area opts).length) :=
    endOptionLoop_eq h.codes h.bytes (by omega)
  rwa [Nat.zero_add] at heq

/-- An option that leaves room for the end byte is put in place of it. -/
theorem addOptionString_fits (h : OptionsAre m opts) {string : Nat → UInt8}
    (hcode : string 0 ≠ dhcpPadding ∧ string 0 ≠ dhcpEnd)
    (hfits : (area opts).length + (string 1).toNat + 2 + 1 < 308) :
    ∃ m', addOptionString m (some string) = some (m', (string 1).toNat + 2) ∧
      OptionsAre m' (opts ++ [stringOption string]) := by
  have hdata : (stringOption string).bytes.length = (string 1).toNat + 2 := by
    rw [bytes_stringOption, List.length_map, List.length_range]
  refine ⟨(m.write (240 + (area opts).length) ((List.range ((string 1).toNat + 2)).map string)).write
    (240 + ((area opts).length + (string 1).toNat + 2)) [dhcpEnd], ?_, ?_, ?_, ?_⟩
  · rw [addOptionString]
    simp only [h.endOption_eq]
    rw [if_neg (by omega)]
  · intro o ho
    rcases List.mem_append.mp ho with ho | ho
    · exact h.codes o ho
    · rw [List.mem_singleton.mp ho]
      exact hcode
  · rw [area_append_singleton, List.length_append, hdata]
    omega
  · have hold : Spells m.mem 240 (area opts) := (spells_append.mp h.bytes).1
    rw [area_append_singleton, spells_append, spells_append, List.length_append, hdata]
    refine ⟨⟨?_, ?_⟩, ?_⟩
    · exact (hold.writeAt (Nat.le_refl _)).writeAt (by omega)
    · rw [← bytes_stringOption]
      exact spells_writeAt.writeAt (by rw [hdata]; omega)
    · exact spells_writeAt

/-- One that does not is refused, and nothing is written. -/
theorem addOptionString_full (h : OptionsAre m opts) {string : Nat → UInt8}
    (hfull : 308 ≤ (area opts).length + (string 1).toNat + 2 + 1) :
    addOptionString m (some string) = some (m, 0) := by
  rw [addOptionString]
  simp only [h.endOption_eq, if_pos hfull]

/-- Every call either adds its option at the end or returns 0 and writes nothing. -/
theorem addOption (h : OptionsAre m opts) (c : OptionCall)
    (hcode : ∀ o, c.option = some o → o.code ≠ dhcpPadding ∧ o.code ≠ dhcpEnd) :
    ∃ m' ret, Udhcpd.addOption m c = some (m', ret) ∧
      ((ret = 0 ∧ m' = m) ∨ ∃ o, ret ≠ 0 ∧ c.option = some o ∧ OptionsAre m' (opts ++ [o])) := by
  have hstring : ∀ string : Nat → UInt8, c.option = some (stringOption string) →
      ∃ m' ret, addOptionString m (some string) = some (m', ret) ∧
        ((ret = 0 ∧ m' = m) ∨ ∃ o, ret ≠ 0 ∧ c.option = some o ∧ OptionsAre m' (opts ++ [o])) := by
    intro string hoption
    by_cases hfull : 308 ≤ (area opts).length + (string 1).toNat + 2 + 1
    · exact ⟨m, 0, h.addOptionString_full hfull, Or.inl ⟨rfl, rfl⟩⟩
    · obtain ⟨m', hadd, hok⟩ := h.addOptionString_fits (hcode _ hoption) (Nat.not_le.mp hfull)
      exact ⟨m', _, hadd, Or.inr ⟨_, by omega, hoption, hok⟩⟩
  cases c with
  | string ptr =>
      cases ptr with
      | none => exact ⟨m, 0, rfl, Or.inl ⟨rfl, rfl⟩⟩
      | some string => exact hstring string rfl
  | simple code data =>
      by_cases hlen : simpleLength code = 0
      · exact ⟨m, 0, if_pos hlen, Or.inl ⟨rfl, rfl⟩⟩
      · rw [Udhcpd.addOption, addSimpleOption, if_neg hlen]
        exact hstring _ rfl

end OptionsAre

/-! ## The decoder finds them -/

/-- Where the data of the first option with the code stands, in an area that starts at `pos`. -/
def locate (code : UInt8) : List CodedOption → Nat → Option Nat
  | [], _ => none
  | o :: rest, pos =>
      if o.code = code then some (pos + 2) else locate code rest (pos + (o.data.length + 2))

theorem getOptionLoop_locate {m : DhcpMessage} {code : UInt8} (hend : code ≠ dhcpEnd)
    {opts : List CodedOption} {fuel : Nat} {scan : OptionScan} {v : Bool}
    (hcodes : ∀ o ∈ opts, o.code ≠ dhcpPadding ∧ o.code ≠ dhcpEnd)
    (hover : ∀ o ∈ opts, o.code ≠ dhcpOptionOver)
    (hptr : scan.optionptr = 240) (hlength : scan.length = 308) (hload : scan.overload = 0)
    (hcurr : scan.curr = .options) (hbounded : scan.i + (area opts).length < 308)
    (h : Spells m.mem (240 + scan.i) (area opts ++ [dhcpEnd])) (hfuel : opts.length < fuel) :
    (getOptionLoop m code fuel scan v).1 = locate code opts (240 + scan.i) := by
  induction opts generalizing fuel scan v with
  | nil =>
      obtain ⟨fuel, rfl⟩ := Nat.exists_eq_succ_of_ne_zero (Nat.ne_of_gt hfuel)
      have hbyte : scan.byte m scan.i = dhcpEnd := by
        rw [OptionScan.byte, hptr]
        exact (spells_cons.mp h).1
      have hnext : scan.next = none := by simp [OptionScan.next, hcurr, hload]
      rw [getOptionLoop, hbyte, if_neg (by omega)]
      simp only [if_neg (Ne.symm hend), hnext]
      rfl
  | cons o rest ih =>
      obtain ⟨fuel, rfl⟩ := Nat.exists_eq_succ_of_ne_zero (Nat.ne_of_gt
        (Nat.lt_of_le_of_lt (Nat.zero_le _) hfuel))
      obtain ⟨hcode, hlen, -, hrest⟩ := spells_area_cons h
      obtain ⟨hopad, hoend⟩ := hcodes o List.mem_cons_self
      have hbyte : scan.byte m scan.i = o.code := by rw [OptionScan.byte, hptr, hcode]
      have hbyte' : (scan.byte m (scan.i + 1)).toNat = o.data.length := by
        rw [OptionScan.byte, hptr, ← Nat.add_assoc, hlen]
      rw [area_cons, List.length_append, o.length_bytes] at hbounded
      rw [Nat.add_assoc] at hrest
      -- both branches that pass the option over go on behind it
      have hnext : ∀ w, (getOptionLoop m code fuel
          { scan with i := scan.i + (o.data.length + 2) } w).1 =
            locate code rest (240 + scan.i + (o.data.length + 2)) := fun w =>
        Nat.add_assoc 240 scan.i _ ▸ ih (fun o' ho' => hcodes o' (List.mem_cons_of_mem _ ho'))
          (fun o' ho' => hover o' (List.mem_cons_of_mem _ ho')) hptr hlength hload hcurr
          (by simp only; omega) hrest (by simpa using hfuel)
      rw [getOptionLoop, hbyte, hbyte', if_neg (by omega), locate]
      by_cases hfound : o.code = code
      · simp only [if_pos hfound]
        rw [if_neg (by omega), hptr]
      · simp only [if_neg hfound, if_neg hopad, if_neg hoend,
          if_neg (hover o List.mem_cons_self)]
        split_ifs
        · exact hnext _
        · exact hnext _

def HoldsAt (m : DhcpMessage) (o : CodedOption) (pos : Nat) : Prop :=
  (m.mem (pos - 1)).toNat = o.data.length ∧ Spells m.mem pos o.data

/-- What `get_option` should return when `found` is the option it should find. -/
def Returns (m : DhcpMessage) (code : UInt8) (v : Bool) : Option CodedOption → Prop
  | some o => ∃ pos, (getOption m code v).1 = some pos ∧ HoldsAt m o pos
  | none => (getOption m code v).1 = none

/-- The first option with the code. -/
def firstWith (code : UInt8) (opts : List CodedOption) : Option CodedOption :=
  opts.find? fun o => o.code = code

theorem locate_of_firstWith_none {code : UInt8} {opts : List CodedOption} {pos : Nat}
    (h : firstWith code opts = none) : locate code opts pos = none := by
  induction opts generalizing pos with
  | nil => rfl
  | cons o rest ih =>
      by_cases hcode : o.code = code
      · simp [firstWith, hcode] at h
      · rw [locate, if_neg hcode]
        apply ih
        simpa [firstWith, hcode] using h

theorem locate_of_firstWith {m : DhcpMessage} {code : UInt8} {opts : List CodedOption}
    {found : CodedOption} {pos : Nat} (hbytes : Spells m.mem pos (area opts ++ [dhcpEnd]))
    (h : firstWith code opts = some found) :
    ∃ p, locate code opts pos = some p ∧ HoldsAt m found p := by
  induction opts generalizing pos with
  | nil => cases h
  | cons o rest ih =>
      obtain ⟨-, hlen, hdata, hrest⟩ := spells_area_cons hbytes
      by_cases hcode : o.code = code
      · have hfound : o = found := by simpa [firstWith, hcode] using h
        subst hfound
        rw [locate, if_pos hcode]
        exact ⟨pos + 2, rfl, hlen, hdata⟩
      · rw [locate, if_neg hcode]
        apply ih hrest
        simpa [firstWith, hcode] using h

/-- Without an option overload, `get_option` finds the first option with the code. -/
theorem OptionsAre.getOption {m : DhcpMessage} {opts : List CodedOption} (h : OptionsAre m opts)
    (hover : ∀ o ∈ opts, o.code ≠ dhcpOptionOver) {code : UInt8} (hend : code ≠ dhcpEnd)
    (v : Bool) : Returns m code v (firstWith code opts) := by
  have hlen := length_le_area opts
  have hbounded := h.bounded
  have hlocate : (Udhcpd.getOption m code v).1 = locate code opts 240 :=
    getOptionLoop_locate hend h.codes hover rfl rfl rfl rfl (by simpa [OptionScan.start] using hbounded)
      h.bytes (by omega)
  cases hfound : firstWith code opts with
  | none => exact hlocate.trans (locate_of_firstWith_none hfound)
  | some o =>
      obtain ⟨pos, hpos, hholds⟩ := locate_of_firstWith h.bytes hfound
      exact ⟨pos, hlocate.trans hpos, hholds⟩

/-! ## Sequences of calls -/

structure Building where
  message : DhcpMessage
  accepted : List CodedOption

/-- One more call; `none` once a call has not come to an end. -/
def optionStep (s : Option Building) (c : OptionCall) : Option Building :=
  s.bind fun b => (addOption b.message c).map fun out =>
    ⟨out.1, if out.2 = 0 then b.accepted else b.accepted ++ c.option.toList⟩

/-- The option `init_header` adds. -/
def messageTypeOption (type : UInt8) : CodedOption := ⟨dhcpMessageType, [type], by simp⟩

/-- The message after `init_header`. -/
def initialised (m : DhcpMessage) (type : UInt8) : Option Building :=
  (initHeader m type).map fun m' => ⟨m', [messageTypeOption type]⟩

/-- The message is there, and its option field holds the options accepted so far. -/
def WellFormed (s : Option Building) : Prop := ∃ b, s = some b ∧ OptionsAre b.message b.accepted

/-- A call that returns 0 leaves the message as it is. -/
def RefusedUnchanged (s : Option Building) (c : OptionCall) : Prop :=
  ∀ b m', s = some b → addOption b.message c = some (m', 0) → m' = b.message

/-- The code is neither padding nor end. -/
def OptionCall.Plain (c : OptionCall) : Prop :=
  ∀ o, c.option = some o → o.code ≠ dhcpPadding ∧ o.code ≠ dhcpEnd

theorem optionsAre_blankHeader (m : DhcpMessage) (type : UInt8) :
    OptionsAre (blankHeader m type) [] where
  codes := fun _ ho => absurd ho List.not_mem_nil
  bounded := by decide
  bytes := spells_cons.mpr ⟨rfl, Spells.nil⟩

theorem simpleString_messageType (type : UInt8) :
    simpleString dhcpMessageType (BitVec.ofNat 32 type.toNat) = [dhcpMessageType, 1, type] := by
  have hlt := UInt8.toNat_lt type
  have hlen : simpleLength dhcpMessageType = 1 := by decide
  have hnat : (BitVec.ofNat 32 type.toNat).toNat = type.toNat := by
    rw [BitVec.toNat_ofNat]
    exact Nat.mod_eq_of_lt (by omega)
  rw [simpleString, hlen, hnat]
  simp [bigEndian]

theorem wellFormed_initialised (m : DhcpMessage) (type : UInt8) :
    WellFormed (initialised m type) := by
  have hfits := @OptionsAre.addOptionString_fits _ _ (optionsAre_blankHeader m type)
    (fun k => [dhcpMessageType, 1, type].getD k 0) ⟨by simp; decide, by simp; decide⟩
    (by simp [area])
  obtain ⟨m', hadd, hok⟩ := hfits
  refine ⟨⟨m', [messageTypeOption type]⟩, ?_, hok⟩
  rw [initialised, initHeader, addSimpleOption, if_neg (by decide), simpleString_messageType, hadd]
  rfl

/-- One call: the field stays well formed, and a refusal changes nothing. -/
theorem optionStep_wellFormed {s : Option Building} {c : OptionCall} (hs : WellFormed s)
    (hc : c.Plain) : WellFormed (optionStep s c) ∧ RefusedUnchanged s c := by
  obtain ⟨b, rfl, hopts⟩ := hs
  obtain ⟨m', ret, hadd, hout⟩ := hopts.addOption c hc
  rcases hout with ⟨rfl, rfl⟩ | ⟨o, hret, hoption, hok⟩
  · refine ⟨⟨b, ?_, hopts⟩, ?_⟩
    · simp [optionStep, hadd]
    · intro b' m'' hb hadd'
      cases hb
      rw [hadd] at hadd'
      cases hadd'
      rfl
  · refine ⟨⟨⟨m', b.accepted ++ [o]⟩, ?_, hok⟩, ?_⟩
    · simp [optionStep, hadd, hret, hoption]
    · intro b' m'' hb hadd'
      cases hb
      rw [hadd] at hadd'
      cases hadd'
      exact absurd rfl hret

/-- Whatever options are added to an initialised message: the field is well formed after each
call, a refused option leaves the message as it was, and in the end `get_option` finds the first
accepted option of every code, and of no other. -/
theorem options_decode_encode (m : DhcpMessage) (type : UInt8) (calls : List OptionCall)
    (hplain : ∀ c ∈ calls, c.Plain) :
    WellFormed (initialised m type) ∧
    Along optionStep (fun s c => WellFormed (optionStep s c) ∧ RefusedUnchanged s c)
      (initialised m type) calls ∧
    ∃ b, exec optionStep (initialised m type) calls = some b ∧
      OptionsAre b.message b.accepted ∧
      ((∀ o ∈ b.accepted, o.code ≠ dhcpOptionOver) →
        ∀ code v, code ≠ dhcpEnd → Returns b.message code v (firstWith code b.accepted)) := by
  have hstart := wellFormed_initialised m type
  have hcalls := @along_of_forall _ _ optionStep _ (initialised m type) _ hplain
  have hkeep : ∀ s c, WellFormed s → c.Plain → WellFormed (optionStep s c) :=
    fun _ _ hs hc => (optionStep_wellFormed hs hc).1
  obtain ⟨b, hb, hopts⟩ := Along.invariant hkeep hcalls hstart
  refine ⟨hstart, ?_, b, hb, hopts, ?_⟩
  · apply hcalls.observe _ hstart
    intro s c hs hc
    exact ⟨(optionStep_wellFormed hs hc).1, optionStep_wellFormed hs hc⟩
  · intro hover code v hend
    exact hopts.getOption hover hend v

/-- A lease time added to an offer, and then a null pointer. -/
theorem options_decode_encode_offer :
    ∃ b, exec optionStep (initialised ⟨fun _ => 0⟩ 2) [.simple 0x33 3600, .string none] = some b ∧
      OptionsAre b.message b.accepted := by
  have hplain : ∀ c ∈ [OptionCall.simple 0x33 3600, .string none], c.Plain := by
    intro c hc o ho
    rcases List.mem_pair.mp hc with rfl | rfl
    · cases ho
      decide
    · cases ho
  obtain ⟨-, -, b, hb, hopts, -⟩ := options_decode_encode ⟨fun _ => 0⟩ 2 _ hplain
  exact ⟨b, hb, hopts⟩

end Xwr100.Udhcpd
