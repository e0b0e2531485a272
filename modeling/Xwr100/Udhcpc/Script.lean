import Xwr100.Lib.Codec
import Xwr100.Lib.Printing
import Xwr100.Udhcpd.ConfigOptions
import Mathlib.Algebra.Order.BigOperators.Group.List
import Mathlib.Algebra.Order.Group.Nat
import Mathlib.Algebra.Ring.Nat

/-!
# What the script is told

`script.c` puts an acknowledgement into the environment of the script: the address, and a variable
for each option of the table that the message has.  The room for a variable is reckoned from the
length of the option before its text is written.
-/

namespace Xwr100.Udhcpc

open Lib Udhcpd

/-! ## The texts -/

/-- `max_option_length`; each `sizeof` counts the end of the string. -/
def maxOptionLength : OptionType → Nat
  | .ip => 17
  | .ipPair => 34
  | .string => 1
  | .boolean => 5
  | .u8 => 5
  | .u16 => 7
  | .s16 => 8
  | .u32 => 12
  | .s32 => 13

def upperLength (length : Nat) (option : DhcpOption) : Nat :=
  maxOptionLength option.type * (length / option.type.length)

def sprintip (pre : List Char) (ip : Nat → UInt8) : List UInt8 :=
  ascii pre ++ (decimal (ip 0).toNat ++ [0x2e] ++ (decimal (ip 1).toNat ++ [0x2e] ++
    (decimal (ip 2).toNat ++ [0x2e] ++ (decimal (ip 3).toNat ++ [0x20]))))

/-- The number that `memcpy` and `ntohs` or `ntohl` get from so many bytes. -/
def number (option : Nat → UInt8) (count : Nat) : Nat :=
  ofBigEndian ((List.range count).map option)

/-- What one turn of the loop of `fill_options` prints.  `ntohs` has no sign; `long` has 32 bits. -/
def valueText (type : OptionType) (option : Nat → UInt8) : List UInt8 :=
  match type with
  | .ipPair => sprintip [] option ++ [0x2f] ++ sprintip [] fun k => option (4 + k)
  | .ip => sprintip [] option
  | .boolean => if option 0 ≠ 0 then ascii "yes ".toList else ascii "no ".toList
  | .u8 => decimal (number option 1) ++ [0x20]
  | .u16 | .s16 => decimal (number option 2) ++ [0x20]
  | .u32 => decimal (number option 4) ++ [0x20]
  | .s32 => signedDecimal (BitVec.ofNat 32 (number option 4)).toInt ++ [0x20]
  | .string => []

/-- How much of `len` a turn uses up; for a pair `optlen` is set to that of its second half. -/
def turnLength (type : OptionType) : Nat := if type = .ipPair then 4 else type.length

/-- The loop of `fill_options`; a turn uses up a byte at least. -/
def fillLoop (type : OptionType) : Nat → (Nat → UInt8) → Nat → List UInt8
  | 0, _, _ => []
  | fuel + 1, option, len =>
      valueText type option ++
        if len ≤ turnLength type then []
        else fillLoop type fuel (fun k => option (type.length + k)) (len - turnLength type)

/-- `fill_options`; the length of the option is in front of its data. -/
def fillOptions (len : Nat) (option : Nat → UInt8) (entry : DhcpOption) : List UInt8 :=
  ascii entry.name ++ [0x3d] ++
    if entry.type = .string then (List.range len).map option
    else fillLoop entry.type (len + 1) option len

/-! ## The environment -/

/-- A string of the environment: its characters, and the room that was allocated for it. -/
structure Variable where
  text : List UInt8
  size : Nat
deriving DecidableEq, Repr

/-- The text and the zero behind it are written into the room. -/
def Variable.Fits (v : Variable) : Prop := v.text.length + 1 ≤ v.size

instance (v : Variable) : Decidable v.Fits := inferInstanceAs (Decidable (_ ≤ _))

def optionVariable (entry : DhcpOption) (len : Nat) (option : Nat → UInt8) : Variable where
  text := fillOptions len option entry
  size := upperLength len entry + entry.name.length + 2

/-- The variable for an option of the table, if the message has it. -/
def variableOf (packet : DhcpMessage) (entry : DhcpOption) : Option Variable :=
  (packet.findOption entry.code).map fun pos =>
    optionVariable entry (packet.mem (pos - 1)).toNat fun k => packet.mem (pos + k)

def overload (packet : DhcpMessage) : UInt8 :=
  match packet.findOption dhcpOptionOver with
  | some pos => packet.mem pos
  | none => 0

/-- `xmalloc(sizeof(name "=") + strlen(value))`, and `sprintf` into it. -/
def stringVariable (name : List Char) (value : List UInt8) : Variable where
  text := ascii name ++ [0x3d] ++ value
  size := name.length + 2 + value.length

/-- A variable that `sprintip` prints, in the room for fifteen characters. -/
def addressVariable (name : List Char) (ip : Nat → UInt8) : Variable where
  text := sprintip (name ++ ['=']) ip
  size := name.length + 17

/-- The pointers `fill_envp` allocates, and the strings it makes them point to; the two of `environ`
are not copied. -/
structure Environment where
  pointers : Nat
  envp : List Variable
deriving DecidableEq, Repr

def headerVariables (packet : DhcpMessage) : List Variable :=
  (if packet.readAddr 20 ≠ 0 then [addressVariable "siaddr".toList fun k => packet.mem (20 + k)]
    else []) ++
  (if overload packet &&& 1 = 0 ∧ packet.mem 108 ≠ 0 then
    [stringVariable "boot_file".toList (packet.readString 108 127)] else []) ++
  (if overload packet &&& 2 = 0 ∧ packet.mem 44 ≠ 0 then
    [stringVariable "sname".toList (packet.readString 44 63)] else [])

def numOptions (packet : DhcpMessage) : Nat :=
  (options.filter fun entry => (packet.findOption entry.code).isSome).length +
  (if packet.readAddr 20 ≠ 0 then 1 else 0) +
  (if overload packet &&& 1 = 0 ∧ packet.mem 108 ≠ 0 then 1 else 0) +
  (if overload packet &&& 2 = 0 ∧ packet.mem 44 ≠ 0 then 1 else 0)

/-- `fill_envp`, with the strings that `find_env` finds. -/
def fillEnvp (interface path home : List UInt8) : Option DhcpMessage → Environment
  | none =>
      { pointers := 5
        envp := [stringVariable "interface".toList interface, ⟨path, path.length + 1⟩,
          ⟨home, home.length + 1⟩] }
  | some packet =>
      { pointers := numOptions packet + 5
        envp := [stringVariable "interface".toList interface, ⟨path, path.length + 1⟩,
          ⟨home, home.length + 1⟩, addressVariable "ip".toList fun k => packet.mem (16 + k)] ++
          options.filterMap (variableOf packet) ++ headerVariables packet }

/-! ## Lengths of texts -/

theorem length_ascii (text : List Char) : (ascii text).length = text.length := List.length_map _

theorem length_octet (b : UInt8) :
    1 ≤ (decimal b.toNat).length ∧ (decimal b.toNat).length ≤ 3 ∧
      ((decimal b.toNat).length ≤ 2 ↔ b.toNat < 100) := by
  have hb := b.toNat_lt
  have hpos : 0 < (decimal b.toNat).length := List.length_pos_of_ne_nil (decimal_ne_nil _)
  exact ⟨hpos, (length_decimal_le_iff (by decide)).mpr (by omega),
    length_decimal_le_iff (k := 2) (by decide)⟩

theorem length_sprintip (pre : List Char) (ip : Nat → UInt8) :
    (sprintip pre ip).length = pre.length + (decimal (ip 0).toNat).length +
      (decimal (ip 1).toNat).length + (decimal (ip 2).toNat).length +
      (decimal (ip 3).toNat).length + 4 := by
  simp only [sprintip, List.length_append, length_ascii, List.length_singleton]
  omega

def Short (ip : Nat → UInt8) : Prop := ∃ k < 4, (ip k).toNat < 100

/-- The room for an address lacks the character for the blank behind it. -/
theorem addressVariable_fits (name : List Char) (ip : Nat → UInt8) :
    (addressVariable name ip).Fits ↔ Short ip := by
  have h₀ := length_octet (ip 0)
  have h₁ := length_octet (ip 1)
  have h₂ := length_octet (ip 2)
  have h₃ := length_octet (ip 3)
  simp only [Variable.Fits, addressVariable, length_sprintip, List.length_append,
    List.length_singleton]
  constructor
  · intro h
    by_contra hlong
    simp only [Short, not_exists, not_and, Nat.not_lt] at hlong
    have l₀ := hlong 0 (by decide)
    have l₁ := hlong 1 (by decide)
    have l₂ := hlong 2 (by decide)
    have l₃ := hlong 3 (by decide)
    omega
  · rintro ⟨k, hk, hshort⟩
    have hcases : k = 0 ∨ k = 1 ∨ k = 2 ∨ k = 3 := by omega
    rcases hcases with rfl | rfl | rfl | rfl <;> omega

theorem stringVariable_fits (name : List Char) (value : List UInt8) :
    (stringVariable name value).Fits := by
  simp only [Variable.Fits, stringVariable, List.length_append, length_ascii,
    List.length_singleton]
  omega

/-! ## The loop over the values of an option -/

theorem number_lt (option : Nat → UInt8) (count : Nat) :
    number option count < 2 ^ (8 * count) := by
  have hlt := Codec.ofBigEndian_lt ((List.range count).map option)
  rwa [List.length_map, List.length_range] at hlt

theorem length_signedDecimal_le (w : BitVec 32) : (signedDecimal w.toInt).length ≤ 11 := by
  have hlow := BitVec.le_toInt w
  have hhigh := BitVec.toInt_lt (x := w)
  cases htoInt : w.toInt with
  | ofNat n =>
      rw [htoInt] at hhigh
      have hn : n < 10 ^ 11 := by
        simp only [Int.ofNat_eq_natCast] at hhigh
        omega
      exact (length_decimal_le_iff (by decide)).mpr hn
  | negSucc n =>
      rw [htoInt] at hlow
      have hn : n + 1 < 10 ^ 10 := by omega
      exact Nat.succ_le_succ ((length_decimal_le_iff (by decide)).mpr hn)

theorem length_valueText_lt (type : OptionType) (option : Nat → UInt8) :
    (valueText type option).length < maxOptionLength type := by
  have haddress : ∀ ip : Nat → UInt8, (sprintip [] ip).length ≤ 16 := by
    intro ip
    have h₀ := length_octet (ip 0)
    have h₁ := length_octet (ip 1)
    have h₂ := length_octet (ip 2)
    have h₃ := length_octet (ip 3)
    rw [length_sprintip, List.length_nil]
    omega
  have hnumber : ∀ count k, 2 ^ (8 * count) ≤ 10 ^ k → 0 < k →
      (decimal (number option count)).length ≤ k := by
    intro count k hle hk
    exact (length_decimal_le_iff hk).mpr (Nat.lt_of_lt_of_le (number_lt option count) hle)
  cases type with
  | ip => exact Nat.lt_succ_of_le (haddress option)
  | ipPair =>
      have hfirst := haddress option
      have hsecond := haddress fun k => option (4 + k)
      simp only [valueText, maxOptionLength, List.length_append, List.length_singleton]
      omega
  | string => exact Nat.one_pos
  | boolean =>
      simp only [valueText]
      split <;> decide
  | u8 =>
      have hdigits := hnumber 1 3 (by decide) (by decide)
      simp only [valueText, maxOptionLength, List.length_append, List.length_singleton]
      omega
  | u16 =>
      have hdigits := hnumber 2 5 (by decide) (by decide)
      simp only [valueText, maxOptionLength, List.length_append, List.length_singleton]
      omega
  | s16 =>
      have hdigits := hnumber 2 5 (by decide) (by decide)
      simp only [valueText, maxOptionLength, List.length_append, List.length_singleton]
      omega
  | u32 =>
      have hdigits := hnumber 4 10 (by decide) (by decide)
      simp only [valueText, maxOptionLength, List.length_append, List.length_singleton]
      omega
  | s32 =>
      have hdigits := length_signedDecimal_le (BitVec.ofNat 32 (number option 4))
      simp only [valueText, maxOptionLength, List.length_append, List.length_singleton]
      omega

/-- The values that the loop comes across: one at least. -/
def turns (type : OptionType) (len : Nat) : Nat := (len - 1) / type.length + 1

theorem type_length_pos (type : OptionType) : 0 < type.length := by
  cases type <;> decide

theorem turns_of_le {type : OptionType} {len : Nat} (h : len ≤ type.length) :
    turns type len = 1 := by
  rw [turns, Nat.div_eq_of_lt]
  have hpos := type_length_pos type
  omega

theorem turns_of_lt {type : OptionType} {len : Nat} (h : type.length < len) :
    turns type len = turns type (len - type.length) + 1 := by
  have hpos := type_length_pos type
  have hsplit : len - 1 = len - type.length - 1 + type.length := by omega
  rw [turns, turns, hsplit, Nat.add_div_right _ hpos]

/-- Without pairs, the loop prints the values one after the other. -/
theorem fillLoop_eq {type : OptionType} (hpair : type ≠ .ipPair) (fuel : Nat)
    (option : Nat → UInt8) (len : Nat) (h : len ≤ fuel) :
    fillLoop type (fuel + 1) option len =
      (List.range (turns type len)).flatMap fun i =>
        valueText type fun k => option (type.length * i + k) := by
  have hturn : turnLength type = type.length := if_neg hpair
  have hpos := type_length_pos type
  induction fuel generalizing option len with
  | zero =>
      rw [fillLoop, hturn, if_pos (by omega), turns_of_le (by omega)]
      simp
  | succ fuel ih =>
      rw [fillLoop, hturn]
      by_cases hle : len ≤ type.length
      · rw [if_pos hle, turns_of_le hle]
        simp
      · rw [if_neg hle, ih _ _ (by omega), turns_of_lt (Nat.lt_of_not_le hle), List.range_succ_eq_map,
          List.flatMap_cons, List.flatMap_map]
        congr 2
        · simp
        · funext i
          congr 1
          funext k
          rw [Nat.succ_eq_add_one, Nat.mul_add, Nat.mul_one]
          congr 1
          omega

/-! ## Whether a variable has room -/

theorem options_no_pair : ∀ entry ∈ options, entry.type ≠ .ipPair := by decide

theorem optionVariable_fits_string {entry : DhcpOption} (h : entry.type = .string) (len : Nat)
    (option : Nat → UInt8) : (optionVariable entry len option).Fits := by
  simp only [Variable.Fits, optionVariable, fillOptions, upperLength, h, if_true,
    List.length_append, length_ascii, List.length_singleton, List.length_map, List.length_range]
  simp only [maxOptionLength, OptionType.length]
  omega

/-- Any other variable has room if and only if its values have. -/
theorem optionVariable_fits_iff {entry : DhcpOption} (hentry : entry ∈ options)
    (h : entry.type ≠ .string) (len : Nat) (option : Nat → UInt8) :
    (optionVariable entry len option).Fits ↔
      ((List.range (turns entry.type len)).flatMap fun i =>
        valueText entry.type fun k => option (entry.type.length * i + k)).length ≤
        upperLength len entry := by
  rw [← fillLoop_eq (options_no_pair entry hentry) len option len (Nat.le_refl len)]
  simp only [Variable.Fits, optionVariable, fillOptions, if_neg h, List.length_append,
    length_ascii, List.length_singleton]
  omega

theorem length_values_le {type : OptionType} (option : Nat → UInt8) (n : Nat) :
    ((List.range n).flatMap fun i =>
      valueText type fun k => option (type.length * i + k)).length ≤
      n * (maxOptionLength type - 1) := by
  rw [List.length_flatMap]
  refine (List.sum_le_card_nsmul _ (maxOptionLength type - 1) fun l hl => ?_).trans ?_
  · obtain ⟨i, -, rfl⟩ := List.mem_map.mp hl
    exact Nat.le_sub_one_of_lt (length_valueText_lt type _)
  · rw [List.length_map, List.length_range, Nat.nsmul_eq_mul]

theorem turns_of_dvd {type : OptionType} {len : Nat} (hpos : 0 < len) (h : type.length ∣ len) :
    turns type len = len / type.length := by
  obtain ⟨k, rfl⟩ := h
  have hlength := type_length_pos type
  obtain ⟨k, rfl⟩ := Nat.exists_eq_succ_of_ne_zero (Nat.pos_of_mul_pos_left hpos).ne'
  have hsplit : type.length * (k + 1) - 1 = type.length * k + (type.length - 1) := by
    rw [Nat.mul_succ]
    omega
  rw [turns, Nat.succ_eq_add_one, hsplit, Nat.mul_add_div hlength,
    Nat.div_eq_of_lt (Nat.sub_one_lt hlength.ne'), Nat.mul_div_cancel_left _ hlength]

/-- An option that does not end with a value is read beyond its end. -/
theorem turns_of_not_dvd {type : OptionType} {len : Nat} (h : ¬(0 < len ∧ type.length ∣ len)) :
    turns type len = len / type.length + 1 := by
  have hlength := type_length_pos type
  rcases Nat.eq_zero_or_pos len with rfl | hpos
  · rw [turns, Nat.zero_sub]
  · have hrest : 0 < len % type.length :=
      Nat.pos_of_ne_zero fun hzero => h ⟨hpos, Nat.dvd_of_mod_eq_zero hzero⟩
    have hlt := Nat.mod_lt len hlength
    have hsplit : len - 1 = type.length * (len / type.length) + (len % type.length - 1) := by
      have hdiv := Nat.div_add_mod len type.length
      omega
    have hzero : (len % type.length - 1) / type.length = 0 := Nat.div_eq_of_lt (by omega)
    rw [turns, hsplit, Nat.mul_add_div hlength, hzero, Nat.add_zero]

/-- The types of the table that are no strings. -/
def numeric : List OptionType := [.ip, .u8, .u16, .u32, .s32]

theorem options_numeric : ∀ entry ∈ options, entry.type = .string ∨ entry.type ∈ numeric := by
  decide

/-- A value with the longest text there is, again and again. -/
def longest (type : OptionType) (k : Nat) : UInt8 :=
  if type = .s32 then if k % 4 = 0 then 0x80 else 0 else 0xff

theorem length_longest {type : OptionType} (h : type ∈ numeric) (i : Nat) :
    (valueText type fun k => longest type (type.length * i + k)).length =
      maxOptionLength type - 1 := by
  have hshift : (fun k => longest type (type.length * i + k)) = longest type := by
    funext k
    unfold longest
    split
    · next htype =>
      subst htype
      rw [show OptionType.s32.length = 4 from rfl, Nat.mul_add_mod]
    · rfl
  have hlongest : ∀ type ∈ numeric,
      (valueText type (longest type)).length = maxOptionLength type - 1 := by
    decide
  rw [hshift, hlongest type h]

/-- Whatever an option's data are, its variable has room: exactly for strings, for whole values, and
for so many values that the blanks that are reckoned twice make up for one value too much. -/
theorem optionVariable_always_fits {entry : DhcpOption} (hentry : entry ∈ options) (len : Nat) :
    (∀ option, (optionVariable entry len option).Fits) ↔
      entry.type = .string ∨ (0 < len ∧ entry.type.length ∣ len) ∨
        maxOptionLength entry.type - 1 ≤ len / entry.type.length := by
  rcases options_numeric entry hentry with hstring | hnumeric
  · exact iff_of_true (optionVariable_fits_string hstring len) (Or.inl hstring)
  have hstring : entry.type ≠ .string := by
    intro heq
    rw [heq] at hnumeric
    exact absurd hnumeric (by decide)
  have hmax : 0 < maxOptionLength entry.type :=
    Nat.lt_of_le_of_lt (Nat.zero_le _) (length_valueText_lt entry.type (longest entry.type))
  simp only [optionVariable_fits_iff hentry hstring, hstring, false_or, upperLength]
  -- all values of the longest kind take what a turn can take at most
  have hall : ∀ n, ((List.range n).flatMap fun i => valueText entry.type fun k =>
      longest entry.type (entry.type.length * i + k)).length =
        n * (maxOptionLength entry.type - 1) := by
    intro n
    induction n with
    | zero => rw [List.range_zero, List.flatMap_nil, List.length_nil, Nat.zero_mul]
    | succ n ih =>
        rw [List.range_succ, List.flatMap_append, List.length_append, ih, List.flatMap_singleton,
          length_longest hnumeric, Nat.succ_mul]
  constructor
  · intro hfits
    by_contra hnot
    rw [not_or] at hnot
    have hlong := hfits (longest entry.type)
    rw [hall, turns_of_not_dvd hnot.1, Nat.succ_mul, Nat.mul_sub_one,
      Nat.mul_comm (len / entry.type.length)] at hlong
    have hle : len / entry.type.length ≤ maxOptionLength entry.type * (len / entry.type.length) :=
      Nat.le_mul_of_pos_left _ hmax
    omega
  · intro hlen option
    refine (length_values_le option _).trans ?_
    by_cases hwhole : 0 < len ∧ entry.type.length ∣ len
    · rw [turns_of_dvd hwhole.1 hwhole.2, Nat.mul_comm]
      exact Nat.mul_le_mul_right _ (Nat.sub_le _ _)
    · have hmany := hlen.resolve_left hwhole
      have hle : len / entry.type.length ≤
          maxOptionLength entry.type * (len / entry.type.length) := Nat.le_mul_of_pos_left _ hmax
      rw [turns_of_not_dvd hwhole, Nat.succ_mul, Nat.mul_sub_one,
        Nat.mul_comm (len / entry.type.length)]
      omega

theorem valueText_ne_nil {type : OptionType} (h : type ∈ numeric) (option : Nat → UInt8) :
    valueText type option ≠ [] := by
  simp only [numeric, List.mem_cons, List.not_mem_nil, or_false] at h
  rcases h with rfl | rfl | rfl | rfl | rfl <;> simp [valueText, sprintip]

/-- There is no room for an option that is shorter than its type, whatever is in it. -/
theorem optionVariable_overflows {entry : DhcpOption} (hentry : entry ∈ options)
    (h : entry.type ≠ .string) {len : Nat} (hlen : len < entry.type.length)
    (option : Nat → UInt8) : ¬(optionVariable entry len option).Fits := by
  have hnumeric := (options_numeric entry hentry).resolve_left h
  have hne := valueText_ne_nil hnumeric fun k => option (entry.type.length * 0 + k)
  rw [optionVariable_fits_iff hentry h, turns_of_le hlen.le, upperLength,
    Nat.div_eq_of_lt hlen, Nat.mul_zero, Nat.le_zero, List.length_eq_zero_iff]
  simpa using hne

/-! ## The environment of an acknowledgement -/

def optionLength (packet : DhcpMessage) (pos : Nat) : Nat := (packet.mem (pos - 1)).toNat

/-- If the message has the option, its length is one that leaves room for its variable. -/
def HasRoom (packet : DhcpMessage) (entry : DhcpOption) : Prop :=
  ∀ pos, packet.findOption entry.code = some pos →
    entry.type = .string ∨
      (0 < optionLength packet pos ∧ entry.type.length ∣ optionLength packet pos) ∨
      maxOptionLength entry.type - 1 ≤ optionLength packet pos / entry.type.length

section Environment

variable (interface path home : List UInt8) (packet : DhcpMessage)

theorem length_filterMap_variableOf (l : List DhcpOption) :
    (l.filterMap (variableOf packet)).length =
      (l.filter fun entry => (packet.findOption entry.code).isSome).length := by
  induction l with
  | nil => rfl
  | cons entry l ih =>
      rw [List.filterMap_cons, variableOf]
      cases hfind : packet.findOption entry.code with
      | none => rw [List.filter_cons_of_neg (by simp [hfind])]; exact ih
      | some pos =>
          rw [List.filter_cons_of_pos (by simp [hfind]), Option.map_some, List.length_cons,
            List.length_cons, ih]

theorem length_headerVariables :
    (headerVariables packet).length =
      (if packet.readAddr 20 ≠ 0 then 1 else 0) +
      (if overload packet &&& 1 = 0 ∧ packet.mem 108 ≠ 0 then 1 else 0) +
      (if overload packet &&& 2 = 0 ∧ packet.mem 44 ≠ 0 then 1 else 0) := by
  unfold headerVariables
  rw [List.length_append, List.length_append]
  congr 1
  · congr 1
    · split <;> rfl
    · split <;> rfl
  · split <;> rfl

/-- `num_options` counts what is stored, and the end of the array has its place. -/
theorem envp_length :
    (fillEnvp interface path home (some packet)).envp.length + 1 =
      (fillEnvp interface path home (some packet)).pointers := by
  simp only [fillEnvp, List.length_append, length_filterMap_variableOf, length_headerVariables,
    numOptions, List.length_cons, List.length_nil]
  omega

theorem headerVariables_fit :
    (∀ v ∈ headerVariables packet, v.Fits) ↔
      (packet.readAddr 20 ≠ 0 → Short fun k => packet.mem (20 + k)) := by
  unfold headerVariables
  constructor
  · intro h hsiaddr
    rw [← addressVariable_fits "siaddr".toList]
    refine h _ (List.mem_append_left _ (List.mem_append_left _ ?_))
    rw [if_pos hsiaddr]
    exact List.mem_singleton_self _
  · intro h v hv
    rw [List.mem_append, List.mem_append] at hv
    rcases hv with (hv | hv) | hv
    · split at hv
      · next hsiaddr =>
        rw [List.mem_singleton.mp hv, addressVariable_fits]
        exact h hsiaddr
      · cases hv
    · split at hv
      · rw [List.mem_singleton.mp hv]
        exact stringVariable_fits _ _
      · cases hv
    · split at hv
      · rw [List.mem_singleton.mp hv]
        exact stringVariable_fits _ _
      · cases hv

/-- Whatever message the script is run for: the array of the environment has a place for every
variable.  If no option has a length that its variable lacks room for, everything is written where
there is room for it if and only if neither address has three digits in each of its numbers.  And an
option shorter than its type is written beyond its room whatever it says. -/
theorem environment_fits :
    (fillEnvp interface path home (some packet)).envp.length <
      (fillEnvp interface path home (some packet)).pointers ∧
    ((∀ entry ∈ options, HasRoom packet entry) →
      ((∀ v ∈ (fillEnvp interface path home (some packet)).envp, v.Fits) ↔
        (Short fun k => packet.mem (16 + k)) ∧
          (packet.readAddr 20 ≠ 0 → Short fun k => packet.mem (20 + k)))) ∧
    ∀ entry ∈ options, ∀ pos, entry.type ≠ .string → packet.findOption entry.code = some pos →
      optionLength packet pos < entry.type.length →
      ∃ v ∈ (fillEnvp interface path home (some packet)).envp,
        variableOf packet entry = some v ∧ ¬v.Fits := by
  refine ⟨Nat.lt_of_succ_le (envp_length interface path home packet).le, fun hroom => ?_, ?_⟩
  · have hoptions : ∀ v ∈ options.filterMap (variableOf packet), v.Fits := by
      intro v hv
      obtain ⟨entry, hentry, hvariable⟩ := List.mem_filterMap.mp hv
      obtain ⟨pos, hfind, rfl⟩ := Option.map_eq_some_iff.mp hvariable
      exact (optionVariable_always_fits hentry _).mpr (hroom entry hentry pos hfind) _
    rw [← headerVariables_fit, ← addressVariable_fits "ip".toList]
    constructor
    · intro h
      exact ⟨h _ (by simp [fillEnvp]),
        fun v hv => h v (List.mem_append_right _ hv)⟩
    · rintro ⟨haddress, hheader⟩ v hv
      rcases List.mem_append.mp hv with hv | hv
      · rcases List.mem_append.mp hv with hv | hv
        · simp only [List.mem_cons, List.not_mem_nil, or_false] at hv
          rcases hv with rfl | rfl | rfl | rfl
          · exact stringVariable_fits _ _
          · exact Nat.le_refl _
          · exact Nat.le_refl _
          · exact haddress
        · exact hoptions v hv
      · exact hheader v hv
  · intro entry hentry pos htype hfind hlen
    have hvariable : variableOf packet entry = some (optionVariable entry
        (optionLength packet pos) fun k => packet.mem (pos + k)) := by
      rw [variableOf, hfind]
      rfl
    have hmem := List.mem_filterMap.mpr ⟨entry, hentry, hvariable⟩
    exact ⟨_, List.mem_append_left _ (List.mem_append_right _ hmem), hvariable,
      optionVariable_overflows hentry htype hlen _⟩

end Environment

/-- The text `ip=192.168.100.100 ` is one character too long. -/
example : ¬(addressVariable "ip".toList fun k => [192, 168, 100, 100].getD k 0).Fits := by decide

end Xwr100.Udhcpc
