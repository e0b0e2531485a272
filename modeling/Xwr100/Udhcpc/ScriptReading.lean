import Xwr100.Udhcpc.Conversation
import Xwr100.Udhcpc.Script

/-!
# What the script learns of the server's configuration

Each option of a reply arrives in the environment of the script as one text, and the text shows what
the server has put into the reply: no two data of an option have the same.
-/

namespace Xwr100.Udhcpc

open Lib Udhcpd

/-! ## Texts of values -/

/-- The data of an option, as `fill_options` gets at them. -/
def dataAt (data : List UInt8) (k : Nat) : UInt8 := data.getD k 0

theorem dataAt_eq_get {data : List UInt8} {k : Nat} (hk : k < data.length) :
    dataAt data k = data.get ⟨k, hk⟩ := by
  simp [dataAt, hk]

theorem number_congr {f g : Nat → UInt8} {count : Nat} (h : ∀ k < count, f k = g k) :
    number f count = number g count := by
  rw [number, number]
  congr 1
  exact List.map_congr_left fun k hk => h k (List.mem_range.mp hk)

/-- The text of a value shows nothing behind the value. -/
theorem valueText_congr {type : OptionType} (htype : type ∈ numeric) {f g : Nat → UInt8}
    (h : ∀ k < type.length, f k = g k) : valueText type f = valueText type g := by
  simp only [numeric, List.mem_cons, List.not_mem_nil, or_false] at htype
  rcases htype with rfl | rfl | rfl | rfl | rfl
  · simp only [valueText, sprintip, h 0 (by decide), h 1 (by decide), h 2 (by decide),
      h 3 (by decide)]
  · exact congrArg (fun n => decimal n ++ [0x20]) (number_congr h)
  · exact congrArg (fun n => decimal n ++ [0x20]) (number_congr h)
  · exact congrArg (fun n => decimal n ++ [0x20]) (number_congr h)
  · exact congrArg (fun n => signedDecimal (BitVec.ofNat 32 n).toInt ++ [0x20]) (number_congr h)

theorem ext_dataAt {a b : List UInt8} (hlength : a.length = b.length)
    (h : ∀ k < a.length, dataAt a k = dataAt b k) : a = b := by
  apply List.ext_get hlength
  intro k hk hk'
  rw [← dataAt_eq_get hk, ← dataAt_eq_get hk', h k hk]

theorem number_dataAt (value : List UInt8) : number (dataAt value) value.length = ofBigEndian value := by
  rw [number]
  congr 1
  apply List.ext_get (by simp)
  intro k hk hk'
  simp [dataAt, hk']

theorem number_injOn (count : Nat) :
    Set.InjOn (fun value => number (dataAt value) count) {value | value.length = count} := by
  intro a ha b hb heq
  dsimp only at heq
  rw [← show a.length = count from ha, number_dataAt, ha, ← show b.length = count from hb,
    number_dataAt] at heq
  rw [← Codec.bigEndian_ofBigEndian a, ← Codec.bigEndian_ofBigEndian b, heq, ha, hb]

theorem blank_not_digit : isDigit 0x20 = false := by decide

theorem dot_not_digit : isDigit 0x2e = false := by decide

theorem number_selfDelimiting (count : Nat) :
    SelfDelimiting {value | value.length = count} fun value =>
      decimal (number (dataAt value) count) ++ [0x20] :=
  (SelfDelimiting.decimal blank_not_digit).comp (number_injOn count) (fun _ _ => trivial)

theorem octet_selfDelimiting {stop : UInt8} (h : isDigit stop = false) :
    SelfDelimiting Set.univ fun b : UInt8 => decimal b.toNat ++ [stop] :=
  (SelfDelimiting.decimal h).comp (fun _ _ _ _ heq => UInt8.toNat_inj.mp heq) (fun _ _ => trivial)

theorem address_selfDelimiting :
    SelfDelimiting {value | value.length = 4} fun value => sprintip [] (dataAt value) := by
  have hfour := (octet_selfDelimiting dot_not_digit).seq
    ((octet_selfDelimiting dot_not_digit).seq
      ((octet_selfDelimiting dot_not_digit).seq (octet_selfDelimiting blank_not_digit)))
  have hmaps : Set.MapsTo
      (fun value : List UInt8 => (dataAt value 0, dataAt value 1, dataAt value 2, dataAt value 3))
      {value | value.length = 4}
      ((Set.univ : Set UInt8) ×ˢ (Set.univ : Set UInt8) ×ˢ (Set.univ : Set UInt8) ×ˢ Set.univ) :=
    fun _ _ => ⟨trivial, trivial, trivial, trivial⟩
  refine hfour.comp (fun a ha b hb heq => ?_) hmaps
  simp only [Prod.mk.injEq] at heq
  obtain ⟨h₀, h₁, h₂, h₃⟩ := heq
  apply ext_dataAt (Eq.trans ha (Eq.symm hb))
  intro k hk
  have hcases : k = 0 ∨ k = 1 ∨ k = 2 ∨ k = 3 := by
    rw [show a.length = 4 from ha] at hk
    omega
  rcases hcases with rfl | rfl | rfl | rfl <;> assumption

theorem signed_selfDelimiting :
    SelfDelimiting {value | value.length = 4} fun value =>
      signedDecimal (BitVec.ofNat 32 (number (dataAt value) 4)).toInt ++ [0x20] := by
  refine (SelfDelimiting.signedDecimal blank_not_digit).comp (fun a ha b hb heq => ?_)
    fun _ _ => trivial
  have hword := congrArg BitVec.toNat (BitVec.toInt_inj.mp heq)
  rw [BitVec.toNat_ofNat, BitVec.toNat_ofNat, Nat.mod_eq_of_lt (number_lt _ 4),
    Nat.mod_eq_of_lt (number_lt _ 4)] at hword
  exact number_injOn 4 ha hb hword

theorem valueText_selfDelimiting {type : OptionType} (htype : type ∈ numeric) :
    SelfDelimiting {value | value.length = type.length} fun value =>
      valueText type (dataAt value) := by
  simp only [numeric, List.mem_cons, List.not_mem_nil, or_false] at htype
  rcases htype with rfl | rfl | rfl | rfl | rfl
  · exact address_selfDelimiting
  · exact number_selfDelimiting 1
  · exact number_selfDelimiting 2
  · exact number_selfDelimiting 4
  · exact signed_selfDelimiting

/-- No zero ends the text of a value. -/
theorem zero_notMem_valueText {type : OptionType} (htype : type ∈ numeric) (option : Nat → UInt8) :
    0 ∉ valueText type option := by
  simp only [numeric, List.mem_cons, List.not_mem_nil, or_false] at htype
  rcases htype with rfl | rfl | rfl | rfl | rfl
  · simp [valueText, sprintip, ascii, zero_notMem_decimal]
  · simp [valueText, zero_notMem_decimal]
  · simp [valueText, zero_notMem_decimal]
  · simp [valueText, zero_notMem_decimal]
  · simp [valueText, zero_notMem_signedDecimal]

/-! ## Texts of options -/

theorem zero_notMem_name : ∀ entry ∈ options, 0 ∉ ascii entry.name := by decide

theorem whole_of_takes {entry : DhcpOption} {len : Nat} (h : entry.Takes len)
    (hstring : entry.type ≠ .string) : 0 < len ∧ entry.type.length ∣ len := by
  rw [DhcpOption.Takes, if_neg hstring] at h
  split at h
  · exact h
  · rw [h]
    exact ⟨type_length_pos entry.type, Nat.dvd_refl _⟩

/-- The `i`-th value of so many bytes. -/
def valueOf (length : Nat) (data : List UInt8) (i : Nat) : List UInt8 :=
  (List.range length).map fun k => dataAt data (length * i + k)

theorem length_valueOf (length : Nat) (data : List UInt8) (i : Nat) :
    (valueOf length data i).length = length := by
  rw [valueOf, List.length_map, List.length_range]

theorem dataAt_valueOf {length k : Nat} (hk : k < length) (data : List UInt8) (i : Nat) :
    dataAt (valueOf length data i) k = dataAt data (length * i + k) := by
  rw [dataAt, valueOf, List.getD_eq_getElem?_getD, List.getElem?_map, List.getElem?_range hk]
  rfl

section Texts

variable {entry : DhcpOption} (hentry : entry ∈ options)

include hentry

/-- The values of an option, if it is no string. -/
theorem fillOptions_values (hstring : entry.type ≠ .string) (len : Nat) (option : Nat → UInt8) :
    fillOptions len option entry = ascii entry.name ++ [0x3d] ++
      (List.range (turns entry.type len)).flatMap fun i =>
        valueText entry.type fun k => option (entry.type.length * i + k) := by
  rw [fillOptions, if_neg hstring,
    fillLoop_eq (options_no_pair entry hentry) len option len (Nat.le_refl len)]

/-- No zero ends the text of an option, unless its string has one. -/
theorem zero_notMem_fillOptions {len : Nat} {option : Nat → UInt8}
    (h : entry.type = .string → ∀ k < len, option k ≠ 0) : 0 ∉ fillOptions len option entry := by
  have hname := zero_notMem_name entry hentry
  by_cases hstring : entry.type = .string
  · have hdata : 0 ∉ (List.range len).map option := by
      intro hmem
      obtain ⟨k, hk, hzero⟩ := List.mem_map.mp hmem
      exact h hstring k (List.mem_range.mp hk) hzero
    rw [fillOptions, if_pos hstring]
    simp [hname, hdata]
  · have hvalues := zero_notMem_valueText ((options_numeric entry hentry).resolve_left hstring)
    rw [fillOptions_values hentry hstring]
    simp [hname, hvalues]

/-- A text shows nothing behind the data of its option. -/
theorem fillOptions_congr {len : Nat} (htakes : entry.Takes len) {f g : Nat → UInt8}
    (h : ∀ k < len, f k = g k) : fillOptions len f entry = fillOptions len g entry := by
  by_cases hstring : entry.type = .string
  · rw [fillOptions, fillOptions, if_pos hstring, if_pos hstring]
    congr 1
    exact List.map_congr_left fun k hk => h k (List.mem_range.mp hk)
  · obtain ⟨hpos, hdvd⟩ := whole_of_takes htakes hstring
    have hnumeric := (options_numeric entry hentry).resolve_left hstring
    rw [fillOptions_values hentry hstring, fillOptions_values hentry hstring]
    congr 1
    refine List.flatMap_congr fun i hi => valueText_congr hnumeric fun k hk => h _ ?_
    rw [List.mem_range, turns_of_dvd hpos hdvd] at hi
    calc entry.type.length * i + k < entry.type.length * (i + 1) := by rw [Nat.mul_succ]; omega
      _ ≤ entry.type.length * (len / entry.type.length) := Nat.mul_le_mul_left _ hi
      _ ≤ len := Nat.mul_div_le _ _

theorem fillOptions_inj {a b : List UInt8} (ha : entry.Takes a.length)
    (hb : entry.Takes b.length)
    (h : fillOptions a.length (dataAt a) entry = fillOptions b.length (dataAt b) entry) :
    a = b := by
  by_cases hstring : entry.type = .string
  · rw [fillOptions, fillOptions, if_pos hstring, if_pos hstring] at h
    have htext := List.append_cancel_left h
    have hlength : a.length = b.length := by simpa using congrArg List.length htext
    apply ext_dataAt hlength
    intro k hk
    rw [hlength] at htext
    exact List.map_inj_left.mp htext k (List.mem_range.mpr (hlength ▸ hk))
  · obtain ⟨hposa, hdvda⟩ := whole_of_takes ha hstring
    obtain ⟨hposb, hdvdb⟩ := whole_of_takes hb hstring
    have hnumeric := (options_numeric entry hentry).resolve_left hstring
    -- a text is the row of the texts of the values
    have hvalues : ∀ data n, ((List.range n).flatMap fun i => valueText entry.type fun k =>
        dataAt data (entry.type.length * i + k)) =
          ((List.range n).map (valueOf entry.type.length data)).flatMap fun value =>
            valueText entry.type (dataAt value) := by
      intro data n
      rw [List.flatMap_map]
      exact List.flatMap_congr fun i _ =>
        valueText_congr hnumeric fun k hk => (dataAt_valueOf hk data i).symm
    rw [fillOptions_values hentry hstring, fillOptions_values hentry hstring] at h
    have htext := List.append_cancel_left h
    rw [hvalues, hvalues, turns_of_dvd hposa hdvda, turns_of_dvd hposb hdvdb] at htext
    have hlengths : ∀ data n, ∀ value ∈ (List.range n).map (valueOf entry.type.length data),
        value ∈ {value : List UInt8 | value.length = entry.type.length} := by
      intro data n value hvalue
      obtain ⟨i, -, rfl⟩ := List.mem_map.mp hvalue
      exact length_valueOf _ _ _
    have hrow := (valueText_selfDelimiting hnumeric).flatMap_inj
      (fun value _ => valueText_ne_nil hnumeric (dataAt value)) (hlengths _ _) (hlengths _ _) htext
    have hcount : a.length / entry.type.length = b.length / entry.type.length := by
      simpa using congrArg List.length hrow
    have hlength : a.length = b.length := by
      rw [← Nat.div_mul_cancel hdvda, hcount, Nat.div_mul_cancel hdvdb]
    apply ext_dataAt hlength
    intro k hk
    rw [hlength] at hrow
    have hpos := type_length_pos entry.type
    have hlt : k / entry.type.length < b.length / entry.type.length :=
      Nat.div_lt_div_of_lt_of_dvd hdvdb (hlength ▸ hk)
    have hvalue := List.map_inj_left.mp hrow _ (List.mem_range.mpr hlt)
    have hbyte := congrArg (fun value => dataAt value (k % entry.type.length)) hvalue
    simp only [dataAt_valueOf (Nat.mod_lt k hpos), Nat.div_add_mod] at hbyte
    exact hbyte

end Texts

/-! ## From the server to the script -/

theorem reply_typed (server : Addr) (conf : ReplyConfig) (r : Reply) :
    ∀ c ∈ r.options server conf, Typed c := by
  have htype : ∀ type, Typed (messageTypeOption type) := fun _ =>
    ⟨⟨"dhcptype".toList, .u8, false, false, 0x35⟩, by decide, rfl, rfl⟩
  have hserver : Typed (simpleOption dhcpServerId server (by decide)) :=
    ⟨⟨"serverid".toList, .ip, false, false, 0x36⟩, by decide, rfl, length_bigEndian _ _⟩
  have hlease : ∀ time, Typed (leaseTimeOption time) := fun _ =>
    ⟨⟨"lease".toList, .u32, false, false, 0x33⟩, by decide, rfl, length_bigEndian _ _⟩
  have hconf : ∀ used, ∀ c ∈ fitting used conf.added, Typed c :=
    fun used c hc => conf.options.typed c (ReplyConfig.mem_added (mem_fitting hc)).1
  have hown : ∀ type, ∀ c ∈ serverOptions server type, Typed c := by
    rintro type c (_ | ⟨_, _ | ⟨_, hc⟩⟩)
    · exact htype type
    · exact hserver
    · cases hc
  intro c hc
  unfold Reply.options at hc
  split at hc
  · exact hown _ c hc
  · rcases List.mem_append.mp hc with hc | hc
    · rcases List.mem_append.mp hc with hc | hc
      · exact hown _ c hc
      · rw [List.mem_singleton.mp hc]
        exact hlease _
    · exact hconf _ c hc
  · rcases List.mem_append.mp hc with hc | hc
    · exact hown _ c hc
    · exact hconf _ c hc

theorem fits_of_takes {entry : DhcpOption} (hentry : entry ∈ options) {len : Nat}
    (h : entry.Takes len) (option : Nat → UInt8) : (optionVariable entry len option).Fits := by
  refine (optionVariable_always_fits hentry len).mpr ?_ option
  by_cases hstring : entry.type = .string
  · exact Or.inl hstring
  · exact Or.inr (Or.inl (whole_of_takes h hstring))

/-- Whatever the server is asked and has been configured with, and whatever its stack held before:
once the script of the client runs for the reply, it has a variable for each option of the table that
the server has put into the reply and for no other.  The variable has room, its text ends where it
should unless there is a zero in a string, and it is the text of the server's data and of no other
data such an option may have. -/
theorem script_told (server : Addr) (conf : ReplyConfig) (stack oldpacket : DhcpMessage)
    (r : Reply) :
    ∃ m, r.message server conf stack oldpacket = some m ∧
      ∀ m', SameMessage m m' → ∀ entry ∈ options,
        match firstWith entry.code (r.options server conf) with
        | none => variableOf m' entry = none
        | some c => ∃ v, variableOf m' entry = some v ∧ v.Fits ∧
            ((entry.type = .string → 0 ∉ c.data) → 0 ∉ v.text) ∧
            ∀ data, entry.Takes data.length →
              (v.text = fillOptions data.length (dataAt data) entry ↔ data = c.data) := by
  obtain ⟨m, hmessage, hm⟩ := r.message_eq server conf stack oldpacket
  refine ⟨m, hmessage, fun m' hsame entry hentry => ?_⟩
  have hend : entry.code ≠ dhcpEnd := (options_codes entry hentry).2.1
  have hreturns := (hsame.options hm.options).getOption Reply.options_over hend false
  cases hfirst : firstWith entry.code (r.options server conf) with
  | none =>
      rw [hfirst] at hreturns
      rw [variableOf, show m'.findOption entry.code = none from hreturns]
      rfl
  | some c =>
      rw [hfirst] at hreturns
      obtain ⟨pos, hpos, hlength, hspells⟩ := hreturns
      have hcode : c.code = entry.code := by simpa using List.find?_some hfirst
      obtain ⟨entry', hentry', hsame', htakes⟩ :=
        reply_typed server conf r c (List.mem_of_find?_eq_some hfirst)
      obtain rfl := options_inj entry' hentry' entry hentry (hsame'.trans hcode)
      have htext : fillOptions c.data.length (fun k => m'.mem (pos + k)) entry' =
          fillOptions c.data.length (dataAt c.data) entry' :=
        fillOptions_congr hentry' htakes fun k hk => (hspells k hk).trans (dataAt_eq_get hk).symm
      refine ⟨optionVariable entry' c.data.length fun k => m'.mem (pos + k), ?_,
        fits_of_takes hentry' htakes _, fun hstring => ?_, fun data hdata => ?_⟩
      · rw [variableOf, show m'.findOption entry'.code = some pos from hpos, Option.map_some, hlength]
      · refine zero_notMem_fillOptions hentry' fun htype k hk hzero => hstring htype ?_
        rw [hspells k hk] at hzero
        rw [← hzero]
        exact List.get_mem c.data ⟨k, hk⟩
      · rw [optionVariable, htext]
        exact ⟨fun h => (fillOptions_inj hentry' htakes hdata h).symm, fun h => by rw [h]⟩

end Xwr100.Udhcpc
