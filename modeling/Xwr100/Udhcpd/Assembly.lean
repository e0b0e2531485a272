import Xwr100.Udhcpd.Options

/-!
# Messages under assembly

A message is put together by writes to its header and by calls that add options.  Its header is
then that of a message in which only the writes were made, and its option field holds the options
that fitted when they came.
-/

namespace Xwr100.Udhcpd

open Lib

/-! ## Fields -/

namespace DhcpMessage

variable {m m' : DhcpMessage} {pos at_ count : Nat} {bytes : List UInt8}

def field (m : DhcpMessage) (pos count : Nat) : List UInt8 :=
  (List.range count).map fun k => m.mem (pos + k)

@[simp] theorem length_field : (m.field pos count).length = count := by simp [field]

theorem readBytes_eq : m.readBytes pos count = ofBigEndian (m.field pos count) := by
  induction count with
  | zero => rfl
  | succ count ih =>
      have hfield : m.field pos (count + 1) = m.field pos count ++ [m.mem (pos + count)] := by
        rw [field, List.range_succ, List.map_append]
        rfl
      rw [readBytes, ih, hfield, ofBigEndian, ofBigEndian, List.foldl_append]
      rfl

theorem readAddr_eq : m.readAddr pos = BitVec.ofNat 32 (ofBigEndian (m.field pos 4)) := by
  rw [readAddr, readBytes_eq]

theorem chaddr_eq : m.chaddr =
    ⟨BitVec.ofNat 48 (ofBigEndian (m.field 28 6)), BitVec.ofNat 80 (ofBigEndian (m.field 34 10))⟩ := by
  rw [chaddr, readBytes_eq, readBytes_eq]

theorem field_congr (h : ∀ k < count, m'.mem (at_ + k) = m.mem (pos + k)) :
    m'.field at_ count = m.field pos count := by
  apply List.map_congr_left
  intro k hk
  exact h k (List.mem_range.mp hk)

theorem field_append {a b : Nat} : m.field pos (a + b) = m.field pos a ++ m.field (pos + a) b := by
  rw [field, List.range_add, List.map_append, List.map_map]
  congr 1
  apply List.map_congr_left
  intro k hk
  rw [Function.comp, Nat.add_assoc]

theorem field_of_spells (h : Spells m.mem pos bytes) : m.field pos bytes.length = bytes := by
  apply List.ext_getElem
  · simp
  · intro k hk hk'
    simpa [field] using h k hk'

@[simp] theorem field_write : (m.write pos bytes).field pos bytes.length = bytes :=
  field_of_spells spells_writeAt

theorem field_write_of_length (h : bytes.length = count) :
    (m.write pos bytes).field pos count = bytes := by
  subst h
  exact field_write

theorem mem_write_before {p : Nat} (h : p < pos) : (m.write pos bytes).mem p = m.mem p :=
  writeAt_before h

theorem mem_write_behind {p : Nat} (h : pos + bytes.length ≤ p) :
    (m.write pos bytes).mem p = m.mem p :=
  writeAt_behind h

theorem field_write_beside (h : at_ + count ≤ pos ∨ pos + bytes.length ≤ at_) :
    (m.write pos bytes).field at_ count = m.field at_ count := by
  apply field_congr
  intro k hk
  rcases h with h | h
  · exact mem_write_before (by omega)
  · exact mem_write_behind (by omega)

end DhcpMessage

theorem readAddr_of_field {m : DhcpMessage} {pos : Nat} {addr : Addr}
    (h : m.field pos 4 = bigEndian 4 addr.toNat) : m.readAddr pos = addr := by
  rw [DhcpMessage.readAddr_eq, h]
  exact @ofNat_ofBigEndian 32 4 rfl addr

/-! ## Options one by one -/

def CodedOption.string (o : CodedOption) : Nat → UInt8 := fun k => o.bytes.getD k 0

/-- The option that `add_simple_option` builds. -/
def simpleOption (code : UInt8) (data : BitVec 32) (h : simpleLength code ≤ 4) : CodedOption where
  code := code
  data := bigEndian (simpleLength code) data.toNat
  fits := by
    rw [length_bigEndian]
    omega

/-- The options that are accepted one after the other behind so many bytes. -/
def fitting : Nat → List CodedOption → List CodedOption
  | _, [] => []
  | used, o :: rest =>
      if 308 ≤ used + o.data.length + 2 + 1 then fitting used rest
      else o :: fitting (used + (o.data.length + 2)) rest

/-- The code is neither padding nor end. -/
def CodedOption.Plain (o : CodedOption) : Prop := o.code ≠ dhcpPadding ∧ o.code ≠ dhcpEnd

def addStrings (m : DhcpMessage) (opts : List CodedOption) : Option DhcpMessage :=
  opts.foldlM (fun m o => (addOptionString m (some o.string)).map Prod.fst) m

theorem CodedOption.toNat_string_one (o : CodedOption) : (o.string 1).toNat = o.data.length := by
  rw [string, bytes, List.getD_cons_succ, List.getD_cons_zero, o.toNat_length]

theorem stringOption_string (o : CodedOption) : stringOption o.string = o := by
  obtain ⟨code, data, hfits⟩ := o
  have hlen := CodedOption.toNat_string_one ⟨code, data, hfits⟩
  simp only [stringOption, CodedOption.mk.injEq]
  refine ⟨rfl, ?_⟩
  rw [hlen]
  apply List.ext_getElem
  · simp
  · intro k hk hk'
    simp [CodedOption.string, CodedOption.bytes, List.getElem?_eq_getElem hk']

theorem addSimpleOption_eq (m : DhcpMessage) {code : UInt8} {data : BitVec 32}
    (h : simpleLength code ≤ 4) (hpos : simpleLength code ≠ 0) :
    addSimpleOption m code data = addOptionString m (some (simpleOption code data h).string) := by
  rw [addSimpleOption, if_neg hpos]
  have hbytes : simpleString code data = (simpleOption code data h).bytes := by
    rw [simpleString, CodedOption.bytes, simpleOption, length_bigEndian]
    rfl
  rw [hbytes]
  rfl

theorem fitting_append (used : Nat) (opts more : List CodedOption) :
    fitting used (opts ++ more) =
      fitting used opts ++ fitting (used + (area (fitting used opts)).length) more := by
  induction opts generalizing used with
  | nil => rfl
  | cons o rest ih =>
      rw [List.cons_append, fitting, fitting]
      split
      · exact ih used
      · rw [ih, area_cons, List.length_append, o.length_bytes, Nat.add_assoc, List.cons_append]

theorem area_append (opts more : List CodedOption) : area (opts ++ more) = area opts ++ area more := by
  simp [area]

theorem mem_fitting {used : Nat} {opts : List CodedOption} {o : CodedOption}
    (h : o ∈ fitting used opts) : o ∈ opts := by
  induction opts generalizing used with
  | nil => cases h
  | cons head rest ih =>
      rw [fitting] at h
      split at h
      · exact List.mem_cons_of_mem _ (ih h)
      · rcases List.mem_cons.mp h with rfl | h
        · exact List.mem_cons_self
        · exact List.mem_cons_of_mem _ (ih h)

theorem fitting_of_length {used : Nat} {opts : List CodedOption}
    (h : used + (area opts).length + 1 < 308) : fitting used opts = opts := by
  induction opts generalizing used with
  | nil => rfl
  | cons o rest ih =>
      rw [area_cons, List.length_append, o.length_bytes] at h
      rw [fitting, if_neg (by omega), ih (by omega)]

/-! ## Outside the options -/

/-- Outside the option field the bytes are those of the other message. -/
def SameOutside (head m : DhcpMessage) : Prop := ∀ p, p < 240 ∨ 548 ≤ p → m.mem p = head.mem p

theorem SameOutside.refl (m : DhcpMessage) : SameOutside m m := fun _ _ => rfl

theorem SameOutside.trans {m m' m'' : DhcpMessage} (h : SameOutside m m') (h' : SameOutside m' m'') :
    SameOutside m m'' := fun p hp => (h' p hp).trans (h p hp)

theorem SameOutside.field {head m : DhcpMessage} (h : SameOutside head m) {pos count : Nat}
    (hpos : pos + count ≤ 240) : m.field pos count = head.field pos count :=
  DhcpMessage.field_congr fun k hk => h _ (Or.inl (by omega))

theorem SameOutside.write {head m : DhcpMessage} (h : SameOutside head m) (pos : Nat)
    (bytes : List UInt8) : SameOutside (head.write pos bytes) (m.write pos bytes) := by
  intro p hp
  simp only [DhcpMessage.write, writeAt, h p hp]

theorem addOptionString_sameOutside {m m' : DhcpMessage} {string : Option (Nat → UInt8)} {ret : Nat}
    (h : addOptionString m string = some (m', ret)) : SameOutside m m' := by
  unfold addOptionString at h
  cases string with
  | none =>
      cases h
      exact SameOutside.refl _
  | some string =>
      dsimp only at h
      cases hend : endOption m with
      | none =>
          rw [hend] at h
          cases h
      | some end_ =>
          rw [hend] at h
          dsimp only at h
          split at h
          · cases h
            exact SameOutside.refl _
          · cases h
            intro p hp
            have hlen : ((List.range ((string 1).toNat + 2)).map string).length =
                (string 1).toNat + 2 := by simp
            rcases hp with hp | hp
            · rw [DhcpMessage.mem_write_before (by omega), DhcpMessage.mem_write_before (by omega)]
            · rw [DhcpMessage.mem_write_behind (by simp; omega),
                DhcpMessage.mem_write_behind (by omega)]

/-! ## Assembly -/

/-- A message that is another one but for its options, which are these. -/
structure Assembled (m head : DhcpMessage) (opts : List CodedOption) : Prop where
  outside : SameOutside head m
  options : OptionsAre m opts

namespace Assembled

variable {m head : DhcpMessage} {opts : List CodedOption}

theorem write (h : Assembled m head opts) {pos : Nat} {bytes : List UInt8}
    (hpos : pos + bytes.length ≤ 240) :
    Assembled (m.write pos bytes) (head.write pos bytes) opts where
  outside := h.outside.write pos bytes
  options :=
    { codes := h.options.codes
      bounded := h.options.bounded
      bytes := by
        intro k hk
        rw [DhcpMessage.mem_write_behind (by omega)]
        exact h.options.bytes k hk }

/-- An option is added if it fits. -/
theorem addString (h : Assembled m head opts) {o : CodedOption} (ho : o.Plain) :
    ∃ m', (addOptionString m (some o.string)).map Prod.fst = some m' ∧
      Assembled m' head (opts ++ fitting (area opts).length [o]) := by
  have hlen := o.toNat_string_one
  by_cases hfull : 308 ≤ (area opts).length + o.data.length + 2 + 1
  · have hadd := @OptionsAre.addOptionString_full _ _ h.options o.string (by rwa [hlen])
    refine ⟨m, ?_, ?_⟩
    · rw [hadd]
      rfl
    · rw [fitting, if_pos hfull, fitting, List.append_nil]
      exact h
  · have hfits := @OptionsAre.addOptionString_fits _ _ h.options o.string ho
      (by rw [hlen]; omega)
    obtain ⟨m', hadd, hok⟩ := hfits
    rw [stringOption_string] at hok
    refine ⟨m', by rw [hadd]; rfl, ?_⟩
    rw [fitting, if_neg hfull, fitting]
    exact ⟨h.outside.trans (addOptionString_sameOutside hadd), hok⟩

theorem length_area_fitting_singleton (used : Nat) (o : CodedOption) :
    (area (fitting used [o])).length =
      if 308 ≤ used + o.data.length + 2 + 1 then 0 else o.data.length + 2 := by
  rw [fitting]
  split
  · rfl
  · rw [fitting, area_cons, area, List.flatMap_nil, List.append_nil, o.length_bytes]

theorem addStrings (h : Assembled m head opts) {more : List CodedOption}
    (hmore : ∀ o ∈ more, o.Plain) :
    ∃ m', addStrings m more = some m' ∧
      Assembled m' head (opts ++ fitting (area opts).length more) := by
  induction more generalizing m opts with
  | nil =>
      refine ⟨m, rfl, ?_⟩
      rw [fitting, List.append_nil]
      exact h
  | cons o rest ih =>
      obtain ⟨m', hadd, hm'⟩ := h.addString (hmore o List.mem_cons_self)
      obtain ⟨m'', hrest, hm''⟩ := ih hm' fun o' ho' => hmore o' (List.mem_cons_of_mem _ ho')
      refine ⟨m'', ?_, ?_⟩
      · rw [Udhcpd.addStrings, List.foldlM_cons, hadd]
        exact hrest
      · rw [area_append, List.length_append, length_area_fitting_singleton, List.append_assoc]
          at hm''
        rw [fitting]
        rw [fitting] at hm''
        split
        · next hfull =>
          rw [if_pos hfull, if_pos hfull] at hm''
          exact hm''
        · next hfull =>
          rw [if_neg hfull, if_neg hfull, fitting, List.singleton_append] at hm''
          exact hm''

theorem addSimple (h : Assembled m head opts) {code : UInt8} {data : BitVec 32}
    (hlen : simpleLength code ≤ 4) (hpos : simpleLength code ≠ 0)
    (hplain : code ≠ dhcpPadding ∧ code ≠ dhcpEnd) :
    ∃ m', (addSimpleOption m code data).map Prod.fst = some m' ∧
      Assembled m' head (opts ++ fitting (area opts).length [simpleOption code data hlen]) := by
  rw [addSimpleOption_eq m hlen hpos]
  exact h.addString hplain

end Assembled

theorem blankHeader_beyond (m : DhcpMessage) (type : UInt8) {p : Nat} (hp : 548 ≤ p) :
    (blankHeader m type).mem p = m.mem p := by
  simp only [blankHeader]
  rw [if_neg (by omega), if_neg (by omega), if_neg (by omega), if_neg (by omega),
    if_neg (by omega), if_neg (by omega)]

theorem assembled_initHeader (m : DhcpMessage) (type : UInt8) :
    ∃ m', initHeader m type = some m' ∧
      Assembled m' (blankHeader m type) [messageTypeOption type] := by
  have hstart : Assembled (blankHeader m type) (blankHeader m type) [] :=
    ⟨SameOutside.refl _, optionsAre_blankHeader m type⟩
  have hsimple := @Assembled.addSimple _ _ _ hstart dhcpMessageType (BitVec.ofNat 32 type.toNat)
    (by decide) (by decide) (by decide)
  obtain ⟨m', hadd, hm'⟩ := hsimple
  have hoption : simpleOption dhcpMessageType (BitVec.ofNat 32 type.toNat) (by decide) =
      messageTypeOption type := by
    have hstring := simpleString_messageType type
    simp only [simpleString, List.cons_append, List.nil_append, List.cons.injEq, true_and] at hstring
    simp only [simpleOption, messageTypeOption, CodedOption.mk.injEq, true_and]
    exact hstring.2
  rw [hoption] at hm'
  exact ⟨m', hadd, hm'⟩

/-! ## What is found in a message -/

theorem HoldsAt.mem_messageType {m : DhcpMessage} {type : UInt8} {pos : Nat}
    (h : HoldsAt m (messageTypeOption type) pos) : m.mem pos = type :=
  h.2 0 Nat.one_pos

/-- An option with the bytes of an address is read as this address. -/
theorem HoldsAt.readAddr {m : DhcpMessage} {o : CodedOption} {addr : Addr} {pos : Nat}
    (h : HoldsAt m o pos) (hdata : o.data = bigEndian 4 addr.toNat) : m.readAddr pos = addr := by
  obtain ⟨-, hspells⟩ := h
  rw [hdata] at hspells
  have hfield := DhcpMessage.field_of_spells hspells
  rw [length_bigEndian] at hfield
  exact readAddr_of_field hfield

end Xwr100.Udhcpd
