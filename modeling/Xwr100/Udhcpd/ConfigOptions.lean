import Xwr100.Udhcpd.Options
import Mathlib.Data.List.Induction
import Mathlib.Data.List.Nodup

/-!
# Configured options

The option table of `options.c` and the list of options that the configuration file fills with
`attach_option`.  The list is sorted by code, so that `find_option` may stop early.
-/

namespace Xwr100.Udhcpd

open Lib

/-! ## The table -/

/-- `struct dhcp_option`, with the two flags beside the type. -/
structure DhcpOption where
  name : List Char
  type : OptionType
  req : Bool
  list : Bool
  code : UInt8
deriving DecidableEq

def options : List DhcpOption :=
  [⟨"subnet".toList, .ip, true, false, 0x01⟩,
    ⟨"timezone".toList, .s32, false, false, 0x02⟩,
    ⟨"router".toList, .ip, true, true, 0x03⟩,
    ⟨"timesvr".toList, .ip, false, true, 0x04⟩,
    ⟨"namesvr".toList, .ip, false, true, 0x05⟩,
    ⟨"dns".toList, .ip, true, true, 0x06⟩,
    ⟨"logsvr".toList, .ip, false, true, 0x07⟩,
    ⟨"cookiesvr".toList, .ip, false, true, 0x08⟩,
    ⟨"lprsvr".toList, .ip, false, true, 0x09⟩,
    ⟨"hostname".toList, .string, true, false, 0x0c⟩,
    ⟨"bootsize".toList, .u16, false, false, 0x0d⟩,
    ⟨"domain".toList, .string, true, false, 0x0f⟩,
    ⟨"swapsvr".toList, .ip, false, false, 0x10⟩,
    ⟨"rootpath".toList, .string, false, false, 0x11⟩,
    ⟨"ipttl".toList, .u8, false, false, 0x17⟩,
    ⟨"mtu".toList, .u16, false, false, 0x1a⟩,
    ⟨"broadcast".toList, .ip, true, false, 0x1c⟩,
    ⟨"ntpsrv".toList, .ip, false, true, 0x2a⟩,
    ⟨"wins".toList, .ip, true, true, 0x2c⟩,
    ⟨"requestip".toList, .ip, false, false, 0x32⟩,
    ⟨"lease".toList, .u32, false, false, 0x33⟩,
    ⟨"dhcptype".toList, .u8, false, false, 0x35⟩,
    ⟨"serverid".toList, .ip, false, false, 0x36⟩,
    ⟨"message".toList, .string, false, false, 0x38⟩,
    ⟨"tftp".toList, .string, false, false, 0x42⟩,
    ⟨"bootfile".toList, .string, false, false, 0x43⟩]

theorem options_optionTable : options.map (fun o => (o.code, o.type)) = optionTable := rfl

def DhcpOption.TakesOnce (o : DhcpOption) (length : Nat) : Prop :=
  if o.type = .string then 0 < length ∧ length ≤ 254 else length = o.type.length

def DhcpOption.Takes (o : DhcpOption) (length : Nat) : Prop :=
  if o.type = .string then 0 < length ∧ length ≤ 254
  else if o.list then 0 < length ∧ o.type.length ∣ length
  else length = o.type.length

instance (o : DhcpOption) (length : Nat) : Decidable (o.Takes length) :=
  inferInstanceAs (Decidable (if o.type = .string then 0 < length ∧ length ≤ 254
    else if o.list then 0 < length ∧ o.type.length ∣ length else length = o.type.length))

theorem options_codes : ∀ o ∈ options,
    o.code ≠ dhcpPadding ∧ o.code ≠ dhcpEnd ∧ o.code ≠ dhcpOptionOver := by
  decide

theorem options_list : ∀ o ∈ options, o.list = true → o.type = .ip := by
  decide

theorem options_inj : ∀ o ∈ options, ∀ o' ∈ options, o.code = o'.code → o = o' := by
  have hcodes : (options.map (·.code)).Nodup := by decide
  intro o ho o' ho' hcode
  exact List.inj_on_of_nodup_map hcodes ho ho' hcode

/-! ## The list -/

/-- `find_option`; the codes of the table are below 128, where `char` has no sign. -/
def findOption : List CodedOption → UInt8 → Option CodedOption
  | [], _ => none
  | o :: rest, code =>
      if o.code < code then findOption rest code
      else if o.code = code then some o
      else none

/-- The data put behind what the option that `find_option` finds has already. -/
def extendOption (code : UInt8) (buffer : List UInt8) : List CodedOption → List CodedOption
  | [] => []
  | o :: rest =>
      if o.code < code then o :: extendOption code buffer rest
      else if h : o.data.length + buffer.length ≤ 255 then
        { o with
          data := o.data ++ buffer
          fits := by rwa [List.length_append] } :: rest
      else o :: rest

/-- The new option in front of the first one with a code that is not smaller. -/
def insertOption (new : CodedOption) : List CodedOption → List CodedOption
  | [] => [new]
  | o :: rest => if o.code < new.code then o :: insertOption new rest else new :: o :: rest

def attachOption (optList : List CodedOption) (option : DhcpOption) (buffer : List UInt8)
    (h : buffer.length ≤ 255) : List CodedOption :=
  match findOption optList option.code with
  | some _ => if option.list then extendOption option.code buffer optList else optList
  | none => insertOption ⟨option.code, buffer, h⟩ optList

/-- `free_options`: what it frees and what it leaves behind unreachable, for it stops behind the
lease time. -/
def freeOptions : List CodedOption → List CodedOption × List CodedOption
  | [] => ([], [])
  | o :: rest =>
      if o.code = dhcpLeaseTime then ([o], rest)
      else (o :: (freeOptions rest).1, (freeOptions rest).2)

/-! ## What the list stands for -/

abbrev OptionValues := UInt8 → Option (List UInt8)

/-- A list entry is lengthened while there is room; any other keeps its first data. -/
def OptionValues.attach (held : OptionValues) (option : DhcpOption) (buffer : List UInt8) : OptionValues :=
  Function.update held option.code <| some <|
    match held option.code with
    | none => buffer
    | some data =>
        if option.list ∧ data.length + buffer.length ≤ 255 then data ++ buffer else data

def heldBy (optList : List CodedOption) : OptionValues := fun code =>
  (findOption optList code).map (·.data)

def Sorted (optList : List CodedOption) : Prop := optList.Pairwise (·.code < ·.code)

/-- The option is in the table, and its data has a length that fits its type. -/
def Typed (o : CodedOption) : Prop := ∃ entry ∈ options, entry.code = o.code ∧ entry.Takes o.data.length

section Lists

variable {optList : List CodedOption} {o new : CodedOption} {code : UInt8} {buffer : List UInt8}

theorem findOption_of_lt (h : ∀ o ∈ optList, code < o.code) : findOption optList code = none := by
  cases optList with
  | nil => rfl
  | cons o rest =>
      have hlt := h o List.mem_cons_self
      rw [findOption, if_neg (UInt8.not_lt.mpr (UInt8.le_of_lt hlt)), if_neg]
      exact fun heq => UInt8.lt_irrefl _ (heq ▸ hlt)

theorem mem_of_findOption (h : findOption optList code = some o) : o ∈ optList ∧ o.code = code := by
  induction optList with
  | nil => cases h
  | cons head rest ih =>
      rw [findOption] at h
      split at h
      · exact ⟨List.mem_cons_of_mem _ (ih h).1, (ih h).2⟩
      · split at h
        · next hcode =>
          cases h
          exact ⟨List.mem_cons_self, hcode⟩
        · cases h

theorem findOption_eq_some (h : Sorted optList) (ho : o ∈ optList) :
    findOption optList o.code = some o := by
  induction optList with
  | nil => cases ho
  | cons head rest ih =>
      obtain ⟨hhead, hrest⟩ := List.pairwise_cons.mp h
      rw [findOption]
      rcases List.mem_cons.mp ho with rfl | hmem
      · rw [if_neg (UInt8.lt_irrefl _), if_pos rfl]
      · rw [if_pos (hhead o hmem), ih hrest hmem]

theorem firstWith_eq_findOption (h : Sorted optList) (code : UInt8) :
    firstWith code optList = findOption optList code := by
  cases hfirst : firstWith code optList with
  | some o =>
      have hcode : o.code = code := by simpa using List.find?_some hfirst
      rw [← hcode, findOption_eq_some h (List.mem_of_find?_eq_some hfirst)]
  | none =>
      cases hfind : findOption optList code with
      | none => rfl
      | some o =>
          obtain ⟨hmem, hcode⟩ := mem_of_findOption hfind
          have hnot := List.find?_eq_none.mp hfirst o hmem
          simp [hcode] at hnot

/-! ### `attach_option` -/

theorem mem_insertOption : o ∈ insertOption new optList ↔ o = new ∨ o ∈ optList := by
  induction optList with
  | nil => simp [insertOption]
  | cons head rest ih =>
      rw [insertOption]
      split
      · rw [List.mem_cons, ih, List.mem_cons]
        exact or_left_comm
      · rw [List.mem_cons]

theorem sorted_insertOption (h : Sorted optList) (hnone : findOption optList new.code = none) :
    Sorted (insertOption new optList) := by
  induction optList with
  | nil => exact List.pairwise_singleton _ _
  | cons head rest ih =>
      obtain ⟨hhead, hrest⟩ := List.pairwise_cons.mp h
      rw [findOption] at hnone
      rw [insertOption]
      split
      · next hlt =>
        rw [if_pos hlt] at hnone
        refine List.pairwise_cons.mpr ⟨fun o ho => ?_, ih hrest hnone⟩
        rcases mem_insertOption.mp ho with rfl | ho
        · exact hlt
        · exact hhead o ho
      · next hnot =>
        rw [if_neg hnot] at hnone
        have hne : head.code ≠ new.code := by
          intro heq
          rw [if_pos heq] at hnone
          cases hnone
        have hlt : new.code < head.code := by
          rcases UInt8.lt_or_lt_of_ne hne with hlt | hlt
          · exact absurd hlt hnot
          · exact hlt
        refine List.pairwise_cons.mpr ⟨fun o ho => ?_, h⟩
        rcases List.mem_cons.mp ho with rfl | ho
        · exact hlt
        · exact UInt8.lt_trans hlt (hhead o ho)

theorem heldBy_insertOption (h : Sorted optList) (hnone : findOption optList new.code = none) :
    heldBy (insertOption new optList) =
      Function.update (heldBy optList) new.code (some new.data) := by
  have hsorted := sorted_insertOption h hnone
  funext code
  by_cases hcode : code = new.code
  · rw [hcode, Function.update_self, heldBy,
      findOption_eq_some hsorted (mem_insertOption.mpr (Or.inl rfl))]
    rfl
  · rw [Function.update_of_ne hcode]
    cases hold : findOption optList code with
    | some o =>
        obtain ⟨hmem, rfl⟩ := mem_of_findOption hold
        rw [heldBy, heldBy, hold, findOption_eq_some hsorted (mem_insertOption.mpr (Or.inr hmem))]
    | none =>
        cases hnew : findOption (insertOption new optList) code with
        | none => rw [heldBy, heldBy, hold, hnew]
        | some o =>
            obtain ⟨hmem, rfl⟩ := mem_of_findOption hnew
            rcases mem_insertOption.mp hmem with rfl | hmem
            · exact absurd rfl hcode
            · rw [findOption_eq_some h hmem] at hold
              cases hold

/-- Only the option's data grows. -/
theorem extendOption_eq (h : Sorted optList) (hfound : findOption optList code = some o) :
    (o.data.length + buffer.length ≤ 255 → ∃ hfits front back,
      optList = front ++ o :: back ∧
        extendOption code buffer optList = front ++ ⟨code, o.data ++ buffer, hfits⟩ :: back) ∧
    (¬o.data.length + buffer.length ≤ 255 → extendOption code buffer optList = optList) := by
  induction optList with
  | nil => cases hfound
  | cons head rest ih =>
      obtain ⟨-, hrest⟩ := List.pairwise_cons.mp h
      rw [findOption] at hfound
      rw [extendOption]
      split at hfound
      · next hlt =>
        obtain ⟨hroom, hfull⟩ := ih hrest hfound
        rw [if_pos hlt]
        refine ⟨fun hlen => ?_, fun hlen => by rw [hfull hlen]⟩
        obtain ⟨hfits, front, back, heq, hext⟩ := hroom hlen
        exact ⟨hfits, head :: front, back, by rw [heq]; rfl, by rw [hext]; rfl⟩
      · next hlt =>
        split at hfound
        · next hcode =>
          cases hfound
          subst hcode
          rw [if_neg hlt]
          refine ⟨fun hlen => ⟨by rwa [List.length_append], [], rest, rfl, ?_⟩, fun hlen => ?_⟩
          · rw [dif_pos hlen]
            rfl
          · rw [dif_neg hlen]
        · cases hfound

theorem sorted_replace {front back : List CodedOption} (h : Sorted (front ++ o :: back))
    (hcode : new.code = o.code) : Sorted (front ++ new :: back) := by
  have hmap : (front ++ new :: back).map (·.code) = (front ++ o :: back).map (·.code) := by
    simp [hcode]
  rw [Sorted, ← List.pairwise_map, hmap, List.pairwise_map]
  exact h

theorem heldBy_replace {front back : List CodedOption} (h : Sorted (front ++ o :: back))
    (hcode : new.code = o.code) :
    heldBy (front ++ new :: back) =
      Function.update (heldBy (front ++ o :: back)) o.code (some new.data) := by
  have hsorted := sorted_replace h hcode
  have hother : ∀ o' : CodedOption, o'.code ≠ o.code →
      (o' ∈ front ++ new :: back ↔ o' ∈ front ++ o :: back) := by
    intro o' hne
    have hnew : o' ≠ new := fun heq => hne (heq ▸ hcode)
    have hold : o' ≠ o := fun heq => hne (heq ▸ rfl)
    simp [hnew, hold]
  funext code
  by_cases heq : code = o.code
  · rw [heq, Function.update_self, heldBy, ← hcode, findOption_eq_some hsorted (by simp)]
    rfl
  · rw [Function.update_of_ne heq]
    cases hold : findOption (front ++ o :: back) code with
    | some o' =>
        obtain ⟨hmem, rfl⟩ := mem_of_findOption hold
        rw [heldBy, heldBy, hold, findOption_eq_some hsorted ((hother o' heq).mpr hmem)]
    | none =>
        cases hnew : findOption (front ++ new :: back) code with
        | none => rw [heldBy, heldBy, hold, hnew]
        | some o' =>
            obtain ⟨hmem, rfl⟩ := mem_of_findOption hnew
            rw [findOption_eq_some h ((hother o' heq).mp hmem)] at hold
            cases hold

/-- `attach_option` does to the list what it should do to what the list stands for. -/
theorem attachOption_spec (h : Sorted optList) (entry : DhcpOption) (hfits : buffer.length ≤ 255) :
    Sorted (attachOption optList entry buffer hfits) ∧
      heldBy (attachOption optList entry buffer hfits) =
        (heldBy optList).attach entry buffer := by
  unfold attachOption OptionValues.attach
  cases hfound : findOption optList entry.code with
  | none =>
      have hheld : heldBy optList entry.code = none := by rw [heldBy, hfound]; rfl
      rw [hheld]
      exact ⟨sorted_insertOption h hfound, heldBy_insertOption h hfound⟩
  | some o =>
      obtain ⟨-, hcode⟩ := mem_of_findOption hfound
      have hheld : heldBy optList entry.code = some o.data := by rw [heldBy, hfound]; rfl
      have hsame : heldBy optList =
          Function.update (heldBy optList) entry.code (some o.data) := by
        rw [← hheld, Function.update_eq_self]
      obtain ⟨hroom, hfull⟩ := @extendOption_eq _ _ _ buffer h hfound
      rw [hheld]
      dsimp only
      by_cases hlist : entry.list = true
      · rw [if_pos hlist]
        by_cases hlen : o.data.length + buffer.length ≤ 255
        · obtain ⟨hfits', front, back, heq, hext⟩ := hroom hlen
          rw [if_pos ⟨hlist, hlen⟩, hext]
          subst heq
          rw [heldBy_replace h hcode.symm, hcode]
          exact ⟨sorted_replace h hcode.symm, rfl⟩
        · rw [if_neg fun hboth => hlen hboth.2, hfull hlen]
          exact ⟨h, hsame⟩
      · rw [if_neg hlist, if_neg fun hboth => hlist hboth.1]
        exact ⟨h, hsame⟩

/-- Every option of the new list was there before, or it has the entry's code and holds the new
data, alone or behind old data. -/
theorem mem_attachOption (h : Sorted optList) {entry : DhcpOption} {hfits : buffer.length ≤ 255}
    (ho : o ∈ attachOption optList entry buffer hfits) :
    o ∈ optList ∨ o.code = entry.code ∧ (o.data = buffer ∨
      entry.list = true ∧ ∃ o' ∈ optList, o'.code = entry.code ∧ o.data = o'.data ++ buffer) := by
  unfold attachOption at ho
  cases hfound : findOption optList entry.code with
  | none =>
      rw [hfound] at ho
      rcases mem_insertOption.mp ho with rfl | ho
      · exact Or.inr ⟨rfl, Or.inl rfl⟩
      · exact Or.inl ho
  | some o' =>
      rw [hfound] at ho
      dsimp only at ho
      split at ho
      · next hlist =>
        obtain ⟨hmem, hcode⟩ := mem_of_findOption hfound
        obtain ⟨hroom, hfull⟩ := @extendOption_eq _ _ _ buffer h hfound
        by_cases hlen : o'.data.length + buffer.length ≤ 255
        · obtain ⟨hfits', front, back, heq, hext⟩ := hroom hlen
          rw [hext] at ho
          rw [heq]
          rcases List.mem_append.mp ho with ho | ho
          · exact Or.inl (List.mem_append_left _ ho)
          · rcases List.mem_cons.mp ho with rfl | ho
            · exact Or.inr ⟨rfl, Or.inr ⟨hlist, o', by simp, hcode, rfl⟩⟩
            · exact Or.inl (List.mem_append_right _ (List.mem_cons_of_mem _ ho))
        · rw [hfull hlen] at ho
          exact Or.inl ho
      · exact Or.inl ho

end Lists

/-! ## The list with its invariant -/

/-- What `server_config.options` points to. -/
structure OptionList where
  sets : List CodedOption
  sorted : Sorted sets
  typed : ∀ o ∈ sets, Typed o

/-- A call of `attach_option` as `read_opt` makes it. -/
structure Attachment where
  option : DhcpOption
  buffer : List UInt8
  known : option ∈ options
  takes : option.TakesOnce buffer.length

theorem options_length : ∀ o ∈ options, 0 < o.type.length ∧ o.type.length ≤ 4 := by
  decide

namespace Attachment

variable (a : Attachment)

theorem length_le : a.buffer.length ≤ 254 := by
  have htakes := a.takes
  have hlength := options_length a.option a.known
  unfold DhcpOption.TakesOnce at htakes
  split at htakes <;> omega

theorem length_of_list (h : a.option.list = true) : a.buffer.length = 4 := by
  have htype := options_list a.option a.known h
  have htakes := a.takes
  unfold DhcpOption.TakesOnce at htakes
  rw [htype] at htakes
  rw [if_neg (by decide)] at htakes
  exact htakes

theorem takes_once : a.option.Takes a.buffer.length := by
  have htakes := a.takes
  have hlength := options_length a.option a.known
  unfold DhcpOption.TakesOnce at htakes
  unfold DhcpOption.Takes
  split
  · next hstring => rwa [if_pos hstring] at htakes
  · next hstring =>
    rw [if_neg hstring] at htakes
    rw [htakes]
    split
    · exact ⟨hlength.1, Nat.dvd_refl _⟩
    · rfl

theorem takes_behind (h : a.option.list = true) {length : Nat} (hold : a.option.Takes length) :
    a.option.Takes (length + a.buffer.length) := by
  have htype := options_list a.option a.known h
  have hlen := a.length_of_list h
  unfold DhcpOption.Takes at hold ⊢
  rw [htype, if_neg (by decide), if_pos h] at hold ⊢
  rw [hlen]
  exact ⟨by omega, Nat.dvd_add hold.2 (Nat.dvd_refl _)⟩

end Attachment

namespace OptionList

def empty : OptionList := ⟨[], List.Pairwise.nil, fun _ ho => absurd ho List.not_mem_nil⟩

theorem typed_attachOption (l : OptionList) (a : Attachment) (hfits : a.buffer.length ≤ 255) :
    ∀ o ∈ attachOption l.sets a.option a.buffer hfits, Typed o := by
  intro o ho
  rcases mem_attachOption l.sorted ho with ho | ⟨hcode, hdata | ⟨hlist, o', ho', hcode', hdata⟩⟩
  · exact l.typed o ho
  · refine ⟨a.option, a.known, hcode.symm, ?_⟩
    rw [hdata]
    exact a.takes_once
  · obtain ⟨entry, hentry, hsame, htakes⟩ := l.typed o' ho'
    have heq : entry = a.option := options_inj _ hentry _ a.known (hsame.trans hcode')
    subst heq
    refine ⟨_, hentry, hcode.symm, ?_⟩
    rw [hdata, List.length_append]
    exact a.takes_behind hlist htakes

/-- `attach_option` on the configured options -/
def attach (l : OptionList) (a : Attachment) : OptionList :=
  have hfits : a.buffer.length ≤ 255 := Nat.le_succ_of_le a.length_le
  { sets := attachOption l.sets a.option a.buffer hfits
    sorted := (attachOption_spec l.sorted a.option hfits).1
    typed := l.typed_attachOption a hfits }

def held (l : OptionList) : OptionValues := heldBy l.sets

theorem held_attach (l : OptionList) (a : Attachment) :
    (l.attach a).held = l.held.attach a.option a.buffer :=
  (attachOption_spec l.sorted a.option (Nat.le_succ_of_le a.length_le)).2

end OptionList

/-! ## What a configuration leaves of its values -/

def given (calls : List Attachment) (code : UInt8) : List (List UInt8) :=
  (calls.filter fun a => a.option.code = code).map (·.buffer)

/-- A list has the first 63 of its values, any other option the first. -/
def DhcpOption.keeps (o : DhcpOption) : List (List UInt8) → Option (List UInt8)
  | [] => none
  | first :: rest => some (if o.list then ((first :: rest).take 63).flatten else first)

theorem given_append_singleton (calls : List Attachment) (a : Attachment) (code : UInt8) :
    given (calls ++ [a]) code =
      given calls code ++ if a.option.code = code then [a.buffer] else [] := by
  unfold given
  rw [List.filter_append, List.map_append]
  split
  · next h => simp [h]
  · next h => simp [h]

theorem length_flatten_of_forall {n : Nat} {ls : List (List UInt8)}
    (h : ∀ l ∈ ls, l.length = n) : ls.flatten.length = n * ls.length := by
  induction ls with
  | nil => rfl
  | cons l rest ih =>
      rw [List.flatten_cons, List.length_append, h l List.mem_cons_self,
        ih fun l' hl' => h l' (List.mem_cons_of_mem _ hl'), List.length_cons]
      rw [Nat.mul_add, Nat.mul_one, Nat.add_comm]

theorem keeps_append_singleton (a : Attachment) {values : List (List UInt8)}
    (hlens : a.option.list = true → ∀ v ∈ values, v.length = 4) :
    a.option.keeps (values ++ [a.buffer]) =
      some (match a.option.keeps values with
        | none => a.buffer
        | some data =>
            if a.option.list ∧ data.length + a.buffer.length ≤ 255 then data ++ a.buffer
            else data) := by
  cases values with
  | nil =>
      rw [List.nil_append, DhcpOption.keeps, DhcpOption.keeps]
      simp
  | cons first rest =>
      rw [List.cons_append, DhcpOption.keeps, DhcpOption.keeps]
      dsimp only
      by_cases hlist : a.option.list = true
      · have hall := hlens hlist
        have hlen := a.length_of_list hlist
        have htake : (((first :: rest).take 63).flatten).length = 4 * min 63 (rest.length + 1) := by
          rw [@length_flatten_of_forall 4 _ fun l hl => hall l (List.mem_of_mem_take hl),
            List.length_take, List.length_cons]
        rw [if_pos hlist, if_pos hlist, htake, hlen, ← List.cons_append]
        by_cases hroom : rest.length + 1 ≤ 62
        · rw [if_pos ⟨hlist, by omega⟩, List.take_of_length_le (by simp; omega),
            List.take_of_length_le (by simp; omega), List.flatten_append, List.flatten_singleton]
        · rw [if_neg fun hboth => by have hle := hboth.2; omega,
            List.take_append_of_le_length (by simp; omega)]
      · rw [if_neg hlist, if_neg hlist, if_neg fun hboth => hlist hboth.1]

def entryOf (code : UInt8) : Option DhcpOption := options.find? (·.code = code)

theorem entryOf_code {entry : DhcpOption} (h : entry ∈ options) : entryOf entry.code = some entry := by
  cases hfound : entryOf entry.code with
  | none =>
      have hnot := List.find?_eq_none.mp hfound entry h
      simp at hnot
  | some other =>
      have hcode : other.code = entry.code := by simpa using List.find?_some hfound
      rw [options_inj other (List.mem_of_find?_eq_some hfound) entry h hcode]

theorem length_of_given {calls : List Attachment} {a : Attachment} (h : a.option.list = true) :
    ∀ v ∈ given calls a.option.code, v.length = 4 := by
  intro v hv
  obtain ⟨other, hother, rfl⟩ := List.mem_map.mp hv
  have hcode : other.option.code = a.option.code := by simpa using (List.mem_filter.mp hother).2
  have heq := options_inj _ other.known _ a.known hcode
  exact other.length_of_list (heq ▸ h)

theorem held_exec (calls : List Attachment) (code : UInt8) :
    (exec OptionList.attach .empty calls).held code =
      (entryOf code).bind fun entry => entry.keeps (given calls code) := by
  induction calls using List.reverseRecOn with
  | nil =>
      cases entryOf code with
      | none => rfl
      | some entry => rfl
  | append_singleton calls a ih =>
      rw [exec, List.foldl_append, List.foldl_cons, List.foldl_nil, given_append_singleton]
      change ((exec OptionList.attach .empty calls).attach a).held code = _
      rw [OptionList.held_attach, OptionValues.attach]
      by_cases hcode : a.option.code = code
      · subst hcode
        rw [Function.update_self, ih, entryOf_code a.known, if_pos rfl]
        dsimp only [Option.bind_some]
        rw [keeps_append_singleton a (length_of_given · )]
      · rw [Function.update_of_ne (Ne.symm hcode), ih, if_neg hcode, List.append_nil]

/-! ## `free_options` -/

theorem freeOptions_append (optList : List CodedOption) :
    (freeOptions optList).1 ++ (freeOptions optList).2 = optList := by
  induction optList with
  | nil => rfl
  | cons o rest ih =>
      rw [freeOptions]
      split
      · rfl
      · exact congrArg (o :: ·) ih

theorem freeOptions_snd {optList : List CodedOption} (h : Sorted optList) :
    (freeOptions optList).2 =
      if (findOption optList dhcpLeaseTime).isSome then
        optList.filter (dhcpLeaseTime < ·.code) else [] := by
  induction optList with
  | nil => rfl
  | cons o rest ih =>
      obtain ⟨hhead, hrest⟩ := List.pairwise_cons.mp h
      rw [freeOptions, findOption]
      by_cases hcode : o.code = dhcpLeaseTime
      · have hall : rest.filter (dhcpLeaseTime < ·.code) = rest := by
          rw [List.filter_eq_self]
          intro o' ho'
          simpa [hcode] using hhead o' ho'
        rw [if_pos hcode, hcode, if_neg (UInt8.lt_irrefl _), if_pos rfl, List.filter_cons_of_neg, hall]
        · rfl
        · simp [hcode]
      · rw [if_neg hcode]
        dsimp only
        rw [ih hrest]
        by_cases hlt : o.code < dhcpLeaseTime
        · have hnot : ¬dhcpLeaseTime < o.code := UInt8.not_lt.mpr (UInt8.le_of_lt hlt)
          rw [if_pos hlt, List.filter_cons_of_neg (by simpa using hnot)]
        · have hgt : dhcpLeaseTime < o.code := by
            rcases UInt8.lt_or_lt_of_ne hcode with hless | hmore
            · exact absurd hless hlt
            · exact hmore
          rw [if_neg hlt, if_neg hcode, findOption_of_lt]
          · rfl
          · intro o' ho'
            exact UInt8.lt_trans hgt (hhead o' ho')

/-- Whatever values a configuration gives, in whatever order: the list is sorted and holds, for each
code of the table, the first value given, or the first 63 of them for a list; `free_options` gives
back all of it but the options behind the lease time, if there is one. -/
theorem configured_options (calls : List Attachment) :
    let optList := (exec OptionList.attach .empty calls).sets
    Sorted optList ∧ (∀ o ∈ optList, Typed o) ∧
    (∀ code, heldBy optList code =
      (entryOf code).bind fun entry => entry.keeps (given calls code)) ∧
    (freeOptions optList).1 ++ (freeOptions optList).2 = optList ∧
    (freeOptions optList).2 =
      if given calls dhcpLeaseTime = [] then [] else optList.filter (dhcpLeaseTime < ·.code) := by
  intro optList
  have hsorted := (exec OptionList.attach .empty calls).sorted
  have hheld := held_exec calls
  refine ⟨hsorted, (exec OptionList.attach .empty calls).typed, hheld, freeOptions_append _, ?_⟩
  · have hlease : (findOption optList dhcpLeaseTime).isSome = true ↔
        given calls dhcpLeaseTime ≠ [] := by
      have hentry : entryOf dhcpLeaseTime = some ⟨"lease".toList, .u32, false, false, 0x33⟩ := by
        decide
      have hmap := hheld dhcpLeaseTime
      rw [hentry, Option.bind_some, OptionList.held, heldBy] at hmap
      cases hgiven : given calls dhcpLeaseTime with
      | nil =>
          rw [hgiven, DhcpOption.keeps, Option.map_eq_none_iff] at hmap
          simp [optList, hmap]
      | cons first rest =>
          rw [hgiven, DhcpOption.keeps] at hmap
          obtain ⟨o, ho, -⟩ := Option.map_eq_some_iff.mp hmap
          simp [optList, ho]
    rw [freeOptions_snd hsorted]
    by_cases hgiven : given calls dhcpLeaseTime = []
    · rw [if_pos hgiven, if_neg fun hsome => hlease.mp hsome hgiven]
    · rw [if_neg hgiven, if_pos (hlease.mpr hgiven)]

end Xwr100.Udhcpd
