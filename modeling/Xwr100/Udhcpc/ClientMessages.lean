import Xwr100.Udhcpc.Client
import Xwr100.Udhcpd.Assembly
import Xwr100.Udhcpd.ConfigOptions

/-! # The messages of the client

What `clientpacket.c` puts together for the requests of the client.  The list of wanted options comes
last and without a look at the room that is left.
-/

namespace Xwr100.Udhcpc

open Lib Udhcpd

def dhcpParamReq : UInt8 := 0x37
def dhcpClientId : UInt8 := 0x3d

/-! ## The functions -/

/-- The part of `struct client_config_t` that messages show. -/
structure Identity where
  arp : BitVec 48
  clientid : CodedOption
  hostname : Option CodedOption
  clientid_code : clientid.code = dhcpClientId
  hostname_code : ∀ o, hostname = some o → o.code = dhcpHostName

/-- The client id `main` makes up if none is given. -/
def defaultClientid (arp : BitVec 48) : CodedOption where
  code := dhcpClientId
  data := 1 :: bigEndian 6 arp.toNat
  fits := by simp

/-- `vendor_id`: `udhcp 0.9.8` -/
def vendorId : CodedOption where
  code := dhcpVendor
  data := [0x75, 0x64, 0x68, 0x63, 0x70, 0x20, 0x30, 0x2e, 0x39, 0x2e, 0x38]
  fits := by decide

def initPacket (id : Identity) (stack : DhcpMessage) (type : UInt8) : Option DhcpMessage := do
  let packet ← initHeader stack type
  let packet := packet.write 28 (bigEndian 6 id.arp.toNat)
  let packet ← (addOptionString packet (some id.clientid.string)).map Prod.fst
  let packet ←
    match id.hostname with
    | none => some packet
    | some hostname => (addOptionString packet (some hostname.string)).map Prod.fst
  (addOptionString packet (some vendorId.string)).map Prod.fst

def requestList : CodedOption where
  code := dhcpParamReq
  data := (options.filter (·.req)).map (·.code)
  fits := by decide

def addRequests (packet : DhcpMessage) : Option DhcpMessage := do
  let end_ ← endOption packet
  some (packet.write (240 + end_) (requestList.bytes ++ [dhcpEnd]))

/-- `xid`, and `ciaddr` if it is set. -/
def setFields (packet : DhcpMessage) (xid : Word) (ciaddr : Option Addr) : DhcpMessage :=
  let packet := packet.write 4 (bigEndian 4 xid.toNat)
  match ciaddr with
  | none => packet
  | some ciaddr => packet.write 12 (bigEndian 4 ciaddr.toNat)

/-- What the four functions share: the header, the simple options and the list of requests. -/
def assemble (id : Identity) (stack : DhcpMessage) (type : UInt8) (xid : Word)
    (ciaddr : Option Addr) (simple : List (UInt8 × Addr)) (requests : Bool) :
    Option DhcpMessage := do
  let packet ← initPacket id stack type
  let packet := setFields packet xid ciaddr
  let packet ← simple.foldlM (fun m o => (addSimpleOption m o.1 o.2).map Prod.fst) packet
  if requests then addRequests packet else some packet

variable (id : Identity) (stack : DhcpMessage) (xid : Word)

/-- `send_discover` -/
def discoverMessage (requested : Addr) : Option DhcpMessage :=
  assemble id stack 1 xid none (if requested ≠ 0 then [(dhcpRequestedIp, requested)] else []) true

/-- `send_selecting` -/
def selectingMessage (server requested : Addr) : Option DhcpMessage :=
  assemble id stack 3 xid none [(dhcpRequestedIp, requested), (dhcpServerId, server)] true

/-- `send_renew` -/
def renewMessage (ciaddr : Addr) : Option DhcpMessage :=
  assemble id stack 3 xid (some ciaddr) [] true

/-- `send_release` -/
def releaseMessage (server ciaddr : Addr) : Option DhcpMessage :=
  assemble id stack 7 xid (some ciaddr) [(dhcpRequestedIp, ciaddr), (dhcpServerId, server)] false

structure Question where
  type : UInt8
  xid : Word
  ciaddr : Option Addr
  simple : List (UInt8 × Addr)
  requests : Bool

def Act.message : Act → Option DhcpMessage
  | .discover xid requested => discoverMessage id stack xid requested
  | .selecting xid server requested => selectingMessage id stack xid server requested
  | .renew xid _ ciaddr => renewMessage id stack xid ciaddr
  | .release xid server ciaddr => releaseMessage id stack xid server ciaddr
  | .deconfig | .bound _ _ _ | .nak | .exit _ | .crash => none

/-- What an act of the client asks, if it does. -/
def Act.question : Act → Option Question
  | .discover xid requested =>
      some ⟨1, xid, none, if requested ≠ 0 then [(dhcpRequestedIp, requested)] else [], true⟩
  | .selecting xid server requested =>
      some ⟨3, xid, none, [(dhcpRequestedIp, requested), (dhcpServerId, server)], true⟩
  | .renew xid _ ciaddr => some ⟨3, xid, some ciaddr, [], true⟩
  | .release xid server ciaddr =>
      some ⟨7, xid, some ciaddr, [(dhcpRequestedIp, ciaddr), (dhcpServerId, server)], false⟩
  | .deconfig | .bound _ _ _ | .nak | .exit _ | .crash => none

/-! ## What a request says -/

structure Asks (m : DhcpMessage) (id : Identity) (xid : Word) (ciaddr : Addr) : Prop where
  op : m.mem 0 = 1
  xid : m.readAddr 4 = xid
  flags : m.field 10 2 = [0, 0]
  ciaddr : m.ciaddr = ciaddr
  giaddr : m.readAddr 24 = 0
  chaddr : m.chaddr = ⟨id.arp, 0⟩
  cookie : m.readBytes 236 4 = dhcpMagic

def Identity.options (id : Identity) : List CodedOption :=
  id.clientid :: id.hostname.toList ++ [vendorId]

def addrOption (code : UInt8) (addr : Addr) : CodedOption := ⟨code, bigEndian 4 addr.toNat, by simp⟩

theorem code_addrOption (code : UInt8) (addr : Addr) : (addrOption code addr).code = code := rfl

def asked (id : Identity) (type : UInt8) (simple : List (UInt8 × Addr)) : List CodedOption :=
  messageTypeOption type :: fitting 3 (id.options ++ simple.map fun o => addrOption o.1 o.2)

/-! ## The steps of the assembly -/

theorem Identity.plain_options (id : Identity) : ∀ o ∈ id.options, o.Plain := by
  intro o ho
  rcases List.mem_cons.mp ho with rfl | ho
  · rw [CodedOption.Plain, id.clientid_code]
    decide
  · rcases List.mem_append.mp ho with ho | ho
    · rw [CodedOption.Plain, id.hostname_code o (Option.mem_toList.mp ho)]
      decide
    · rw [List.mem_singleton.mp ho, CodedOption.Plain]
      decide

theorem initPacket_eq_addStrings (type : UInt8) :
    initPacket id stack type =
      (initHeader stack type).bind fun packet =>
        addStrings (packet.write 28 (bigEndian 6 id.arp.toNat)) id.options := by
  unfold initPacket addStrings Identity.options
  cases id.hostname with
  | none => simp [List.foldlM_cons]
  | some hostname => simp [List.foldlM_cons]

def requestHeader (type : UInt8) (ciaddr : Option Addr) : DhcpMessage :=
  setFields ((blankHeader stack type).write 28 (bigEndian 6 id.arp.toNat)) xid ciaddr

theorem assembled_setFields {m head : DhcpMessage} {opts : List CodedOption}
    (h : Assembled m head opts) (xid : Word) (ciaddr : Option Addr) :
    Assembled (setFields m xid ciaddr) (setFields head xid ciaddr) opts := by
  have hxid := @Assembled.write _ _ _ h 4 (bigEndian 4 xid.toNat) (by simp)
  cases ciaddr with
  | none => exact hxid
  | some ciaddr =>
      apply hxid.write
      simp

theorem addSimpleOption_addrOption (m : DhcpMessage) {code : UInt8} (addr : Addr)
    (h : simpleLength code = 4) :
    addSimpleOption m code addr = addOptionString m (some (addrOption code addr).string) := by
  rw [@addSimpleOption_eq m code addr (by omega) (by omega)]
  congr 3
  simp only [simpleOption, addrOption, h]

theorem foldlM_addSimpleOption {simple : List (UInt8 × Addr)}
    (h : ∀ o ∈ simple, simpleLength o.1 = 4) (m : DhcpMessage) :
    simple.foldlM (fun m o => (addSimpleOption m o.1 o.2).map Prod.fst) m =
      addStrings m (simple.map fun o => addrOption o.1 o.2) := by
  induction simple generalizing m with
  | nil => rfl
  | cons o rest ih =>
      rw [List.map_cons, addStrings, List.foldlM_cons, List.foldlM_cons,
        addSimpleOption_addrOption m o.2 (h o List.mem_cons_self)]
      congr 1
      funext m'
      exact ih (fun o' ho' => h o' (List.mem_cons_of_mem _ ho')) m'

theorem assembled_asked {type : UInt8} {ciaddr : Option Addr} {simple : List (UInt8 × Addr)}
    (hsimple : ∀ o ∈ simple, simpleLength o.1 = 4) (requests : Bool) :
    ∃ m, Assembled m (requestHeader id stack xid type ciaddr) (asked id type simple) ∧
      assemble id stack type xid ciaddr simple requests =
        if requests then addRequests m else some m := by
  obtain ⟨m, hinit, hm⟩ := assembled_initHeader stack type
  have harp : Assembled (m.write 28 (bigEndian 6 id.arp.toNat))
      ((blankHeader stack type).write 28 (bigEndian 6 id.arp.toNat)) [messageTypeOption type] := by
    apply hm.write
    simp
  obtain ⟨m₁, hown, hm₁⟩ := harp.addStrings id.plain_options
  have hfields := assembled_setFields hm₁ xid ciaddr
  have hplain : ∀ o ∈ simple.map fun o => addrOption o.1 o.2, o.Plain := by
    intro o ho
    obtain ⟨pair, hpair, rfl⟩ := List.mem_map.mp ho
    have hlen := hsimple pair hpair
    constructor
    · intro hcode
      rw [show pair.1 = dhcpPadding from hcode] at hlen
      exact absurd hlen (by decide)
    · intro hcode
      rw [show pair.1 = dhcpEnd from hcode] at hlen
      exact absurd hlen (by decide)
  obtain ⟨m₂, hadd, hm₂⟩ := hfields.addStrings hplain
  have hasked : asked id type simple = [messageTypeOption type] ++ fitting 3 id.options ++
      fitting (area ([messageTypeOption type] ++ fitting 3 id.options)).length
        (simple.map fun o => addrOption o.1 o.2) := by
    rw [asked, fitting_append, area_append, List.length_append, List.append_assoc]
    rfl
  refine ⟨m₂, by rw [hasked]; exact hm₂, ?_⟩
  simp only [assemble, initPacket_eq_addStrings, hinit, Option.bind_eq_bind, Option.bind_some,
    hown, foldlM_addSimpleOption hsimple, hadd]

/-! ## The header -/

theorem requestHeader_fields (type : UInt8) (ciaddr : Option Addr) :
    let head := requestHeader id stack xid type ciaddr
    head.field 0 1 = [opOf type] ∧ head.field 4 4 = bigEndian 4 xid.toNat ∧
    head.field 10 2 = [0, 0] ∧ head.field 12 4 = bigEndian 4 (ciaddr.getD 0).toNat ∧
    head.field 24 4 = [0, 0, 0, 0] ∧ head.field 28 6 = bigEndian 6 id.arp.toNat ∧
    head.field 34 10 = List.replicate 10 0 ∧ head.field 236 4 = bigEndian 4 dhcpMagic := by
  let blank := (blankHeader stack type).write 28 (bigEndian 6 id.arp.toNat)
  have hbeside : ∀ pos count, pos + count ≤ 4 ∨ 8 ≤ pos ∧ pos + count ≤ 12 ∨ 16 ≤ pos →
      (setFields blank xid ciaddr).field pos count = blank.field pos count := by
    intro pos count hpos
    unfold setFields
    cases ciaddr with
    | none => exact DhcpMessage.field_write_beside (by simp; omega)
    | some ciaddr =>
        dsimp only
        rw [DhcpMessage.field_write_beside (by simp; omega),
          DhcpMessage.field_write_beside (by simp; omega)]
  have hblank : ∀ pos count, pos + count ≤ 28 ∨ 34 ≤ pos →
      blank.field pos count = (blankHeader stack type).field pos count := by
    intro pos count hpos
    exact DhcpMessage.field_write_beside (by simp; omega)
  refine ⟨?_, ?_, ?_, ?_, ?_, ?_, ?_, ?_⟩
  · rw [requestHeader, hbeside 0 1 (by omega), hblank 0 1 (by omega)]
    rfl
  · unfold requestHeader setFields
    cases ciaddr with
    | none => exact DhcpMessage.field_write_of_length (by simp)
    | some ciaddr =>
        dsimp only
        rw [DhcpMessage.field_write_beside (by simp), DhcpMessage.field_write_of_length (by simp)]
  · rw [requestHeader, hbeside 10 2 (by omega), hblank 10 2 (by omega)]
    rfl
  · unfold requestHeader setFields
    cases ciaddr with
    | none =>
        dsimp only
        rw [DhcpMessage.field_write_beside (by simp), hblank 12 4 (by omega)]
        rfl
    | some ciaddr => exact DhcpMessage.field_write_of_length (by simp)
  · rw [requestHeader, hbeside 24 4 (by omega), hblank 24 4 (by omega)]
    rfl
  · rw [requestHeader, hbeside 28 6 (by omega)]
    exact DhcpMessage.field_write_of_length (by simp)
  · rw [requestHeader, hbeside 34 10 (by omega), hblank 34 10 (by omega)]
    rfl
  · rw [requestHeader, hbeside 236 4 (by omega), hblank 236 4 (by omega)]
    rfl

theorem asks_of_sameOutside {m : DhcpMessage} {type : UInt8} {ciaddr : Option Addr}
    (h : ∀ p < 240, m.mem p = (requestHeader id stack xid type ciaddr).mem p)
    (hop : opOf type = 1) : Asks m id xid (ciaddr.getD 0) := by
  obtain ⟨hbyte, hxid, hflags, hciaddr, hgiaddr, harp, hpad, hcookie⟩ :=
    requestHeader_fields id stack xid type ciaddr
  have hfield : ∀ pos count, pos + count ≤ 240 →
      m.field pos count = (requestHeader id stack xid type ciaddr).field pos count := by
    intro pos count hpos
    exact DhcpMessage.field_congr fun k hk => h _ (by omega)
  constructor
  · have hone := (hfield 0 1 (by omega)).trans hbyte
    exact (List.singleton_inj.mp hone).trans hop
  · exact readAddr_of_field ((hfield 4 4 (by omega)).trans hxid)
  · exact (hfield 10 2 (by omega)).trans hflags
  · exact readAddr_of_field ((hfield 12 4 (by omega)).trans hciaddr)
  · exact readAddr_of_field ((hfield 24 4 (by omega)).trans hgiaddr)
  · rw [DhcpMessage.chaddr_eq, hfield 28 6 (by omega), harp, hfield 34 10 (by omega), hpad,
      @ofNat_ofBigEndian 48 6 rfl]
    rfl
  · rw [DhcpMessage.readBytes_eq, hfield 236 4 (by omega), hcookie]
    rfl

theorem requestHeader_beyond {type : UInt8} {ciaddr : Option Addr} {p : Nat} (hp : 548 ≤ p) :
    (requestHeader id stack xid type ciaddr).mem p = stack.mem p := by
  have hblank := blankHeader_beyond stack type hp
  unfold requestHeader setFields
  cases ciaddr with
  | none =>
      dsimp only
      rw [DhcpMessage.mem_write_behind (by simp; omega), DhcpMessage.mem_write_behind (by simp; omega),
        hblank]
  | some ciaddr =>
      dsimp only
      rw [DhcpMessage.mem_write_behind (by simp; omega), DhcpMessage.mem_write_behind (by simp; omega),
        DhcpMessage.mem_write_behind (by simp; omega), hblank]

/-! ## The list of requests -/

theorem length_requestList : requestList.bytes.length = 9 := rfl

theorem addRequests_fits {m head : DhcpMessage} {opts : List CodedOption}
    (h : Assembled m head opts) (hroom : (area opts).length ≤ 298) :
    ∃ m', addRequests m = some m' ∧ Assembled m' head (opts ++ [requestList]) := by
  have hbytes : (requestList.bytes ++ [dhcpEnd]).length = 10 := rfl
  refine ⟨m.write (240 + (area opts).length) (requestList.bytes ++ [dhcpEnd]), ?_, ?_⟩
  · rw [addRequests, h.options.endOption_eq]
    rfl
  · constructor
    · intro p hp
      rw [← h.outside p hp]
      rcases hp with hp | hp
      · exact DhcpMessage.mem_write_before (by omega)
      · exact DhcpMessage.mem_write_behind (by omega)
    · constructor
      · intro o ho
        rcases List.mem_append.mp ho with ho | ho
        · exact h.options.codes o ho
        · rw [List.mem_singleton.mp ho]
          decide
      · rw [area_append_singleton, List.length_append, length_requestList]
        omega
      · have hold : Spells m.mem 240 (area opts) := (spells_append.mp h.options.bytes).1
        rw [area_append_singleton, List.append_assoc, spells_append]
        exact ⟨hold.writeAt (Nat.le_refl _), spells_writeAt⟩

/-- Without room, the end byte at least is put behind the message. -/
theorem addRequests_overruns {m head : DhcpMessage} {opts : List CodedOption}
    (h : Assembled m head opts) :
    ∃ m', addRequests m = some m' ∧ (∀ p < 240, m'.mem p = head.mem p) ∧
      m'.mem (240 + ((area opts).length + 9)) = dhcpEnd := by
  refine ⟨m.write (240 + (area opts).length) (requestList.bytes ++ [dhcpEnd]), ?_, ?_, ?_⟩
  · rw [addRequests, h.options.endOption_eq]
    rfl
  · intro p hp
    rw [← h.outside p (Or.inl hp)]
    exact DhcpMessage.mem_write_before (by omega)
  · have hspells := @spells_writeAt _ m.mem (240 + (area opts).length)
      (requestList.bytes ++ [dhcpEnd])
    rw [spells_append, length_requestList, Nat.add_assoc] at hspells
    exact (spells_cons.mp hspells.2).1

/-- The message with or without the list, where it has room. -/
theorem addRequests_assembled {m head : DhcpMessage} {opts : List CodedOption}
    (h : Assembled m head opts) (requests : Bool)
    (hroom : requests = false ∨ (area opts).length ≤ 298) :
    ∃ m', (if requests then addRequests m else some m) = some m' ∧
      Assembled m' head (opts ++ if requests then [requestList] else []) := by
  cases requests with
  | false =>
      rw [if_neg Bool.false_ne_true, if_neg Bool.false_ne_true, List.append_nil]
      exact ⟨m, rfl, h⟩
  | true =>
      rw [if_pos rfl, if_pos rfl]
      exact addRequests_fits h (hroom.resolve_left Bool.noConfusion)

/-! ## Reading a request -/

theorem area_addrOptions (simple : List (UInt8 × Addr)) :
    (area (simple.map fun o => addrOption o.1 o.2)).length = 6 * simple.length := by
  induction simple with
  | nil => rfl
  | cons o rest ih =>
      rw [List.map_cons, area_cons, List.length_append, ih, CodedOption.length_bytes,
        List.length_cons]
      simp only [addrOption, length_bigEndian]
      omega

theorem asked_of_short {type : UInt8} {simple : List (UInt8 × Addr)} (htwo : simple.length ≤ 2)
    (hshort : (area id.options).length ≤ 283) :
    asked id type simple =
        messageTypeOption type :: (id.options ++ simple.map fun o => addrOption o.1 o.2) ∧
      (area (asked id type simple)).length ≤ 298 := by
  have hlen := area_addrOptions simple
  have hall : asked id type simple =
      messageTypeOption type :: (id.options ++ simple.map fun o => addrOption o.1 o.2) := by
    rw [asked, fitting_of_length]
    rw [area_append, List.length_append, hlen]
    omega
  refine ⟨hall, ?_⟩
  rw [hall, area_cons, List.length_append, area_append, List.length_append, hlen,
    CodedOption.length_bytes]
  change 1 + 2 + _ ≤ 298
  omega

theorem Identity.firstWith_options {code : UInt8}
    (hcode : code ≠ dhcpClientId ∧ code ≠ dhcpHostName ∧ code ≠ dhcpVendor)
    (rest : List CodedOption) : firstWith code (id.options ++ rest) = firstWith code rest := by
  obtain ⟨hid, hname, hvendor⟩ := hcode
  have hnot : ∀ o ∈ id.options, o.code ≠ code := by
    intro o ho
    rcases List.mem_cons.mp ho with rfl | ho
    · rw [id.clientid_code]
      exact Ne.symm hid
    · rcases List.mem_append.mp ho with ho | ho
      · rw [id.hostname_code o (Option.mem_toList.mp ho)]
        exact Ne.symm hname
      · rw [List.mem_singleton.mp ho]
        exact Ne.symm hvendor
  have hnone : firstWith code id.options = none := by
    rw [firstWith, List.find?_eq_none]
    intro o ho
    simpa using hnot o ho
  rw [firstWith] at hnone ⊢
  rw [List.find?_append, hnone, Option.none_or]
  rfl

theorem firstWith_addrOptions (simple : List (UInt8 × Addr)) (code : UInt8) :
    firstWith code (simple.map fun o => addrOption o.1 o.2) =
      (simple.find? fun o => o.1 = code).map fun o => addrOption o.1 o.2 := by
  rw [firstWith, List.find?_map]
  rfl

/-! ## The messages of the client's acts -/

theorem Act.message_eq {a : Act} {q : Question} (h : a.question = some q) :
    a.message id stack =
      assemble id stack q.type q.xid q.ciaddr q.simple q.requests := by
  cases a <;> cases h <;> rfl

theorem Act.message_of_none {a : Act} (h : a.question = none) : a.message id stack = none := by
  cases a with
  | discover xid requested => cases h
  | selecting xid server requested => cases h
  | renew xid server ciaddr => cases h
  | release xid server ciaddr => cases h
  | deconfig => rfl
  | bound xid addr again => rfl
  | nak => rfl
  | exit retval => rfl
  | crash => rfl

/-- What the acts ask is plain: a type of request, and at most two addresses. -/
theorem Act.question_plain {a : Act} {q : Question} (h : a.question = some q) :
    opOf q.type = 1 ∧ q.simple.length ≤ 2 ∧
      ∀ o ∈ q.simple, o.1 = dhcpRequestedIp ∨ o.1 = dhcpServerId := by
  cases a with
  | discover xid requested =>
      cases h
      refine ⟨rfl, ?_, ?_⟩
      · dsimp only
        split
        · exact Nat.le_succ 1
        · exact Nat.zero_le 2
      · intro o ho
        dsimp only at ho
        split at ho
        · rw [List.mem_singleton.mp ho]
          exact Or.inl rfl
        · cases ho
  | selecting xid server requested =>
      cases h
      refine ⟨rfl, Nat.le_refl 2, ?_⟩
      intro o ho
      rcases List.mem_pair.mp ho with rfl | rfl
      · exact Or.inl rfl
      · exact Or.inr rfl
  | renew xid server ciaddr =>
      cases h
      exact ⟨rfl, Nat.zero_le 2, fun o ho => absurd ho List.not_mem_nil⟩
  | release xid server ciaddr =>
      cases h
      refine ⟨rfl, Nat.le_refl 2, ?_⟩
      intro o ho
      rcases List.mem_pair.mp ho with rfl | rfl
      · exact Or.inl rfl
      · exact Or.inr rfl
  | deconfig => cases h
  | bound xid addr again => cases h
  | nak => cases h
  | exit retval => cases h
  | crash => cases h

theorem asked_over {type : UInt8} {simple : List (UInt8 × Addr)}
    (hsimple : ∀ o ∈ simple, o.1 = dhcpRequestedIp ∨ o.1 = dhcpServerId) :
    ∀ o ∈ asked id type simple, o.code ≠ dhcpOptionOver := by
  intro o ho
  rcases List.mem_cons.mp ho with rfl | ho
  · exact (by decide : dhcpMessageType ≠ dhcpOptionOver)
  · rcases List.mem_append.mp (mem_fitting ho) with ho | ho
    · rcases List.mem_cons.mp ho with rfl | ho
      · rw [id.clientid_code]
        decide
      · rcases List.mem_append.mp ho with ho | ho
        · rw [id.hostname_code o (Option.mem_toList.mp ho)]
          decide
        · rw [List.mem_singleton.mp ho]
          decide
    · obtain ⟨pair, hpair, rfl⟩ := List.mem_map.mp ho
      rw [code_addrOption]
      rcases hsimple pair hpair with hcode | hcode
      · rw [hcode]
        decide
      · rw [hcode]
        decide

theorem sent_over {q : Question} (hsimple : ∀ o ∈ q.simple, o.1 = dhcpRequestedIp ∨ o.1 = dhcpServerId) :
    ∀ o ∈ asked id q.type q.simple ++ (if q.requests then [requestList] else []),
      o.code ≠ dhcpOptionOver := by
  intro o ho
  rcases List.mem_append.mp ho with ho | ho
  · exact asked_over id hsimple o ho
  · split at ho
    · rw [List.mem_singleton.mp ho]
      decide
    · cases ho

/-- The options a server reads behind those of the client's identity. -/
theorem firstWith_asked {q : Question} {code : UInt8} (hshort : (area id.options).length ≤ 283)
    (htwo : q.simple.length ≤ 2)
    (hcode : code = dhcpRequestedIp ∨ code = dhcpServerId ∨ code = dhcpLeaseTime) :
    firstWith code (asked id q.type q.simple ++ if q.requests then [requestList] else []) =
      (q.simple.find? fun o => o.1 = code).map fun o => addrOption o.1 o.2 := by
  obtain ⟨hasked, -⟩ := @asked_of_short id q.type _ htwo hshort
  have hne : code ≠ dhcpMessageType ∧ code ≠ dhcpParamReq ∧
      code ≠ dhcpClientId ∧ code ≠ dhcpHostName ∧ code ≠ dhcpVendor := by
    rcases hcode with rfl | rfl | rfl <;> decide
  have hrequests : firstWith code (if q.requests then [requestList] else []) = none := by
    split
    · simp [firstWith, requestList, Ne.symm hne.2.1]
    · rfl
  have htype : ∀ rest, firstWith code (messageTypeOption q.type :: rest) = firstWith code rest := by
    intro rest
    simp [firstWith, messageTypeOption, Ne.symm hne.1]
  rw [hasked, List.cons_append, htype, List.append_assoc, id.firstWith_options hne.2.2, firstWith,
    List.find?_append]
  rw [← firstWith, ← firstWith, hrequests, Option.or_none, firstWith_addrOptions]

theorem Act.question_length {a : Act} {q : Question} (h : a.question = some q) :
    ∀ o ∈ q.simple, simpleLength o.1 = 4 := by
  intro o ho
  rcases (Act.question_plain h).2.2 o ho with hcode | hcode
  · rw [hcode]
    decide
  · rw [hcode]
    decide

/-- With room for the list of requests, the message is well formed and in its memory. -/
theorem Act.message_fits {a : Act} {q : Question} (h : a.question = some q)
    (hfits : q.requests = false ∨ (area (asked id q.type q.simple)).length ≤ 298) :
    ∃ m, a.message id stack = some m ∧ Asks m id q.xid (q.ciaddr.getD 0) ∧
      OptionsAre m (asked id q.type q.simple ++ if q.requests then [requestList] else []) ∧
      ∀ p ≥ 548, m.mem p = stack.mem p := by
  obtain ⟨m, hm, hassemble⟩ :=
    @assembled_asked id stack q.xid q.type q.ciaddr _ (Act.question_length h) q.requests
  obtain ⟨m', hsent, hm'⟩ := addRequests_assembled hm q.requests hfits
  refine ⟨m', ?_, ?_, hm'.options, fun p hp => ?_⟩
  · rw [Act.message_eq id stack h, hassemble, hsent]
  · exact asks_of_sameOutside id stack q.xid (fun p hp => hm'.outside p (Or.inl hp))
      (Act.question_plain h).1
  · rw [hm'.outside p (Or.inr hp), requestHeader_beyond id stack q.xid hp]

/-- Whatever the client sends and whoever it is: the message is built in the end and has its header.
It is well formed and stays in its memory if at most 298 bytes of options stand in front of the list
of requests, and otherwise the end mark lands behind the 548 bytes of the message; and if the identity
is short, a server reads in it the addresses it was sent with and no others. -/
theorem request_read (a : Act) :
    match a.question with
    | none => a.message id stack = none
    | some q =>
        ∃ m, a.message id stack = some m ∧ Asks m id q.xid (q.ciaddr.getD 0) ∧
          ((q.requests = false ∨ (area (asked id q.type q.simple)).length ≤ 298) →
            OptionsAre m (asked id q.type q.simple ++ if q.requests then [requestList] else []) ∧
            ∀ p ≥ 548, m.mem p = stack.mem p) ∧
          (q.requests = true → 298 < (area (asked id q.type q.simple)).length →
            m.mem (240 + ((area (asked id q.type q.simple)).length + 9)) = dhcpEnd) ∧
          ((area id.options).length ≤ 283 → ∀ v,
            Returns m dhcpMessageType v (some (messageTypeOption q.type)) ∧
            ∀ code, code = dhcpRequestedIp ∨ code = dhcpServerId ∨ code = dhcpLeaseTime →
              Returns m code v
                ((q.simple.find? fun o => o.1 = code).map fun o => addrOption o.1 o.2)) := by
  cases hq : a.question with
  | none => exact Act.message_of_none id stack hq
  | some q =>
      obtain ⟨hop, htwo, hcodes⟩ := Act.question_plain hq
      dsimp only
      by_cases hfits : q.requests = false ∨ (area (asked id q.type q.simple)).length ≤ 298
      · obtain ⟨m, hsent, hasks, hoptions, hbeyond⟩ := Act.message_fits id stack hq hfits
        refine ⟨m, hsent, hasks, fun _ => ⟨hoptions, hbeyond⟩, fun htrue hlong => ?_,
          fun hshort v => ⟨?_, fun code hcode => ?_⟩⟩
        · rcases hfits with hfalse | hle
          · rw [hfalse] at htrue
            cases htrue
          · omega
        · exact hoptions.getOption (sent_over id hcodes) (by decide) v
        · rw [← firstWith_asked id hshort htwo hcode]
          apply hoptions.getOption (sent_over id hcodes)
          rcases hcode with rfl | rfl | rfl <;> decide
      · have hrequests : q.requests = true := by
          cases htrue : q.requests with
          | true => rfl
          | false => exact absurd (Or.inl htrue) hfits
        obtain ⟨m, hm, hassemble⟩ :=
          @assembled_asked id stack q.xid q.type q.ciaddr _ (Act.question_length hq) q.requests
        obtain ⟨m', hsent, hheader, hend⟩ := addRequests_overruns hm
        rw [Act.message_eq id stack hq, hassemble, hrequests, if_pos rfl]
        refine ⟨m', hsent, ?_, fun hroom => absurd hroom ?_, fun _ _ => ?_, fun hshort => ?_⟩
        · exact asks_of_sameOutside id stack q.xid hheader hop
        · rwa [hrequests] at hfits
        · exact hend
        · exact absurd (Or.inr (asked_of_short id htwo hshort).2) hfits

end Xwr100.Udhcpc
