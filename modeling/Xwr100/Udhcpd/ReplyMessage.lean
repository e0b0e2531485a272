import Xwr100.Udhcpd.Assembly
import Xwr100.Udhcpd.ConfigOptions
import Xwr100.Udhcpd.ServerPacket

/-!
# Replies byte by byte

The messages that `serverpacket.c` builds for the replies of `ServerPacket`, on a stack that holds
anything, and what `get_option` finds in them at the other end.
-/

namespace Xwr100.Udhcpd

open Lib

/-- The fields of `server_config_t` that are only shown in replies. -/
structure ReplyConfig where
  options : OptionList
  siaddr : Addr
  sname : Option (List UInt8)
  bootFile : Option (List UInt8)

/-- `strncpy`: the string, and zeros behind it. -/
def strncpy (src : List UInt8) (n : Nat) : List UInt8 :=
  (src.takeWhile (· ≠ 0) ++ List.replicate n 0).take n

def ReplyType.byte : ReplyType → UInt8
  | .offer => 2
  | .ack => 5
  | .nak => 6

/-! ## The functions -/

def initPacket (server : Addr) (stack oldpacket : DhcpMessage) (type : UInt8) :
    Option DhcpMessage := do
  let packet ← initHeader stack type
  let packet := packet.write 4 (oldpacket.field 4 4)
  let packet := packet.write 28 (oldpacket.field 28 16)
  let packet := packet.write 10 (oldpacket.field 10 2)
  let packet := packet.write 24 (oldpacket.field 24 4)
  let packet := packet.write 12 (oldpacket.field 12 4)
  (addSimpleOption packet dhcpServerId server).map Prod.fst

/-- The configured options but the lease time. -/
def ReplyConfig.added (conf : ReplyConfig) : List CodedOption :=
  conf.options.sets.filter (·.code ≠ dhcpLeaseTime)

def addBootpOptions (conf : ReplyConfig) (packet : DhcpMessage) : DhcpMessage :=
  let packet := packet.write 20 (bigEndian 4 conf.siaddr.toNat)
  let packet :=
    match conf.sname with
    | none => packet
    | some sname => packet.write 44 (strncpy sname 63)
  match conf.bootFile with
  | none => packet
  | some bootFile => packet.write 108 (strncpy bootFile 127)

/-- What `sendOffer` and `sendACK` send. -/
def leaseMessage (server : Addr) (conf : ReplyConfig) (stack oldpacket : DhcpMessage)
    (type : UInt8) (yiaddr : Addr) (leaseTime : Nat) : Option DhcpMessage := do
  let packet ← initPacket server stack oldpacket type
  let packet := packet.write 16 (bigEndian 4 yiaddr.toNat)
  let packet ← (addSimpleOption packet dhcpLeaseTime (BitVec.ofNat 32 leaseTime)).map Prod.fst
  let packet ← addStrings packet conf.added
  some (addBootpOptions conf packet)

/-- What `send_inform` sends, with the type of an acknowledgement. -/
def informMessage (server : Addr) (conf : ReplyConfig) (stack oldpacket : DhcpMessage)
    (type : UInt8) : Option DhcpMessage := do
  let packet ← initPacket server stack oldpacket type
  let packet ← addStrings packet conf.added
  some (addBootpOptions conf packet)

def Reply.message (server : Addr) (conf : ReplyConfig) (stack oldpacket : DhcpMessage)
    (r : Reply) : Option DhcpMessage :=
  match r.type, r.leaseTime with
  | .nak, _ => initPacket server stack oldpacket ReplyType.nak.byte
  | type, some leaseTime =>
      leaseMessage server conf stack oldpacket type.byte r.yiaddr leaseTime
  | type, none => informMessage server conf stack oldpacket type.byte

/-! ## What a reply says -/

structure Answers (m oldpacket : DhcpMessage) (yiaddr : Addr) (opts : List CodedOption) : Prop where
  op : m.mem 0 = 2
  xid : m.field 4 4 = oldpacket.field 4 4
  flags : m.field 10 2 = oldpacket.field 10 2
  ciaddr : m.field 12 4 = oldpacket.field 12 4
  yiaddr : m.readAddr 16 = yiaddr
  giaddr : m.field 24 4 = oldpacket.field 24 4
  chaddr : m.field 28 16 = oldpacket.field 28 16
  cookie : m.readBytes 236 4 = dhcpMagic
  options : OptionsAre m opts

def serverOptions (server : Addr) (type : UInt8) : List CodedOption :=
  [messageTypeOption type, simpleOption dhcpServerId server (by decide)]

def leaseTimeOption (leaseTime : Nat) : CodedOption :=
  simpleOption dhcpLeaseTime (BitVec.ofNat 32 leaseTime) (by decide)

def Reply.options (server : Addr) (conf : ReplyConfig) (r : Reply) : List CodedOption :=
  match r.type, r.leaseTime with
  | .nak, _ => serverOptions server ReplyType.nak.byte
  | type, some leaseTime =>
      serverOptions server type.byte ++ [leaseTimeOption leaseTime] ++ fitting 15 conf.added
  | type, none => serverOptions server type.byte ++ fitting 9 conf.added

/-- The address a reply shows: only offers and acknowledgements of a lease set the field. -/
def Reply.shown (r : Reply) : Addr :=
  match r.type, r.leaseTime with
  | .nak, _ => 0
  | _, some _ => r.yiaddr
  | _, none => 0

/-! ## The header -/

/-- A blank header with what `init_packet` copies. -/
def copiedHeader (stack oldpacket : DhcpMessage) (type : UInt8) : DhcpMessage :=
  (((((blankHeader stack type).write 4 (oldpacket.field 4 4)).write 28 (oldpacket.field 28 16)).write
    10 (oldpacket.field 10 2)).write 24 (oldpacket.field 24 4)).write 12 (oldpacket.field 12 4)

theorem length_strncpy (src : List UInt8) (n : Nat) : (strncpy src n).length = n := by
  rw [strncpy, List.length_take, List.length_append, List.length_replicate]
  omega

/-- What `add_bootp_options` leaves of a header. -/
theorem field_addBootpOptions {conf : ReplyConfig} {packet : DhcpMessage} {pos count : Nat}
    (h : pos + count ≤ 20 ∨ (24 ≤ pos ∧ pos + count ≤ 44) ∨ 235 ≤ pos) :
    (addBootpOptions conf packet).field pos count = packet.field pos count := by
  have hsiaddr : (packet.write 20 (bigEndian 4 conf.siaddr.toNat)).field pos count =
      packet.field pos count := by
    apply DhcpMessage.field_write_beside
    rw [length_bigEndian]
    omega
  have hsname : ∀ (p : DhcpMessage) (s : List UInt8),
      (p.write 44 (strncpy s 63)).field pos count = p.field pos count := by
    intro p s
    apply DhcpMessage.field_write_beside
    rw [length_strncpy]
    omega
  have hfile : ∀ (p : DhcpMessage) (s : List UInt8),
      (p.write 108 (strncpy s 127)).field pos count = p.field pos count := by
    intro p s
    apply DhcpMessage.field_write_beside
    rw [length_strncpy]
    omega
  unfold addBootpOptions
  dsimp only
  cases conf.sname with
  | none =>
      cases conf.bootFile with
      | none => exact hsiaddr
      | some f => exact (hfile _ f).trans hsiaddr
  | some s =>
      cases conf.bootFile with
      | none => exact (hsname _ s).trans hsiaddr
      | some f => exact (hfile _ f).trans ((hsname _ s).trans hsiaddr)

/-- The copied fields, and what `init_header` left in the others. -/
theorem copiedHeader_fields (stack oldpacket : DhcpMessage) (type : UInt8) :
    let head := copiedHeader stack oldpacket type
    head.mem 0 = opOf type ∧ head.field 4 4 = oldpacket.field 4 4 ∧
    head.field 10 2 = oldpacket.field 10 2 ∧ head.field 12 4 = oldpacket.field 12 4 ∧
    head.field 16 4 = [0, 0, 0, 0] ∧ head.field 24 4 = oldpacket.field 24 4 ∧
    head.field 28 16 = oldpacket.field 28 16 ∧ head.field 236 4 = bigEndian 4 dhcpMagic := by
  have hwritten : ∀ (m : DhcpMessage) (pos count : Nat),
      (m.write pos (oldpacket.field pos count)).field pos count = oldpacket.field pos count := by
    intro m pos count
    have hsame := @DhcpMessage.field_write m pos (oldpacket.field pos count)
    rwa [DhcpMessage.length_field] at hsame
  have hbeside : ∀ (m : DhcpMessage) (pos count at_ n : Nat),
      at_ + n ≤ pos ∨ pos + count ≤ at_ →
        (m.write pos (oldpacket.field pos count)).field at_ n = m.field at_ n := by
    intro m pos count at_ n h
    apply DhcpMessage.field_write_beside
    rwa [DhcpMessage.length_field]
  have hop : ∀ m : DhcpMessage, m.field 0 1 = [m.mem 0] := fun _ => rfl
  unfold copiedHeader
  refine ⟨?_, ?_, ?_, ?_, ?_, ?_, ?_, ?_⟩
  · apply List.singleton_inj.mp
    rw [← hop, hbeside, hbeside, hbeside, hbeside, hbeside]
    · rfl
    all_goals omega
  · rw [hbeside, hbeside, hbeside, hbeside, hwritten]
    all_goals omega
  · rw [hbeside, hbeside, hwritten]
    all_goals omega
  · rw [hwritten]
  · rw [hbeside, hbeside, hbeside, hbeside, hbeside]
    · rfl
    all_goals omega
  · rw [hbeside, hwritten]
    omega
  · rw [hbeside, hbeside, hbeside, hwritten]
    all_goals omega
  · rw [hbeside, hbeside, hbeside, hbeside, hbeside]
    · rfl
    all_goals omega

/-! ### Behind the message -/

theorem mem_write_field_behind (m oldpacket : DhcpMessage) {pos count p : Nat} (h : pos + count ≤ p) :
    (m.write pos (oldpacket.field pos count)).mem p = m.mem p := by
  apply DhcpMessage.mem_write_behind
  rwa [DhcpMessage.length_field]

theorem copiedHeader_beyond (stack oldpacket : DhcpMessage) (type : UInt8) {p : Nat} (hp : 548 ≤ p) :
    (copiedHeader stack oldpacket type).mem p = stack.mem p := by
  unfold copiedHeader
  rw [mem_write_field_behind _ _ (by omega), mem_write_field_behind _ _ (by omega),
    mem_write_field_behind _ _ (by omega), mem_write_field_behind _ _ (by omega),
    mem_write_field_behind _ _ (by omega), blankHeader_beyond stack type hp]

theorem addBootpOptions_beyond (conf : ReplyConfig) (packet : DhcpMessage) {p : Nat} (hp : 548 ≤ p) :
    (addBootpOptions conf packet).mem p = packet.mem p := by
  have hstrncpy : ∀ (m : DhcpMessage) (pos n : Nat) (s : List UInt8), pos + n ≤ 240 →
      (m.write pos (strncpy s n)).mem p = m.mem p := by
    intro m pos n s hpos
    apply DhcpMessage.mem_write_behind
    rw [length_strncpy]
    omega
  have hsiaddr : (packet.write 20 (bigEndian 4 conf.siaddr.toNat)).mem p = packet.mem p := by
    apply DhcpMessage.mem_write_behind
    rw [length_bigEndian]
    omega
  unfold addBootpOptions
  cases conf.sname with
  | none =>
      cases conf.bootFile with
      | none => exact hsiaddr
      | some f => exact (hstrncpy _ 108 127 f (by omega)).trans hsiaddr
  | some s =>
      have hsname := (hstrncpy _ 44 63 s (by omega)).trans hsiaddr
      cases conf.bootFile with
      | none => exact hsname
      | some f => exact (hstrncpy _ 108 127 f (by omega)).trans hsname

/-! ## The functions and the assembly -/

theorem Assembled.addBootpOptions {m head : DhcpMessage} {opts : List CodedOption}
    (h : Assembled m head opts) (conf : ReplyConfig) :
    Assembled (Udhcpd.addBootpOptions conf m) (Udhcpd.addBootpOptions conf head) opts := by
  have hsiaddr : Assembled (m.write 20 (bigEndian 4 conf.siaddr.toNat))
      (head.write 20 (bigEndian 4 conf.siaddr.toNat)) opts := by
    apply h.write
    rw [length_bigEndian]
    omega
  have hstrncpy : ∀ {m head : DhcpMessage} (pos n : Nat) (s : List UInt8), pos + n ≤ 240 →
      Assembled m head opts →
        Assembled (m.write pos (strncpy s n)) (head.write pos (strncpy s n)) opts := by
    intro m head pos n s hpos hm
    apply hm.write
    rwa [length_strncpy]
  unfold Udhcpd.addBootpOptions
  dsimp only
  cases conf.sname with
  | none =>
      cases conf.bootFile with
      | none => exact hsiaddr
      | some f => exact hstrncpy 108 127 f (by omega) hsiaddr
  | some s =>
      have hsname := hstrncpy 44 63 s (by omega) hsiaddr
      cases conf.bootFile with
      | none => exact hsname
      | some f => exact hstrncpy 108 127 f (by omega) hsname

theorem initPacket_eq (server : Addr) (stack oldpacket : DhcpMessage) (type : UInt8) :
    ∃ m, initPacket server stack oldpacket type = some m ∧
      Assembled m (copiedHeader stack oldpacket type) (serverOptions server type) := by
  obtain ⟨m, hinit, hm⟩ := assembled_initHeader stack type
  have hcopy : ∀ {m head : DhcpMessage} {opts : List CodedOption} (pos count : Nat),
      pos + count ≤ 240 → Assembled m head opts →
        Assembled (m.write pos (oldpacket.field pos count))
          (head.write pos (oldpacket.field pos count)) opts := by
    intro m head opts pos count hpos hm
    apply hm.write
    rwa [DhcpMessage.length_field]
  have hcopied := hcopy 12 4 (by omega) <| hcopy 24 4 (by omega) <| hcopy 10 2 (by omega) <|
    hcopy 28 16 (by omega) <| hcopy 4 4 (by omega) hm
  have hadd := @Assembled.addSimple _ _ _ hcopied dhcpServerId server (by decide) (by decide)
    (by decide)
  obtain ⟨m', hadd, hm'⟩ := hadd
  refine ⟨m', ?_, hm'⟩
  rw [initPacket, hinit]
  exact hadd

theorem ReplyConfig.mem_added {conf : ReplyConfig} {o : CodedOption} (ho : o ∈ conf.added) :
    o ∈ conf.options.sets ∧ o.code ≠ dhcpLeaseTime := by
  obtain ⟨hmem, hcode⟩ := List.mem_filter.mp ho
  exact ⟨hmem, by simpa using hcode⟩

/-- An option of the table is not one of those that end, fill or continue the field. -/
theorem OptionList.code_ne (l : OptionList) {o : CodedOption} (ho : o ∈ l.sets) :
    o.code ≠ dhcpPadding ∧ o.code ≠ dhcpEnd ∧ o.code ≠ dhcpOptionOver := by
  obtain ⟨entry, hentry, hcode, -⟩ := l.typed o ho
  rw [← hcode]
  exact options_codes entry hentry

theorem ReplyConfig.plain_added (conf : ReplyConfig) : ∀ o ∈ conf.added, o.Plain := by
  intro o ho
  obtain ⟨hpad, hend, -⟩ := conf.options.code_ne (ReplyConfig.mem_added ho).1
  exact ⟨hpad, hend⟩

theorem leaseMessage_eq (server : Addr) (conf : ReplyConfig) (stack oldpacket : DhcpMessage)
    (type : UInt8) (yiaddr : Addr) (leaseTime : Nat) :
    ∃ m, leaseMessage server conf stack oldpacket type yiaddr leaseTime = some m ∧
      Assembled m
        (addBootpOptions conf
          ((copiedHeader stack oldpacket type).write 16 (bigEndian 4 yiaddr.toNat)))
        (serverOptions server type ++ [leaseTimeOption leaseTime] ++ fitting 15 conf.added) := by
  obtain ⟨m, hinit, hm⟩ := initPacket_eq server stack oldpacket type
  have hyiaddr : Assembled (m.write 16 (bigEndian 4 yiaddr.toNat))
      ((copiedHeader stack oldpacket type).write 16 (bigEndian 4 yiaddr.toNat))
      (serverOptions server type) := by
    apply hm.write
    rw [length_bigEndian]
    omega
  have hlease := @Assembled.addSimple _ _ _ hyiaddr dhcpLeaseTime (BitVec.ofNat 32 leaseTime)
    (by decide) (by decide) (by decide)
  obtain ⟨m', hadd, hm'⟩ := hlease
  obtain ⟨m'', hstrings, hm''⟩ := hm'.addStrings conf.plain_added
  refine ⟨addBootpOptions conf m'', ?_, hm''.addBootpOptions conf⟩
  rw [leaseMessage, hinit]
  change ((addSimpleOption _ _ _).map Prod.fst).bind _ = _
  rw [hadd]
  change (addStrings m' conf.added).bind _ = _
  rw [hstrings]
  rfl

theorem informMessage_eq (server : Addr) (conf : ReplyConfig) (stack oldpacket : DhcpMessage)
    (type : UInt8) :
    ∃ m, informMessage server conf stack oldpacket type = some m ∧
      Assembled m (addBootpOptions conf (copiedHeader stack oldpacket type))
        (serverOptions server type ++ fitting 9 conf.added) := by
  obtain ⟨m, hinit, hm⟩ := initPacket_eq server stack oldpacket type
  obtain ⟨m', hstrings, hm'⟩ := hm.addStrings conf.plain_added
  refine ⟨addBootpOptions conf m', ?_, hm'.addBootpOptions conf⟩
  rw [informMessage, hinit]
  change (addStrings m conf.added).bind _ = _
  rw [hstrings]
  rfl

/-! ## The answer -/

theorem Assembled.answers {m head stack oldpacket : DhcpMessage} {opts : List CodedOption}
    {type : UInt8} {yiaddr : Addr} (h : Assembled m head opts)
    (hcopied : ∀ pos count,
      pos + count ≤ 16 ∨ 24 ≤ pos ∧ pos + count ≤ 44 ∨ 235 ≤ pos →
        head.field pos count = (copiedHeader stack oldpacket type).field pos count)
    (hyiaddr : head.field 16 4 = bigEndian 4 yiaddr.toNat) (hop : opOf type = 2) :
    Answers m oldpacket yiaddr opts := by
  obtain ⟨hbyte, hxid, hflags, hciaddr, -, hgiaddr, hchaddr, hcookie⟩ :=
    copiedHeader_fields stack oldpacket type
  have hfield : ∀ pos count, pos + count ≤ 240 →
      (pos + count ≤ 16 ∨ 24 ≤ pos ∧ pos + count ≤ 44 ∨ 235 ≤ pos) →
        m.field pos count = (copiedHeader stack oldpacket type).field pos count := by
    intro pos count hpos hin
    rw [h.outside.field hpos, hcopied pos count hin]
  constructor
  · have hone := hfield 0 1 (by omega) (by omega)
    have hmem := List.singleton_inj.mp hone
    exact (hmem.trans hbyte).trans hop
  · rw [hfield 4 4 (by omega) (by omega), hxid]
  · rw [hfield 10 2 (by omega) (by omega), hflags]
  · rw [hfield 12 4 (by omega) (by omega), hciaddr]
  · apply readAddr_of_field
    rw [h.outside.field (by omega), hyiaddr]
  · rw [hfield 24 4 (by omega) (by omega), hgiaddr]
  · rw [hfield 28 16 (by omega) (by omega), hchaddr]
  · rw [DhcpMessage.readBytes_eq, hfield 236 4 (by omega) (by omega), hcookie]
    rfl
  · exact h.options

theorem Reply.message_eq (server : Addr) (conf : ReplyConfig) (stack oldpacket : DhcpMessage)
    (r : Reply) : ∃ m, r.message server conf stack oldpacket = some m ∧
      Answers m oldpacket r.shown (r.options server conf) := by
  have hblank : ∀ type, (copiedHeader stack oldpacket type).field 16 4 =
      bigEndian 4 (0 : Addr).toNat := by
    intro type
    exact (copiedHeader_fields stack oldpacket type).2.2.2.2.1
  have hlease : ∀ (type : UInt8) (leaseTime : Nat), opOf type = 2 →
      ∃ m, leaseMessage server conf stack oldpacket type r.yiaddr leaseTime = some m ∧
        Answers m oldpacket r.yiaddr
          (serverOptions server type ++ [leaseTimeOption leaseTime] ++ fitting 15 conf.added) := by
    intro type leaseTime hop
    obtain ⟨m, hmessage, hm⟩ := leaseMessage_eq server conf stack oldpacket type r.yiaddr leaseTime
    refine ⟨m, hmessage, @Assembled.answers _ _ stack _ _ type _ hm ?_ ?_ hop⟩
    · intro pos count hin
      rw [field_addBootpOptions (by omega)]
      apply DhcpMessage.field_write_beside
      rw [length_bigEndian]
      omega
    · rw [field_addBootpOptions (by omega)]
      have hsame := @DhcpMessage.field_write (copiedHeader stack oldpacket type) 16
        (bigEndian 4 r.yiaddr.toNat)
      rwa [length_bigEndian] at hsame
  have hinform : ∀ type : UInt8, opOf type = 2 →
      ∃ m, informMessage server conf stack oldpacket type = some m ∧
        Answers m oldpacket 0 (serverOptions server type ++ fitting 9 conf.added) := by
    intro type hop
    obtain ⟨m, hmessage, hm⟩ := informMessage_eq server conf stack oldpacket type
    refine ⟨m, hmessage, @Assembled.answers _ _ stack _ _ type _ hm ?_ ?_ hop⟩
    · intro pos count hin
      exact field_addBootpOptions (by omega)
    · rw [field_addBootpOptions (by omega), hblank]
  obtain ⟨type, chaddr, yiaddr, leaseTime, sent⟩ := r
  cases type with
  | nak =>
      obtain ⟨m, hmessage, hm⟩ := initPacket_eq server stack oldpacket ReplyType.nak.byte
      exact ⟨m, hmessage, @Assembled.answers _ _ stack _ _ ReplyType.nak.byte _ hm
        (fun _ _ _ => rfl) (hblank _) (by decide)⟩
  | offer =>
      cases leaseTime with
      | some leaseTime => exact hlease ReplyType.offer.byte leaseTime (by decide)
      | none => exact hinform ReplyType.offer.byte (by decide)
  | ack =>
      cases leaseTime with
      | some leaseTime => exact hlease ReplyType.ack.byte leaseTime (by decide)
      | none => exact hinform ReplyType.ack.byte (by decide)

/-- Nothing is written behind the message that a reply is built in. -/
theorem Reply.message_beyond {server : Addr} {conf : ReplyConfig} {stack oldpacket m : DhcpMessage}
    {r : Reply} (h : r.message server conf stack oldpacket = some m) {p : Nat} (hp : 548 ≤ p) :
    m.mem p = stack.mem p := by
  have hlease : ∀ (type : UInt8) (leaseTime : Nat),
      leaseMessage server conf stack oldpacket type r.yiaddr leaseTime = some m →
        m.mem p = stack.mem p := by
    intro type leaseTime hmessage
    obtain ⟨m', hmessage', hm⟩ := leaseMessage_eq server conf stack oldpacket type r.yiaddr leaseTime
    obtain rfl := Option.some.inj (hmessage.symm.trans hmessage')
    have hyiaddr : ((copiedHeader stack oldpacket type).write 16
        (bigEndian 4 r.yiaddr.toNat)).mem p = (copiedHeader stack oldpacket type).mem p := by
      apply DhcpMessage.mem_write_behind
      rw [length_bigEndian]
      omega
    rw [hm.outside p (Or.inr hp), addBootpOptions_beyond conf _ hp, hyiaddr,
      copiedHeader_beyond stack oldpacket type hp]
  have hinform : ∀ type : UInt8,
      informMessage server conf stack oldpacket type = some m → m.mem p = stack.mem p := by
    intro type hmessage
    obtain ⟨m', hmessage', hm⟩ := informMessage_eq server conf stack oldpacket type
    obtain rfl := Option.some.inj (hmessage.symm.trans hmessage')
    rw [hm.outside p (Or.inr hp), addBootpOptions_beyond conf _ hp,
      copiedHeader_beyond stack oldpacket type hp]
  obtain ⟨type, chaddr, yiaddr, leaseTime, sent⟩ := r
  cases type with
  | nak =>
      obtain ⟨m', hmessage, hm⟩ := initPacket_eq server stack oldpacket ReplyType.nak.byte
      obtain rfl := Option.some.inj (hmessage.symm.trans h)
      rw [hm.outside p (Or.inr hp), copiedHeader_beyond stack oldpacket _ hp]
  | offer =>
      cases leaseTime with
      | some leaseTime => exact hlease ReplyType.offer.byte leaseTime h
      | none => exact hinform ReplyType.offer.byte h
  | ack =>
      cases leaseTime with
      | some leaseTime => exact hlease ReplyType.ack.byte leaseTime h
      | none => exact hinform ReplyType.ack.byte h

/-! ## Reading a reply -/

theorem Reply.mem_options {server : Addr} {conf : ReplyConfig} {r : Reply} {o : CodedOption}
    (h : o ∈ r.options server conf) :
    o.code = dhcpMessageType ∨ o.code = dhcpServerId ∨ o.code = dhcpLeaseTime ∨
      o ∈ conf.added := by
  have hserver : ∀ type, o ∈ serverOptions server type →
      o.code = dhcpMessageType ∨ o.code = dhcpServerId := by
    intro type ho
    rcases List.mem_pair.mp ho with rfl | rfl
    · exact Or.inl rfl
    · exact Or.inr rfl
  unfold Reply.options at h
  split at h
  · have hcode := hserver _ h
    tauto
  · rcases List.mem_append.mp h with h | h
    · rcases List.mem_append.mp h with h | h
      · have hcode := hserver _ h
        tauto
      · have hcode : o.code = dhcpLeaseTime := by rw [List.mem_singleton.mp h]; rfl
        tauto
    · have hadded := mem_fitting h
      tauto
  · rcases List.mem_append.mp h with h | h
    · have hcode := hserver _ h
      tauto
    · have hadded := mem_fitting h
      tauto

theorem Reply.options_over {server : Addr} {conf : ReplyConfig} {r : Reply} :
    ∀ o ∈ r.options server conf, o.code ≠ dhcpOptionOver := by
  intro o ho
  rcases Reply.mem_options ho with hcode | hcode | hcode | hadded
  · rw [hcode]
    decide
  · rw [hcode]
    decide
  · rw [hcode]
    decide
  · exact (conf.options.code_ne (ReplyConfig.mem_added hadded).1).2.2

/-- Behind the server's own options `get_option` finds the configured ones that fit. -/
theorem Reply.firstWith_options {server : Addr} {conf : ReplyConfig} {r : Reply} {code : UInt8}
    (hcode : code ≠ dhcpMessageType ∧ code ≠ dhcpServerId ∧ code ≠ dhcpLeaseTime) :
    firstWith code (r.options server conf) =
      match r.type, r.leaseTime with
      | .nak, _ => none
      | _, some _ => firstWith code (fitting 15 conf.added)
      | _, none => firstWith code (fitting 9 conf.added) := by
  obtain ⟨htype, hserver, hlease⟩ := hcode
  have hown : ∀ type rest, firstWith code (serverOptions server type ++ rest) =
      firstWith code rest := by
    intro type rest
    simp [firstWith, serverOptions, messageTypeOption, simpleOption, Ne.symm htype, Ne.symm hserver]
  have htime : ∀ leaseTime rest, firstWith code ([leaseTimeOption leaseTime] ++ rest) =
      firstWith code rest := by
    intro leaseTime rest
    simp [firstWith, leaseTimeOption, simpleOption, Ne.symm hlease]
  unfold Reply.options
  split
  · have hnone := hown ReplyType.nak.byte []
    rw [List.append_nil] at hnone
    exact hnone
  · rw [List.append_assoc, hown, htime]
  · rw [hown]

theorem Reply.firstWith_messageType (server : Addr) (conf : ReplyConfig) (r : Reply) :
    firstWith dhcpMessageType (r.options server conf) = some (messageTypeOption r.type.byte) := by
  obtain ⟨type, chaddr, yiaddr, leaseTime, sent⟩ := r
  cases type <;> cases leaseTime <;> rfl

theorem Reply.firstWith_serverId (server : Addr) (conf : ReplyConfig) (r : Reply) :
    firstWith dhcpServerId (r.options server conf) =
      some (simpleOption dhcpServerId server (by decide)) := by
  obtain ⟨type, chaddr, yiaddr, leaseTime, sent⟩ := r
  cases type <;> cases leaseTime <;> rfl

/-- The lease time an offer or an acknowledgement states; a configured one is never in a reply. -/
def Reply.stated (r : Reply) : Option Nat :=
  match r.type with
  | .nak => none
  | _ => r.leaseTime

theorem Reply.firstWith_leaseTime (server : Addr) (conf : ReplyConfig) (r : Reply) :
    firstWith dhcpLeaseTime (r.options server conf) = r.stated.map leaseTimeOption := by
  have hnone : firstWith dhcpLeaseTime (fitting 9 conf.added) = none := by
    rw [firstWith, List.find?_eq_none]
    intro o ho
    have hne := (ReplyConfig.mem_added (mem_fitting ho)).2
    simpa using hne
  obtain ⟨type, chaddr, yiaddr, leaseTime, sent⟩ := r
  cases type with
  | nak => cases leaseTime <;> rfl
  | offer =>
      cases leaseTime with
      | some leaseTime => rfl
      | none => exact hnone
  | ack =>
      cases leaseTime with
      | some leaseTime => rfl
      | none => exact hnone

theorem ReplyConfig.firstWith_added (conf : ReplyConfig) {code : UInt8}
    (hcode : code ≠ dhcpLeaseTime) :
    firstWith code conf.added = findOption conf.options.sets code := by
  rw [← firstWith_eq_findOption conf.options.sorted, ReplyConfig.added, firstWith, firstWith,
    List.find?_filter]
  congr 1
  funext o
  by_cases ho : o.code = code
  · simp [ho, hcode]
  · simp [ho]

/-- Whatever the server is asked, whatever it has been configured with and whatever its stack held
before: each reply is built in the end and inside its message, answers the message it is for, and is
read at the other end as it was meant.  The type and the server are there, and the lease time the server decided on but
none that was configured; under any other code `get_option` finds the configured option of this
code, if the options in front of it have left room. -/
theorem reply_read (server : Addr) (conf : ReplyConfig) (stack oldpacket : DhcpMessage)
    (r : Reply) :
    ∃ m, r.message server conf stack oldpacket = some m ∧
      Answers m oldpacket r.shown (r.options server conf) ∧
      (∀ p ≥ 548, m.mem p = stack.mem p) ∧
      (∀ v, Returns m dhcpMessageType v (some (messageTypeOption r.type.byte)) ∧
        Returns m dhcpServerId v (some (simpleOption dhcpServerId server (by decide))) ∧
        Returns m dhcpLeaseTime v (r.stated.map leaseTimeOption)) ∧
      ∀ code v, code ≠ dhcpEnd →
        code ≠ dhcpMessageType ∧ code ≠ dhcpServerId ∧ code ≠ dhcpLeaseTime →
          Returns m code v
            (match r.type, r.leaseTime with
              | .nak, _ => none
              | _, some _ => firstWith code (fitting 15 conf.added)
              | _, none => firstWith code (fitting 9 conf.added)) ∧
          (r.type ≠ .nak → (area conf.added).length ≤ 291 →
            Returns m code v (findOption conf.options.sets code)) := by
  obtain ⟨m, hmessage, hm⟩ := r.message_eq server conf stack oldpacket
  have hread : ∀ code v, code ≠ dhcpEnd →
      Returns m code v (firstWith code (r.options server conf)) := by
    intro code v hend
    exact hm.options.getOption Reply.options_over hend v
  refine ⟨m, hmessage, hm, fun p hp => Reply.message_beyond hmessage hp,
    fun v => ⟨?_, ?_, ?_⟩, fun code v hend hcode => ?_⟩
  · rw [← r.firstWith_messageType server conf]
    exact hread _ v (by decide)
  · rw [← r.firstWith_serverId server conf]
    exact hread _ v (by decide)
  · rw [← r.firstWith_leaseTime server conf]
    exact hread _ v (by decide)
  · have hfound := hread code v hend
    rw [Reply.firstWith_options hcode] at hfound
    refine ⟨hfound, fun hnak hroom => ?_⟩
    rw [← conf.firstWith_added hcode.2.2]
    rw [@fitting_of_length 15 _ (by omega), @fitting_of_length 9 _ (by omega)] at hfound
    split at hfound
    · next htype => exact absurd htype hnak
    · exact hfound
    · exact hfound

end Xwr100.Udhcpd
