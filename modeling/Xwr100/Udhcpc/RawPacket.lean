import Xwr100.Lib.Codec
import Xwr100.Net.Checksum
import Xwr100.Udhcpd.Options

/-! # Datagrams built and taken apart by hand

`raw_packet` of `packet.c`, which puts the headers of IP and UDP in front of a message, and
`get_raw_packet` of `clientpacket.c`, which checks and removes them.  Both sum up a packet whose IP
header has been replaced by one that adds up to the pseudo-header of UDP.
-/

namespace Xwr100.Udhcpc

open Lib Net Udhcpd

/-! ## The packet -/

/-- `struct iphdr` of a big-endian CPU -/
structure IpHdr where
  version : BitVec 4
  ihl : BitVec 4
  tos : BitVec 8
  totLen : BitVec 16
  id : BitVec 16
  fragOff : BitVec 16
  ttl : BitVec 8
  protocol : BitVec 8
  check : BitVec 16
  saddr : Addr
  daddr : Addr
deriving DecidableEq

/-- `struct udphdr` -/
structure UdpHdr where
  source : BitVec 16
  dest : BitVec 16
  len : BitVec 16
  check : BitVec 16
deriving DecidableEq

/-- The bytes of a `struct dhcpMessage`. -/
abbrev MessageData := { bytes : Bytes // bytes.length = 548 }

/-- The first bytes of a message. -/
@[irreducible] def bytesOf (m : DhcpMessage) (count : Nat) : Bytes := (List.range count).map m.mem

@[simp] theorem length_bytesOf (m : DhcpMessage) (count : Nat) :
    (bytesOf m count).length = count := by
  rw [bytesOf, List.length_map, List.length_range]

def messageData (m : DhcpMessage) : MessageData := ⟨bytesOf m 548, length_bytesOf m 548⟩

/-- `struct udp_dhcp_packet` -/
structure UdpDhcpPacket where
  ip : IpHdr
  udp : UdpHdr
  data : MessageData

def byte : Codec (BitVec 8) := .word 1 rfl

def half : Codec (BitVec 16) := .word 2 rfl

def long : Codec Addr := .word 4 rfl

def ipHdr : Codec IpHdr :=
  (Codec.nibbles.seq <| byte.seq <| half.seq <| half.seq <| half.seq <| byte.seq <| byte.seq <|
    half.seq <| long.seq long).congr
  { toFun := fun ((version, ihl), tos, totLen, id, fragOff, ttl, protocol, check, saddr, daddr) =>
      ⟨version, ihl, tos, totLen, id, fragOff, ttl, protocol, check, saddr, daddr⟩
    invFun := fun h => ((h.version, h.ihl), h.tos, h.totLen, h.id, h.fragOff, h.ttl, h.protocol,
      h.check, h.saddr, h.daddr)
    left_inv := fun _ => rfl
    right_inv := fun _ => rfl }

def udpHdr : Codec UdpHdr :=
  (half.seq <| half.seq <| half.seq half).congr
  { toFun := fun (source, dest, len, check) => ⟨source, dest, len, check⟩
    invFun := fun h => (h.source, h.dest, h.len, h.check)
    left_inv := fun _ => rfl
    right_inv := fun _ => rfl }

def udpDhcpPacket : Codec UdpDhcpPacket :=
  (ipHdr.seq <| udpHdr.seq <| .raw 548).congr
  { toFun := fun (ip, udp, data) => ⟨ip, udp, data⟩
    invFun := fun p => (p.ip, p.udp, p.data)
    left_inv := fun _ => rfl
    right_inv := fun _ => rfl }

/-! ## The functions -/

def ipprotoUdp : BitVec 8 := 17
def ipversion : BitVec 4 := 4
def ipdefttl : BitVec 8 := 64
def clientPort : BitVec 16 := 68

/-- The header that a packet is summed up with: what `memset` leaves, the protocol, the addresses,
and the length of the UDP part for the length of the whole. -/
def pseudoHdr (saddr daddr : Addr) (len : BitVec 16) : IpHdr :=
  { version := 0, ihl := 0, tos := 0, totLen := len, id := 0, fragOff := 0, ttl := 0
    protocol := ipprotoUdp, check := 0, saddr := saddr, daddr := daddr }

/-- The packet that `raw_packet` has when it computes the checksum of UDP. -/
def summedPacket (payload : DhcpMessage) (sourceIp : Addr) (sourcePort : Int) (destIp : Addr)
    (destPort : Int) : UdpDhcpPacket where
  ip := pseudoHdr sourceIp destIp 556
  udp := ⟨BitVec.ofInt 16 sourcePort, BitVec.ofInt 16 destPort, 556, 0⟩
  data := messageData payload

/-- `raw_packet`: what it hands to `sendto`. -/
def rawPacket (payload : DhcpMessage) (sourceIp : Addr) (sourcePort : Int) (destIp : Addr)
    (destPort : Int) : Option Bytes := do
  let packet := summedPacket payload sourceIp sourcePort destIp destPort
  let udpCheck ← checksum (udpDhcpPacket.encode packet)
  let ip := { packet.ip with totLen := 576, ihl := 5, version := ipversion, ttl := ipdefttl }
  let ipCheck ← checksum (ipHdr.encode ip)
  some (udpDhcpPacket.encode
    { packet with
      ip := { ip with check := BitVec.ofNat 16 ipCheck }
      udp := { packet.udp with check := BitVec.ofNat 16 udpCheck } })

/-- What `get_raw_packet` comes to. -/
inductive RawResult where
  /-- -1: the socket is closed and opened again -/
  | fatal
  /-- -2 -/
  | ignored
  /-- `memcpy` is called with a length that has wrapped below zero. -/
  | overrun
  | bytes (count : Nat)
deriving DecidableEq, Repr

/-- A conversion to `short`. -/
def shortOf (n : Int) : Int := (BitVec.ofInt 16 n).toInt

def received (datagram : Bytes) : UdpDhcpPacket :=
  udpDhcpPacket.decode (datagram.take 576 ++ List.replicate (576 - datagram.length) 0)

namespace UdpDhcpPacket

variable (packet : UdpDhcpPacket)

/-- The packet is not UDP in plain IP for the client, or its lengths disagree. -/
def Bogus (bytes : Nat) : Prop :=
  packet.ip.protocol ≠ ipprotoUdp ∨ packet.ip.version ≠ ipversion ∨ packet.ip.ihl ≠ 5 ∨
    packet.udp.dest ≠ clientPort ∨ 576 < bytes ∨
    (packet.udp.len.toNat : Int) ≠ shortOf (bytes - 20)

instance (bytes : Nat) : Decidable (packet.Bogus bytes) := inferInstanceAs (Decidable (_ ∨ _))

/-- The packet with the header for the sum in place of its own, and no checksum. -/
def pseudo : UdpDhcpPacket :=
  { packet with
    ip := pseudoHdr packet.ip.saddr packet.ip.daddr packet.udp.len
    udp := { packet.udp with check := 0 } }

def ipChecksum : Option Nat := checksum (ipHdr.encode { packet.ip with check := 0 })

def udpChecksum (bytes : Nat) : Option Nat :=
  checksum ((udpDhcpPacket.encode packet.pseudo).take bytes)

end UdpDhcpPacket

/-- `get_raw_packet`: the message copied to, and the result.  Only what the datagram holds is copied,
before the cookie is looked at. -/
def getRawPacket (payload : DhcpMessage) (datagram : Option Bytes) : DhcpMessage × RawResult :=
  match datagram with
  | none => (payload, .fatal)
  | some datagram =>
      let packet := received datagram
      let bytes := packet.ip.totLen.toNat
      if min datagram.length 576 < 28 then (payload, .ignored)
      else if min datagram.length 576 < bytes then (payload, .ignored)
      else if packet.Bogus bytes then (payload, .ignored)
      else if some packet.ip.check.toNat ≠ packet.ipChecksum then (payload, .fatal)
      else if packet.udp.check ≠ 0 ∧ some packet.udp.check.toNat ≠ packet.udpChecksum bytes then
        (payload, .ignored)
      else if bytes < 28 then (payload, .overrun)
      else
        let copied := payload.write 0 (packet.data.val.take (bytes - 28))
        (copied, if copied.readBytes 236 4 = dhcpMagic then .bytes (bytes - 28) else .ignored)

/-! ## What is built is accepted -/

theorem length_ipHdr (h : IpHdr) : (ipHdr.encode h).length = 20 := ipHdr.length_encode h

theorem length_packet (p : UdpDhcpPacket) : (udpDhcpPacket.encode p).length = 576 :=
  udpDhcpPacket.length_encode p

theorem checksum_ofNat (addr : Bytes) (h : addr.length ≤ 65535) :
    ∃ c : BitVec 16, checksum addr = some c.toNat := by
  have hword := wordOf_lt (show 1 < 0x10000 by decide) (words addr).sum
  refine ⟨BitVec.ofNat 16 (rfc1071 addr), ?_⟩
  rw [checksum_eq_rfc1071 h, BitVec.toNat_ofNat, rfc1071_eq, Nat.mod_eq_of_lt (by omega)]

/-- What `raw_packet` sends: the packet whose two sums are its checksums. -/
theorem rawPacket_eq (payload : DhcpMessage) (sourceIp : Addr) (sourcePort : Int) (destIp : Addr)
    (destPort : Int) :
    ∃ packet : UdpDhcpPacket,
      rawPacket payload sourceIp sourcePort destIp destPort =
        some (udpDhcpPacket.encode packet) ∧
      packet.ip.protocol = ipprotoUdp ∧ packet.ip.version = ipversion ∧ packet.ip.ihl = 5 ∧
      packet.ip.totLen = 576 ∧ packet.ip.saddr = sourceIp ∧ packet.ip.daddr = destIp ∧
      packet.udp.source = BitVec.ofInt 16 sourcePort ∧
      packet.udp.dest = BitVec.ofInt 16 destPort ∧ packet.udp.len = 556 ∧
      packet.data = messageData payload ∧
      packet.ipChecksum = some packet.ip.check.toNat ∧
      packet.udpChecksum 576 = some packet.udp.check.toNat := by
  let summed := summedPacket payload sourceIp sourcePort destIp destPort
  let ip := { summed.ip with totLen := 576, ihl := 5, version := ipversion, ttl := ipdefttl }
  have hsummed := length_packet summed
  obtain ⟨udpCheck, hudp⟩ := checksum_ofNat (udpDhcpPacket.encode summed) (by omega)
  obtain ⟨ipCheck, hip⟩ := checksum_ofNat (ipHdr.encode ip) (by rw [length_ipHdr]; decide)
  refine ⟨⟨{ ip with check := ipCheck }, { summed.udp with check := udpCheck }, summed.data⟩, ?_,
    rfl, rfl, rfl, rfl, rfl, rfl, rfl, rfl, rfl, rfl, hip, ?_⟩
  · have hipNat : BitVec.ofNat 16 ipCheck.toNat = ipCheck := by
      rw [BitVec.ofNat_toNat, BitVec.setWidth_eq]
    have hudpNat : BitVec.ofNat 16 udpCheck.toNat = udpCheck := by
      rw [BitVec.ofNat_toNat, BitVec.setWidth_eq]
    rw [rawPacket]
    simp only [Option.bind_eq_bind]
    rw [hudp, Option.bind_some, hip, Option.bind_some, hipNat, hudpNat]
  · rw [UdpDhcpPacket.udpChecksum, List.take_of_length_le (Nat.le_of_eq (length_packet _))]
    exact hudp

theorem received_encode (packet : UdpDhcpPacket) :
    received (udpDhcpPacket.encode packet) = packet := by
  have hlength := length_packet packet
  rw [received, List.take_of_length_le (Nat.le_of_eq hlength), hlength, Nat.sub_self,
    List.replicate_zero, List.append_nil, udpDhcpPacket.decode_encode]

theorem readBytes_congr {m m' : DhcpMessage} {pos count : Nat}
    (h : ∀ k < count, m.mem (pos + k) = m'.mem (pos + k)) :
    m.readBytes pos count = m'.readBytes pos count := by
  induction count with
  | zero => rfl
  | succ count ih =>
      rw [DhcpMessage.readBytes, DhcpMessage.readBytes, h count (Nat.lt_succ_self count),
        ih fun k hk => h k (Nat.lt_succ_of_lt hk)]

/-- The bytes of a message put over another are those of the message. -/
theorem mem_write_messageData (old m : DhcpMessage) {pos : Nat} (h : pos < 548) :
    (old.write 0 (messageData m).val).mem pos = m.mem pos := by
  have hget : (bytesOf m 548)[pos]? = some (m.mem pos) := by
    rw [bytesOf, List.getElem?_map, List.getElem?_range h, Option.map_some]
  have hwritten : writeAt old.mem 0 (bytesOf m 548) pos = m.mem pos := by
    unfold writeAt
    rw [if_neg (Nat.not_lt_zero pos), Nat.sub_zero, hget, Option.getD_some]
  exact hwritten

/-- A message put over another one with the same memory behind it. -/
theorem write_messageData {old m : DhcpMessage} (h : ∀ p ≥ 548, m.mem p = old.mem p) :
    old.write 0 (messageData m).val = m := by
  have hlength : (messageData m).val.length = 548 := (messageData m).property
  have hmem : (old.write 0 (messageData m).val).mem = m.mem := by
    funext p
    by_cases hp : p < 548
    · exact mem_write_messageData old m hp
    · have hbehind : 0 + (messageData m).val.length ≤ p := by omega
      exact (writeAt_behind hbehind).trans (h p (by omega)).symm
  exact congrArg DhcpMessage.mk hmem

/-- A packet of full length with the right header and checksums is for the client if its port is. -/
theorem getRawPacket_encode (old : DhcpMessage) {packet : UdpDhcpPacket}
    (hproto : packet.ip.protocol = ipprotoUdp) (hversion : packet.ip.version = ipversion)
    (hihl : packet.ip.ihl = 5) (htot : packet.ip.totLen = 576) (hlen : packet.udp.len = 556)
    (hip : packet.ipChecksum = some packet.ip.check.toNat)
    (hudp : packet.udpChecksum 576 = some packet.udp.check.toNat) :
    getRawPacket old (some (udpDhcpPacket.encode packet)) =
      if packet.udp.dest = clientPort then
        (old.write 0 packet.data.val,
          if (old.write 0 packet.data.val).readBytes 236 4 = dhcpMagic then .bytes 548 else .ignored)
      else (old, .ignored) := by
  have hbytes : packet.ip.totLen.toNat = 576 := by rw [htot]; rfl
  have hbogus : packet.Bogus 576 ↔ packet.udp.dest ≠ clientPort := by
    rw [UdpDhcpPacket.Bogus, hproto, hversion, hihl, hlen]
    constructor
    · rintro (h | h | h | h | h | h)
      · exact absurd rfl h
      · exact absurd rfl h
      · exact absurd rfl h
      · exact h
      · exact absurd h (by decide)
      · exact absurd (by decide) h
    · intro h
      exact Or.inr (Or.inr (Or.inr (Or.inl h)))
  rw [getRawPacket, received_encode, length_packet, hbytes]
  dsimp only
  rw [if_neg (by decide), if_neg (by decide)]
  by_cases hport : packet.udp.dest = clientPort
  · rw [if_pos hport, if_neg (fun h => hbogus.mp h hport), hip, if_neg (fun h => h rfl), hudp,
      if_neg (fun h => h.2 rfl), if_neg (by decide),
      List.take_of_length_le (Nat.le_of_eq packet.data.property)]
  · rw [if_neg hport, if_pos (hbogus.mpr hport)]

/-- A message that `raw_packet` sends, from any addresses and ports, is what `get_raw_packet` puts
in place of the message it is called with, unless the port is another one or the cookie is wrong. -/
theorem getRawPacket_rawPacket (old m : DhcpMessage) (sourceIp destIp : Addr)
    (sourcePort destPort : Int) :
    ∃ datagram, rawPacket m sourceIp sourcePort destIp destPort = some datagram ∧
      getRawPacket old (some datagram) =
        if BitVec.ofInt 16 destPort = clientPort then
          (old.write 0 (messageData m).val,
            if m.readBytes 236 4 = dhcpMagic then .bytes 548 else .ignored)
        else (old, .ignored) := by
  obtain ⟨packet, hraw, hproto, hversion, hihl, htot, -, -, -, hdest, hlen, hdata, hip, hudp⟩ :=
    rawPacket_eq m sourceIp sourcePort destIp destPort
  have hcookie : (old.write 0 (messageData m).val).readBytes 236 4 = m.readBytes 236 4 :=
    readBytes_congr fun k hk => mem_write_messageData old m (by omega)
  refine ⟨_, hraw, ?_⟩
  rw [getRawPacket_encode old hproto hversion hihl htot hlen hip hudp, hdest, hdata, hcookie]

/-! ## What is accepted -/

/-- Only the sum of the words matters. -/
theorem checksum_congr {addr addr' : Bytes} (h : (words addr).sum = (words addr').sum)
    (hlength : addr.length ≤ 65535) (hlength' : addr'.length ≤ 65535) :
    checksum addr = checksum addr' := by
  rw [checksum_eq_rfc1071 hlength, checksum_eq_rfc1071 hlength', rfc1071_eq, rfc1071_eq, h]

theorem checksum_bounded {addr : Bytes} (h : addr.length ≤ 65535) {c : Nat} :
    checksum addr = some c ↔ 0xffff - wordOf 0x10000 (words addr).sum = c := by
  rw [checksum_eq_rfc1071 h, rfc1071_eq, Option.some.injEq]

/-- The checksum of the rest stands in the field: the whole sums up to zero, and the field is not
the other zero. -/
theorem checksum_field_iff {front back : Bytes} {c : BitVec 16} (heven : front.length % 2 = 0)
    (hlength : (front ++ ([0, 0] ++ back)).length ≤ 65535)
    (hsum : 0 < (words (front ++ ([0, 0] ++ back))).sum) :
    checksum (front ++ ([0, 0] ++ back)) = some c.toNat ↔
      checksum (front ++ (bigEndian 2 c.toNat ++ back)) = some 0 ∧ c ≠ 0xffff := by
  have hc := c.isLt
  have hones : c ≠ 0xffff ↔ c.toNat ≠ 65535 := by
    rw [Ne, ← BitVec.toNat_inj]
    rfl
  rw [hones, checksum_bounded hlength, checksum_bounded (by rw [length_insert]; exact hlength),
    sum_words_insert heven hc]
  generalize (words (front ++ ([0, 0] ++ back))).sum = total at *
  rw [wordOf, wordOf, if_neg (by omega), if_neg (by omega)]
  omega

/-- An IP header up to its checksum and behind it. -/
theorem ipHdr_split (h : IpHdr) :
    ∃ front back : Bytes, front.length = 10 ∧ back.length = 8 ∧
      ∀ c, ipHdr.encode { h with check := c } = front ++ (bigEndian 2 c.toNat ++ back) := by
  refine ⟨Codec.nibbles.encode (h.version, h.ihl) ++ (byte.encode h.tos ++ (half.encode h.totLen ++
    (half.encode h.id ++ (half.encode h.fragOff ++ (byte.encode h.ttl ++
      byte.encode h.protocol))))), long.encode h.saddr ++ long.encode h.daddr, ?_, ?_, fun c => ?_⟩
  · simp only [List.length_append, Codec.length_encode]
    rfl
  · simp only [List.length_append, Codec.length_encode]
    rfl
  · simp only [List.append_assoc]
    rfl

/-- A header that states a version does not sum up to zero. -/
theorem sum_ipHdr_pos {h : IpHdr} (hversion : h.version ≠ 0) :
    0 < (words (ipHdr.encode h)).sum := by
  have hupper : 0 < h.version.toNat := by
    rw [Nat.pos_iff_ne_zero, Ne, ← BitVec.toNat_zero, BitVec.toNat_inj]
    exact hversion
  have hlt := h.version.isLt
  have hlower := h.ihl.isLt
  have hhead : ∃ b rest, ipHdr.encode h =
      UInt8.ofNat (h.version.toNat * 16 + h.ihl.toNat) :: b :: rest := ⟨_, _, rfl⟩
  obtain ⟨b, rest, hhead⟩ := hhead
  rw [hhead, words, List.sum_cons, UInt8.toNat_ofNat']
  omega

/-- The checksum of the IP header, as the code checks it and as RFC 1071 has it. -/
theorem ipChecksum_iff {packet : UdpDhcpPacket} (hversion : packet.ip.version ≠ 0) :
    packet.ipChecksum = some packet.ip.check.toNat ↔
      checksum (ipHdr.encode packet.ip) = some 0 ∧ packet.ip.check ≠ 0xffff := by
  obtain ⟨front, back, hfront, hback, hsplit⟩ := ipHdr_split packet.ip
  have hzero := hsplit 0
  have hpos := sum_ipHdr_pos (h := { packet.ip with check := 0 }) hversion
  have hlength := length_ipHdr { packet.ip with check := 0 }
  rw [hzero] at hpos hlength
  have hiff := checksum_field_iff (c := packet.ip.check) (by rw [hfront])
    (Nat.le_trans (Nat.le_of_eq hlength) (by decide)) hpos
  rw [← hsplit packet.ip.check] at hiff
  rw [UdpDhcpPacket.ipChecksum, hzero]
  exact hiff

/-- The pseudo-header of RFC 768: source, destination, zero, protocol, and the UDP length. -/
def rfc768 (packet : UdpDhcpPacket) : Bytes :=
  long.encode packet.ip.saddr ++ (long.encode packet.ip.daddr ++
    ([0, 17] ++ half.encode packet.udp.len))

theorem length_half (v : BitVec 16) : (half.encode v).length = 2 := half.length_encode v

theorem length_long (v : Addr) : (long.encode v).length = 4 := long.length_encode v

/-- The header that `get_raw_packet` puts in place of the real one adds up to the same. -/
theorem sum_pseudoHdr (packet : UdpDhcpPacket) :
    (words (ipHdr.encode (pseudoHdr packet.ip.saddr packet.ip.daddr packet.udp.len))).sum =
      (words (rfc768 packet)).sum := by
  have hnone : Codec.nibbles.encode (0, 0) ++ byte.encode 0 = [0, 0] := by decide
  have hrest : half.encode 0 ++ (half.encode 0 ++ (byte.encode 0 ++ (byte.encode ipprotoUdp ++
      half.encode 0))) = [0, 0, 0, 0, 0, 17, 0, 0] := by decide
  have hheader : ipHdr.encode (pseudoHdr packet.ip.saddr packet.ip.daddr packet.udp.len) =
      [0, 0] ++ (half.encode packet.udp.len ++ ([0, 0, 0, 0, 0, 17, 0, 0] ++
        (long.encode packet.ip.saddr ++ long.encode packet.ip.daddr))) := by
    rw [← hrest, ← hnone]
    simp only [List.append_assoc]
    rfl
  have hconst : (words [0, 0, 0, 0, 0, 17, 0, 0]).sum = 17 := rfl
  have hproto : (words [0, 17]).sum = 17 := rfl
  have hnone : (words [0, 0]).sum = 0 := rfl
  rw [hheader, rfc768, words_append rfl, words_append (by rw [length_half]), words_append rfl,
    words_append (by rw [length_long]), words_append (by rw [length_long]),
    words_append (by rw [length_long]), words_append rfl]
  simp only [List.sum_append, hconst, hproto, hnone]
  omega

theorem length_rfc768 (packet : UdpDhcpPacket) : (rfc768 packet).length = 12 := by
  simp only [rfc768, List.length_append, length_long, length_half]
  rfl

/-- The bytes behind the IP header. -/
def udpPart (packet : UdpDhcpPacket) : Bytes := udpHdr.encode packet.udp ++ packet.data.val

theorem encode_packet (packet : UdpDhcpPacket) :
    udpDhcpPacket.encode packet = ipHdr.encode packet.ip ++ udpPart packet := rfl

theorem udpHdr_split (h : UdpHdr) :
    ∃ front : Bytes, front.length = 6 ∧
      ∀ c, udpHdr.encode { h with check := c } = front ++ bigEndian 2 c.toNat := by
  refine ⟨half.encode h.source ++ (half.encode h.dest ++ half.encode h.len), ?_, fun c => ?_⟩
  · simp only [List.length_append, length_half]
  · simp only [List.append_assoc]
    rfl

/-- The UDP part, cut at some length, with any checksum in the field. -/
theorem udpPart_split (packet : UdpDhcpPacket) {bytes : Nat} (hbytes : 28 ≤ bytes)
    (hmax : bytes ≤ 576) :
    ∃ front back : Bytes, front.length = 6 ∧ back.length = bytes - 28 ∧
      ∀ c, (udpPart { packet with udp := { packet.udp with check := c } }).take (bytes - 20) =
        front ++ (bigEndian 2 c.toNat ++ back) := by
  obtain ⟨front, hfront, hsplit⟩ := udpHdr_split packet.udp
  have hdata := packet.data.property
  refine ⟨front, packet.data.val.take (bytes - 28), hfront, ?_, fun c => ?_⟩
  · rw [List.length_take, hdata]
    omega
  · have hlength : (front ++ bigEndian 2 c.toNat).length = 8 := by
      rw [List.length_append, hfront, length_bigEndian]
    have hall : (front ++ bigEndian 2 c.toNat).take (bytes - 20) = front ++ bigEndian 2 c.toNat :=
      List.take_of_length_le (by omega)
    have hcut : bytes - 20 - 8 = bytes - 28 := by omega
    rw [udpPart, hsplit, List.take_append, hall, hlength, hcut, List.append_assoc]

/-- The checksum of a datagram that is long enough to have one, as the code checks it and as
RFC 768 has it. -/
theorem udpChecksum_iff (packet : UdpDhcpPacket) {bytes : Nat} (hbytes : 28 ≤ bytes)
    (hmax : bytes ≤ 576) :
    packet.udpChecksum bytes = some packet.udp.check.toNat ↔
      checksum (rfc768 packet ++ (udpPart packet).take (bytes - 20)) = some 0 ∧
        packet.udp.check ≠ 0xffff := by
  obtain ⟨front, back, hfront, hback, hsplit⟩ := udpPart_split packet hbytes hmax
  have hsum := sum_pseudoHdr packet
  have hlength := length_rfc768 packet
  have hpseudo := length_ipHdr (pseudoHdr packet.ip.saddr packet.ip.daddr packet.udp.len)
  have hpos : 0 < (words (rfc768 packet)).sum := by
    have hproto : (words [0, 17]).sum = 17 := rfl
    rw [rfc768, words_append (by rw [length_long]), words_append (by rw [length_long]),
      words_append rfl]
    simp only [List.sum_append, hproto]
    omega
  have hrest : (front ++ ([0, 0] ++ back)).length = bytes - 20 := by
    simp only [List.length_append, hfront, hback, List.length_cons, List.length_nil]
    omega
  -- what the code sums up is the pseudo-header it made, and the UDP part without its checksum
  have hsummed : ((udpDhcpPacket.encode packet.pseudo).take bytes) =
      ipHdr.encode (pseudoHdr packet.ip.saddr packet.ip.daddr packet.udp.len) ++
        (front ++ ([0, 0] ++ back)) := by
    have hall : (ipHdr.encode packet.pseudo.ip).take bytes = ipHdr.encode packet.pseudo.ip :=
      List.take_of_length_le (by rw [length_ipHdr]; omega)
    have hzero : (udpPart packet.pseudo).take (bytes - 20) = front ++ ([0, 0] ++ back) := hsplit 0
    rw [encode_packet, List.take_append, hall, length_ipHdr, hzero]
    rfl
  have hcongr : packet.udpChecksum bytes = checksum ((rfc768 packet ++ front) ++ ([0, 0] ++ back)) := by
    rw [UdpDhcpPacket.udpChecksum, hsummed, List.append_assoc]
    apply checksum_congr
    · have heven : (ipHdr.encode (pseudoHdr packet.ip.saddr packet.ip.daddr
          packet.udp.len)).length % 2 = 0 := by rw [hpseudo]
      have heven' : (rfc768 packet).length % 2 = 0 := by rw [hlength]
      rw [words_append heven, words_append heven', List.sum_append, List.sum_append, hsum]
    · rw [List.length_append, hrest, hpseudo]
      omega
    · rw [List.length_append, hrest, hlength]
      omega
  have hiff := @checksum_field_iff (rfc768 packet ++ front) back packet.udp.check
    (by rw [List.length_append, hlength, hfront])
    (by
      rw [List.append_assoc, List.length_append, hrest, hlength]
      omega)
    (by
      rw [List.append_assoc, words_append (by rw [hlength]), List.sum_append]
      omega)
  have hown : (udpPart packet).take (bytes - 20) =
      front ++ (bigEndian 2 packet.udp.check.toNat ++ back) := hsplit packet.udp.check
  rw [hcongr, hiff, List.append_assoc, hown]

/-- The headers are those of a whole datagram for the client, up to the checksum of UDP. -/
structure Addressed (datagram : Bytes) : Prop where
  headers : 28 ≤ datagram.length
  whole : (received datagram).ip.totLen.toNat ≤ min datagram.length 576
  protocol : (received datagram).ip.protocol = ipprotoUdp
  version : (received datagram).ip.version = ipversion
  ihl : (received datagram).ip.ihl = 5
  dest : (received datagram).udp.dest = clientPort
  lengths : (received datagram).ip.totLen.toNat = (received datagram).udp.len.toNat + 20
  /-- The header sums up to zero; a field of ones is not taken for the other zero. -/
  header : checksum (datagram.take 20) = some 0
  headerCheck : (received datagram).ip.check ≠ 0xffff

/-- The datagram has no checksum, or sums up to zero with it; here, too, a field of ones is not
taken for the other zero. -/
def UdpSound (datagram : Bytes) : Prop :=
  (received datagram).udp.check = 0 ∨
    (checksum (rfc768 (received datagram) ++
      (datagram.take (received datagram).ip.totLen.toNat).drop 20) = some 0 ∧
      (received datagram).udp.check ≠ 0xffff)

theorem encode_received (datagram : Bytes) : udpDhcpPacket.encode (received datagram) =
    datagram.take 576 ++ List.replicate (576 - datagram.length) 0 := by
  apply udpDhcpPacket.encode_decode
  change _ = 576
  rw [List.length_append, List.length_take, List.length_replicate]
  omega

theorem take_encode_received {datagram : Bytes} {n : Nat} (h : n ≤ min datagram.length 576) :
    (udpDhcpPacket.encode (received datagram)).take n = datagram.take n := by
  rw [encode_received, List.take_append_of_le_length (by rw [List.length_take]; omega),
    List.take_take, Nat.min_eq_left (by omega)]

theorem encode_received_ip {datagram : Bytes} (h : 20 ≤ datagram.length) :
    ipHdr.encode (received datagram).ip = datagram.take 20 := by
  rw [← take_encode_received (by omega), encode_packet,
    List.take_append_of_le_length (Nat.le_of_eq (length_ipHdr _).symm),
    List.take_of_length_le (Nat.le_of_eq (length_ipHdr _))]

theorem take_udpPart_received {datagram : Bytes} {n : Nat} (h : n ≤ min datagram.length 576) :
    (udpPart (received datagram)).take (n - 20) = (datagram.take n).drop 20 := by
  rw [← take_encode_received h, encode_packet, List.drop_take,
    List.drop_left' (length_ipHdr _)]

theorem take_data_received {datagram : Bytes} {n : Nat} (h : n ≤ min datagram.length 576) :
    (received datagram).data.val.take (n - 28) = (datagram.drop 28).take (n - 28) := by
  have hudp : (udpHdr.encode (received datagram).udp).length = 8 := udpHdr.length_encode _
  have hdata : (received datagram).data.val = (udpPart (received datagram)).drop 8 :=
    (List.drop_left' hudp).symm
  have hpart := take_udpPart_received h
  have hcut : n - 28 = n - 20 - 8 := by omega
  rw [hdata, hcut, ← List.drop_take, hpart, List.drop_drop, List.drop_take, hcut, Nat.sub_sub]

theorem shortOf_sub {n : Nat} (h : n ≤ 576) : shortOf (n - 20) = (n : Int) - 20 := by
  rw [shortOf, BitVec.toInt_ofInt, Int.bmod_def]
  omega

theorem not_bogus_iff (packet : UdpDhcpPacket) (bytes : Nat) :
    ¬packet.Bogus bytes ↔ packet.ip.protocol = ipprotoUdp ∧ packet.ip.version = ipversion ∧
      packet.ip.ihl = 5 ∧ packet.udp.dest = clientPort ∧ bytes ≤ 576 ∧
      bytes = packet.udp.len.toNat + 20 := by
  simp only [UdpDhcpPacket.Bogus, not_or, ne_eq, not_not, Nat.not_lt]
  constructor
  · intro h
    obtain ⟨hproto, hversion, hihl, hdest, hmax, hlen⟩ := h
    rw [shortOf_sub hmax] at hlen
    exact ⟨hproto, hversion, hihl, hdest, hmax, by omega⟩
  · intro h
    obtain ⟨hproto, hversion, hihl, hdest, hmax, hlen⟩ := h
    rw [shortOf_sub hmax]
    exact ⟨hproto, hversion, hihl, hdest, hmax, by omega⟩

theorem ipChecksum_received_iff {datagram : Bytes} (h : 28 ≤ datagram.length)
    (hversion : (received datagram).ip.version = ipversion) :
    some (received datagram).ip.check.toNat = (received datagram).ipChecksum ↔
      checksum (datagram.take 20) = some 0 ∧ (received datagram).ip.check ≠ 0xffff := by
  have hnonzero : (received datagram).ip.version ≠ 0 := by
    rw [hversion]
    decide
  rw [eq_comm, ipChecksum_iff hnonzero, encode_received_ip (by omega)]

def UdpPasses (packet : UdpDhcpPacket) (bytes : Nat) : Prop :=
  packet.udp.check = 0 ∨ packet.udpChecksum bytes = some packet.udp.check.toNat

theorem getRawPacket_addressed {old : DhcpMessage} {datagram : Bytes} (h : Addressed datagram) :
    (UdpPasses (received datagram) (received datagram).ip.totLen.toNat ∧
      getRawPacket old (some datagram) =
        if (received datagram).ip.totLen.toNat < 28 then (old, .overrun)
        else
          let copied := old.write 0
            ((datagram.drop 28).take ((received datagram).ip.totLen.toNat - 28))
          (copied, if copied.readBytes 236 4 = dhcpMagic
            then .bytes ((received datagram).ip.totLen.toNat - 28) else .ignored)) ∨
    (¬UdpPasses (received datagram) (received datagram).ip.totLen.toNat ∧
      getRawPacket old (some datagram) = (old, .ignored)) := by
  have hheaders := h.headers
  have hwhole := h.whole
  have hbogus := (not_bogus_iff (received datagram) (received datagram).ip.totLen.toNat).mpr
    ⟨h.protocol, h.version, h.ihl, h.dest, by omega, h.lengths⟩
  have hip := (ipChecksum_received_iff h.headers h.version).mpr ⟨h.header, h.headerCheck⟩
  have hdata := take_data_received hwhole
  unfold getRawPacket
  dsimp only
  rw [if_neg (by omega), if_neg (by omega), if_neg hbogus, if_neg (not_not_intro hip), hdata]
  by_cases hudp : UdpPasses (received datagram) (received datagram).ip.totLen.toNat
  · left
    refine ⟨hudp, ?_⟩
    rw [if_neg]
    intro hfails
    rcases hudp with hzero | hsum
    · exact hfails.1 hzero
    · exact hfails.2 hsum.symm
  · right
    refine ⟨hudp, ?_⟩
    rw [if_pos]
    constructor
    · exact fun hzero => hudp (Or.inl hzero)
    · exact fun hsum => hudp (Or.inr hsum.symm)

theorem getRawPacket_not_addressed {old : DhcpMessage} {datagram : Bytes}
    (h : ¬Addressed datagram) :
    getRawPacket old (some datagram) = (old, .ignored) ∨
      getRawPacket old (some datagram) = (old, .fatal) := by
  unfold getRawPacket
  dsimp only
  by_cases hheaders : min datagram.length 576 < 28
  · rw [if_pos hheaders]
    exact Or.inl rfl
  rw [if_neg hheaders]
  by_cases hwhole : min datagram.length 576 < (received datagram).ip.totLen.toNat
  · rw [if_pos hwhole]
    exact Or.inl rfl
  rw [if_neg hwhole]
  by_cases hbogus : (received datagram).Bogus (received datagram).ip.totLen.toNat
  · rw [if_pos hbogus]
    exact Or.inl rfl
  obtain ⟨hproto, hversion, hihl, hdest, hmax, hlen⟩ := (not_bogus_iff _ _).mp hbogus
  rw [if_neg hbogus, if_pos]
  · exact Or.inr rfl
  · intro hip
    obtain ⟨hsum, hcheck⟩ := (ipChecksum_received_iff (by omega) hversion).mp hip
    exact h ⟨by omega, by omega, hproto, hversion, hihl, hdest, hlen, hsum, hcheck⟩

theorem udpSound_iff {datagram : Bytes} (h : Addressed datagram)
    (hlong : 28 ≤ (received datagram).ip.totLen.toNat) :
    UdpSound datagram ↔ UdpPasses (received datagram) (received datagram).ip.totLen.toNat := by
  have hwhole := h.whole
  rw [UdpPasses, udpChecksum_iff _ hlong (by omega), take_udpPart_received hwhole]
  rfl

/-- A datagram yields a message exactly if its headers are in order, its checksums are right as
RFC 1071 and RFC 768 have them and not written as ones, and its payload, put over the message that
was there before, leaves a message with the cookie. -/
theorem getRawPacket_bytes_iff (old m : DhcpMessage) (datagram : Bytes) (n : Nat) :
    getRawPacket old (some datagram) = (m, .bytes n) ↔
      Addressed datagram ∧ UdpSound datagram ∧ (received datagram).ip.totLen.toNat = n + 28 ∧
        m = old.write 0 ((datagram.drop 28).take n) ∧ m.readBytes 236 4 = dhcpMagic := by
  by_cases haddr : Addressed datagram
  · by_cases hshort : (received datagram).ip.totLen.toNat < 28
    · constructor
      · intro h
        rcases @getRawPacket_addressed old _ haddr with ⟨-, heq⟩ | ⟨-, heq⟩
        · rw [heq, if_pos hshort] at h
          cases h
        · rw [heq] at h
          cases h
      · intro h
        omega
    · rw [udpSound_iff haddr (by omega)]
      rcases @getRawPacket_addressed old _ haddr with ⟨hudp, heq⟩ | ⟨hudp, heq⟩
      · rw [heq, if_neg hshort]
        dsimp only
        by_cases hcookie : (old.write 0 ((datagram.drop 28).take
            ((received datagram).ip.totLen.toNat - 28))).readBytes 236 4 = dhcpMagic
        · rw [if_pos hcookie, Prod.mk.injEq, RawResult.bytes.injEq]
          constructor
          · rintro ⟨rfl, rfl⟩
            exact ⟨haddr, hudp, by omega, rfl, hcookie⟩
          · rintro ⟨-, -, hn, rfl, -⟩
            have hcut : (received datagram).ip.totLen.toNat - 28 = n := by omega
            rw [hcut]
            exact ⟨rfl, rfl⟩
        · rw [if_neg hcookie]
          constructor
          · intro h
            cases (Prod.mk.inj h).2
          · rintro ⟨-, -, hn, rfl, hmagic⟩
            have hcut : (received datagram).ip.totLen.toNat - 28 = n := by omega
            rw [hcut] at hcookie
            exact absurd hmagic hcookie
      · rw [heq]
        constructor
        · intro h
          cases h
        · intro h
          exact absurd h.2.1 hudp
  · constructor
    · intro h
      rcases @getRawPacket_not_addressed old _ haddr with heq | heq
      all_goals
        rw [heq] at h
        cases h
    · intro h
      exact absurd h.1 haddr

/-- The length of the copy wraps below zero exactly for a datagram whose headers are in order but
state a length that has no room for them. -/
theorem getRawPacket_overrun_iff (old : DhcpMessage) (datagram : Bytes) :
    (getRawPacket old (some datagram)).2 = .overrun ↔
      Addressed datagram ∧ (received datagram).ip.totLen.toNat < 28 ∧
        UdpPasses (received datagram) (received datagram).ip.totLen.toNat := by
  by_cases haddr : Addressed datagram
  · rcases @getRawPacket_addressed old _ haddr with ⟨hudp, heq⟩ | ⟨hudp, heq⟩
    · rw [heq]
      by_cases hshort : (received datagram).ip.totLen.toNat < 28
      · rw [if_pos hshort]
        exact iff_of_true rfl ⟨haddr, hshort, hudp⟩
      · rw [if_neg hshort]
        refine iff_of_false ?_ fun h => hshort h.2.1
        dsimp only
        split <;> intro h <;> cases h
    · rw [heq]
      refine iff_of_false ?_ fun h => hudp h.2.2
      intro h
      cases h
  · refine iff_of_false ?_ fun h => haddr h.1
    rcases @getRawPacket_not_addressed old _ haddr with heq | heq
    all_goals
      rw [heq]
      intro h
      cases h

/-- For every datagram and whatever message was there before: a message is taken over exactly from
a datagram whose headers and checksums are in order and whose payload leaves the cookie behind, the
copy runs over exactly on a datagram that is in order but states fewer bytes than its headers
have, and in every other case but that of a missing cookie the message stays as it was. -/
theorem getRawPacket_accepts (old : DhcpMessage) (datagram : Bytes) :
    (∀ m n, getRawPacket old (some datagram) = (m, .bytes n) ↔
      Addressed datagram ∧ UdpSound datagram ∧ (received datagram).ip.totLen.toNat = n + 28 ∧
        m = old.write 0 ((datagram.drop 28).take n) ∧ m.readBytes 236 4 = dhcpMagic) ∧
    ((getRawPacket old (some datagram)).2 = .overrun ↔
      Addressed datagram ∧ (received datagram).ip.totLen.toNat < 28 ∧
        UdpPasses (received datagram) (received datagram).ip.totLen.toNat) ∧
    (¬(Addressed datagram ∧ UdpPasses (received datagram) (received datagram).ip.totLen.toNat) →
      (getRawPacket old (some datagram)).1 = old) := by
  refine ⟨fun m n => getRawPacket_bytes_iff old m datagram n,
    getRawPacket_overrun_iff old datagram, fun hnot => ?_⟩
  by_cases haddr : Addressed datagram
  · rcases @getRawPacket_addressed old _ haddr with ⟨hudp, -⟩ | ⟨-, heq⟩
    · exact absurd ⟨haddr, hudp⟩ hnot
    · rw [heq]
  · rcases @getRawPacket_not_addressed old _ haddr with heq | heq
    all_goals rw [heq]

end Xwr100.Udhcpc
