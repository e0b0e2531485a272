import Xwr100.Udhcpc.RawPacket

/-! # A word that is damaged on the way

What `get_raw_packet` makes of a datagram of `raw_packet` in which one 16-bit word has been replaced
by another.
-/

namespace Xwr100.Udhcpc

open Lib Net Udhcpd

/-! ## Words of a buffer -/

def wordAt (l : Bytes) (k : Nat) : BitVec 16 := half.decode ((l.drop (2 * k)).take 2)

/-- The buffer with another word in place of its `k`-th. -/
def setWord (l : Bytes) (k : Nat) (w : BitVec 16) : Bytes :=
  l.take (2 * k) ++ (half.encode w ++ l.drop (2 * k + 2))

variable {l : Bytes} {k n : Nat} {w : BitVec 16}

theorem wordAt_append {front back : Bytes} (h : front.length = 2 * k) (v : BitVec 16) :
    wordAt (front ++ (half.encode v ++ back)) k = v := by
  rw [wordAt, List.drop_left' h, List.take_left' (length_half v), half.decode_encode]

theorem wordAt_setWord (h : 2 * k ≤ l.length) : wordAt (setWord l k w) k = w :=
  wordAt_append (by rw [List.length_take]; omega) w

theorem setWord_wordAt (h : 2 * k + 2 ≤ l.length) : setWord l k (wordAt l k) = l := by
  have hword : half.encode (wordAt l k) = (l.drop (2 * k)).take 2 := by
    apply half.encode_decode
    rw [List.length_take, List.length_drop]
    change _ = 2
    omega
  rw [setWord, hword, ← List.drop_drop, List.take_append_drop, List.take_append_drop]

theorem length_setWord (h : 2 * k + 2 ≤ l.length) : (setWord l k w).length = l.length := by
  rw [setWord, List.length_append, List.length_append, List.length_take, List.length_drop,
    length_half]
  omega

theorem take_setWord_of_le (h : n ≤ 2 * k) (hl : 2 * k ≤ l.length) :
    (setWord l k w).take n = l.take n := by
  rw [setWord, List.take_append_of_le_length (by rw [List.length_take]; omega), List.take_take,
    Nat.min_eq_left h]

theorem take_setWord (h : 2 * k + 2 ≤ n) (hl : n ≤ l.length) :
    (setWord l k w).take n = setWord (l.take n) k w := by
  have hfront : (l.take (2 * k)).length = 2 * k := by
    rw [List.length_take]
    omega
  have hword := length_half w
  have hwhole : (half.encode w).take (n - 2 * k) = half.encode w :=
    List.take_of_length_le (by omega)
  rw [setWord, setWord, List.take_append, List.take_append, hfront, hword, hwhole, List.take_take,
    Nat.min_eq_right (by omega), List.take_take, Nat.min_eq_left (by omega), List.drop_take,
    Nat.sub_sub]

theorem drop_setWord (h : n ≤ k) (hl : 2 * k ≤ l.length) :
    (setWord l k w).drop (2 * n) = setWord (l.drop (2 * n)) (k - n) w := by
  have hcut : 2 * (k - n) = 2 * k - 2 * n := by omega
  have hrest : 2 * n + (2 * (k - n) + 2) = 2 * k + 2 := by omega
  rw [setWord, setWord, List.drop_append_of_le_length (by rw [List.length_take]; omega),
    List.drop_take, List.drop_drop, hrest, hcut]

theorem wordAt_drop (h : n ≤ k) : wordAt (l.drop (2 * n)) (k - n) = wordAt l k := by
  have hcut : 2 * n + 2 * (k - n) = 2 * k := by omega
  rw [wordAt, wordAt, List.drop_drop, hcut]

theorem wordAt_take (h : 2 * k + 2 ≤ n) : wordAt (l.take n) k = wordAt l k := by
  rw [wordAt, wordAt, List.drop_take, List.take_take, Nat.min_eq_left (by omega)]

theorem sum_words_setWord (h : 2 * k + 2 ≤ l.length) :
    (words (setWord l k w)).sum + (wordAt l k).toNat = (words l).sum + w.toNat := by
  have heven : (l.take (2 * k)).length % 2 = 0 := by
    rw [List.length_take]
    omega
  have hold := @sum_words_insert _ (l.drop (2 * k + 2)) heven _ (wordAt l k).isLt
  have hnew := @sum_words_insert _ (l.drop (2 * k + 2)) heven _ w.isLt
  have hsame : l.take (2 * k) ++ (bigEndian 2 (wordAt l k).toNat ++ l.drop (2 * k + 2)) = l :=
    setWord_wordAt h
  rw [hsame] at hold
  have hset : setWord l k w = l.take (2 * k) ++ (bigEndian 2 w.toNat ++ l.drop (2 * k + 2)) := rfl
  rw [hset]
  omega

def OppositeZeros (v w : BitVec 16) : Prop := (v = 0 ∧ w = 0xffff) ∨ (v = 0xffff ∧ w = 0)

/-- Two buffers that both sum up to zero cannot differ in one word alone, unless by the two zeros. -/
theorem wordAt_eq_of_checksum {front : Bytes} (heven : front.length % 2 = 0)
    (h : 2 * k + 2 ≤ l.length) (hlength : front.length + l.length ≤ 65535)
    (hl : checksum (front ++ l) = some 0) (hset : checksum (front ++ setWord l k w) = some 0) :
    wordAt l k = w ∨ OppositeZeros (wordAt l k) w := by
  have hsum := @sum_words_setWord l k w h
  have hv := (wordAt l k).isLt
  have hw := w.isLt
  rw [checksum_bounded (by rw [List.length_append]; exact hlength), words_append heven,
    List.sum_append] at hl
  rw [checksum_bounded (by rw [List.length_append, length_setWord h]; exact hlength),
    words_append heven, List.sum_append] at hset
  have hones : ∀ v : BitVec 16, v = 0xffff ↔ v.toNat = 65535 := fun v => by
    rw [← BitVec.toNat_inj]
    rfl
  have hzero : ∀ v : BitVec 16, v = 0 ↔ v.toNat = 0 := fun v => by
    rw [← BitVec.toNat_inj]
    rfl
  rw [OppositeZeros, hones, hones, hzero, hzero, ← BitVec.toNat_inj]
  generalize (wordAt l k).toNat = v at *
  generalize (words l).sum = total at *
  generalize (words (setWord l k w)).sum = total' at *
  generalize (words front).sum = extra at *
  rw [wordOf] at hl hset
  split at hl
  · omega
  · split at hset
    · omega
    · omega

/-! ## Fields and words -/

theorem wordAt_ipHdr (h : IpHdr) : wordAt (ipHdr.encode h) 5 = h.check := by
  obtain ⟨front, back, hfront, -, hsplit⟩ := ipHdr_split h
  have hown : ipHdr.encode h = front ++ (half.encode h.check ++ back) := hsplit h.check
  rw [hown, wordAt_append (by rw [hfront])]

theorem wordAt_udpPart (packet : UdpDhcpPacket) :
    wordAt (udpPart packet) 3 = packet.udp.check := by
  obtain ⟨front, hfront, hsplit⟩ := udpHdr_split packet.udp
  have hown : udpHdr.encode packet.udp = front ++ half.encode packet.udp.check :=
    hsplit packet.udp.check
  rw [udpPart, hown, List.append_assoc, wordAt_append (by rw [hfront])]

theorem encode_received_of_length {datagram : Bytes} (h : datagram.length = 576) :
    udpDhcpPacket.encode (received datagram) = datagram := by
  rw [encode_received, h, Nat.sub_self, List.replicate_zero, List.append_nil,
    List.take_of_length_le (Nat.le_of_eq h)]

theorem udpPart_received {datagram : Bytes} (h : datagram.length = 576) :
    udpPart (received datagram) = datagram.drop 20 := by
  have hwhole := encode_received_of_length h
  rw [encode_packet] at hwhole
  calc udpPart (received datagram)
      = (ipHdr.encode (received datagram).ip ++ udpPart (received datagram)).drop 20 :=
        (List.drop_left' (length_ipHdr _)).symm
    _ = datagram.drop 20 := by rw [hwhole]

theorem OppositeZeros.ones {v : BitVec 16} (h : OppositeZeros v w) : v = 0xffff ∨ w = 0xffff := by
  rcases h with ⟨-, hw⟩ | ⟨hv, -⟩
  · exact Or.inr hw
  · exact Or.inl hv

theorem damaged_header {packet : UdpDhcpPacket} (hversion : packet.ip.version = ipversion)
    (hcheck : packet.ipChecksum = some packet.ip.check.toNat) (hk : k < 10)
    (haddr : Addressed (setWord (udpDhcpPacket.encode packet) k w)) :
    wordAt (udpDhcpPacket.encode packet) k = w ∨
      OppositeZeros (wordAt (udpDhcpPacket.encode packet) k) w ∧ k ≠ 5 := by
  have hlength := length_packet packet
  have hset := @length_setWord (udpDhcpPacket.encode packet) k w (by omega)
  have hip : (udpDhcpPacket.encode packet).take 20 = ipHdr.encode packet.ip := by
    rw [encode_packet, List.take_left' (length_ipHdr _)]
  have hnonzero : packet.ip.version ≠ 0 := by
    rw [hversion]
    decide
  obtain ⟨hsum, hones⟩ := (ipChecksum_iff hnonzero).mp hcheck
  have hsum' := haddr.header
  rw [take_setWord (by omega) (by omega), hip] at hsum'
  have heither := @wordAt_eq_of_checksum (ipHdr.encode packet.ip) k w [] rfl
    (by rw [length_ipHdr]; omega) (by rw [length_ipHdr]; decide) hsum hsum'
  have hword : wordAt (udpDhcpPacket.encode packet) k = wordAt (ipHdr.encode packet.ip) k := by
    rw [← hip, wordAt_take (by omega)]
  rw [hword]
  rcases heither with heq | hzeros
  · exact Or.inl heq
  right
  refine ⟨hzeros, ?_⟩
  rintro rfl
  -- neither checksum is written as ones
  have hnew : (received (setWord (udpDhcpPacket.encode packet) 5 w)).ip.check = w := by
    rw [← wordAt_ipHdr, encode_received_ip (by omega), wordAt_take (by omega),
      wordAt_setWord (by omega)]
  have hones' := haddr.headerCheck
  rw [hnew] at hones'
  rw [wordAt_ipHdr] at hzeros
  rcases hzeros.ones with h | h
  · exact hones h
  · exact hones' h

/-- A damaged word behind it. -/
theorem damaged_udpPart {packet : UdpDhcpPacket} (htot : packet.ip.totLen = 576)
    (hlen : packet.udp.len = 556)
    (hcheck : packet.udpChecksum 576 = some packet.udp.check.toNat) (hk : 10 ≤ k) (hmax : k < 288)
    (haddr : Addressed (setWord (udpDhcpPacket.encode packet) k w))
    (hsound : UdpSound (setWord (udpDhcpPacket.encode packet) k w)) :
    wordAt (udpDhcpPacket.encode packet) k = w ∨
      (OppositeZeros (wordAt (udpDhcpPacket.encode packet) k) w ∧ k ≠ 13) ∨
      wordAt (setWord (udpDhcpPacket.encode packet) k w) 13 = 0 := by
  have hlength := length_packet packet
  have hset := @length_setWord (udpDhcpPacket.encode packet) k w (by omega)
  have hpart : udpPart packet = (udpDhcpPacket.encode packet).drop 20 := by
    rw [encode_packet, List.drop_left' (length_ipHdr _)]
  generalize hdamaged : setWord (udpDhcpPacket.encode packet) k w = damaged at *
  have hdrop : damaged.drop 20 = setWord (udpPart packet) (k - 10) w := by
    rw [← hdamaged, hpart]
    exact drop_setWord hk (by omega)
  have hcheck' : (received damaged).udp.check = wordAt damaged 13 := by
    rw [← wordAt_udpPart, udpPart_received (by omega)]
    exact @wordAt_drop damaged 13 10 (by decide)
  have hword : wordAt (udpDhcpPacket.encode packet) k = wordAt (udpPart packet) (k - 10) := by
    rw [hpart]
    exact (wordAt_drop hk).symm
  rw [hword]
  rcases hsound with hnone | ⟨hsum', hones'⟩
  · rw [← hcheck']
    exact Or.inr (Or.inr hnone)
  -- the header is the one that was sent, and with it the length of the UDP part
  have hip : (received damaged).ip = packet.ip := by
    have hbytes : ipHdr.encode (received damaged).ip = ipHdr.encode packet.ip := by
      rw [encode_received_ip (by omega), ← hdamaged, take_setWord_of_le (by omega) (by omega),
        encode_packet, List.take_left' (length_ipHdr _)]
    rw [← ipHdr.decode_encode packet.ip, ← hbytes, ipHdr.decode_encode]
  have htot' : packet.ip.totLen.toNat = 576 := by
    rw [htot]
    rfl
  have hlen' : (received damaged).udp.len = packet.udp.len := by
    have hlengths := haddr.lengths
    rw [hip, htot'] at hlengths
    rw [hlen, ← BitVec.toNat_inj]
    change _ = 556
    omega
  have hpseudo : rfc768 (received damaged) = rfc768 packet := by
    rw [rfc768, rfc768, hip, hlen']
  obtain ⟨hsum, hones⟩ := (udpChecksum_iff packet (by decide) (by decide)).mp hcheck
  have hpartLength : (udpPart packet).length = 556 := by
    rw [hpart, List.length_drop, hlength]
  rw [List.take_of_length_le (by omega)] at hsum
  rw [hpseudo, hip, htot', List.take_of_length_le (by omega), hdrop] at hsum'
  have heither := @wordAt_eq_of_checksum (udpPart packet) (k - 10) w (rfc768 packet)
    (by rw [length_rfc768]) (by omega) (by rw [length_rfc768, hpartLength]; decide) hsum hsum'
  rcases heither with heq | hzeros
  · exact Or.inl heq
  right
  left
  refine ⟨hzeros, ?_⟩
  rintro rfl
  have hnew : wordAt damaged 13 = w := by
    rw [← hdamaged, wordAt_setWord (by omega)]
  rw [hcheck', hnew] at hones'
  change OppositeZeros (wordAt (udpPart packet) 3) w at hzeros
  rw [wordAt_udpPart] at hzeros
  rcases hzeros.ones with h | h
  · exact hones h
  · exact hones' h

/-- No datagram of `raw_packet` with one word replaced by another yields a message, unless one of
the two words is zero and the other is all ones, and the word is not itself a checksum; or the
datagram arrives without a checksum of UDP and the word is behind the IP header. -/
theorem getRawPacket_damaged (old m m' : DhcpMessage) (sourceIp destIp : Addr)
    (sourcePort destPort : Int) {k : Nat} (hk : k < 288) (w : BitVec 16) (n : Nat) :
    ∃ datagram, rawPacket m sourceIp sourcePort destIp destPort = some datagram ∧
      (getRawPacket old (some (setWord datagram k w)) = (m', .bytes n) →
        wordAt datagram k = w ∨
        (OppositeZeros (wordAt datagram k) w ∧ k ≠ 5 ∧ k ≠ 13) ∨
        (10 ≤ k ∧ wordAt (setWord datagram k w) 13 = 0)) := by
  obtain ⟨packet, hraw, -, hversion, -, htot, -, -, -, -, hlen, -, hip, hudp⟩ :=
    rawPacket_eq m sourceIp sourcePort destIp destPort
  refine ⟨_, hraw, fun h => ?_⟩
  obtain ⟨haddr, hsound, -⟩ := (getRawPacket_bytes_iff old m' _ n).mp h
  by_cases hheader : k < 10
  · rcases damaged_header hversion hip hheader haddr with heq | ⟨hzeros, hnot⟩
    · exact Or.inl heq
    · exact Or.inr (Or.inl ⟨hzeros, hnot, by omega⟩)
  · rcases damaged_udpPart htot hlen hudp (by omega) hk haddr hsound with heq | ⟨hzeros, hnot⟩ | hnone
    · exact Or.inl heq
    · exact Or.inr (Or.inl ⟨hzeros, by omega, hnot⟩)
    · exact Or.inr (Or.inr ⟨by omega, hnone⟩)

/-- A message with its cookie, sent from the server's port, arrives if the word put in is the one that
was there. -/
theorem getRawPacket_damaged_option :
    ∃ datagram w m', rawPacket (.ofOptions 0x020000000003 0 [0x35, 1, 2, 0xff]) 0 67 0xffffffff 68 =
        some datagram ∧
      getRawPacket ⟨fun _ => 0⟩ (some (setWord datagram 150 w)) = (m', .bytes 548) ∧
      (wordAt datagram 150 = w ∨
        (OppositeZeros (wordAt datagram 150) w ∧ 150 ≠ 5 ∧ 150 ≠ 13) ∨
        (10 ≤ 150 ∧ wordAt (setWord datagram 150 w) 13 = 0)) := by
  let m : DhcpMessage := .ofOptions 0x020000000003 0 [0x35, 1, 2, 0xff]
  obtain ⟨packet, hraw, hproto, hversion, hihl, htot, -, -, -, hdest, hlen, hdata, hip, hudp⟩ :=
    rawPacket_eq m 0 67 0xffffffff 68
  have hcookie : ((⟨fun _ => 0⟩ : DhcpMessage).write 0 (messageData m).val).readBytes 236 4 =
      dhcpMagic :=
    (readBytes_congr fun k hk => mem_write_messageData _ m (by omega)).trans (by decide)
  have hread := getRawPacket_encode ⟨fun _ => 0⟩ hproto hversion hihl htot hlen hip hudp
  rw [hdest, if_pos (by decide), hdata, if_pos hcookie] at hread
  have hsize : (udpDhcpPacket.encode packet).length = 576 := udpDhcpPacket.length_encode packet
  have hsame : setWord (udpDhcpPacket.encode packet) 150
      (wordAt (udpDhcpPacket.encode packet) 150) = udpDhcpPacket.encode packet :=
    setWord_wordAt (by omega)
  obtain ⟨datagram, hdatagram, hdamaged⟩ := getRawPacket_damaged ⟨fun _ => 0⟩ m
    (DhcpMessage.write ⟨fun _ => 0⟩ 0 (messageData m).val) 0 0xffffffff 67 68
    (by decide : 150 < 288) (wordAt (udpDhcpPacket.encode packet) 150) 548
  obtain rfl := Option.some.inj (hdatagram.symm.trans hraw)
  have htaken : getRawPacket ⟨fun _ => 0⟩ (some (setWord (udpDhcpPacket.encode packet) 150
      (wordAt (udpDhcpPacket.encode packet) 150))) =
        (DhcpMessage.write ⟨fun _ => 0⟩ 0 (messageData m).val, .bytes 548) := by
    rw [hsame]
    exact hread
  exact ⟨_, _, _, hraw, htaken, hdamaged htaken⟩

end Xwr100.Udhcpc
