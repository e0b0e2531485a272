import Xwr100.Udhcpd.Dhcpd
import Xwr100.Lib.Bytes
import Mathlib.Data.List.Infix

/-!
# The lease file

`write_leases` and the record format of `files.c`, byte by byte, with the exclusion list
`/tmp/udhcpd.lease.no` that is opened once per recorded address.  The loader is the one of
`Dhcpd`, over the records that whole `fread`s give.
-/

namespace Xwr100.Udhcpd

open Lib

/-! ## Text -/

/-- `fgets` into a buffer with room for so many characters: what it reads, what is left, and
whether it met the end of the file. -/
def fgets : Nat → List UInt8 → List UInt8 × List UInt8 × Bool
  | 0, text => ([], text, false)
  | _ + 1, [] => ([], [], true)
  | room + 1, c :: rest =>
      if c = 0x0a then ([c], rest, false)
      else
        let more := fgets room rest
        (c :: more.1, more.2.1, more.2.2)

def cString (buf : List UInt8) : List UInt8 := buf.takeWhile (· ≠ 0)

def strstr (haystack needle : List UInt8) : Bool := decide (needle <:+: haystack)

/-- A digit of `%02X`. -/
def hexDigit (n : Nat) : UInt8 := UInt8.ofNat (if n < 10 then 0x30 + n else 0x37 + n)

/-- Six bytes in `%02X`, with colons between them. -/
def macText (mac : BitVec 48) : List UInt8 :=
  [0x3a].intercalate
    ((bigEndian 6 mac.toNat).map fun b => [hexDigit (b.toNat / 16), hexDigit (b.toNat % 16)])

/-! ## The exclusion list -/

/-- The loop over the exclusion list for one address, from what is left of the list and what
`buf_no` holds: whether the address is found, and `buf_no` after the loop.  At the end of the
file `fgets` leaves the buffer alone, and it is looked at once more. -/
def scanExclusion (mac : BitVec 48) : Nat → List UInt8 → List UInt8 → Bool × List UInt8
  | 0, _, bufNo => (false, bufNo)
  | fuel + 1, text, bufNo =>
      let read := fgets 19 text
      let bufNo := if text = [] then bufNo else read.1
      if strstr (cString bufNo) (macText mac) then (true, bufNo)
      else if read.2.2 then (false, bufNo)
      else scanExclusion mac fuel read.2.1 bufNo

/-- The variables of `write_leases`: what is in the lease file, the buffer and the flag that
outlive a turn of its loop, and how many files have been opened and closed. -/
structure Writer where
  file : List UInt8
  bufNo : List UInt8
  noWrite : Bool
  opened : Nat
  closed : Nat

/-- Each turn of the scan's loop reads a character or meets the end of the file. -/
def Writer.scan (w : Writer) (exclusion : Option (List UInt8)) (mac : BitVec 48) : Writer :=
  match exclusion with
  | none => w
  | some text =>
      let found := scanExclusion mac (text.length + 1) text w.bufNo
      { w with noWrite := found.1, bufNo := found.2, closed := w.closed + 1 }

def Writer.openExclusion (w : Writer) (exclusion : Option (List UInt8)) : Writer :=
  match exclusion with
  | none => w
  | some _ => { w with opened := w.opened + 1 }

/-! ## Records -/

/-- The 88 bytes of a record; what follows the hostname's NUL is not read back. -/
def recordBytes (record : DhcpOfferedAddr) : List UInt8 :=
  bigEndian 6 record.chaddr.mac.toNat ++ bigEndian 10 record.chaddr.pad.toNat ++
    bigEndian 4 record.yiaddr.toNat ++ bigEndian 4 record.expires ++
    (record.hostname ++ List.replicate 64 0).take 64

def parseRecord (bytes : List UInt8) : DhcpOfferedAddr where
  chaddr :=
    ⟨BitVec.ofNat 48 (ofBigEndian (bytes.take 6)),
      BitVec.ofNat 80 (ofBigEndian ((bytes.drop 6).take 10))⟩
  yiaddr := BitVec.ofNat 32 (ofBigEndian ((bytes.drop 16).take 4))
  expires := ofBigEndian ((bytes.drop 20).take 4)
  hostname := cString ((bytes.drop 24).take 64)

def parseRecords : Nat → List UInt8 → List DhcpOfferedAddr
  | 0, _ => []
  | count + 1, bytes => parseRecord bytes :: parseRecords count (bytes.drop 88)

/-- The records `fread` gives: a rest of less than 88 bytes is none. -/
def leaseRecords (file : List UInt8) : List DhcpOfferedAddr :=
  parseRecords (file.length / 88) file

/-! ## `write_leases` -/

variable (env : Env)

namespace Server

def leaseTime (s : Server) (slot : DhcpOfferedAddr) : Nat :=
  if s.config.remaining then
    if slot.expires < env.sysTime then 0 else slot.expires - env.sysTime
  else slot.expires

/-- One turn of the loop.  The exclusion list is opened before the turn is left for a blank
`chaddr`. -/
def writeSlot (s : Server) (exclusion : Option (List UInt8)) (w : Writer)
    (slot : DhcpOfferedAddr) : Writer :=
  if slot.yiaddr = 0#32 then w
  else
    let w := w.openExclusion exclusion
    if slot.chaddr = blankChaddr then w
    else
      let w := w.scan exclusion slot.chaddr.mac
      if w.noWrite then w
      else
        { w with file := w.file ++ recordBytes { slot with expires := s.leaseTime env slot } }

/-- `write_leases`, once the lease file is open; the exclusion list cannot be opened or has a
text. -/
def writeLeases (s : Server) (exclusion : Option (List UInt8)) : Writer :=
  let w := ((List.range s.config.maxLeases).map s.leases).foldl (s.writeSlot env exclusion)
    ⟨[], [], false, 1, 0⟩
  { w with closed := w.closed + 1 }

end Server

/-! ## Reading records back -/

/-- A slot as its fields can hold it: 32 bits of time and a C string in 64 bytes. -/
structure Representable (slot : DhcpOfferedAddr) : Prop where
  expires : slot.expires < UInt32.size
  hostname_length : slot.hostname.length ≤ 63
  hostname_nul : 0 ∉ slot.hostname

instance (slot : DhcpOfferedAddr) : Decidable (Representable slot) :=
  decidable_of_iff (slot.expires < UInt32.size ∧ slot.hostname.length ≤ 63 ∧ 0 ∉ slot.hostname)
    ⟨fun h => ⟨h.1, h.2.1, h.2.2⟩, fun h => ⟨h.expires, h.hostname_length, h.hostname_nul⟩⟩

theorem length_recordBytes (record : DhcpOfferedAddr) : (recordBytes record).length = 88 := by
  simp [recordBytes]

theorem cString_padded {name : List UInt8} (hlen : name.length ≤ 63) (hnul : 0 ∉ name) :
    cString ((name ++ List.replicate 64 0).take 64) = name := by
  have hpad : (name ++ List.replicate 64 0).take 64 =
      name ++ 0 :: List.replicate (63 - name.length) 0 := by
    rw [List.take_append, List.take_of_length_le (by omega), List.take_replicate,
      ← List.replicate_succ]
    congr 2
    omega
  rw [hpad, cString, List.takeWhile_append_of_pos]
  · simp
  · intro c hc
    have hne : c ≠ 0 := fun heq => hnul (heq ▸ hc)
    simpa using hne

theorem parseRecord_recordBytes {record : DhcpOfferedAddr} (h : Representable record)
    (rest : List UInt8) : parseRecord (recordBytes record ++ rest) = record := by
  have hexp : record.expires >>> (8 * 4) = 0 := by
    have hlt := h.expires
    rw [Nat.shiftRight_eq_div_pow]
    exact Nat.div_eq_of_lt hlt
  obtain ⟨⟨mac, pad⟩, yiaddr, expires, hostname⟩ := record
  simp only [parseRecord, recordBytes, List.append_assoc, DhcpOfferedAddr.mk.injEq,
    Chaddr.mk.injEq]
  refine ⟨⟨?_, ?_⟩, ?_, ?_, ?_⟩
  · rw [List.take_left' (by simp)]
    exact ofNat_ofBigEndian (by decide) mac
  · rw [List.drop_left' (by simp), List.take_left' (by simp)]
    exact ofNat_ofBigEndian (by decide) pad
  · rw [← List.append_assoc, List.drop_left' (by simp), List.take_left' (by simp)]
    exact ofNat_ofBigEndian (by decide) yiaddr
  · rw [← List.append_assoc, ← List.append_assoc, List.drop_left' (by simp),
      List.take_left' (by simp)]
    exact ofBigEndian_bigEndian hexp
  · rw [← List.append_assoc, ← List.append_assoc, ← List.append_assoc,
      List.drop_left' (by simp), List.take_left' (by simp)]
    exact cString_padded h.hostname_length h.hostname_nul

theorem leaseRecords_flatMap {records : List DhcpOfferedAddr}
    (h : ∀ record ∈ records, Representable record) :
    leaseRecords (records.flatMap recordBytes) = records := by
  have hlen : (records.flatMap recordBytes).length / 88 = records.length := by
    rw [List.length_flatMap]
    simp [length_recordBytes]
  rw [leaseRecords, hlen]
  clear hlen
  induction records with
  | nil => rfl
  | cons record rest ih =>
      rw [List.flatMap_cons, List.length_cons, parseRecords,
        parseRecord_recordBytes (h record List.mem_cons_self),
        List.drop_left' (length_recordBytes record)]
      congr 1
      exact ih fun r hr => h r (List.mem_cons_of_mem _ hr)

end Xwr100.Udhcpd
