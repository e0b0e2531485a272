import Mathlib.Tactic.Common
import Mathlib.Logic.Function.Basic

/-!
# DHCP messages as `udhcpd` reads them

A received `struct dhcpMessage` is kept as the memory it occupies, because
`get_option` walks raw bytes and may look past the field it scans.  Addresses
are the numbers their four bytes spell: the target is big-endian, so `ntohl`
and `htonl` are the identity there.
-/

namespace Xwr100.Udhcpd

/-- An IPv4 address. -/
abbrev Addr := BitVec 32

/-- The sixteen bytes of a `chaddr` field, split where the six-byte comparison of
`find_lease_by_chaddr` stops. -/
structure Chaddr where
  mac : BitVec 48
  pad : BitVec 80
deriving DecidableEq, Repr

/-- `blank_chaddr`: sixteen zero bytes. -/
def blankChaddr : Chaddr := ⟨0#48, 0#80⟩

/-- Memory from the first byte of a `struct dhcpMessage` on; what lies beyond its
548 bytes is whatever follows the variable. -/
structure DhcpMessage where
  mem : Nat → UInt8

namespace DhcpMessage

/-- The `count` bytes from `pos` on as one big-endian number. -/
def readBytes (m : DhcpMessage) (pos : Nat) : Nat → Nat
  | 0 => 0
  | count + 1 => m.readBytes pos count * 256 + (m.mem (pos + count)).toNat

/-- A `memcpy` of four bytes into a `u_int32_t`. -/
def readAddr (m : DhcpMessage) (pos : Nat) : Addr := BitVec.ofNat 32 (m.readBytes pos 4)

def ciaddr (m : DhcpMessage) : Addr := m.readAddr 12

def chaddr (m : DhcpMessage) : Chaddr :=
  ⟨BitVec.ofNat 48 (m.readBytes 28 6), BitVec.ofNat 80 (m.readBytes 34 10)⟩

/-- The C string of at most `count` bytes that `strncpy` copies from `pos`. -/
def readString (m : DhcpMessage) (pos count : Nat) : List UInt8 :=
  ((List.range count).map fun k => m.mem (pos + k)).takeWhile (· ≠ 0)

/-- A client's message with hardware address `mac`, address `ciaddr` and the given option
bytes, everything else zero. -/
def ofOptions (mac : BitVec 48) (ciaddr : Addr) (options : List UInt8) : DhcpMessage where
  mem pos :=
    if 12 ≤ pos ∧ pos < 16 then UInt8.ofNat (ciaddr.toNat >>> (8 * (15 - pos)))
    else if 28 ≤ pos ∧ pos < 34 then UInt8.ofNat (mac.toNat >>> (8 * (33 - pos)))
    else if 236 ≤ pos then ([0x63, 0x82, 0x53, 0x63] ++ options).getD (pos - 236) 0
    else 0

end DhcpMessage

/-! ## Option codes -/

def dhcpPadding : UInt8 := 0x00
def dhcpHostName : UInt8 := 0x0c
def dhcpRequestedIp : UInt8 := 0x32
def dhcpLeaseTime : UInt8 := 0x33
def dhcpOptionOver : UInt8 := 0x34
def dhcpMessageType : UInt8 := 0x35
def dhcpServerId : UInt8 := 0x36
def dhcpVendor : UInt8 := 0x3c
def dhcpEnd : UInt8 := 0xff

/-- `DHCP_MAGIC`, the cookie in front of the options. -/
def dhcpMagic : Nat := 0x63825363

/-- The message types the server dispatches on; any other value is reported and ignored. -/
inductive MessageType where
  | discover
  | request
  | decline
  | release
  | inform
  | unsupported
deriving DecidableEq, Repr

def MessageType.ofByte (b : UInt8) : MessageType :=
  if b = 1 then .discover
  else if b = 3 then .request
  else if b = 4 then .decline
  else if b = 7 then .release
  else if b = 8 then .inform
  else .unsupported

/-! ## `get_option` -/

/-- The field `curr` names while options are scanned. -/
inductive OptionField where
  | options
  | file
  | sname
deriving DecidableEq, Repr

/-- The loop variables of `get_option`: `optionptr` as a position in the message,
the index into the field, the field's length, the overload byte and `curr`. -/
structure OptionScan where
  optionptr : Nat
  i : Nat
  length : Nat
  overload : UInt8
  curr : OptionField

namespace OptionScan

/-- The scan as `get_option` starts it. -/
def start : OptionScan := ⟨240, 0, 308, 0, .options⟩

def byte (scan : OptionScan) (m : DhcpMessage) (k : Nat) : UInt8 :=
  m.mem (scan.optionptr + k)

/-- Where `DHCP_END` leads: the overloaded `file` field, then `sname`, or out. -/
def next (scan : OptionScan) : Option OptionScan :=
  if scan.curr = .options ∧ scan.overload &&& 1 ≠ 0 then
    some { scan with optionptr := 108, i := 0, length := 128, curr := .file }
  else if scan.curr = .file ∧ scan.overload &&& 2 ≠ 0 then
    some { scan with optionptr := 44, i := 0, length := 64, curr := .sname }
  else none

end OptionScan

/-- Five bytes of vendor class compared with `VIZIO`. -/
def isVizio (m : DhcpMessage) (pos : Nat) : Bool :=
  m.mem pos = 0x56 && m.mem (pos + 1) = 0x49 && m.mem (pos + 2) = 0x5a &&
    m.mem (pos + 3) = 0x49 && m.mem (pos + 4) = 0x4f

/-- The loop of `get_option`.  It returns the position of the option's data and the
value it leaves in the global `vizio_device`. -/
def getOptionLoop (m : DhcpMessage) (code : UInt8) :
    Nat → OptionScan → Bool → Option Nat × Bool
  | 0, _, vizio => (none, vizio)
  | fuel + 1, scan, vizio =>
      if scan.length ≤ scan.i then (none, vizio)
      else
        let opt := scan.byte m scan.i
        let len := (scan.byte m (scan.i + 1)).toNat
        if opt = code then
          if scan.length ≤ scan.i + 1 + len then (none, vizio)
          else (some (scan.optionptr + scan.i + 2), vizio)
        else if opt = dhcpVendor then
          getOptionLoop m code fuel { scan with i := scan.i + (len + 2) }
            (isVizio m (scan.optionptr + scan.i + 2))
        else if opt = dhcpPadding then
          getOptionLoop m code fuel { scan with i := scan.i + 1 } vizio
        else if opt = dhcpOptionOver then
          if scan.length ≤ scan.i + 1 + len then (none, vizio)
          else
            -- the source reads the data one byte late and takes the length at the field's start
            getOptionLoop m code fuel
              { scan with
                overload := scan.byte m (scan.i + 3)
                i := scan.i + ((scan.byte m 1).toNat + 2) } vizio
        else if opt = dhcpEnd then
          match scan.next with
          | some scan' => getOptionLoop m code fuel scan' vizio
          | none => (none, vizio)
        else
          getOptionLoop m code fuel { scan with i := scan.i + (len + 2) } vizio

/-- `get_option`: every turn of the loop advances in a field of 308, 128 or 64 bytes or
enters the next field, so the loop ends within 512 turns. -/
def getOption (m : DhcpMessage) (code : UInt8) (vizio : Bool) : Option Nat × Bool :=
  getOptionLoop m code 512 OptionScan.start vizio

/-- The position `get_option` returns does not depend on the global it updates. -/
theorem getOptionLoop_fst (m : DhcpMessage) (code : UInt8) (fuel : Nat) (scan : OptionScan)
    (v w : Bool) :
    (getOptionLoop m code fuel scan v).1 = (getOptionLoop m code fuel scan w).1 := by
  induction fuel generalizing scan v w with
  | zero => rfl
  | succ fuel ih =>
      simp only [getOptionLoop]
      split_ifs <;> first | rfl | exact ih _ _ _ | skip
      cases scan.next with
      | none => rfl
      | some scan' => exact ih _ _ _

def DhcpMessage.findOption (m : DhcpMessage) (code : UInt8) : Option Nat :=
  (getOption m code false).1

theorem getOption_fst (m : DhcpMessage) (code : UInt8) (v : Bool) :
    (getOption m code v).1 = m.findOption code :=
  getOptionLoop_fst m code 512 OptionScan.start v false

end Xwr100.Udhcpd
