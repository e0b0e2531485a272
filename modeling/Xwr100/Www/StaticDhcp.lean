import Xwr100.Lib.Run
import Xwr100.Www.Text

/-! # The table of reserved addresses

`Static_dhcp.htm` keeps ten reservations in hidden fields.  Clients are added from the list
of the DHCP server, others by hand; the page shows a row for every slot that has a host
octet, and saving copies what the rows hold back into the fields and submits them.  What is
typed, checked or left in the rows comes with the event.
-/

namespace Xwr100.Www.StaticDhcp

open Lib

structure Slot where
  name : Text
  ip : Text
  mac : Text
  enabled : Text
  expire : Text
  deriving DecidableEq

def emptySlot : Slot := ⟨[], [], [], [], []⟩

abbrev Table := Nat → Slot

structure Page where
  table : Table
  stored : Table

/-- The letters beyond `z` stay as they are here.  Only the ligature of two `f`s has hex digits
for capitals, so an address with any other is refused with its capitals as well. -/
def toUpperCase (t : Text) : Text :=
  t.flatMap fun c => if c = Char.ofNat 64256 then ['F', 'F'] else [c.toUpper]

def isHexDigit (c : Char) : Bool :=
  c.isDigit || ('a' ≤ c && c ≤ 'f') || ('A' ≤ c && c ≤ 'F')

def hexPairs (t : Text) : Bool :=
  let pairs := t.splitOn ':'
  pairs.length == 6 && pairs.all fun p => p.length == 2 && p.all isHexDigit

def sixTimes (pair : Text) : Text := [':'].intercalate (List.replicate 6 pair)

def isLegalMACAddress (t : Text) : Bool :=
  hexPairs t && !(t == sixTimes ['F', 'F'] || t == sixTimes ['0', '0'])

/-- `char_hex_to_oct`, where a character that is no digit is not a number. -/
def charHexToOct (c : Char) : Option Nat :=
  if 'A' ≤ c ∧ c ≤ 'F' then some (c.toNat - 55)
  else if 'a' ≤ c ∧ c ≤ 'f' then some (c.toNat - 87)
  else if c.isDigit then some (c.toNat - 48)
  else none

def fourOctets (t : Text) : Bool :=
  let parts := t.splitOn '.'
  parts.length == 4 && parts.all fun p => (wholeNumber p).any fun d => d < 256

structure Client where
  name : Text
  ip : Text
  mac : Text
  expire : Text
  ip_ok : fourOctets ip
  mac_ok : hexPairs mac

def Client.hostOctet (c : Client) : Text := getSegment '.' c.ip 4

/-- `DataShow` gives a client without a name a blank for one. -/
def Client.shownName (c : Client) : Text :=
  if c.name = [] then ['&', 'n', 'b', 's', 'p', ';'] else c.name

def findSlot (free : Slot → Bool) (t : Table) : Option Nat :=
  (List.range 10).find? fun i => free (t i)

/-- A slot has the octet or the address of the client; slots that are not used count too. -/
def taken (t : Table) (c : Client) : Bool :=
  (List.range 10).any fun i => (t i).ip == c.hostOctet || (t i).mac == c.mac

def clientSlot (c : Client) : Slot := ⟨c.shownName, c.hostOctet, c.mac, ['1'], c.expire⟩

/-- What `select_add` does with a checked client; `none` ends the loop. -/
def addClient (t : Table) (c : Client) : Option Table :=
  if taken t c then some t
  else (findSlot (fun s => s.name == [] && s.ip == []) t).map fun i =>
    Function.update t i (clientSlot c)

/-- `select_add`, over the checked clients. -/
def selectAdd : Table → List Client → Table
  | t, [] => t
  | t, c :: rest =>
      match addClient t c with
      | none => t
      | some t => selectAdd t rest

/-- The checks of `add` before the table is looked at; the address is in capitals. -/
def admits (dhcpStart dhcpEnd name ip mac : Text) : Bool :=
  checkQuote1 name &&
    !compareNumbers (fun x y => x < y) (parseInt ip) (parseInt dhcpStart) &&
    !compareNumbers (fun x y => y < x) (parseInt ip) (parseInt dhcpEnd) &&
    ipCheck ip && isLegalMACAddress mac &&
    (mac[1]?.bind charHexToOct).any fun d => d % 2 == 0

def listed (t : Table) (ip mac : Text) : Bool :=
  (List.range 10).any fun i => (t i).ip != [] && ((t i).ip == ip || (t i).mac == mac)

def manualSlot (name ip mac : Text) : Slot := ⟨name, ip, mac, ['1'], ['0']⟩

/-- `add`, behind its checks. -/
def addManual (t : Table) (s : Slot) : Table :=
  match findSlot (fun s => s.ip == []) t with
  | none => t
  | some i => Function.update t i s

def add (dhcpStart dhcpEnd : Text) (t : Table) (name ip mac : Text) : Table :=
  if !admits dhcpStart dhcpEnd name ip (toUpperCase mac) then t
  else if listed t ip (toUpperCase mac) then t
  else addManual t (manualSlot name ip (toUpperCase mac))

def del (t : Table) (index : Nat) : Table := Function.update t index emptySlot

structure Edit where
  name : Text
  ip : Text

/-- A pass of the loop of `ValidateForm`.  The name is copied before the octet is checked, and a
refused octet ends the script. -/
def saveSlot (edits : Nat → Edit) (t : Table) (i : Nat) : Except Table Table :=
  if (t i).ip = [] then .ok t
  else
    let s := { t i with name := (edits i).name }
    if !ipCheck (edits i).ip then .error (Function.update t i s)
    else .ok (Function.update t i { s with
      ip := (edits i).ip
      enabled := if (edits i).name ≠ [] ∧ (edits i).ip ≠ [] then ['1'] else ['0'] })

def validateForm (edits : Nat → Edit) (t : Table) : Except Table Table :=
  (List.range 10).foldlM (saveSlot edits) t

inductive Event
  | load
  | add (name ip mac : Text)
  | selectAdd (clients : List Client)
  | del (index : Nat)
  | save (edits : Nat → Edit)

/-- The page with the fields that saving left; the router stores what is submitted. -/
def afterSave (p : Page) : Except Table Table → Page
  | .error t => { p with table := t }
  | .ok t => ⟨t, t⟩

def step (dhcpStart dhcpEnd : Text) (p : Page) : Event → Page
  | .load => { p with table := p.stored }
  | .add name ip mac => { p with table := add dhcpStart dhcpEnd p.table name ip mac }
  | .selectAdd clients => { p with table := selectAdd p.table clients }
  | .del index => { p with table := del p.table index }
  | .save edits => afterSave p (validateForm edits p.table)

def init : Page := ⟨fun _ => emptySlot, fun _ => emptySlot⟩

end Xwr100.Www.StaticDhcp
